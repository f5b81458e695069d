import Dockboard.Key

set_option autoImplicit false

/-! # Fields

A field is one line of text that can be edited, with a cursor between two of its characters.
-/

namespace Dockboard

/-- A line of text that is being edited. -/
structure Field where
  text : List Char := []
  /-- How many characters stand before the cursor. -/
  cursor : Nat := 0
  deriving DecidableEq, Repr, Inhabited

namespace Field

/-- A field with `text` and the cursor behind it. -/
def ofText (text : List Char) : Field := ⟨text, text.length⟩

/-- What stands before the cursor. -/
def before (f : Field) : List Char := f.text.take f.cursor

/-- What stands behind the cursor. -/
def after (f : Field) : List Char := f.text.drop f.cursor

/-- Put a character before the cursor. -/
def insert (f : Field) (c : Char) : Field := ⟨f.before ++ c :: f.after, f.cursor + 1⟩

/-- Remove the character before the cursor. -/
def eraseBefore (f : Field) : Field := ⟨f.before.dropLast ++ f.after, f.cursor - 1⟩

/-- Remove the character behind the cursor. -/
def eraseAfter (f : Field) : Field := ⟨f.before ++ f.after.tail, f.cursor⟩

/-- Edit the field or move its cursor by a key; no key that means nothing here has an answer. -/
def edit? (f : Field) (key : Key) : Option Field :=
  match key.code with
  | .char c =>
      if !key.control then some (f.insert c)
      else if c = 'u' then some {}
      else if c = 'a' then some { f with cursor := 0 }
      else if c = 'e' then some { f with cursor := f.text.length }
      else none
  | .backspace => if 0 < f.cursor then some f.eraseBefore else none
  | .delete => if f.cursor < f.text.length then some f.eraseAfter else none
  | .left => some { f with cursor := f.cursor - 1 }
  | .right => some { f with cursor := min (f.cursor + 1) f.text.length }
  | .home => some { f with cursor := 0 }
  | .toEnd => some { f with cursor := f.text.length }
  | _ => none

/-- Edit the field by a key that may mean nothing here. -/
def edit (f : Field) (key : Key) : Field := (f.edit? key).getD f

end Field

end Dockboard
