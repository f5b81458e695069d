import Dockboard.Prompt.Field

set_option autoImplicit false

/-! # Prompts

A prompt stands before everything else until it has its answer. It asks for a confirmation, for
a text, or for a choice from a menu. It knows nothing of what the answer is for: it was given a
tag and a target when it was opened, and hands them back with the answer.
-/

namespace Dockboard

/-- The resource a prompt was opened for. -/
structure Target where
  id : String := ""
  name : String := ""
  deriving DecidableEq, Repr, Inhabited

/-- An answer to a prompt; `A` is the type of the choices of a menu. -/
inductive Outcome (A : Type) where
  | confirmed
  | declined
  | value (text : List Char)
  /-- A text was asked for in vain. -/
  | cancelled
  | selected (action : A)
  /-- A menu was closed without a choice. -/
  | dismissed
  deriving DecidableEq, Repr

/-- A choice of a menu. -/
structure MenuItem (A : Type) where
  label : String
  action : A
  deriving DecidableEq, Repr

/-- A menu. -/
structure Menu (A : Type) where
  title : String
  items : List (MenuItem A)
  /-- The place of the item that is marked. -/
  selected : Nat := 0
  deriving DecidableEq, Repr

namespace Menu

variable {A : Type}

/-- Mark the item above, from the first one the last. -/
def up (m : Menu A) : Menu A :=
  if m.items.isEmpty then m
  else { m with selected := (m.selected + m.items.length - 1) % m.items.length }

/-- Mark the item below, from the last one the first. -/
def down (m : Menu A) : Menu A :=
  if m.items.isEmpty then m else { m with selected := (m.selected + 1) % m.items.length }

end Menu

/-- What a prompt asks for. -/
inductive Question (A : Type) where
  | confirm (prompt : String)
  | input (prompt : String) (field : Field)
  | menu (menu : Menu A)
  deriving DecidableEq, Repr

/-- A prompt. -/
structure Prompt (T A : Type) where
  tag : T
  target : Target
  question : Question A
  deriving DecidableEq, Repr

namespace Question

variable {A : Type}

/-- Press a key: either the question is answered, or it stays open. -/
def press (question : Question A) (key : Key) : Outcome A ⊕ Question A :=
  match question with
  | .confirm prompt =>
      match key.code with
      | .char 'y' | .char 'Y' => .inl .confirmed
      | .char 'n' | .char 'N' | .esc | .enter => .inl .declined
      | _ => .inr (.confirm prompt)
  | .input prompt field =>
      match key.code with
      | .enter => .inl (.value field.text)
      | .esc => .inl .cancelled
      | _ => .inr (.input prompt (field.edit key))
  | .menu m =>
      match key.code with
      | .up | .char 'k' => .inr (.menu m.up)
      | .down | .char 'j' => .inr (.menu m.down)
      | .enter =>
          match m.items[m.selected]? with
          | some item => .inl (.selected item.action)
          | none => .inr (.menu m)
      | .esc | .char 'q' => .inl .dismissed
      | _ => .inr (.menu m)

end Question

namespace Prompt

variable {T A : Type}

/-- Ask for a confirmation. -/
def confirm (tag : T) (target : Target) (prompt : String) : Prompt T A :=
  ⟨tag, target, .confirm prompt⟩

/-- Ask for a text, `initial` being offered. -/
def input (tag : T) (target : Target) (prompt : String) (initial : List Char) : Prompt T A :=
  ⟨tag, target, .input prompt (.ofText initial)⟩

/-- Ask for a choice. -/
def menu (tag : T) (target : Target) (title : String) (items : List (MenuItem A)) :
    Prompt T A :=
  ⟨tag, target, .menu { title, items }⟩

/-- Press a key: either the prompt has its answer, or it stays open. -/
def press (prompt : Prompt T A) (key : Key) : Outcome A ⊕ Prompt T A :=
  match prompt.question.press key with
  | .inl outcome => .inl outcome
  | .inr question => .inr { prompt with question }

end Prompt

end Dockboard
