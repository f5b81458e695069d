import Dockboard.Prompt.Field
import Dockboard.Proofs.Text.Bytes

set_option autoImplicit false

/-! # Editing on both sides of a cursor

To edit a line is to work at the ends of two lists, the characters on either side of the cursor. A
field has one list instead and a number, and memory has its bytes.

    Halves              the characters before the cursor, nearest first, and those behind it
    Halves.edit?        what a key does to them
    Halves.field        the field they make up
    ByteField           the bytes of a text, and how many characters stand before the cursor
    ByteField.edit      what a key does to them, and whether it meant something

Bytes are put in and taken out at a place counted in bytes, which is found by going through the
characters. If it were inside a character there would be no answer. Key by key the three agree
(`Halves.edit?_field`, `ByteField.edit_ofField`), and so they do after any number of keys
(`Field.edits_agree`).
-/

namespace Dockboard

open Text (byteLength)
open Text.Utf8

/-! ## Two lists -/

/-- A line of text on either side of a cursor. -/
structure Halves where
  /-- The characters before the cursor, the nearest first. -/
  left : List Char
  /-- The characters behind the cursor. -/
  right : List Char
  deriving DecidableEq, Repr

namespace Halves

/-- The whole of `text` before the cursor. -/
def ofText (text : List Char) : Halves := ⟨text.reverse, []⟩

/-- The text on both sides. -/
def text (z : Halves) : List Char := z.left.reverse ++ z.right

/-- A character comes to stand before the cursor. -/
def insert (c : Char) (z : Halves) : Halves := ⟨c :: z.left, z.right⟩

/-- The character before the cursor goes, if there is one. -/
def eraseLeft? : Halves → Option Halves
  | ⟨[], _⟩ => none
  | ⟨_ :: left, right⟩ => some ⟨left, right⟩

/-- The character behind the cursor goes, if there is one. -/
def eraseRight? : Halves → Option Halves
  | ⟨_, []⟩ => none
  | ⟨left, _ :: right⟩ => some ⟨left, right⟩

/-- The cursor passes the character before it, unless it is at the beginning. -/
def goLeft : Halves → Halves
  | ⟨[], right⟩ => ⟨[], right⟩
  | ⟨c :: left, right⟩ => ⟨left, c :: right⟩

/-- The cursor passes the character behind it, unless it is at the end. -/
def goRight : Halves → Halves
  | ⟨left, []⟩ => ⟨left, []⟩
  | ⟨left, c :: right⟩ => ⟨c :: left, right⟩

/-- The cursor goes to the beginning. -/
def toStart (z : Halves) : Halves := ⟨[], z.text⟩

/-- The cursor goes to the end. -/
def toEnd (z : Halves) : Halves := ⟨z.text.reverse, []⟩

/-- What a key does, if it means something here. -/
def edit? (z : Halves) (key : Key) : Option Halves :=
  match key.code with
  | .char c =>
      if key.control then
        if c = 'u' then some ⟨[], []⟩
        else if c = 'a' then some z.toStart
        else if c = 'e' then some z.toEnd
        else none
      else some (z.insert c)
  | .backspace => z.eraseLeft?
  | .delete => z.eraseRight?
  | .left => some z.goLeft
  | .right => some z.goRight
  | .home => some z.toStart
  | .toEnd => some z.toEnd
  | _ => none

/-- What a key does, which may be nothing. -/
def edit (z : Halves) (key : Key) : Halves := (z.edit? key).getD z

/-- The field of the text on both sides. -/
def field (z : Halves) : Field := ⟨z.text, z.left.length⟩

variable (z : Halves)

@[simp] theorem field_text : z.field.text = z.text := rfl

@[simp] theorem field_cursor : z.field.cursor = z.left.length := rfl

@[simp] theorem length_text : z.text.length = z.left.length + z.right.length := by
  rw [text, List.length_append, List.length_reverse]

@[simp] theorem field_before : z.field.before = z.left.reverse :=
  List.take_left' List.length_reverse

@[simp] theorem field_after : z.field.after = z.right := List.drop_left' List.length_reverse

theorem ofText_field (text : List Char) : (ofText text).field = Field.ofText text := by
  simp [field, ofText, Field.ofText, Halves.text]

theorem insert_field (c : Char) : z.field.insert c = (z.insert c).field := by
  rw [Field.insert, field_before, field_after]
  simp [field, Halves.text, insert]

theorem toStart_field : { z.field with cursor := 0 } = z.toStart.field := rfl

theorem toEnd_field : { z.field with cursor := z.field.text.length } = z.toEnd.field := by
  simp [field, Halves.text, toEnd, Nat.add_comm]

theorem eraseLeft?_field :
    (if 0 < z.field.cursor then some z.field.eraseBefore else none) =
      z.eraseLeft?.map field := by
  obtain ⟨left, right⟩ := z
  cases left with
  | nil => rfl
  | cons c left =>
      have hpos : 0 < (Halves.field ⟨c :: left, right⟩).cursor := Nat.succ_pos _
      rw [if_pos hpos, Field.eraseBefore, field_before, field_after]
      simp [field, Halves.text, eraseLeft?]

theorem eraseRight?_field :
    (if z.field.cursor < z.field.text.length then some z.field.eraseAfter else none) =
      z.eraseRight?.map field := by
  obtain ⟨left, right⟩ := z
  cases right with
  | nil => simp [eraseRight?]
  | cons c right =>
      rw [if_pos (by simp), Field.eraseAfter, field_before, field_after]
      rfl

theorem goLeft_field : { z.field with cursor := z.field.cursor - 1 } = z.goLeft.field := by
  obtain ⟨left, right⟩ := z
  cases left with
  | nil => rfl
  | cons c left => simp [field, Halves.text, goLeft]

theorem goRight_field :
    { z.field with cursor := min (z.field.cursor + 1) z.field.text.length } =
      z.goRight.field := by
  obtain ⟨left, right⟩ := z
  cases right with
  | nil => simp [field, Halves.text, goRight]
  | cons c right => simp [field, Halves.text, goRight]

/-- **Fields.** A key does to a field what it does to the two lists, and means something to both or
to neither. -/
theorem edit?_field (key : Key) : z.field.edit? key = (z.edit? key).map field := by
  unfold Field.edit? edit?
  cases key.code with
  | char c =>
      cases key.control with
      | false => exact congrArg some (z.insert_field c)
      | true =>
          by_cases hu : c = 'u'
          · simp [hu, field, Halves.text]
          · by_cases ha : c = 'a'
            · simpa [ha] using z.toStart_field
            · by_cases he : c = 'e'
              · simpa [he] using z.toEnd_field
              · simp [hu, ha, he]
  | backspace => exact z.eraseLeft?_field
  | delete => exact z.eraseRight?_field
  | left => exact congrArg some z.goLeft_field
  | right => exact congrArg some z.goRight_field
  | home => rfl
  | toEnd => exact congrArg some z.toEnd_field
  | _ => rfl

theorem edit_field (key : Key) : z.field.edit key = (z.edit key).field := by
  rw [Field.edit, edit, edit?_field]
  cases z.edit? key <;> rfl

theorem edits_field (keys : List Key) (z : Halves) :
    keys.foldl Field.edit z.field = (keys.foldl edit z).field := by
  induction keys generalizing z with
  | nil => rfl
  | cons key keys ih => rw [List.foldl_cons, List.foldl_cons, edit_field, ih]

end Halves

/-! ## Bytes -/

/-- Put a character at a place in some bytes. It has no answer inside a character. -/
def insertAt? (bytes : List UInt8) (n : Nat) (c : Char) : Option (List UInt8) :=
  if atBoundary bytes n then some (bytes.take n ++ encoding c ++ bytes.drop n) else none

/-- Take out the character that begins at a place in some bytes. It has no answer inside a
character, and none at the end. -/
def removeAt? (bytes : List UInt8) (n : Nat) : Option (List UInt8) :=
  if atBoundary bytes n then
    match bytes.drop n with
    | [] => none
    | lead :: rest => some (bytes.take n ++ rest.drop (width lead - 1))
  else none

theorem insertAt?_encode (before after : List Char) (c : Char) :
    insertAt? (encode (before ++ after)) (byteLength before) c =
      some (encode (before ++ c :: after)) := by
  rw [insertAt?, if_pos (atBoundary_encode before after), encode_append, encode_append,
    encode_cons, List.take_left' (length_encode before), List.drop_left' (length_encode before),
    List.append_assoc]

theorem removeAt?_encode (before after : List Char) (c : Char) :
    removeAt? (encode (before ++ c :: after)) (byteLength before) =
      some (encode (before ++ after)) := by
  obtain ⟨lead, more, hc, hwidth, hlength, -⟩ := exists_encoding c
  have hmore : width lead - 1 = more.length := by omega
  rw [removeAt?, if_pos (atBoundary_encode before _), encode_append, encode_append,
    List.take_left' (length_encode before), List.drop_left' (length_encode before), encode_cons,
    hc, List.cons_append]
  simp only [hmore, List.drop_left]

/-- The bytes of a line of text that is being edited. -/
structure ByteField where
  bytes : List UInt8
  /-- How many characters stand before the cursor. -/
  cursor : Nat

namespace ByteField

/-- The bytes of `text` and the cursor behind them. -/
def ofText (text : List Char) : ByteField := ⟨encode text, charCount (encode text)⟩

/-- The bytes of a field. -/
def ofField (f : Field) : ByteField := ⟨encode f.text, f.cursor⟩

/-- What a key does, and whether it meant something. There is no answer if a character was to be put
in or taken out where none begins. -/
def edit (b : ByteField) (key : Key) : Option (ByteField × Bool) :=
  match key.code with
  | .char c =>
      if key.control then
        if c = 'u' then some (⟨[], 0⟩, true)
        else if c = 'a' then some ({ b with cursor := 0 }, true)
        else if c = 'e' then some ({ b with cursor := charCount b.bytes }, true)
        else some (b, false)
      else
        (insertAt? b.bytes (byteAt b.bytes b.cursor) c).map fun bytes =>
          (⟨bytes, b.cursor + 1⟩, true)
  | .backspace =>
      if 0 < b.cursor then
        (removeAt? b.bytes (byteAt b.bytes (b.cursor - 1))).map fun bytes =>
          (⟨bytes, b.cursor - 1⟩, true)
      else some (b, false)
  | .delete =>
      if b.cursor < charCount b.bytes then
        (removeAt? b.bytes (byteAt b.bytes b.cursor)).map fun bytes => (⟨bytes, b.cursor⟩, true)
      else some (b, false)
  | .left => some ({ b with cursor := b.cursor - 1 }, true)
  | .right => some ({ b with cursor := min (b.cursor + 1) (charCount b.bytes) }, true)
  | .home => some ({ b with cursor := 0 }, true)
  | .toEnd => some ({ b with cursor := charCount b.bytes }, true)
  | _ => some (b, false)

/-- What keys do, one after the other. -/
def run (b : ByteField) : List Key → Option ByteField
  | [] => some b
  | key :: keys => (b.edit key).bind fun edited => edited.1.run keys

variable (z : Halves)

theorem byteAt_field : byteAt (encode z.text) z.left.length = byteLength z.left.reverse := by
  have hat := byteAt_encode z.left.reverse z.right
  rwa [List.length_reverse] at hat

theorem insert_ofField (c : Char) :
    insertAt? (encode z.text) (byteAt (encode z.text) z.left.length) c =
      some (encode (z.insert c).text) := by
  rw [byteAt_field, Halves.text, insertAt?_encode]
  simp [Halves.insert, Halves.text]

theorem eraseLeft?_ofField :
    (if 0 < z.left.length then
        (removeAt? (encode z.text) (byteAt (encode z.text) (z.left.length - 1))).map fun bytes =>
          (⟨bytes, z.left.length - 1⟩, true)
      else some (ofField z.field, false)) =
      some (ofField (z.eraseLeft?.getD z).field, z.eraseLeft?.isSome) := by
  obtain ⟨left, right⟩ := z
  cases left with
  | nil => rfl
  | cons c left =>
      have htext : Halves.text ⟨c :: left, right⟩ = left.reverse ++ c :: right := by
        simp [Halves.text]
      have hat := byteAt_encode left.reverse (c :: right)
      rw [List.length_reverse] at hat
      have hpos : 0 < (c :: left).length := Nat.succ_pos _
      rw [if_pos hpos, htext, List.length_cons, Nat.add_sub_cancel, hat, removeAt?_encode]
      rfl

theorem eraseRight?_ofField :
    (if z.left.length < charCount (encode z.text) then
        (removeAt? (encode z.text) (byteAt (encode z.text) z.left.length)).map fun bytes =>
          (⟨bytes, z.left.length⟩, true)
      else some (ofField z.field, false)) =
      some (ofField (z.eraseRight?.getD z).field, z.eraseRight?.isSome) := by
  obtain ⟨left, right⟩ := z
  rw [charCount_encode, Halves.length_text, byteAt_field]
  cases right with
  | nil => simp [Halves.eraseRight?]
  | cons c right =>
      have hlt : left.length < left.length + (c :: right).length := by simp
      rw [if_pos hlt, Halves.text, removeAt?_encode]
      rfl

/-- **Bytes.** A key does to the bytes of a field what it does to the two lists, and tells whether
it meant something. -/
theorem edit_ofField (key : Key) :
    (ofField z.field).edit key = some (ofField (z.edit key).field, (z.edit? key).isSome) := by
  unfold edit Halves.edit Halves.edit?
  cases key.code with
  | char c =>
      cases key.control with
      | false =>
          simp [ofField, insert_ofField, Halves.insert]
      | true =>
          by_cases hu : c = 'u'
          · simp [hu, ofField, Halves.text]
          · by_cases ha : c = 'a'
            · simp [ha, ofField, ← z.toStart_field]
            · by_cases he : c = 'e'
              · simp [he, ofField, charCount_encode, ← z.toEnd_field]
              · simp [hu, ha, he]
  | backspace => exact eraseLeft?_ofField z
  | delete => exact eraseRight?_ofField z
  | left => simp [ofField, ← z.goLeft_field]
  | right => simp [ofField, charCount_encode, ← z.goRight_field]
  | home => simp [ofField, ← z.toStart_field]
  | toEnd => simp [ofField, charCount_encode, ← z.toEnd_field]
  | _ => rfl

theorem run_ofField (keys : List Key) (z : Halves) :
    (ofField z.field).run keys = some (ofField (keys.foldl Halves.edit z).field) := by
  induction keys generalizing z with
  | nil => rfl
  | cons key keys ih => rw [run, edit_ofField, Option.bind_some, ih, List.foldl_cons]

theorem ofField_ofText (text : List Char) : ofField (Field.ofText text) = ofText text := by
  rw [ofField, ofText, charCount_encode]
  rfl

end ByteField

/-- **Editing.** Whatever is typed into a field that held a text, its text is that of the two lists
to which the same keys were applied, and its cursor stands between them. Its bytes never have a
character put in or taken out inside another one, and hold the same text. The next key means
something to the field, to its bytes and to the two lists, or else changes none of them. -/
theorem Field.edits_agree (text : List Char) (keys : List Key) :
    let z := keys.foldl Halves.edit (Halves.ofText text)
    let f := keys.foldl Field.edit (Field.ofText text)
    f.text = z.left.reverse ++ z.right ∧ f.cursor = z.left.length ∧ f.cursor ≤ f.text.length ∧
      (ByteField.ofText text).run keys = some (.ofField f) ∧
      ∀ key, f.edit? key = (z.edit? key).map Halves.field ∧
        (ByteField.ofField f).edit key = some (.ofField (f.edit key), (f.edit? key).isSome) ∧
        (f.edit? key = none → f.edit key = f ∧ z.edit key = z) := by
  intro z f
  have hf : f = z.field := by
    show keys.foldl Field.edit (Field.ofText text) = _
    rw [← Halves.ofText_field, Halves.edits_field]
  have hrun : (ByteField.ofText text).run keys = some (.ofField z.field) := by
    rw [← ByteField.ofField_ofText, ← Halves.ofText_field, ByteField.run_ofField]
  rw [hf]
  refine ⟨rfl, rfl, by simp, hrun, fun key => ⟨z.edit?_field key, ?_, fun hnone => ⟨?_, ?_⟩⟩⟩
  · rw [ByteField.edit_ofField, z.edit_field, z.edit?_field, Option.isSome_map]
  · rw [Field.edit, hnone, Option.getD_none]
  · rw [z.edit?_field, Option.map_eq_none_iff] at hnone
    rw [Halves.edit, hnone, Option.getD_none]

end Dockboard
