set_option autoImplicit false

/-! # Reading UTF-8 from a stream

Bytes arrive in pieces that may end inside a character. The reader is a machine over single
bytes whose state is the beginning of a character held back so far, so that how a stream is cut
makes no difference to the text that is read from it.

    width lead         how many bytes a character has that `lead` begins; 0 if none does
    follows held b     whether `b` can continue the beginning `held`
    step held b        one byte: what is held afterwards, and the characters it completes
    flush held         the end of the stream

A byte that continues nothing, and a beginning that is not continued, are each read as one
replacement character; a beginning that its next byte does not continue is given up, and the
byte is then read anew.
-/

namespace Dockboard.Text.Utf8

/-- What is read in place of bytes that form no character. -/
def replacement : Char := '\uFFFD'

/-- How many bytes the characters have that begin with `lead`, 0 if there are none. -/
def width (lead : UInt8) : Nat :=
  if lead < 0x80 then 1
  else if lead < 0xC2 then 0
  else if lead < 0xE0 then 2
  else if lead < 0xF0 then 3
  else if lead < 0xF5 then 4
  else 0

/-- Whether some character begins with `held` followed by `b`. The second byte is bounded more
closely after the four leads where a longer form, a surrogate or too large a number would
begin. -/
def follows (held : List UInt8) (b : UInt8) : Bool :=
  match held with
  | [] => false
  | [lead] =>
      let low := if lead = 0xE0 then 0xA0 else if lead = 0xF0 then 0x90 else 0x80
      let high := if lead = 0xED then 0x9F else if lead = 0xF4 then 0x8F else 0xBF
      low ≤ b && b ≤ high
  | _ => 0x80 ≤ b && b ≤ 0xBF

/-- The character written by `bytes`, a lead followed by all its continuations. -/
def decodeOne (bytes : List UInt8) : Char :=
  match bytes with
  | [a] => Char.ofNat a.toNat
  | [a, b] => Char.ofNat ((a.toNat % 0x20) * 0x40 + b.toNat % 0x40)
  | [a, b, c] =>
      Char.ofNat ((a.toNat % 0x10) * 0x1000 + (b.toNat % 0x40) * 0x40 + c.toNat % 0x40)
  | [a, b, c, d] =>
      Char.ofNat ((a.toNat % 0x08) * 0x40000 + (b.toNat % 0x40) * 0x1000 +
        (c.toNat % 0x40) * 0x40 + d.toNat % 0x40)
  | _ => replacement

/-- Read a byte with nothing held back. -/
def start (b : UInt8) : List UInt8 × List Char :=
  if width b = 0 then ([], [replacement])
  else if width b = 1 then ([], [decodeOne [b]])
  else ([b], [])

/-- Read one byte: what is held back afterwards, and the characters completed by it. -/
def step (held : List UInt8) (b : UInt8) : List UInt8 × List Char :=
  match held with
  | [] => start b
  | lead :: _ =>
      if follows held b then
        if held.length + 1 = width lead then ([], [decodeOne (held ++ [b])])
        else (held ++ [b], [])
      else ((start b).1, replacement :: (start b).2)

/-- Read bytes one after the other. -/
def feed (held : List UInt8) : List UInt8 → List UInt8 × List Char
  | [] => (held, [])
  | b :: rest =>
      let (held', now) := step held b
      let (held'', later) := feed held' rest
      (held'', now ++ later)

/-- What is read at the end of the stream from a beginning held back. -/
def flush (held : List UInt8) : List Char := if held.isEmpty then [] else [replacement]

/-- The text of `bytes`, each maximal part that forms no character replaced. -/
def lossy (bytes : List UInt8) : List Char :=
  let (held, text) := feed [] bytes
  text ++ flush held

theorem feed_append (held : List UInt8) (xs ys : List UInt8) :
    feed held (xs ++ ys) =
      ((feed (feed held xs).1 ys).1, (feed held xs).2 ++ (feed (feed held xs).1 ys).2) := by
  induction xs generalizing held with
  | nil => simp [feed]
  | cons b xs ih => simp [feed, ih, List.append_assoc]

/-- The bytes of `s`. -/
def encode (s : List Char) : List UInt8 := (String.ofList s).toUTF8.toList

/-- The text of `bytes`, if every part of them forms a character. -/
def decode? (bytes : List UInt8) : Option (List Char) :=
  let text := lossy bytes
  if encode text = bytes then some text else none

end Dockboard.Text.Utf8
