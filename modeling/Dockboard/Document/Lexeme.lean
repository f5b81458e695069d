import Dockboard.Failure
import Dockboard.Text.Utf8

set_option autoImplicit false

/-! # The smallest parts of JSON

A reader takes something off the beginning of some bytes and leaves the rest, or finds a fault.
What ends too early is told apart from what is wrong, so each reader looks at its bytes from left
to right and reports the first fault it meets.

All that JSON itself writes is ASCII, so a byte is looked at as the character with its number.
Only what stands between quotes is text, and is decoded when its end has been found.

There are two ways of reading strings and numbers. What is asked for is read `strict`: the bytes
of a string form a text, its surrogates stand in pairs, and a number is not too large for a
floating-point one. What is skipped is read with less care.
-/

namespace Dockboard.Document

open Dockboard.Text

/-- Takes something off the beginning of some bytes. -/
abbrev Reader := StateT (List UInt8) (Except JsonFault)

namespace Reader

/-- Find a fault. -/
def fail {α : Type} (fault : JsonFault) : Reader α := fun _ => .error fault

/-- What a reader that repeats itself spends one byte of each time. If it is as long as what is left
to be read, the reader finds the end of that no later than the end of its fuel. -/
abbrev Fuel := List UInt8

/-- Read with as much fuel as there are bytes. -/
def fueled {α : Type} (reader : Fuel → Reader α) : Reader α := fun s => reader s s

/-- The next byte, which stays. -/
def look : Reader (Option Char) := fun s => .ok (s.head?.map Char.ofUInt8, s)

/-- Take the next byte off. -/
def next : Reader (Option Char) := fun s => .ok (s.head?.map Char.ofUInt8, s.tail)

/-- The bytes that may stand between the parts of a document: a space, a new line, a tab and a
carriage return. -/
def isSpace (b : UInt8) : Bool := b == 32 || b == 10 || b == 9 || b == 13

/-- The next byte that is no space, which stays. -/
def peek : Reader (Option Char) := fun s =>
  let s := s.dropWhile isSpace
  .ok (s.head?.map Char.ofUInt8, s)

/-- Take off what is written by these letters. -/
def letters : List Char → Reader Unit
  | [] => pure ()
  | c :: rest => do
      match ← next with
      | none => fail .truncated
      | some d => if c = d then letters rest else fail .malformed

/-! ## Strings -/

/-- The value of a hexadecimal digit. -/
def hexDigit? (c : Char) : Option Nat :=
  if c.isDigit then some (c.toNat - 48)
  else if 'a' ≤ c ∧ c ≤ 'f' then some (c.toNat - 87)
  else if 'A' ≤ c ∧ c ≤ 'F' then some (c.toNat - 55)
  else none

/-- The number written by four hexadecimal digits. -/
def hexQuad : Reader Nat := fun s =>
  let quad := s.take 4
  if quad.length < 4 then .error .truncated
  else
    match quad.mapM fun b => hexDigit? (Char.ofUInt8 b) with
    | some digits => .ok (digits.foldl (fun n d => n * 16 + d) 0, s.drop 4)
    | none => .error .malformed

/-- Whether `n` is the first surrogate of a pair. -/
def isLeading (n : Nat) : Bool := 0xD800 ≤ n && n ≤ 0xDBFF

/-- Whether `n` is the second surrogate of a pair. -/
def isTrailing (n : Nat) : Bool := 0xDC00 ≤ n && n ≤ 0xDFFF

/-- The character a pair of surrogates stands for. -/
def ofPair (leading trailing : Nat) : Char :=
  Char.ofNat (0x10000 + (leading - 0xD800) * 0x400 + (trailing - 0xDC00))

/-- A character named by its number. Its second half follows if it is a pair of surrogates. -/
def unicode (strict : Bool) : Reader Char := do
  let n ← hexQuad
  if !strict then return Char.ofNat n
  else if isTrailing n then fail .malformed
  else if !isLeading n then return Char.ofNat n
  else
    letters ['\\', 'u']
    let m ← hexQuad
    if isTrailing m then return ofPair n m else fail .malformed

/-- The character meant by what follows a backslash. -/
def escape (strict : Bool) : Reader Char := do
  match ← next with
  | none => fail .truncated
  | some '"' => return '"'
  | some '\\' => return '\\'
  | some '/' => return '/'
  | some 'b' => return '\x08'
  | some 'f' => return '\x0c'
  | some 'n' => return '\n'
  | some 'r' => return '\r'
  | some 't' => return '\t'
  | some 'u' => unicode strict
  | some _ => fail .malformed

/-- The text that is written by these bytes. -/
def textOf (strict : Bool) (bytes : List UInt8) : Reader String :=
  match Utf8.decode? bytes with
  | some chars => return String.ofList chars
  | none => if strict then fail .malformed else return String.ofList (Utf8.lossy bytes)

/-- The text up to the closing quote, after the bytes already `read` in reverse. -/
def stringBody (strict : Bool) (read : List UInt8) : Fuel → Reader String
  | [] => fail .truncated
  | _ :: fuel => do
      match ← next with
      | none => fail .truncated
      | some '"' => textOf strict read.reverse
      | some '\\' => do
          let c ← escape strict
          stringBody strict ((Utf8.encode [c]).reverse ++ read) fuel
      | some c =>
          if c.toNat < 0x20 then fail .malformed
          else stringBody strict (c.toUInt8 :: read) fuel

/-- A string whose opening quote has been taken off. -/
def string (strict : Bool) : Reader String := fueled (stringBody strict [])

end Reader

end Dockboard.Document
