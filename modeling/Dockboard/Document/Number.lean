import Dockboard.Binary64
import Dockboard.Document.Lexeme

set_option autoImplicit false

/-! # Numbers in JSON

A number is written in decimal, with a sign, a point and an exponent if it needs them. Only whole
numbers without a point and an exponent mean anything here. All others must be read too, and it
is a fault if they are too large.

Whether a number is too large is found out in floating-point numbers, and therefore not exactly:

    significand   the digits as far as they fit into 64 bits,
    power         of ten, with the digits before the point that did not fit,

and both are rounded before they are multiplied. Digits behind the point that do not fit count
for nothing.
-/

namespace Dockboard.Document

open Dockboard.Text

/-- A number as it is written. -/
structure Decimal where
  isNegative : Bool
  /-- The digits before the point. -/
  whole : List Nat
  /-- The digits behind the point, if there is one. -/
  fraction : Option (List Nat)
  /-- The exponent, if there is one. -/
  exponent : Option Int
  deriving Repr

namespace Decimal

/-- The number written by decimal digits. -/
def ofDigits (ds : List Nat) : Nat := ds.foldl (fun n d => n * 10 + d) 0

/-- A number, if it is whole and written without a point and an exponent. There is no negative
zero among these. -/
def integer? (x : Decimal) : Option Int :=
  let n := ofDigits x.whole
  if x.fraction.isSome || x.exponent.isSome || (x.isNegative && n = 0) then none
  else some (if x.isNegative then -(n : Int) else n)

/-- The digits put behind those of `n` until the next one would not fit into 64 bits, and how many
are left. -/
def append (n : Nat) : List Nat → Nat × Nat
  | [] => (n, 0)
  | d :: rest =>
      if n * 10 + d ≤ Numeral.max64 then append (n * 10 + d) rest else (n, rest.length + 1)

/-- The significand of a number, and its power of ten. -/
def scientific (x : Decimal) : Nat × Int :=
  let fraction := x.fraction.getD []
  let (whole, zeros) := append 0 x.whole
  let (significand, lost) := append whole fraction
  (significand, (zeros : Int) - ((fraction.length - lost : Nat) : Int) + x.exponent.getD 0)

/-- Whether a number is too large for a floating-point one. -/
def isTooLarge (x : Decimal) : Bool :=
  let (significand, power) := x.scientific
  significand != 0 && 0 ≤ power &&
    (308 < power ||
      Binary64.tooLarge ≤
        Binary64.nearestWhole significand * Binary64.nearestWhole (Nat.pow 10 power.toNat))

end Decimal

namespace Reader

/-- Whether a byte is a decimal digit. -/
def isDigit (b : UInt8) : Bool := (Char.ofUInt8 b).isDigit

/-- At least one digit. -/
def digits (strict : Bool) : Reader (List Nat) := fun s =>
  let ds := s.takeWhile isDigit
  let rest := s.dropWhile isDigit
  if !ds.isEmpty then .ok (ds.map fun b => b.toNat - 48, rest)
  else if strict && rest.isEmpty then .error .truncated
  else .error .malformed

/-- Whether the next byte is one of these, and if so, take it off. -/
def takes (cs : List Char) : Reader Bool := do
  match ← look with
  | some c => if cs.contains c then do discard next; return true else return false
  | none => return false

/-- The exponent of a number, if one is written. -/
def exponent (strict : Bool) : Reader (Option Int) := do
  if !(← takes ['e', 'E']) then return none
  let negative := (← look) = some '-'
  discard (takes ['+', '-'])
  let n := Decimal.ofDigits (← digits strict)
  return some (if negative then -(n : Int) else n)

/-- A number as it is written. A zero is not followed by further digits before the point. -/
def decimal (strict : Bool) : Reader Decimal := do
  let isNegative ← takes ['-']
  let whole ← digits strict
  if whole.head? = some 0 && 1 < whole.length then fail .malformed
  let fraction ← if ← takes ['.'] then some <$> digits strict else pure none
  return ⟨isNegative, whole, fraction, ← exponent strict⟩

/-- A number, if it is a whole one. -/
def number (strict : Bool) : Reader (Option Int) := do
  let x ← decimal strict
  if strict && x.isTooLarge then fail .malformed
  return x.integer?

end Reader

end Dockboard.Document
