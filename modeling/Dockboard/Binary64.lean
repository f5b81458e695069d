import Dockboard.Text.Numeral

set_option autoImplicit false

/-! # Floating-point numbers in decimal, and in order

A number of 64 bits is its sign bit, its exponent field and its fraction field. It is printed
with a fixed count of places by rounding its exact value; what lies half way goes to the even
neighbour. Numbers are ordered by their sign and magnitude bits, an order that is total: below
everything the negative not-a-numbers, then negative infinity, the negative numbers, the two
zeros, the positive numbers, infinity and the other not-a-numbers.
-/

namespace Dockboard

open Dockboard.Text

/-- A floating-point number of 64 bits. -/
structure Binary64 where
  bits : UInt64
  deriving DecidableEq, Repr, Inhabited

namespace Binary64

/-- The number computed by the machine. -/
def ofFloat (x : Float) : Binary64 := ⟨x.toBits⟩

/-- The number for the machine to compute with. -/
def toFloat (x : Binary64) : Float := Float.ofBits x.bits

/-- The number zero. -/
def zero : Binary64 := ⟨0⟩

/-- The least finite number. -/
def least : Binary64 := ⟨0xFFEFFFFFFFFFFFFF⟩

/-- The number with the other sign. -/
def negate (x : Binary64) : Binary64 := ⟨x.bits ^^^ 0x8000000000000000⟩

/-- A count of 64 bits, rounded to the nearest number. -/
def ofCount (n : Nat) : Binary64 := ofFloat n.toUInt64.toFloat

/-- A signed number of 64 bits, rounded to the nearest number. -/
def ofSigned (n : Int) : Binary64 := ofFloat (Int64.ofInt n).toFloat

/-- What the sign bit weighs: two to the power 63. -/
def signWeight : Nat := 0x8000000000000000

/-- How many fractions there are: two to the power 52. -/
def fractionCount : Nat := 0x10000000000000

/-- The sign bit of a number. -/
def isNegative (x : Binary64) : Bool := signWeight ≤ x.bits.toNat

/-- The bits of a number without its sign. -/
def magnitude (x : Binary64) : Nat := x.bits.toNat % signWeight

/-- The fraction field of a number. -/
def fraction (x : Binary64) : Nat := x.magnitude % fractionCount

/-- The exponent field of a number. -/
def exponent (x : Binary64) : Nat := x.magnitude / fractionCount

/-- The place of a number in the total order, as an integer. -/
def rank (x : Binary64) : Int :=
  if x.isNegative then -1 - (x.magnitude : Int) else (x.magnitude : Int)

/-! ## Decimal places -/

/-- `num / den` rounded to the nearest whole number, a half to the even one. -/
def roundDiv (num den : Nat) : Nat :=
  let whole := num / den
  let rest := num % den
  if 2 * rest < den then whole
  else if den < 2 * rest then whole + 1
  else if whole % 2 = 0 then whole else whole + 1

/-- The number nearest to a whole one, which has 53 digits to the base two. -/
def nearestWhole (n : Nat) : Nat :=
  let unit := Nat.pow 2 (Nat.log2 n - 52)
  roundDiv n unit * unit

/-- The least whole number that is too large: half a unit below the next power of two. -/
def tooLarge : Nat := Nat.pow 2 1024 - Nat.pow 2 970

/-- A finite number's size times `10 ^ places`, rounded to a whole number. -/
def scaled (places : Nat) (x : Binary64) : Nat :=
  let significand := if x.exponent = 0 then x.fraction else x.fraction + fractionCount
  -- The value is `significand * 2 ^ (power - 1075)`.
  let power := if x.exponent = 0 then 1 else x.exponent
  if 1075 ≤ power then significand * Nat.pow 2 (power - 1075) * Nat.pow 10 places
  else roundDiv (significand * Nat.pow 10 places) (Nat.pow 2 (1075 - power))

/-- A finite number's digits with `places` of them behind the point. -/
def digits (places : Nat) (x : Binary64) : List Char :=
  let n := scaled places x
  let whole := Nat.toDigits 10 (n / Nat.pow 10 places)
  if places = 0 then whole else whole ++ '.' :: Numeral.padded places (n % Nat.pow 10 places)

/-- A number with `places` decimal places. A not-a-number has no sign. -/
def fixed (places : Nat) (x : Binary64) : List Char :=
  let sign := if x.isNegative then ['-'] else []
  if x.exponent ≠ 2047 then sign ++ digits places x
  else if x.fraction = 0 then sign ++ "inf".toList
  else "NaN".toList

end Binary64

end Dockboard
