set_option autoImplicit false

/-! # Numerals

A count is written with decimal digits, after which nothing may stand and before which there may
be one plus sign. Leading zeros are allowed; the value is bounded.
-/

namespace Dockboard.Text.Numeral

/-- The largest number of 64 bits. -/
def max64 : Nat := 18446744073709551615

/-- The largest number of 32 bits. -/
def max32 : Nat := 4294967295

/-- The number written by decimal digits, after a number `value` already read. -/
def digits? (value : Nat) : List Char → Option Nat
  | [] => some value
  | c :: rest => if c.isDigit then digits? (value * 10 + (c.toNat - 48)) rest else none

/-- The number at most `bound` that `s` writes, if it writes one. -/
def read? (bound : Nat) (s : List Char) : Option Nat :=
  let s := if s.head? = some '+' then s.tail else s
  if s.isEmpty then none
  else (digits? 0 s).filter (· ≤ bound)

/-- The lower-case hexadecimal digits of `n`. -/
def hex (n : Nat) : List Char := Nat.toDigits 16 n

/-- `n` in decimal with at least `width` digits. -/
def padded (width n : Nat) : List Char :=
  let ds := Nat.toDigits 10 n
  List.replicate (width - ds.length) '0' ++ ds

end Dockboard.Text.Numeral
