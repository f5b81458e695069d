import Dockboard.Text.Numeral
import Mathlib.Data.List.Basic

set_option autoImplicit false

/-! # What a numeral writes

A text writes a number in decimal digits, with one plus sign before them or none. It is read as the
number it writes, if that is not too large, and any other text as none (`read?_eq_some_iff`).
-/

namespace Dockboard.Text.Numeral

/-- `s` writes the number `n`, which is at most `bound`. -/
def Writes (bound : Nat) (s : List Char) (n : Nat) : Prop :=
  n ≤ bound ∧ ∃ digits, digits ≠ [] ∧ (∀ c ∈ digits, c.isDigit = true) ∧
    (s = digits ∨ s = '+' :: digits) ∧ n = Nat.ofDigitChars 10 digits 0

theorem digits?_eq_some_iff {value n : Nat} {s : List Char} :
    digits? value s = some n ↔
      (∀ c ∈ s, c.isDigit = true) ∧ n = Nat.ofDigitChars 10 s value := by
  induction s generalizing value with
  | nil =>
      rw [digits?, Nat.ofDigitChars_nil, Option.some.injEq, eq_comm]
      simp
  | cons c s ih =>
      have hvalue : value * 10 + (c.toNat - 48) = 10 * value + (c.toNat - '0'.toNat) := by
        rw [Nat.mul_comm]
        rfl
      rw [digits?, List.forall_mem_cons, Nat.ofDigitChars_cons, ← hvalue]
      by_cases hc : c.isDigit = true
      · rw [if_pos hc, ih, and_iff_right hc]
      · rw [if_neg hc]
        exact iff_of_false nofun fun h => hc h.1.1

/-- **Numerals** are read as the numbers they write. -/
theorem read?_eq_some_iff {bound n : Nat} {s : List Char} :
    read? bound s = some n ↔ Writes bound s n := by
  have hread {digits : List Char} : (if digits.isEmpty then none
      else (digits? 0 digits).filter (· ≤ bound)) = some n ↔
      n ≤ bound ∧ digits ≠ [] ∧ (∀ c ∈ digits, c.isDigit = true) ∧
        n = Nat.ofDigitChars 10 digits 0 := by
    cases digits with
    | nil => simp
    | cons c digits =>
        rw [if_neg (by simp), Option.filter_eq_some_iff, digits?_eq_some_iff, decide_eq_true_eq]
        simp [and_comm]
  by_cases hplus : s.head? = some '+'
  · obtain ⟨digits, rfl⟩ := List.head?_eq_some_iff.mp hplus
    -- A plus sign is no digit, so it is the sign.
    have hsign : ∀ other : List Char, (∀ c ∈ other, c.isDigit = true) → '+' :: digits ≠ other := by
      rintro other hother rfl
      exact absurd (hother '+' List.mem_cons_self) (by decide)
    rw [read?, if_pos hplus]
    refine hread.trans ⟨?_, ?_⟩
    · rintro ⟨hle, hne, hdigits, hn⟩
      exact ⟨hle, digits, hne, hdigits, Or.inr rfl, hn⟩
    · rintro ⟨hle, other, hne, hdigits, hsame | hsame, hn⟩
      · exact absurd hsame (hsign other hdigits)
      · cases hsame
        exact ⟨hle, hne, hdigits, hn⟩
  · rw [read?, if_neg hplus]
    refine hread.trans ⟨?_, ?_⟩
    · rintro ⟨hle, hne, hdigits, hn⟩
      exact ⟨hle, s, hne, hdigits, Or.inl rfl, hn⟩
    · rintro ⟨hle, other, hne, hdigits, rfl | rfl, hn⟩
      · exact ⟨hle, hne, hdigits, hn⟩
      · exact absurd rfl hplus

end Dockboard.Text.Numeral
