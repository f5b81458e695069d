import Dockboard.Text.Search
import Mathlib.Data.List.Infix

set_option autoImplicit false

/-! # What it is to match

A text matches a pattern when its lower case contains that of the pattern as an infix. Tables and
pagers filter by tests, of which this tells what they test for.
-/

namespace Dockboard.Text

theorem occursIn_iff {needle hay : List Char} : occursIn needle hay = true ↔ needle <:+: hay := by
  induction hay with
  | nil => rw [occursIn, List.isEmpty_iff, List.infix_nil]
  | cons c hay ih =>
      rw [occursIn, Bool.or_eq_true, List.isPrefixOf_iff_prefix, ih, List.infix_cons_iff]

theorem matchesFilter_iff {pattern hay : List Char} :
    matchesFilter pattern hay = true ↔ lower pattern <:+: lower hay :=
  occursIn_iff

/-- To filter by a test is to keep what has the property tested. -/
theorem filter_of_iff {α : Type} {test : α → Bool} {P : α → Prop} [DecidablePred P]
    (h : ∀ a, test a = true ↔ P a) (l : List α) : l.filter test = l.filter fun a => P a := by
  refine List.filter_congr fun a _ => ?_
  rw [Bool.eq_iff_iff, decide_eq_true_eq]
  exact h a

end Dockboard.Text
