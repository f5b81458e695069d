import Mathlib.Data.List.Nodup
import Mathlib.Data.List.Perm.Basic

set_option autoImplicit false

/-! # Things in groups

Things are grouped by a key. Under different keys each of them is found once.
-/

namespace Dockboard

variable {α K : Type} [BEq K] [LawfulBEq K] {key : α → K}

/-- For one key it makes no difference that what has another one is left out. -/
theorem filter_key_of_ne {name other : K} (h : other ≠ name) (things : List α) :
    ((things.filter fun a => key a != name).filter fun a => key a == other) =
      things.filter fun a => key a == other := by
  rw [List.filter_filter]
  apply List.filter_congr
  intro a _
  by_cases hkey : key a = other
  · simp [hkey, h]
  · simp [hkey]

/-- What is found under some keys is all there is, each once, if these are all the keys. -/
theorem flatMap_filter_perm {names : List K} (h : names.Nodup) {things : List α}
    (hall : ∀ a ∈ things, key a ∈ names) :
    (names.flatMap fun name => things.filter fun a => key a == name).Perm things := by
  induction names generalizing things with
  | nil =>
      have hnone : things = [] :=
        List.eq_nil_iff_forall_not_mem.mpr fun a ha => List.not_mem_nil (hall a ha)
      rw [hnone]
      exact List.Perm.refl []
  | cons name names ih =>
      obtain ⟨hname, hnames⟩ := List.nodup_cons.mp h
      let others := things.filter fun a => key a != name
      have hothers : ∀ a ∈ others, key a ∈ names := by
        intro a ha
        obtain ⟨hmem, hne⟩ := List.mem_filter.mp ha
        exact (List.mem_cons.mp (hall a hmem)).resolve_left (bne_iff_ne.mp hne)
      have hleft : ∀ other ∈ names, (others.filter fun a => key a == other) =
          things.filter fun a => key a == other := by
        intro other hother
        apply filter_key_of_ne
        rintro rfl
        exact hname hother
      have hrest : (names.flatMap fun other => things.filter fun a => key a == other).Perm
          others := by
        rw [← List.flatMap_congr hleft]
        exact ih hnames hothers
      exact (hrest.append_left _).trans (List.filter_append_perm _ things)

end Dockboard
