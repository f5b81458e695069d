import Dockboard.Proofs.Table

set_option autoImplicit false

/-! # The order of a sorted table

The rows of a table are sorted by the keys of a column, those between two headings by themselves.

    rows     ── a ──   3  1  2   ── b ──   5  4
    sorted   ── a ──   1  2  3   ── b ──   4  5

The order of the keys is total and transitive, so a sorted list of rows is in order pairwise
(`SortKey.le_total`, `SortKey.le_trans`); and a run of rows that are no headings lies before a
heading or behind it (`run_of_append_heading`). So all such runs are in order once a table has been
sorted (`sortByField_ordered`), and stay so as long as neither the rows nor the sort column change.
-/

namespace Dockboard

/-! ## The order of keys -/

namespace SortKey

theorem compare_swap (a b : SortKey) : a.compare b = (b.compare a).swap := by
  cases a with
  | text x =>
      cases b with
      | text y => exact (Std.OrientedCmp.eq_swap : Ord.compare x y = _)
      | number y => rfl
  | number x =>
      cases b with
      | text y => rfl
      | number y => exact (Std.OrientedCmp.eq_swap : Ord.compare x.rank y.rank = _)

/-- A text stands before no number, so that the keys between two of a kind are of that kind. -/
theorem le_trans (a b c : SortKey) (hab : a.le b = true) (hbc : b.le c = true) :
    a.le c = true := by
  cases a with
  | text x =>
      cases b with
      | number y => cases hab
      | text y =>
          cases c with
          | number z => cases hbc
          | text z =>
              have hle : (Ord.compare x z).isLE = true := Std.TransCmp.isLE_trans hab hbc
              exact hle
  | number x =>
      cases c with
      | text z => rfl
      | number z =>
          cases b with
          | text y => cases hbc
          | number y =>
              have hle : (Ord.compare x.rank z.rank).isLE = true := Std.TransCmp.isLE_trans hab hbc
              exact hle

theorem le_total (a b : SortKey) : (a.le b || b.le a) = true := by
  rw [le, le, compare_swap b a]
  cases a.compare b <;> rfl

end SortKey

namespace Table

variable {R : Type}

/-! ## Runs -/

/-- A run of rows that are no headings. -/
def Run (isHeading : R → Bool) (run rows : List R) : Prop :=
  run <:+: rows ∧ ∀ row ∈ run, isHeading row = false

/-- A run lies before a heading or behind it. -/
theorem run_of_append_heading {isHeading : R → Bool} {run before behind : List R} {heading : R}
    (h : Run isHeading run (before ++ heading :: behind)) (hheading : isHeading heading = true) :
    run <:+: before ∨ run <:+: behind := by
  obtain ⟨hrun, hrows⟩ := h
  have hnot : heading ∉ run := fun hmem => by
    have hplain := hrows heading hmem
    rw [hheading] at hplain
    cases hplain
  rcases List.infix_append_iff.mp hrun with hbefore | hrest | ⟨first, last, rfl, hfirst, hlast⟩
  · exact Or.inl hbefore
  · rcases List.infix_cons_iff.mp hrest with hpre | hbehind
    · rcases List.prefix_cons_iff.mp hpre with rfl | ⟨more, rfl, -⟩
      · exact Or.inl List.nil_infix
      · exact absurd List.mem_cons_self hnot
    · exact Or.inr hbehind
  · -- A run that reached over the heading would contain it.
    rcases List.prefix_cons_iff.mp hlast with rfl | ⟨more, rfl, -⟩
    · rw [List.append_nil]
      exact Or.inl hfirst.isInfix
    · exact absurd (List.mem_append_right first List.mem_cons_self) hnot

/-- Every run is in order. -/
def RunsOrdered (isHeading : R → Bool) (le : R → R → Bool) (rows : List R) : Prop :=
  ∀ run, Run isHeading run rows → run.Pairwise fun a b => le a b = true

theorem RunsOrdered.nil (isHeading : R → Bool) (le : R → R → Bool) :
    RunsOrdered isHeading le [] := by
  rintro run ⟨hrun, -⟩
  rw [List.infix_nil.mp hrun]
  exact .nil

/-- Sorting brings every run into order. -/
theorem sortRuns_ordered {isHeading : R → Bool} {le : R → R → Bool}
    (htrans : ∀ a b c, le a b = true → le b c = true → le a c = true)
    (htotal : ∀ a b, (le a b || le b a) = true) (run rows : List R) :
    RunsOrdered isHeading le (sortRuns isHeading le run rows) := by
  have hsorted (run : List R) : (run.reverse.mergeSort le).Pairwise fun a b => le a b = true :=
    List.pairwise_mergeSort htrans htotal _
  induction rows generalizing run with
  | nil => exact fun part hpart => (hsorted run).sublist hpart.1.sublist
  | cons row rest ih =>
      unfold sortRuns
      by_cases hheading : isHeading row = true
      · rw [if_pos hheading]
        intro part hpart
        rcases run_of_append_heading hpart hheading with hbefore | hbehind
        · exact (hsorted run).sublist hbefore.sublist
        · exact ih [] part ⟨hbehind, hpart.2⟩
      · rw [if_neg hheading]
        exact ih (row :: run)

/-! ## Tables -/

variable {format : RowFormat R}

/-- Every run of rows is in the order of the sort column. -/
def Ordered (format : RowFormat R) (t : Table R) : Prop :=
  RunsOrdered format.isHeading (columnLe format t.sortField) t.rows

theorem Ordered.of_eq {t t' : Table R} (h : t.Ordered format) (hrows : t'.rows = t.rows)
    (hfield : t'.sortField = t.sortField) : t'.Ordered format := by
  unfold Ordered
  rw [hrows, hfield]
  exact h

@[simp] theorem settle_sortField (t : Table R) : t.settle.sortField = t.sortField := by
  unfold settle
  split <;> rfl

@[simp] theorem settle_sorted (t : Table R) : t.settle.sorted = t.sorted := by
  unfold settle
  split <;> rfl

@[simp] theorem replaceRows_sortField (t : Table R) (rows : List R) :
    (t.replaceRows format rows).sortField = t.sortField :=
  settle_sortField _

/-- Settling changes neither the rows nor the sort column. -/
theorem Ordered.settle {t : Table R} (h : t.Ordered format) : t.settle.Ordered format :=
  h.of_eq (settle_rows t) (settle_sortField t)

theorem replaceRows_nil_ordered (t : Table R) : (t.replaceRows format []).Ordered format := by
  unfold Ordered
  rw [replaceRows_rows]
  exact .nil _ _

@[simp] theorem sortByField_sortField (t : Table R) :
    (t.sortByField format).sortField = t.sortField :=
  replaceRows_sortField _ _

/-- **Sorting a table.** -/
theorem sortByField_ordered (t : Table R) : (t.sortByField format).Ordered format := by
  have hrows : (t.sortByField format).rows =
      sortRuns format.isHeading (columnLe format t.sortField) [] t.rows :=
    replaceRows_rows _ _ _
  unfold Ordered
  rw [sortByField_sortField, hrows]
  refine sortRuns_ordered ?_ ?_ [] t.rows
  · intro a b c hab hbc
    exact SortKey.le_trans _ _ _ hab hbc
  · intro a b
    exact SortKey.le_total _ _

end Table

end Dockboard
