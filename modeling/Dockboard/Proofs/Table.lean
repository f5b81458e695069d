import Dockboard.Table

set_option autoImplicit false

/-! # The rows of a table

Rows come and go only when they are replaced. Moving the cursor, fitting the table to a screen and
filtering keep them as they are, and sorting brings them into another order.
-/

namespace Dockboard

open Dockboard.Text

namespace Table

variable {R : Type}

@[simp] theorem settle_rows (t : Table R) : t.settle.rows = t.rows := by
  unfold settle
  split <;> rfl

@[simp] theorem moveTo_rows (t : Table R) (place : Nat) : (t.moveTo place).rows = t.rows :=
  settle_rows _

@[simp] theorem resize_rows (t : Table R) (width height : Nat) :
    (t.resize width height).rows = t.rows :=
  settle_rows _

@[simp] theorem setFilter_rows (format : RowFormat R) (t : Table R) (filter : List Char) :
    (t.setFilter format filter).rows = t.rows :=
  settle_rows _

@[simp] theorem replaceRows_rows (format : RowFormat R) (t : Table R) (rows : List R) :
    (t.replaceRows format rows).rows = rows :=
  settle_rows _

/-- Sorting moves rows only. -/
theorem sortRuns_perm (isHeading : R → Bool) (le : R → R → Bool) (run rows : List R) :
    (sortRuns isHeading le run rows).Perm (run.reverse ++ rows) := by
  induction rows generalizing run with
  | nil =>
      rw [List.append_nil]
      exact List.mergeSort_perm _ _
  | cons row rest ih =>
      unfold sortRuns
      split
      · exact (List.mergeSort_perm _ _).append ((ih []).cons row)
      · have hrun := ih (row :: run)
        rw [List.reverse_cons, List.append_assoc] at hrun
        exact hrun

theorem sortByField_rows_perm (format : RowFormat R) (t : Table R) :
    (t.sortByField format).rows.Perm t.rows := by
  unfold sortByField sortBy
  rw [replaceRows_rows]
  exact sortRuns_perm _ _ [] t.rows

end Table

end Dockboard
