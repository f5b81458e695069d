import Dockboard.Proofs.Table.Order
import Dockboard.Proofs.Table.Selection
import Mathlib

set_option autoImplicit false

/-! # Sorting a table

What a table becomes when it is sorted, and when it is sorted again.

    rows      ── a ──   3  1  2  2'   ── b ──   5  4
    sorted    ── a ──   1  2  2' 3    ── b ──   4  5

A heading divides the rows into two parts of which each is sorted by itself
(`sortRuns_append_heading`). So a run that is enclosed by headings stays between them, and it is
sorted like a list without headings (`sortRuns_enclosed`).

Sorting again moves no row, since the runs are in order (`sortRuns_of_ordered`). It may move the
cursor, though: one that stands on a row without an identifier stays in its place when the rows are
sorted, and comes to stand on another row. If that row has an identifier which a row above it has
as well, then sorting again selects the first of them (`sortByField_eq_self_iff`).
-/

namespace Dockboard

/-- The order of sort keys is total and transitive. -/
instance : Std.TransCmp SortKey.compare where
  eq_swap {a b} := SortKey.compare_swap a b
  isLE_trans {a b c} := SortKey.le_trans a b c

namespace Table

variable {R : Type}

/-! ## Runs -/

/-- A run that cannot be made longer: it holds no heading, and there is one at each of its ends, or
an end of the list. -/
structure Enclosed (isHeading : R → Bool) (before run behind : List R) : Prop where
  plain : ∀ row ∈ run, isHeading row = false
  before : before = [] ∨ ∃ more heading, before = more ++ [heading] ∧ isHeading heading = true
  behind : behind = [] ∨ ∃ heading more, behind = heading :: more ∧ isHeading heading = true

/-- The rows are in the order of their keys, and those of one key in the order in which they
stood. -/
structure StablySorted (key : R → SortKey) (rows sorted : List R) : Prop where
  perm : sorted.Perm rows
  ordered : sorted.Pairwise fun a b => ((key a).compare (key b)).isLE = true
  stable : ∀ k : SortKey, (sorted.filter fun row => (key row).compare k == .eq) =
    rows.filter fun row => (key row).compare k == .eq

/-- Rows that may stand in any order among each other stay in the order in which they stood. -/
theorem filter_mergeSort {le : R → R → Bool}
    (htrans : ∀ a b c, le a b = true → le b c = true → le a c = true)
    (htotal : ∀ a b, (le a b || le b a) = true) {same : R → Bool}
    (hsame : ∀ a b, same a = true → same b = true → le a b = true) (rows : List R) :
    (rows.mergeSort le).filter same = rows.filter same := by
  -- They are in order as they stand, so they are found in this order afterwards.
  have hsorted : (rows.filter same).Pairwise fun a b => le a b = true := by
    apply List.pairwise_of_forall_mem_list
    intro a ha b hb
    exact hsame a b (List.mem_filter.mp ha).2 (List.mem_filter.mp hb).2
  have hsub := List.sublist_mergeSort htrans htotal hsorted List.filter_sublist
  have hfilter := hsub.filter same
  rw [List.filter_filter] at hfilter
  simp only [Bool.and_self] at hfilter
  have hperm := List.mergeSort_perm rows le
  exact (hfilter.eq_of_length (hperm.filter same).length_eq.symm).symm

/-- Sorting by keys is stable. -/
theorem mergeSort_stablySorted (key : R → SortKey) (rows : List R) :
    StablySorted key rows (rows.mergeSort fun a b => (key a).le (key b)) := by
  have htrans (a b c : R) (hab : (key a).le (key b) = true) (hbc : (key b).le (key c) = true) :
      (key a).le (key c) = true := SortKey.le_trans _ _ _ hab hbc
  have htotal (a b : R) : ((key a).le (key b) || (key b).le (key a)) = true :=
    SortKey.le_total _ _
  refine ⟨List.mergeSort_perm rows _, List.pairwise_mergeSort htrans htotal rows, ?_⟩
  intro k
  apply filter_mergeSort htrans htotal
  intro a b ha hb
  have hak : (key a).compare k = .eq := beq_iff_eq.mp ha
  have hbk : (key b).compare k = .eq := beq_iff_eq.mp hb
  apply SortKey.le_trans _ k _
  · rw [SortKey.le, hak]
    rfl
  · rw [SortKey.le, SortKey.compare_swap, hbk]
    rfl

section Runs

variable {isHeading : R → Bool} {le : R → R → Bool}

/-- A heading divides the rows into parts that are sorted each by itself. -/
theorem sortRuns_append_heading {heading : R} (hheading : isHeading heading = true)
    (run before behind : List R) :
    sortRuns isHeading le run (before ++ heading :: behind) =
      sortRuns isHeading le run before ++ heading :: sortRuns isHeading le [] behind := by
  induction before generalizing run with
  | nil => simp only [List.nil_append, sortRuns, hheading, if_true]
  | cons row before ih =>
      simp only [List.cons_append, sortRuns]
      split
      · rw [ih, List.append_assoc, List.cons_append]
      · rw [ih]

/-- Rows that are no headings belong to the run they follow. -/
theorem sortRuns_append_plain {plain : List R} (h : ∀ row ∈ plain, isHeading row = false)
    (run rows : List R) :
    sortRuns isHeading le run (plain ++ rows) =
      sortRuns isHeading le (plain.reverse ++ run) rows := by
  induction plain generalizing run with
  | nil => rfl
  | cons row plain ih =>
      obtain ⟨hrow, hplain⟩ := List.forall_mem_cons.mp h
      rw [List.cons_append, sortRuns, hrow, if_neg Bool.false_ne_true, ih hplain,
        List.reverse_cons, List.append_assoc, List.singleton_append]

theorem sortRuns_plain {rows : List R} (h : ∀ row ∈ rows, isHeading row = false) (run : List R) :
    sortRuns isHeading le run rows = (run.reverse ++ rows).mergeSort le := by
  calc sortRuns isHeading le run rows
      = sortRuns isHeading le run (rows ++ []) := by rw [List.append_nil]
    _ = sortRuns isHeading le (rows.reverse ++ run) [] := sortRuns_append_plain h run []
    _ = (run.reverse ++ rows).mergeSort le := by
        rw [sortRuns, List.reverse_append, List.reverse_reverse]

variable (le) in
/-- **Runs** between headings stay where they are, and each is sorted like a list without any. -/
theorem sortRuns_enclosed {before run behind : List R} (h : Enclosed isHeading before run behind) :
    ∃ before' behind', sortRuns isHeading le [] (before ++ (run ++ behind)) =
      before' ++ (run.mergeSort le ++ behind') ∧ before'.Perm before ∧ behind'.Perm behind := by
  have hrun : sortRuns isHeading le [] run = run.mergeSort le := sortRuns_plain h.plain []
  have hrest : ∃ behind', sortRuns isHeading le [] (run ++ behind) = run.mergeSort le ++ behind' ∧
      behind'.Perm behind := by
    rcases h.behind with rfl | ⟨heading, more, rfl, hheading⟩
    · exact ⟨[], by rw [List.append_nil, List.append_nil, hrun], List.Perm.refl []⟩
    · refine ⟨heading :: sortRuns isHeading le [] more, ?_, ?_⟩
      · rw [sortRuns_append_heading hheading, hrun]
      · exact (sortRuns_perm isHeading le [] more).cons heading
  obtain ⟨behind', hbehind, hperm⟩ := hrest
  rcases h.before with rfl | ⟨more, heading, rfl, hheading⟩
  · exact ⟨[], behind', hbehind, List.Perm.refl [], hperm⟩
  · refine ⟨sortRuns isHeading le [] more ++ [heading], behind', ?_, ?_, hperm⟩
    · rw [List.append_assoc, List.singleton_append, sortRuns_append_heading hheading, hbehind]
      simp
    · exact (sortRuns_perm isHeading le [] more).append_right [heading]

/-- **Headings** stay at their index, and no row passes one. -/
theorem sortRuns_heading {rows : List R} {i : Nat} {row : R} (hrow : rows[i]? = some row)
    (hheading : isHeading row = true) :
    (sortRuns isHeading le [] rows)[i]? = some row ∧
      ((sortRuns isHeading le [] rows).take i).Perm (rows.take i) ∧
      ((sortRuns isHeading le [] rows).drop i).Perm (rows.drop i) := by
  obtain ⟨hlt, rfl⟩ := List.getElem?_eq_some_iff.mp hrow
  have hbefore := sortRuns_perm isHeading le [] (rows.take i)
  have hbehind := sortRuns_perm isHeading le [] (rows.drop (i + 1))
  have hlen : (sortRuns isHeading le [] (rows.take i)).length = i := by
    rw [hbefore.length_eq, List.reverse_nil, List.nil_append, List.length_take_of_le hlt.le]
  have hsorted : sortRuns isHeading le [] rows =
      sortRuns isHeading le [] (rows.take i) ++
        rows[i] :: sortRuns isHeading le [] (rows.drop (i + 1)) := by
    rw [← sortRuns_append_heading hheading, ← List.drop_eq_getElem_cons hlt,
      List.take_append_drop]
  rw [hsorted, List.take_left' hlen, List.drop_left' hlen, List.drop_eq_getElem_cons hlt]
  refine ⟨?_, hbefore, hbehind.cons _⟩
  rw [List.getElem?_append_right (Nat.le_of_eq hlen), hlen, Nat.sub_self]
  rfl

theorem RunsOrdered.infix {rows part : List R} (h : RunsOrdered isHeading le rows)
    (hpart : part <:+: rows) : RunsOrdered isHeading le part :=
  fun run hrun => h run ⟨hrun.1.trans hpart, hrun.2⟩

/-- Rows whose runs are in order are left as they are. -/
theorem sortRuns_of_ordered (run : List R) {rows : List R}
    (hrun : ∀ row ∈ run, isHeading row = false)
    (h : RunsOrdered isHeading le (run.reverse ++ rows)) :
    sortRuns isHeading le run rows = run.reverse ++ rows := by
  induction rows generalizing run with
  | nil =>
      rw [List.append_nil] at h
      have hplain : ∀ row ∈ run.reverse, isHeading row = false := by simpa using hrun
      rw [sortRuns, List.mergeSort_of_pairwise (h _ ⟨List.infix_refl _, hplain⟩), List.append_nil]
  | cons row rows ih =>
      unfold sortRuns
      split
      · have hplain : ∀ row ∈ run.reverse, isHeading row = false := by simpa using hrun
        have hfirst := h _ ⟨(List.prefix_append _ _).isInfix, hplain⟩
        have hrows : RunsOrdered isHeading le rows :=
          h.infix ((List.suffix_cons row rows).trans (List.suffix_append _ _)).isInfix
        rw [List.mergeSort_of_pairwise hfirst, ih [] (List.forall_mem_nil _) hrows]
        rfl
      · next hrow =>
        have hsplit : run.reverse ++ row :: rows = (row :: run).reverse ++ rows := by simp
        rw [hsplit] at h ⊢
        apply ih (row :: run) _ h
        exact List.forall_mem_cons.mpr ⟨by simpa using hrow, hrun⟩

end Runs

/-! ## Tables -/

variable {format : RowFormat R} {t : Table R}

theorem sortByField_eq (format : RowFormat R) (t : Table R) :
    t.sortByField format = ({ t with sorted := true } : Table R).replaceRows format
      (sortRuns format.isHeading (columnLe format t.sortField) [] t.rows) := rfl

theorem sortByField_rows (format : RowFormat R) (t : Table R) :
    (t.sortByField format).rows =
      sortRuns format.isHeading (columnLe format t.sortField) [] t.rows :=
  replaceRows_rows _ _ _

theorem sortByField_shown (format : RowFormat R) (t : Table R) :
    (t.sortByField format).shown = matching format t.filter (t.sortByField format).rows := by
  rw [sortByField_rows, sortByField_eq, replaceRows_shown]

/-- The rows shown are the same as before, in another order. -/
theorem sortByField_shown_perm (h : t.shown = matching format t.filter t.rows) :
    (t.sortByField format).shown.Perm t.shown := by
  rw [sortByField_shown, h]
  exact matching_perm (sortByField_rows_perm format t) t.filter

theorem sortByField_replaceRows_shown (format : RowFormat R) (t : Table R) (rows : List R) :
    ((t.replaceRows format rows).sortByField format).shown.Perm
      (t.replaceRows format rows).shown := by
  apply sortByField_shown_perm
  rw [replaceRows_shown, replaceRows_filter, replaceRows_rows]

theorem sortByField_cursor (format : RowFormat R) (t : Table R) :
    (t.sortByField format).cursor =
      min (((t.selectedId? format).bind (placeOf? format (t.sortByField format).shown)).getD
        t.cursor) ((t.sortByField format).shown.length - 1) :=
  replaceRows_cursor format _ _

/-- What is selected by sorting: the first row shown that has the identifier of the one that was
selected. -/
theorem sortByField_selected {id : String} (h : t.selectedId? format = some id)
    (hshown : ∃ row ∈ (t.sortByField format).shown, format.id? row = some id) :
    (t.sortByField format).selectedId? format = some id ∧
      (t.sortByField format).SelectsFirst format := by
  rw [sortByField_eq] at hshown ⊢
  exact replaceRows_selected h hshown

/-- A table as sorting leaves it. -/
structure Arranged (format : RowFormat R) (t : Table R) : Prop where
  sorted : t.sorted = true
  ordered : t.Ordered format
  shown : t.shown = matching format t.filter t.rows
  windowed : t.Windowed
  cursor_le : t.cursor ≤ t.shown.length - 1

theorem sortByField_arranged (h : 0 < t.height) : (t.sortByField format).Arranged format := by
  have hheight : (t.sortByField format).height = t.height := settle_height _
  constructor
  · rw [sortByField_eq, replaceRows_eq, settle_sorted]
  · exact sortByField_ordered t
  · rw [sortByField_shown, sortByField_filter]
  · exact settle_windowed h
  · rw [sortByField_cursor]
    exact Nat.min_le_right _ _

namespace Arranged

/-- Sorting again keeps the rows, and looks for the selected one. -/
theorem sortByField_eq (h : t.Arranged format) :
    t.sortByField format = settle { t with
      cursor := ((t.selectedId? format).bind (placeOf? format t.shown)).getD t.cursor } := by
  have hrows : sortRuns format.isHeading (columnLe format t.sortField) [] t.rows = t.rows :=
    sortRuns_of_ordered [] (List.forall_mem_nil _) h.ordered
  have hsame : { t with sorted := true } = t := by rw [← h.sorted]
  rw [Table.sortByField_eq, hsame, hrows, replaceRows_eq, ← h.shown]

/-- Sorting again changes the window only. -/
theorem sortByField_moves (h : t.Arranged format) :
    ∃ cursor offset, t.sortByField format = { t with cursor, offset } := by
  have hle : ((t.selectedId? format).bind (placeOf? format t.shown)).getD t.cursor ≤
      t.shown.length - 1 := by
    cases hplace : (t.selectedId? format).bind (placeOf? format t.shown) with
    | none => exact h.cursor_le
    | some place =>
        obtain ⟨id, -, hid⟩ := Option.bind_eq_some_iff.mp hplace
        have hlt := lt_of_placeOf? hid
        rw [Option.getD_some]
        omega
  obtain ⟨offset, hsettle⟩ := settle_eq (t := { t with
    cursor := ((t.selectedId? format).bind (placeOf? format t.shown)).getD t.cursor }) hle
  exact ⟨_, offset, h.sortByField_eq.trans hsettle⟩

/-- **Sorting again** changes nothing if the selected row is the first one shown that has its
identifier, and only then. -/
theorem sortByField_eq_self_iff (h : t.Arranged format) :
    t.sortByField format = t ↔ t.SelectsFirst format := by
  constructor
  · intro hself id hid
    obtain ⟨place, hplace⟩ := exists_placeOf? (mem_of_selectedId? hid)
    have hlt := lt_of_placeOf? hplace
    have hcursor : (t.sortByField format).cursor = min place (t.shown.length - 1) := by
      rw [h.sortByField_eq, settle_cursor, hid, Option.bind_some, hplace, Option.getD_some]
    rw [hself] at hcursor
    rw [hplace, hcursor, Nat.min_eq_left (by omega)]
  · intro hfirst
    have hcursor : ((t.selectedId? format).bind (placeOf? format t.shown)).getD t.cursor =
        t.cursor := by
      cases hid : t.selectedId? format with
      | none => rfl
      | some id => rw [Option.bind_some, hfirst id hid, Option.getD_some]
    rw [h.sortByField_eq, hcursor]
    exact settle_of_windowed h.windowed h.cursor_le

theorem sortByField_selectsFirst (h : t.Arranged format) :
    (t.sortByField format).SelectsFirst format := by
  cases hid : t.selectedId? format with
  | none =>
      have hfirst : t.SelectsFirst format := by
        intro id hid'
        rw [hid] at hid'
        cases hid'
      rw [h.sortByField_eq_self_iff.mpr hfirst]
      exact hfirst
  | some id =>
      obtain ⟨cursor, offset, hmoves⟩ := h.sortByField_moves
      have hshown : (t.sortByField format).shown = t.shown := by rw [hmoves]
      apply (sortByField_selected hid _).2
      rw [hshown]
      exact mem_of_selectedId? hid

end Arranged

/-! ## Main result -/

/-- What sorting makes of a table. -/
structure Sorts (format : RowFormat R) (t sorted : Table R) : Prop where
  perm : sorted.rows.Perm t.rows
  /-- Every heading stays at its index, and the rows before it stay before it, those behind it
  behind it. -/
  heading : ∀ i row, t.rows[i]? = some row → format.isHeading row = true →
    sorted.rows[i]? = some row ∧ (sorted.rows.take i).Perm (t.rows.take i) ∧
      (sorted.rows.drop i).Perm (t.rows.drop i)
  /-- Every run as long as possible is sorted by the keys of the sort column where it stands, and
  rows with the same key keep their order. -/
  run : ∀ before run behind, t.rows = before ++ (run ++ behind) →
    Enclosed format.isHeading before run behind →
      ∃ before' run' behind', sorted.rows = before' ++ (run' ++ behind') ∧
        before'.Perm before ∧ behind'.Perm behind ∧
          StablySorted (fun row => format.sortKey row t.sortField) run run'
  filter : sorted.filter = t.filter
  shown : sorted.shown = matching format t.filter sorted.rows
  selected : ∀ id, t.selectedId? format = some id → sorted.selectedId? format = some id

theorem Holds.sorts {given : Given R} (h : t.Holds format given) :
    t.Sorts format (t.sortByField format) := by
  constructor
  · exact sortByField_rows_perm format t
  · intro i row hrow hheading
    rw [sortByField_rows]
    exact sortRuns_heading hrow hheading
  · intro before run behind hrows henclosed
    obtain ⟨before', behind', hsorted, hbefore, hbehind⟩ :=
      sortRuns_enclosed (columnLe format t.sortField) henclosed
    rw [← hrows, ← sortByField_rows] at hsorted
    exact ⟨before', _, behind', hsorted, hbefore, hbehind, mergeSort_stablySorted _ run⟩
  · exact sortByField_filter format t
  · exact sortByField_shown format t
  · intro id hid
    obtain ⟨row, hrow, hrowId⟩ := mem_of_selectedId? hid
    have hshown : row ∈ (t.sortByField format).shown :=
      (sortByField_shown_perm h.shown).mem_iff.mpr hrow
    exact (sortByField_selected hid ⟨row, hshown, hrowId⟩).1

/-- **Sorting tables.** Sort keys are totally preordered, whatever texts and numbers they are.
Sorting a table, whatever has been done to it before,

 - brings its rows into another order, in which the headings stay at their places and every run
   between them is sorted stably by the keys of the sort column;
 - leaves its filter, so that it shows the rows that match, and selects a row with the identifier of
   the one selected before, if that had one.

Sorting it again moves no row and changes nothing but the window. It changes nothing at all if the
row selected before the first sort had an identifier, and else exactly if no row shown above the
selected one has its identifier; if one has, the first of them is selected. Then sorting changes
nothing any more. -/
theorem changed_sorts (format : RowFormat R) (columns : List Column) (changes : List (Change R)) :
    let t := changed format columns changes
    let sorted := t.sortByField format
    let again := sorted.sortByField format
    (Std.TransCmp SortKey.compare ∧
      ∀ a b : SortKey, (a.compare b).isLE = true ∨ (b.compare a).isLE = true) ∧
    t.Sorts format sorted ∧
    (∃ cursor offset, again = { sorted with cursor, offset }) ∧
    (∀ id, t.selectedId? format = some id → again = sorted) ∧
    (again = sorted ↔ sorted.SelectsFirst format) ∧
    sorted.Sorts format again ∧ again.SelectsFirst format ∧
    again.sortByField format = again := by
  intro t sorted again
  have hholds : t.Holds format (.last changes) := changed_holds format columns changes
  have hsorted := hholds.change .sortByField
  have harranged : sorted.Arranged format := sortByField_arranged hholds.windowed.height_pos
  have hagain : again.Arranged format := sortByField_arranged hsorted.windowed.height_pos
  have hfirst : again.SelectsFirst format := harranged.sortByField_selectsFirst
  refine ⟨⟨inferInstance, ?_⟩, hholds.sorts, harranged.sortByField_moves, ?_,
    harranged.sortByField_eq_self_iff, hsorted.sorts, hfirst,
    hagain.sortByField_eq_self_iff.mpr hfirst⟩
  · intro a b
    have htotal := SortKey.le_total a b
    rwa [Bool.or_eq_true] at htotal
  · intro id hid
    apply harranged.sortByField_eq_self_iff.mpr
    have hselected := hholds.sorts.selected id hid
    exact (sortByField_selected hid (mem_of_selectedId? hselected)).2

/-- The cursor stands on a row without an identifier, and between two rows that share one. Sorting
brings the second of these under the cursor, and sorting again selects the first. -/
theorem sorted_again_selects_another :
    let format : RowFormat (Option String × String) :=
      { columns := fun row => [row.2.toList]
        id? := fun row => row.1
        isHeading := fun _ => false
        sortKey := fun row _ => .text row.2 }
    let rows := [(some "x", "a"), (none, "c"), (some "x", "b")]
    let t := changed format [⟨"NAME", none⟩] [.replaceRows rows, .cursorDown 1]
    let sorted := t.sortByField format
    sorted.cursor? = some 1 ∧ (sorted.sortByField format).cursor? = some 0 ∧
      sorted.sortByField format ≠ sorted := by
  dsimp only
  have differ {again sorted : Table (Option String × String)} (h : sorted.cursor? = some 1)
      (hagain : again.cursor? = some 0) : again ≠ sorted := by
    rintro rfl
    rw [h] at hagain
    cases hagain
  refine ⟨by cbv, by cbv, differ ?_ ?_⟩
  · cbv
  · cbv

end Table

end Dockboard
