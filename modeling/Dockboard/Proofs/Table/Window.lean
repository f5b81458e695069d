import Dockboard.Proofs.Table
import Dockboard.Proofs.Text.Search

set_option autoImplicit false

/-! # The window of a table

What a table shows after any changes to it.

    rows     a  b  c  d  e  f  g  h      in some order, as they have been given
    shown       b  c     e     g  h      those that match the filter
    window         c     e     g         `height` of them, from `offset` on
    cursor               e               one of those in the window

All changes but one end by settling the table, and that makes the window fit whatever the cursor,
the rows shown and the height have become (`settle_windowed`); the other one changes nothing of
what is shown. So what is left to say of each change is which rows the table holds then and what
its filter and its height are (`Holds.change`).
-/

namespace Dockboard

open Dockboard.Text

namespace Table

variable {R : Type}

/-! ## The rows that are shown -/

/-- A row is to be shown if the filter is empty or occurs in one of its columns, both in lower
case. -/
def Matches (format : RowFormat R) (filter : List Char) (row : R) : Prop :=
  filter = [] ∨ ∃ column ∈ format.columns row, lower filter <:+: lower column

theorem passes_iff {format : RowFormat R} {filter : List Char} {row : R} :
    passes format filter row = true ↔ Matches format filter row := by
  rw [passes, Bool.or_eq_true, List.isEmpty_iff, List.any_eq_true]
  constructor
  · rintro (hempty | ⟨column, hcolumn, hmatch⟩)
    · exact Or.inl hempty
    · exact Or.inr ⟨column, hcolumn, matchesFilter_iff.mp hmatch⟩
  · rintro (hempty | ⟨column, hcolumn, hmatch⟩)
    · exact Or.inl hempty
    · exact Or.inr ⟨column, hcolumn, matchesFilter_iff.mpr hmatch⟩

instance (format : RowFormat R) (filter : List Char) : DecidablePred (Matches format filter) :=
  fun _ => decidable_of_iff _ passes_iff

/-- The rows that match a filter, in their order. -/
def matching (format : RowFormat R) (filter : List Char) (rows : List R) : List R :=
  rows.filter fun row => Matches format filter row

theorem filter_passes (format : RowFormat R) (filter : List Char) (rows : List R) :
    rows.filter (passes format filter) = matching format filter rows :=
  filter_of_iff (fun _ => passes_iff) rows

/-! ## Changes -/

/-- What can be done to a table. -/
inductive Change (R : Type) where
  | replaceRows (rows : List R)
  | setFilter (filter : List Char)
  | nextSortField
  | sortByField
  | resize (width height : Nat)
  | cursorUp (n : Nat)
  | cursorDown (n : Nat)
  | pageUp
  | pageDown
  | home
  | toEnd

/-- Change a table. -/
def change (format : RowFormat R) (t : Table R) : Change R → Table R
  | .replaceRows rows => t.replaceRows format rows
  | .setFilter filter => t.setFilter format filter
  | .nextSortField => t.nextSortField
  | .sortByField => t.sortByField format
  | .resize width height => t.resize width height
  | .cursorUp n => t.cursorUp n
  | .cursorDown n => t.cursorDown n
  | .pageUp => t.pageUp
  | .pageDown => t.pageDown
  | .home => t.home
  | .toEnd => t.toEnd

/-- A table after some changes. -/
def changed (format : RowFormat R) (columns : List Column) (changes : List (Change R)) : Table R :=
  changes.foldl (change format) (new columns)

/-- What a table has been given last of all. -/
structure Given (R : Type) where
  rows : List R := []
  filter : List Char := []
  height : Nat := 1

/-- What a table has been given once it is changed. -/
def Given.add (given : Given R) : Change R → Given R
  | .replaceRows rows => { given with rows }
  | .setFilter filter => { given with filter }
  | .resize _ height => { given with height := max height 1 }
  | _ => given

/-- What a table has been given by some changes, of each the last. -/
def Given.last (changes : List (Change R)) : Given R := changes.foldl add {}

/-! ## The window -/

/-- The window fits: it does not reach beyond the last row, unless it is larger than all of them,
and the cursor is the place of a row inside it. -/
structure Windowed (t : Table R) : Prop where
  height_pos : 0 < t.height
  offset_le : t.offset ≤ t.shown.length - t.height
  cursor_lt : t.shown ≠ [] → t.cursor < t.shown.length
  offset_le_cursor : t.shown ≠ [] → t.offset ≤ t.cursor
  cursor_lt_end : t.shown ≠ [] → t.cursor < t.offset + t.height

@[simp] theorem settle_shown (t : Table R) : t.settle.shown = t.shown := by
  unfold settle
  split <;> rfl

@[simp] theorem settle_filter (t : Table R) : t.settle.filter = t.filter := by
  unfold settle
  split <;> rfl

@[simp] theorem settle_height (t : Table R) : t.settle.height = t.height := by
  unfold settle
  split <;> rfl

@[simp] theorem replaceRows_filter (format : RowFormat R) (t : Table R) (rows : List R) :
    (t.replaceRows format rows).filter = t.filter :=
  settle_filter _

@[simp] theorem sortByField_filter (format : RowFormat R) (t : Table R) :
    (t.sortByField format).filter = t.filter :=
  replaceRows_filter _ _ _

/-- **Settling** makes the window fit. -/
theorem settle_windowed {t : Table R} (h : 0 < t.height) : t.settle.Windowed := by
  unfold settle
  by_cases hnil : t.shown = []
  · rw [if_pos (List.isEmpty_iff.mpr hnil)]
    have hnone (P : Prop) (hne : t.shown ≠ []) : P := absurd hnil hne
    exact ⟨h, Nat.zero_le _, hnone _, hnone _, hnone _⟩
  · have hpos : 0 < t.shown.length := List.length_pos_iff.mpr hnil
    rw [if_neg (by rwa [List.isEmpty_iff])]
    -- The offset is moved to the cursor first and then back by what stays empty below.
    have hwindow : ∀ cursor offset, cursor < t.shown.length → offset ≤ cursor →
        cursor < offset + t.height →
        Windowed { t with cursor, offset := min offset (t.shown.length - t.height) } := by
      intro cursor offset hlt hle hend
      constructor
      · exact h
      · exact Nat.min_le_right _ _
      · exact fun _ => hlt
      · exact fun _ => Nat.le_trans (Nat.min_le_left _ _) hle
      · intro _
        show cursor < min offset (t.shown.length - t.height) + t.height
        omega
    refine hwindow _ _ (by omega) ?_ ?_
    · split
      · exact Nat.le_refl _
      · split <;> omega
    · split
      · omega
      · split <;> omega

/-- No cursor is beyond the last row once the table is settled. -/
theorem settle_cursor_le (t : Table R) : t.settle.cursor ≤ t.shown.length - 1 := by
  unfold settle
  split
  · exact Nat.zero_le _
  · exact Nat.min_le_right _ _

/-- Settling moves the window, and the cursor only if it is beyond the last row. -/
theorem settle_eq {t : Table R} (h : t.cursor ≤ t.shown.length - 1) :
    ∃ offset, t.settle = { t with offset } := by
  unfold settle
  split
  · next hempty =>
    have hnil : t.shown = [] := List.isEmpty_iff.mp hempty
    have hzero : t.cursor = 0 := by simpa [hnil] using h
    exact ⟨0, by rw [hzero]⟩
  · simp only [Nat.min_eq_left h]
    exact ⟨_, rfl⟩

/-- Fitting a table to a screen changes the window only. -/
theorem resize_eq {t : Table R} (h : t.cursor ≤ t.shown.length - 1) (width height : Nat) :
    ∃ height' widths offset,
      t.resize width height = { t with height := height', widths, offset } := by
  have hsettle := settle_eq (t := { t with
    height := max height 1, widths := layout t.columns width }) h
  obtain ⟨offset, hresize⟩ := hsettle
  exact ⟨_, _, offset, hresize⟩

/-- A table holds the rows that it has been given, in some order, and shows those that match in a
window that fits. -/
structure Holds (format : RowFormat R) (given : Given R) (t : Table R) : Prop where
  rows : t.rows.Perm given.rows
  filter : t.filter = given.filter
  height : t.height = given.height
  shown : t.shown = matching format t.filter t.rows
  windowed : t.Windowed

theorem Holds.settle {format : RowFormat R} {given : Given R} {t : Table R}
    (hrows : t.rows.Perm given.rows) (hfilter : t.filter = given.filter)
    (hheight : t.height = given.height) (hshown : t.shown = matching format t.filter t.rows)
    (hpos : 0 < t.height) : t.settle.Holds format given := by
  constructor
  · rwa [settle_rows]
  · rwa [settle_filter]
  · rwa [settle_height]
  · rwa [settle_shown, settle_filter, settle_rows]
  · exact settle_windowed hpos

section Step

variable {format : RowFormat R} {given : Given R} {t : Table R}

theorem Holds.moveTo (h : t.Holds format given) (place : Nat) :
    (t.moveTo place).Holds format given :=
  .settle h.rows h.filter h.height h.shown h.windowed.height_pos

theorem Holds.replaceRows (h : t.Holds format given) {rows rows' : List R}
    (hrows : rows.Perm rows') :
    (t.replaceRows format rows).Holds format { given with rows := rows' } :=
  .settle hrows h.filter h.height (filter_passes format t.filter rows) h.windowed.height_pos

/-- By which column a table is sorted makes no difference to what it shows until it is sorted. -/
theorem Holds.sortedBy (h : t.Holds format given) (sortField : Nat) (sorted : Bool) :
    ({ t with sortField, sorted } : Table R).Holds format given := by
  obtain ⟨hpos, hoffset, hcursor, hle, hend⟩ := h.windowed
  exact ⟨h.rows, h.filter, h.height, h.shown, hpos, hoffset, hcursor, hle, hend⟩

/-- **One change.** -/
theorem Holds.change (h : t.Holds format given) (c : Change R) :
    (t.change format c).Holds format (given.add c) := by
  -- Every change but that of the sort column settles the table in the end.
  cases c with
  | replaceRows rows => exact h.replaceRows (List.Perm.refl rows)
  | setFilter filter =>
      exact .settle h.rows rfl h.height (filter_passes format filter t.rows) h.windowed.height_pos
  | nextSortField => exact h.sortedBy _ true
  | sortByField =>
      have hperm := sortRuns_perm format.isHeading (columnLe format t.sortField) [] t.rows
      exact (h.sortedBy t.sortField true).replaceRows (hperm.trans h.rows)
  | resize width height =>
      have hpos : 0 < max height 1 := Nat.lt_of_lt_of_le Nat.one_pos (Nat.le_max_right _ _)
      exact .settle h.rows h.filter rfl h.shown hpos
  | cursorUp n => exact h.moveTo _
  | cursorDown n => exact h.moveTo _
  | pageUp => exact h.moveTo _
  | pageDown => exact h.moveTo _
  | home => exact h.moveTo _
  | toEnd => exact h.moveTo _

end Step

theorem new_holds (format : RowFormat R) (columns : List Column) :
    (new columns : Table R).Holds format {} := by
  have hnone (P : Prop) (hne : ([] : List R) ≠ []) : P := absurd rfl hne
  constructor
  · exact List.Perm.refl []
  · rfl
  · rfl
  · rfl
  · exact ⟨Nat.one_pos, Nat.zero_le _, hnone _, hnone _, hnone _⟩

theorem changed_holds (format : RowFormat R) (columns : List Column) (changes : List (Change R)) :
    (changed format columns changes).Holds format (.last changes) := by
  induction changes using List.reverseRecOn with
  | nil => exact new_holds format columns
  | append_singleton changes c ih =>
      rw [changed, Given.last, List.foldl_concat, List.foldl_concat]
      exact ih.change c

/-! ## What is shown -/

theorem getElem?_lines (format : RowFormat R) (t : Table R) (i : Nat) :
    (t.view format).lines[i]? =
      if i < t.height then
        t.shown[t.offset + i]?.map fun row =>
          { text := lineText format t row
            selected := t.offset + i == t.cursor
            heading := format.isHeading row }
      else none := by
  rw [view, windowRows, List.getElem?_map, List.getElem?_zipIdx, List.getElem?_take]
  split
  · rw [List.getElem?_drop, Option.map_map]
    rfl
  · rfl

/-- What a table shows that has been given some rows, a filter and a height. -/
structure Displays (format : RowFormat R) (given : Given R) (t : Table R) : Prop where
  rows : t.rows.Perm given.rows
  /-- The rows shown are those that match, each of them once and in their order. -/
  shown : t.shown = matching format given.filter t.rows
  offset_le : t.offset ≤ t.shown.length - given.height
  none_shown : t.shown = [] → t.cursor? = none ∧ t.selected? = none ∧ t.offset = 0
  /-- The cursor is the place of the selected row, and in the window. -/
  cursor : t.shown ≠ [] → ∃ place row, t.cursor? = some place ∧ t.selected? = some row ∧
    t.shown[place]? = some row ∧ t.offset ≤ place ∧ place < t.offset + given.height
  length_lines : (t.view format).lines.length = min given.height t.shown.length
  /-- The lines are those of the rows from the offset on. -/
  line : ∀ i line, (t.view format).lines[i]? = some line →
    ∃ row, t.shown[t.offset + i]? = some row ∧ line.text = lineText format t row ∧
      line.heading = format.isHeading row
  /-- One line is marked, and it is that of the selected row. -/
  marked : t.shown ≠ [] → ∃ i line, (t.view format).lines[i]? = some line ∧
    line.selected = true ∧ t.shown[t.offset + i]? = t.selected? ∧
    ∀ j other, (t.view format).lines[j]? = some other → other.selected = true → j = i

/-- There is a selected row if any row is shown. -/
theorem Windowed.selected {t : Table R} (h : t.Windowed) (hne : t.shown ≠ []) :
    ∃ row, t.selected? = some row ∧ t.shown[t.cursor]? = some row := by
  have hrow := List.getElem?_eq_getElem (h.cursor_lt hne)
  exact ⟨_, hrow, hrow⟩

theorem length_lines (format : RowFormat R) {t : Table R} (h : t.Windowed) :
    (t.view format).lines.length = min t.height t.shown.length := by
  have hle := h.offset_le
  rw [view, List.length_map, windowRows, List.length_zipIdx, List.length_take, List.length_drop]
  omega

/-- The line of the selected row is marked, and no other. -/
theorem Windowed.marked (format : RowFormat R) {t : Table R} (h : t.Windowed)
    (hne : t.shown ≠ []) :
    ∃ i line, (t.view format).lines[i]? = some line ∧ line.selected = true ∧
      t.shown[t.offset + i]? = t.selected? ∧
      ∀ j other, (t.view format).lines[j]? = some other → other.selected = true → j = i := by
  -- The cursor's line is as far below the first one as the cursor is below the offset.
  obtain ⟨i, hi⟩ := Nat.exists_eq_add_of_le (h.offset_le_cursor hne)
  obtain ⟨row, hselected, hrow⟩ := h.selected hne
  have hlt : i < t.height := by
    have := h.cursor_lt_end hne
    omega
  rw [hi] at hrow
  have hline := getElem?_lines format t i
  rw [if_pos hlt, hrow, Option.map_some] at hline
  refine ⟨i, _, hline, beq_iff_eq.mpr hi.symm, hrow.trans hselected.symm, ?_⟩
  intro j other hj hmark
  rw [getElem?_lines] at hj
  split at hj
  · obtain ⟨row', -, rfl⟩ := Option.map_eq_some_iff.mp hj
    have : t.offset + j = t.cursor := beq_iff_eq.mp hmark
    omega
  · cases hj

theorem Holds.displays {format : RowFormat R} {given : Given R} {t : Table R}
    (h : t.Holds format given) : t.Displays format given := by
  obtain ⟨hrows, hfilter, hheight, hshown, hwindowed⟩ := h
  constructor
  · exact hrows
  · rw [← hfilter]
    exact hshown
  · rw [← hheight]
    exact hwindowed.offset_le
  · intro hnil
    have hoffset := hwindowed.offset_le
    rw [hnil, List.length_nil, Nat.zero_sub] at hoffset
    refine ⟨?_, ?_, Nat.eq_zero_of_le_zero hoffset⟩
    · rw [cursor?, hnil]
      rfl
    · rw [selected?, hnil]
      rfl
  · intro hne
    obtain ⟨row, hselected, hrow⟩ := hwindowed.selected hne
    have hcursor : t.cursor? = some t.cursor := by
      rw [cursor?, if_neg (by rwa [List.isEmpty_iff])]
    rw [← hheight]
    exact ⟨t.cursor, row, hcursor, hselected, hrow, hwindowed.offset_le_cursor hne,
      hwindowed.cursor_lt_end hne⟩
  · rw [← hheight]
    exact length_lines format hwindowed
  · intro i line hi
    rw [getElem?_lines] at hi
    split at hi
    · obtain ⟨row, hrow, rfl⟩ := Option.map_eq_some_iff.mp hi
      exact ⟨row, hrow, rfl, rfl⟩
    · cases hi
  · exact hwindowed.marked format

/-- **The window.** After any changes a table holds the rows given last, in some order. It shows
those that match the filter given last, has one of them selected if there are any, and displays as
many as the height given last leaves room for, the selected one among them. -/
theorem changed_displays (format : RowFormat R) (columns : List Column)
    (changes : List (Change R)) :
    (changed format columns changes).Displays format (.last changes) :=
  (changed_holds format columns changes).displays

end Table

end Dockboard
