import Dockboard.Proofs.Table.Window
import Mathlib

set_option autoImplicit false

/-! # The columns of a table

A line of a table is made of cells with a blank between any two, and each cell is as wide as its
column.

    widths     4     2      6          as they come out for the screen
    cells      web·  do     …  ···     cut or padded, one for each width
    line       web·▯do▯…  ···          the cells with blanks between them

So all lines are equally long, the header among them (`length_of_aligned`), and a heading that takes
no notice of columns is made as long as that (`length_formatSpanning`). A column that has a width of
its own keeps it, and the others share what is left (`layout`); as the shares are rounded down, they
leave out less than there are such columns (`sum_layout`). The widths are made anew whenever a table
is fitted to a screen, and at no other time (`SpansScreen.change`).
-/

namespace Dockboard

open Dockboard.Text

namespace Table

variable {R : Type}

/-! ## Cells -/

/-- A cell of some width. -/
def cell (width : Nat) (s : List Char) : List Char := padRight width (ellipsize width s)

/-- The cells of a line, one for each width; those that are missing are blank. -/
def cellsOf : List Nat → List (List Char) → List (List Char)
  | [], _ => []
  | width :: widths, cells => cell width (cells.headD []) :: cellsOf widths cells.tail

/-- A line is made of cells of these widths, with a blank between any two. -/
def Aligned (widths : List Nat) (line : List Char) : Prop :=
  ∃ cells : List (List Char), cells.map List.length = widths ∧ line = List.intercalate [' '] cells

theorem length_padRight {width : Nat} {s : List Char} (h : s.length ≤ width) :
    (padRight width s).length = width := by
  rw [padRight, List.length_append, List.length_replicate]
  omega

theorem length_cell (width : Nat) (s : List Char) : (cell width s).length = width :=
  length_padRight (length_ellipsize_le width s)

theorem map_length_cellsOf (widths : List Nat) (cells : List (List Char)) :
    (cellsOf widths cells).map List.length = widths := by
  induction widths generalizing cells with
  | nil => rfl
  | cons width widths ih => rw [cellsOf, List.map_cons, length_cell, ih]

theorem formatCells_eq (widths : List Nat) (cells : List (List Char)) :
    formatCells widths cells = List.intercalate [' '] (cellsOf widths cells) := by
  induction widths generalizing cells with
  | nil => rfl
  | cons width widths ih =>
      -- There is no blank behind the last cell, so its width is a case of its own.
      cases widths with
      | nil => simp [formatCells, cellsOf, cell, List.intercalate]
      | cons next widths =>
          have hrest := ih cells.tail
          rw [cellsOf] at hrest
          rw [formatCells, cellsOf, cellsOf, List.intercalate_cons_cons, hrest, List.append_assoc]
          · rfl
          · exact List.cons_ne_nil next widths

theorem formatCells_aligned (widths : List Nat) (cells : List (List Char)) :
    Aligned widths (formatCells widths cells) :=
  ⟨_, map_length_cellsOf widths cells, formatCells_eq widths cells⟩

/-- A line has the characters of its cells and one between any two. -/
theorem length_of_aligned {widths : List Nat} {line : List Char} (h : Aligned widths line) :
    line.length = widths.sum + (widths.length - 1) := by
  obtain ⟨cells, rfl, rfl⟩ := h
  induction cells with
  | nil => rfl
  | cons first cells ih =>
      cases cells with
      | nil => simp [List.intercalate]
      | cons second cells =>
          rw [List.intercalate_cons_cons, List.length_append, List.length_append, ih]
          simp only [List.map_cons, List.sum_cons, List.length_cons, List.length_nil,
            List.length_map]
          omega

theorem length_formatSpanning (widths : List Nat) (cells : List (List Char)) :
    (formatSpanning widths cells).length = widths.sum + (widths.length - 1) :=
  length_padRight (length_ellipsize_le _ _)

/-- A line that is no heading is made of cells like the header. -/
theorem lineText_aligned {format : RowFormat R} (t : Table R) {row : R}
    (h : format.isHeading row = false) : Aligned t.widths (lineText format t row) := by
  have htext : lineText format t row = formatCells t.widths (format.columns row) :=
    if_neg (by simp [h])
  rw [htext]
  exact formatCells_aligned _ _

/-- Whatever its row, a line is as long as the header. -/
theorem length_lineText (format : RowFormat R) (t : Table R) (row : R) :
    (lineText format t row).length = t.widths.sum + (t.widths.length - 1) := by
  unfold lineText
  split
  · exact length_formatSpanning t.widths _
  · exact length_of_aligned (formatCells_aligned t.widths _)

/-! ## Widths -/

/-- The widths that columns have of their own, added up. -/
def fixedWidth (columns : List Column) : Nat := (columns.filterMap Column.width).sum

/-- How many columns have no width of their own. -/
def flexibles (columns : List Column) : Nat := columns.countP fun c => c.width.isNone

/-- The share of a column without a width of its own. -/
def share (columns : List Column) (width : Nat) : Nat :=
  (width - (fixedWidth columns + (columns.length - 1))) / flexibles columns

theorem layout_eq (columns : List Column) (width : Nat) :
    layout columns width = columns.map fun c => c.width.getD (share columns width) := by
  unfold layout share flexibles fixedWidth
  rw [List.countP_eq_length_filter]
  rfl

theorem getElem?_layout {columns : List Column} {i : Nat} {column : Column}
    (h : columns[i]? = some column) (width : Nat) :
    (layout columns width)[i]? = some (column.width.getD (share columns width)) := by
  rw [layout_eq, List.getElem?_map, h]
  rfl

theorem sum_getD (columns : List Column) (share : Nat) :
    (columns.map fun c => c.width.getD share).sum =
      fixedWidth columns + flexibles columns * share := by
  induction columns with
  | nil => simp [fixedWidth, flexibles]
  | cons c columns ih =>
      rw [List.map_cons, List.sum_cons, ih, fixedWidth, fixedWidth, flexibles, flexibles,
        List.countP_cons, List.filterMap_cons]
      cases hwidth : c.width with
      | none =>
          simp [Nat.add_mul]
          omega
      | some width =>
          simp
          omega

/-- **Shares** are rounded down: all columns together fill the screen but for less than one
character for each share. -/
theorem sum_layout {columns : List Column} {width : Nat} (hflexible : 0 < flexibles columns)
    (hfits : fixedWidth columns + (columns.length - 1) ≤ width) :
    width < (layout columns width).sum + (columns.length - 1) + flexibles columns ∧
      (layout columns width).sum + (columns.length - 1) ≤ width := by
  let left := width - (fixedWidth columns + (columns.length - 1))
  have hle : flexibles columns * share columns width ≤ left := Nat.mul_div_le left _
  have hlt : left < flexibles columns * share columns width + flexibles columns :=
    Nat.lt_mul_div_succ left hflexible
  rw [layout_eq, sum_getD]
  omega

/-! ## Changes -/

/-- The width of the screen that a table is fitted to by a change, if it is. -/
def Change.screen? : Change R → Option Nat
  | .resize width _ => some width
  | _ => none

/-- The width of the screen that a table has been fitted to last, 80 before it is to any. -/
def screenWidth (changes : List (Change R)) : Nat :=
  (changes.filterMap Change.screen?).getLast?.getD 80

@[simp] theorem settle_widths (t : Table R) : t.settle.widths = t.widths := by
  unfold settle
  split <;> rfl

@[simp] theorem settle_columns (t : Table R) : t.settle.columns = t.columns := by
  unfold settle
  split <;> rfl

/-- The widths of a table come from its columns and the width of a screen. -/
structure SpansScreen (columns : List Column) (width : Nat) (t : Table R) : Prop where
  columns_eq : t.columns = columns
  widths_eq : t.widths = layout columns width

theorem SpansScreen.settle {columns : List Column} {width : Nat} {t : Table R}
    (h : t.SpansScreen columns width) : t.settle.SpansScreen columns width := by
  constructor
  · rw [settle_columns, h.columns_eq]
  · rw [settle_widths, h.widths_eq]

/-- **One change** leaves the widths alone, or fits them to a screen. -/
theorem SpansScreen.change {columns : List Column} {width : Nat} {t : Table R}
    (h : t.SpansScreen columns width) (format : RowFormat R) (c : Change R) :
    (t.change format c).SpansScreen columns (c.screen?.getD width) := by
  obtain ⟨rfl, hwidths⟩ := h
  have hmoved (t' : Table R) (hcolumns : t'.columns = t.columns) (hsame : t'.widths = t.widths) :
      t'.settle.SpansScreen t.columns width :=
    .settle ⟨hcolumns, hsame.trans hwidths⟩
  cases c with
  | nextSortField => exact ⟨rfl, hwidths⟩
  | resize width height => exact .settle ⟨rfl, rfl⟩
  | _ => exact hmoved _ rfl rfl

theorem changed_spansScreen (format : RowFormat R) (columns : List Column)
    (changes : List (Change R)) :
    (changed format columns changes).SpansScreen columns (screenWidth changes) := by
  induction changes using List.reverseRecOn with
  | nil => exact ⟨rfl, rfl⟩
  | append_singleton changes c ih =>
      have hnext := ih.change format c
      have hwidth : screenWidth (changes ++ [c]) = c.screen?.getD (screenWidth changes) := by
        unfold screenWidth
        rw [List.filterMap_append]
        cases hscreen : c.screen? <;> simp [hscreen]
      rw [changed, List.foldl_concat, hwidth]
      exact hnext

/-- **Lines and columns.** After any changes the header and all lines of a table have the same
number of characters, whatever their rows: those of the widths, and one between any two. The cells
of a line are as wide as their columns, unless the line is a heading. A column that has a width of
its own has that width. If those and the blanks fit on the screen and there are other columns, then
these are equally wide, and less than one character for each of them is left over. -/
theorem changed_aligned (format : RowFormat R) (columns : List Column)
    (changes : List (Change R)) :
    let t := changed format columns changes
    let view := t.view format
    let total := t.widths.sum + (columns.length - 1)
    let width := screenWidth changes
    view.header.length = total ∧ Aligned t.widths view.header ∧
      (∀ line ∈ view.lines, line.text.length = total ∧
        (line.heading = false → Aligned t.widths line.text)) ∧
      t.widths.length = columns.length ∧
      (∀ (i : Nat) (column : Column) (own : Nat), columns[i]? = some column →
        column.width = some own → t.widths[i]? = some own) ∧
      (0 < flexibles columns → fixedWidth columns + (columns.length - 1) ≤ width →
        (∃ share, ∀ (i : Nat) (column : Column), columns[i]? = some column →
          column.width = none → t.widths[i]? = some share) ∧
        width < total + flexibles columns ∧ total ≤ width) := by
  intro t view total width
  obtain ⟨-, hwidths⟩ : t.SpansScreen columns width := changed_spansScreen format columns changes
  have hlength : t.widths.length = columns.length := by
    rw [hwidths, layout_eq, List.length_map]
  have hwidth (i : Nat) (column : Column) (hi : columns[i]? = some column) :
      t.widths[i]? = some (column.width.getD (share columns width)) := by
    rw [hwidths]
    exact getElem?_layout hi width
  have htotal : t.widths.sum + (t.widths.length - 1) = total := by rw [hlength]
  have hheader : Aligned t.widths view.header := formatCells_aligned _ _
  refine ⟨?_, hheader, ?_, hlength, ?_, ?_⟩
  · rw [length_of_aligned hheader, htotal]
  · intro line hline
    obtain ⟨⟨row, place⟩, -, rfl⟩ := List.mem_map.mp hline
    exact ⟨(length_lineText format t row).trans htotal, fun hplain => lineText_aligned t hplain⟩
  · intro i column own hi hown
    rw [hwidth i column hi, hown]
    rfl
  · intro hflexible hfits
    have hshare (i : Nat) (column : Column) (hi : columns[i]? = some column)
        (hnone : column.width = none) : t.widths[i]? = some (share columns width) := by
      rw [hwidth i column hi, hnone]
      rfl
    have hsum := sum_layout hflexible hfits
    rw [← hwidths] at hsum
    exact ⟨⟨share columns width, hshare⟩, hsum⟩

/-- Two columns share what one leaves of a screen, and one character is left over. A heading is too
long for the screen, one row has too few cells and another one too many. -/
theorem changed_aligned_of_three :
    let format : RowFormat (Bool × List String) :=
      { columns := fun row => row.2.map String.toList
        id? := fun _ => none
        isHeading := fun row => row.1
        sortKey := fun _ _ => .text "" }
    let columns : List Column := [⟨"ID", some 4⟩, ⟨"NAME", none⟩, ⟨"NOTE", none⟩]
    let rows := [(true, ["more than there is room for"]), (false, ["0123456789"]),
      (false, ["a", "b", "c", "d"])]
    let t := changed format columns [.replaceRows rows, .resize 23 5]
    0 < flexibles columns ∧ fixedWidth columns + 2 ≤ 23 ∧
      t.widths[0]? = some 4 ∧ (∃ share, t.widths[1]? = some share ∧ t.widths[2]? = some share) ∧
      23 < t.widths.sum + 2 + 2 ∧ t.widths.sum + 2 ≤ 23 ∧
      (t.view format).header.length = t.widths.sum + 2 ∧ (t.view format).lines.length = 3 ∧
      ∀ line ∈ (t.view format).lines, line.text.length = t.widths.sum + 2 := by
  intro format columns rows t
  have hflexible : 0 < flexibles columns := by decide
  have hfits : fixedWidth columns + (columns.length - 1) ≤ 23 := by decide
  obtain ⟨hheader, -, hlines, -, hfixed, hshared⟩ :=
    changed_aligned format columns [.replaceRows rows, .resize 23 5]
  obtain ⟨⟨share, hshare⟩, hlt, hle⟩ := hshared hflexible hfits
  exact ⟨hflexible, hfits, hfixed 0 _ 4 rfl rfl, ⟨share, hshare 1 _ rfl rfl, hshare 2 _ rfl rfl⟩,
    hlt, hle, hheader, by cbv, fun line hline => (hlines line hline).1⟩

end Table

end Dockboard
