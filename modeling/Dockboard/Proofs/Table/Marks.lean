import Dockboard.Proofs.Table.Columns
import Mathlib

set_option autoImplicit false

/-! # The mark of the sort column

When a table has been sorted, a mark stands in its header, behind the title of the sort column and
in the same cell. It is there if the column has room for both.

    widths    6      6      7
    header    ID····▯NAME ▼▯DRIVER·     sorted by the second column
    header    ID····▯NAME··▯DRIV...     sorted by the third one

A cell that is too long loses its end, and the mark is the end of it (`mark_not_mem_ellipsize`). As
no title holds a mark itself, the cell of the sort column is the only one that can hold one.
-/

namespace Dockboard

open Dockboard.Text

namespace Table

variable {R : Type}

/-! ## The cells of a line -/

theorem getElem?_cellsOf (widths : List Nat) (cells : List (List Char)) (i : Nat) :
    (cellsOf widths cells)[i]? = widths[i]?.map fun width => cell width (cells[i]?.getD []) := by
  induction widths generalizing cells i with
  | nil => rfl
  | cons width widths ih =>
      cases i with
      | zero => cases cells <;> rfl
      | succ i =>
          rw [cellsOf, List.getElem?_cons_succ, List.getElem?_cons_succ, ih]
          cases cells <;> rfl

/-- The cells after the first one come with a blank before each. -/
theorem intercalate_cons (cell : List Char) (cells : List (List Char)) :
    List.intercalate [' '] (cell :: cells) = cell ++ cells.flatMap (' ' :: ·) := by
  induction cells generalizing cell with
  | nil => simp
  | cons next cells ih =>
      rw [List.intercalate_cons_cons, ih, List.flatMap_cons]
      simp

/-- A line is parted at any cell of it. -/
theorem intercalate_append_cons (before behind : List (List Char)) (cell : List Char) :
    List.intercalate [' '] (before ++ cell :: behind) =
      before.flatMap (· ++ [' ']) ++ cell ++ behind.flatMap (' ' :: ·) := by
  induction before with
  | nil => exact intercalate_cons cell behind
  | cons first before ih =>
      rw [List.cons_append, List.intercalate_cons_of_ne_nil (by simp), ih, List.flatMap_cons]
      simp

/-- The characters before a cell are those of the cells before it, and one behind each of them. -/
theorem length_flatMap_blank (before : List (List Char)) :
    (before.flatMap (· ++ [' '])).length = (before.map List.length).sum + before.length := by
  induction before with
  | nil => rfl
  | cons first before ih =>
      rw [List.flatMap_cons, List.length_append, ih]
      simp
      omega

/-- A cell stands at its place in a line, and a character that is in no other cell of it is not
found around it. -/
theorem exists_around {cells : List (List Char)} {i : Nat} {cell : List Char} {c : Char}
    (hcell : cells[i]? = some cell) (hblank : c ≠ ' ')
    (hother : ∀ j other, j ≠ i → cells[j]? = some other → c ∉ other) :
    ∃ before behind, List.intercalate [' '] cells = before ++ cell ++ behind ∧
      before.length = ((cells.map List.length).take i).sum + i ∧ c ∉ before ∧ c ∉ behind := by
  obtain ⟨hi, rfl⟩ := List.getElem?_eq_some_iff.mp hcell
  have hsplit : cells = cells.take i ++ cells[i] :: cells.drop (i + 1) := by
    rw [List.getElem_cons_drop, List.take_append_drop]
  refine ⟨(cells.take i).flatMap (· ++ [' ']), (cells.drop (i + 1)).flatMap (' ' :: ·), ?_, ?_, ?_,
    ?_⟩
  · conv_lhs => rw [hsplit]
    exact intercalate_append_cons _ _ _
  · rw [length_flatMap_blank, List.length_take_of_le (Nat.le_of_lt hi), List.map_take]
  · -- Before the cell there are cells with smaller places, and blanks.
    intro hmem
    obtain ⟨other, hotherMem, hc⟩ := List.mem_flatMap.mp hmem
    obtain ⟨j, hj, rfl⟩ := List.mem_take_iff_getElem.mp hotherMem
    have hlt : j < i := Nat.lt_of_lt_of_le hj (Nat.min_le_left _ _)
    simp only [List.mem_append, List.mem_singleton, hblank, or_false] at hc
    exact hother j _ (Nat.ne_of_lt hlt) (List.getElem?_eq_getElem _) hc
  · intro hmem
    obtain ⟨other, hotherMem, hc⟩ := List.mem_flatMap.mp hmem
    obtain ⟨j, hj, rfl⟩ := List.mem_drop_iff_getElem.mp hotherMem
    simp only [List.mem_cons, hblank, false_or] at hc
    exact hother (i + 1 + j) _ (by omega) (List.getElem?_eq_getElem _) hc

/-! ## The mark -/

theorem not_mem_cell {c : Char} {width : Nat} {s : List Char} (hblank : c ≠ ' ')
    (h : c ∉ ellipsize width s) : c ∉ cell width s := by
  rw [cell, padRight, List.mem_append, List.mem_replicate]
  rintro (hmem | ⟨-, rfl⟩)
  · exact h hmem
  · exact hblank rfl

theorem not_mem_ellipsize {c : Char} {width : Nat} {s : List Char} (hdot : c ≠ '.') (h : c ∉ s) :
    c ∉ ellipsize width s := by
  unfold ellipsize
  split
  · exact h
  · split
    · exact fun hmem => h (List.mem_of_mem_take hmem)
    · rw [List.mem_append]
      rintro (hmem | hmem)
      · exact h (List.mem_of_mem_take hmem)
      · simp [hdot] at hmem

/-- What is cut off a text is its end. -/
theorem mark_not_mem_ellipsize {c : Char} {width : Nat} {s : List Char} (hdot : c ≠ '.')
    (h : c ∉ s) (hlong : width ≤ s.length) : c ∉ ellipsize width (s ++ [c]) := by
  have hcut : ¬ (s ++ [c]).length ≤ width := by
    rw [List.length_append, List.length_singleton]
    omega
  have htake (n : Nat) (hn : n ≤ width) : c ∉ (s ++ [c]).take n := by
    rw [List.take_append_of_le_length (Nat.le_trans hn hlong)]
    exact fun hmem => h (List.mem_of_mem_take hmem)
  rw [ellipsize, if_neg hcut]
  split
  · exact htake width le_rfl
  · rw [List.mem_append]
    rintro (hmem | hmem)
    · exact htake (width - 3) (Nat.sub_le _ _) hmem
    · simp [hdot] at hmem

/-- A column with room for it shows a title and the mark as they are. -/
theorem cell_of_room {width : Nat} {title : List Char} (h : title.length + 2 ≤ width) :
    ∃ blanks, cell width (title ++ [' ', '▼']) =
      title ++ [' ', '▼'] ++ List.replicate blanks ' ' := by
  have hfits : (title ++ [' ', '▼']).length ≤ width := List.length_append.trans_le h
  exact ⟨_, by rw [cell, ellipsize, if_pos hfits, padRight]⟩

/-- A column without room for both shows no mark. -/
theorem mark_not_mem_cell {width : Nat} {title : List Char} (htitle : '▼' ∉ title)
    (h : width < title.length + 2) : '▼' ∉ cell width (title ++ [' ', '▼']) := by
  have hlast : title ++ [' ', '▼'] = (title ++ [' ']) ++ ['▼'] := by simp
  have hlong : width ≤ (title ++ [' ']).length := by
    rw [List.length_append, List.length_singleton]
    omega
  rw [hlast]
  exact not_mem_cell (by decide) (mark_not_mem_ellipsize (by decide) (by simpa using htitle) hlong)

/-- The title of the sort column has the mark behind it, and no other one has. -/
theorem getElem?_headerCells {t : Table R} (hsorted : t.sorted = true) (i : Nat) :
    t.headerCells[i]? = t.columns[i]?.map fun column =>
      if i = t.sortField then column.title.toList ++ [' ', '▼'] else column.title.toList := by
  unfold headerCells
  rw [List.getElem?_mapIdx]
  simp [hsorted, sortIndicator]

/-- A header has the mark once, behind a title that starts at some place. -/
def Marked (header title : List Char) (place : Nat) : Prop :=
  header.count '▼' = 1 ∧
    ∃ before behind, header = before ++ (title ++ [' ', '▼']) ++ behind ∧ before.length = place

/-- **The mark** of the sort column is in the header if the column has room for it and its title. -/
theorem header_marked (format : RowFormat R) {t : Table R} {column : Column} {width : Nat}
    (hsorted : t.sorted = true) (hcolumn : t.columns[t.sortField]? = some column)
    (hwidth : t.widths[t.sortField]? = some width)
    (htitles : ∀ c ∈ t.columns, '▼' ∉ c.title.toList) :
    (column.title.length + 2 ≤ width →
      Marked (t.view format).header column.title.toList
        ((t.widths.take t.sortField).sum + t.sortField)) ∧
    (width < column.title.length + 2 → '▼' ∉ (t.view format).header) := by
  have htitle : '▼' ∉ column.title.toList := htitles column (List.mem_of_getElem? hcolumn)
  have hcell : (cellsOf t.widths t.headerCells)[t.sortField]? =
      some (cell width (column.title.toList ++ [' ', '▼'])) := by
    rw [getElem?_cellsOf, hwidth, getElem?_headerCells hsorted, hcolumn]
    simp
  have hother (j : Nat) (other : List Char) (hj : j ≠ t.sortField)
      (h : (cellsOf t.widths t.headerCells)[j]? = some other) : '▼' ∉ other := by
    rw [getElem?_cellsOf, getElem?_headerCells hsorted] at h
    obtain ⟨width', -, rfl⟩ := Option.map_eq_some_iff.mp h
    -- It shows a title, or nothing if there are more widths than columns.
    refine not_mem_cell (by decide) (not_mem_ellipsize (by decide) ?_)
    cases hc : t.columns[j]? with
    | none => simp
    | some c =>
        rw [Option.map_some, if_neg hj]
        exact htitles c (List.mem_of_getElem? hc)
  obtain ⟨before, behind, hline, hplace, hbefore, hbehind⟩ :=
    exists_around hcell (by decide) hother
  rw [map_length_cellsOf] at hplace
  have hheader : (t.view format).header =
      before ++ cell width (column.title.toList ++ [' ', '▼']) ++ behind :=
    (formatCells_eq _ _).trans hline
  rw [hheader, ← String.length_toList]
  constructor
  · intro hroom
    obtain ⟨blanks, hkept⟩ := cell_of_room hroom
    rw [hkept]
    refine ⟨?_, before, List.replicate blanks ' ' ++ behind, ?_, hplace⟩
    · simp [List.count_eq_zero_of_not_mem, hbefore, hbehind, htitle]
    · simp only [List.append_assoc]
  · intro htight
    rw [List.mem_append, List.mem_append]
    rintro ((hmem | hmem) | hmem)
    · exact hbefore hmem
    · exact mark_not_mem_cell htitle htight hmem
    · exact hbehind hmem

end Table

end Dockboard
