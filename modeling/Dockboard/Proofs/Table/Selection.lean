import Dockboard.Proofs.Table.Window

set_option autoImplicit false

/-! # The selected row of a table

When the rows of a table are replaced, the row that was selected is looked for by its identifier.

    selectedId? t        the identifier of the selected row
    placeOf? rows id     the place of the first row with an identifier
    SelectsFirst t       no row shown above the selected one has its identifier

The first row shown with the identifier is selected then (`replaceRows_selected`). Where there is
none the cursor stays in its place, or goes to the last row (`replaceRows_cursor_of_gone`). Sorting
replaces the rows by themselves in another order, so the same holds of it.
-/

namespace Dockboard

namespace Table

variable {R : Type} {format : RowFormat R} {t : Table R} {rows : List R} {id : String}

/-! ## Identifiers -/

/-- The identifier of the selected row. -/
def selectedId? (format : RowFormat R) (t : Table R) : Option String :=
  t.selected?.bind format.id?

/-- The place of the first of some rows that has an identifier. -/
def placeOf? (format : RowFormat R) (rows : List R) (id : String) : Option Nat :=
  rows.findIdx? fun row => format.id? row == some id

/-- The selected row is the first one shown that has its identifier. -/
def SelectsFirst (format : RowFormat R) (t : Table R) : Prop :=
  ∀ id, t.selectedId? format = some id → placeOf? format t.shown id = some t.cursor

theorem row_of_placeOf? {place : Nat} (h : placeOf? format rows id = some place) :
    ∃ row, rows[place]? = some row ∧ format.id? row = some id := by
  obtain ⟨hlt, hid, -⟩ := List.findIdx?_eq_some_iff_getElem.mp h
  exact ⟨rows[place], List.getElem?_eq_getElem hlt, beq_iff_eq.mp hid⟩

theorem exists_placeOf? (h : ∃ row ∈ rows, format.id? row = some id) :
    ∃ place, placeOf? format rows id = some place := by
  obtain ⟨row, hrow, hid⟩ := h
  apply Option.isSome_iff_exists.mp
  rw [placeOf?, List.findIdx?_isSome, List.any_eq_true]
  exact ⟨row, hrow, beq_iff_eq.mpr hid⟩

theorem placeOf?_eq_none (h : ∀ row ∈ rows, format.id? row ≠ some id) :
    placeOf? format rows id = none := by
  apply List.findIdx?_eq_none_iff.mpr
  intro row hrow
  simpa using h row hrow

theorem lt_of_placeOf? {place : Nat} (h : placeOf? format rows id = some place) :
    place < rows.length := by
  obtain ⟨hlt, -⟩ := List.findIdx?_eq_some_iff_getElem.mp h
  exact hlt

/-- The selected row is one of those shown. -/
theorem mem_of_selectedId? (h : t.selectedId? format = some id) :
    ∃ row ∈ t.shown, format.id? row = some id := by
  obtain ⟨row, hselected, hid⟩ := Option.bind_eq_some_iff.mp h
  exact ⟨row, List.mem_of_getElem? hselected, hid⟩

/-! ## Settling -/

theorem settle_cursor (t : Table R) : t.settle.cursor = min t.cursor (t.shown.length - 1) := by
  unfold settle
  split
  · next hempty =>
    rw [List.isEmpty_iff.mp hempty]
    simp
  · rfl

/-- A window that fits is left as it is. -/
theorem settle_of_windowed (h : t.Windowed) (hcursor : t.cursor ≤ t.shown.length - 1) :
    t.settle = t := by
  have hsame {cursor offset : Nat} (hc : cursor = t.cursor) (ho : offset = t.offset) :
      { t with cursor, offset } = t := by
    subst hc ho
    rfl
  unfold settle
  by_cases hnil : t.shown = []
  · have hoffset := h.offset_le
    simp only [hnil, List.length_nil, Nat.zero_sub, Nat.le_zero_eq] at hcursor hoffset
    rw [if_pos (List.isEmpty_iff.mpr hnil)]
    exact hsame hcursor.symm hoffset.symm
  · have hle := h.offset_le_cursor hnil
    have hlt := h.cursor_lt_end hnil
    rw [if_neg (by rwa [List.isEmpty_iff])]
    simp only [Nat.min_eq_left hcursor, if_neg (Nat.not_lt.mpr hle), if_neg (Nat.not_le.mpr hlt)]
    exact hsame rfl (Nat.min_eq_left h.offset_le)

/-! ## Replacing the rows -/

theorem matching_perm {rows' : List R} (h : rows.Perm rows') (filter : List Char) :
    (matching format filter rows).Perm (matching format filter rows') :=
  h.filter _

theorem replaceRows_eq (format : RowFormat R) (t : Table R) (rows : List R) :
    t.replaceRows format rows = settle { t with
      rows
      shown := matching format t.filter rows
      cursor := ((t.selectedId? format).bind
        (placeOf? format (matching format t.filter rows))).getD t.cursor } := by
  rw [← filter_passes]
  unfold replaceRows selectedId?
  cases t.selected?.bind format.id? <;> rfl

@[simp] theorem replaceRows_shown (format : RowFormat R) (t : Table R) (rows : List R) :
    (t.replaceRows format rows).shown = matching format t.filter rows := by
  rw [replaceRows_eq, settle_shown]

theorem replaceRows_cursor (format : RowFormat R) (t : Table R) (rows : List R) :
    (t.replaceRows format rows).cursor =
      min (((t.selectedId? format).bind
        (placeOf? format (t.replaceRows format rows).shown)).getD t.cursor)
        ((t.replaceRows format rows).shown.length - 1) := by
  rw [replaceRows_shown, replaceRows_eq, settle_cursor]

/-- **A row that is still shown** stays selected, or the first one that has its identifier does. -/
theorem replaceRows_selected (h : t.selectedId? format = some id)
    (hshown : ∃ row ∈ (t.replaceRows format rows).shown, format.id? row = some id) :
    (t.replaceRows format rows).selectedId? format = some id ∧
      (t.replaceRows format rows).SelectsFirst format := by
  obtain ⟨place, hplace⟩ := exists_placeOf? hshown
  have hlt := lt_of_placeOf? hplace
  have hcursor : (t.replaceRows format rows).cursor = place := by
    rw [replaceRows_cursor, h, Option.bind_some, hplace, Option.getD_some]
    omega
  obtain ⟨row, hrow, hid⟩ := row_of_placeOf? hplace
  have hselected : (t.replaceRows format rows).selectedId? format = some id := by
    rw [selectedId?, selected?, hcursor, hrow]
    exact hid
  refine ⟨hselected, ?_⟩
  intro id' hid'
  obtain rfl : id' = id := Option.some.inj (hid'.symm.trans hselected)
  rw [hplace, hcursor]

/-- **A row that is gone** leaves the cursor in its place, or on the last row. -/
theorem replaceRows_cursor_of_gone (h : t.selectedId? format = some id)
    (hgone : ∀ row ∈ (t.replaceRows format rows).shown, format.id? row ≠ some id) :
    (t.replaceRows format rows).cursor =
      min t.cursor ((t.replaceRows format rows).shown.length - 1) := by
  rw [replaceRows_cursor, h, Option.bind_some, placeOf?_eq_none hgone, Option.getD_none]

end Table

end Dockboard
