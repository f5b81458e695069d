import Dockboard.Proofs.Session.Selection
import Dockboard.Proofs.Session.Sorting
import Dockboard.Proofs.Table.Marks
import Mathlib

set_option autoImplicit false

/-! # The mark of the sort column in the views

The columns of a view never change, their widths are made for the screen whenever it changes, and
once a view has been sorted one of its columns is the sort column. So whether the header of the view
has the mark depends on the title of that column and on the screen alone.

    own width    two characters more than the title      always
                 less than that (`Layout.cramped`)       never, on any screen
    a share      of what the others leave                if the screen is wide enough

The second case is that of seven columns.
-/

namespace Dockboard

namespace Table

variable {R : Type} {columns : List Column} {width : Nat} {marked : Bool}

theorem share_mono (columns : List Column) {width width' : Nat} (h : width ≤ width') :
    share columns width ≤ share columns width' :=
  Nat.div_le_div_right (Nat.sub_le_sub_right h _)

/-- The header of a table is made from these columns, for a screen that is so wide if there is one.
The sort column is one of them, and has the mark if it is to have one. -/
structure Titled (columns : List Column) (width : Nat) (marked : Bool) (t : Table R) : Prop where
  columns_eq : t.columns = columns
  widths_eq : 0 < width → t.widths = layout columns width
  sortField_lt : t.sortField < columns.length
  sorted_eq : marked = true → t.sorted = true

theorem Titled.settle {t : Table R} (h : t.Titled columns width marked) :
    t.settle.Titled columns width marked := by
  obtain ⟨hcolumns, hwidths, hfield, hsorted⟩ := h
  constructor
  · rw [settle_columns, hcolumns]
  · rwa [settle_widths]
  · rwa [settle_sortField]
  · rwa [settle_sorted]

theorem Titled.nextSortField {t : Table R} (h : t.Titled columns width marked) :
    t.nextSortField.Titled columns width true := by
  obtain ⟨rfl, hwidths, hfield, -⟩ := h
  refine ⟨rfl, hwidths, ?_, fun _ => rfl⟩
  show (if t.columns.isEmpty then t.sortField else (t.sortField + 1) % t.columns.length) < _
  split
  · exact hfield
  · exact Nat.mod_lt _ (Nat.zero_lt_of_lt hfield)

theorem Titled.sortByField {t : Table R} (h : t.Titled columns width marked)
    (format : RowFormat R) : (t.sortByField format).Titled columns width true :=
  .settle ⟨h.columns_eq, h.widths_eq, h.sortField_lt, fun _ => rfl⟩

theorem Titled.weaken {t : Table R} (h : t.Titled columns width true) :
    t.Titled columns width marked :=
  ⟨h.columns_eq, h.widths_eq, h.sortField_lt, fun _ => h.sorted_eq rfl⟩

/-- All changes of a table that do not fit it to a screen keep what its header is made from. -/
theorem titled_lasting (columns : List Column) (width : Nat) (marked : Bool) :
    Lasting (R := R) (Titled columns width marked) where
  moveTo _ _ h := .settle ⟨h.columns_eq, h.widths_eq, h.sortField_lt, h.sorted_eq⟩
  replaceRows _ _ _ h := .settle ⟨h.columns_eq, h.widths_eq, h.sortField_lt, h.sorted_eq⟩
  setFilter _ _ _ h := .settle ⟨h.columns_eq, h.widths_eq, h.sortField_lt, h.sorted_eq⟩
  nextSortField _ h := h.nextSortField.weaken
  sortByField format _ h := (h.sortByField format).weaken

theorem Titled.resize {t : Table R} (h : t.Titled columns width marked) (width' height : Nat) :
    (t.resize width' height).Titled columns width' marked := by
  obtain ⟨rfl, -, hfield, hsorted⟩ := h
  exact .settle ⟨rfl, fun _ => rfl, hfield, hsorted⟩

/-- The sort column, and its width. -/
theorem Titled.exists_column {t : Table R} (h : t.Titled columns width marked) (hpos : 0 < width) :
    ∃ column, columns[t.sortField]? = some column ∧
      t.widths[t.sortField]? = some (column.width.getD (share columns width)) := by
  have hcolumn := List.getElem?_eq_getElem h.sortField_lt
  refine ⟨_, hcolumn, ?_⟩
  rw [h.widths_eq hpos]
  exact getElem?_layout hcolumn width

end Table

namespace Layout

/-- The titles of the columns with a width of their own that leaves no room for the mark. -/
def cramped : List String :=
  ["CONTAINERS", "INTERNAL", "RECLAIMABLE", "PIDS", "AVAILABILITY", "SERVICES", "DESIRED"]

theorem mark_not_mem_title (view : View) : ∀ column ∈ columns view, '▼' ∉ column.title.toList := by
  cases view <;> decide

theorem own_of_cramped (view : View) : ∀ column ∈ columns view, column.title ∈ cramped →
    ∃ own, column.width = some own ∧ own < column.title.length + 2 := by
  cases view <;> decide

/-- All other columns have room on a screen of 108 columns. -/
theorem room_of_not_cramped (view : View) : ∀ column ∈ columns view, column.title ∉ cramped →
    column.title.length + 2 ≤ column.width.getD (Table.share (columns view) 108) := by
  cases view <;> decide

end Layout

namespace State

/-- The header of a view is made from its columns for the screen, with the mark if it is to have
one. -/
def Heads (view : View) (marked : Bool) (s : State) : Prop :=
  (s.tables.get view).Titled (Layout.columns view) s.width marked

variable {view : View} {marked : Bool}

theorem new_heads (config : Config) (now : Int) (view : View) :
    (State.new config now).Heads view false := by
  have hnew : (State.new config now).tables.get view = Table.new (Layout.columns view) :=
    ByView.get_ofFn _ _
  have hcolumns : 0 < (Layout.columns view).length := by cases view <;> decide
  unfold Heads
  rw [hnew]
  exact ⟨rfl, nofun, hcolumns, nofun⟩

/-- **One event** keeps what the header of a view is made from. -/
theorem react_heads {s : State} (hsilent : s.Silent) (h : s.Heads view marked) (event : Event) :
    (s.react event).1.Heads view marked := by
  cases react_fits_or_keeps hsilent event with
  | fitted before heq htables =>
      -- The widths are made anew, but from the same columns.
      rw [heq]
      show ((before.tables.map fun t => t.resize before.width before.bodyHeight).get view).Titled
        (Layout.columns view) before.width marked
      rw [ByView.get_map, htables]
      exact h.resize _ _
  | kept hwidth hheight hkept =>
      unfold Heads
      rw [hwidth]
      exact hkept (Table.titled_lasting _ _ _) view h

/-- **Runs** keep what the header of a view is made from. -/
theorem run_heads {s : State} (hsilent : s.Silent) (h : s.Heads view marked)
    (events : List Event) : (s.run events).Silent ∧ (s.run events).Heads view marked := by
  induction events using List.reverseRecOn with
  | nil => exact ⟨hsilent, h⟩
  | append_singleton events event ih =>
      obtain ⟨hsilent', hbefore⟩ := ih
      rw [run_concat]
      exact ⟨(react_reaction _ event).silent hsilent', react_heads hsilent' hbefore event⟩

/-- The sort key puts the mark into the header of the active view. -/
theorem press_sort_heads {s : State} {key : Key} (hlayer : s.layer = none)
    (hcode : key.code = .function 1) (hcontrol : key.control = false)
    (h : s.Heads s.view marked) : (s.press key).1.Heads s.view true := by
  rw [press_sort hlayer hcode hcontrol]
  show ((s.tables.modify s.view _).get s.view).Titled _ s.width true
  rw [ByView.get_modify, if_pos rfl]
  exact h.nextSortField.sortByField s.format

/-- Once the sort key has been pressed in a view, its header is to have the mark for good. -/
theorem run_sort_heads (config : Config) (now : Int) (earlier later : List Event) {pressed : Event}
    {key : Key} (hkey : pressed.key? = some key) (hcode : key.code = .function 1)
    (hcontrol : key.control = false)
    (hlayer : ((State.new config now).run earlier).layer = none) :
    ((State.new config now).run (earlier ++ pressed :: later)).Heads
      ((State.new config now).run earlier).view true := by
  let before := (State.new config now).run earlier
  obtain ⟨hsilent, hbefore⟩ : before.Silent ∧ before.Heads before.view false :=
    run_heads (new_silent config now) (new_heads config now _) earlier
  have hpressed : (before.react pressed).1.Heads before.view true := by
    rw [react_key before hkey]
    exact press_sort_heads hlayer hcode hcontrol hbefore
  have hsplit : (State.new config now).run (earlier ++ pressed :: later) =
      ((before.react pressed).1).run later := by
    rw [run_append]
    rfl
  rw [hsplit]
  exact (run_heads ((react_reaction before pressed).silent hsilent) hpressed later).2

/-- **The mark in a view.** When the sort key has been pressed in a view, then whatever happens
before and after that, one of its columns is the sort column. If this column is two characters wider
than its title, the header has the mark exactly once, behind that title; otherwise it has none. The
cramped columns never have it, and on a screen of 108 columns all others do. -/
theorem run_marked (config : Config) (now : Int) (earlier later : List Event) (pressed : Event)
    (key : Key) (hkey : pressed.key? = some key) (hcode : key.code = .function 1)
    (hcontrol : key.control = false) (hlayer : ((State.new config now).run earlier).layer = none)
    (hscreen : 0 < ((State.new config now).run (earlier ++ pressed :: later)).width) :
    let view := ((State.new config now).run earlier).view
    let s := (State.new config now).run (earlier ++ pressed :: later)
    let t := s.tables.get view
    let header := (t.view s.format).header
    ∃ column, (Layout.columns view)[t.sortField]? = some column ∧
      let width := column.width.getD (Table.share (Layout.columns view) s.width)
      let place := (t.widths.take t.sortField).sum + t.sortField
      (column.title.length + 2 ≤ width → Table.Marked header column.title.toList place) ∧
      (width < column.title.length + 2 → '▼' ∉ header) ∧
      (column.title ∈ Layout.cramped → width < column.title.length + 2) ∧
      (column.title ∉ Layout.cramped → 108 ≤ s.width → column.title.length + 2 ≤ width) := by
  intro view s t header
  have hheads : t.Titled (Layout.columns view) s.width true :=
    run_sort_heads config now earlier later hkey hcode hcontrol hlayer
  obtain ⟨column, hcolumn, hwidth⟩ := hheads.exists_column hscreen
  have hmem : column ∈ Layout.columns view := List.mem_of_getElem? hcolumn
  obtain ⟨hroom, htight⟩ := Table.header_marked s.format (hheads.sorted_eq rfl)
    (hheads.columns_eq ▸ hcolumn) hwidth (hheads.columns_eq ▸ Layout.mark_not_mem_title view)
  refine ⟨column, hcolumn, hroom, htight, ?_, ?_⟩
  · intro hcramped
    obtain ⟨own, hown, hlt⟩ := Layout.own_of_cramped view column hmem hcramped
    rw [hown]
    exact hlt
  · intro hother hwide
    refine (Layout.room_of_not_cramped view column hmem hother).trans ?_
    cases column.width with
    | none => exact Table.share_mono _ hwide
    | some own => exact le_rfl

/-- The networks are sorted by their names, and then by the last of their columns: the first header
has the mark behind `NAME`, the second one has none, although the screen is wide. -/
theorem run_marked_of_networks :
    let shown : List Event := [.input (.resize 120 40), .input (.key { code := .char '3' })]
    let sort : Event := .input (.key { code := .function 1 })
    let named := (State.new {} 0).run (shown ++ [sort])
    let last := (State.new {} 0).run ((shown ++ [sort, sort, sort]) ++ [sort])
    named.view = .networks ∧
      Table.Marked ((named.tables.get .networks).view named.format).header "NAME".toList 13 ∧
      last.view = .networks ∧ 108 ≤ last.width ∧
      '▼' ∉ ((last.tables.get .networks).view last.format).header := by
  intro shown sort named last
  -- Each time the key is pressed the next column is the sort column.
  have hnamed : (named.tables.get .networks).sortField = 1 := by cbv
  have hlast : (last.tables.get .networks).sortField = 4 := by cbv
  have hplace : ((named.tables.get .networks).widths.take 1).sum + 1 = 13 := by cbv
  obtain ⟨column, hcolumn, hroom, -⟩ :=
    run_marked {} 0 shown [] sort { code := .function 1 } rfl rfl rfl rfl (by decide)
  change (Layout.columns .networks)[(named.tables.get .networks).sortField]? = _ at hcolumn
  rw [hnamed] at hcolumn
  obtain rfl : Layout.flexible "NAME" = column := Option.some.inj hcolumn
  obtain ⟨column', hcolumn', -, htight, hcramped, -⟩ :=
    run_marked {} 0 (shown ++ [sort, sort, sort]) [] sort { code := .function 1 } rfl rfl rfl rfl
      (by decide)
  change (Layout.columns .networks)[(last.tables.get .networks).sortField]? = _ at hcolumn'
  rw [hlast] at hcolumn'
  obtain rfl : Layout.fixed "INTERNAL" 8 = column' := Option.some.inj hcolumn'
  have hmarked : Table.Marked ((named.tables.get .networks).view named.format).header
      "NAME".toList (((named.tables.get .networks).widths.take
        (named.tables.get .networks).sortField).sum + (named.tables.get .networks).sortField) :=
    hroom (by decide)
  rw [hnamed, hplace] at hmarked
  exact ⟨rfl, hmarked, rfl, by decide, htight (hcramped (by decide))⟩

end State

end Dockboard
