import Dockboard.Proofs.Session.Background
import Dockboard.Proofs.Table.Sorting

set_option autoImplicit false

/-! # The selected row when rows arrive

A key that acts on a row acts on the selected one, and rows arrive between any two keys. A row that
is still shown stays selected then, in a view that is sorted as in one that is not. For it is looked
for by its identifier twice, among the rows as they arrive and once more when they are sorted. So it
stays selected however often rows arrive until the next key (`run_selected`).

A row that is gone leaves the cursor in its place, but among the rows as they arrive. A view that is
sorted afterwards follows the row that has come to stand there, and so the selection may go anywhere
(`GoesOn.in_place_iff`).

    sorted          a  b  c
                       ^         the second row is selected
    loaded again    c  a
                       ^         and is gone; the cursor stays in the second place
    sorted again    a  c
                    ^            and goes with the row that has come to stand there
-/

namespace Dockboard

/-- The messages that bring rows, or a change of a row. -/
def Msg.BringsRows : Msg → Prop
  | .loaded _ _ _ => True
  | .monitorListed _ => True
  | .statSample _ _ _ => True
  | .statsEnded _ _ => True
  | _ => False

namespace Table

variable {R : Type} {format : RowFormat R} {t : Table R}

/-- Where the cursor of a table stands if rows arrive without the selected one: in its place, or on
the last of them. -/
def placeAmong (t : Table R) (rows : List R) : Nat := min t.cursor (rows.length - 1)

/-- How a table goes on as `t'` once `arrived` are the rows it shows, in the order in which they
have arrived, if the row that was selected is not among them. -/
structure GoesOn (format : RowFormat R) (sorted : Bool) (t t' : Table R) (arrived : List R) :
    Prop where
  shown : t'.shown.Perm arrived
  /-- The cursor stays in its place. -/
  unsorted : sorted = false → t'.shown = arrived ∧ t'.cursor = t.placeAmong arrived
  /-- The row that has arrived in the place of the cursor is selected wherever it is sorted to. -/
  follows : sorted = true → ∀ other, arrived[t.placeAmong arrived]?.bind format.id? = some other →
    t'.selectedId? format = some other ∧ t'.SelectsFirst format
  /-- A row without an identifier is not followed. -/
  stays : sorted = true → arrived[t.placeAmong arrived]?.bind format.id? = none →
    t'.cursor = t.placeAmong arrived

/-- The cursor stays in its place unless the row that has arrived there is sorted to another one. -/
theorem GoesOn.in_place_iff {sorted : Bool} {t' : Table R} {arrived : List R}
    (h : GoesOn format sorted t t' arrived) :
    t'.cursor = t.placeAmong arrived ↔
      (sorted = true → ∀ other, arrived[t.placeAmong arrived]?.bind format.id? = some other →
        placeOf? format t'.shown other = some (t.placeAmong arrived)) := by
  constructor
  · intro hcursor hsorted other hother
    obtain ⟨hselected, hfirst⟩ := h.follows hsorted other hother
    rw [← hcursor]
    exact hfirst other hselected
  · intro hplace
    cases hsorted : sorted with
    | false => exact (h.unsorted hsorted).2
    | true =>
        cases hother : arrived[t.placeAmong arrived]?.bind format.id? with
        | none => exact h.stays hsorted hother
        | some other =>
            obtain ⟨hselected, hfirst⟩ := h.follows hsorted other hother
            have hcursor := hfirst other hselected
            rw [hplace hsorted other hother] at hcursor
            exact (Option.some.inj hcursor).symm

end Table

namespace Board

variable {b b' : Board} {view : View} {rows : List Row} {t : Table Row} {id : String}

theorem fill_of_unsorted (h : b.sorted.get view = false) (rows : List Row) (t : Table Row) :
    b.fill view rows t = t.replaceRows b.format rows := by
  simp only [fill, h, Bool.false_eq_true, if_false]

theorem fill_of_sorted (h : b.sorted.get view = true) (rows : List Row) (t : Table Row) :
    b.fill view rows t = (t.replaceRows b.format rows).sortByField b.format := by
  simp only [fill, h, if_true]

/-- **A row that is still shown** stays selected. -/
theorem fill_selected (hselected : t.selectedId? b.format = some id)
    (hshown : ∃ row ∈ (b.fill view rows t).shown, b.format.id? row = some id) :
    (b.fill view rows t).selectedId? b.format = some id := by
  cases hsorted : b.sorted.get view with
  | false =>
      rw [fill_of_unsorted hsorted] at hshown ⊢
      exact (Table.replaceRows_selected hselected hshown).1
  | true =>
      rw [fill_of_sorted hsorted] at hshown ⊢
      -- Sorting shows the rows that have arrived, so the row is found among them first.
      have harrived : ∃ row ∈ (t.replaceRows b.format rows).shown, b.format.id? row = some id := by
        obtain ⟨row, hrow, hid⟩ := hshown
        have hperm := Table.sortByField_replaceRows_shown b.format t rows
        exact ⟨row, hperm.mem_iff.mp hrow, hid⟩
      have hkept := (Table.replaceRows_selected hselected harrived).1
      exact (Table.sortByField_selected hkept hshown).1

/-- **A row that is gone** leaves the cursor in its place, but among the rows as they arrive. -/
theorem fill_goesOn (hselected : t.selectedId? b.format = some id)
    (hgone : ∀ row ∈ (b.fill view rows t).shown, b.format.id? row ≠ some id) :
    Table.GoesOn b.format (b.sorted.get view) t (b.fill view rows t)
      (Table.matching b.format t.filter rows) := by
  let arrived := Table.matching b.format t.filter rows
  let place := t.placeAmong arrived
  let t' := t.replaceRows b.format rows
  have hshown : t'.shown = arrived := Table.replaceRows_shown _ _ _
  have hcursor (h : ∀ row ∈ t'.shown, b.format.id? row ≠ some id) : t'.cursor = place := by
    rw [Table.replaceRows_cursor_of_gone hselected h, hshown]
    rfl
  cases hsorted : b.sorted.get view with
  | false =>
      rw [fill_of_unsorted hsorted] at hgone ⊢
      constructor
      · exact .of_eq hshown
      · intro _
        exact ⟨hshown, hcursor hgone⟩
      · intro h
        cases h
      · intro h
        cases h
  | true =>
      rw [fill_of_sorted hsorted] at hgone ⊢
      have hperm : (t'.sortByField b.format).shown.Perm t'.shown :=
        Table.sortByField_replaceRows_shown b.format t rows
      have hplace : t'.cursor = place :=
        hcursor fun row hrow => hgone row (hperm.mem_iff.mpr hrow)
      have hthere : t'.selectedId? b.format = arrived[place]?.bind b.format.id? := by
        rw [Table.selectedId?, Table.selected?, hplace, hshown]
      constructor
      · exact hperm.trans (.of_eq hshown)
      · intro h
        cases h
      · intro _ other hother
        rw [← hthere] at hother
        obtain ⟨row, hrow, hid⟩ := Table.mem_of_selectedId? hother
        exact Table.sortByField_selected hother ⟨row, hperm.mem_iff.mpr hrow, hid⟩
      · intro _ hnone
        rw [← hthere] at hnone
        rw [Table.sortByField_cursor, hnone, Option.bind_none, Option.getD_none, hplace,
          hperm.length_eq, hshown]
        exact Nat.min_eq_left (Nat.min_le_right _ _)

/-- Rows that arrive for a view leave the selected row of every view, if it is still shown. -/
theorem Refill.selected (h : b.Refill view b') {other : View}
    (hselected : (b.tables.get other).selectedId? b.format = some id)
    (hshown : ∃ row ∈ (b'.tables.get other).shown, b.format.id? row = some id) :
    (b'.tables.get other).selectedId? b.format = some id := by
  cases h with
  | dropped => exact hselected
  | filled rows =>
      by_cases hview : view = other
      · subst hview
        simp only [ByView.get_modify, if_true] at hshown ⊢
        exact fill_selected hselected hshown
      · simp only [ByView.get_modify, if_neg hview] at hshown ⊢
        exact hselected

theorem Refill.format_eq (h : b.Refill view b') : b'.format = b.format := by
  cases h with
  | dropped => rfl
  | filled rows => rfl

end Board

namespace State

theorem step_refills (s : State) {msg : Msg} (h : msg.BringsRows) :
    ∃ view, s.board.Refill view (s.step msg).1.board := by
  cases msg with
  | loaded view scope rows => exact ⟨view, onLoaded_refills s view scope rows⟩
  | monitorListed containers => exact ⟨.monitor, onMonitorListed_refills s containers⟩
  | statSample sink sample rest => exact ⟨.monitor, onSample_refills s sink sample rest⟩
  | statsEnded sink error => exact ⟨.monitor, onStatsEnded_refills s sink error⟩
  | _ => cases h

theorem react_refills (s : State) {event : Event} {msg : Msg} (hevent : event.msg? = some msg)
    (h : msg.BringsRows) : ∃ view, s.board.Refill view (s.react event).1.board := by
  cases event with
  | begin => cases hevent
  | input msg =>
      cases hevent
      exact step_refills s h
  | answer cmd number msg =>
      cases hevent
      exact step_refills s h

/-- **Between two keys** rows may arrive any number of times: the row that was selected stays
selected as long as it is shown each time. -/
theorem run_selected {s : State} {events : List Event} {view : View} {id : String}
    (hevents : ∀ event ∈ events, ∃ msg, event.msg? = some msg ∧ msg.BringsRows)
    (hselected : (s.tables.get view).selectedId? s.format = some id)
    (hshown : ∀ taken, taken <+: events →
      ∃ row ∈ ((s.run taken).tables.get view).shown, row.id? = some id) :
    (s.run events).format = s.format ∧
      ((s.run events).tables.get view).selectedId? s.format = some id := by
  induction events using List.reverseRecOn with
  | nil => exact ⟨rfl, hselected⟩
  | append_singleton events event ih =>
      obtain ⟨hearlier, hlast⟩ := List.forall_mem_append.mp hevents
      obtain ⟨msg, hmsg, hbrings⟩ := hlast event (List.mem_singleton_self event)
      obtain ⟨hformat, hbefore⟩ := ih hearlier fun taken htaken =>
        hshown taken (htaken.trans (List.prefix_append _ _))
      have hafter := hshown _ (List.prefix_refl _)
      rw [run_concat] at hafter ⊢
      obtain ⟨other, hrefill⟩ := react_refills (s.run events) hmsg hbrings
      rw [← hformat] at hbefore ⊢
      exact ⟨hrefill.format_eq, hrefill.selected hbefore hafter⟩

/-- **Rows that arrive** for a view, or for the monitor, or a change of one of its rows: if some row
with the identifier of the selected one is shown afterwards, the row selected then has it too. This
holds of every view, whether it is sorted, filtered or active. -/
theorem step_keeps_selected {s : State} {msg : Msg} (hmsg : msg.BringsRows) {view : View}
    {id : String} (hselected : (s.tables.get view).selectedId? s.format = some id)
    (hshown : ∃ row ∈ ((s.step msg).1.tables.get view).shown, row.id? = some id) :
    ((s.step msg).1.tables.get view).selectedId? s.format = some id := by
  obtain ⟨other, hrefill⟩ := step_refills s hmsg
  exact hrefill.selected hselected hshown

/-- The images are sorted by their identifiers, and the selected one arrives in front of another one
and is shown behind it. -/
theorem step_keeps_selected_of_sorted :
    let web : Row := .image { id := "f00", tag := "web" }
    let db : Row := .image { id := "bad", tag := "db" }
    let sort : Event := .input (.key { code := .function 1 })
    let s := (State.new {} 0).run
      (.input (.key { code := .char '2' }) :: List.replicate 5 sort ++
        [.input (.loaded .images none [web])])
    let t := (s.step (.loaded .images none [web, db])).1.tables.get .images
    t.shown = [db, web] ∧ t.selectedId? s.format = some "f00" := by
  intro web db sort s t
  have hshown : t.shown = [db, web] := by
    dsimp only [t, s, web, db, sort]
    cbv
  have hselected : (s.tables.get .images).selectedId? s.format = some "f00" := by
    dsimp only [s, web, sort]
    cbv
  have hweb : ∃ row ∈ t.shown, row.id? = some "f00" := by
    rw [hshown]
    exact ⟨web, List.mem_cons_of_mem _ (List.mem_singleton_self _), rfl⟩
  have hmsg : Msg.BringsRows (.loaded .images none [web, db]) := trivial
  exact ⟨hshown, step_keeps_selected hmsg hselected hweb⟩

/-- **A selected row that is gone** when rows are loaded: the cursor of a view that is not sorted
stays in its place, and that of a sorted one goes with the row that has arrived there. -/
theorem step_loaded_goesOn {s : State} {msg : Msg} {view : View} {rows : List Row} {id : String}
    (hbrings : msg.Brings view s.taskScope rows)
    (hselected : (s.tables.get view).selectedId? s.format = some id)
    (hgone : ∀ row ∈ ((s.step msg).1.tables.get view).shown, row.id? ≠ some id) :
    let arrived := Table.matching s.format (s.tables.get view).filter rows
    let t := s.tables.get view
    let t' := (s.step msg).1.tables.get view
    Table.GoesOn s.format (s.sorted.get view) t t' arrived ∧
      (t'.cursor = min t.cursor (t'.shown.length - 1) ↔
        (s.sorted.get view = true →
          ∀ other, arrived[t.placeAmong arrived]?.bind Row.id? = some other →
            Table.placeOf? s.format t'.shown other = some (t.placeAmong arrived))) := by
  obtain ⟨scope, rfl, hscope⟩ := hbrings
  rw [step_loaded_table hscope] at hgone ⊢
  intro arrived t t'
  have hgoes : Table.GoesOn s.format (s.sorted.get view) t t' arrived :=
    Board.fill_goesOn hselected hgone
  refine ⟨hgoes, ?_⟩
  have hplace : min t.cursor (t'.shown.length - 1) = t.placeAmong arrived := by
    rw [hgoes.shown.length_eq, Table.placeAmong]
  rw [hplace]
  exact hgoes.in_place_iff

/-- The second of three images is removed while they are sorted by their identifiers. The last one
is not selected then but the first, which has arrived behind it. -/
theorem step_loaded_goesOn_of_sorted :
    let a : Row := .image { id := "aaa" }
    let b : Row := .image { id := "bbb" }
    let c : Row := .image { id := "ccc" }
    let sort : Event := .input (.key { code := .function 1 })
    let s := (State.new {} 0).run
      (.input (.key { code := .char '2' }) :: List.replicate 5 sort ++
        [.input (.loaded .images none [c, b, a]), .input (.key { code := .up })])
    let t := s.tables.get .images
    let t' := (s.step (.loaded .images none [c, a])).1.tables.get .images
    t.shown = [a, b, c] ∧ t.cursor = 1 ∧ t'.shown = [a, c] ∧
      t'.selectedId? s.format = some "aaa" ∧ t'.cursor ≠ min t.cursor (t'.shown.length - 1) := by
  intro a b c sort s t t'
  have hbefore : (t.shown, t.cursor, t.filter) = ([a, b, c], 1, []) := by
    dsimp only [t, s, a, b, c, sort]
    cbv
  obtain ⟨hshown, hcursor, hfilter⟩ : t.shown = [a, b, c] ∧ t.cursor = 1 ∧ t.filter = [] := by
    simpa only [Prod.mk.injEq] using hbefore
  have hshown' : t'.shown = [a, c] := by
    dsimp only [t', s, a, b, c, sort]
    cbv
  have hselected : t.selectedId? s.format = some "bbb" := by
    rw [Table.selectedId?, Table.selected?, hshown, hcursor]
    rfl
  have hbrings : Msg.Brings .images s.taskScope [c, a] (.loaded .images none [c, a]) := by
    refine ⟨none, rfl, ?_⟩
    intro htask
    cases htask
  have hgone : ∀ row ∈ t'.shown, row.id? ≠ some "bbb" := by
    rw [hshown']
    simp [a, c, Row.id?]
  obtain ⟨hgoes, hplace⟩ := step_loaded_goesOn hbrings hselected hgone
  have harrived : Table.matching s.format t.filter [c, a] = [c, a] := by
    rw [hfilter]
    rfl
  have hthere : t.placeAmong [c, a] = 1 := by
    rw [Table.placeAmong, hcursor]
    rfl
  rw [harrived] at hgoes hplace
  refine ⟨hshown, hcursor, hshown', (hgoes.follows rfl "aaa" ?_).1, ?_⟩
  · rw [hthere]
    rfl
  · intro hstays
    have hbehind := hplace.mp hstays rfl "aaa"
    rw [hthere, hshown'] at hbehind
    have hfirst : Table.placeOf? s.format [a, c] "aaa" = some 0 := rfl
    rw [hfirst] at hbehind
    cases hbehind rfl

end State

end Dockboard
