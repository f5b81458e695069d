import Dockboard.Proofs.Session.Tables
import Dockboard.Proofs.Table.Window

set_option autoImplicit false

/-! # Views in the background

While another view is active, a view keeps its rows, its filter, its sort column and its selected
row. There are three exceptions, each with a cause of its own.

    rows of the view arrive                  its rows are replaced
    its tasks are entered in another scope   its rows are forgotten
    the tables are fitted to the screen      its window moves, but not its cursor

The monitor is forgotten when it is left, and nothing else is. The cursor could move when a table is
fitted only if it stood beyond the last row, and it never does (`Effect.settled`).
-/

namespace Dockboard

namespace Table

variable {R : Type}

/-- The cursor is not beyond the last row that is shown, and no more rows are shown than there
are. -/
structure Settled (t : Table R) : Prop where
  cursor_le : t.cursor ≤ t.shown.length - 1
  shown_le : t.shown.length ≤ t.rows.length

theorem settle_settled {t : Table R} (h : t.shown.length ≤ t.rows.length) : t.settle.Settled := by
  constructor
  · rw [settle_shown]
    exact settle_cursor_le t
  · rw [settle_shown, settle_rows]
    exact h

theorem Settled.resize {t : Table R} (h : t.Settled) (width height : Nat) :
    (t.resize width height).Settled :=
  settle_settled h.shown_le

/-- What is kept by every change of a table, apart from fitting it to a screen. -/
structure Lasting (P : Table R → Prop) : Prop where
  moveTo : ∀ t place, P t → P (t.moveTo place)
  replaceRows : ∀ format t rows, P t → P (t.replaceRows format rows)
  setFilter : ∀ format t filter, P t → P (t.setFilter format filter)
  nextSortField : ∀ t, P t → P t.nextSortField
  sortByField : ∀ format t, P t → P (t.sortByField format)

theorem settled_lasting : Lasting (R := R) Settled where
  moveTo _ _ h := settle_settled h.shown_le
  replaceRows _ _ rows _ := settle_settled (List.length_filter_le _ rows)
  setFilter _ t _ _ := settle_settled (List.length_filter_le _ t.rows)
  nextSortField _ h := ⟨h.cursor_le, h.shown_le⟩
  sortByField _ _ _ := settle_settled (List.length_filter_le _ _)

end Table

/-- The filter and the sort column of a table are those of another one. -/
structure Table.SameChoice (t t' : Table Row) : Prop where
  filter : t'.filter = t.filter
  sortField : t'.sortField = t.sortField

namespace Board

variable {b b' : Board} {msg? : Option Msg} {view : View}

/-- Every table is settled. -/
def Settled (b : Board) : Prop := ∀ view, (b.tables.get view).Settled

/-- **One event** keeps of a table what all changes of tables keep. -/
theorem Effect.lasting (h : b.Effect msg? b') {P : Table Row → Prop} (hP : Table.Lasting P)
    (hfits : ∀ msg, msg? = some msg → msg.FitsTables → ∀ t width height, P t →
      P (t.resize width height))
    (hb : P (b.tables.get view)) : P (b'.tables.get view) := by
  have hmodify (changed : View) {f : Table Row → Table Row} (hf : ∀ t, P t → P (f t)) :
      P ((b.tables.modify changed f).get view) := by
    rw [ByView.get_modify]
    split
    · next heq =>
      subst heq
      exact hf _ hb
    · exact hb
  have hfill (filled : View) (rows : List Row) :
      P ((b.tables.modify filled (b.fill filled rows)).get view) := by
    refine hmodify filled fun t ht => ?_
    simp only [fill]
    split
    · exact hP.sortByField _ _ (hP.replaceRows _ _ _ ht)
    · exact hP.replaceRows _ _ _ ht
  cases h with
  | shown shown hmonitor => exact hb
  | fitted msg hmsg hmsgFits width height =>
      show P ((b.tables.map _).get view)
      rw [ByView.get_map]
      exact hfits msg hmsg hmsgFits _ width height hb
  | moved place => exact hmodify b.view fun t ht => hP.moveTo t _ ht
  | filtered filter => exact hmodify b.view fun t ht => hP.setFilter _ t filter ht
  | sorted => exact hmodify b.view fun t ht => hP.sortByField _ _ (hP.nextSortField t ht)
  | loaded msg hmsg filled rows hbrings => exact hfill filled rows
  | monitored hview rows => exact hfill .monitor rows
  | left hleft shown hshown => exact hmodify .monitor fun t ht => hP.replaceRows _ t [] ht
  | entered scope hrow =>
      show P ((if b.taskScope = some scope then b.tables else _).get view)
      split
      · exact hb
      · exact hmodify scope.view fun t ht => hP.replaceRows _ t [] ht

theorem Effect.settled (h : b.Effect msg? b') (hb : b.Settled) : b'.Settled := fun view =>
  h.lasting Table.settled_lasting (fun _ _ _ _ width height ht => ht.resize width height)
    (hb view)

/-- Rows that are put into a table leave its filter and its sort column. -/
theorem fill_sameChoice (b : Board) (view : View) (rows : List Row) (t : Table Row) :
    t.SameChoice (b.fill view rows t) := by
  simp only [fill]
  split
  · constructor
    · rw [Table.sortByField_filter, Table.replaceRows_filter]
    · rw [Table.sortByField_sortField, Table.replaceRows_sortField]
  · constructor
    · exact Table.replaceRows_filter _ _ _
    · exact Table.replaceRows_sortField _ _

theorem fill_arranges (b : Board) (view : View) (rows : List Row) (t : Table Row) :
    Arranges (b.sorted.get view) (b.fill view rows t).rows rows := by
  simp only [fill]
  cases b.sorted.get view with
  | false =>
      simp only [Bool.false_eq_true, if_false, Table.replaceRows_rows]
      exact .refl _ _
  | true =>
      have hperm := Table.sortByField_rows_perm b.format (t.replaceRows b.format rows)
      rw [Table.replaceRows_rows] at hperm
      exact ⟨hperm, nofun⟩

/-- A task view is entered whose tasks are those of another scope than before. -/
def Enters (b b' : Board) (view : View) : Prop :=
  ∃ scope, scope.view = view ∧ b'.view = view ∧ b'.taskScope = some scope ∧
    b.taskScope ≠ some scope

/-- Entering the tasks of another scope forgets the rows of their view. -/
theorem Effect.entered_background (h : b.Effect msg? b') (henters : b.Enters b' view) :
    (b'.tables.get view).rows = [] ∧ (b.tables.get view).SameChoice (b'.tables.get view) := by
  obtain ⟨scope, rfl, hview, hscope, hother⟩ := henters
  cases h with
  | entered scope' hrow =>
      obtain rfl : scope' = scope := Option.some.inj hscope
      show (((if b.taskScope = some scope' then b.tables else _).get scope'.view).rows = [] ∧
        (b.tables.get scope'.view).SameChoice
          ((if b.taskScope = some scope' then b.tables else _).get scope'.view))
      rw [if_neg hother, ByView.get_modify, if_pos rfl]
      refine ⟨Table.replaceRows_rows _ _ _, ?_, ?_⟩
      · exact Table.replaceRows_filter _ _ _
      · exact Table.replaceRows_sortField _ _
  | _ => exact absurd hscope hother

/-- **One event and the background.** Without one of the three causes the table of a view that is
not active is left as it is. -/
theorem Effect.background (h : b.Effect msg? b') (hview : view ≠ b.view)
    (hloaded : ∀ msg rows, msg? = some msg → ¬ msg.Brings view b.taskScope rows)
    (henters : ¬ b.Enters b' view) (hfits : ∀ msg, msg? = some msg → ¬ msg.FitsTables) :
    b'.tables.get view = b.tables.get view := by
  have hother {other : View} (hne : other ≠ view) (f : Table Row → Table Row) :
      (b.tables.modify other f).get view = b.tables.get view := by
    rw [ByView.get_modify, if_neg hne]
  cases h with
  | shown view' hmonitor => rfl
  | fitted msg hmsg hfitted width height => exact absurd hfitted (hfits msg hmsg)
  | moved place => exact hother hview.symm _
  | filtered filter => exact hother hview.symm _
  | sorted => exact hother hview.symm _
  | loaded msg hmsg view' rows hbrings =>
      refine hother ?_ _
      rintro rfl
      exact hloaded msg rows hmsg hbrings
  | monitored hmonitor rows =>
      refine hother ?_ _
      rw [← hmonitor]
      exact hview.symm
  | left hleft view' hview' =>
      refine hother ?_ _
      rw [← hleft]
      exact hview.symm
  | entered scope hrow =>
      show (if b.taskScope = some scope then b.tables else _).get view = _
      split
      · rfl
      · next hscope =>
        refine hother ?_ _
        rintro rfl
        exact henters ⟨scope, rfl, rfl, rfl, hscope⟩

/-- Leaving the monitor forgets its rows and touches nothing else. -/
theorem Effect.left_monitor (h : b.Effect msg? b') (hbefore : b.view = .monitor)
    (hafter : b'.view ≠ .monitor) :
    (b'.tables.get .monitor).rows = [] ∧
      ∀ other, other ≠ .monitor → b'.tables.get other = b.tables.get other := by
  cases h with
  | shown view hmonitor => exact absurd (hmonitor hbefore) hafter
  | left hleft view hview =>
      constructor
      · show ((b.tables.modify .monitor _).get .monitor).rows = []
        rw [ByView.get_modify, if_pos rfl]
        exact Table.replaceRows_rows _ _ _
      · intro other hne
        show (b.tables.modify .monitor _).get other = _
        rw [ByView.get_modify, if_neg hne.symm]
  | entered scope hrow =>
      rw [hrow] at hbefore
      cases scope <;> cases hbefore
  | _ => exact absurd hbefore hafter

end Board

namespace Prompt

/-- The header key answers no prompt. -/
theorem press_of_header {p : Prompt Followup Action} {key : Key} (hcode : key.code = .char 'H') :
    ∃ p', p.press key = .inr p' := by
  have hopen : ∃ question, p.question.press key = .inr question := by
    unfold Question.press
    cases p.question with
    | confirm prompt => exact ⟨.confirm prompt, by simp [hcode]⟩
    | input prompt field => exact ⟨.input prompt (field.edit key), by simp [hcode]⟩
    | menu m => exact ⟨.menu m, by simp [hcode]⟩
  obtain ⟨question, hquestion⟩ := hopen
  exact ⟨{ p with question }, by rw [press, hquestion]⟩

end Prompt

namespace State

/-- The header key shows or hides the header if nothing stands before the view. -/
theorem press_header {s : State} {key : Key} (hcode : key.code = .char 'H')
    (hcontrol : key.control = false) (hlayer : s.layer = none) :
    s.press key =
      ({ s with status := none, showHeader := !s.showHeader } : State).resizeAll.noCmds := by
  rw [press_bare key hlayer]
  unfold pressGlobal?
  simp only [hcontrol, hcode, Bool.false_eq_true, if_false, Option.getD_some]

/-- What stands before the view keeps the header key from the tables. -/
theorem press_header_covered {s : State} {key : Key} (hcode : key.code = .char 'H')
    {layer : Layer} (hlayer : s.layer = some layer) : (s.press key).1.tables = s.tables := by
  cases layer with
  | prompt p =>
      obtain ⟨p', hpress⟩ := p.press_of_header hcode
      rw [press_prompt key hlayer, pressPrompt, hpress]
  | pager layer =>
      rw [press_pager key hlayer]
      exact congrArg Board.tables (pressPager_board s layer key)

/-- Fitting tables to the screen changes their windows only. -/
theorem step_fits {s : State} {msg : Msg} (hs : s.board.Settled) (hmsg : msg.FitsTables)
    (view : View) : ∃ height widths offset,
      (s.step msg).1.tables.get view = { s.tables.get view with height, widths, offset } := by
  have hmap (width height : Nat) : ∃ height' widths offset,
      (s.tables.map fun t => t.resize width height).get view =
        { s.tables.get view with height := height', widths, offset } := by
    rw [ByView.get_map]
    exact Table.resize_eq (hs view).cursor_le width height
  cases msg with
  | resize width height => exact hmap width _
  | key key =>
      obtain ⟨hcode, hcontrol⟩ := hmsg
      show ∃ height widths offset, (s.press key).1.tables.get view = _
      cases hlayer : s.layer with
      | none =>
          rw [press_header hcode hcontrol hlayer]
          exact hmap s.width _
      | some layer =>
          rw [press_header_covered hcode hlayer]
          exact ⟨_, _, _, rfl⟩
  | _ => cases hmsg

/-- The table of a view once rows of the view have arrived. -/
theorem step_loaded_table {s : State} {view : View} {scope : Option TaskScope}
    (h : view.isTaskView = true → scope = s.taskScope) (rows : List Row) :
    (s.step (.loaded view scope rows)).1.tables.get view =
      s.board.fill view rows (s.tables.get view) := by
  have hbrought := congrArg Board.tables (onLoaded_brought h rows)
  show (s.onLoaded view scope rows).1.board.tables.get view = _
  rw [hbrought]
  show (s.tables.modify view _).get view = _
  rw [ByView.get_modify, if_pos rfl]

/-- What a message leaves of the table of a view that is not active. -/
structure KeepsBackground (s : State) (msg : Msg) (view : View) : Prop where
  /-- Rows that arrive for the view replace its rows, and nothing else. -/
  loaded : ∀ rows, msg.Brings view s.taskScope rows →
    Arranges (s.sorted.get view) ((s.step msg).1.rows view) rows ∧
      (s.tables.get view).SameChoice ((s.step msg).1.tables.get view)
  /-- Its tasks are entered in another scope. -/
  entered : s.board.Enters (s.step msg).1.board view →
    (s.step msg).1.rows view = [] ∧
      (s.tables.get view).SameChoice ((s.step msg).1.tables.get view)
  /-- The screen has another size, or the header is shown or hidden. -/
  fitted : msg.FitsTables → ∃ height widths offset,
    (s.step msg).1.tables.get view = { s.tables.get view with height, widths, offset }
  /-- Any other message leaves the table as it is. -/
  kept : (∀ rows, ¬ msg.Brings view s.taskScope rows) →
    ¬ s.board.Enters (s.step msg).1.board view → ¬ msg.FitsTables →
      (s.step msg).1.tables.get view = s.tables.get view

theorem step_keepsBackground {s : State} (hsilent : s.Silent) (hs : s.board.Settled) (msg : Msg)
    {view : View} (hview : view ≠ s.view) : s.KeepsBackground msg view := by
  have heffect := step_reaches hsilent msg
  constructor
  · rintro rows ⟨scope, rfl, hscope⟩
    unfold State.rows
    rw [step_loaded_table hscope]
    exact ⟨Board.fill_arranges s.board view rows _, Board.fill_sameChoice s.board view rows _⟩
  · exact fun henters => heffect.entered_background henters
  · exact fun hfits => step_fits hs hfits view
  · intro hloaded henters hfits
    refine heffect.background hview ?_ henters ?_
    · rintro _ rows ⟨⟩
      exact hloaded rows
    · rintro _ ⟨⟩
      exact hfits

theorem new_settled (config : Config) (now : Int) : (State.new config now).board.Settled := by
  intro view
  have hnew : (State.new config now).board.tables.get view = Table.new (Layout.columns view) :=
    ByView.get_ofFn _ _
  rw [hnew]
  exact ⟨Nat.zero_le _, Nat.zero_le _⟩

/-- **Background views.** Whatever has happened to a session, a message leaves the table of a view
that is not active as it is, apart from the three causes; and when the monitor is left, its rows are
forgotten and no other table is touched. -/
theorem background_kept (config : Config) (now : Int) (events : List Event) (msg : Msg) :
    let s := (State.new config now).run events
    (∀ view, view ≠ s.view → s.KeepsBackground msg view) ∧
      (s.view = .monitor → (s.step msg).1.view ≠ .monitor →
        (s.step msg).1.rows .monitor = [] ∧
          ∀ other, other ≠ .monitor → (s.step msg).1.tables.get other = s.tables.get other) := by
  intro s
  obtain ⟨hsilent, hsettled⟩ : s.Silent ∧ s.board.Settled :=
    run_keeps (fun _ _ _ heffect => heffect.settled) (fun _ => rfl) (new_settled config now) events
  constructor
  · intro view hview
    exact step_keepsBackground hsilent hsettled msg hview
  · intro hbefore hafter
    exact (step_reaches hsilent msg).left_monitor hbefore hafter

/-- The containers are in the background while the images are shown: rows of theirs that arrive
replace the ones they had, and rows of images leave their table as it is. -/
theorem background_kept_of_containers :
    let web : Row := .container { id := "f00", name := "web" }
    let db : Row := .container { id := "bad", name := "db" }
    let s := (State.new {} 0).run
      [.begin, .input (.loaded .containers none [web]), .input (.key { code := .char '2' })]
    s.view = .images ∧
      (s.step (.loaded .containers none [db, web])).1.rows .containers = [db, web] ∧
      (s.step (.loaded .images none [])).1.tables.get .containers = s.tables.get .containers := by
  intro web db s
  have hview : View.containers ≠ s.view := nofun
  obtain ⟨hreload, -⟩ := background_kept {} 0
    [.begin, .input (.loaded .containers none [web]), .input (.key { code := .char '2' })]
    (.loaded .containers none [db, web])
  obtain ⟨hother, -⟩ := background_kept {} 0
    [.begin, .input (.loaded .containers none [web]), .input (.key { code := .char '2' })]
    (.loaded .images none [])
  refine ⟨rfl, ?_, ?_⟩
  · obtain ⟨harranged, -⟩ := (hreload .containers hview).loaded [db, web] ⟨none, rfl, nofun⟩
    exact harranged.order rfl
  · apply (hother .containers hview).kept
    · rintro rows ⟨scope, hmsg, -⟩
      cases hmsg
    · rintro ⟨scope, -, hshown, -⟩
      cases hshown
    · exact id

end State

end Dockboard
