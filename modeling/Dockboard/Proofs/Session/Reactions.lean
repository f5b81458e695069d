import Dockboard.Proofs.Pager
import Dockboard.Proofs.Session.Changes
import Dockboard.Proofs.Session.Keys
import Dockboard.Proofs.Session.Run
import Dockboard.Proofs.Table

set_option autoImplicit false

/-! # What an event leads to

Most of what a session does has to do neither with loads, nor with the monitor, nor with a stream.
What an event can lead to apart from that is said here once, so that what all of these keep is
kept by every event.

    s.core                what loads, the monitor and streams depend on, rows apart
    Keeps s s' view       the rows of a view are the same, perhaps in another order
    Aside s s'            the core and the rows of every view are the same
    Move s r              one of the things that can be done at the end of a step
    Reaction s msg? r     an event that brings `msg?` can lead from `s` to `r`
-/

namespace Dockboard

open Dockboard.Stream

/-! ## Messages and commands -/

/-- Whether a message reports how a load, the monitor or a stream gets on. -/
def Msg.isReport : Msg → Bool
  | .loaded _ _ _ | .loadFailed _ _ | .monitorListed _ => true
  | .logChunk _ _ _ | .logEnded _ _ | .statSample _ _ _ | .statsEnded _ _ => true
  | .alarm (.monitorTick _) => true
  | _ => false

/-- An event brings no report. -/
def Calm (msg? : Option Msg) : Prop := ∀ msg, msg? = some msg → msg.isReport = false

/-- The pager a message is addressed to. -/
def Msg.pager? : Msg → Option Nat
  | .logChunk pager _ _ | .logEnded pager _ => some pager
  | .statSample (.pager pager) _ _ | .statsEnded (.pager pager) _ => some pager
  | _ => none

/-- The pager that a command reads for, and the token of the read. -/
def Cmd.stream? : Cmd → Option (Nat × Token)
  | .openLogs pager _ token | .readLogs pager _ token => some (pager, token)
  | .openStats (.pager pager) _ token | .readStats (.pager pager) _ token => some (pager, token)
  | _ => none

/-- Whether a command has to do neither with a load, nor with the monitor, nor with a stream. -/
def Cmd.isIdle : Cmd → Bool
  | .load _ _ _ | .listMonitor => false
  | .openLogs _ _ _ | .readLogs _ _ _ | .openStats _ _ _ | .readStats _ _ _ => false
  | .timer _ (.monitorTick _) => false
  | _ => true

theorem idle_nil : ∀ cmd ∈ ([] : List Cmd), cmd.isIdle = true := fun _ h => by cases h

theorem idle_singleton {cmd : Cmd} (h : cmd.isIdle = true) : ∀ other ∈ [cmd], other.isIdle = true :=
  List.forall_mem_singleton.mpr h

/-! ## Scopes -/

/-- The view in which the scope is a row. -/
def TaskScope.origin : TaskScope → View
  | .service _ _ => .services
  | .stack _ => .stackList
  | .node _ _ => .nodes

theorem TaskScope.view_isTaskView (scope : TaskScope) : scope.view.isTaskView = true := by
  cases scope <;> rfl

theorem TaskScope.view_ne_monitor (scope : TaskScope) : scope.view ≠ .monitor := by
  cases scope <;> nofun

theorem TaskScope.origin_isTaskView (scope : TaskScope) : scope.origin.isTaskView = false := by
  cases scope <;> rfl

theorem State.scopeOf?_origin {view : View} {target : Target} {scope : TaskScope}
    (h : State.scopeOf? view target = some scope) : view = scope.origin := by
  unfold State.scopeOf? at h
  split at h <;> cases h <;> rfl

/-! ## What is left alone -/

/-- What is known of a pager, its text apart. -/
structure PagerSource where
  id : Nat
  kind : PagerKind
  token : Option Token
  stream : StreamState
  deriving DecidableEq, Repr

/-- What is known of a pager on the screen, its text apart. -/
def PagerLayer.source (layer : PagerLayer) : PagerSource where
  id := layer.id
  kind := layer.kind
  token := layer.token
  stream := layer.pager.stream

/-- What loads, the monitor and streams depend on, rows apart. -/
structure Core where
  view : View
  previous : View
  taskScope : Option TaskScope
  loading : ByView Bool
  stale : ByView Bool
  showAll : Bool
  source? : Option PagerSource
  lastPager : Nat
  monitor : List (String × Token)
  monitorEpoch : Nat
  nextToken : Token
  cancelled : List Token

/-- Rows are those of a list, and in its order unless they are sorted. -/
structure Arranges (sorted : Bool) (rows listed : List Row) : Prop where
  perm : rows.Perm listed
  order : sorted = false → rows = listed

namespace Arranges

theorem refl (sorted : Bool) (rows : List Row) : Arranges sorted rows rows :=
  ⟨List.Perm.refl rows, fun _ => rfl⟩

theorem map {sorted : Bool} {rows listed : List Row} (h : Arranges sorted rows listed)
    (f : Row → Row) : Arranges sorted (rows.map f) (listed.map f) :=
  ⟨h.perm.map f, fun hunsorted => by rw [h.order hunsorted]⟩

/-- Rows may be sorted later on, and are sorted from then on. -/
theorem trans {sorted sorted' : Bool} {rows rows' listed : List Row}
    (h' : Arranges sorted' rows' rows) (h : Arranges sorted rows listed)
    (hsorted : sorted = true → sorted' = true) : Arranges sorted' rows' listed := by
  refine ⟨h'.perm.trans h.perm, fun hunsorted => ?_⟩
  -- What is not sorted now has not been sorted before.
  have hbefore : sorted = false := by
    cases sorted with
    | false => rfl
    | true => exact (hsorted rfl).symm.trans hunsorted
  rw [h'.order hunsorted, h.order hbefore]

end Arranges

namespace State

/-- What is known of the pager on the screen, its text apart. -/
def source? (s : State) : Option PagerSource :=
  match s.layer with
  | some (.pager layer) => some layer.source
  | _ => none

/-- What loads, the monitor and streams depend on, rows apart. -/
def core (s : State) : Core where
  view := s.view
  previous := s.previous
  taskScope := s.taskScope
  loading := s.loading
  stale := s.stale
  showAll := s.showAll
  source? := s.source?
  lastPager := s.lastPager
  monitor := s.monitor
  monitorEpoch := s.monitorEpoch
  nextToken := s.nextToken
  cancelled := s.cancelled

/-- The rows of a view, shown or not. -/
def rows (s : State) (view : View) : List Row := (s.tables.get view).rows

/-- Rows that are put into a table are sorted if the view is. -/
theorem setRows_arranges (s : State) (view : View) (rows : List Row) :
    Arranges (s.sorted.get view) ((s.setRows view rows).rows view) rows := by
  have hrows : (s.setRows view rows).rows view =
      ((s.tables.modify view fun t =>
        let t := t.replaceRows s.format rows
        if s.sorted.get view then t.sortByField s.format else t).get view).rows :=
    rfl
  rw [ByView.get_modify, if_pos rfl] at hrows
  cases hsorted : s.sorted.get view with
  | false =>
      simp only [hsorted, Bool.false_eq_true, if_false, Table.replaceRows_rows] at hrows
      rw [hrows]
      exact .refl _ _
  | true =>
      simp only [hsorted, if_true] at hrows
      refine ⟨?_, nofun⟩
      rw [hrows]
      exact (Table.sortByField_rows_perm _ _).trans (by rw [Table.replaceRows_rows])

theorem setRows_rows_of_ne {s : State} {view other : View} (h : view ≠ other) (rows : List Row) :
    (s.setRows view rows).rows other = s.rows other := by
  show ((s.tables.modify view _).get other).rows = _
  rw [ByView.get_modify, if_neg h]
  rfl

theorem source?_eq_some {s : State} {layer : PagerLayer} (h : s.layer = some (.pager layer)) :
    s.source? = some layer.source := by
  unfold source?
  rw [h]

theorem source?_eq_none {s : State} (h : ∀ layer, s.layer ≠ some (.pager layer)) :
    s.source? = none := by
  unfold source?
  split
  · next layer hlayer => exact absurd hlayer (h layer)
  · rfl

/-- A view has the rows it had, in the same order unless they are sorted now. -/
structure Keeps (s s' : State) (view : View) : Prop where
  arranged : Arranges (s'.sorted.get view) (s'.rows view) (s.rows view)
  sorted : s.sorted.get view = true → s'.sorted.get view = true

namespace Keeps

theorem of_eq {s s' : State} {view : View} (htables : s'.tables.get view = s.tables.get view)
    (hsorted : s'.sorted = s.sorted) : Keeps s s' view := by
  have hrows : s'.rows view = s.rows view := congrArg Table.rows htables
  refine ⟨?_, fun h => by rw [hsorted]; exact h⟩
  rw [hrows]
  exact .refl _ _

theorem trans {s s' s'' : State} {view : View} (h : Keeps s s' view) (h' : Keeps s' s'' view) :
    Keeps s s'' view :=
  ⟨h'.arranged.trans h.arranged h'.sorted, fun hsorted => h'.sorted (h.sorted hsorted)⟩

/-- Tables are changed without any effect on their rows. -/
theorem modifyTable {s : State} {view : View} {f : Table Row → Table Row}
    (hf : ∀ t, (f t).rows = t.rows) (other : View) : Keeps s (s.modifyTable view f) other := by
  have hrows : (s.modifyTable view f).rows other = s.rows other := by
    show ((s.tables.modify view f).get other).rows = _
    rw [ByView.get_modify]
    split
    · next h => rw [← h]; exact hf _
    · rfl
  refine ⟨?_, fun h => h⟩
  rw [hrows]
  exact .refl _ _

end Keeps

/-- Nothing has happened that loads, the monitor or streams depend on. -/
structure Aside (s s' : State) : Prop where
  core : s'.core = s.core
  rows : ∀ view, Keeps s s' view

namespace Aside

theorem refl (s : State) : Aside s s := ⟨rfl, fun _ => .of_eq rfl rfl⟩

theorem view {s s' : State} (h : Aside s s') : s'.view = s.view := congrArg Core.view h.core

theorem monitorEpoch {s s' : State} (h : Aside s s') : s'.monitorEpoch = s.monitorEpoch :=
  congrArg Core.monitorEpoch h.core

theorem trans {s s' s'' : State} (h : Aside s s') (h' : Aside s' s'') : Aside s s'' :=
  ⟨h'.core.trans h.core, fun view => (h.rows view).trans (h'.rows view)⟩

theorem of_eq {s s' : State} (hcore : s'.core = s.core) (htables : s'.tables = s.tables)
    (hsorted : s'.sorted = s.sorted) : Aside s s' :=
  ⟨hcore, fun _ => .of_eq (by rw [htables]) hsorted⟩

/-- Something else of the same source stands before the view. -/
theorem layer {s : State} {layer : Option Layer}
    (h : ({ s with layer } : State).source? = s.source?) : Aside s { s with layer } := by
  refine .of_eq ?_ rfl rfl
  unfold State.core
  rw [h]

theorem modifyTable {s : State} {view : View} {f : Table Row → Table Row}
    (hf : ∀ t, (f t).rows = t.rows) : Aside s (s.modifyTable view f) :=
  ⟨rfl, Keeps.modifyTable hf⟩

/-- A prompt or nothing takes the place of a prompt or of nothing. -/
theorem unpaged {s : State} {layer : Option Layer} (hbefore : s.source? = none)
    (hafter : ∀ p, layer ≠ some (.pager p)) : Aside s { s with layer } :=
  .layer ((source?_eq_none hafter).trans hbefore.symm)

theorem setPager {s : State} {layer : PagerLayer} {pager : Pager}
    (hlayer : s.layer = some (.pager layer)) (hstream : pager.stream = layer.pager.stream) :
    Aside s (s.setPager layer pager) := by
  refine .layer ?_
  rw [source?_eq_some hlayer]
  show some (PagerLayer.source { layer with pager }) = _
  unfold PagerLayer.source
  rw [hstream]

theorem resizeAll (s : State) : Aside s s.resizeAll := by
  have hlayer : s.resizeAll.source? = s.source? := by
    unfold source? State.resizeAll
    cases s.layer with
    | none => rfl
    | some layer =>
        cases layer with
        | prompt p => rfl
        | pager layer => simp [PagerLayer.source]
  constructor
  · unfold State.core
    rw [hlayer]
    rfl
  · intro view
    have hrows : s.resizeAll.rows view = s.rows view := by
      show ((s.tables.map fun t => t.resize s.width s.bodyHeight).get view).rows = _
      rw [ByView.get_map, Table.resize_rows]
      rfl
    refine ⟨?_, fun h => h⟩
    rw [hrows]
    exact .refl _ _

theorem sortNext (s : State) : Aside s s.sortNext := by
  refine ⟨rfl, fun view => ?_⟩
  have hrows : (s.sortNext).rows view =
      ((s.tables.modify s.view fun t => t.nextSortField.sortByField s.format).get view).rows := rfl
  have hsorted : s.sortNext.sorted.get view = (s.sorted.set s.view true).get view := rfl
  rw [ByView.get_modify] at hrows
  rw [ByView.get_set] at hsorted
  by_cases hview : s.view = view
  · rw [if_pos hview] at hrows hsorted
    subst hview
    refine ⟨⟨?_, fun h => ?_⟩, fun _ => hsorted⟩
    · rw [hrows]
      exact Table.sortByField_rows_perm _ _
    · rw [hsorted] at h
      cases h
  · rw [if_neg hview] at hrows hsorted
    refine ⟨?_, fun h => hsorted.trans h⟩
    rw [hrows]
    exact .refl _ _

end Aside

/-! ## Moves -/

/-- What can be done at the end of a step that reports nothing. -/
inductive Move (s : State) : Step → Prop where
  | nothing (cmds : List Cmd) (hidle : ∀ cmd ∈ cmds, cmd.isIdle = true) : Move s (s, cmds)
  /-- The active view is loaded. -/
  | load (first : List Cmd) (hidle : ∀ cmd ∈ first, cmd.isIdle = true) :
      Move s ((s.requestLoad s.view).1, first ++ (s.requestLoad s.view).2)
  | toggle (hview : s.view = .containers) :
      Move s ({ s with showAll := !s.showAll }.requestLoad s.view)
  /-- A list becomes the active view, or the view to which a task view leads back. -/
  | switch (target : View) (htarget : target.isTaskView = false ∨ target = s.previous) :
      Move s (s.switchView target)
  /-- The tasks of a row become the active view. -/
  | tasks (scope : TaskScope) (hrow : s.view = scope.origin) : Move s (s.enterTaskView scope)
  /-- A pager without a token is opened. -/
  | opened (kind : PagerKind) (pager : Pager) (hkind : kind = .text ∨ kind = .events) :
      Move s (s.openPager kind pager none).noCmds
  | logs (target : Target) : Move s (s.openLogs target)
  | stats (target : Target) : Move s (s.openStats target)
  | closed : Move s s.closeLayer.noCmds

/-- What an event can lead to: a report has an effect of its own, and every other event leads to a
move, perhaps after something that does not matter here. -/
inductive Reaction (s : State) : Option Msg → Step → Prop where
  | calm {msg? : Option Msg} {s' : State} {r : Step} (hcalm : Calm msg?) (haside : Aside s s')
      (hmove : Move s' r) : Reaction s msg? r
  | loaded (view : View) (scope : Option TaskScope) (rows : List Row) :
      Reaction s (some (.loaded view scope rows)) (s.onLoaded view scope rows)
  | loadFailed (view : View) (error : String) :
      Reaction s (some (.loadFailed view error)) (s.onLoadFailed view error)
  | listed (containers : List Container) :
      Reaction s (some (.monitorListed containers)) (s.onMonitorListed containers)
  /-- Text for a pager, whose next read is `next`. -/
  | text {msg : Msg} (id : Nat) (text : List Char) (next : Token → Cmd)
      (hmsg : msg.pager? = some id) (hnext : ∀ token, (next token).stream? = some (id, token)) :
      Reaction s (some msg) (s.onPagerText id text next)
  | ended {msg : Msg} (id : Nat) (error : Option String) (hmsg : msg.pager? = some id) :
      Reaction s (some msg) (s.onPagerEnded id error)
  | sample (id : String) (sample : Sample) (rest : Feed Sample) :
      Reaction s (some (.statSample (.monitor id) sample rest))
        (s.onSample (.monitor id) sample rest)
  | sampleEnd (id : String) (error : Option String) :
      Reaction s (some (.statsEnded (.monitor id) error)) (s.onStatsEnded (.monitor id) error)
  | tick (epoch : Nat) :
      Reaction s (some (.alarm (.monitorTick epoch))) (s.onMonitorTick epoch)

/-- A step from a state that differs in nothing that matters. -/
def Moves (s : State) (r : Step) : Prop := ∃ s', Aside s s' ∧ Move s' r

namespace Moves

theorem of_move {s : State} {r : Step} (h : Move s r) : Moves s r := ⟨s, .refl s, h⟩

theorem after {s s' : State} {r : Step} (h : Moves s' r) (haside : Aside s s') : Moves s r := by
  obtain ⟨s'', haside', hmove⟩ := h
  exact ⟨s'', haside.trans haside', hmove⟩

theorem issue (s : State) {cmds : List Cmd} (h : ∀ cmd ∈ cmds, cmd.isIdle = true) :
    Moves s (s, cmds) :=
  of_move (.nothing cmds h)

theorem noCmds {s s' : State} (h : Aside s s') : Moves s s'.noCmds :=
  (issue s' idle_nil).after h

theorem fail (s : State) (text : String) : Moves s (s.fail text) :=
  (issue (s.fail text).1 (idle_singleton rfl)).after (.of_eq rfl rfl rfl)

end Moves

/-! ## Keys -/

theorem ActionEffect.moves {s : State} {target : Target} {r : Step} (h : ActionEffect s target r)
    (hlayer : s.layer = none) : Moves s r := by
  have hprompt (p : Prompt Followup Action) : Moves s (s.openPrompt p).noCmds :=
    .noCmds (.unpaged (source?_eq_none (by rw [hlayer]; nofun)) nofun)
  cases h with
  | nothing => exact .issue s idle_nil
  | inspect kind title => exact .issue s (idle_singleton rfl)
  | logs => exact .of_move (.logs target)
  | stats => exact .of_move (.stats target)
  | tasks scope hscope => exact .of_move (.tasks scope (scopeOf?_origin hscope))
  | availability prompt => exact hprompt _
  | scale prompt offered => exact hprompt _
  | confirm action op hop => exact hprompt _

theorem KeyEffect.moves {s : State} {r : Step} (h : KeyEffect s r) (hlayer : s.layer = none) :
    Moves s r := by
  have hprompt (p : Prompt Followup Action) : Moves s (s.openPrompt p).noCmds :=
    .noCmds (.unpaged (source?_eq_none (by rw [hlayer]; nofun)) nofun)
  cases h with
  | nothing => exact .issue s idle_nil
  | quit => exact .noCmds (.of_eq rfl rfl rfl)
  | help => exact .of_move (.opened .text _ (Or.inl rfl))
  | events => exact .of_move (.opened .events _ (Or.inr rfl))
  | info => exact .issue s (idle_singleton rfl)
  | header =>
      have hheader : Aside s { s with showHeader := !s.showHeader } := .of_eq rfl rfl rfl
      exact .noCmds (hheader.trans (.resizeAll _))
  | switch target hlist => exact .of_move (.switch target (Or.inl hlist))
  | back =>
      unfold State.back
      split
      · exact .of_move (.switch s.previous (Or.inr rfl))
      · exact .issue s idle_nil
  | move place => exact .noCmds (.modifyTable fun t => t.moveTo_rows _)
  | sort => exact .noCmds (.sortNext s)
  | filter => exact hprompt _
  | toggle hview => exact .of_move (.toggle hview)
  | refresh => exact .of_move (.load [] idle_nil)
  | menu target row items hselected => exact hprompt _
  | onView action hwhole => exact (runAction_effect s action _ _).moves hlayer
  | onRow action target row hselected => exact (runAction_effect s action _ _).moves hlayer

theorem onOutcome_moves {s : State} (hlayer : s.layer = none) (tag : Followup) (target : Target)
    (outcome : Outcome Action) : Moves s (s.onOutcome tag target outcome) := by
  unfold onOutcome
  split
  · exact (runAction_effect s _ target none).moves hlayer
  · exact .issue s (idle_singleton rfl)
  · exact .noCmds (.modifyTable fun t => t.setFilter_rows _ _)
  · unfold onScale
    split
    · exact .issue s (idle_singleton rfl)
    · exact .fail s _
  · unfold onAvailability
    split
    · exact .issue s (idle_singleton rfl)
    · exact .fail s _
  · exact .issue s idle_nil

theorem press_moves (s : State) (key : Key) : Moves s (s.press key) := by
  cases hlayer : s.layer with
  | none => exact ((press_effect key hlayer).moves hlayer).after (.of_eq rfl rfl rfl)
  | some layer =>
      cases layer with
      | prompt p =>
          have hnone : s.source? = none := source?_eq_none (by rw [hlayer]; nofun)
          rw [press_prompt key hlayer]
          unfold pressPrompt
          split
          · exact (onOutcome_moves rfl _ _ _).after (.unpaged hnone nofun)
          · exact .noCmds (.unpaged hnone nofun)
      | pager layer =>
          have hpressed : Aside s (s.setPager layer (layer.pager.press key).1) :=
            .setPager hlayer (layer.pager.press_stream key)
          rw [press_pager key hlayer]
          simp only [pressPager]
          split
          · exact (Moves.of_move .closed).after hpressed
          · exact .noCmds hpressed

/-! ## Other messages -/

theorem onText_moves (s : State) (title text : String) : Moves s (s.onText title text) := by
  unfold onText
  split
  · exact .issue s idle_nil
  · exact .of_move (.opened .text _ (Or.inl rfl))

theorem onDone_moves (s : State) (op : Operation) (detail : String) :
    Moves s (s.onDone op detail) := by
  have hstatus : Aside s (s.setStatus false (op.successMessage detail)).1 := .of_eq rfl rfl rfl
  exact (Moves.of_move (.load (s.setStatus false (op.successMessage detail)).2
    (idle_singleton rfl))).after hstatus

theorem onEvent_moves (s : State) (event : DaemonEvent) (rest : Feed DaemonEvent) :
    Moves s (s.onEvent event rest) := by
  have hshow (s : State) : Aside s (s.showEvent event) := by
    unfold showEvent
    split
    · next layer hlayer =>
      split
      · exact .setPager hlayer (layer.pager.append_stream _)
      · exact .refl s
    · exact .refl s
  have hnoted : Aside s (s.noteChange event).1 := by
    obtain ⟨debouncer, hnote⟩ := noteChange_changes s event
    rw [hnote]
    exact .of_eq rfl rfl rfl
  have hkept : Aside s (s.onEvent event rest).1 :=
    (hnoted.trans (hshow _)).trans (.of_eq rfl rfl rfl)
  refine (Moves.issue (s.onEvent event rest).1 fun cmd hcmd => ?_).after hkept
  rcases List.mem_cons.mp hcmd with rfl | hcmd
  · rfl
  · obtain ⟨after, rfl⟩ := mem_noteChange hcmd
    rfl

theorem onFlush_moves (s : State) : Moves s (s.onAlarm .debounceElapsed) := by
  have hflushed : Aside s { s with debouncer := s.debouncer.flush.1 } := .of_eq rfl rfl rfl
  simp only [onAlarm]
  split
  · exact (Moves.of_move (.load [] idle_nil)).after hflushed
  · exact .noCmds hflushed

theorem onExpired_moves (s : State) (seq : Nat) : Moves s (s.onAlarm (.statusExpired seq)) := by
  simp only [onAlarm]
  split
  · exact .noCmds (.of_eq rfl rfl rfl)
  · exact .issue s idle_nil

theorem Moves.reaction {s : State} {msg : Msg} {r : Step} (h : Moves s r)
    (hcalm : msg.isReport = false) : Reaction s (some msg) r := by
  obtain ⟨s', haside, hmove⟩ := h
  refine .calm (fun other hother => ?_) haside hmove
  cases hother
  exact hcalm

theorem step_reaction (s : State) (msg : Msg) : Reaction s (some msg) (s.step msg) := by
  cases msg with
  | key key => exact (press_moves s key).reaction rfl
  | resize width height =>
      have hsize : Aside s { s with width, height } := .of_eq rfl rfl rfl
      exact (Moves.noCmds (hsize.trans (.resizeAll _))).reaction rfl
  | summary summary =>
      have hsummary : Aside s { s with summary := some summary } := .of_eq rfl rfl rfl
      exact (Moves.noCmds hsummary).reaction rfl
  | summaryFailed error => exact (Moves.issue s idle_nil).reaction rfl
  | loaded view scope rows => exact .loaded view scope rows
  | loadFailed view error => exact .loadFailed view error
  | monitorListed containers => exact .listed containers
  | textLoaded title text => exact (onText_moves s title text).reaction rfl
  | textFailed title error => exact (Moves.fail s _).reaction rfl
  | operationDone op detail => exact (onDone_moves s op detail).reaction rfl
  | operationFailed op error => exact (Moves.fail s _).reaction rfl
  | logChunk pager text reader => exact .text pager text _ rfl fun _ => rfl
  | logEnded pager error => exact .ended pager error rfl
  | statSample sink sample rest =>
      cases sink with
      | monitor id => exact .sample id sample rest
      | pager id => exact .text id _ _ rfl fun _ => rfl
  | statsEnded sink error =>
      cases sink with
      | monitor id => exact .sampleEnd id error
      | pager id => exact .ended id error rfl
  | daemonEvent event rest => exact (onEvent_moves s event rest).reaction rfl
  | eventsEnded error => exact (Moves.fail s _).reaction rfl
  | alarm alarm =>
      cases alarm with
      | debounceElapsed => exact (onFlush_moves s).reaction rfl
      | statusExpired seq => exact (onExpired_moves s seq).reaction rfl
      | monitorTick epoch => exact .tick epoch

/-- **Events.** Whatever happens to a session is one of the reactions. -/
theorem react_reaction (s : State) (event : Event) :
    Reaction s event.msg? (s.react event) := by
  cases event with
  | begin =>
      refine .calm (fun msg hmsg => by cases hmsg) (.refl s)
        (.load [.summary, .watchEvents] fun cmd hcmd => ?_)
      rcases List.mem_cons.mp hcmd with rfl | hcmd
      · rfl
      · exact idle_singleton rfl cmd hcmd
  | input msg => exact step_reaction s msg
  | answer cmd number msg => exact step_reaction s msg

end State

end Dockboard
