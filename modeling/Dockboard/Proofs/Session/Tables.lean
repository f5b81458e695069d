import Dockboard.Proofs.Session.Focus
import Dockboard.Proofs.Session.Scopes
import Dockboard.Proofs.Table.Order

set_option autoImplicit false

/-! # What events do to the tables

Twelve tables stand next to each other, and an event reaches one of them because its view is active,
because a message names it, or because it reaches them all. What an event can do to them is said
here once, as a relation between what can be seen of the tables before and after it.

    s.board                what is seen: the tables, which of them are sorted, the active view
    Effect b msg? b'       an event that brings `msg?` can lead from `b` to `b'`
    Refill b view b'       rows that arrive for a view can lead from `b` to `b'`
    Silent s               no samples are read unless the monitor is shown

Samples change rows of the monitor, and so they change the table of the active view only because
none are read while another view is shown (`Reaction.silent`).
-/

namespace Dockboard

open Dockboard.Stream

/-- What can be seen of the tables. -/
structure Board where
  format : RowFormat Row
  tables : ByView (Table Row)
  sorted : ByView Bool
  taskScope : Option TaskScope
  view : View

/-- What can be seen of the tables of a session. -/
def State.board (s : State) : Board where
  format := s.format
  tables := s.tables
  sorted := s.sorted
  taskScope := s.taskScope
  view := s.view

/-- A message that fits the tables to the screen: another size of it, or the key that shows or hides
the header. -/
def Msg.FitsTables : Msg → Prop
  | .resize _ _ => True
  | .key pressed => pressed.code = .char 'H' ∧ pressed.control = false
  | _ => False

/-- A message brings rows of a view, and not tasks of another scope than the current one. -/
def Msg.Brings (view : View) (current : Option TaskScope) (rows : List Row) (msg : Msg) : Prop :=
  ∃ scope, msg = .loaded view scope rows ∧ (view.isTaskView = true → scope = current)

namespace Board

/-- A table of a view once it has been given rows, sorted if the view is. -/
def fill (b : Board) (view : View) (rows : List Row) (t : Table Row) : Table Row :=
  let t := t.replaceRows b.format rows
  if b.sorted.get view then t.sortByField b.format else t

/-- What an event can do to the tables. -/
inductive Effect (b : Board) (msg? : Option Msg) : Board → Prop where
  /-- The tables are left alone, and another view may be active. -/
  | shown (view : View) (hmonitor : b.view = .monitor → view = .monitor) :
      Effect b msg? { b with view }
  | fitted (msg : Msg) (hmsg : msg? = some msg) (hfits : msg.FitsTables) (width height : Nat) :
      Effect b msg? { b with tables := b.tables.map fun t => t.resize width height }
  /-- The cursor of the active view goes to a place that depends on where it was. -/
  | moved (place : Table Row → Nat) :
      Effect b msg? { b with tables := b.tables.modify b.view fun t => t.moveTo (place t) }
  | filtered (filter : List Char) :
      Effect b msg? { b with
        tables := b.tables.modify b.view fun t => t.setFilter b.format filter }
  /-- The active view is sorted by its next column. -/
  | sorted :
      Effect b msg? { b with
        tables := b.tables.modify b.view fun t => t.nextSortField.sortByField b.format
        sorted := b.sorted.set b.view true }
  | loaded (msg : Msg) (hmsg : msg? = some msg) (view : View) (rows : List Row)
      (hbrings : msg.Brings view b.taskScope rows) :
      Effect b msg? { b with tables := b.tables.modify view (b.fill view rows) }
  /-- The rows of the monitor change while it is shown. -/
  | monitored (hview : b.view = .monitor) (rows : List Row) :
      Effect b msg? { b with tables := b.tables.modify .monitor (b.fill .monitor rows) }
  | left (hleft : b.view = .monitor) (view : View) (hview : view ≠ .monitor) :
      Effect b msg? { b with
        view
        tables := b.tables.modify .monitor fun t => t.replaceRows b.format [] }
  /-- The tasks of a row become the active view, without the rows of another scope. -/
  | entered (scope : TaskScope) (hrow : b.view = scope.origin) :
      Effect b msg? { b with
        view := scope.view
        taskScope := some scope
        tables :=
          if b.taskScope = some scope then b.tables
          else b.tables.modify scope.view fun t => t.replaceRows b.format [] }

theorem Effect.refl (b : Board) (msg? : Option Msg) : b.Effect msg? b := .shown b.view id

/-- Rows of a view have arrived, or have been dropped. -/
inductive Refill (b : Board) (view : View) : Board → Prop where
  | dropped : Refill b view b
  | filled (rows : List Row) :
      Refill b view { b with tables := b.tables.modify view (b.fill view rows) }

theorem Refill.effect {b b' : Board} {msg? : Option Msg} (h : b.Refill .monitor b')
    (hview : b.view = .monitor) : b.Effect msg? b' := by
  cases h with
  | dropped => exact .refl b msg?
  | filled rows => exact .monitored hview rows

end Board

namespace State

variable {msg? : Option Msg}

/-! ## Views -/

theorem requestLoad_board (s : State) (view : View) : (s.requestLoad view).1.board = s.board := by
  obtain ⟨loading, stale, hload⟩ := requestLoad_changes s view
  rw [hload]
  rfl

theorem stopMonitor_board (s : State) :
    s.stopMonitor.board = { s.board with
      tables := s.tables.modify .monitor fun t => t.replaceRows s.format [] } := by
  obtain ⟨cancelled, hcancels⟩ := cancels_changes s.monitor s
  unfold stopMonitor
  rw [hcancels]
  rfl

theorem switchView_board (s : State) (target : View) :
    (s.switchView target).1.board = { s.board with
      view := target
      tables :=
        if s.view = .monitor ∧ target ≠ .monitor then
          s.tables.modify .monitor fun t => t.replaceRows s.format []
        else s.tables } := by
  obtain ⟨⟨monitorEpoch, loading, stale, hswitch⟩, -⟩ := switchView_changes s target
  have hboard : (s.switchView target).1.board = { State.board
      (if s.view = .monitor ∧ target ≠ .monitor then s.stopMonitor else s) with
      view := target } := by
    rw [hswitch]
    rfl
  rw [hboard]
  split
  · rw [stopMonitor_board]
  · rfl

theorem switchView_reaches (s : State) (target : View) :
    s.board.Effect msg? (s.switchView target).1.board := by
  rw [switchView_board]
  by_cases hleave : s.view = .monitor ∧ target ≠ .monitor
  · rw [if_pos hleave]
    exact .left hleave.1 target hleave.2
  · rw [if_neg hleave]
    refine .shown target fun hview => ?_
    exact Decidable.byContradiction fun htarget => hleave ⟨hview, htarget⟩

theorem enterTaskView_reaches {s : State} {scope : TaskScope} (hrow : s.view = scope.origin) :
    s.board.Effect msg? (s.enterTaskView scope).1.board := by
  have hlist : s.view.isTaskView = false := by
    rw [hrow]
    exact scope.origin_isTaskView
  have hstay : ¬ (s.view = .monitor ∧ scope.view ≠ .monitor) := by
    rw [hrow]
    cases scope <;> simp [TaskScope.origin]
  have hswitch (tables : ByView (Table Row)) :
      (State.switchView { s with
        previous := s.view
        tables
        taskScope := some scope
        loading := s.loading.set scope.view false } scope.view).1.board =
      { s.board with view := scope.view, taskScope := some scope, tables } := by
    rw [switchView_board]
    simp only [if_neg hstay]
    rfl
  have henter : (s.enterTaskView scope).1.board = { s.board with
      view := scope.view
      taskScope := some scope
      tables :=
        if s.taskScope = some scope then s.tables
        else s.tables.modify scope.view fun t => t.replaceRows s.format [] } := by
    unfold enterTaskView
    simp only [hlist, Bool.false_eq_true, if_false]
    by_cases hsame : s.taskScope = some scope
    · rw [if_pos hsame, if_pos hsame]
      exact hswitch s.tables
    · rw [if_neg hsame, if_neg hsame]
      exact hswitch _
  rw [henter]
  exact .entered scope hrow

/-! ## Keys -/

theorem openPager_board (s : State) (kind : PagerKind) (pager : Pager) (token : Option Token) :
    (s.openPager kind pager token).board = s.board := by
  obtain ⟨cancelled, layer, -, hopen⟩ := openPager_changes s kind pager token
  rw [hopen]
  rfl

theorem closeLayer_board (s : State) : s.closeLayer.board = s.board := by
  obtain ⟨cancelled, hclose⟩ := closeLayer_changes s
  rw [hclose]
  rfl

theorem runAction_reaches (s : State) (action : Action) (target : Target) (row : Option Row) :
    s.board.Effect msg? (s.runAction action target row).1.board := by
  have hfresh (kind : PagerKind) (pager : Pager) (token : Option Token) :
      (s.freshToken.2.openPager kind pager token).board = s.board :=
    openPager_board s.freshToken.2 kind pager token
  generalize hr : s.runAction action target row = r
  have heffect := runAction_effect s action target row
  rw [hr] at heffect
  cases heffect with
  | nothing => exact .refl _ _
  | inspect kind title => exact .refl _ _
  | logs =>
      show s.board.Effect msg? (s.freshToken.2.openPager _ _ _).board
      rw [hfresh]
      exact .refl _ _
  | stats =>
      show s.board.Effect msg? (s.freshToken.2.openPager _ _ _).board
      rw [hfresh]
      exact .refl _ _
  | tasks scope hscope => exact enterTaskView_reaches (scopeOf?_origin hscope)
  | availability prompt => exact .refl _ _
  | scale prompt offered => exact .refl _ _
  | confirm action op hop => exact .refl _ _

theorem pressAction_reaches (s : State) (key : Key) :
    s.board.Effect msg? (s.pressAction key).1.board := by
  unfold pressAction
  split
  · exact .refl _ _
  · split
    · split
      · exact runAction_reaches s _ _ _
      · exact .refl _ _
    · exact runAction_reaches s _ _ _

theorem pressEnter_reaches (s : State) (key : Key) :
    s.board.Effect msg? (s.pressEnter key).1.board := by
  unfold pressEnter
  split
  · exact pressAction_reaches s key
  · split <;> exact .refl _ _

theorem pressView_reaches (s : State) (key : Key) :
    s.board.Effect msg? (s.pressView key).1.board := by
  unfold pressView
  by_cases hcontrol : key.control
  · rw [if_pos hcontrol]
    exact pressAction_reaches s key
  · rw [if_neg hcontrol]
    split
    · exact .moved fun t => t.cursor - 1
    · exact .moved fun t => t.cursor - 1
    · exact .moved fun t => t.cursor + 1
    · exact .moved fun t => t.cursor + 1
    · exact .moved fun t => t.cursor - t.height
    · exact .moved fun t => t.cursor + t.height
    · exact .moved fun _ => 0
    · exact .moved fun _ => 0
    · exact .moved fun t => t.shown.length - 1
    · exact .moved fun t => t.shown.length - 1
    · exact .sorted
    · split
      · rw [requestLoad_board]
        exact .refl _ _
      · exact pressAction_reaches s key
    · rw [requestLoad_board]
      exact .refl _ _
    · exact .refl _ _
    · unfold back
      split
      · exact switchView_reaches s _
      · exact .refl _ _
    · unfold back
      split
      · exact switchView_reaches s _
      · exact .refl _ _
    · exact pressEnter_reaches s key
    · exact pressAction_reaches s key

/-- Of the keys that have a meaning everywhere, one fits the tables and others change views. -/
theorem pressGlobal?_reaches {s : State} {key : Key} {r : Step} (h : s.pressGlobal? key = some r) :
    s.board.Effect (some (.key key)) r.1.board := by
  unfold pressGlobal? at h
  by_cases hcontrol : key.control
  · rw [if_pos hcontrol] at h
    split at h
    · cases h
      exact .refl _ _
    · cases h
  · rw [if_neg hcontrol] at h
    split at h
    · cases h
      exact switchView_reaches s _
    · cases h
      show s.board.Effect _ (s.openPager _ _ _).board
      rw [openPager_board]
      exact .refl _ _
    · cases h
      exact .refl _ _
    · cases h
      exact .refl _ _
    · cases h
      show s.board.Effect _ (s.openPager _ _ _).board
      rw [openPager_board]
      exact .refl _ _
    · cases h
      exact switchView_reaches s _
    · next hcode =>
      cases h
      exact .fitted (.key key) rfl ⟨hcode, by simpa using hcontrol⟩ s.width _
    · obtain ⟨target, -, rfl⟩ := Option.map_eq_some_iff.mp h
      exact switchView_reaches s _
    · cases h

theorem onOutcome_reaches (s : State) (tag : Followup) (target : Target)
    (outcome : Outcome Action) :
    s.board.Effect msg? (s.onOutcome tag target outcome).1.board := by
  unfold onOutcome
  split
  · exact runAction_reaches s _ _ _
  · exact .refl _ _
  · exact .filtered _
  · unfold onScale
    split <;> exact .refl _ _
  · unfold onAvailability
    split <;> exact .refl _ _
  · exact .refl _ _

theorem pressPager_board (s : State) (layer : PagerLayer) (key : Key) :
    (s.pressPager layer key).1.board = s.board := by
  simp only [pressPager]
  split
  · exact closeLayer_board _
  · rfl

theorem press_reaches (s : State) (key : Key) :
    s.board.Effect (some (.key key)) (s.press key).1.board := by
  cases hlayer : s.layer with
  | none =>
      let s' : State := { s with status := none }
      rw [press_bare key hlayer]
      show s'.board.Effect _ ((s'.pressGlobal? key).getD (s'.pressView key)).1.board
      cases hglobal : s'.pressGlobal? key with
      | none => exact pressView_reaches s' key
      | some r => exact pressGlobal?_reaches hglobal
  | some layer =>
      cases layer with
      | prompt p =>
          rw [press_prompt key hlayer]
          unfold pressPrompt
          split
          · exact onOutcome_reaches { s with layer := none } _ _ _
          · exact .refl _ _
      | pager layer =>
          rw [press_pager key hlayer, pressPager_board]
          exact .refl _ _

/-! ## Reports -/

/-- Rows that arrive are put into the table of their view, tasks of another scope apart. -/
theorem onLoaded_brought {s : State} {view : View} {scope : Option TaskScope}
    (h : view.isTaskView = true → scope = s.taskScope) (rows : List Row) :
    (s.onLoaded view scope rows).1.board = { s.board with
      tables := s.tables.modify view (s.board.fill view rows) } := by
  have hkept : ¬ (view.isTaskView && scope != s.taskScope) = true := by
    rw [Bool.and_eq_true, bne_iff_ne]
    rintro ⟨htask, hother⟩
    exact hother (h htask)
  rw [onLoaded_eq, if_neg hkept]
  split
  · exact requestLoad_board (s.landed view rows) view
  · rfl

/-- Tasks of another scope are dropped. -/
theorem onLoaded_dropped {s : State} {view : View} {scope : Option TaskScope}
    (h : ¬ (view.isTaskView = true → scope = s.taskScope)) (rows : List Row) :
    s.onLoaded view scope rows = s.noCmds := by
  have hdropped : (view.isTaskView && scope != s.taskScope) = true := by
    obtain ⟨htask, hother⟩ := Classical.not_imp.mp h
    rw [Bool.and_eq_true, bne_iff_ne]
    exact ⟨htask, hother⟩
  rw [onLoaded_eq, if_pos hdropped]

theorem onLoaded_reaches (s : State) (view : View) (scope : Option TaskScope) (rows : List Row) :
    s.board.Effect (some (.loaded view scope rows)) (s.onLoaded view scope rows).1.board := by
  by_cases hkept : view.isTaskView = true → scope = s.taskScope
  · rw [onLoaded_brought hkept]
    exact .loaded _ rfl view rows ⟨scope, rfl, hkept⟩
  · rw [onLoaded_dropped hkept]
    exact .refl _ _

theorem onLoaded_refills (s : State) (view : View) (scope : Option TaskScope) (rows : List Row) :
    s.board.Refill view (s.onLoaded view scope rows).1.board := by
  by_cases hkept : view.isTaskView = true → scope = s.taskScope
  · rw [onLoaded_brought hkept]
    exact .filled rows
  · rw [onLoaded_dropped hkept]
    exact .dropped

theorem onMonitorListed_refills (s : State) (containers : List Container) :
    s.board.Refill .monitor (s.onMonitorListed containers).1.board := by
  by_cases hview : s.view = .monitor
  · let s' : State := { s with loading := s.loading.set .monitor false }
    let listed := s'.relist s'.monitoredRows (containers.filter Container.isRunning)
    obtain ⟨monitor, nextToken, hrelist⟩ : ∃ monitor nextToken, listed.1 = { s' with
        monitor, nextToken } :=
      relist_changes s' s'.monitoredRows (containers.filter Container.isRunning)
    obtain ⟨monitor', cancelled, hdrops⟩ := drops_changes listed.2.1 listed.1
    have hrelisted : s.board.Refill .monitor (s'.relisted containers).1.board := by
      show s.board.Refill .monitor ((listed.2.1.foldl drop listed.1).setRows .monitor _).board
      rw [hdrops, hrelist]
      exact .filled _
    rcases onMonitorListed_cases containers hview with hlisted | ⟨stale, hlisted⟩
    · rw [hlisted]
      exact hrelisted
    · rw [hlisted]
      simp only [requestLoad_board]
      exact hrelisted
  · rw [onMonitorListed_left containers hview]
    exact .dropped

theorem onMonitorListed_reaches (s : State) (containers : List Container) :
    s.board.Effect msg? (s.onMonitorListed containers).1.board := by
  by_cases hview : s.view = .monitor
  · exact (onMonitorListed_refills s containers).effect hview
  · rw [onMonitorListed_left containers hview]
    exact .refl _ _

theorem onPagerText_board (s : State) (id : Nat) (text : List Char) (next : Token → Cmd) :
    (s.onPagerText id text next).1.board = s.board := by
  obtain ⟨⟨layer, htext⟩, -⟩ := onPagerText_changes s id text next
  rw [htext]
  rfl

theorem onPagerEnded_board (s : State) (id : Nat) (error : Option String) :
    (s.onPagerEnded id error).1.board = s.board := by
  obtain ⟨layer, hended⟩ := onPagerEnded_changes s id error
  rw [hended]
  rfl

/-- No samples are read unless the monitor is shown. -/
def Silent (s : State) : Prop := s.view ≠ .monitor → s.monitor = []

theorem Silent.shown {s : State} (h : s.Silent) {id : String} {token : Token}
    (hread : s.subscription? id = some token) : s.view = .monitor := by
  refine Decidable.byContradiction fun hview => ?_
  rw [subscription?, h hview] at hread
  cases hread

theorem updateMonitored_refills (s : State) (id : String) (change : Monitored → Monitored) :
    s.board.Refill .monitor (s.updateMonitored id change).board := by
  unfold updateMonitored
  split
  · exact .filled _
  · exact .dropped

theorem onSample_refills (s : State) (sink : StatSink) (sample : Sample) (rest : Feed Sample) :
    s.board.Refill .monitor (s.onSample sink sample rest).1.board := by
  cases sink with
  | pager id =>
      simp only [onSample, onPagerText_board]
      exact .dropped
  | monitor id =>
      simp only [onSample]
      split
      · exact .dropped
      · exact updateMonitored_refills s id _

theorem onStatsEnded_refills (s : State) (sink : StatSink) (error : Option String) :
    s.board.Refill .monitor (s.onStatsEnded sink error).1.board := by
  cases sink with
  | pager id =>
      simp only [onStatsEnded, onPagerEnded_board]
      exact .dropped
  | monitor id =>
      simp only [onStatsEnded]
      split
      · exact .dropped
      · exact updateMonitored_refills (s.unsubscribe id) id _

theorem onSample_reaches {s : State} (h : s.Silent) (sink : StatSink) (sample : Sample)
    (rest : Feed Sample) : s.board.Effect msg? (s.onSample sink sample rest).1.board := by
  cases sink with
  | pager id =>
      simp only [onSample, onPagerText_board]
      exact .refl _ _
  | monitor id =>
      cases hread : s.subscription? id with
      | none =>
          simp only [onSample, hread]
          exact .refl _ _
      | some token => exact (onSample_refills s _ sample rest).effect (h.shown hread)

theorem onStatsEnded_reaches {s : State} (h : s.Silent) (sink : StatSink) (error : Option String) :
    s.board.Effect msg? (s.onStatsEnded sink error).1.board := by
  cases sink with
  | pager id =>
      simp only [onStatsEnded, onPagerEnded_board]
      exact .refl _ _
  | monitor id =>
      cases hread : s.subscription? id with
      | none =>
          simp only [onStatsEnded, hread]
          exact .refl _ _
      | some token => exact (onStatsEnded_refills s _ error).effect (h.shown hread)

/-! ## Other messages -/

theorem onText_board (s : State) (title text : String) :
    (s.onText title text).1.board = s.board := by
  unfold onText
  split
  · rfl
  · exact openPager_board s _ _ _

theorem onEvent_board (s : State) (event : DaemonEvent) (rest : Feed DaemonEvent) :
    (s.onEvent event rest).1.board = s.board := by
  have hshow (s : State) : (s.showEvent event).board = s.board := by
    unfold showEvent
    split
    · split <;> rfl
    · rfl
  obtain ⟨debouncer, hnote⟩ := noteChange_changes s event
  have hboard : (s.onEvent event rest).1.board = ((s.noteChange event).1.showEvent event).board :=
    rfl
  rw [hboard, hshow, hnote]
  rfl

theorem onAlarm_board (s : State) (alarm : Alarm) : (s.onAlarm alarm).1.board = s.board := by
  cases alarm with
  | debounceElapsed =>
      simp only [onAlarm]
      split
      · exact requestLoad_board _ _
      · rfl
  | statusExpired seq =>
      simp only [onAlarm]
      split <;> rfl
  | monitorTick epoch =>
      obtain ⟨loading, stale, htick⟩ := onMonitorTick_changes s epoch
      show (s.onMonitorTick epoch).1.board = s.board
      rw [htick]
      rfl

/-- **Messages.** What each does to the tables. -/
theorem step_reaches {s : State} (h : s.Silent) (msg : Msg) :
    s.board.Effect (some msg) (s.step msg).1.board := by
  -- Most messages have nothing to do with the tables.
  have hsame {s' : State} (heq : s'.board = s.board) : s.board.Effect (some msg) s'.board := by
    rw [heq]
    exact .refl _ _
  cases msg with
  | key key => exact press_reaches s key
  | resize width height => exact .fitted (.resize width height) rfl trivial width _
  | summary summary => exact hsame rfl
  | summaryFailed error => exact hsame rfl
  | loaded view scope rows => exact onLoaded_reaches s view scope rows
  | loadFailed view error => exact hsame rfl
  | monitorListed containers => exact onMonitorListed_reaches s containers
  | textLoaded title text => exact hsame (onText_board s title text)
  | textFailed title error => exact hsame rfl
  | operationDone op detail =>
      exact hsame (requestLoad_board (s.setStatus false (op.successMessage detail)).1 _)
  | operationFailed op error => exact hsame rfl
  | logChunk pager text reader => exact hsame (onPagerText_board s pager text _)
  | logEnded pager error => exact hsame (onPagerEnded_board s pager error)
  | statSample sink sample rest => exact onSample_reaches h sink sample rest
  | statsEnded sink error => exact onStatsEnded_reaches h sink error
  | daemonEvent event rest => exact hsame (onEvent_board s event rest)
  | eventsEnded error => exact hsame rfl
  | alarm alarm => exact hsame (onAlarm_board s alarm)

/-- **Events.** What each does to the tables. -/
theorem react_reaches {s : State} (h : s.Silent) (event : Event) :
    s.board.Effect event.msg? (s.react event).1.board := by
  cases event with
  | begin =>
      show s.board.Effect none (s.requestLoad s.view).1.board
      rw [requestLoad_board]
      exact .refl _ _
  | input msg => exact step_reaches h msg
  | answer cmd number msg => exact step_reaches h msg

/-! ## Samples of the monitor -/

theorem Silent.of_eq {s s' : State} (h : s.Silent) (hmonitor : s'.monitor = s.monitor)
    (hview : s'.view = s.view) : s'.Silent := by
  intro hleft
  rw [hview] at hleft
  rw [hmonitor]
  exact h hleft

theorem silent_of_shown {s : State} (h : s.view = .monitor) : s.Silent :=
  fun hleft => absurd h hleft

theorem requestLoad_silent {s : State} (h : s.Silent) (view : View) :
    (s.requestLoad view).1.Silent := by
  obtain ⟨loading, stale, hload⟩ := requestLoad_changes s view
  rw [hload]
  exact h.of_eq rfl rfl

/-- The reads of the monitor end when it is left. -/
theorem switchView_silent {s : State} (h : s.Silent) (target : View) :
    (s.switchView target).1.Silent := by
  obtain ⟨⟨monitorEpoch, loading, stale, hswitch⟩, -⟩ := switchView_changes s target
  rw [hswitch]
  by_cases hleave : s.view = .monitor ∧ target ≠ .monitor
  · rw [if_pos hleave]
    exact fun _ => rfl
  · rw [if_neg hleave]
    exact fun htarget => h fun hview => hleave ⟨hview, htarget⟩

theorem openPager_silent {s : State} (h : s.Silent) (kind : PagerKind) (pager : Pager)
    (token : Option Token) : (s.openPager kind pager token).Silent := by
  obtain ⟨cancelled, layer, -, hopen⟩ := openPager_changes s kind pager token
  rw [hopen]
  exact h.of_eq rfl rfl

theorem Move.silent {s : State} {r : Step} (hmove : Move s r) (h : s.Silent) : r.1.Silent := by
  have hfresh : s.freshToken.2.Silent := h.of_eq rfl rfl
  cases hmove with
  | nothing cmds hidle => exact h
  | load first hidle => exact requestLoad_silent h _
  | toggle hview =>
      have htoggled : Silent { s with showAll := !s.showAll } := h.of_eq rfl rfl
      exact requestLoad_silent htoggled _
  | switch target => exact switchView_silent h target
  | tasks scope =>
      obtain ⟨previous, tables, -, henter⟩ := enterTaskView_changes s scope
      have hforgot : Silent { s with
          previous
          tables
          taskScope := some scope
          loading := s.loading.set scope.view false } :=
        h.of_eq rfl rfl
      rw [henter]
      exact switchView_silent hforgot scope.view
  | opened kind pager hkind => exact openPager_silent h kind pager none
  | logs target => exact openPager_silent hfresh _ _ _
  | stats target => exact openPager_silent hfresh _ _ _
  | closed =>
      obtain ⟨cancelled, hclose⟩ := closeLayer_changes s
      show s.closeLayer.Silent
      rw [hclose]
      exact h.of_eq rfl rfl

/-- Reads begin with a list that arrives while the monitor is shown, and at no other time. -/
theorem Reaction.silent {s : State} {r : Step} (hr : Reaction s msg? r) (h : s.Silent) :
    r.1.Silent := by
  cases hr with
  | calm hcalm haside hmove =>
      have hmonitor := congrArg Core.monitor haside.core
      exact hmove.silent (h.of_eq hmonitor haside.view)
  | loaded view scope rows =>
      obtain ⟨⟨tables, loading, stale, hloaded⟩, -⟩ := onLoaded_changes s view scope rows
      rw [hloaded]
      exact h.of_eq rfl rfl
  | loadFailed view error => exact h.of_eq rfl rfl
  | listed containers =>
      by_cases hview : s.view = .monitor
      · obtain ⟨⟨tables, loading, stale, monitor, nextToken, cancelled, hlisted⟩, -⟩ :=
          onMonitorListed_changes s containers
        rw [hlisted]
        exact silent_of_shown hview
      · rw [onMonitorListed_left containers hview]
        exact h.of_eq rfl rfl
  | text id text next hmsg hnext =>
      obtain ⟨⟨layer, htext⟩, -⟩ := onPagerText_changes s id text next
      rw [htext]
      exact h.of_eq rfl rfl
  | ended id error hmsg =>
      obtain ⟨layer, hended⟩ := onPagerEnded_changes s id error
      rw [hended]
      exact h.of_eq rfl rfl
  | sample id sample rest =>
      obtain ⟨⟨tables, hsample⟩, -⟩ := onSample_changes s id sample rest
      rw [hsample]
      exact h.of_eq rfl rfl
  | sampleEnd id error =>
      simp only [onStatsEnded]
      split
      · exact h
      · next token hread =>
        obtain ⟨tables, hupdate⟩ := updateMonitored_changes (s.unsubscribe id) id fun m =>
          { m with ended := some (error.getD "ended") }
        rw [hupdate]
        exact silent_of_shown (h.shown hread)
  | tick epoch =>
      obtain ⟨loading, stale, htick⟩ := onMonitorTick_changes s epoch
      rw [htick]
      exact h.of_eq rfl rfl

/-! ## Runs -/

/-- **Runs.** What all effects on the tables keep is kept by every run. -/
theorem run_keeps {P : Board → Prop}
    (hkeeps : ∀ b b' msg?, b.Effect msg? b' → P b → P b') {s : State} (hs : s.Silent)
    (h : P s.board) (events : List Event) : (s.run events).Silent ∧ P (s.run events).board := by
  induction events using List.reverseRecOn with
  | nil => exact ⟨hs, h⟩
  | append_singleton events event ih =>
      obtain ⟨hsilent, hbefore⟩ := ih
      rw [run_concat]
      exact ⟨(react_reaction _ event).silent hsilent,
        hkeeps _ _ _ (react_reaches hsilent event) hbefore⟩

end State

end Dockboard
