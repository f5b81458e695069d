import Dockboard.Proofs.Session.Changes
import Dockboard.Proofs.Session.Keys
import Dockboard.Proofs.Session.Run

set_option autoImplicit false

/-! # Loads

Of every view that does not list tasks, at most one load is under way, and the view is marked as
loading as long as it is. So loads of a view end in the order in which they began.

    Cmd.loads?        the view a command loads
    Msg.lands?        the view whose load a message ends
    Begins before r   `r` begins at most one load; `before` tells which are under way without it

A task view is different: it gives up a load of another scope when it is entered again, without
waiting for its rows.
-/

namespace Dockboard

open Dockboard.Stream

/-- The view a command loads. -/
def Cmd.loads? : Cmd → Option View
  | .load view _ _ => some view
  | .listMonitor => some .monitor
  | _ => none

/-- The view whose load a message ends. -/
def Msg.lands? : Msg → Option View
  | .loaded view _ _ => some view
  | .loadFailed view _ => some view
  | .monitorListed _ => some .monitor
  | _ => none

theorem Cmd.Yields.lands?_eq {cmd : Cmd} {msg : Msg} (h : cmd.Yields msg) :
    msg.lands? = cmd.loads? := by
  cases h <;> rfl

theorem Msg.lands?_of_isInput {msg : Msg} (h : msg.isInput = true) : msg.lands? = none := by
  cases msg <;> first | rfl | cases h

/-! ## What a step begins -/

namespace State

/-- A step begins no load, or one of the view that is active after it, which was not under way. -/
inductive Begins (before : View → Bool) (r : Step) : Prop where
  | none (hcmds : r.2.filterMap Cmd.loads? = [])
      (hloading : ∀ view, view.isTaskView = false → r.1.loading.get view = before view)
  | one (hcmds : r.2.filterMap Cmd.loads? = [r.1.view])
      (hfree : r.1.view.isTaskView = false → before r.1.view = false)
      (hloading : ∀ view, view.isTaskView = false →
        r.1.loading.get view = (before view || r.1.view == view))

namespace Begins

variable {before : View → Bool} {r : Step}

theorem congr {before' : View → Bool} (h : Begins before r)
    (heq : ∀ view, view.isTaskView = false → before view = before' view) : Begins before' r := by
  cases h with
  | none hcmds hloading =>
      exact .none hcmds fun view hview => (hloading view hview).trans (heq view hview)
  | one hcmds hfree hloading =>
      refine .one hcmds (fun hview => ?_) fun view hview => ?_
      · rw [← heq _ hview]
        exact hfree hview
      · rw [← heq view hview]
        exact hloading view hview

/-- Commands that load nothing make no difference. -/
theorem cmds (h : Begins before r) {cmds : List Cmd}
    (heq : cmds.filterMap Cmd.loads? = r.2.filterMap Cmd.loads?) : Begins before (r.1, cmds) := by
  cases h with
  | none hnone hloading => exact .none (heq.trans hnone) hloading
  | one hone hfree hloading => exact .one (heq.trans hone) hfree hloading

theorem prepend (h : Begins before r) {first : List Cmd}
    (hfirst : first.filterMap Cmd.loads? = []) : Begins before (r.1, first ++ r.2) :=
  h.cmds (by rw [List.filterMap_append, hfirst, List.nil_append])

theorem append (h : Begins before r) {last : List Cmd} (hlast : last.filterMap Cmd.loads? = []) :
    Begins before (r.1, r.2 ++ last) :=
  h.cmds (by rw [List.filterMap_append, hlast, List.append_nil])

/-- At most one load is begun, and it is of the active view. -/
theorem loads (h : Begins before r) :
    r.2.filterMap Cmd.loads? = [] ∨ r.2.filterMap Cmd.loads? = [r.1.view] := by
  cases h with
  | none hcmds _ => exact Or.inl hcmds
  | one hcmds _ _ => exact Or.inr hcmds

end Begins

/-- A step without loads that leaves it as it was which are under way. -/
theorem begins_none {s : State} {r : Step} (hcmds : r.2.filterMap Cmd.loads? = [])
    (hloading : r.1.loading = s.loading) : Begins s.loading.get r :=
  .none hcmds fun view _ => by rw [hloading]

theorem loadCmd_loads? (s : State) (view : View) : (s.loadCmd view).loads? = some view := by
  rcases loadCmd_cases s view with ⟨rfl, hcmd⟩ | ⟨-, scope, hcmd⟩
  · rw [hcmd]
    rfl
  · rw [hcmd]
    rfl

theorem requestLoad_begins {s : State} {view : View} (h : s.view = view) :
    Begins s.loading.get (s.requestLoad view) := by
  subst h
  unfold requestLoad
  split
  · exact begins_none rfl rfl
  · next hfree =>
    split
    · exact begins_none rfl rfl
    · refine .one ?_ (fun _ => by simpa using hfree) fun view _ => ?_
      · show List.filterMap Cmd.loads? [s.loadCmd s.view] = [s.view]
        rw [List.filterMap_cons_some (loadCmd_loads? s s.view)]
        rfl
      · show (s.loading.set s.view true).get view = _
        rw [ByView.get_set]
        by_cases hview : s.view = view <;> simp [hview]

theorem startMonitor_begins {s : State} (h : s.view = .monitor) :
    Begins s.loading.get s.startMonitor := by
  have hload := requestLoad_begins (s := { s with monitorEpoch := s.monitorEpoch + 1 }) h
  exact hload.append rfl

theorem openPager_loading (s : State) (kind : PagerKind) (pager : Pager) (token : Option Token) :
    (s.openPager kind pager token).loading = s.loading := by
  obtain ⟨cancelled, layer, -, hopen⟩ := openPager_changes s kind pager token
  rw [hopen]

theorem closeLayer_loading (s : State) : s.closeLayer.loading = s.loading := by
  obtain ⟨cancelled, hclose⟩ := closeLayer_changes s
  rw [hclose]

/-! ## Every step -/

theorem switchView_begins (s : State) (target : View) :
    Begins s.loading.get (s.switchView target) := by
  unfold switchView
  by_cases hsame : target = s.view
  · rw [if_pos hsame]
    exact requestLoad_begins hsame.symm
  · rw [if_neg hsame]
    -- Leaving the monitor changes nothing about loads.
    obtain ⟨tables, cancelled, monitor, monitorEpoch, hleave⟩ := leave_changes s
    simp only [hleave]
    by_cases hmonitor : target = .monitor
    · rw [if_pos hmonitor, hmonitor]
      exact startMonitor_begins (s := { s with
        tables, cancelled, monitor, monitorEpoch, view := .monitor }) rfl
    · rw [if_neg hmonitor]
      exact requestLoad_begins (s := { s with
        tables, cancelled, monitor, monitorEpoch, view := target }) rfl

theorem enterTaskView_begins (s : State) (scope : TaskScope) :
    Begins s.loading.get (s.enterTaskView scope) := by
  have htask : scope.view.isTaskView = true := by cases scope <;> rfl
  obtain ⟨previous, tables, -, henter⟩ := enterTaskView_changes s scope
  rw [henter]
  refine (switchView_begins _ _).congr fun view hview => ?_
  have hne : scope.view ≠ view := by
    rintro rfl
    rw [hview] at htask
    cases htask
  exact ByView.get_set_of_ne hne s.loading false

theorem back_begins (s : State) : Begins s.loading.get s.back := by
  unfold back
  split
  · exact switchView_begins s _
  · exact begins_none rfl rfl

theorem ActionEffect.begins {s : State} {target : Target} {r : Step}
    (h : ActionEffect s target r) : Begins s.loading.get r := by
  cases h with
  | nothing => exact begins_none rfl rfl
  | inspect kind title => exact begins_none rfl rfl
  | logs => exact begins_none rfl (openPager_loading _ _ _ _)
  | stats => exact begins_none rfl (openPager_loading _ _ _ _)
  | tasks scope hscope => exact enterTaskView_begins s scope
  | availability prompt => exact begins_none rfl rfl
  | scale prompt offered => exact begins_none rfl rfl
  | confirm action op hop => exact begins_none rfl rfl

theorem onOutcome_begins (s : State) (tag : Followup) (target : Target)
    (outcome : Outcome Action) : Begins s.loading.get (s.onOutcome tag target outcome) := by
  unfold onOutcome
  split
  · exact (runAction_effect s _ target none).begins
  · exact begins_none rfl rfl
  · exact begins_none rfl rfl
  · unfold onScale
    split <;> exact begins_none rfl rfl
  · unfold onAvailability
    split <;> exact begins_none rfl rfl
  · exact begins_none rfl rfl

theorem KeyEffect.begins {s : State} {r : Step} (h : KeyEffect s r) :
    Begins s.loading.get r := by
  cases h with
  | nothing => exact begins_none rfl rfl
  | quit => exact begins_none rfl rfl
  | help => exact begins_none rfl (openPager_loading _ _ _ _)
  | events => exact begins_none rfl (openPager_loading _ _ _ _)
  | info => exact begins_none rfl rfl
  | header => exact begins_none rfl rfl
  | switch target hlist => exact switchView_begins s target
  | back => exact back_begins s
  | move place => exact begins_none rfl rfl
  | sort => exact begins_none rfl rfl
  | filter => exact begins_none rfl rfl
  | toggle hview => exact requestLoad_begins (s := { s with showAll := !s.showAll }) rfl
  | refresh => exact requestLoad_begins rfl
  | menu target row items hselected => exact begins_none rfl rfl
  | onView action hwhole => exact (runAction_effect s action _ _).begins
  | onRow action target row hselected => exact (runAction_effect s action _ _).begins

theorem press_begins (s : State) (key : Key) : Begins s.loading.get (s.press key) := by
  cases hlayer : s.layer with
  | none => exact (press_effect key hlayer).begins
  | some layer =>
      cases layer with
      | prompt prompt =>
          rw [press_prompt key hlayer]
          unfold pressPrompt
          split
          · exact onOutcome_begins { s with layer := none } _ _ _
          · exact begins_none rfl rfl
      | pager layer =>
          rw [press_pager key hlayer]
          refine begins_none rfl ?_
          simp only [pressPager, noCmds]
          split
          · exact closeLayer_loading _
          · rfl

/-- What the end of a load of `view` leaves under way. -/
theorem get_set_false (loading : ByView Bool) (view other : View) :
    (loading.set view false).get other = (loading.get other && some view != some other) := by
  rw [ByView.get_set]
  by_cases h : view = other <;> simp [h]

theorem onLoaded_begins (s : State) (view : View) (scope : Option TaskScope) (rows : List Row) :
    Begins (fun other => s.loading.get other && some view != some other)
      (s.onLoaded view scope rows) := by
  unfold onLoaded
  split
  · next hdropped =>
    -- What is dropped are tasks, so the load of no other view has ended.
    have htask : view.isTaskView = true := (Bool.and_eq_true_iff.mp hdropped).1
    refine (begins_none (s := s) rfl rfl).congr fun other hother => ?_
    have hne : view ≠ other := by
      rintro rfl
      rw [hother] at htask
      cases htask
    simp [hne]
  · have hended : ∀ other, other.isTaskView = false →
        (s.loading.set view false).get other = (s.loading.get other && some view != some other) :=
      fun other _ => get_set_false s.loading view other
    simp only
    split
    · next hagain =>
      have hview : s.view = view := by
        have hactive := (Bool.and_eq_true_iff.mp hagain).2
        exact (eq_of_beq hactive).symm
      exact (requestLoad_begins (by exact hview)).congr hended
    · exact .none rfl hended

theorem onLoadFailed_begins (s : State) (view : View) (error : String) :
    Begins (fun other => s.loading.get other && some view != some other)
      (s.onLoadFailed view error) :=
  .none rfl fun other _ => get_set_false s.loading view other

theorem onMonitorListed_begins (s : State) (containers : List Container) :
    Begins (fun other => s.loading.get other && some View.monitor != some other)
      (s.onMonitorListed containers) := by
  have hended : ∀ other, other.isTaskView = false →
      (s.loading.set .monitor false).get other =
        (s.loading.get other && some View.monitor != some other) :=
    fun other _ => get_set_false s.loading .monitor other
  by_cases hview : s.view = .monitor
  · let s' : State := { s with loading := s.loading.set .monitor false }
    obtain ⟨tables, monitor, nextToken, cancelled, hrelisted⟩ := relisted_changes s' containers
    have hopens : (s'.relisted containers).2.filterMap Cmd.loads? = [] := by
      refine List.filterMap_eq_nil_iff.mpr fun cmd hcmd => ?_
      obtain ⟨id, token, rfl⟩ := relist_opens hcmd
      rfl
    have hactive : (s'.relisted containers).1.view = .monitor := by
      rw [hrelisted]
      exact hview
    have hloading : (s'.relisted containers).1.loading = s'.loading := by
      rw [hrelisted]
    rcases onMonitorListed_cases containers hview with hlisted | ⟨stale, hlisted⟩
    · rw [hlisted]
      refine .none hopens fun view hother => ?_
      rw [hloading]
      exact hended view hother
    · have hload : Begins (s'.relisted containers).1.loading.get (State.requestLoad _ .monitor) :=
        requestLoad_begins (s := { (s'.relisted containers).1 with stale }) hactive
      rw [hloading] at hload
      rw [hlisted]
      exact (hload.prepend hopens).congr hended
  · rw [onMonitorListed_left containers hview]
    exact .none rfl hended

theorem onMonitorTick_begins (s : State) (epoch : Nat) :
    Begins s.loading.get (s.onMonitorTick epoch) := by
  unfold onMonitorTick
  split
  · next h => exact (requestLoad_begins h.1).append rfl
  · exact begins_none rfl rfl

theorem onAlarm_begins (s : State) (alarm : Alarm) : Begins s.loading.get (s.onAlarm alarm) := by
  cases alarm with
  | debounceElapsed =>
      simp only [onAlarm]
      split
      · exact requestLoad_begins (s := { s with debouncer := s.debouncer.flush.1 }) rfl
      · exact begins_none rfl rfl
  | statusExpired seq =>
      simp only [onAlarm]
      split <;> exact begins_none rfl rfl
  | monitorTick epoch => exact onMonitorTick_begins s epoch

theorem onPagerText_begins (s : State) (id : Nat) (text : List Char) {next : Token → Cmd}
    (hnext : ∀ token, (next token).loads? = none) :
    Begins s.loading.get (s.onPagerText id text next) := by
  unfold onPagerText
  split
  · exact begins_none rfl rfl
  · simp only
    split
    · split
      · exact begins_none rfl rfl
      · exact begins_none (List.filterMap_cons_none (hnext _)) rfl
    · exact begins_none rfl rfl

theorem onPagerEnded_begins (s : State) (id : Nat) (error : Option String) :
    Begins s.loading.get (s.onPagerEnded id error) := by
  unfold onPagerEnded
  split <;> exact begins_none rfl rfl

theorem onSample_begins (s : State) (sink : StatSink) (sample : Sample) (rest : Feed Sample) :
    Begins s.loading.get (s.onSample sink sample rest) := by
  cases sink with
  | pager id => exact onPagerText_begins s id _ fun _ => rfl
  | monitor id =>
      simp only [onSample]
      split
      · exact begins_none rfl rfl
      · obtain ⟨tables, hupdate⟩ := updateMonitored_changes s id fun m =>
          { m with sample := some sample }
        rw [hupdate]
        exact begins_none rfl rfl

theorem onStatsEnded_begins (s : State) (sink : StatSink) (error : Option String) :
    Begins s.loading.get (s.onStatsEnded sink error) := by
  cases sink with
  | pager id => exact onPagerEnded_begins s id error
  | monitor id =>
      simp only [onStatsEnded]
      split
      · exact begins_none rfl rfl
      · obtain ⟨tables, hupdate⟩ := updateMonitored_changes (s.unsubscribe id) id fun m =>
          { m with ended := some (error.getD "ended") }
        rw [hupdate]
        exact begins_none rfl rfl

theorem onEvent_loads (s : State) (event : DaemonEvent) (rest : Feed DaemonEvent) :
    (s.onEvent event rest).2.filterMap Cmd.loads? = [] := by
  refine List.filterMap_eq_nil_iff.mpr fun cmd hcmd => ?_
  rcases List.mem_cons.mp hcmd with rfl | hreport
  · rfl
  · obtain ⟨after, rfl⟩ := mem_noteChange hreport
    rfl

theorem onEvent_begins (s : State) (event : DaemonEvent) (rest : Feed DaemonEvent) :
    Begins s.loading.get (s.onEvent event rest) := by
  refine begins_none (onEvent_loads s event rest) ?_
  obtain ⟨debouncer, hnote⟩ := noteChange_changes s event
  simp only [onEvent, hnote, showEvent]
  split
  · split <;> rfl
  · rfl

theorem onText_begins (s : State) (title text : String) :
    Begins s.loading.get (s.onText title text) := by
  unfold onText
  split
  · exact begins_none rfl rfl
  · exact begins_none rfl (openPager_loading _ _ _ _)

theorem onDone_begins (s : State) (op : Operation) (detail : String) :
    Begins s.loading.get (s.onDone op detail) := by
  have hload := requestLoad_begins (s := (s.setStatus false (op.successMessage detail)).1) rfl
  exact hload.prepend rfl

/-- **Steps and loads.** A message ends at most the load it is the answer of, and begins at most
one load, of the view that is active then. -/
theorem step_begins (s : State) (msg : Msg) :
    Begins (fun view => s.loading.get view && msg.lands? != some view) (s.step msg) := by
  -- Most messages are not the answer of a load.
  have hkeep {r : Step} (h : Begins s.loading.get r) :
      Begins (fun view => s.loading.get view && (none : Option View) != some view) r :=
    h.congr fun view _ => by simp
  cases msg with
  | key key => exact hkeep (press_begins s key)
  | resize width height => exact hkeep (begins_none rfl rfl)
  | summary summary => exact hkeep (begins_none rfl rfl)
  | summaryFailed error => exact hkeep (begins_none rfl rfl)
  | loaded view scope rows => exact onLoaded_begins s view scope rows
  | loadFailed view error => exact onLoadFailed_begins s view error
  | monitorListed containers => exact onMonitorListed_begins s containers
  | textLoaded title text => exact hkeep (onText_begins s title text)
  | textFailed title error => exact hkeep (begins_none rfl rfl)
  | operationDone op detail => exact hkeep (onDone_begins s op detail)
  | operationFailed op error => exact hkeep (begins_none rfl rfl)
  | logChunk pager text reader => exact hkeep (onPagerText_begins s pager text fun _ => rfl)
  | logEnded pager error => exact hkeep (onPagerEnded_begins s pager error)
  | statSample sink sample rest => exact hkeep (onSample_begins s sink sample rest)
  | statsEnded sink error => exact hkeep (onStatsEnded_begins s sink error)
  | daemonEvent event rest => exact hkeep (onEvent_begins s event rest)
  | eventsEnded error => exact hkeep (begins_none rfl rfl)
  | alarm alarm => exact hkeep (onAlarm_begins s alarm)

theorem begin_begins (s : State) : Begins s.loading.get s.begin :=
  (requestLoad_begins (s := s) rfl).prepend rfl

theorem react_loads (s : State) (event : Event) :
    (s.react event).2.filterMap Cmd.loads? = [] ∨
      (s.react event).2.filterMap Cmd.loads? = [(s.react event).1.view] := by
  cases event with
  | begin => exact (begin_begins s).loads
  | input msg => exact (step_begins s msg).loads
  | answer cmd number msg => exact (step_begins s msg).loads

end State

/-! ## Loads under way -/

/-- The view whose load an event ends. -/
def Event.lands? : Event → Option View
  | .answer cmd _ _ => cmd.loads?
  | _ => none

/-- The number of the load of `view` that an event ends. -/
def Event.landing? (view : View) : Event → Option Nat
  | .answer cmd number _ => if cmd.loads? = some view then some number else none
  | _ => none

/-- The numbers of the loads of a view among numbered commands. -/
def loadsOf (view : View) (cmds : List (Cmd × Nat)) : List Nat :=
  (cmds.filter fun p => p.1.loads? == some view).map Prod.snd

/-- The numbers of the loads of a view that have ended, in the order in which they did. -/
def landings (view : View) (history : History) : List Nat :=
  history.filterMap fun p => p.2.landing? view

/-- Whether a command loads a view. -/
def Cmd.loadsView (view : View) (cmd : Cmd) : Bool := cmd.loads? == some view

theorem Event.answers_loadsView (event : Event) (view : View) :
    event.answers (Cmd.loadsView view) = (event.lands? == some view) := by
  cases event <;> rfl

theorem Event.answered?_loadsView (event : Event) (view : View) :
    event.answered? (Cmd.loadsView view) = event.landing? view := by
  cases event with
  | begin => rfl
  | input msg => rfl
  | answer cmd number msg => simp [answered?, landing?, Cmd.loadsView]

theorem length_loadsOf (view : View) (x : System) :
    (loadsOf view x.pending).length = x.outstanding (Cmd.loadsView view) :=
  length_numbersOf (Cmd.loadsView view) x.pending

namespace System

/-- A message that ends a load is the answer of one. -/
theorem answer_of_lands {x : System} {event : Event} (allowed : x.Allows event) {msg : Msg}
    (hmsg : event.msg? = some msg) {view : View} (hlands : msg.lands? = some view) :
    ∃ cmd number, event = .answer cmd number msg ∧ (cmd, number) ∈ x.pending ∧
      cmd.loads? = some view := by
  cases event with
  | begin => cases hmsg
  | input other =>
      cases hmsg
      rw [Msg.lands?_of_isInput allowed] at hlands
      cases hlands
  | answer cmd number other =>
      cases hmsg
      exact ⟨cmd, number, rfl, allowed.1, allowed.2.lands?_eq.symm.trans hlands⟩

theorem react_begins {x : System} {event : Event} (allowed : x.Allows event) :
    State.Begins (fun view => x.state.loading.get view && event.lands? != some view)
      (x.state.react event) := by
  cases event with
  | begin => exact (State.begin_begins x.state).congr fun view _ => by simp [Event.lands?]
  | input msg =>
      have hnone : (Event.input msg).lands? = msg.lands? := (Msg.lands?_of_isInput allowed).symm
      rw [hnone]
      exact State.step_begins x.state msg
  | answer cmd number msg =>
      have hlands : (Event.answer cmd number msg).lands? = msg.lands? := allowed.2.lands?_eq.symm
      rw [hlands]
      exact State.step_begins x.state msg

/-- How the loads of a view stand when `ended` are the numbers of those that have ended. -/
structure Orderly (view : View) (ended : List Nat) (x : System) : Prop where
  count : (loadsOf view x.pending).length = if x.state.loading.get view then 1 else 0
  rising : (ended ++ loadsOf view x.pending).Pairwise (· < ·)
  below : ∀ n ∈ ended ++ loadsOf view x.pending, n < x.issued

/-- A view with a load under way has no other one, and is marked as loading. -/
theorem Orderly.one_load {x : System} {view : View} {ended : List Nat} (h : Orderly view ended x)
    {p q : Cmd × Nat} (hp : p ∈ x.pending) (hq : q ∈ x.pending) (hloads : p.1.loads? = some view)
    (hloads' : q.1.loads? = some view) : p = q ∧ x.state.loading.get view = true := by
  have hp' : p ∈ x.pending.filter fun p => p.1.loads? == some view :=
    List.mem_filter.mpr ⟨hp, by simp [hloads]⟩
  have hq' : q ∈ x.pending.filter fun p => p.1.loads? == some view :=
    List.mem_filter.mpr ⟨hq, by simp [hloads']⟩
  have hcount := h.count
  rw [loadsOf, List.length_map] at hcount
  cases hloading : x.state.loading.get view with
  | false =>
      rw [hloading] at hcount
      rw [List.eq_nil_of_length_eq_zero hcount] at hp'
      cases hp'
  | true =>
      rw [hloading] at hcount
      obtain ⟨only, honly⟩ := List.length_eq_one_iff.mp hcount
      rw [honly, List.mem_singleton] at hp' hq'
      exact ⟨hp'.trans hq'.symm, rfl⟩

/-- **One event.** Loads stay in order: one may have ended, and one may have begun. -/
theorem Orderly.after {x : System} {event : Event} {view : View} {ended : List Nat}
    (h : Orderly view ended x) (hnumbered : x.Numbered) (allowed : x.Allows event)
    (hlist : view.isTaskView = false) :
    Orderly view (ended ++ (event.landing? view).toList) (x.after event) := by
  have hbefore : x.outstanding (Cmd.loadsView view) =
      if x.state.loading.get view then 1 else 0 := by
    rw [← length_loadsOf]
    exact h.count
  have hone : x.outstanding (Cmd.loadsView view) ≤ 1 := by
    rw [hbefore]
    split <;> omega
  have hturn : InTurn (Cmd.loadsView view) ended x := ⟨h.rising, h.below⟩
  have hnext := hturn.after hnumbered allowed hone
  rw [Event.answered?_loadsView] at hnext
  -- The mark of the view tells what is left and what is begun, and only one of them can be one.
  have hmark : (if x.state.loading.get view && event.lands? != some view then 1 else 0) +
      ((x.state.react event).2.filterMap Cmd.loads?).count view =
        if (x.state.react event).1.loading.get view then 1 else 0 := by
    cases react_begins allowed with
    | none hcmds hloading =>
        rw [hcmds, hloading view hlist]
        rfl
    | one hcmds hfree hloading =>
        rw [hcmds, hloading view hlist]
        by_cases hactive : (x.state.react event).1.view = view
        · rw [hactive] at hfree ⊢
          simp [hfree hlist]
        · simp [hactive]
  refine ⟨?_, hnext.rising, hnext.below⟩
  have hcount := outstanding_after hnumbered allowed (Cmd.loadsView view)
  have hanswers := answers_le_outstanding hnumbered allowed (Cmd.loadsView view)
  have hissued : (x.state.react event).2.countP (Cmd.loadsView view) =
      ((x.state.react event).2.filterMap Cmd.loads?).count view := List.count_filterMap.symm
  rw [Event.answers_loadsView, hbefore] at hcount hanswers
  rw [length_loadsOf]
  show _ = if (x.state.react event).1.loading.get view then 1 else 0
  rw [← hmark, ← hissued]
  cases hlands : event.lands? == some view <;> cases hloading : x.state.loading.get view <;>
    simp only [bne, hlands, hloading, if_true, if_false, Bool.false_eq_true, Bool.not_false,
      Bool.not_true, Bool.and_true, Bool.and_false] at hcount hanswers ⊢ <;> omega

end System

namespace Run

variable {config : Config} {now : Int} {history : History} {x : System}

theorem orderly (h : Run config now history x) {view : View} (hlist : view.isTaskView = false) :
    System.Orderly view (landings view history) x := by
  induction h with
  | start =>
      refine ⟨?_, List.Pairwise.nil, fun n hn => by cases hn⟩
      show 0 = if (ByView.ofFn fun _ => false).get view then 1 else 0
      rw [ByView.get_ofFn]
      rfl
  | @step history x event run allowed ih =>
      have hlandings : landings view (history ++ [(x, event)]) =
          landings view history ++ (event.landing? view).toList := by
        unfold landings
        rw [List.filterMap_append, List.filterMap_cons, List.filterMap_nil]
        cases event.landing? view <;> rfl
      rw [hlandings]
      exact ih.after run.numbered allowed hlist

/-- **Loads.** In every state of a session, a view that lists no tasks has one load under way if
it is marked as loading and none otherwise, and its loads have ended in the order in which they
began. Whatever happens next begins at most one load, of the view that is active then, and an
event of the daemon begins none. -/
theorem loads_in_order (h : Run config now history x) :
    (∀ view : View, view.isTaskView = false →
      (loadsOf view x.pending).length = (if x.state.loading.get view then 1 else 0) ∧
      (landings view history ++ loadsOf view x.pending).Pairwise (· < ·)) ∧
    (∀ event, (x.state.react event).2.filterMap Cmd.loads? = [] ∨
      (x.state.react event).2.filterMap Cmd.loads? = [(x.state.react event).1.view]) ∧
    ∀ event rest, (x.state.step (.daemonEvent event rest)).2.filterMap Cmd.loads? = [] := by
  refine ⟨fun view hlist => ?_, fun event => ?_, fun event rest => ?_⟩
  · obtain ⟨hcount, hrising, -⟩ := h.orderly hlist
    exact ⟨hcount, hrising⟩
  · exact State.react_loads x.state event
  · exact State.onEvent_loads x.state event rest

/-- The first containers arrive, and F5 asks for them again. -/
theorem loads_after_refresh : ∃ history x, Run {} 0 history x ∧
    landings .containers history = [2] ∧ loadsOf .containers x.pending = [3] ∧
    (loadsOf .containers x.pending).length = (if x.state.loading.get .containers then 1 else 0) ∧
    (landings .containers history ++ loadsOf .containers x.pending).Pairwise (· < ·) := by
  have hbegun := (Run.start : Run {} 0 [] _).step .begin trivial
  have hloaded := hbegun.step
    (.answer (.load .containers false none) 2 (.loaded .containers none []))
    ⟨List.mem_of_getElem? (i := 2) rfl, .loaded .containers false none []⟩
  have hrefreshed := hloaded.step (.input (.key { code := .function 5 })) rfl
  have hloads := (loads_in_order hrefreshed).1 .containers rfl
  exact ⟨_, _, hrefreshed, by rfl, by rfl, hloads.1, hloads.2⟩

end Run

end Dockboard
