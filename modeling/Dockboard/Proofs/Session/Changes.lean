import Dockboard.Session.Step

set_option autoImplicit false

/-! # What the parts of a step change

For each part of a step, the fields of the state that it may change. All others stay as they
are, which is read off the equation by `rfl`.
-/

namespace Dockboard

open Dockboard.Stream

namespace State

theorem cancel_changes (s : State) (token : Token) :
    ∃ cancelled, s.cancel token = { s with cancelled } := by
  unfold cancel
  split
  · exact ⟨s.cancelled, rfl⟩
  · exact ⟨token :: s.cancelled, rfl⟩

theorem cancels_changes (entries : List (String × Token)) (s : State) :
    ∃ cancelled, entries.foldl (fun s entry => s.cancel entry.2) s = { s with cancelled } := by
  induction entries generalizing s with
  | nil => exact ⟨s.cancelled, rfl⟩
  | cons entry entries ih =>
      obtain ⟨cancelled, hcancel⟩ := cancel_changes s entry.2
      rw [List.foldl_cons, hcancel]
      exact ih { s with cancelled }

theorem requestLoad_changes (s : State) (view : View) :
    ∃ loading stale, (s.requestLoad view).1 = { s with loading, stale } := by
  unfold requestLoad
  split
  · exact ⟨s.loading, s.stale.set view true, rfl⟩
  · split
    · exact ⟨s.loading, s.stale, rfl⟩
    · exact ⟨s.loading.set view true, s.stale, rfl⟩

theorem loadCmd_cases (s : State) (view : View) :
    (view = .monitor ∧ s.loadCmd view = .listMonitor) ∨
      (view ≠ .monitor ∧ ∃ scope, s.loadCmd view = .load view s.showAll scope) := by
  unfold loadCmd
  by_cases hview : view = .monitor
  · rw [if_pos hview]
    exact Or.inl ⟨hview, rfl⟩
  · rw [if_neg hview]
    exact Or.inr ⟨hview, _, rfl⟩

theorem mem_requestLoad {s : State} {view : View} {cmd : Cmd}
    (h : cmd ∈ (s.requestLoad view).2) : cmd = s.loadCmd view := by
  unfold requestLoad at h
  split at h
  · cases h
  · split at h
    · cases h
    · exact List.mem_singleton.mp h

theorem stopMonitor_changes (s : State) :
    ∃ tables cancelled, s.stopMonitor =
      { s with tables, cancelled, monitor := [], monitorEpoch := s.monitorEpoch + 1 } := by
  obtain ⟨cancelled, hcancels⟩ := cancels_changes s.monitor s
  unfold stopMonitor
  rw [hcancels]
  exact ⟨_, cancelled, rfl⟩

/-- Leaving a view for another one may end the session of the monitor. -/
theorem leave_changes (s : State) :
    ∃ tables cancelled monitor monitorEpoch, (if s.view = .monitor then s.stopMonitor else s) =
      { s with tables, cancelled, monitor, monitorEpoch } := by
  split
  · obtain ⟨tables, cancelled, hstop⟩ := stopMonitor_changes s
    exact ⟨tables, cancelled, [], s.monitorEpoch + 1, hstop⟩
  · exact ⟨s.tables, s.cancelled, s.monitor, s.monitorEpoch, rfl⟩

/-- Changing views ends a session of the monitor when it is left, and then loads the new view. -/
theorem switchView_changes (s : State) (target : View) :
    (∃ monitorEpoch loading stale, (s.switchView target).1 =
      { (if s.view = .monitor ∧ target ≠ .monitor then s.stopMonitor else s) with
        view := target, monitorEpoch, loading, stale }) ∧
    ∀ cmd ∈ (s.switchView target).2, (∃ s' : State, cmd = s'.loadCmd target) ∨
      ∃ after epoch, cmd = .timer after (.monitorTick epoch) := by
  unfold switchView
  by_cases hsame : target = s.view
  · have hstay : ¬ (s.view = .monitor ∧ target ≠ .monitor) := by
      rintro ⟨hview, htarget⟩
      exact htarget (hsame.trans hview)
    obtain ⟨loading, stale, hload⟩ := requestLoad_changes s target
    rw [if_pos hsame, if_neg hstay]
    refine ⟨⟨s.monitorEpoch, loading, stale, ?_⟩, fun cmd hcmd => Or.inl ⟨s, mem_requestLoad hcmd⟩⟩
    rw [hload, hsame]
  · rw [if_neg hsame]
    by_cases hmonitor : target = .monitor
    · have hother : s.view ≠ .monitor := fun hview => hsame (hmonitor.trans hview.symm)
      simp only [hother, hmonitor, if_true, if_false, false_and, startMonitor]
      obtain ⟨loading, stale, hload⟩ := requestLoad_changes
        { s with view := .monitor, monitorEpoch := s.monitorEpoch + 1 } .monitor
      refine ⟨⟨s.monitorEpoch + 1, loading, stale, hload⟩, fun cmd hcmd => ?_⟩
      rcases List.mem_append.mp hcmd with hcmd | hcmd
      · exact Or.inl ⟨_, mem_requestLoad hcmd⟩
      · exact Or.inr ⟨_, _, List.mem_singleton.mp hcmd⟩
    · simp only [hmonitor, if_false, ne_eq, not_false_eq_true, and_true]
      let s' : State := if s.view = .monitor then s.stopMonitor else s
      obtain ⟨loading, stale, hload⟩ := requestLoad_changes { s' with view := target } target
      exact ⟨⟨s'.monitorEpoch, loading, stale, hload⟩,
        fun cmd hcmd => Or.inl ⟨_, mem_requestLoad hcmd⟩⟩

/-- Entering a task view forgets no rows but those of tasks, and is a change of views otherwise. -/
theorem enterTaskView_changes (s : State) (scope : TaskScope) :
    ∃ previous tables, tables.get .monitor = s.tables.get .monitor ∧
      s.enterTaskView scope = State.switchView { s with
        previous
        tables
        taskScope := some scope
        loading := s.loading.set scope.view false } scope.view := by
  have htask : scope.view ≠ .monitor := by cases scope <;> nofun
  obtain ⟨previous, hprevious⟩ : ∃ previous,
      (if s.view.isTaskView then s else { s with previous := s.view }) = { s with previous } := by
    split
    · exact ⟨s.previous, rfl⟩
    · exact ⟨s.view, rfl⟩
  obtain ⟨tables, htables, hforget⟩ : ∃ tables, tables.get .monitor = s.tables.get .monitor ∧
      (if s.taskScope = some scope then { s with previous } else
        ({ s with previous } : State).clearRows scope.view) = { s with previous, tables } := by
    split
    · exact ⟨s.tables, rfl, rfl⟩
    · refine ⟨s.tables.modify scope.view fun t => t.replaceRows s.format [], ?_, rfl⟩
      rw [ByView.get_modify, if_neg htask]
  refine ⟨previous, tables, htables, ?_⟩
  unfold enterTaskView
  simp only [hprevious, hforget]

theorem closeLayer_changes (s : State) :
    ∃ cancelled, s.closeLayer = { s with cancelled, layer := none } := by
  unfold closeLayer
  split
  · next token _ =>
    obtain ⟨cancelled, hcancel⟩ := cancel_changes s token
    rw [hcancel]
    exact ⟨cancelled, rfl⟩
  · exact ⟨s.cancelled, rfl⟩

theorem openPager_changes (s : State) (kind : PagerKind) (pager : Pager) (token : Option Token) :
    ∃ cancelled layer, layer.token = token ∧ s.openPager kind pager token =
      { s with cancelled, lastPager := s.lastPager + 1, layer := some (.pager layer) } := by
  obtain ⟨cancelled, hclose⟩ := closeLayer_changes s
  unfold openPager
  rw [hclose]
  exact ⟨cancelled, _, rfl, rfl⟩

theorem relist_changes (s : State) (previous : List Monitored) (containers : List Container) :
    ∃ monitor nextToken, (s.relist previous containers).1 = { s with monitor, nextToken } := by
  induction containers generalizing s previous with
  | nil => exact ⟨s.monitor, s.nextToken, rfl⟩
  | cons c rest ih =>
      unfold relist
      simp only
      split
      · exact ih s _
      · exact ih ((s.freshToken.2).subscribe c.id s.freshToken.1) _

theorem drop_changes (s : State) (m : Monitored) :
    ∃ monitor cancelled, s.drop m = { s with monitor, cancelled } := by
  unfold drop
  split
  · next token _ =>
    obtain ⟨cancelled, hcancel⟩ := cancel_changes (s.unsubscribe m.id) token
    rw [hcancel]
    exact ⟨_, cancelled, rfl⟩
  · exact ⟨s.monitor, s.cancelled, rfl⟩

theorem drops_changes (gone : List Monitored) (s : State) :
    ∃ monitor cancelled, gone.foldl drop s = { s with monitor, cancelled } := by
  induction gone generalizing s with
  | nil => exact ⟨s.monitor, s.cancelled, rfl⟩
  | cons m gone ih =>
      obtain ⟨monitor, cancelled, hdrop⟩ := drop_changes s m
      rw [List.foldl_cons, hdrop]
      exact ih { s with monitor, cancelled }

theorem relist_opens {s : State} {previous : List Monitored} {containers : List Container}
    {cmd : Cmd} (h : cmd ∈ (s.relist previous containers).2.2.2) :
    ∃ id token, cmd = .openStats (.monitor id) id token := by
  induction containers generalizing s previous with
  | nil => cases h
  | cons c rest ih =>
      unfold relist at h
      simp only at h
      split at h
      · exact ih h
      · rcases List.mem_cons.mp h with hopen | hlater
        · exact ⟨_, _, hopen⟩
        · exact ih hlater

/-- What a list of the containers does to a session of the monitor. -/
def relisted (s : State) (containers : List Container) : Step :=
  let listed := s.relist s.monitoredRows (containers.filter Container.isRunning)
  ((listed.2.1.foldl drop listed.1).setRows .monitor listed.2.2.1, listed.2.2.2)

theorem relisted_changes (s : State) (containers : List Container) :
    ∃ tables monitor nextToken cancelled, (s.relisted containers).1 =
      { s with tables, monitor, nextToken, cancelled } := by
  obtain ⟨monitor, nextToken, hrelist⟩ :=
    relist_changes s s.monitoredRows (containers.filter Container.isRunning)
  unfold relisted
  simp only [hrelist]
  obtain ⟨monitor', cancelled, hdrops⟩ := drops_changes
    (s.relist s.monitoredRows (containers.filter Container.isRunning)).2.1
    { s with monitor, nextToken }
  rw [hdrops]
  exact ⟨_, monitor', nextToken, cancelled, rfl⟩

/-- While the monitor is shown, a list is taken over, and a load that was asked for meanwhile
follows. -/
theorem onMonitorListed_shown {s : State} (containers : List Container) (h : s.view = .monitor) :
    let r := ({ s with loading := s.loading.set .monitor false } : State).relisted containers
    let load := State.requestLoad { r.1 with stale := s.stale.set .monitor false } .monitor
    s.onMonitorListed containers =
      if s.stale.get .monitor then (load.1, r.2 ++ load.2) else r := by
  let s' : State := { s with loading := s.loading.set .monitor false }
  obtain ⟨tables, monitor, nextToken, cancelled, hrelisted⟩ := relisted_changes s' containers
  have hstale : (s'.relisted containers).1.stale = s.stale := by rw [hrelisted]
  have hlisted : s.onMonitorListed containers =
      if (s'.relisted containers).1.stale.get .monitor then
        let load := State.requestLoad { (s'.relisted containers).1 with
          stale := (s'.relisted containers).1.stale.set .monitor false } .monitor
        (load.1, (s'.relisted containers).2 ++ load.2)
      else s'.relisted containers := by
    have hhere : ¬ (s.view != .monitor) = true := by simpa using h
    exact if_neg hhere
  rw [hlisted, hstale]

theorem onMonitorListed_cases {s : State} (containers : List Container) (h : s.view = .monitor) :
    let r := ({ s with loading := s.loading.set .monitor false } : State).relisted containers
    s.onMonitorListed containers = r ∨
      ∃ stale, let load := State.requestLoad { r.1 with stale } .monitor
        s.onMonitorListed containers = (load.1, r.2 ++ load.2) := by
  rw [onMonitorListed_shown containers h]
  split
  · exact Or.inr ⟨_, rfl⟩
  · exact Or.inl rfl

/-- A list that comes after the monitor was left is dropped. -/
theorem onMonitorListed_left {s : State} (containers : List Container) (h : s.view ≠ .monitor) :
    s.onMonitorListed containers =
      ({ s with loading := s.loading.set .monitor false } : State).noCmds := by
  have hleft : (s.view != .monitor) = true := by simpa using h
  unfold onMonitorListed
  simp only [hleft, if_true]

theorem onMonitorListed_changes (s : State) (containers : List Container) :
    (∃ tables loading stale monitor nextToken cancelled, (s.onMonitorListed containers).1 =
      { s with tables, loading, stale, monitor, nextToken, cancelled }) ∧
    ∀ cmd ∈ (s.onMonitorListed containers).2,
      cmd = .listMonitor ∨ ∃ id token, cmd = .openStats (.monitor id) id token := by
  by_cases hview : s.view = .monitor
  · let s' : State := { s with loading := s.loading.set .monitor false }
    obtain ⟨tables, monitor, nextToken, cancelled, hrelisted⟩ := relisted_changes s' containers
    have hopens : ∀ cmd ∈ (s'.relisted containers).2,
        cmd = .listMonitor ∨ ∃ id token, cmd = .openStats (.monitor id) id token :=
      fun cmd hcmd => Or.inr (relist_opens hcmd)
    rcases onMonitorListed_cases containers hview with hlisted | ⟨stale, hlisted⟩
    · rw [hlisted]
      exact ⟨⟨tables, s'.loading, s.stale, monitor, nextToken, cancelled, hrelisted⟩, hopens⟩
    · obtain ⟨loading', stale', hload⟩ :=
        requestLoad_changes { (s'.relisted containers).1 with stale } .monitor
      rw [hlisted]
      refine ⟨⟨tables, loading', stale', monitor, nextToken, cancelled, ?_⟩, fun cmd hcmd => ?_⟩
      · refine hload.trans ?_
        rw [hrelisted]
      · rcases List.mem_append.mp hcmd with hcmd | hcmd
        · exact hopens cmd hcmd
        · exact Or.inl (mem_requestLoad hcmd)
  · rw [onMonitorListed_left containers hview]
    exact ⟨⟨_, _, _, _, _, _, rfl⟩, fun cmd hcmd => by cases hcmd⟩

theorem updateMonitored_changes (s : State) (id : String) (change : Monitored → Monitored) :
    ∃ tables, s.updateMonitored id change = { s with tables } := by
  unfold updateMonitored
  split
  · exact ⟨_, rfl⟩
  · exact ⟨s.tables, rfl⟩

theorem onSample_changes (s : State) (id : String) (sample : Sample) (rest : Feed Sample) :
    (∃ tables, (s.onSample (.monitor id) sample rest).1 = { s with tables }) ∧
    ∀ cmd ∈ (s.onSample (.monitor id) sample rest).2,
      ∃ token, cmd = .readStats (.monitor id) rest token := by
  simp only [onSample]
  split
  · exact ⟨⟨s.tables, rfl⟩, fun cmd hcmd => by cases hcmd⟩
  · next token _ =>
    refine ⟨updateMonitored_changes s id _, fun cmd hcmd => ⟨token, ?_⟩⟩
    exact List.mem_singleton.mp hcmd

theorem onStatsEnded_changes (s : State) (id : String) (error : Option String) :
    (∃ tables monitor, (s.onStatsEnded (.monitor id) error).1 = { s with tables, monitor }) ∧
    (s.onStatsEnded (.monitor id) error).2 = [] := by
  simp only [onStatsEnded]
  split
  · exact ⟨⟨s.tables, s.monitor, rfl⟩, rfl⟩
  · obtain ⟨tables, hupdate⟩ := updateMonitored_changes (s.unsubscribe id) id fun m =>
      { m with ended := some (error.getD "ended") }
    exact ⟨⟨tables, _, hupdate⟩, rfl⟩

theorem onLoaded_changes (s : State) (view : View) (scope : Option TaskScope) (rows : List Row) :
    (∃ tables loading stale, (s.onLoaded view scope rows).1 = { s with tables, loading, stale }) ∧
    ∀ cmd ∈ (s.onLoaded view scope rows).2, cmd = s.loadCmd view := by
  unfold onLoaded
  split
  · exact ⟨⟨s.tables, s.loading, s.stale, rfl⟩, fun cmd hcmd => by cases hcmd⟩
  · simp only
    split
    · constructor
      · obtain ⟨loading, stale, hload⟩ := requestLoad_changes _ view
        rw [hload]
        exact ⟨_, loading, stale, rfl⟩
      · intro cmd hcmd
        have hload := mem_requestLoad hcmd
        exact hload
    · exact ⟨⟨_, _, _, rfl⟩, fun cmd hcmd => by cases hcmd⟩

theorem onMonitorTick_changes (s : State) (epoch : Nat) :
    ∃ loading stale, (s.onMonitorTick epoch).1 = { s with loading, stale } := by
  unfold onMonitorTick
  split
  · exact requestLoad_changes s .monitor
  · exact ⟨s.loading, s.stale, rfl⟩

theorem onPagerText_changes (s : State) (id : Nat) (text : List Char) (next : Token → Cmd) :
    (∃ layer, (s.onPagerText id text next).1 = { s with layer }) ∧
    ∀ cmd ∈ (s.onPagerText id text next).2, ∃ token, cmd = next token := by
  unfold onPagerText
  split
  · exact ⟨⟨s.layer, rfl⟩, fun cmd hcmd => by cases hcmd⟩
  · simp only
    split
    · next token _ =>
      split
      · exact ⟨⟨_, rfl⟩, fun cmd hcmd => by cases hcmd⟩
      · exact ⟨⟨_, rfl⟩, fun cmd hcmd => ⟨token, List.mem_singleton.mp hcmd⟩⟩
    · exact ⟨⟨_, rfl⟩, fun cmd hcmd => by cases hcmd⟩

theorem onPagerEnded_changes (s : State) (id : Nat) (error : Option String) :
    ∃ layer, s.onPagerEnded id error = ({ s with layer }, []) := by
  unfold onPagerEnded
  split
  · exact ⟨s.layer, rfl⟩
  · exact ⟨_, rfl⟩

theorem noteChange_changes (s : State) (event : DaemonEvent) :
    ∃ debouncer, (s.noteChange event).1 = { s with debouncer } := by
  unfold noteChange
  split
  · exact ⟨s.debouncer, rfl⟩
  · exact ⟨_, rfl⟩

/-- A change is reported after a while, and nothing else comes of it at once. -/
theorem mem_noteChange {s : State} {event : DaemonEvent} {cmd : Cmd}
    (h : cmd ∈ (s.noteChange event).2) : ∃ after, cmd = .timer after .debounceElapsed := by
  unfold noteChange at h
  split at h
  · cases h
  · obtain ⟨after, -, heq⟩ := Option.map_eq_some_iff.mp (Option.mem_toList.mp h)
    exact ⟨after, heq.symm⟩

theorem pagerLayer?_eq_some {s : State} {id : Nat} {layer : PagerLayer}
    (h : s.pagerLayer? id = some layer) : s.layer = some (.pager layer) := by
  unfold pagerLayer? at h
  split at h
  · next found hlayer =>
    split at h
    · cases h
      exact hlayer
    · cases h
  · cases h

end State

end Dockboard
