import Dockboard.Proofs.Session.Listing

set_option autoImplicit false

/-! # Rows of the monitor in every state

Whatever happens to a session, the containers that the monitor reads are those of its rows that have
not ended, as long as no list names a running container twice. What each event does to the rows and
the reads is gone through here; lists, samples and their ends are the events that matter
(`Listing.lean`).
-/

namespace Dockboard

open Dockboard.Stream

namespace State

/-! ## Moves -/

theorem Tidy.of_eq {s s' : State} (h : s.Tidy)
    (htables : s'.tables.get .monitor = s.tables.get .monitor) (hmonitor : s'.monitor = s.monitor)
    (hview : s'.view ≠ .monitor → s.view ≠ .monitor) : s'.Tidy := by
  refine h.of_perm ?_ hmonitor hview
  unfold State.rows
  rw [htables]

theorem stopMonitor_rows (s : State) : s.stopMonitor.rows .monitor = [] := by
  simp only [State.rows, stopMonitor, clearRows, modifyTable]
  rw [ByView.get_modify, if_pos rfl]
  exact Table.replaceRows_rows _ _ _

theorem requestLoad_tidy {s : State} (h : s.Tidy) (view : View) : (s.requestLoad view).1.Tidy := by
  obtain ⟨loading, stale, hload⟩ := requestLoad_changes s view
  rw [hload]
  exact h.of_eq rfl rfl fun hleft => hleft

theorem switchView_tidy {s : State} (h : s.Tidy) (target : View) :
    (s.switchView target).1.Tidy := by
  obtain ⟨⟨monitorEpoch, loading, stale, hswitch⟩, -⟩ := switchView_changes s target
  rw [hswitch]
  by_cases hleave : s.view = .monitor ∧ target ≠ .monitor
  · rw [if_pos hleave]
    exact .of_empty (stopMonitor_rows s) rfl
  · rw [if_neg hleave]
    exact h.of_eq rfl rfl fun htarget hview => hleave ⟨hview, htarget⟩

theorem openPager_tidy {s : State} (h : s.Tidy) (kind : PagerKind) (pager : Pager)
    (token : Option Token) : (s.openPager kind pager token).Tidy := by
  obtain ⟨cancelled, layer, -, hopen⟩ := openPager_changes s kind pager token
  rw [hopen]
  exact h.of_eq rfl rfl fun hleft => hleft

theorem Move.tidy {s : State} {r : Step} (hmove : Move s r) (h : s.Tidy) : r.1.Tidy := by
  cases hmove with
  | nothing cmds hidle => exact h
  | load first hidle => exact requestLoad_tidy h _
  | toggle hview =>
      have htoggled : Tidy { s with showAll := !s.showAll } := h.of_eq rfl rfl fun hleft => hleft
      exact requestLoad_tidy htoggled _
  | switch target => exact switchView_tidy h target
  | tasks scope =>
      obtain ⟨previous, tables, htables, henter⟩ := enterTaskView_changes s scope
      have hforgot : Tidy { s with
          previous
          tables
          taskScope := some scope
          loading := s.loading.set scope.view false } :=
        h.of_eq htables rfl fun hleft => hleft
      rw [henter]
      exact switchView_tidy hforgot scope.view
  | opened kind pager hkind => exact openPager_tidy h kind pager none
  | logs target =>
      have hfresh : s.freshToken.2.Tidy := h.of_eq rfl rfl fun hleft => hleft
      exact openPager_tidy hfresh _ _ _
  | stats target =>
      have hfresh : s.freshToken.2.Tidy := h.of_eq rfl rfl fun hleft => hleft
      exact openPager_tidy hfresh _ _ _
  | closed =>
      obtain ⟨cancelled, hclose⟩ := closeLayer_changes s
      show s.closeLayer.Tidy
      rw [hclose]
      exact h.of_eq rfl rfl fun hleft => hleft

/-! ## Events -/

theorem onLoaded_tables {s : State} {view other : View} (h : view ≠ other)
    (scope : Option TaskScope) (rows : List Row) :
    (s.onLoaded view scope rows).1.tables.get other = s.tables.get other := by
  have hset : (s.setRows view rows).tables.get other = s.tables.get other := by
    show (s.tables.modify view _).get other = _
    rw [ByView.get_modify, if_neg h]
  unfold onLoaded
  split
  · rfl
  · simp only
    split
    · obtain ⟨loading, stale, hload⟩ := requestLoad_changes _ view
      rw [hload]
      exact hset
    · exact hset

/-- **Events and rows.** Every event keeps the rows of the monitor in order, unless a list names a
running container twice or rows are loaded that are not those of a list. -/
theorem Reaction.tidy {s : State} {msg? : Option Msg} {r : Step} (hr : Reaction s msg? r)
    (h : s.Tidy) (hs : s.Sound) (honce : ∀ msg, msg? = some msg → msg.NamesOnce)
    (hlisted : ∀ scope rows, msg? ≠ some (.loaded .monitor scope rows)) : r.1.Tidy := by
  cases hr with
  | calm hcalm haside hmove =>
      have hmonitor := congrArg Core.monitor haside.core
      exact hmove.tidy (h.of_keeps (haside.rows .monitor) hmonitor haside.view)
  | loaded view scope rows =>
      have hview : view ≠ .monitor := by
        rintro rfl
        exact hlisted scope rows rfl
      have htables := onLoaded_tables (s := s) hview scope rows
      obtain ⟨⟨tables, loading, stale, hloaded⟩, -⟩ := onLoaded_changes s view scope rows
      rw [hloaded] at htables ⊢
      exact h.of_eq htables rfl fun hleft => hleft
  | loadFailed view error => exact h.of_eq rfl rfl fun hleft => hleft
  | listed containers =>
      by_cases hview : s.view = .monitor
      · have hview' : (s.onMonitorListed containers).1.view = .monitor := by
          obtain ⟨⟨tables, loading, stale, monitor, nextToken, cancelled, hchanged⟩, -⟩ :=
            onMonitorListed_changes s containers
          rw [hchanged]
          exact hview
        have htakes := onMonitorListed_takesOver h hs hview (honce _ rfl)
        exact htakes.tidy h (honce _ rfl containers rfl) hview'
      · rw [onMonitorListed_left containers hview]
        exact h.of_eq rfl rfl fun hleft => hleft
  | text id text next hmsg hnext =>
      obtain ⟨⟨layer, htext⟩, -⟩ := onPagerText_changes s id text next
      rw [htext]
      exact h.of_eq rfl rfl fun hleft => hleft
  | ended id error hmsg =>
      obtain ⟨layer, hended⟩ := onPagerEnded_changes s id error
      rw [hended]
      exact h.of_eq rfl rfl fun hleft => hleft
  | sample id sample rest => exact onSample_tidy h id sample rest
  | sampleEnd id error => exact onStatsEnded_tidy h id error
  | tick epoch =>
      obtain ⟨loading, stale, htick⟩ := onMonitorTick_changes s epoch
      rw [htick]
      exact h.of_eq rfl rfl fun hleft => hleft

/-! ## What loads rows -/

theorem loadCmd_ne_load (s : State) (view : View) (all : Bool) (scope : Option TaskScope) :
    s.loadCmd view ≠ .load .monitor all scope := by
  rcases loadCmd_cases s view with ⟨-, hcmd⟩ | ⟨hview, scope', hcmd⟩
  · rw [hcmd]
    nofun
  · rw [hcmd]
    intro heq
    cases heq
    exact hview rfl

theorem switchView_ne_load {s : State} {target : View} {cmd : Cmd}
    (h : cmd ∈ (s.switchView target).2) (all : Bool) (scope : Option TaskScope) :
    cmd ≠ .load .monitor all scope := by
  rcases (switchView_changes s target).2 cmd h with ⟨s', rfl⟩ | ⟨after, epoch, rfl⟩
  · exact loadCmd_ne_load s' target all scope
  · nofun

theorem Move.ne_load {s : State} {r : Step} (hmove : Move s r) :
    ∀ cmd ∈ r.2, ∀ all scope, cmd ≠ .load .monitor all scope := by
  have hidle {cmd : Cmd} (h : cmd.isIdle = true) (all : Bool) (scope : Option TaskScope) :
      cmd ≠ .load .monitor all scope := by
    rintro rfl
    cases h
  have hload {s : State} {view : View} {cmd : Cmd} (h : cmd ∈ (s.requestLoad view).2) (all : Bool)
      (scope : Option TaskScope) : cmd ≠ .load .monitor all scope := by
    rw [mem_requestLoad h]
    exact loadCmd_ne_load s view all scope
  cases hmove with
  | nothing cmds hcmds => exact fun cmd hcmd => hidle (hcmds cmd hcmd)
  | load first hfirst =>
      intro cmd hcmd
      rcases List.mem_append.mp hcmd with hcmd | hcmd
      · exact hidle (hfirst cmd hcmd)
      · exact hload hcmd
  | toggle hview => exact fun cmd hcmd => hload hcmd
  | switch target => exact fun cmd hcmd => switchView_ne_load hcmd
  | tasks scope =>
      obtain ⟨previous, tables, -, henter⟩ := enterTaskView_changes s scope
      rw [henter]
      exact fun cmd hcmd => switchView_ne_load hcmd
  | opened kind pager hkind => exact fun cmd hcmd => by cases hcmd
  | logs target =>
      intro cmd hcmd
      rw [List.mem_singleton.mp hcmd]
      nofun
  | stats target =>
      intro cmd hcmd
      rw [List.mem_singleton.mp hcmd]
      nofun
  | closed => exact fun cmd hcmd => by cases hcmd

/-- The monitor is not loaded as other views are, but listed. -/
theorem Reaction.ne_load {s : State} {msg? : Option Msg} {r : Step} (hr : Reaction s msg? r) :
    ∀ cmd ∈ r.2, ∀ all scope, cmd ≠ .load .monitor all scope := by
  intro cmd hcmd all scope
  cases hr with
  | calm hcalm haside hmove => exact hmove.ne_load cmd hcmd all scope
  | loaded view scope' rows =>
      rw [(onLoaded_changes s view scope' rows).2 cmd hcmd]
      exact loadCmd_ne_load s view all scope
  | loadFailed view error =>
      rw [List.mem_singleton.mp hcmd]
      nofun
  | listed containers =>
      rcases (onMonitorListed_changes s containers).2 cmd hcmd with rfl | ⟨id, token, rfl⟩
      · nofun
      · nofun
  | text id text next hmsg hnext =>
      obtain ⟨token, rfl⟩ := (onPagerText_changes s id text next).2 cmd hcmd
      intro heq
      have hstream := hnext token
      rw [heq] at hstream
      cases hstream
  | ended id error hmsg =>
      obtain ⟨layer, hended⟩ := onPagerEnded_changes s id error
      rw [hended] at hcmd
      cases hcmd
  | sample id sample rest =>
      obtain ⟨token, rfl⟩ := (onSample_changes s id sample rest).2 cmd hcmd
      nofun
  | sampleEnd id error =>
      rw [(onStatsEnded_changes s id error).2] at hcmd
      cases hcmd
  | tick epoch =>
      unfold onMonitorTick at hcmd
      split at hcmd
      · rcases List.mem_append.mp hcmd with hcmd | hcmd
        · rw [mem_requestLoad hcmd]
          exact loadCmd_ne_load s .monitor all scope
        · rw [List.mem_singleton.mp hcmd]
          nofun
      · cases hcmd

end State

/-! ## Runs -/

namespace Run

variable {config : Config} {now : Int} {history : History} {x : System}

theorem ne_load (h : Run config now history x) :
    ∀ p ∈ x.pending, ∀ all scope, p.1 ≠ .load .monitor all scope := by
  induction h with
  | start => exact fun p hp => by cases hp
  | @step history x event run allowed ih =>
      intro p hp
      rcases List.mem_append.mp hp with hold | hnew
      · exact ih p ((x.left_sublist event).subset hold)
      · exact (State.react_reaction x.state event).ne_load p.1 (List.fst_mem_of_mem_zipIdx hnew)

/-- Rows are loaded for other views only. -/
theorem not_loaded (h : Run config now history x) {event : Event} (allowed : x.Allows event)
    (scope : Option TaskScope) (rows : List Row) :
    event.msg? ≠ some (.loaded .monitor scope rows) := by
  intro hmsg
  cases event with
  | begin => cases hmsg
  | input msg =>
      cases hmsg
      cases allowed
  | answer cmd number msg =>
      cases hmsg
      obtain ⟨hmem, hyields⟩ := allowed
      cases hyields with
      | loaded view all scope rows => exact h.ne_load _ hmem all scope rfl

theorem tidy (h : Run config now history x)
    (honce : ∀ p ∈ history, ∀ msg, p.2.msg? = some msg → msg.NamesOnce) : x.state.Tidy := by
  induction h with
  | start => exact .of_empty rfl rfl
  | @step history x event run allowed ih =>
      obtain ⟨hbefore, hlast⟩ := List.forall_mem_append.mp honce
      refine (State.react_reaction x.state event).tidy (ih hbefore) run.sound
        (List.forall_mem_singleton.mp hlast) ?_
      exact run.not_loaded allowed

/-- **Rows of the monitor.** As long as no list names a running container twice, the containers that
are read are those of the rows that have not ended, and there are neither reads nor rows while
another view is shown. The next list is taken over while the monitor is shown: every running
container has one row, in the order of the list unless rows are sorted, and keeps its sample and its
end if it had one; reads begin for the containers that had none, those of containers that run no
more are cancelled, and all others go on. -/
theorem rows_of_reads (h : Run config now history x)
    (honce : ∀ p ∈ history, ∀ msg, p.2.msg? = some msg → msg.NamesOnce) :
    (∀ id, id ∈ x.state.monitor.map Prod.fst ↔
      ∃ m ∈ x.state.monitoredRows, m.id = id ∧ m.ended = none) ∧
    (x.state.view ≠ .monitor → x.state.monitor = [] ∧ x.state.rows .monitor = []) ∧
    (x.state.view = .monitor → ∀ containers, (Msg.monitorListed containers).NamesOnce →
      let r := x.state.step (.monitorListed containers)
      x.state.TakesOver (containers.filter Container.isRunning) r ∧
        ∀ entry ∈ r.1.monitor, entry.2 ∉ r.1.cancelled) := by
  have htidy := h.tidy honce
  refine ⟨htidy.read, htidy.empty, fun hview containers hlist => ⟨?_, fun entry hentry => ?_⟩⟩
  · exact State.onMonitorListed_takesOver htidy h.sound hview hlist
  · have hsound := (State.onMonitorListed_guarded x.state containers).sound h.sound
    exact hsound.live entry.2 (List.mem_map_of_mem hentry)

/-- One container is being read when another one is listed in its place. -/
theorem rows_of_replaced : ∃ history x, Run {} 0 history x ∧
    (∀ p ∈ history, ∀ msg, p.2.msg? = some msg → msg.NamesOnce) ∧
    x.state.view = .monitor ∧ "f00" ∈ x.state.monitor.map Prod.fst ∧
    (∃ m ∈ x.state.monitoredRows, m.id = "f00" ∧ m.ended = none) ∧
    x.state.TakesOver [{ id := "bad", state := "running" }]
      (x.state.step (.monitorListed [{ id := "bad", state := "running" }])) ∧
    0 ∈ (x.state.step (.monitorListed [{ id := "bad", state := "running" }])).1.cancelled := by
  have hbegun := (Run.start : Run {} 0 [] _).step .begin trivial
  have hentered := hbegun.step (.input (.key { code := .char 'm' })) rfl
  have hlisted := hentered.step
    (.answer .listMonitor 3 (.monitorListed [{ id := "f00", state := "running" }]))
    ⟨List.mem_of_getElem? (i := 3) rfl, .monitorListed _⟩
  have honce (id : String) :
      (Msg.monitorListed [{ id := id, state := "running" }]).NamesOnce := by
    intro containers heq
    cases heq
    exact List.nodup_singleton id
  obtain ⟨history, x, hrun, hcalm, hmonitor, hview⟩ : ∃ history x, Run {} 0 history x ∧
      (∀ p ∈ history, ∀ msg, p.2.msg? = some msg → msg.NamesOnce) ∧
      x.state.monitor = [("f00", 0)] ∧ x.state.view = .monitor := by
    refine ⟨_, _, hlisted, ?_, rfl, rfl⟩
    refine List.forall_mem_append.mpr ⟨List.forall_mem_append.mpr
      ⟨List.forall_mem_singleton.mpr nofun, List.forall_mem_singleton.mpr ?_⟩,
      List.forall_mem_singleton.mpr ?_⟩
    · rintro _ ⟨⟩ containers heq
      cases heq
    · rintro _ ⟨⟩
      exact honce "f00"
  obtain ⟨hread, -, htakes⟩ := rows_of_reads hrun hcalm
  obtain ⟨htaken, -⟩ := htakes hview _ (honce "bad")
  have hentry : ("f00", 0) ∈ x.state.monitor := by
    rw [hmonitor]
    exact List.mem_singleton_self _
  have hkey : "f00" ∈ x.state.monitor.map Prod.fst := List.mem_map_of_mem hentry
  exact ⟨history, x, hrun, hcalm, hview, hkey, (hread "f00").mp hkey, htaken,
    (htaken.cancelled 0).mpr (Or.inr ⟨"f00", hentry, by decide⟩)⟩

end Run

end Dockboard
