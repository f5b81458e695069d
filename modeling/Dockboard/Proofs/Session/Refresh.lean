import Dockboard.Proofs.Session.Loads
import Dockboard.Proofs.Session.Requests
import Dockboard.Proofs.Session.Rows

set_option autoImplicit false

/-! # Requests that are answered

No request for a view is lost while the view stays active: once the view is not loading any more,
its table holds the rows of a load that was issued when it was asked for, or later. A load that is
under way then may be older; the view is marked stale, and loaded again when the old load has ended.

    row.outline            a row of the monitor without its samples; other rows as they are
    Presents s v msg       the table of `v` holds the rows that `msg` has brought
    Upkeep s v msg? r      what a step does about the loads of an active view
    Awaits v n later x     a load of `v` numbered `n` or later is to come, or has ended in `later`
-/

namespace Dockboard

open Dockboard.Stream

theorem Msg.isReport_of_lands? {msg : Msg} {view : View} (h : msg.lands? = some view) :
    msg.isReport = true := by
  cases msg <;> first | rfl | cases h

theorem Msg.lands?_of_pager? {msg : Msg} {id : Nat} (h : msg.pager? = some id) :
    msg.lands? = none := by
  cases msg <;> first | rfl | cases h

/-! ## Rows without samples -/

/-- A row without what has been read of its container. -/
def Row.outline : Row → Row
  | .monitored m => .monitored { id := m.id, name := m.name }
  | row => row

/-- The row of a container of which nothing has been read. -/
def Container.outline (c : Container) : Row := .monitored { id := c.id, name := c.name }

namespace State

/-- Every listed container has one row, in the order of the list. -/
theorem relist_outline (s : State) (previous : List Monitored) (containers : List Container) :
    (s.relist previous containers).2.2.1.map Row.outline = containers.map Container.outline := by
  induction containers generalizing s previous with
  | nil => rfl
  | cons c rest ih =>
      unfold relist
      simp only
      split
      · next m hkept =>
        -- The row that was found again is that of the container.
        have hold := (Option.filter_eq_some_iff.mp hkept).1
        have hid : m.id = c.id := by simpa using List.find?_some hold
        simp only [List.map_cons, ih, Row.outline, Container.outline, hid]
      · simp only [List.map_cons, ih, Row.outline, Container.outline]

theorem changeRow_outline {id : String} {change : Monitored → Monitored}
    (hchange : ∀ m, (Row.monitored (change m)).outline = (Row.monitored m).outline)
    {rows changed : List Row} (h : changeRow id change rows = some changed) :
    changed.map Row.outline = rows.map Row.outline := by
  induction rows generalizing changed with
  | nil => cases h
  | cons row rows ih =>
      unfold changeRow at h
      split at h
      · split at h
        · next m _ =>
          cases h
          rw [List.map_cons, hchange, List.map_cons]
        · cases h
      · obtain ⟨rest, hrest, rfl⟩ := Option.map_eq_some_iff.mp h
        rw [List.map_cons, ih hrest, List.map_cons]

/-! ## What a table holds -/

/-- The table of a view holds the rows that a message has brought, sorted if the view is. The
monitor has a row for each container that was listed as running. -/
def Presents (s : State) (view : View) : Msg → Prop
  | .loaded other _ rows =>
      other = view ∧ view ≠ .monitor ∧ Arranges (s.sorted.get view) (s.rows view) rows
  | .monitorListed containers =>
      view = .monitor ∧ Arranges (s.sorted.get view) ((s.rows view).map Row.outline)
        ((containers.filter Container.isRunning).map Container.outline)
  | _ => False

theorem Presents.keeps {s s' : State} {view : View} {msg : Msg} (h : s.Presents view msg)
    (hkeeps : Keeps s s' view) : s'.Presents view msg := by
  cases msg with
  | loaded other scope rows =>
      obtain ⟨hother, hview, hrows⟩ := h
      exact ⟨hother, hview, hkeeps.arranged.trans hrows hkeeps.sorted⟩
  | monitorListed containers =>
      obtain ⟨hview, hrows⟩ := h
      exact ⟨hview, (hkeeps.arranged.map Row.outline).trans hrows hkeeps.sorted⟩
  | _ => cases h

/-- What has been read of a container does not matter. -/
theorem Presents.updateMonitored {s : State} {view : View} {msg : Msg} (h : s.Presents view msg)
    (id : String) {change : Monitored → Monitored}
    (hchange : ∀ m, (Row.monitored (change m)).outline = (Row.monitored m).outline) :
    (s.updateMonitored id change).Presents view msg := by
  unfold State.updateMonitored
  split
  · next changed hchanged =>
    have houtline := changeRow_outline hchange hchanged
    cases msg with
    | loaded other scope rows =>
        obtain ⟨hother, hview, hrows⟩ := h
        refine ⟨hother, hview, ?_⟩
        rw [setRows_rows_of_ne hview.symm]
        exact hrows
    | monitorListed containers =>
        obtain ⟨rfl, hrows⟩ := h
        have hset := (setRows_arranges s .monitor changed).map Row.outline
        rw [houtline] at hset
        exact ⟨rfl, hset.trans hrows fun hsorted => hsorted⟩
    | _ => cases h
  · exact h

theorem onSample_presents {s : State} {view : View} {msg : Msg} (h : s.Presents view msg)
    (id : String) (sample : Sample) (rest : Feed Sample) :
    (s.onSample (.monitor id) sample rest).1.Presents view msg := by
  simp only [onSample]
  split
  · exact h
  · exact h.updateMonitored id fun _ => rfl

theorem onStatsEnded_presents {s : State} {view : View} {msg : Msg} (h : s.Presents view msg)
    (id : String) (error : Option String) :
    (s.onStatsEnded (.monitor id) error).1.Presents view msg := by
  simp only [onStatsEnded]
  split
  · exact h
  · have hkept : (s.unsubscribe id).Presents view msg := h.keeps (.of_eq rfl rfl)
    exact hkept.updateMonitored id fun _ => rfl

theorem relisted_presents (s : State) (containers : List Container) :
    (s.relisted containers).1.Presents .monitor (.monitorListed containers) := by
  let listed := s.relist s.monitoredRows (containers.filter Container.isRunning)
  have hset := setRows_arranges (listed.2.1.foldl drop listed.1) .monitor listed.2.2.1
  have houtline := hset.map Row.outline
  rw [relist_outline s s.monitoredRows] at houtline
  exact ⟨rfl, houtline⟩

/-! ## What a step does about the loads of an active view -/

/-- What a step does about the loads of a view that stays the active one. -/
inductive Upkeep (s : State) (view : View) (msg? : Option Msg) (r : Step) : Prop where
  /-- The view is asked for, perhaps because that was not done before. -/
  | requested (h : Requested view r)
  /-- The step has to do with other things. -/
  | kept (hother : msg?.bind Msg.lands? ≠ some view)
      (hloading : r.1.loading.get view = s.loading.get view)
      (hstale : r.1.stale.get view = s.stale.get view)
      (hload : r.1.loadCmd view = s.loadCmd view)
      (hpresents : ∀ msg, s.Presents view msg → r.1.Presents view msg)
  /-- A load of it ends, and it was not asked for meanwhile. -/
  | landed (msg : Msg) (hmsg : msg? = some msg) (hlands : msg.lands? = some view)
      (hstale : s.stale.get view = false) (hloading : r.1.loading.get view = false)
      (hload : r.1.loadCmd view = s.loadCmd view) (hpresents : r.1.Presents view msg)

/-- The load of a view that lists no tasks depends on the flag for all containers only. -/
theorem loadCmd_congr {s s' : State} {view : View} (hlist : view.isTaskView = false)
    (hall : s'.showAll = s.showAll) : s'.loadCmd view = s.loadCmd view := by
  simp only [loadCmd, hlist, hall, Bool.false_eq_true, if_false]

theorem Upkeep.of_keeps {s : State} {view : View} {msg? : Option Msg} {r : Step}
    (hlist : view.isTaskView = false)
    (hother : msg?.bind Msg.lands? ≠ some view)
    (hloading : r.1.loading = s.loading) (hstale : r.1.stale = s.stale)
    (hall : r.1.showAll = s.showAll) (hkeeps : Keeps s r.1 view) : Upkeep s view msg? r :=
  .kept hother (by rw [hloading]) (by rw [hstale]) (loadCmd_congr hlist hall)
    fun _ hpresents => hpresents.keeps hkeeps

theorem Upkeep.after {s s' : State} {view : View} {msg? : Option Msg} {r : Step}
    (h : Upkeep s' view msg? r) (hlist : view.isTaskView = false) (haside : Aside s s') :
    Upkeep s view msg? r := by
  have hloading : s'.loading = s.loading := congrArg Core.loading haside.core
  have hstale : s'.stale = s.stale := congrArg Core.stale haside.core
  have hload := loadCmd_congr hlist (congrArg Core.showAll haside.core)
  cases h with
  | requested h => exact .requested h
  | kept hother hloading' hstale' hload' hpresents =>
      refine .kept hother ?_ ?_ (hload'.trans hload) fun msg h => ?_
      · rw [hloading', hloading]
      · rw [hstale', hstale]
      · exact hpresents msg (h.keeps (haside.rows view))
  | landed msg hmsg hlands hstale' hloading' hload' hpresents =>
      rw [hstale] at hstale'
      exact .landed msg hmsg hlands hstale' hloading' (hload'.trans hload) hpresents

theorem Move.upkeep {s : State} {view : View} {msg? : Option Msg} {r : Step} (h : Move s r)
    (hlist : view.isTaskView = false) (hbefore : s.view = view) (hafter : r.1.view = view)
    (hother : msg?.bind Msg.lands? ≠ some view) : Upkeep s view msg? r := by
  have hpager (s' : State) (kind : PagerKind) (pager : Pager) (token : Option Token)
      (cmds : List Cmd) (haside : s' = { s with nextToken := s'.nextToken }) :
      Upkeep s view msg? (s'.openPager kind pager token, cmds) := by
    obtain ⟨cancelled, layer, -, hopen⟩ := openPager_changes s' kind pager token
    rw [hopen, haside]
    exact .of_keeps hlist hother rfl rfl rfl (.of_eq rfl rfl)
  cases h with
  | nothing cmds hidle => exact .of_keeps hlist hother rfl rfl rfl (.of_eq rfl rfl)
  | load first hidle =>
      subst hbefore
      exact .requested ((requestLoad_requested rfl hlist).prepend first)
  | toggle hview =>
      subst hbefore
      exact .requested (requestLoad_requested rfl hlist)
  | switch target =>
      rw [switchView_view] at hafter
      subst hafter
      exact .requested (switchView_requested s hlist)
  | tasks scope =>
      rw [← hafter, enterTaskView_view] at hlist
      cases hlist
  | opened kind pager hkind => exact hpager s kind pager none [] rfl
  | logs target => exact hpager s.freshToken.2 _ _ _ _ rfl
  | stats target => exact hpager s.freshToken.2 _ _ _ _ rfl
  | closed =>
      obtain ⟨cancelled, hclose⟩ := closeLayer_changes s
      rw [hclose]
      exact .of_keeps hlist hother rfl rfl rfl (.of_eq rfl rfl)

theorem onLoaded_upkeep {s : State} {view : View} (hlist : view.isTaskView = false)
    (hactive : s.view = view) (hview : view ≠ .monitor) (scope : Option TaskScope)
    (rows : List Row) :
    Upkeep s view (some (.loaded view scope rows)) (s.onLoaded view scope rows) := by
  unfold onLoaded
  simp only [hlist, Bool.false_and, Bool.false_eq_true, if_false]
  split
  · exact .requested (requestLoad_requested hactive hlist)
  · next hidle =>
    have hstale : s.stale.get view = false := by
      simpa [hactive, setRows, State.modifyTable] using hidle
    exact .landed _ rfl rfl hstale (ByView.get_set_self _ _ _) (loadCmd_congr hlist rfl)
      ⟨rfl, hview, setRows_arranges { s with loading := s.loading.set view false } view rows⟩

/-- Rows of another view make no difference. -/
theorem onLoaded_kept {s : State} {view other : View} (hlist : view.isTaskView = false)
    (hactive : s.view = view) (hother : other ≠ view) (scope : Option TaskScope)
    (rows : List Row) :
    Upkeep s view (some (.loaded other scope rows)) (s.onLoaded other scope rows) := by
  have hlands : (some (Msg.loaded other scope rows)).bind Msg.lands? ≠ some view :=
    fun heq => hother (Option.some.inj heq)
  unfold onLoaded
  split
  · exact .of_keeps hlist hlands rfl rfl rfl (.of_eq rfl rfl)
  · simp only
    split
    · next hagain =>
      have hview := eq_of_beq (Bool.and_eq_true_iff.mp hagain).2
      exact absurd (hview.trans hactive) hother
    · have htables : (s.setRows other rows).tables.get view = s.tables.get view := by
        show (s.tables.modify other _).get view = _
        rw [ByView.get_modify, if_neg hother]
      exact .kept hlands (ByView.get_set_of_ne hother _ _) (ByView.get_set_of_ne hother _ _)
        (loadCmd_congr hlist rfl) fun msg h => h.keeps (.of_eq htables rfl)

theorem onMonitorListed_upkeep {s : State} (hactive : s.view = .monitor)
    (containers : List Container) :
    Upkeep s .monitor (some (.monitorListed containers)) (s.onMonitorListed containers) := by
  let s' : State := { s with loading := s.loading.set .monitor false }
  obtain ⟨tables, monitor, nextToken, cancelled, hrelisted⟩ := relisted_changes s' containers
  rw [onMonitorListed_shown containers hactive]
  split
  · have hview : (s'.relisted containers).1.view = .monitor := by
      rw [hrelisted]
      exact hactive
    exact .requested ((requestLoad_requested (by exact hview) rfl).prepend _)
  · next hidle =>
    refine .landed _ rfl rfl (by simpa using hidle) ?_ rfl (relisted_presents s' containers)
    show (s'.relisted containers).1.loading.get .monitor = false
    rw [hrelisted]
    exact ByView.get_set_self _ _ _

/-- **Events and an active view.** -/
theorem Reaction.upkeep {s : State} {view : View} {msg? : Option Msg} {r : Step}
    (h : Reaction s msg? r) (hlist : view.isTaskView = false) (hbefore : s.view = view)
    (hafter : r.1.view = view) (hfailed : ∀ error, msg? ≠ some (.loadFailed view error))
    (hlisted : ∀ scope rows, msg? ≠ some (.loaded .monitor scope rows)) :
    Upkeep s view msg? r := by
  cases h with
  | calm hcalm haside hmove =>
      have hother : msg?.bind Msg.lands? ≠ some view := by
        intro hlands
        obtain ⟨msg, hmsg, hlands⟩ := Option.bind_eq_some_iff.mp hlands
        exact Bool.noConfusion ((hcalm msg hmsg).symm.trans (Msg.isReport_of_lands? hlands))
      exact (hmove.upkeep hlist (haside.view.trans hbefore) hafter hother).after hlist haside
  | loaded other scope rows =>
      have hmonitor : other ≠ .monitor := by
        rintro rfl
        exact hlisted scope rows rfl
      by_cases hother : other = view
      · subst hother
        exact onLoaded_upkeep hlist hbefore hmonitor scope rows
      · exact onLoaded_kept hlist hbefore hother scope rows
  | loadFailed other error =>
      have hother : other ≠ view := by
        rintro rfl
        exact hfailed error rfl
      exact .kept (fun hlands => hother (Option.some.inj hlands))
        (ByView.get_set_of_ne hother _ _) (ByView.get_set_of_ne hother _ _)
        (loadCmd_congr hlist rfl) fun msg h => h.keeps (.of_eq rfl rfl)
  | listed containers =>
      by_cases hmonitor : view = .monitor
      · subst hmonitor
        exact onMonitorListed_upkeep hbefore containers
      · rw [onMonitorListed_left containers (by rwa [hbefore])]
        have hother : View.monitor ≠ view := fun heq => hmonitor heq.symm
        exact .kept (fun hlands => hother (Option.some.inj hlands))
          (ByView.get_set_of_ne hother _ _) rfl (loadCmd_congr hlist rfl)
          fun msg h => h.keeps (.of_eq rfl rfl)
  | @text msg id text next hmsg hnext =>
      obtain ⟨⟨layer, htext⟩, -⟩ := onPagerText_changes s id text next
      exact .of_keeps hlist (by simp [Msg.lands?_of_pager? hmsg]) (by rw [htext]) (by rw [htext])
        (by rw [htext]) (.of_eq (by rw [htext]) (by rw [htext]))
  | @ended msg id error hmsg =>
      obtain ⟨layer, hended⟩ := onPagerEnded_changes s id error
      rw [hended]
      exact .of_keeps hlist (by simp [Msg.lands?_of_pager? hmsg]) rfl rfl rfl (.of_eq rfl rfl)
  | sample id sample rest =>
      have hpresents {msg : Msg} (h : s.Presents view msg) := onSample_presents h id sample rest
      obtain ⟨⟨tables, hsample⟩, -⟩ := onSample_changes s id sample rest
      exact .kept nofun (by rw [hsample]) (by rw [hsample]) (loadCmd_congr hlist (by rw [hsample]))
        fun msg h => hpresents h
  | sampleEnd id error =>
      have hpresents {msg : Msg} (h : s.Presents view msg) := onStatsEnded_presents h id error
      obtain ⟨⟨tables, monitor, hended⟩, -⟩ := onStatsEnded_changes s id error
      exact .kept nofun (by rw [hended]) (by rw [hended]) (loadCmd_congr hlist (by rw [hended]))
        fun msg h => hpresents h
  | tick epoch =>
      unfold onMonitorTick
      split
      · next hcurrent =>
        have hview : view = .monitor := hbefore.symm.trans hcurrent.1
        subst hview
        exact .requested ((requestLoad_requested hbefore hlist).append _)
      · exact .of_keeps hlist nofun rfl rfl rfl (.of_eq rfl rfl)

end State

/-! ## Runs -/

namespace System

/-- A load of a view that is numbered `n` or later is to come; or it has ended, and the view has not
been asked for since. -/
inductive Awaits (view : View) (n : Nat) (later : History) (x : System) : Prop where
  | coming (hloading : x.state.loading.get view = true)
      (hload : x.state.stale.get view = true ∨
        ∃ number, n ≤ number ∧ (x.state.loadCmd view, number) ∈ x.pending)
  | landed (hloading : x.state.loading.get view = false) (z : System) (number : Nat) (msg : Msg)
      (hload : (z, .answer (x.state.loadCmd view) number msg) ∈ later) (hnumber : n ≤ number)
      (hpresents : x.state.Presents view msg)

/-- A view that is asked for is going to be loaded. -/
theorem awaits_of_requested {x : System} {event : Event} {view : View}
    (h : State.Requested view (x.state.react event)) {n : Nat} (hn : n ≤ x.issued)
    (later : History) : Awaits view n later (x.after event) := by
  refine .coming h.loading (h.request.imp_right fun hload => ?_)
  rw [← List.zipIdx_map_fst x.issued (x.state.react event).2] at hload
  obtain ⟨⟨cmd, number⟩, hissued, rfl⟩ := List.mem_map.mp hload
  exact ⟨number, Nat.le_trans hn (List.le_snd_of_mem_zipIdx hissued),
    List.mem_append_right _ hissued⟩

/-- **One event.** As long as the view is active, what has been asked for is to come or has come. -/
theorem Awaits.after {x : System} {event : Event} {view : View} {n : Nat} {later : History}
    (h : x.Awaits view n later) (hn : n ≤ x.issued) {ended : List Nat}
    (horderly : Orderly view ended x) (hnumbered : x.Numbered) (allowed : x.Allows event)
    (hupkeep : State.Upkeep x.state view event.msg? (x.state.react event)) :
    (x.after event).Awaits view n (later ++ [(x, event)]) := by
  cases hupkeep with
  | requested hrequested => exact awaits_of_requested hrequested hn _
  | kept hother hloading hstale hload hpresents =>
      cases h with
      | coming hbefore hcoming =>
          refine .coming (hloading.trans hbefore) (hcoming.imp (fun h => hstale.trans h) ?_)
          rintro ⟨number, hnumber, hmem⟩
          -- The load that is under way is not answered by this event.
          have hleft : (x.state.loadCmd view, number) ∈ x.left event := by
            rcases hnumbered.left_or_answer allowed hmem with hleft | ⟨msg, rfl⟩
            · exact hleft
            · have hlands := allowed.2.lands?_eq.trans (State.loadCmd_loads? x.state view)
              exact absurd hlands hother
          have hafter : (x.after event).state.loadCmd view = x.state.loadCmd view := hload
          rw [hafter]
          exact ⟨number, hnumber, List.mem_append_left _ hleft⟩
      | landed hbefore z number msg hmem hnumber hshown =>
          refine .landed (hloading.trans hbefore) z number msg ?_ hnumber (hpresents msg hshown)
          have hafter : (x.after event).state.loadCmd view = x.state.loadCmd view := hload
          rw [hafter]
          exact List.mem_append_left _ hmem
  | landed msg hmsg hlands hstale hloading hload hpresents =>
      obtain ⟨cmd, number, rfl, hmem, hloads⟩ := answer_of_lands allowed hmsg hlands
      cases h with
      | coming hbefore hcoming =>
          rcases hcoming with hmarked | ⟨awaited, hawaited, hpending⟩
          · rw [hstale] at hmarked
            cases hmarked
          · -- It is the only load of the view that was under way.
            obtain ⟨heq, -⟩ := horderly.one_load hmem hpending hloads
              (State.loadCmd_loads? x.state view)
            cases heq
            have hafter : (x.after (.answer (x.state.loadCmd view) number msg)).state.loadCmd view =
                x.state.loadCmd view := hload
            refine .landed hloading x number msg ?_ hawaited hpresents
            rw [hafter]
            exact List.mem_append_right _ (List.mem_singleton_self _)
      | landed hbefore z other found hfound hnumber hshown =>
          obtain ⟨-, hunder⟩ := horderly.one_load hmem hmem hloads hloads
          rw [hbefore] at hunder
          cases hunder

end System

namespace Run

variable {config : Config} {now : Int} {earlier later : History} {y x : System} {event : Event}

theorem issued_le (h : Run config now (earlier ++ (y, event) :: later) x) : y.issued ≤ x.issued :=
  h.since (motive := fun _ x => y.issued ≤ x.issued) (Nat.le_add_right _ _)
    fun _ _ _ _ _ ih => Nat.le_trans ih (Nat.le_add_right _ _)

theorem awaits (h : Run config now (earlier ++ (y, event) :: later) x) {view : View}
    (hlist : view.isTaskView = false) (hasks : y.state.Asks view event)
    (hactive : ∀ p ∈ later, p.1.state.view = view) (hview : x.state.view = view)
    (hfailed : ∀ p ∈ later, ∀ error, p.2.msg? ≠ some (.loadFailed view error)) :
    x.Awaits view y.issued later := by
  refine h.since (motive := fun later x => (∀ p ∈ later, p.1.state.view = view) →
    x.state.view = view → (∀ p ∈ later, ∀ error, p.2.msg? ≠ some (.loadFailed view error)) →
      x.Awaits view y.issued later) ?_ ?_ hactive hview hfailed
  · intro _ _ _
    exact System.awaits_of_requested (hasks.requested hlist) (Nat.le_refl _) []
  · intro later z next run allowed ih hactive hview hfailed
    obtain ⟨hbefore, hlast⟩ := List.forall_mem_append.mp hactive
    obtain ⟨hnone, hnext⟩ := List.forall_mem_append.mp hfailed
    have hz : z.state.view = view := hlast (z, next) (List.mem_singleton_self _)
    have hupkeep := (State.react_reaction z.state next).upkeep hlist hz hview
      (List.forall_mem_singleton.mp hnext) (run.not_loaded allowed)
    exact (ih hbefore hz hnone).after run.issued_le (run.orderly hlist) run.numbered allowed hupkeep

/-- **No request is lost.** A view that lists no tasks is asked for by an event that finds it active
or makes it so. From then on it stays active, and no load of it fails. As soon as it is not marked
as loading, a load of it has been answered that was issued by this event or later, with the current
flag for all containers. Its table holds the rows of the answer, sorted if the view is; the monitor
has one row for each container that was listed as running. -/
theorem request_not_lost (h : Run config now (earlier ++ (y, event) :: later) x) {view : View}
    (hlist : view.isTaskView = false) (hasks : y.state.Asks view event)
    (hactive : ∀ p ∈ later, p.1.state.view = view) (hview : x.state.view = view)
    (hfailed : ∀ p ∈ later, ∀ error, p.2.msg? ≠ some (.loadFailed view error))
    (hdone : x.state.loading.get view = false) :
    ∃ z cmd number msg, (z, .answer cmd number msg) ∈ later ∧ y.issued ≤ number ∧
      cmd = (if view = .monitor then .listMonitor else .load view x.state.showAll none) ∧
      x.state.Presents view msg := by
  cases h.awaits hlist hasks hactive hview hfailed with
  | coming hloading hload =>
      rw [hdone] at hloading
      cases hloading
  | landed hloading z number msg hload hnumber hpresents =>
      refine ⟨z, x.state.loadCmd view, number, msg, hload, hnumber, ?_, hpresents⟩
      simp only [State.loadCmd, hlist, Bool.false_eq_true, if_false]

/-- All containers are asked for while the running ones are being loaded. -/
theorem request_not_lost_of_toggle : ∃ earlier later y x,
    Run {} 0 (earlier ++ (y, .input (.key { code := .function 2 })) :: later) x ∧
    y.state.loading.get .containers = true ∧
    y.state.Asks .containers (.input (.key { code := .function 2 })) ∧
    (∀ p ∈ later, p.1.state.view = .containers) ∧ x.state.view = .containers ∧
    (∀ p ∈ later, ∀ error, p.2.msg? ≠ some (.loadFailed .containers error)) ∧
    x.state.loading.get .containers = false ∧
    ∃ z number msg, (z, .answer (.load .containers true none) number msg) ∈ later ∧
      y.issued ≤ number ∧ x.state.Presents .containers msg := by
  have hbegun := (Run.start : Run {} 0 [] _).step .begin trivial
  have htoggled := hbegun.step (.input (.key { code := .function 2 })) rfl
  have hfirst := htoggled.step
    (.answer (.load .containers false none) 2 (.loaded .containers none []))
    ⟨List.mem_of_getElem? (i := 2) rfl, .loaded .containers false none []⟩
  have hsecond := hfirst.step
    (.answer (.load .containers true none) 3
      (.loaded .containers none [.container { id := "f00" }]))
    ⟨List.mem_of_getElem? (i := 2) rfl, .loaded .containers true none _⟩
  obtain ⟨earlier, later, y, x, hrun, hloading, hasks, hactive, hview, hfailed, hdone, hall⟩ :
      ∃ earlier later y x,
        Run {} 0 (earlier ++ (y, .input (.key { code := .function 2 })) :: later) x ∧
        y.state.loading.get .containers = true ∧
        y.state.Asks .containers (.input (.key { code := .function 2 })) ∧
        (∀ p ∈ later, p.1.state.view = .containers) ∧ x.state.view = .containers ∧
        (∀ p ∈ later, ∀ error, p.2.msg? ≠ some (.loadFailed .containers error)) ∧
        x.state.loading.get .containers = false ∧ x.state.showAll = true := by
    refine ⟨[_], [_, _], _, _, hsecond, rfl, .toggled _ rfl rfl rfl rfl rfl, ?_, rfl, ?_, rfl, rfl⟩
    · simp only [List.forall_mem_cons]
      exact ⟨rfl, rfl, fun p hp => by cases hp⟩
    · simp only [List.forall_mem_cons]
      exact ⟨nofun, nofun, fun p hp => by cases hp⟩
  obtain ⟨z, cmd, number, msg, hload, hnumber, rfl, hpresents⟩ :=
    request_not_lost hrun rfl hasks hactive hview hfailed hdone
  rw [hall] at hload
  exact ⟨earlier, later, y, x, hrun, hloading, hasks, hactive, hview, hfailed, hdone,
    z, number, msg, hload, hnumber, hpresents⟩

end Run

end Dockboard
