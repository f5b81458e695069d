import Dockboard.Proofs.Session.Reactions

set_option autoImplicit false

/-! # What asks for a view to be loaded

A view is loaded when it is entered, when the user asks for it, and when it is likely to be
outdated. If a load of it is under way already, the view is marked stale instead. In either case the
request is not forgotten: the view is loading, and it is stale or a load of it has been issued.

    Requested v r         after `r` the view `v` is active, and a load of it begins or will begin
    Asks s v event        the event asks for `v`, which is active then
-/

namespace Dockboard

open Dockboard.Stream

namespace State

/-- After a step, a view is active and marked as loading, and it is marked as stale or a load of it
is issued. -/
structure Requested (view : View) (r : Step) : Prop where
  active : r.1.view = view
  loading : r.1.loading.get view = true
  request : r.1.stale.get view = true ∨ r.1.loadCmd view ∈ r.2

theorem Requested.append {view : View} {r : Step} (h : Requested view r) (last : List Cmd) :
    Requested view (r.1, r.2 ++ last) :=
  ⟨h.active, h.loading, h.request.imp_right fun hload => List.mem_append_left _ hload⟩

theorem Requested.prepend {view : View} {r : Step} (h : Requested view r) (first : List Cmd) :
    Requested view (r.1, first ++ r.2) :=
  ⟨h.active, h.loading, h.request.imp_right fun hload => List.mem_append_right _ hload⟩

theorem requestLoad_requested {s : State} {view : View} (hactive : s.view = view)
    (hlist : view.isTaskView = false) : Requested view (s.requestLoad view) := by
  unfold requestLoad
  cases hloading : s.loading.get view with
  | true =>
      rw [if_pos rfl]
      exact ⟨hactive, hloading, Or.inl (ByView.get_set_self _ _ _)⟩
  | false =>
      simp only [Bool.false_eq_true, if_false, hlist, Bool.false_and]
      exact ⟨hactive, ByView.get_set_self _ _ _, Or.inr List.mem_cons_self⟩

theorem switchView_requested (s : State) {target : View} (hlist : target.isTaskView = false) :
    Requested target (s.switchView target) := by
  unfold switchView
  by_cases hsame : target = s.view
  · rw [if_pos hsame]
    exact requestLoad_requested hsame.symm hlist
  · simp only [hsame, if_false]
    by_cases hmonitor : target = .monitor
    · rw [if_pos hmonitor]
      subst hmonitor
      generalize (if s.view = .monitor then s.stopMonitor else s) = left
      have hload := requestLoad_requested
        (s := { left with view := .monitor, monitorEpoch := left.monitorEpoch + 1 }) rfl hlist
      exact hload.append _
    · rw [if_neg hmonitor]
      exact requestLoad_requested rfl hlist

end State

/-! ## Requests -/

/-- Whether a key without Control is that of a view. -/
def Key.selects? (key : Key) : Option View :=
  match key.code with
  | .function 8 => some .diskUsage
  | .char c => State.numberedView? c
  | _ => none

/-- An event asks for a view, which is active when it has happened. -/
inductive State.Asks (s : State) (view : View) : Event → Prop where
  /-- The view becomes the active one. -/
  | entered (event : Event) (hother : s.view ≠ view) (hview : (s.react event).1.view = view) :
      Asks s view event
  /-- Its own key is pressed, perhaps when it is active already. -/
  | selected (key : Key) (hbare : s.layer = none) (hplain : key.control = false)
      (hkey : key.selects? = some view) : Asks s view (.input (.key key))
  /-- F5 is pressed. -/
  | refreshed (key : Key) (hactive : s.view = view) (hbare : s.layer = none)
      (hplain : key.control = false) (hkey : key.code = .function 5) :
      Asks s view (.input (.key key))
  /-- F2 is pressed while the containers are shown. -/
  | toggled (key : Key) (hactive : s.view = view) (hcontainers : view = .containers)
      (hbare : s.layer = none) (hplain : key.control = false) (hkey : key.code = .function 2) :
      Asks s view (.input (.key key))
  /-- Changes have been gathered of which one outdates the view. -/
  | outdated (event : Event) (hactive : s.view = view)
      (hmsg : event.msg? = some (.alarm .debounceElapsed))
      (hkinds : s.debouncer.flush.2.any (·.affects view) = true) : Asks s view event
  /-- An operation has been carried out. -/
  | operated (event : Event) (hactive : s.view = view) (op : Operation) (detail : String)
      (hmsg : event.msg? = some (.operationDone op detail)) : Asks s view event
  /-- The timer of the monitor has fired. -/
  | ticked (event : Event) (hactive : s.view = view) (hmonitor : view = .monitor)
      (hmsg : event.msg? = some (.alarm (.monitorTick s.monitorEpoch))) : Asks s view event
  /-- The session begins its work. -/
  | begun (hactive : s.view = view) : Asks s view .begin

namespace State

theorem react_eq_step {s : State} {event : Event} {msg : Msg} (h : event.msg? = some msg) :
    s.react event = s.step msg := by
  cases event with
  | begin => cases h
  | input other =>
      cases h
      rfl
  | answer cmd number other =>
      cases h
      rfl

/-- Without a prompt or a pager, a key removes the status message and has its meaning everywhere or
in the active view. -/
theorem press_bare {s : State} (key : Key) (h : s.layer = none) :
    s.press key = (({ s with status := none } : State).pressGlobal? key).getD
      (({ s with status := none } : State).pressView key) := by
  unfold press
  split
  · next p hlayer => rw [h] at hlayer; cases hlayer
  · next layer hlayer => rw [h] at hlayer; cases hlayer
  · rfl

theorem pressGlobal?_selects (s : State) {key : Key} {view : View} (hplain : key.control = false)
    (hkey : key.selects? = some view) : s.pressGlobal? key = some (s.switchView view) := by
  unfold pressGlobal?
  rw [if_neg (by simp [hplain])]
  unfold Key.selects? at hkey
  split at hkey
  · next hcode =>
    cases hkey
    rw [hcode]
    rfl
  · next c hcode =>
    rw [hcode]
    -- The keys of the numbered views are none of those with another meaning.
    split
    · next heq => cases heq
    · next heq => cases heq
    · next heq => cases heq
    · next heq => cases heq; cases hkey
    · next heq => cases heq; cases hkey
    · next heq => cases heq; cases hkey
    · next heq => cases heq; cases hkey
    · next heq =>
      cases heq
      rw [hkey]
      rfl
    · next hother => exact absurd rfl (hother c)
  · cases hkey

theorem press_selects {s : State} {key : Key} {view : View} (hbare : s.layer = none)
    (hplain : key.control = false) (hkey : key.selects? = some view) :
    s.press key = ({ s with status := none } : State).switchView view := by
  rw [press_bare key hbare, pressGlobal?_selects _ hplain hkey]
  rfl

theorem press_refreshed {s : State} {key : Key} (hbare : s.layer = none)
    (hplain : key.control = false) (hkey : key.code = .function 5) :
    s.press key = ({ s with status := none } : State).requestLoad s.view := by
  rw [press_bare key hbare]
  unfold pressGlobal? pressView
  simp only [hplain, hkey, Bool.false_eq_true, if_false, Option.getD_none]

theorem press_toggled {s : State} {key : Key} (hbare : s.layer = none)
    (hplain : key.control = false) (hkey : key.code = .function 2) (hview : s.view = .containers) :
    s.press key =
      ({ s with status := none, showAll := !s.showAll } : State).requestLoad .containers := by
  rw [press_bare key hbare]
  unfold pressGlobal? pressView
  simp only [hplain, hkey, hview, Bool.false_eq_true, if_false, if_true, Option.getD_none]

/-- Only a change of views makes another view the active one. -/
theorem Move.view {s : State} {r : Step} (h : Move s r) : r.1.view = s.view ∨
    (∃ target, r = s.switchView target) ∨ ∃ scope, r = s.enterTaskView scope := by
  have hpager (s : State) (kind : PagerKind) (pager : Pager) (token : Option Token) :
      (s.openPager kind pager token).view = s.view := by
    obtain ⟨cancelled, layer, -, hopen⟩ := openPager_changes s kind pager token
    rw [hopen]
  cases h with
  | nothing cmds hidle => exact Or.inl rfl
  | load first hidle =>
      obtain ⟨loading, stale, hload⟩ := requestLoad_changes s s.view
      exact Or.inl (by rw [hload])
  | toggle hview =>
      obtain ⟨loading, stale, hload⟩ := requestLoad_changes { s with showAll := !s.showAll } s.view
      exact Or.inl (by rw [hload])
  | switch target => exact Or.inr (Or.inl ⟨target, rfl⟩)
  | tasks scope => exact Or.inr (Or.inr ⟨scope, rfl⟩)
  | opened kind pager hkind => exact Or.inl (hpager s kind pager none)
  | logs target => exact Or.inl (hpager s.freshToken.2 _ _ _)
  | stats target => exact Or.inl (hpager s.freshToken.2 _ _ _)
  | closed =>
      obtain ⟨cancelled, hclose⟩ := closeLayer_changes s
      refine Or.inl ?_
      show s.closeLayer.view = s.view
      rw [hclose]

theorem switchView_view (s : State) (target : View) : (s.switchView target).1.view = target := by
  obtain ⟨⟨monitorEpoch, loading, stale, hswitch⟩, -⟩ := switchView_changes s target
  rw [hswitch]

theorem enterTaskView_view (s : State) (scope : TaskScope) :
    (s.enterTaskView scope).1.view.isTaskView = true := by
  obtain ⟨previous, tables, -, henter⟩ := enterTaskView_changes s scope
  rw [henter, switchView_view]
  cases scope <;> rfl

theorem Reaction.view {s : State} {msg? : Option Msg} {r : Step} (h : Reaction s msg? r) :
    r.1.view = s.view ∨ ∃ s', Aside s s' ∧
      ((∃ target, r = s'.switchView target) ∨ ∃ scope, r = s'.enterTaskView scope) := by
  cases h with
  | @calm _ s' _ hcalm haside hmove =>
      rcases hmove.view with hsame | hchange
      · exact Or.inl (hsame.trans haside.view)
      · exact Or.inr ⟨s', haside, hchange⟩
  | loaded view scope rows =>
      obtain ⟨⟨tables, loading, stale, hloaded⟩, -⟩ := onLoaded_changes s view scope rows
      exact Or.inl (by rw [hloaded])
  | loadFailed view error => exact Or.inl rfl
  | listed containers =>
      obtain ⟨⟨tables, loading, stale, monitor, nextToken, cancelled, hlisted⟩, -⟩ :=
        onMonitorListed_changes s containers
      exact Or.inl (by rw [hlisted])
  | text id text next hmsg hnext =>
      obtain ⟨⟨layer, htext⟩, -⟩ := onPagerText_changes s id text next
      exact Or.inl (by rw [htext])
  | ended id error hmsg =>
      obtain ⟨layer, hended⟩ := onPagerEnded_changes s id error
      exact Or.inl (by rw [hended])
  | sample id sample rest =>
      obtain ⟨⟨tables, hsample⟩, -⟩ := onSample_changes s id sample rest
      exact Or.inl (by rw [hsample])
  | sampleEnd id error =>
      obtain ⟨⟨tables, monitor, hended⟩, -⟩ := onStatsEnded_changes s id error
      exact Or.inl (by rw [hended])
  | tick epoch =>
      obtain ⟨loading, stale, htick⟩ := onMonitorTick_changes s epoch
      exact Or.inl (by rw [htick])

/-- A view that becomes the active one is requested. -/
theorem Reaction.entered {s : State} {msg? : Option Msg} {r : Step} (h : Reaction s msg? r)
    (hother : r.1.view ≠ s.view) (hlist : r.1.view.isTaskView = false) :
    Requested r.1.view r := by
  rcases h.view with hsame | ⟨s', -, ⟨target, rfl⟩ | ⟨scope, rfl⟩⟩
  · exact absurd hsame hother
  · rw [switchView_view] at hlist ⊢
    exact switchView_requested s' hlist
  · rw [enterTaskView_view] at hlist
    exact Bool.noConfusion hlist

/-- **Requests.** A view that an event asks for is requested. -/
theorem Asks.requested {s : State} {view : View} {event : Event} (h : s.Asks view event)
    (hlist : view.isTaskView = false) : Requested view (s.react event) := by
  cases h with
  | entered event hother hview =>
      subst hview
      exact (react_reaction s event).entered (fun hsame => hother hsame.symm) hlist
  | selected key hbare hplain hkey =>
      show Requested view (s.press key)
      rw [press_selects hbare hplain hkey]
      exact switchView_requested _ hlist
  | refreshed key hactive hbare hplain hkey =>
      show Requested view (s.press key)
      subst hactive
      rw [press_refreshed hbare hplain hkey]
      exact requestLoad_requested rfl hlist
  | toggled key hactive hcontainers hbare hplain hkey =>
      subst hcontainers
      show Requested .containers (s.press key)
      rw [press_toggled hbare hplain hkey hactive]
      exact requestLoad_requested hactive hlist
  | outdated event hactive hmsg hkinds =>
      subst hactive
      have hload : s.react event =
          ({ s with debouncer := s.debouncer.flush.1 } : State).requestLoad s.view := by
        rw [react_eq_step hmsg]
        simp only [step, onAlarm, hkinds, if_true]
      rw [hload]
      exact requestLoad_requested rfl hlist
  | operated event hactive op detail hmsg =>
      subst hactive
      have hload := requestLoad_requested
        (s := (s.setStatus false (op.successMessage detail)).1) rfl hlist
      rw [react_eq_step hmsg]
      exact hload.prepend _
  | ticked event hactive hmonitor hmsg =>
      subst hmonitor
      have hload : s.react event = ((s.requestLoad .monitor).1,
          (s.requestLoad .monitor).2 ++ [(s.requestLoad .monitor).1.monitorTimer]) := by
        rw [react_eq_step hmsg]
        simp only [step, onAlarm, onMonitorTick, hactive, and_self, if_true]
      rw [hload]
      exact (requestLoad_requested hactive hlist).append _
  | begun hactive =>
      subst hactive
      exact (requestLoad_requested rfl hlist).prepend _

end State

end Dockboard
