import Dockboard.Proofs.Session.Loads
import Dockboard.Proofs.Session.Requests

set_option autoImplicit false

/-! # Tasks and their scope

Three views list tasks, those of a service, of a stack or on a node. One scope is the current one
for all three of them, and stays so when they are left. Loads of several scopes may be under way at
once; rows that arrive with a scope which is not the current one are dropped. What a step does about
the tasks of the current scope is gone through here.

    Issues cmds scopes    the commands load the tasks of these scopes
    Scoped s              a shown task view has a scope of its kind, and leads back to its list
    TaskEffect s msg? r   what a step does about the tasks of the current scope
-/

namespace Dockboard

open Dockboard.Stream

/-! ## Loads of tasks -/

/-- The scope whose tasks a command loads. -/
def Cmd.tasks? : Cmd → Option TaskScope
  | .load _ _ scope => scope
  | _ => none

/-- A task view lists a scope of its kind, and every other view lists none. -/
def View.Lists (view : View) (scope : Option TaskScope) : Prop :=
  scope.map TaskScope.view = if view.isTaskView then some view else none

/-- A load is of a scope that its view lists. -/
def Cmd.Fits : Cmd → Prop
  | .load view _ scope => view.Lists scope
  | _ => True

/-- Rows arrive with a scope that their view lists. -/
def Msg.Fits : Msg → Prop
  | .loaded view scope _ => view.Lists scope
  | _ => True

/-- A message brings tasks of a scope, or says that they could not be loaded. It may say so of
another scope of the same kind: it names the view only. -/
def Msg.Settles (scope : TaskScope) : Msg → Prop
  | .loaded _ other _ => other = some scope
  | .loadFailed view _ => view = scope.view
  | _ => False

namespace View.Lists

variable {view : View}

theorem none (hlist : view.isTaskView = false) : view.Lists none := by
  simp [Lists, hlist]

theorem view_self (scope : TaskScope) : scope.view.Lists (some scope) := by
  simp [Lists, scope.view_isTaskView]

theorem eq_view {scope : TaskScope} (h : view.Lists (some scope)) : view = scope.view := by
  unfold Lists at h
  split at h
  · exact (Option.some.inj h).symm
  · cases h

theorem exists_scope {scope? : Option TaskScope} (h : view.Lists scope?)
    (htask : view.isTaskView = true) : ∃ scope, scope? = some scope ∧ view = scope.view := by
  cases scope? with
  | none =>
      rw [Lists, if_pos htask] at h
      cases h
  | some scope => exact ⟨scope, rfl, h.eq_view⟩

end View.Lists

theorem Cmd.Yields.fits {cmd : Cmd} {msg : Msg} (h : cmd.Yields msg) (hfits : cmd.Fits) :
    msg.Fits := by
  cases h <;> first | exact hfits | exact trivial

theorem Msg.isReport_of_settles {msg : Msg} {scope : TaskScope} (h : msg.Settles scope) :
    msg.isReport = true := by
  cases msg <;> first | rfl | cases h

theorem Calm.not_settles {msg? : Option Msg} (h : Calm msg?) (scope : TaskScope) :
    ∀ msg, msg? = some msg → ¬ msg.Settles scope := by
  intro msg hmsg hsettles
  have hreport := (h msg hmsg).symm.trans (Msg.isReport_of_settles hsettles)
  cases hreport

/-- The tasks that commands load are those of the given scopes, in this order. -/
structure Issues (cmds : List Cmd) (scopes : List TaskScope) : Prop where
  tasks : cmds.filterMap Cmd.tasks? = scopes
  fits : ∀ cmd ∈ cmds, cmd.Fits

namespace Issues

theorem append {cmds more : List Cmd} {scopes others : List TaskScope} (h : Issues cmds scopes)
    (h' : Issues more others) : Issues (cmds ++ more) (scopes ++ others) :=
  ⟨by rw [List.filterMap_append, h.tasks, h'.tasks],
    List.forall_mem_append.mpr ⟨h.fits, h'.fits⟩⟩

theorem taskless {cmds : List Cmd} (h : ∀ cmd ∈ cmds, cmd.tasks? = none ∧ cmd.Fits) :
    Issues cmds [] :=
  ⟨List.filterMap_eq_nil_iff.mpr fun cmd hcmd => (h cmd hcmd).1, fun cmd hcmd => (h cmd hcmd).2⟩

theorem idle {cmds : List Cmd} (h : ∀ cmd ∈ cmds, cmd.isIdle = true) : Issues cmds [] := by
  refine taskless fun cmd hcmd => ?_
  have hidle := h cmd hcmd
  cases cmd <;> first | exact ⟨rfl, trivial⟩ | cases hidle

theorem nil : Issues [] [] := idle idle_nil

theorem singleton {cmd : Cmd} (htasks : cmd.tasks? = none) (hfits : cmd.Fits) : Issues [cmd] [] :=
  taskless (List.forall_mem_singleton.mpr ⟨htasks, hfits⟩)

end Issues

namespace State

theorem loadCmd_list (s : State) {view : View} (hlist : view.isTaskView = false) :
    Issues [s.loadCmd view] [] := by
  unfold loadCmd
  by_cases hmonitor : view = .monitor
  · rw [if_pos hmonitor]
    exact .singleton rfl trivial
  · simp only [hmonitor, hlist, if_false, Bool.false_eq_true]
    exact .singleton rfl (.none hlist)

theorem loadCmd_tasks {s : State} {scope : TaskScope} (hscope : s.taskScope = some scope) :
    s.loadCmd scope.view = .load scope.view s.showAll (some scope) := by
  simp only [loadCmd, scope.view_ne_monitor, scope.view_isTaskView, hscope, if_true, if_false]

theorem loadCmd_issues {s : State} {scope : TaskScope} (hscope : s.taskScope = some scope) :
    Issues [s.loadCmd scope.view] [scope] := by
  rw [loadCmd_tasks hscope]
  exact ⟨rfl, List.forall_mem_singleton.mpr (.view_self scope)⟩

/-! ## What a step leaves alone -/

/-- The same view is active, leads back to the same one, and has the same scope. -/
structure SamePlace (s s' : State) : Prop where
  view : s'.view = s.view
  previous : s'.previous = s.previous
  taskScope : s'.taskScope = s.taskScope

/-- The marks and the rows of a view are as they were. -/
structure Leaves (s s' : State) (view : View) : Prop where
  loading : s'.loading.get view = s.loading.get view
  stale : s'.stale.get view = s.stale.get view
  rows : Keeps s s' view

theorem Leaves.of_eq {s s' : State} {view : View} (hloading : s'.loading = s.loading)
    (hstale : s'.stale = s.stale) (htables : s'.tables = s.tables)
    (hsorted : s'.sorted = s.sorted) : Leaves s s' view :=
  ⟨by rw [hloading], by rw [hstale], .of_eq (by rw [htables]) hsorted⟩

theorem Leaves.trans {s s' s'' : State} {view : View} (h : Leaves s s' view)
    (h' : Leaves s' s'' view) : Leaves s s'' view :=
  ⟨h'.loading.trans h.loading, h'.stale.trans h.stale, h.rows.trans h'.rows⟩

theorem Aside.place {s s' : State} (h : Aside s s') : SamePlace s s' :=
  ⟨h.view, congrArg Core.previous h.core, congrArg Core.taskScope h.core⟩

theorem Aside.leaves {s s' : State} (h : Aside s s') (view : View) : Leaves s s' view := by
  have hloading : s'.loading = s.loading := congrArg Core.loading h.core
  have hstale : s'.stale = s.stale := congrArg Core.stale h.core
  exact ⟨by rw [hloading], by rw [hstale], h.rows view⟩

/-! ## What a step does about tasks -/

/-- A shown task view has a scope of its kind, and leads back to the list in which that is a row. -/
structure Scoped (s : State) : Prop where
  previous : s.previous.isTaskView = false
  active : s.view.isTaskView = true → ∃ scope, s.taskScope = some scope ∧ s.view = scope.view ∧
    s.previous = scope.origin

/-- What a step does about the tasks of the current scope. -/
inductive TaskEffect (s : State) (msg? : Option Msg) (r : Step) : Prop where
  /-- It has to do with other things. -/
  | other (hview : r.1.view = s.view ∨ r.1.view.isTaskView = false)
      (hprevious : r.1.previous = s.previous) (hscope : r.1.taskScope = s.taskScope)
      (hleft : ∀ scope, s.taskScope = some scope → Leaves s r.1 scope.view)
      (hcmds : Issues r.2 [])
      (hmsg : ∀ scope, s.taskScope = some scope → ∀ msg, msg? = some msg → ¬ msg.Settles scope)
  /-- They are asked for while a load of them is under way. -/
  | deferred (scope : TaskScope) (hplace : SamePlace s r.1) (hactive : s.view = scope.view)
      (hscope : s.taskScope = some scope) (hbefore : s.loading.get scope.view = true)
      (hloading : r.1.loading.get scope.view = true) (hstale : r.1.stale.get scope.view = true)
      (hrows : Keeps s r.1 scope.view) (hcmds : Issues r.2 []) (hcalm : Calm msg?)
  /-- They are asked for, and a load begins. -/
  | begun (scope : TaskScope) (hplace : SamePlace s r.1) (hactive : s.view = scope.view)
      (hscope : s.taskScope = some scope) (hbefore : s.loading.get scope.view = false)
      (hloading : r.1.loading.get scope.view = true)
      (hstale : r.1.stale.get scope.view = s.stale.get scope.view)
      (hrows : Keeps s r.1 scope.view) (hcmds : Issues r.2 [scope]) (hcalm : Calm msg?)
  /-- They become those of a row, and a load of them begins. -/
  | entered (scope : TaskScope) (hrow : s.view = scope.origin) (hview : r.1.view = scope.view)
      (hprevious : r.1.previous = scope.origin) (hscope : r.1.taskScope = some scope)
      (hloading : r.1.loading.get scope.view = true)
      (hrows : s.taskScope = some scope ∧ Keeps s r.1 scope.view ∨ r.1.rows scope.view = [])
      (hcmds : Issues r.2 [scope]) (hcalm : Calm msg?)
  /-- They arrive, and are loaded again if they were asked for meanwhile. -/
  | arrived (scope : TaskScope) (rows : List Row)
      (hmsg : msg? = some (.loaded scope.view (some scope) rows))
      (hscope : s.taskScope = some scope) (hplace : SamePlace s r.1)
      (hloading : r.1.loading.get scope.view = (s.stale.get scope.view && scope.view == s.view))
      (hstale : r.1.stale.get scope.view = false)
      (hrows : Arranges (r.1.sorted.get scope.view) (r.1.rows scope.view) rows)
      (hcmds : Issues r.2 (if s.stale.get scope.view && scope.view == s.view then [scope] else []))
  /-- A load fails that is of their view. -/
  | failed (scope : TaskScope) (error : String)
      (hmsg : msg? = some (.loadFailed scope.view error)) (hscope : s.taskScope = some scope)
      (hplace : SamePlace s r.1) (hloading : r.1.loading.get scope.view = false)
      (hstale : r.1.stale.get scope.view = false) (hrows : Keeps s r.1 scope.view)
      (hcmds : Issues r.2 [])

namespace TaskEffect

variable {s s' : State} {msg? : Option Msg} {r : Step}

theorem after (h : TaskEffect s' msg? r) (haside : Aside s s') : TaskEffect s msg? r := by
  have hsame := haside.place
  have hleaves (view : View) := haside.leaves view
  have hplaces (h : SamePlace s' r.1) : SamePlace s r.1 :=
    ⟨h.view.trans hsame.view, h.previous.trans hsame.previous, h.taskScope.trans hsame.taskScope⟩
  cases h with
  | other hview hprevious hscope hleft hcmds hmsg =>
      rw [hsame.taskScope] at hscope hleft hmsg
      rw [hsame.view] at hview
      exact .other hview (hprevious.trans hsame.previous) hscope
        (fun scope hcurrent => (hleaves scope.view).trans (hleft scope hcurrent)) hcmds hmsg
  | deferred scope hplace hactive hscope hbefore hloading hstale hrows hcmds hcalm =>
      rw [hsame.view] at hactive
      rw [hsame.taskScope] at hscope
      rw [(hleaves scope.view).loading] at hbefore
      exact .deferred scope (hplaces hplace) hactive hscope hbefore hloading hstale
        ((hleaves scope.view).rows.trans hrows) hcmds hcalm
  | begun scope hplace hactive hscope hbefore hloading hstale hrows hcmds hcalm =>
      rw [hsame.view] at hactive
      rw [hsame.taskScope] at hscope
      rw [(hleaves scope.view).loading] at hbefore
      exact .begun scope (hplaces hplace) hactive hscope hbefore hloading
        (hstale.trans (hleaves scope.view).stale) ((hleaves scope.view).rows.trans hrows)
        hcmds hcalm
  | entered scope hrow hview hprevious hscope hloading hrows hcmds hcalm =>
      rw [hsame.view] at hrow
      rw [hsame.taskScope] at hrows
      exact .entered scope hrow hview hprevious hscope hloading
        (hrows.imp_left fun h => ⟨h.1, (hleaves scope.view).rows.trans h.2⟩) hcmds hcalm
  | arrived scope rows hmsg hscope hplace hloading hstale hrows hcmds =>
      rw [hsame.taskScope] at hscope
      rw [(hleaves scope.view).stale, hsame.view] at hloading hcmds
      exact .arrived scope rows hmsg hscope (hplaces hplace) hloading hstale hrows hcmds
  | failed scope error hmsg hscope hplace hloading hstale hrows hcmds =>
      rw [hsame.taskScope] at hscope
      exact .failed scope error hmsg hscope (hplaces hplace) hloading hstale
        ((hleaves scope.view).rows.trans hrows) hcmds

/-- A step that leaves the views and everything about tasks as they are. -/
theorem of_place (hplace : SamePlace s r.1)
    (hleft : ∀ scope, s.taskScope = some scope → Leaves s r.1 scope.view) (hcmds : Issues r.2 [])
    (hmsg : ∀ scope, s.taskScope = some scope → ∀ msg, msg? = some msg → ¬ msg.Settles scope) :
    TaskEffect s msg? r :=
  .other (Or.inl hplace.view) hplace.previous hplace.taskScope hleft hcmds hmsg

theorem scoped_step (h : TaskEffect s msg? r) (hs : s.Scoped) : r.1.Scoped := by
  have hstays (hplace : SamePlace s r.1) : r.1.Scoped := by
    refine ⟨by rw [hplace.previous]; exact hs.previous, fun htask => ?_⟩
    rw [hplace.view] at htask ⊢
    rw [hplace.previous, hplace.taskScope]
    exact hs.active htask
  cases h with
  | other hview hprevious hscope hleft hcmds hmsg =>
      rcases hview with hsame | hlist
      · exact hstays ⟨hsame, hprevious, hscope⟩
      · refine ⟨by rw [hprevious]; exact hs.previous, fun htask => ?_⟩
        rw [hlist] at htask
        cases htask
  | deferred scope hplace => exact hstays hplace
  | begun scope hplace => exact hstays hplace
  | entered scope hrow hview hprevious hscope =>
      refine ⟨?_, fun _ => ⟨scope, hscope, hview, hprevious⟩⟩
      rw [hprevious]
      exact scope.origin_isTaskView
  | arrived scope rows hmsg hscope hplace => exact hstays hplace
  | failed scope error hmsg hscope hplace => exact hstays hplace

end TaskEffect

/-! ## What has to do with lists -/

/-- A step loads no tasks, and leaves the scope and everything about task views as they are. -/
structure Elsewhere (s : State) (r : Step) : Prop where
  previous : r.1.previous = s.previous
  taskScope : r.1.taskScope = s.taskScope
  left : ∀ view : View, view.isTaskView = true → Leaves s r.1 view
  cmds : Issues r.2 []

namespace Elsewhere

theorem trans {s s' : State} {r : Step} (h : Elsewhere s s'.noCmds) (h' : Elsewhere s' r) :
    Elsewhere s r :=
  ⟨h'.previous.trans h.previous, h'.taskScope.trans h.taskScope,
    fun view htask => (h.left view htask).trans (h'.left view htask), h'.cmds⟩

theorem of_eq {s s' : State} (hprevious : s'.previous = s.previous)
    (hscope : s'.taskScope = s.taskScope) (hloading : s'.loading = s.loading)
    (hstale : s'.stale = s.stale) (htables : s'.tables = s.tables)
    (hsorted : s'.sorted = s.sorted) : Elsewhere s s'.noCmds :=
  ⟨hprevious, hscope, fun _ _ => .of_eq hloading hstale htables hsorted, .nil⟩

theorem issue {s : State} {r : Step} (h : Elsewhere s r) {first : List Cmd}
    (hfirst : Issues first []) : Elsewhere s (r.1, first ++ r.2) :=
  ⟨h.previous, h.taskScope, h.left, hfirst.append h.cmds⟩

theorem effect {s : State} {msg? : Option Msg} {r : Step} (h : Elsewhere s r)
    (hview : r.1.view = s.view ∨ r.1.view.isTaskView = false)
    (hmsg : ∀ scope, s.taskScope = some scope → ∀ msg, msg? = some msg → ¬ msg.Settles scope) :
    TaskEffect s msg? r :=
  .other hview h.previous h.taskScope (fun scope _ => h.left scope.view scope.view_isTaskView)
    h.cmds hmsg

end Elsewhere

/-- Rows and marks of a list are none of a task view. -/
theorem ne_of_isTaskView {view other : View} (hlist : view.isTaskView = false)
    (htask : other.isTaskView = true) : view ≠ other := by
  rintro rfl
  rw [hlist] at htask
  cases htask

theorem requestLoad_elsewhere (s : State) {view : View} (hlist : view.isTaskView = false) :
    Elsewhere s (s.requestLoad view) := by
  unfold requestLoad
  split
  · exact ⟨rfl, rfl, fun other htask =>
      ⟨rfl, ByView.get_set_of_ne (ne_of_isTaskView hlist htask) _ _, .of_eq rfl rfl⟩, .nil⟩
  · simp only [hlist, Bool.false_and, Bool.false_eq_true, if_false]
    exact ⟨rfl, rfl, fun other htask =>
      ⟨ByView.get_set_of_ne (ne_of_isTaskView hlist htask) _ _, rfl, .of_eq rfl rfl⟩,
      loadCmd_list s hlist⟩

/-- Leaving a view for another one forgets no tasks. -/
theorem leave_elsewhere (s : State) :
    Elsewhere s (if s.view = .monitor then s.stopMonitor else s).noCmds := by
  split
  · obtain ⟨cancelled, hcancels⟩ := cancels_changes s.monitor s
    unfold stopMonitor
    rw [hcancels]
    refine ⟨rfl, rfl, fun view htask => ⟨rfl, rfl, .of_eq ?_ rfl⟩, .nil⟩
    show (s.tables.modify .monitor _).get view = s.tables.get view
    rw [ByView.get_modify, if_neg (ne_of_isTaskView rfl htask)]
  · exact ⟨rfl, rfl, fun view _ => .of_eq rfl rfl rfl rfl, .nil⟩

theorem switchView_elsewhere (s : State) {target : View} (hlist : target.isTaskView = false) :
    Elsewhere s (s.switchView target) := by
  have hleave := leave_elsewhere s
  unfold switchView
  by_cases hsame : target = s.view
  · rw [if_pos hsame]
    exact requestLoad_elsewhere s hlist
  · rw [if_neg hsame]
    generalize (if s.view = .monitor then s.stopMonitor else s) = left at hleave
    -- The new view is loaded after the old one has been left.
    have hload (epoch : Nat) : Elsewhere s
        (({ left with view := target, monitorEpoch := epoch } : State).requestLoad target) := by
      let moved : State := { left with view := target, monitorEpoch := epoch }
      have hmoved : Elsewhere left moved.noCmds := .of_eq rfl rfl rfl rfl rfl rfl
      exact hleave.trans (hmoved.trans (requestLoad_elsewhere moved hlist))
    by_cases hmonitor : target = .monitor
    · rw [if_pos hmonitor]
      subst hmonitor
      have hstarted := hload (left.monitorEpoch + 1)
      refine ⟨hstarted.previous, hstarted.taskScope, hstarted.left, ?_⟩
      exact hstarted.cmds.append (.singleton rfl trivial)
    · rw [if_neg hmonitor]
      exact hload left.monitorEpoch

/-! ## What has to do with tasks -/

/-- The tasks that are shown are asked for. -/
theorem requestLoad_tasks {s : State} {scope : TaskScope} {msg? : Option Msg} (hcalm : Calm msg?)
    (hactive : s.view = scope.view) (hscope : s.taskScope = some scope) {first : List Cmd}
    (hfirst : ∀ cmd ∈ first, cmd.isIdle = true) :
    TaskEffect s msg? ((s.requestLoad scope.view).1, first ++ (s.requestLoad scope.view).2) := by
  have hidle := Issues.idle hfirst
  unfold requestLoad
  cases hloading : s.loading.get scope.view with
  | true =>
      rw [if_pos rfl]
      exact .deferred scope ⟨rfl, rfl, rfl⟩ hactive hscope hloading hloading
        (ByView.get_set_self _ _ _) (.of_eq rfl rfl) (hidle.append .nil) hcalm
  | false =>
      simp only [Bool.false_eq_true, hscope, Option.isNone_some, Bool.and_false, if_false]
      exact .begun scope ⟨rfl, rfl, hscope.symm⟩ hactive hscope hloading
        (ByView.get_set_self _ _ _) rfl (.of_eq rfl rfl)
        (hidle.append (loadCmd_issues hscope)) hcalm

/-- The tasks of a row are entered whether or not a load of them is under way. -/
theorem enterTaskView_eq {s : State} {scope : TaskScope} (hrow : s.view = scope.origin) :
    ∃ tables : ByView (Table Row),
      (s.taskScope = some scope ∧ tables = s.tables ∨ (tables.get scope.view).rows = []) ∧
      s.enterTaskView scope =
        ({ s with
            view := scope.view
            previous := scope.origin
            tables
            taskScope := some scope
            loading := (s.loading.set scope.view false).set scope.view true },
          [.load scope.view s.showAll (some scope)]) := by
  have hlist : s.view.isTaskView = false := by
    rw [hrow]
    exact scope.origin_isTaskView
  have hother : scope.view ≠ scope.origin :=
    (ne_of_isTaskView scope.origin_isTaskView scope.view_isTaskView).symm
  have hmonitor : scope.origin ≠ .monitor := by cases scope <;> nofun
  -- Once the rows have been kept or forgotten, nothing else depends on the scope of before.
  have hswitch (tables : ByView (Table Row)) :
      ({ s with
          previous := s.view
          tables
          taskScope := some scope
          loading := s.loading.set scope.view false } : State).switchView scope.view =
        ({ s with
            view := scope.view
            previous := scope.origin
            tables
            taskScope := some scope
            loading := (s.loading.set scope.view false).set scope.view true },
          [.load scope.view s.showAll (some scope)]) := by
    simp only [switchView, hrow, hother, hmonitor, scope.view_ne_monitor, if_false, requestLoad,
      ByView.get_set_self, Bool.false_eq_true, Option.isNone_some, Bool.and_false, loadCmd_tasks]
  unfold enterTaskView
  simp only [hlist, Bool.false_eq_true, if_false]
  by_cases hsame : s.taskScope = some scope
  · rw [if_pos hsame]
    exact ⟨s.tables, Or.inl ⟨hsame, rfl⟩, hswitch s.tables⟩
  · rw [if_neg hsame]
    refine ⟨s.tables.modify scope.view fun t => t.replaceRows s.format [], Or.inr ?_, hswitch _⟩
    rw [ByView.get_modify, if_pos rfl]
    exact Table.replaceRows_rows _ _ _

theorem enterTaskView_tasks {s : State} {scope : TaskScope} {msg? : Option Msg}
    (hcalm : Calm msg?) (hrow : s.view = scope.origin) :
    TaskEffect s msg? (s.enterTaskView scope) := by
  obtain ⟨tables, htables, henter⟩ := enterTaskView_eq hrow
  rw [henter]
  refine .entered scope hrow rfl rfl rfl (ByView.get_set_self _ _ _) ?_
    ⟨rfl, List.forall_mem_singleton.mpr (.view_self scope)⟩ hcalm
  rcases htables with ⟨hsame, rfl⟩ | hempty
  · exact Or.inl ⟨hsame, .of_eq rfl rfl⟩
  · exact Or.inr hempty

/-! ## What reports do -/

/-- The state in which rows of a view have arrived. -/
def landed (s : State) (view : View) (rows : List Row) : State :=
  { ({ s with loading := s.loading.set view false } : State).setRows view rows with
    stale := s.stale.set view false }

theorem onLoaded_eq (s : State) (view : View) (scope? : Option TaskScope) (rows : List Row) :
    s.onLoaded view scope? rows =
      if view.isTaskView && scope? != s.taskScope then s.noCmds
      else if s.stale.get view && view == s.view then (s.landed view rows).requestLoad view
      else (s.landed view rows).noCmds :=
  rfl

theorem Leaves.setRows {s : State} {view other : View} (h : view ≠ other) (rows : List Row) :
    Leaves s (s.setRows view rows) other := by
  refine ⟨rfl, rfl, .of_eq ?_ rfl⟩
  show (s.tables.modify view _).get other = s.tables.get other
  rw [ByView.get_modify, if_neg h]

/-- Marks of a view are none of another one. -/
theorem Leaves.unmark {s : State} {view other : View} (h : view ≠ other) (loading stale : Bool) :
    Leaves s { s with
      loading := s.loading.set view loading, stale := s.stale.set view stale } other :=
  ⟨ByView.get_set_of_ne h _ _, ByView.get_set_of_ne h _ _, .of_eq rfl rfl⟩

theorem landed_leaves {s : State} {view other : View} (h : view ≠ other) (rows : List Row) :
    Leaves s (s.landed view rows) other :=
  (Leaves.unmark h false false).trans (.setRows h rows)

theorem onLoaded_elsewhere (s : State) {view : View} (hlist : view.isTaskView = false)
    (scope? : Option TaskScope) (rows : List Row) : Elsewhere s (s.onLoaded view scope? rows) := by
  have hlanded : Elsewhere s (s.landed view rows).noCmds :=
    ⟨rfl, rfl, fun other htask => landed_leaves (ne_of_isTaskView hlist htask) rows, .nil⟩
  rw [onLoaded_eq]
  simp only [hlist, Bool.false_and, Bool.false_eq_true, if_false]
  split
  · exact hlanded.trans (requestLoad_elsewhere (s.landed view rows) hlist)
  · exact hlanded

theorem onLoaded_place (s : State) (view : View) (scope? : Option TaskScope) (rows : List Row) :
    SamePlace s (s.onLoaded view scope? rows).1 := by
  obtain ⟨⟨tables, loading, stale, hloaded⟩, -⟩ := onLoaded_changes s view scope? rows
  rw [hloaded]
  exact ⟨rfl, rfl, rfl⟩

/-- Tasks of the current scope that arrive are shown, and loaded again if they were asked for
meanwhile. -/
theorem onLoaded_current {s : State} {scope : TaskScope} (hscope : s.taskScope = some scope)
    (rows : List Row) :
    s.onLoaded scope.view (some scope) rows =
      if s.stale.get scope.view && scope.view == s.view then
        ({ s.landed scope.view rows with
            loading := (s.loading.set scope.view false).set scope.view true },
          [.load scope.view s.showAll (some scope)])
      else (s.landed scope.view rows).noCmds := by
  have hkept : (scope.view.isTaskView && some scope != s.taskScope) = false := by
    simp [hscope]
  have hnow : (s.landed scope.view rows).taskScope = some scope := hscope
  have hidle : (s.landed scope.view rows).loading.get scope.view = false :=
    ByView.get_set_self _ _ _
  have hload : (s.landed scope.view rows).requestLoad scope.view =
      ({ s.landed scope.view rows with
          loading := (s.loading.set scope.view false).set scope.view true },
        [.load scope.view s.showAll (some scope)]) := by
    simp only [requestLoad, hidle, hnow, Bool.false_eq_true, Option.isNone_some, Bool.and_false,
      if_false, loadCmd_tasks hnow]
    rfl
  rw [onLoaded_eq, hload]
  simp only [hkept, Bool.false_eq_true, if_false]

theorem onLoaded_arranges {s : State} {scope : TaskScope} (hscope : s.taskScope = some scope)
    (rows : List Row) :
    Arranges ((s.onLoaded scope.view (some scope) rows).1.sorted.get scope.view)
      ((s.onLoaded scope.view (some scope) rows).1.rows scope.view) rows := by
  have hrows := setRows_arranges { s with loading := s.loading.set scope.view false }
    scope.view rows
  rw [onLoaded_current hscope]
  split <;> exact hrows

/-- Tasks of another scope than the current one are dropped. -/
theorem onLoaded_late {s : State} {scope : TaskScope} (hscope : s.taskScope ≠ some scope)
    (rows : List Row) : s.onLoaded scope.view (some scope) rows = s.noCmds := by
  have hdropped : (scope.view.isTaskView && some scope != s.taskScope) = true := by
    simpa [scope.view_isTaskView] using fun heq => hscope heq.symm
  rw [onLoaded_eq, if_pos hdropped]

/-- Rows that arrive are those of a list, or tasks of the current scope, or dropped. -/
theorem onLoaded_tasks (s : State) {view : View} {scope? : Option TaskScope}
    (hlists : view.Lists scope?) (rows : List Row) :
    TaskEffect s (some (.loaded view scope? rows)) (s.onLoaded view scope? rows) := by
  have hplace := onLoaded_place s view scope? rows
  cases htask : view.isTaskView with
  | false =>
      refine (onLoaded_elsewhere s htask scope? rows).effect (Or.inl hplace.view) ?_
      -- What arrives for a list carries no scope.
      rintro scope - msg hmsg hsettles
      cases hmsg
      subst hsettles
      rw [hlists.eq_view, scope.view_isTaskView] at htask
      cases htask
  | true =>
      obtain ⟨scope, rfl, rfl⟩ := hlists.exists_scope htask
      by_cases hscope : s.taskScope = some scope
      · have hrows := onLoaded_arranges hscope rows
        rw [onLoaded_current hscope] at hplace hrows ⊢
        cases hagain : s.stale.get scope.view && scope.view == s.view with
        | false =>
            simp only [hagain, Bool.false_eq_true, if_false] at hplace hrows ⊢
            refine .arrived scope rows rfl hscope hplace ?_ (ByView.get_set_self _ _ _) hrows ?_
            · rw [hagain]
              exact ByView.get_set_self _ _ _
            · rw [hagain]
              exact .nil
        | true =>
            simp only [hagain, if_true] at hplace hrows ⊢
            refine .arrived scope rows rfl hscope hplace ?_ (ByView.get_set_self _ _ _) hrows ?_
            · rw [hagain]
              exact ByView.get_set_self _ _ _
            · rw [hagain]
              exact ⟨rfl, List.forall_mem_singleton.mpr (.view_self scope)⟩
      · rw [onLoaded_late hscope]
        refine .of_place ⟨rfl, rfl, rfl⟩ (fun _ _ => .of_eq rfl rfl rfl rfl) .nil ?_
        rintro current hcurrent msg hmsg hsettles
        cases hmsg
        exact hscope (hcurrent.trans hsettles.symm)

theorem onLoadFailed_tasks (s : State) (view : View) (error : String) :
    TaskEffect s (some (.loadFailed view error)) (s.onLoadFailed view error) := by
  have hcmds : Issues (s.onLoadFailed view error).2 [] := .idle (idle_singleton rfl)
  by_cases hcurrent : ∃ scope, s.taskScope = some scope ∧ view = scope.view
  · obtain ⟨scope, hscope, rfl⟩ := hcurrent
    exact .failed scope error rfl hscope ⟨rfl, rfl, rfl⟩ (ByView.get_set_self _ _ _)
      (ByView.get_set_self _ _ _) (.of_eq rfl rfl) hcmds
  · refine .of_place ⟨rfl, rfl, rfl⟩ (fun scope hscope => ?_) hcmds ?_
    · have hother : view ≠ scope.view := fun heq => hcurrent ⟨scope, hscope, heq⟩
      exact (Leaves.unmark hother false false).trans (.of_eq rfl rfl rfl rfl)
    · rintro scope hscope msg hmsg hsettles
      cases hmsg
      exact hcurrent ⟨scope, hscope, hsettles⟩

theorem relisted_leaves (s : State) (containers : List Container) {view : View}
    (h : View.monitor ≠ view) : Leaves s (s.relisted containers).1 view := by
  obtain ⟨monitor, nextToken, hrelist⟩ :=
    relist_changes s s.monitoredRows (containers.filter Container.isRunning)
  unfold relisted
  simp only [hrelist]
  obtain ⟨monitor', cancelled, hdrops⟩ := drops_changes
    (s.relist s.monitoredRows (containers.filter Container.isRunning)).2.1
    { s with monitor, nextToken }
  rw [hdrops]
  have hsubscribed : Leaves s { s with monitor := monitor', nextToken, cancelled } view :=
    .of_eq rfl rfl rfl rfl
  exact hsubscribed.trans (.setRows h _)

theorem onMonitorListed_elsewhere (s : State) (containers : List Container) :
    Elsewhere s (s.onMonitorListed containers) := by
  let idle : State := { s with loading := s.loading.set .monitor false }
  have hne {view : View} (htask : view.isTaskView = true) : View.monitor ≠ view :=
    ne_of_isTaskView rfl htask
  have hidle {view : View} (htask : view.isTaskView = true) : Leaves s idle view :=
    ⟨ByView.get_set_of_ne (hne htask) _ _, rfl, .of_eq rfl rfl⟩
  obtain ⟨⟨tables, loading, stale, monitor, nextToken, cancelled, hlisted⟩, hcmds⟩ :=
    onMonitorListed_changes s containers
  refine ⟨by rw [hlisted], by rw [hlisted], fun view htask => ?_, .taskless fun cmd hcmd => ?_⟩
  · by_cases hview : s.view = .monitor
    · have hrelisted := (hidle htask).trans (relisted_leaves idle containers (hne htask))
      rw [onMonitorListed_shown containers hview]
      split
      · let asked : State := { (idle.relisted containers).1 with
          stale := s.stale.set .monitor false }
        have hasked : Leaves s asked view :=
          ⟨hrelisted.loading, ByView.get_set_of_ne (hne htask) _ _,
            hrelisted.rows.trans (.of_eq rfl rfl)⟩
        exact hasked.trans ((requestLoad_elsewhere asked rfl).left view htask)
      · exact hrelisted
    · rw [onMonitorListed_left containers hview]
      exact hidle htask
  · rcases hcmds cmd hcmd with rfl | ⟨id, token, rfl⟩ <;> exact ⟨rfl, trivial⟩

theorem updateMonitored_leaves (s : State) (id : String) (change : Monitored → Monitored)
    {view : View} (h : View.monitor ≠ view) : Leaves s (s.updateMonitored id change) view := by
  unfold updateMonitored
  split
  · exact .setRows h _
  · exact .of_eq rfl rfl rfl rfl

theorem onSample_elsewhere (s : State) (id : String) (sample : Sample) (rest : Feed Sample) :
    Elsewhere s (s.onSample (.monitor id) sample rest) := by
  obtain ⟨⟨tables, hsample⟩, hcmds⟩ := onSample_changes s id sample rest
  refine ⟨by rw [hsample], by rw [hsample], fun view htask => ?_, .taskless fun cmd hcmd => ?_⟩
  · simp only [onSample]
    split
    · exact .of_eq rfl rfl rfl rfl
    · exact updateMonitored_leaves s id _ (ne_of_isTaskView rfl htask)
  · obtain ⟨token, rfl⟩ := hcmds cmd hcmd
    exact ⟨rfl, trivial⟩

theorem onStatsEnded_elsewhere (s : State) (id : String) (error : Option String) :
    Elsewhere s (s.onStatsEnded (.monitor id) error) := by
  obtain ⟨⟨tables, monitor, hended⟩, hcmds⟩ := onStatsEnded_changes s id error
  refine ⟨by rw [hended], by rw [hended], fun view htask => ?_, by rw [hcmds]; exact .nil⟩
  simp only [onStatsEnded]
  split
  · exact .of_eq rfl rfl rfl rfl
  · have hgone : Leaves s (s.unsubscribe id) view := .of_eq rfl rfl rfl rfl
    exact hgone.trans (updateMonitored_leaves _ id _ (ne_of_isTaskView rfl htask))

theorem onMonitorTick_elsewhere (s : State) (epoch : Nat) :
    Elsewhere s (s.onMonitorTick epoch) := by
  unfold onMonitorTick
  split
  · have hrequest : Elsewhere s (s.requestLoad .monitor) := requestLoad_elsewhere s rfl
    exact ⟨hrequest.previous, hrequest.taskScope, hrequest.left,
      hrequest.cmds.append (.singleton rfl trivial)⟩
  · exact ⟨rfl, rfl, fun view _ => .of_eq rfl rfl rfl rfl, .nil⟩

/-! ## Events -/

theorem Scoped.after {s s' : State} (h : s.Scoped) (haside : Aside s s') : s'.Scoped := by
  have hplace := haside.place
  refine ⟨by rw [hplace.previous]; exact h.previous, fun htask => ?_⟩
  rw [hplace.view] at htask ⊢
  rw [hplace.previous, hplace.taskScope]
  exact h.active htask

/-- A step that changes neither the views nor what they load. -/
theorem TaskEffect.of_calm {s : State} {msg? : Option Msg} {r : Step} (hcalm : Calm msg?)
    (hplace : SamePlace s r.1) (hloading : r.1.loading = s.loading) (hstale : r.1.stale = s.stale)
    (htables : r.1.tables = s.tables) (hsorted : r.1.sorted = s.sorted) (hcmds : Issues r.2 []) :
    TaskEffect s msg? r :=
  .of_place hplace (fun _ _ => .of_eq hloading hstale htables hsorted) hcmds
    fun scope _ => hcalm.not_settles scope

theorem Move.taskEffect {s : State} {msg? : Option Msg} {r : Step} (h : Move s r)
    (hcalm : Calm msg?) (hs : s.Scoped) : TaskEffect s msg? r := by
  have hquiet (scope : TaskScope) (_ : s.taskScope = some scope) := hcalm.not_settles scope
  have hpager (s' : State) (kind : PagerKind) (pager : Pager) (token : Option Token)
      {cmds : List Cmd} (hcmds : Issues cmds [])
      (haside : s' = { s with nextToken := s'.nextToken }) :
      TaskEffect s msg? (s'.openPager kind pager token, cmds) := by
    obtain ⟨cancelled, layer, -, hopen⟩ := openPager_changes s' kind pager token
    rw [hopen, haside]
    exact .of_calm hcalm ⟨rfl, rfl, rfl⟩ rfl rfl rfl rfl hcmds
  cases h with
  | nothing cmds hidle =>
      exact .of_calm hcalm ⟨rfl, rfl, rfl⟩ rfl rfl rfl rfl (.idle hidle)
  | load first hidle =>
      cases htask : s.view.isTaskView with
      | false =>
          obtain ⟨loading, stale, hload⟩ := requestLoad_changes s s.view
          exact ((requestLoad_elsewhere s htask).issue (.idle hidle)).effect
            (Or.inl (by rw [hload])) hquiet
      | true =>
          obtain ⟨scope, hscope, hactive, -⟩ := hs.active htask
          rw [hactive]
          exact requestLoad_tasks hcalm hactive hscope hidle
  | toggle hview =>
      let toggled : State := { s with showAll := !s.showAll }
      have htoggled : Elsewhere s toggled.noCmds := .of_eq rfl rfl rfl rfl rfl rfl
      have hlist : s.view.isTaskView = false := by
        rw [hview]
        rfl
      obtain ⟨loading, stale, hload⟩ := requestLoad_changes toggled s.view
      exact (htoggled.trans (requestLoad_elsewhere toggled hlist)).effect
        (Or.inl (by rw [hload])) hquiet
  | switch target htarget =>
      have hlist : target.isTaskView = false := by
        rcases htarget with hlist | rfl
        · exact hlist
        · exact hs.previous
      refine (switchView_elsewhere s hlist).effect (Or.inr ?_) hquiet
      rw [switchView_view]
      exact hlist
  | tasks scope hrow => exact enterTaskView_tasks hcalm hrow
  | opened kind pager hkind => exact hpager s kind pager none .nil rfl
  | logs target => exact hpager s.freshToken.2 _ _ _ (.singleton rfl trivial) rfl
  | stats target => exact hpager s.freshToken.2 _ _ _ (.singleton rfl trivial) rfl
  | closed =>
      obtain ⟨cancelled, hclose⟩ := closeLayer_changes s
      rw [hclose]
      exact .of_calm hcalm ⟨rfl, rfl, rfl⟩ rfl rfl rfl rfl .nil

/-- **Events and tasks.** While task views have their scopes, an event that brings what its view
lists has one of the effects above. -/
theorem Reaction.taskEffect {s : State} {msg? : Option Msg} {r : Step} (h : Reaction s msg? r)
    (hs : s.Scoped) (hfits : ∀ msg, msg? = some msg → msg.Fits) : TaskEffect s msg? r := by
  -- A report that tells nothing about a load of tasks settles none.
  have hother {msg : Msg} (h : ∀ scope, ¬ msg.Settles scope) (scope : TaskScope)
      (_ : s.taskScope = some scope) (other : Msg) (hmsg : some msg = some other) :
      ¬ other.Settles scope := by
    cases hmsg
    exact h scope
  have hpager {msg : Msg} {id : Nat} (h : msg.pager? = some id) (scope : TaskScope) :
      ¬ msg.Settles scope := by
    cases msg <;> first | exact fun hsettles => hsettles | cases h
  cases h with
  | calm hcalm haside hmove => exact (hmove.taskEffect hcalm (hs.after haside)).after haside
  | loaded view scope rows => exact onLoaded_tasks s (hfits _ rfl) rows
  | loadFailed view error => exact onLoadFailed_tasks s view error
  | listed containers =>
      obtain ⟨⟨tables, loading, stale, monitor, nextToken, cancelled, hlisted⟩, -⟩ :=
        onMonitorListed_changes s containers
      exact (onMonitorListed_elsewhere s containers).effect (Or.inl (by rw [hlisted]))
        (hother fun _ => id)
  | @text msg id text next hmsg hnext =>
      obtain ⟨⟨layer, htext⟩, hcmds⟩ := onPagerText_changes s id text next
      refine .of_place ?_ (fun _ _ => ?_) (.taskless fun cmd hcmd => ?_) (hother (hpager hmsg))
      · rw [htext]
        exact ⟨rfl, rfl, rfl⟩
      · rw [htext]
        exact .of_eq rfl rfl rfl rfl
      · obtain ⟨token, rfl⟩ := hcmds cmd hcmd
        have hread := hnext token
        generalize next token = cmd at hread
        cases cmd <;> first | exact ⟨rfl, trivial⟩ | cases hread
  | ended id error hmsg =>
      obtain ⟨layer, hended⟩ := onPagerEnded_changes s id error
      rw [hended]
      exact .of_place ⟨rfl, rfl, rfl⟩ (fun _ _ => .of_eq rfl rfl rfl rfl) .nil
        (hother (hpager hmsg))
  | sample id sample rest =>
      obtain ⟨⟨tables, hsample⟩, -⟩ := onSample_changes s id sample rest
      exact (onSample_elsewhere s id sample rest).effect (Or.inl (by rw [hsample]))
        (hother fun _ => fun hsettles => hsettles)
  | sampleEnd id error =>
      obtain ⟨⟨tables, monitor, hended⟩, -⟩ := onStatsEnded_changes s id error
      exact (onStatsEnded_elsewhere s id error).effect (Or.inl (by rw [hended]))
        (hother fun _ => fun hsettles => hsettles)
  | tick epoch =>
      obtain ⟨loading, stale, htick⟩ := onMonitorTick_changes s epoch
      exact (onMonitorTick_elsewhere s epoch).effect (Or.inl (by rw [htick]))
        (hother fun _ => fun hsettles => hsettles)

/-- Only tasks of the scope that is current after a step are loaded by it. -/
theorem TaskEffect.issues {s : State} {msg? : Option Msg} {r : Step} (h : TaskEffect s msg? r) :
    ∃ scopes, Issues r.2 scopes ∧ ∀ scope ∈ scopes, r.1.taskScope = some scope := by
  cases h with
  | other _ _ _ _ hcmds => exact ⟨[], hcmds, nofun⟩
  | deferred _ _ _ _ _ _ _ _ hcmds => exact ⟨[], hcmds, nofun⟩
  | begun scope hplace _ hscope _ _ _ _ hcmds =>
      exact ⟨[scope], hcmds, List.forall_mem_singleton.mpr (hplace.taskScope.trans hscope)⟩
  | entered scope _ _ _ hscope _ _ hcmds =>
      exact ⟨[scope], hcmds, List.forall_mem_singleton.mpr hscope⟩
  | arrived scope rows _ hscope hplace _ _ _ hcmds =>
      refine ⟨_, hcmds, fun other hother => ?_⟩
      split at hother
      · rw [List.mem_singleton.mp hother]
        exact hplace.taskScope.trans hscope
      · cases hother
  | failed _ _ _ _ _ _ _ _ hcmds => exact ⟨[], hcmds, nofun⟩

end State

end Dockboard
