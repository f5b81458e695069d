import Dockboard.Proofs.Session.Tasks

set_option autoImplicit false

/-! # Loads of tasks

The mark of a task view as loading is meant for the load of the current scope. As long as this load
is not let go of, it is the only one of its scope, and loads of every scope end in the order in
which they began. Two events let go of it: the tasks of a scope are entered, which removes the mark
whatever scope the load under way is of; and a load of another scope of the same kind fails, as the
failure does not tell of which scope it is.

    Cmd.loadsTasks scope      whether a command loads the tasks of a scope
    Forgets x scope event     the event lets go of the loads of the scope that are under way
    Underway x                a mark of the view of the current scope stands for a load of it
    Exclusive x               the mark tells how many loads of the current scope are under way
-/

namespace Dockboard

open Dockboard.Stream

/-- Whether a command loads the tasks of a scope. -/
def Cmd.loadsTasks (scope : TaskScope) (cmd : Cmd) : Bool := cmd.tasks? == some scope

theorem Cmd.loadsTasks_load (view : View) (all : Bool) (scope : TaskScope) :
    (Cmd.load view all (some scope)).loadsTasks scope = true :=
  beq_self_eq_true (some scope)

theorem Issues.countP {cmds : List Cmd} {scopes : List TaskScope} (h : Issues cmds scopes)
    (scope : TaskScope) : cmds.countP (Cmd.loadsTasks scope) = scopes.count scope := by
  rw [← h.tasks]
  exact List.count_filterMap.symm

namespace System

/-- An event lets go of the loads of a scope that are under way: the tasks of the scope are entered
from elsewhere, or a load fails that is of the view of the scope, but of another scope. -/
inductive Forgets (x : System) (scope : TaskScope) (event : Event) : Prop where
  | entered (hother : x.state.view ≠ scope.view) (hview : (x.after event).state.view = scope.view)
      (hscope : (x.after event).state.taskScope = some scope)
  | failed (hscope : x.state.taskScope = some scope) (error : String)
      (hmsg : event.msg? = some (.loadFailed scope.view error))
      (hother : event.answers (Cmd.loadsTasks scope) = false)

/-! ## Counts -/

/-- An event that answers a load of a scope settles it. -/
theorem Scoped.settles {x : System} {event : Event} (h : x.Scoped) (allowed : x.Allows event)
    {scope : TaskScope} (hanswers : event.answers (Cmd.loadsTasks scope) = true) :
    ∃ msg, event.msg? = some msg ∧ msg.Settles scope := by
  cases event with
  | begin => cases hanswers
  | input msg => cases hanswers
  | answer cmd number msg =>
      refine ⟨msg, rfl, ?_⟩
      have htasks : cmd.tasks? = some scope := eq_of_beq hanswers
      have hfits := h.pending _ allowed.1
      cases allowed.2 with
      | loaded view all scope? rows => exact htasks
      | loadFailed view all scope? error =>
          have hscope : scope? = some scope := htasks
          subst hscope
          exact hfits.eq_view
      | _ => cases htasks

/-- An event that does not settle a scope answers no load of it. -/
theorem Scoped.answers_eq_false {x : System} {event : Event} (h : x.Scoped)
    (allowed : x.Allows event) {scope : TaskScope}
    (hother : ∀ msg, event.msg? = some msg → ¬ msg.Settles scope) :
    event.answers (Cmd.loadsTasks scope) = false := by
  cases hanswers : event.answers (Cmd.loadsTasks scope) with
  | false => rfl
  | true =>
      obtain ⟨msg, hmsg, hsettles⟩ := h.settles allowed hanswers
      exact absurd hsettles (hother msg hmsg)

/-- How many loads of a scope are under way: those that were, without the one that is answered, and
those that are issued. -/
theorem tasks_count {x : System} {event : Event} (hnumbered : x.Numbered)
    (allowed : x.Allows event) {scopes : List TaskScope}
    (hissues : Issues (x.state.react event).2 scopes) (scope : TaskScope) :
    (x.after event).outstanding (Cmd.loadsTasks scope) +
        (if event.answers (Cmd.loadsTasks scope) then 1 else 0) =
      x.outstanding (Cmd.loadsTasks scope) + scopes.count scope := by
  rw [outstanding_after hnumbered allowed, hissues.countP]

/-- An event that stays in its view, or goes to a list, and fails no load of another scope. -/
theorem not_forgets {x : System} {event : Event} {scope : TaskScope}
    (hview : (x.after event).state.view = x.state.view ∨
      (x.after event).state.view.isTaskView = false)
    (hfailed : ∀ error, event.msg? = some (.loadFailed scope.view error) →
      event.answers (Cmd.loadsTasks scope) = true) : ¬ x.Forgets scope event := by
  intro hforgets
  cases hforgets with
  | entered hother hentered hscope =>
      rcases hview with hsame | hlist
      · exact hother (hsame.symm.trans hentered)
      · rw [hentered, scope.view_isTaskView] at hlist
        cases hlist
  | failed hscope error hmsg hother =>
      rw [hfailed error hmsg] at hother
      cases hother

/-! ## What an event does about the loads of the current scope -/

/-- What an event does about the marks and the loads of the scope that is current after it. -/
inductive TaskTurn (x : System) (event : Event) (scope : TaskScope) : Prop where
  /-- No load of it begins or ends. It may be asked for while one is under way. -/
  | kept (hkeeps : ¬ x.Forgets scope event) (hscope : x.state.taskScope = some scope)
      (hcount : (x.after event).outstanding (Cmd.loadsTasks scope) =
        x.outstanding (Cmd.loadsTasks scope))
      (hloading : (x.after event).state.loading.get scope.view = x.state.loading.get scope.view)
      (hstale : (x.after event).state.stale.get scope.view = x.state.stale.get scope.view ∨
        x.state.loading.get scope.view = true)
  /-- A load of it begins. -/
  | begun (hkeeps : ¬ x.Forgets scope event) (hscope : x.state.taskScope = some scope)
      (hcount : (x.after event).outstanding (Cmd.loadsTasks scope) =
        x.outstanding (Cmd.loadsTasks scope) + 1)
      (hbefore : x.state.loading.get scope.view = false)
      (hloading : (x.after event).state.loading.get scope.view = true)
  /-- A load of it ends, and another one may begin. -/
  | ended (again : Bool) (hkeeps : ¬ x.Forgets scope event)
      (hscope : x.state.taskScope = some scope)
      (hbefore : 1 ≤ x.outstanding (Cmd.loadsTasks scope))
      (hcount : (x.after event).outstanding (Cmd.loadsTasks scope) + 1 =
        x.outstanding (Cmd.loadsTasks scope) + if again then 1 else 0)
      (hloading : (x.after event).state.loading.get scope.view = again)
      (hstale : (x.after event).state.stale.get scope.view = false)
  /-- Loads of it are let go of, and another one may begin. -/
  | forgotten (hforgets : x.Forgets scope event)
      (hcount : (x.after event).outstanding (Cmd.loadsTasks scope) =
        x.outstanding (Cmd.loadsTasks scope) +
          if (x.after event).state.loading.get scope.view then 1 else 0)
      (hstale : (x.after event).state.loading.get scope.view = false →
        (x.after event).state.stale.get scope.view = false)

/-- What settles nothing is not the failure of a load. -/
theorem not_forgets_of_unsettled {x : System} {event : Event} {scope : TaskScope}
    (hview : (x.after event).state.view = x.state.view ∨
      (x.after event).state.view.isTaskView = false)
    (hother : ∀ msg, event.msg? = some msg → ¬ msg.Settles scope) : ¬ x.Forgets scope event :=
  not_forgets hview fun _ hmsg => absurd rfl (hother _ hmsg)

section Turn

variable {x : System} {event : Event} {scope : TaskScope} (hnumbered : x.Numbered)
variable (allowed : x.Allows event)
include hnumbered allowed

/-- What settles nothing ends no load. -/
theorem Scoped.count_of_unsettled (h : x.Scoped) {scopes : List TaskScope}
    (hissues : Issues (x.state.react event).2 scopes)
    (hother : ∀ msg, event.msg? = some msg → ¬ msg.Settles scope) :
    (x.after event).outstanding (Cmd.loadsTasks scope) =
      x.outstanding (Cmd.loadsTasks scope) + scopes.count scope := by
  have hcount := tasks_count hnumbered allowed hissues scope
  rw [h.answers_eq_false allowed hother] at hcount
  exact hcount

/-- A load that is answered has been under way. -/
theorem outstanding_of_answered (hanswers : event.answers (Cmd.loadsTasks scope) = true) :
    1 ≤ x.outstanding (Cmd.loadsTasks scope) := by
  have hone := answers_le_outstanding hnumbered allowed (Cmd.loadsTasks scope)
  rwa [hanswers] at hone

theorem Scoped.turn_of_entered (h : x.Scoped) (hrow : x.state.view = scope.origin)
    (hview : (x.after event).state.view = scope.view)
    (hscope : (x.after event).state.taskScope = some scope)
    (hloading : (x.after event).state.loading.get scope.view = true)
    (hcmds : Issues (x.state.react event).2 [scope]) (hcalm : Calm event.msg?) :
    x.TaskTurn event scope := by
  have hother : x.state.view ≠ scope.view := by
    rw [hrow]
    exact State.ne_of_isTaskView scope.origin_isTaskView scope.view_isTaskView
  refine .forgotten (.entered hother hview hscope) ?_ ?_
  · rw [hloading]
    simpa using h.count_of_unsettled hnumbered allowed hcmds (hcalm.not_settles scope)
  · intro hnone
    rw [hloading] at hnone
    cases hnone

theorem turn_of_arrived {rows : List Row}
    (hmsg : event.msg? = some (.loaded scope.view (some scope) rows))
    (hscope : x.state.taskScope = some scope) (hview : (x.after event).state.view = x.state.view)
    {again : Bool} (hloading : (x.after event).state.loading.get scope.view = again)
    (hstale : (x.after event).state.stale.get scope.view = false)
    (hcmds : Issues (x.state.react event).2 (if again then [scope] else [])) :
    x.TaskTurn event scope := by
  obtain ⟨all, number, rfl⟩ := allowed.loadsTasks hmsg
  have hanswers : (Event.answer (.load scope.view all (some scope)) number
      (.loaded scope.view (some scope) rows)).answers (Cmd.loadsTasks scope) = true :=
    Cmd.loadsTasks_load scope.view all scope
  have hlast := tasks_count hnumbered allowed hcmds scope
  rw [hanswers, if_pos rfl] at hlast
  refine .ended again (not_forgets (Or.inl hview) nofun) hscope
    (outstanding_of_answered hnumbered allowed hanswers) ?_ hloading hstale
  rw [hlast]
  split <;> simp

theorem turn_of_failed {error : String}
    (hmsg : event.msg? = some (.loadFailed scope.view error))
    (hscope : x.state.taskScope = some scope) (hview : (x.after event).state.view = x.state.view)
    (hloading : (x.after event).state.loading.get scope.view = false)
    (hstale : (x.after event).state.stale.get scope.view = false)
    (hcmds : Issues (x.state.react event).2 []) : x.TaskTurn event scope := by
  have hlast := tasks_count hnumbered allowed hcmds scope
  -- It may have been a load of another scope that has the same view.
  cases hanswers : event.answers (Cmd.loadsTasks scope) with
  | true =>
      rw [hanswers] at hlast
      exact .ended false (not_forgets (Or.inl hview) fun _ _ => hanswers) hscope
        (outstanding_of_answered hnumbered allowed hanswers) (by simpa using hlast) hloading hstale
  | false =>
      rw [hanswers] at hlast
      refine .forgotten (.failed hscope error hmsg hanswers) ?_ fun _ => hstale
      rw [hloading]
      simpa using hlast

theorem Scoped.turn (h : x.Scoped) (hcurrent : (x.after event).state.taskScope = some scope) :
    x.TaskTurn event scope := by
  cases h.effect allowed with
  | other hview hprevious hscope hleft hcmds hmsg =>
      have hbefore := hscope.symm.trans hcurrent
      have hleaves := hleft scope hbefore
      exact .kept (not_forgets_of_unsettled hview (hmsg scope hbefore)) hbefore
        (h.count_of_unsettled hnumbered allowed hcmds (hmsg scope hbefore)) hleaves.loading
        (Or.inl hleaves.stale)
  | deferred current hplace hactive hscope hbefore hloading hstale hrows hcmds hcalm =>
      obtain rfl := Option.some.inj (hcurrent.symm.trans (hplace.taskScope.trans hscope))
      have hother := hcalm.not_settles scope
      exact .kept (not_forgets_of_unsettled (Or.inl hplace.view) hother) hscope
        (h.count_of_unsettled hnumbered allowed hcmds hother) (hloading.trans hbefore.symm)
        (Or.inr hbefore)
  | begun current hplace hactive hscope hbefore hloading hstale hrows hcmds hcalm =>
      obtain rfl := Option.some.inj (hcurrent.symm.trans (hplace.taskScope.trans hscope))
      have hother := hcalm.not_settles scope
      have hcount := h.count_of_unsettled hnumbered allowed hcmds hother
      exact .begun (not_forgets_of_unsettled (Or.inl hplace.view) hother) hscope
        (by simpa using hcount) hbefore hloading
  | entered current hrow hview hprevious hscope hloading hrows hcmds hcalm =>
      obtain rfl := Option.some.inj (hcurrent.symm.trans hscope)
      exact h.turn_of_entered hnumbered allowed hrow hview hscope hloading hcmds hcalm
  | arrived current rows hmsg hscope hplace hloading hstale hrows hcmds =>
      obtain rfl := Option.some.inj (hcurrent.symm.trans (hplace.taskScope.trans hscope))
      exact turn_of_arrived hnumbered allowed hmsg hscope hplace.view hloading hstale hcmds
  | failed current error hmsg hscope hplace hloading hstale hrows hcmds =>
      obtain rfl := Option.some.inj (hcurrent.symm.trans (hplace.taskScope.trans hscope))
      exact turn_of_failed hnumbered allowed hmsg hscope hplace.view hloading hstale hcmds

end Turn

/-! ## Marks -/

/-- A mark of the view of the current scope as loading stands for a load of this scope, and a mark
as stale for one that is going to be followed by another one. -/
structure Underway (x : System) : Prop where
  loading : ∀ scope, x.state.taskScope = some scope → x.state.loading.get scope.view = true →
    1 ≤ x.outstanding (Cmd.loadsTasks scope)
  stale : ∀ scope, x.state.taskScope = some scope → x.state.stale.get scope.view = true →
    x.state.loading.get scope.view = true

/-- The mark of the view of the current scope tells how many loads of this scope are under way, and
of no scope are there two. -/
structure Exclusive (x : System) : Prop where
  current : ∀ scope, x.state.taskScope = some scope → x.outstanding (Cmd.loadsTasks scope) =
    if x.state.loading.get scope.view then 1 else 0
  once : ∀ scope, x.outstanding (Cmd.loadsTasks scope) ≤ 1

/-- **One event.** Marks of the view of the current scope stand for what is under way. -/
theorem Underway.after {x : System} {event : Event} (h : x.Underway) (hx : x.Scoped)
    (hnumbered : x.Numbered) (allowed : x.Allows event) : (x.after event).Underway := by
  constructor
  · intro scope hcurrent hmark
    cases hx.turn hnumbered allowed hcurrent with
    | kept hkeeps hscope hcount hloading hstale =>
        have hbefore := h.loading scope hscope (hloading.symm.trans hmark)
        omega
    | begun hkeeps hscope hcount hbefore hloading => omega
    | ended again hkeeps hscope hbefore hcount hloading hstale =>
        rw [← hloading, hmark] at hcount
        simp only [if_true] at hcount
        omega
    | forgotten hforgets hcount hstale =>
        rw [hmark] at hcount
        simp only [if_true] at hcount
        omega
  · intro scope hcurrent hmark
    cases hx.turn hnumbered allowed hcurrent with
    | kept hkeeps hscope hcount hloading hstale =>
        rw [hloading]
        rcases hstale with hsame | hbefore
        · exact h.stale scope hscope (hsame.symm.trans hmark)
        · exact hbefore
    | begun hkeeps hscope hcount hbefore hloading => exact hloading
    | ended again hkeeps hscope hbefore hcount hloading hstale =>
        rw [hmark] at hstale
        cases hstale
    | forgotten hforgets hcount hstale =>
        cases hloading : (x.after event).state.loading.get scope.view with
        | true => rfl
        | false =>
            rw [hstale hloading] at hmark
            cases hmark

/-- **One event.** The mark of the view of the current scope tells how many loads of it are under
way, unless one is let go of. -/
theorem Exclusive.after {x : System} {event : Event} (h : x.Exclusive) (hx : x.Scoped)
    (hnumbered : x.Numbered) (allowed : x.Allows event)
    (hkept : ∀ scope, x.Forgets scope event → x.outstanding (Cmd.loadsTasks scope) = 0) :
    (x.after event).Exclusive := by
  have hnow (scope : TaskScope) (hcurrent : (x.after event).state.taskScope = some scope) :
      (x.after event).outstanding (Cmd.loadsTasks scope) =
        if (x.after event).state.loading.get scope.view then 1 else 0 := by
    cases hx.turn hnumbered allowed hcurrent with
    | kept hkeeps hscope hcount hloading hstale =>
        rw [hcount, hloading]
        exact h.current scope hscope
    | begun hkeeps hscope hcount hbefore hloading =>
        rw [hcount, hloading, h.current scope hscope, hbefore]
        rfl
    | ended again hkeeps hscope hbefore hcount hloading hstale =>
        -- The only load of the scope has ended.
        have hone := h.once scope
        rw [hloading]
        omega
    | forgotten hforgets hcount hstale =>
        rw [hcount, hkept scope hforgets, Nat.zero_add]
  refine ⟨hnow, fun scope => ?_⟩
  by_cases hcurrent : (x.after event).state.taskScope = some scope
  · rw [hnow scope hcurrent]
    split <;> omega
  · -- Of any other scope, no load begins.
    obtain ⟨scopes, hissues, honly⟩ := (hx.effect allowed).issues
    have hnone : scopes.count scope = 0 :=
      List.count_eq_zero.mpr fun hmem => hcurrent (honly scope hmem)
    have hcount := tasks_count hnumbered allowed hissues scope
    have hone := h.once scope
    omega

/-- Rows of the current scope replace those that are shown, however long ago their load began. -/
theorem older_tasks_shown {x : System} {scope : TaskScope}
    (hscope : x.state.taskScope = some scope) {all all' : Bool} {m n : Nat} (hne : m ≠ n)
    (hfirst : (.load scope.view all (some scope), m) ∈ x.pending)
    (rows rows' : List Row) :
    let y := x.after
      (.answer (.load scope.view all' (some scope)) n (.loaded scope.view (some scope) rows'))
    let older : Event :=
      .answer (.load scope.view all (some scope)) m (.loaded scope.view (some scope) rows)
    y.Allows older ∧ Arranges ((y.after older).state.sorted.get scope.view)
      ((y.after older).state.rows scope.view) rows := by
  intro y older
  have hleft : (Cmd.load scope.view all (some scope), m) ∈ y.pending := by
    refine List.mem_append_left _ (List.mem_filter.mpr ⟨hfirst, ?_⟩)
    simpa using hne
  have hcurrent : y.state.taskScope = some scope :=
    (State.onLoaded_place x.state scope.view (some scope) rows').taskScope.trans hscope
  exact ⟨⟨hleft, .loaded _ _ _ rows⟩, State.onLoaded_arranges hcurrent rows⟩

end System

namespace Run

variable {config : Config} {now : Int} {history earlier later : History} {y x : System}
variable {event : Event}

theorem underway (h : Run config now history x) : x.Underway := by
  induction h with
  | start => exact ⟨nofun, nofun⟩
  | step event run allowed ih => exact ih.after run.tasks_scoped run.numbered allowed

/-- As long as no load is let go of that is under way, loads of tasks are exclusive. -/
theorem exclusive (h : Run config now history x)
    (hkept : ∀ p ∈ history, ∀ scope, p.1.Forgets scope p.2 →
      p.1.outstanding (Cmd.loadsTasks scope) = 0) :
    x.Exclusive ∧ ∀ scope, ∀ p ∈ history, p.1.outstanding (Cmd.loadsTasks scope) ≤ 1 := by
  induction h with
  | start => exact ⟨⟨nofun, fun _ => Nat.zero_le _⟩, fun _ => List.forall_mem_nil _⟩
  | @step history x event run allowed ih =>
      obtain ⟨hbefore, hlast⟩ := List.forall_mem_append.mp hkept
      obtain ⟨hexclusive, hall⟩ := ih hbefore
      refine ⟨hexclusive.after run.tasks_scoped run.numbered allowed
        (hlast (x, event) List.mem_cons_self),
        fun scope => List.forall_mem_append.mpr ⟨hall scope, ?_⟩⟩
      exact List.forall_mem_singleton.mpr (hexclusive.once scope)

/-- An event that lets go of loads does not end them: they stay under way, next to the one that
may begin. -/
theorem forgets_count (h : Run config now history x) {scope : TaskScope}
    (allowed : x.Allows event) (hforgets : x.Forgets scope event) :
    (x.after event).outstanding (Cmd.loadsTasks scope) =
      x.outstanding (Cmd.loadsTasks scope) +
        if (x.after event).state.loading.get scope.view then 1 else 0 := by
  have hcurrent : (x.after event).state.taskScope = some scope := by
    cases hforgets with
    | entered hother hview hscope => exact hscope
    | failed hscope error hmsg hother =>
        show (x.state.react event).1.taskScope = some scope
        rw [State.react_eq_step hmsg]
        exact hscope
  cases h.tasks_scoped.turn h.numbered allowed hcurrent with
  | kept hkeeps => exact absurd hforgets hkeeps
  | begun hkeeps => exact absurd hforgets hkeeps
  | ended again hkeeps => exact absurd hforgets hkeeps
  | forgotten _ hcount => exact hcount

/-- **Loads of tasks.** As long as no load that is under way is let go of, the mark of the view of
the current scope tells how many loads of this scope are under way, no scope has two, and loads of
each scope end in the order in which they began. An event that lets go of loads leaves them under
way, next to the one that may begin. And when two loads of the current scope are under way and the
later one is answered first, its rows are replaced by those of the earlier one. -/
theorem one_load_of_tasks (h : Run config now history x) :
    ((∀ p ∈ history, ∀ scope, p.1.Forgets scope p.2 →
        p.1.outstanding (Cmd.loadsTasks scope) = 0) →
      (∀ scope, x.state.taskScope = some scope → x.outstanding (Cmd.loadsTasks scope) =
        if x.state.loading.get scope.view then 1 else 0) ∧
      ∀ scope, x.outstanding (Cmd.loadsTasks scope) ≤ 1 ∧
        (answersOf (Cmd.loadsTasks scope) history ++
          numbersOf (Cmd.loadsTasks scope) x.pending).Pairwise (· < ·)) ∧
    (∀ scope event, x.Allows event → x.Forgets scope event →
      (x.after event).outstanding (Cmd.loadsTasks scope) =
        x.outstanding (Cmd.loadsTasks scope) +
          if (x.after event).state.loading.get scope.view then 1 else 0) ∧
    ∀ scope all all' m n rows rows', x.state.taskScope = some scope → m < n →
      (.load scope.view all (some scope), m) ∈ x.pending →
      (.load scope.view all' (some scope), n) ∈ x.pending →
      let y := x.after
        (.answer (.load scope.view all' (some scope)) n (.loaded scope.view (some scope) rows'))
      let older : Event :=
        .answer (.load scope.view all (some scope)) m (.loaded scope.view (some scope) rows)
      y.Allows older ∧ Arranges ((y.after older).state.sorted.get scope.view)
        ((y.after older).state.rows scope.view) rows := by
  refine ⟨fun hkept => ?_, fun scope event => h.forgets_count, ?_⟩
  · obtain ⟨hexclusive, hall⟩ := h.exclusive hkept
    exact ⟨hexclusive.current, fun scope => ⟨hexclusive.once scope, (h.inTurn (hall scope)).rising⟩⟩
  · intro scope all all' m n rows rows' hscope hlt hfirst _
    exact System.older_tasks_shown hscope (Nat.ne_of_lt hlt) hfirst rows rows'

/-- The tasks of a stack are left and entered again before they have arrived. -/
theorem two_loads_of_stack : ∃ history x, Run {} 0 history x ∧
    (∀ p ∈ history, ∀ scope, p.1.Forgets scope p.2 →
      p.1.outstanding (Cmd.loadsTasks scope) = 0) ∧
    x.state.taskScope = some (.stack "a") ∧
    x.outstanding (Cmd.loadsTasks (.stack "a")) = 1 ∧
    ∃ event, x.Allows event ∧ x.Forgets (.stack "a") event ∧
      (x.after event).outstanding (Cmd.loadsTasks (.stack "a")) = 2 := by
  have hlisting := ((Run.start : Run {} 0 [] _).step .begin trivial).step
    (.input (.key { code := .char '7' })) rfl
  have hlisted := hlisting.step
    (.answer (.load .stackList false none) 3 (.loaded .stackList none [.stack { name := "a" }]))
    ⟨List.mem_of_getElem? (i := 3) rfl, .loaded .stackList false none _⟩
  have hleft := (hlisted.step (.input (.key { code := .enter })) rfl).step
    (.input (.key { code := .esc })) rfl
  obtain ⟨history, x, hrun, hkept, hscope, hmark, hforgets, hagain⟩ : ∃ history x,
      Run {} 0 history x ∧
      (∀ p ∈ history, ∀ scope, p.1.Forgets scope p.2 →
        p.1.outstanding (Cmd.loadsTasks scope) = 0) ∧
      x.state.taskScope = some (.stack "a") ∧
      x.state.loading.get .stackTasks = true ∧
      x.Forgets (.stack "a") (.input (.key { code := .enter })) ∧
      (x.after (.input (.key { code := .enter }))).state.loading.get .stackTasks = true := by
    refine ⟨[_, _, _, _, _], _, hleft, ?_, rfl, rfl, .entered nofun rfl rfl, rfl⟩
    simp only [List.forall_mem_cons]
    -- No tasks are under way before they are entered, and Esc leads to a list.
    refine ⟨fun _ _ => rfl, fun _ _ => rfl, fun _ _ => rfl, fun _ _ => rfl,
      fun scope hforgets => ?_, List.forall_mem_nil _⟩
    exact absurd hforgets (System.not_forgets (Or.inr rfl) nofun)
  obtain ⟨hexclusive, hcount, -⟩ := one_load_of_tasks hrun
  have hone : x.outstanding (Cmd.loadsTasks (.stack "a")) = 1 := by
    rw [(hexclusive hkept).1 _ hscope]
    exact if_pos hmark
  have allowed : x.Allows (.input (.key { code := .enter })) := rfl
  refine ⟨history, x, hrun, hkept, hscope, hone, _, allowed, hforgets, ?_⟩
  rw [hcount _ _ allowed hforgets, hone]
  exact congrArg (1 + ·) (if_pos hagain)

/-! ## Late results -/

/-- A load of a scope has ended, and has led to another one at once. -/
def Reloads (later : History) (scope : TaskScope) : Prop :=
  ∃ z all number rows,
    (z, .answer (.load scope.view all (some scope)) number
      (.loaded scope.view (some scope) rows)) ∈ later ∧
    (z.state.step (.loaded scope.view (some scope) rows)).2 =
      [.load scope.view z.state.showAll (some scope)]

theorem Reloads.append {later : History} {scope : TaskScope} (h : Reloads later scope)
    (last : History) : Reloads (later ++ last) scope := by
  obtain ⟨z, all, number, rows, hmem, hload⟩ := h
  exact ⟨z, all, number, rows, List.mem_append_left last hmem, hload⟩

/-- Tasks of the current scope have been asked for while a load of them is under way. As long as
their view is active and no load of it fails, they are still to be loaded again, unless a load of
them has led to another one. -/
theorem reloads (h : Run config now (earlier ++ (y, event) :: later) x) {scope : TaskScope}
    (hscope : (y.after event).state.taskScope = some scope)
    (hstale : (y.after event).state.stale.get scope.view = true)
    (hactive : ∀ p ∈ later, p.1.state.view = scope.view)
    (hfailed : ∀ p ∈ later, ∀ error, p.2.msg? ≠ some (.loadFailed scope.view error)) :
    (x.state.taskScope = some scope ∧ x.state.stale.get scope.view = true) ∨
      Reloads later scope := by
  refine h.since (motive := fun later x => (∀ p ∈ later, p.1.state.view = scope.view) →
    (∀ p ∈ later, ∀ error, p.2.msg? ≠ some (.loadFailed scope.view error)) →
      (x.state.taskScope = some scope ∧ x.state.stale.get scope.view = true) ∨
        Reloads later scope) ?_ ?_ hactive hfailed
  · intro _ _
    exact Or.inl ⟨hscope, hstale⟩
  · intro later z next run allowed ih hactive hfailed
    obtain ⟨hbefore, hlast⟩ := List.forall_mem_append.mp hactive
    obtain ⟨hnone, hnext⟩ := List.forall_mem_append.mp hfailed
    have hz : z.state.view = scope.view := hlast (z, next) List.mem_cons_self
    rcases ih hbefore hnone with ⟨hcurrent, hmark⟩ | hreloads
    · cases run.tasks_scoped.effect allowed with
      | other hview hprevious hsame hleft =>
          exact Or.inl ⟨hsame.trans hcurrent, (hleft scope hcurrent).stale.trans hmark⟩
      | deferred current hplace _ hnow _ _ hagain =>
          obtain rfl := Option.some.inj (hcurrent.symm.trans hnow)
          exact Or.inl ⟨hplace.taskScope.trans hcurrent, hagain⟩
      | begun current hplace _ hnow _ _ hsame =>
          obtain rfl := Option.some.inj (hcurrent.symm.trans hnow)
          exact Or.inl ⟨hplace.taskScope.trans hcurrent, hsame.trans hmark⟩
      | entered current hrow =>
          -- Tasks are entered from a list only.
          rw [hz] at hrow
          exact absurd hrow.symm
            (State.ne_of_isTaskView current.origin_isTaskView scope.view_isTaskView)
      | arrived current rows hmsg hnow =>
          obtain rfl := Option.some.inj (hcurrent.symm.trans hnow)
          obtain ⟨all, number, rfl⟩ := allowed.loadsTasks hmsg
          refine Or.inr ⟨z, all, number, rows, List.mem_append_right _ List.mem_cons_self, ?_⟩
          have hagain : (z.state.stale.get scope.view && scope.view == z.state.view) = true := by
            rw [hmark, hz]
            exact beq_self_eq_true scope.view
          show (z.state.onLoaded scope.view (some scope) rows).2 = _
          rw [State.onLoaded_current hcurrent, if_pos hagain]
      | failed current error hmsg hnow =>
          obtain rfl := Option.some.inj (hcurrent.symm.trans hnow)
          exact absurd hmsg (hnext (z, next) List.mem_cons_self error)
    · exact Or.inr (hreloads.append _)

/-- **Late results.** Tasks that arrive with another scope than the current one change nothing. When
a load of another scope fails, rows and scopes stay as they are; but the failure is shown, and the
marks of its view are removed, whatever scope they are meant for. If this is the view of the current
scope, its tasks arrive without leading to another load, even if they were asked for meanwhile.
Apart from failures no such request is forgotten: while the view stays active, tasks that were asked
for during a load are still to be loaded again, or their arrival has led to another load. -/
theorem late_tasks (h : Run config now history x) :
    (∀ view all scope number rows, x.state.taskScope ≠ some scope →
      x.Allows (.answer (.load view all (some scope)) number (.loaded view (some scope) rows)) →
      x.state.step (.loaded view (some scope) rows) = (x.state, [])) ∧
    (∀ view all scope number error, x.state.taskScope ≠ some scope →
      x.Allows (.answer (.load view all (some scope)) number (.loadFailed view error)) →
      let r := x.state.step (.loadFailed view error)
      r = ({ x.state with
          loading := x.state.loading.set view false
          stale := x.state.stale.set view false
          statusSeq := x.state.statusSeq + 1
          status := some {
            text := s!"Loading {view.title} failed: {error}"
            isError := true
            seq := x.state.statusSeq + 1 } },
        [.timer x.state.config.statusTtl (.statusExpired (x.state.statusSeq + 1))]) ∧
      ∀ current rows, x.state.taskScope = some current → view = current.view →
        (r.1.step (.loaded view (some current) rows)).2 = []) ∧
    ∀ earlier y event later scope, history = earlier ++ (y, event) :: later →
      (y.after event).state.taskScope = some scope →
      (y.after event).state.stale.get scope.view = true →
      (∀ p ∈ later, p.1.state.view = scope.view) →
      (∀ p ∈ later, ∀ error, p.2.msg? ≠ some (.loadFailed scope.view error)) →
      (x.state.taskScope = some scope ∧ x.state.stale.get scope.view = true ∧
        1 ≤ x.outstanding (Cmd.loadsTasks scope)) ∨ Reloads later scope := by
  refine ⟨fun view all scope number rows hlate allowed => ?_,
    fun view all scope number error _ _ => ⟨rfl, ?_⟩, ?_⟩
  · obtain rfl := (h.tasks_scoped.pending _ allowed.1).eq_view
    exact State.onLoaded_late hlate rows
  · rintro current rows hscope rfl
    let failed : State := (x.state.onLoadFailed current.view error).1
    have hscope' : failed.taskScope = some current := hscope
    -- The failure has removed the mark that would lead to another load.
    have hstale : failed.stale.get current.view = false := ByView.get_set_self _ _ _
    show (failed.onLoaded current.view (some current) rows).2 = []
    rw [State.onLoaded_current hscope', hstale, Bool.false_and, if_neg Bool.false_ne_true]
    rfl
  · rintro earlier y event later scope rfl hscope hstale hactive hfailed
    rcases h.reloads hscope hstale hactive hfailed with ⟨hcurrent, hmark⟩ | hreloads
    · have hunder := h.underway
      have hloading := hunder.stale scope hcurrent hmark
      exact Or.inl ⟨hcurrent, hmark, hunder.loading scope hcurrent hloading⟩
    · exact Or.inr hreloads

/-- The tasks of one stack are asked for twice before those of another one arrive or fail. -/
theorem late_tasks_of_first_stack : ∃ history x, Run {} 0 history x ∧
    x.state.taskScope = some (.stack "b") ∧ x.state.stale.get .stackTasks = true ∧
    1 ≤ x.outstanding (Cmd.loadsTasks (.stack "b")) ∧
    (∀ rows, x.state.step (.loaded .stackTasks (some (.stack "a")) rows) = (x.state, [])) ∧
    ∀ error rows, ((x.state.step (.loadFailed .stackTasks error)).1.step
      (.loaded .stackTasks (some (.stack "b")) rows)).2 = [] := by
  have hlisting := ((Run.start : Run {} 0 [] _).step .begin trivial).step
    (.input (.key { code := .char '7' })) rfl
  have hlisted := hlisting.step
    (.answer (.load .stackList false none) 3
      (.loaded .stackList none [.stack { name := "a" }, .stack { name := "b" }]))
    ⟨List.mem_of_getElem? (i := 3) rfl, .loaded .stackList false none _⟩
  have hfirst := (hlisted.step (.input (.key { code := .enter })) rfl).step
    (.input (.key { code := .esc })) rfl
  have hsecond := (hfirst.step (.input (.key { code := .down })) rfl).step
    (.input (.key { code := .enter })) rfl
  have hasked := hsecond.step (.input (.key { code := .function 5 })) rfl
  obtain ⟨earlier, y, event, x, hrun, hscope, hstale, hpending, hscope', hstale'⟩ :
      ∃ earlier y event x, Run {} 0 (earlier ++ [(y, event)]) x ∧
        x.state.taskScope = some (.stack "b") ∧ x.state.stale.get .stackTasks = true ∧
        (.load .stackTasks false (some (.stack "a")), 4) ∈ x.pending ∧
        (y.after event).state.taskScope = some (.stack "b") ∧
        (y.after event).state.stale.get .stackTasks = true :=
    ⟨_, _, _, _, hasked, rfl, rfl, List.mem_of_getElem? (i := 3) rfl, rfl, rfl⟩
  obtain ⟨harrived, hfailed, hreloads⟩ := late_tasks hrun
  have hlate : x.state.taskScope ≠ some (.stack "a") := by
    rw [hscope]
    decide
  refine ⟨_, x, hrun, hscope, hstale, ?_, fun rows => ?_, fun error rows => ?_⟩
  · rcases hreloads earlier y event [] (.stack "b") rfl hscope' hstale' (List.forall_mem_nil _)
      (List.forall_mem_nil _) with ⟨-, -, hunder⟩ | ⟨z, all, number, rows, hmem, -⟩
    · exact hunder
    · cases hmem
  · exact harrived _ false _ 4 rows hlate ⟨hpending, .loaded _ _ _ rows⟩
  · exact (hfailed _ false _ 4 error hlate ⟨hpending, .loadFailed _ _ _ error⟩).2 _ rows hscope rfl

end Run

end Dockboard
