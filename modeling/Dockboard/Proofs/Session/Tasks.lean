import Dockboard.Proofs.Session.Scopes

set_option autoImplicit false

/-! # Tasks that are shown

Tasks of a scope that was left are never shown under another one, even when they arrive late: in
every state of a session, the rows of the view of the current scope have arrived with this scope, or
there are none.

    HoldsTasks s history scope   the rows of the view of `scope` have arrived with it
    TasksShown s history         so have those of the current scope, if there are any
-/

namespace Dockboard

open Dockboard.Stream

/-! ## Runs -/

namespace System

/-- What is loaded are scopes that their views list, and so is what is shown. -/
structure Scoped (x : System) : Prop where
  state : x.state.Scoped
  pending : ∀ p ∈ x.pending, p.1.Fits

theorem Allows.fits {x : System} {event : Event} (allowed : x.Allows event)
    (hpending : ∀ p ∈ x.pending, p.1.Fits) {msg : Msg} (hmsg : event.msg? = some msg) :
    msg.Fits := by
  cases event with
  | begin => cases hmsg
  | input other =>
      cases hmsg
      cases msg <;> first | exact trivial | cases allowed
  | answer cmd number other =>
      cases hmsg
      exact allowed.2.fits (hpending _ allowed.1)

/-- What an event does about the tasks of the current scope. -/
theorem Scoped.effect {x : System} {event : Event} (h : x.Scoped) (allowed : x.Allows event) :
    State.TaskEffect x.state event.msg? (x.state.react event) :=
  (State.react_reaction x.state event).taskEffect h.state fun _ hmsg =>
    allowed.fits h.pending hmsg

/-- Tasks of a scope arrive as the answer of a load of this scope. -/
theorem Allows.loadsTasks {x : System} {event : Event} (allowed : x.Allows event) {view : View}
    {scope : TaskScope} {rows : List Row}
    (hmsg : event.msg? = some (.loaded view (some scope) rows)) :
    ∃ all number, event =
      .answer (.load view all (some scope)) number (.loaded view (some scope) rows) := by
  obtain ⟨cmd, number, rfl, -, -⟩ := answer_of_lands allowed hmsg rfl
  cases allowed.2 with
  | loaded view all scope rows => exact ⟨all, number, rfl⟩

theorem Scoped.step {x : System} {event : Event} (h : x.Scoped) (allowed : x.Allows event) :
    (x.after event).Scoped := by
  have heffect := h.effect allowed
  refine ⟨heffect.scoped_step h.state, fun p hp => ?_⟩
  rcases List.mem_append.mp hp with hold | hnew
  · exact h.pending p ((x.left_sublist event).subset hold)
  · obtain ⟨scopes, hissues, -⟩ := heffect.issues
    exact hissues.fits _ (List.fst_mem_of_mem_zipIdx hnew)

end System

/-! ## Rows of tasks -/

namespace State

/-- The rows of the view of a scope are tasks that have arrived with this scope, sorted if the view
is. -/
def HoldsTasks (s : State) (history : History) (scope : TaskScope) : Prop :=
  ∃ z all number rows,
    (z, .answer (.load scope.view all (some scope)) number
      (.loaded scope.view (some scope) rows)) ∈ history ∧
    Arranges (s.sorted.get scope.view) (s.rows scope.view) rows

/-- The tasks of the current scope have arrived with it, if there are any. -/
def TasksShown (s : State) (history : History) : Prop :=
  ∀ scope, s.taskScope = some scope → s.rows scope.view = [] ∨ s.HoldsTasks history scope

theorem HoldsTasks.keeps {s s' : State} {history : History} {scope : TaskScope}
    (h : s.HoldsTasks history scope) (hkeeps : Keeps s s' scope.view) :
    s'.HoldsTasks history scope := by
  obtain ⟨z, all, number, rows, hmem, hrows⟩ := h
  exact ⟨z, all, number, rows, hmem, hkeeps.arranged.trans hrows hkeeps.sorted⟩

theorem HoldsTasks.append {s : State} {history : History} {scope : TaskScope}
    (h : s.HoldsTasks history scope) (last : History) : s.HoldsTasks (history ++ last) scope := by
  obtain ⟨z, all, number, rows, hmem, hrows⟩ := h
  exact ⟨z, all, number, rows, List.mem_append_left last hmem, hrows⟩

theorem Keeps.eq_nil {s s' : State} {view : View} (h : Keeps s s' view)
    (hempty : s.rows view = []) : s'.rows view = [] := by
  have hperm := h.arranged.perm
  rw [hempty] at hperm
  exact hperm.eq_nil

end State

namespace System

/-- **One event.** Tasks that are shown are kept, forgotten with their scope, or replaced by tasks
that arrive with the current scope. -/
theorem shown_after {x : System} {event : Event} {history : History} (hx : x.Scoped)
    (h : x.state.TasksShown history) (allowed : x.Allows event) :
    (x.after event).state.TasksShown (history ++ [(x, event)]) := by
  have hkept {scope : TaskScope} (hscope : x.state.taskScope = some scope)
      (hkeeps : State.Keeps x.state (x.after event).state scope.view) :
      (x.after event).state.rows scope.view = [] ∨
        (x.after event).state.HoldsTasks (history ++ [(x, event)]) scope :=
    (h scope hscope).imp hkeeps.eq_nil fun hholds => (hholds.keeps hkeeps).append _
  intro current hcurrent
  cases hx.effect allowed with
  | other hview hprevious hscope hleft =>
      rw [← hscope] at hleft
      exact hkept (hscope.symm.trans hcurrent) (hleft current hcurrent).rows
  | deferred scope hplace hactive hscope hbefore hloading hstale hrows =>
      obtain rfl := Option.some.inj (hcurrent.symm.trans (hplace.taskScope.trans hscope))
      exact hkept hscope hrows
  | begun scope hplace hactive hscope hbefore hloading hstale hrows =>
      obtain rfl := Option.some.inj (hcurrent.symm.trans (hplace.taskScope.trans hscope))
      exact hkept hscope hrows
  | entered scope hrow hview hprevious hscope hloading hrows =>
      obtain rfl := Option.some.inj (hcurrent.symm.trans hscope)
      rcases hrows with ⟨hsame, hkeeps⟩ | hempty
      · exact hkept hsame hkeeps
      · exact Or.inl hempty
  | arrived scope rows hmsg hscope hplace hloading hstale hrows =>
      obtain rfl := Option.some.inj (hcurrent.symm.trans (hplace.taskScope.trans hscope))
      obtain ⟨all, number, rfl⟩ := allowed.loadsTasks hmsg
      exact Or.inr ⟨x, all, number, rows, List.mem_append_right _ List.mem_cons_self, hrows⟩
  | failed scope error hmsg hscope hplace hloading hstale hrows =>
      obtain rfl := Option.some.inj (hcurrent.symm.trans (hplace.taskScope.trans hscope))
      exact hkept hscope hrows

end System

namespace Run

variable {config : Config} {now : Int} {history : History} {x : System}

theorem tasks_scoped (h : Run config now history x) : x.Scoped :=
  h.induct ⟨⟨rfl, nofun⟩, nofun⟩ fun _ _ allowed hx => hx.step allowed

theorem tasks_shown (h : Run config now history x) : x.state.TasksShown history := by
  induction h with
  | start => exact fun scope hscope => by cases hscope
  | step event run allowed ih => exact System.shown_after run.tasks_scoped ih allowed

/-- **Tasks.** Whenever a task view is active, there is a current scope, which is of the kind of the
view. Esc and Backspace lead back to the list in which it is a row. And the rows of the view are
tasks that have arrived with this very scope, if there are any. -/
theorem tasks_of_scope (h : Run config now history x) (hview : x.state.view.isTaskView = true) :
    ∃ scope, x.state.taskScope = some scope ∧ x.state.view = scope.view ∧
      x.state.previous = scope.origin ∧
      (∀ key : Key, x.state.layer = none → key.control = false →
        key.code = .esc ∨ key.code = .backspace →
        (x.state.step (.key key)).1.view = scope.origin) ∧
      (x.state.rows x.state.view = [] ∨ x.state.HoldsTasks history scope) := by
  obtain ⟨scope, hscope, hactive, hprevious⟩ := h.tasks_scoped.state.active hview
  refine ⟨scope, hscope, hactive, hprevious, fun key hbare hplain hcode => ?_, ?_⟩
  · have hback : x.state.step (.key key) =
        ({ x.state with status := none } : State).switchView x.state.previous := by
      show x.state.press key = _
      rw [State.press_bare key hbare]
      unfold State.pressGlobal? State.pressView
      rcases hcode with hcode | hcode <;>
        simp only [hplain, hcode, State.back, hview, Bool.false_eq_true, if_false, if_true,
          Option.getD_none]
    rw [hback, State.switchView_view, hprevious]
  · rw [hactive]
    exact h.tasks_shown scope hscope

/-- The tasks of one stack arrive when those of another one are shown. -/
theorem tasks_of_second_stack : ∃ history x, Run {} 0 history x ∧
    x.state.view.isTaskView = true ∧ x.state.taskScope = some (.stack "b") ∧
    x.state.rows .stackTasks = [.task { id := "t2" }] ∧
    x.state.HoldsTasks history (.stack "b") := by
  have hlisting := ((Run.start : Run {} 0 [] _).step .begin trivial).step
    (.input (.key { code := .char '7' })) rfl
  have hlisted := hlisting.step
    (.answer (.load .stackList false none) 3
      (.loaded .stackList none [.stack { name := "a" }, .stack { name := "b" }]))
    ⟨List.mem_of_getElem? (i := 3) rfl, .loaded .stackList false none _⟩
  have hfirst := (hlisted.step (.input (.key { code := .enter })) rfl).step
    (.input (.key { code := .esc })) rfl
  have hsecond := (hfirst.step (.input (.key { code := .down })) rfl).step
    (.input (.key { code := .enter })) rfl
  have hshown := hsecond.step
    (.answer (.load .stackTasks false (some (.stack "b"))) 6
      (.loaded .stackTasks (some (.stack "b")) [.task { id := "t2" }]))
    ⟨List.mem_of_getElem? (i := 5) rfl, .loaded .stackTasks false _ _⟩
  have hlate := hshown.step
    (.answer (.load .stackTasks false (some (.stack "a"))) 4
      (.loaded .stackTasks (some (.stack "a")) [.task { id := "t1" }]))
    ⟨List.mem_of_getElem? (i := 3) rfl, .loaded .stackTasks false _ _⟩
  obtain ⟨history, x, hrun, hactive, hcurrent, hrows⟩ : ∃ history x, Run {} 0 history x ∧
      x.state.view = .stackTasks ∧ x.state.taskScope = some (.stack "b") ∧
      x.state.rows .stackTasks = [.task { id := "t2" }] :=
    ⟨_, _, hlate, rfl, rfl, rfl⟩
  have hview : x.state.view.isTaskView = true := by
    rw [hactive]
    rfl
  obtain ⟨scope, hscope, -, -, -, hholds⟩ := tasks_of_scope hrun hview
  obtain rfl := Option.some.inj (hcurrent.symm.trans hscope)
  refine ⟨history, x, hrun, hview, hcurrent, hrows, hholds.resolve_left ?_⟩
  rw [hactive, hrows]
  exact List.cons_ne_nil _ _

end Run

end Dockboard
