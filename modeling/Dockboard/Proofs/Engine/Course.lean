import Dockboard.Engine.Exchange

set_option autoImplicit false

/-! # Courses of an exchange

An exchange branches on every answer it is given. A course is one way through it, from what is asked
first to the value at the end:

    Turn                    what is asked, with its answer
    Course x turns value    the answers in `turns` lead through `x` to `value`
    script.Gives turns      the answers in `turns` are the first ones of the script

Scripted answers lead through every exchange (`course_play`), so what holds of all courses holds
whatever is answered. The courses of an exchange that depends on the value of another one are put
together from courses of both (`course_andThen`, `course_bind`).
-/

namespace Dockboard.Engine

variable {α β : Type}

namespace Exchange

/-- What is asked in an exchange, with its answer. -/
inductive Turn where
  | request (request : Request) (reply : Except String Reply)
  | command (args : List String) (output : Except String Output)

/-- The arguments of a command that is run. -/
def Turn.command? : Turn → Option (List String)
  | .request _ _ => none
  | .command args _ => some args

/-- The arguments of the commands that are run. -/
def commandsOf (turns : List Turn) : List (List String) := turns.filterMap Turn.command?

@[simp] theorem commandsOf_append (turns more : List Turn) :
    commandsOf (turns ++ more) = commandsOf turns ++ commandsOf more :=
  List.filterMap_append

/-- One way through an exchange, with the value at its end. -/
inductive Course : Exchange α → List Turn → α → Prop where
  | done (value : α) : Course (.done value) [] value
  | request {next : Except String Reply → Exchange α} {turns : List Turn} {value : α}
      (asked : Request) (reply : Except String Reply) (h : Course (next reply) turns value) :
      Course (.request asked next) (.request asked reply :: turns) value
  | command {next : Except String Output → Exchange α} {turns : List Turn} {value : α}
      (args : List String) (output : Except String Output)
      (h : Course (next output) turns value) :
      Course (.command args next) (.command args output :: turns) value

/-- The answers are those that a script gives first. -/
def Script.Gives (script : Script) : List Turn → Prop
  | [] => True
  | .request _ reply :: turns =>
      reply = script.replies.headD script.lastReply ∧
        Script.Gives { script with replies := script.replies.tail } turns
  | .command _ output :: turns =>
      output = script.outputs.headD script.lastOutput ∧
        Script.Gives { script with outputs := script.outputs.tail } turns

/-- Scripted answers lead through an exchange. -/
theorem course_play (x : Exchange α) (script : Script) :
    ∃ turns, Course x turns (x.play script).1 ∧ script.Gives turns ∧
      (x.play script).2.commands = commandsOf turns := by
  induction x generalizing script with
  | done value => exact ⟨[], .done value, trivial, rfl⟩
  | request asked next ih =>
      obtain ⟨turns, hcourse, hgiven, hcommands⟩ := ih (script.replies.headD script.lastReply)
        { script with replies := script.replies.tail }
      exact ⟨_, .request asked _ hcourse, ⟨rfl, hgiven⟩, hcommands⟩
  | command args next ih =>
      obtain ⟨turns, hcourse, hgiven, hcommands⟩ := ih (script.outputs.headD script.lastOutput)
        { script with outputs := script.outputs.tail }
      exact ⟨_, .command args _ hcourse, ⟨rfl, hgiven⟩, congrArg (args :: ·) hcommands⟩

theorem course_done {value value' : α} {turns : List Turn} :
    Course (.done value) turns value' ↔ turns = [] ∧ value' = value := by
  constructor
  · intro h
    cases h
    exact ⟨rfl, rfl⟩
  · rintro ⟨rfl, rfl⟩
    exact .done value'

theorem course_run {args : List String} {turns : List Turn} {output : Except String Output} :
    Course (Exchange.run args) turns output ↔ turns = [.command args output] := by
  constructor
  · intro h
    cases h with
    | command _ _ hdone =>
        obtain ⟨rfl, rfl⟩ := course_done.mp hdone
        rfl
  · rintro rfl
    exact .command args output (.done output)

theorem course_ask {asked : Request} {turns : List Turn} {reply : Except String Reply} :
    Course (Exchange.ask asked) turns reply ↔ turns = [.request asked reply] := by
  constructor
  · intro h
    cases h with
    | request _ _ hdone =>
        obtain ⟨rfl, rfl⟩ := course_done.mp hdone
        rfl
  · rintro rfl
    exact .request asked reply (.done reply)

/-- **One exchange after the other.** -/
theorem course_andThen {x : Exchange α} {f : α → Exchange β} {turns : List Turn} {value : β} :
    Course (x.andThen f) turns value ↔
      ∃ first a later, turns = first ++ later ∧ Course x first a ∧ Course (f a) later value := by
  constructor
  · intro h
    induction x generalizing turns with
    | done a => exact ⟨[], a, turns, rfl, .done a, h⟩
    | request asked next ih =>
        cases h with
        | request _ reply hnext =>
            obtain ⟨first, a, later, rfl, hfirst, hlater⟩ := ih reply hnext
            exact ⟨_, a, later, rfl, .request asked reply hfirst, hlater⟩
    | command args next ih =>
        cases h with
        | command _ output hnext =>
            obtain ⟨first, a, later, rfl, hfirst, hlater⟩ := ih output hnext
            exact ⟨_, a, later, rfl, .command args output hfirst, hlater⟩
  · rintro ⟨first, a, later, rfl, hfirst, hlater⟩
    induction hfirst with
    | done a => exact hlater
    | request asked reply _ ih => exact .request asked reply (ih hlater)
    | command args output _ ih => exact .command args output (ih hlater)

end Exchange

/-! ## Dialogues -/

namespace Dialogue

open Exchange

/-- A dialogue is gone through with an answer or a failure at its end. -/
def Course (x : Dialogue α) (turns : List Turn) (answer : Except Failure α) : Prop :=
  Exchange.Course x.run turns answer

theorem course_pure {value : α} {turns : List Turn} {answer : Except Failure α} :
    Course (pure value) turns answer ↔ turns = [] ∧ answer = .ok value :=
  course_done

theorem course_throw {failure : Failure} {turns : List Turn} {answer : Except Failure α} :
    Course (throw failure) turns answer ↔ turns = [] ∧ answer = .error failure :=
  course_done

theorem course_ofExcept {outcome : Except Failure α} {turns : List Turn}
    {answer : Except Failure α} :
    Course (ofExcept outcome : Dialogue α) turns answer ↔ turns = [] ∧ answer = outcome := by
  cases outcome with
  | error failure => exact course_throw
  | ok value => exact course_pure

/-- An exchange as a part of a dialogue does not fail. -/
theorem course_lift {x : Exchange α} {turns : List Turn} {answer : Except Failure α} :
    Course (liftM x : Dialogue α) turns answer ↔
      ∃ a, Exchange.Course x turns a ∧ answer = .ok a := by
  have hlift : (liftM x : Dialogue α).run = x.andThen fun a => .done (.ok a) := rfl
  unfold Course
  rw [hlift, course_andThen]
  constructor
  · rintro ⟨first, a, later, rfl, hfirst, hlater⟩
    obtain ⟨rfl, rfl⟩ := course_done.mp hlater
    exact ⟨a, (List.append_nil first).symm ▸ hfirst, rfl⟩
  · rintro ⟨a, hx, rfl⟩
    exact ⟨turns, a, [], (List.append_nil _).symm, hx, .done _⟩

/-- A failure ends a dialogue. -/
theorem course_bind {x : Dialogue α} {f : α → Dialogue β} {turns : List Turn}
    {answer : Except Failure β} :
    Course (x >>= f) turns answer ↔
      (∃ failure, Course x turns (.error failure) ∧ answer = .error failure) ∨
        ∃ a first later, turns = first ++ later ∧ Course x first (.ok a) ∧
          Course (f a) later answer := by
  have hbind : (x >>= f).run = x.run.andThen fun
      | .ok a => (f a).run
      | .error failure => .done (.error failure) := by
    show x.run.andThen _ = _
    congr 1
    funext outcome
    cases outcome <;> rfl
  unfold Course
  rw [hbind, course_andThen]
  constructor
  · rintro ⟨first, outcome, later, rfl, hfirst, hlater⟩
    cases outcome with
    | error failure =>
        obtain ⟨rfl, rfl⟩ := course_done.mp hlater
        rw [List.append_nil]
        exact Or.inl ⟨failure, hfirst, rfl⟩
    | ok a => exact Or.inr ⟨a, first, later, rfl, hfirst, hlater⟩
  · rintro (⟨failure, hfirst, rfl⟩ | ⟨a, first, later, rfl, hfirst, hlater⟩)
    · exact ⟨turns, _, [], (List.append_nil _).symm, hfirst, .done _⟩
    · exact ⟨first, _, later, rfl, hfirst, hlater⟩

/-- A dialogue that is held for what it does. -/
theorem course_discard {x : Dialogue α} {turns : List Turn} {answer : Except Failure Unit} :
    Course (discard x) turns answer ↔
      ∃ outcome, Course x turns outcome ∧ answer = outcome.map fun _ => () := by
  have hdiscard : (discard x : Dialogue Unit).run =
      x.run.andThen fun outcome => .done (outcome.map fun _ => ()) := by
    show x.run.andThen _ = _
    congr 1
    funext outcome
    cases outcome <;> rfl
  unfold Course
  rw [hdiscard, course_andThen]
  constructor
  · rintro ⟨first, outcome, later, rfl, hfirst, hlater⟩
    obtain ⟨rfl, rfl⟩ := course_done.mp hlater
    exact ⟨outcome, (List.append_nil first).symm ▸ hfirst, rfl⟩
  · rintro ⟨outcome, hx, rfl⟩
    exact ⟨turns, outcome, [], (List.append_nil _).symm, hx, .done _⟩

/-- A failure that is caught is followed by what is done about it. -/
theorem course_catch {x : Dialogue α} {f : Failure → Dialogue α} {turns : List Turn}
    {answer : Except Failure α} :
    Course (tryCatch x f) turns answer ↔
      (∃ a, Course x turns (.ok a) ∧ answer = .ok a) ∨
        ∃ failure first later, turns = first ++ later ∧ Course x first (.error failure) ∧
          Course (f failure) later answer := by
  have hcatch : (tryCatch x f).run = x.run.andThen fun
      | .ok a => .done (.ok a)
      | .error failure => (f failure).run := by
    show x.run.andThen _ = _
    congr 1
    funext outcome
    cases outcome <;> rfl
  unfold Course
  rw [hcatch, course_andThen]
  constructor
  · rintro ⟨first, outcome, later, rfl, hfirst, hlater⟩
    cases outcome with
    | ok a =>
        obtain ⟨rfl, rfl⟩ := course_done.mp hlater
        rw [List.append_nil]
        exact Or.inl ⟨a, hfirst, rfl⟩
    | error failure => exact Or.inr ⟨failure, first, later, rfl, hfirst, hlater⟩
  · rintro (⟨a, hfirst, rfl⟩ | ⟨failure, first, later, rfl, hfirst, hlater⟩)
    · exact ⟨turns, _, [], (List.append_nil _).symm, hfirst, .done _⟩
    · exact ⟨first, _, later, rfl, hfirst, hlater⟩

end Dialogue

end Dockboard.Engine
