import Dockboard.Session.Perform
import Dockboard.Session.Step

set_option autoImplicit false

/-! # Running a session

An executor keeps a session together with the commands it has issued, which are numbered, and
the messages on their way to it. Which command is begun next, and when a message is received, is
up to whoever runs it.
-/

namespace Dockboard

/-- A session, its commands and its messages. -/
structure Executor where
  state : State
  /-- Every command that was issued. -/
  cmds : List Cmd := []
  /-- The numbers of the commands that were begun. -/
  begun : List Nat := []
  /-- The numbers of the commands that read a silent stream. -/
  silent : List Nat := []
  /-- The messages on their way, the oldest first. -/
  inbox : List Msg := []

/-- What a step of a session had for effects. -/
structure Effects where
  /-- The number of the first command that was issued. -/
  first : Nat
  cmds : List Cmd
  /-- The numbers of the commands whose tokens were cancelled. -/
  cancelled : List Nat

namespace Executor

/-- The numbers of the commands whose token was cancelled between two states. -/
def newlyCancelled (before after : State) (cmds : List Cmd) : List Nat :=
  (cmds.zipIdx.filter fun (cmd, _) =>
    cmd.token?.any fun token =>
      after.cancelled.contains token && !before.cancelled.contains token).map Prod.snd

/-- Take over the outcome of a step. Reads that are given up by it send their message. -/
def absorb (x : Executor) (step : Step) : Executor × Effects :=
  let cmds := x.cmds ++ step.2
  let cancelled := newlyCancelled x.state step.1 cmds
  let givenUp := x.silent.filter cancelled.contains
  ({ x with
     state := step.1
     cmds
     silent := x.silent.filter fun n => !cancelled.contains n
     inbox := x.inbox ++ givenUp.filterMap fun n => cmds[n]?.bind Cmd.abandoned? },
   { first := x.cmds.length, cmds := step.2, cancelled })

/-- Begin the session. -/
def begin (x : Executor) : Executor × Effects := x.absorb x.state.begin

/-- Hand a message to the session. -/
def deliver (x : Executor) (msg : Msg) : Executor × Effects := x.absorb (x.state.step msg)

/-- The message of a command, if it has one by now: a read that was given up before it began
does not wait for its stream. -/
def settle (x : Executor) (cmd : Cmd) (answer : Option Msg) : Option Msg :=
  if cmd.token?.any x.state.cancelled.contains then cmd.abandoned? else answer

/-- Begin command number `n`, unless there is none or it has been begun before. -/
def start {m : Type → Type} [Monad m] (daemon : Daemon m) (x : Executor) (n : Nat) :
    m (Option Executor) := do
  match x.cmds[n]? with
  | none => return none
  | some cmd =>
      if x.begun.contains n then return none
      else
        let x := { x with begun := n :: x.begun }
        match x.settle cmd (← cmd.perform daemon) with
        | some msg => return some { x with inbox := x.inbox ++ [msg] }
        | none => return some { x with silent := x.silent ++ [n] }

/-- Take the next message and hand it to the session, if there is one. -/
def receive (x : Executor) : Option (Msg × Executor × Effects) :=
  match x.inbox with
  | [] => none
  | msg :: rest => some (msg, { x with inbox := rest }.deliver msg)

end Executor

end Dockboard
