import Dockboard.Failure

set_option autoImplicit false

/-! # Exchanges

A client talks to the daemon by requests, and to the swarm by a command that is run. What it does
next depends on the answers, so what it does altogether is a tree: at each node something is
asked, and there is a branch for every answer. Nothing is said about where the answers come from.
-/

namespace Dockboard.Engine

/-- What a request is made for. -/
inductive Verb where
  | get
  | post
  | delete
  deriving DecidableEq, Repr, Inhabited

/-- The word for it. -/
def Verb.word : Verb → String
  | get => "GET"
  | post => "POST"
  | delete => "DELETE"

/-- A request to the daemon. -/
structure Request where
  verb : Verb
  /-- The path and what is asked of it. -/
  target : String
  deriving DecidableEq, Repr, Inhabited

/-- A request as one line. -/
def Request.line (r : Request) : String := r.verb.word ++ " " ++ r.target

/-- The daemon's answer. -/
structure Reply where
  status : Nat
  /-- The body, in the pieces in which it arrives. -/
  pieces : List (List UInt8)
  deriving DecidableEq, Repr, Inhabited

/-- What a command that has been run leaves behind. -/
structure Output where
  code : UInt8 := 0
  stdout : List UInt8 := []
  stderr : List UInt8 := []
  deriving DecidableEq, Repr, Inhabited

/-- A dialogue that ends with a value. A request that cannot be made and a command that cannot be
run are answered by the reason. -/
inductive Exchange (α : Type) where
  | done (value : α)
  | request (request : Request) (next : Except String Reply → Exchange α)
  | command (args : List String) (next : Except String Output → Exchange α)

namespace Exchange

variable {α β γ : Type}

/-- One exchange, and another that depends on its value. -/
def andThen : Exchange α → (α → Exchange β) → Exchange β
  | done value, f => f value
  | request r next, f => request r fun reply => andThen (next reply) f
  | command args next, f => command args fun output => andThen (next output) f

instance : Monad Exchange where
  pure := done
  bind := andThen

/-- Make a request. -/
def ask (r : Request) : Exchange (Except String Reply) := request r done

/-- Run a command. -/
def run (args : List String) : Exchange (Except String Output) := command args done

theorem andThen_assoc (x : Exchange α) (f : α → Exchange β) (g : β → Exchange γ) :
    (x.andThen f).andThen g = x.andThen fun a => (f a).andThen g := by
  induction x with
  | done value => rfl
  | request r next ih => simp [andThen, ih]
  | command args next ih => simp [andThen, ih]

/-! ## Playing an exchange -/

/-- What the answers of an exchange are taken from, in this order. -/
structure Script where
  replies : List (Except String Reply)
  outputs : List (Except String Output)
  /-- The reply when there is none left. -/
  lastReply : Except String Reply
  /-- The output when there is none left. -/
  lastOutput : Except String Output

/-- What has been asked in an exchange. -/
structure Transcript where
  requests : List Request := []
  commands : List (List String) := []
  deriving Repr, Inhabited

/-- The value of an exchange whose answers are scripted, and what has been asked in it. -/
def play (script : Script) : Exchange α → α × Transcript
  | done value => (value, {})
  | request r next =>
      let (value, later) :=
        play { script with replies := script.replies.tail }
          (next (script.replies.headD script.lastReply))
      (value, { later with requests := r :: later.requests })
  | command args next =>
      let (value, later) :=
        play { script with outputs := script.outputs.tail }
          (next (script.outputs.headD script.lastOutput))
      (value, { later with commands := args :: later.commands })

end Exchange

/-- An exchange that may fail. -/
abbrev Dialogue := ExceptT Failure Exchange

end Dockboard.Engine
