import Dockboard.Arguments
import Dockboard.Engine.Client

set_option autoImplicit false

/-! # The command line

Reads the arguments, and finds out whether the daemon can be reached before anything is drawn.
Nothing here carries requests or looks at files, so the host is taken to have the usual ones and no
daemon is within reach, and the program ends by saying so.
-/

namespace Dockboard.CommandLine

open Dockboard.Engine

/-- What is written, whether to the standard output, and the code with which it is ended. -/
def outcome (arguments : List String) (host : Option String) : String × Bool × Nat :=
  match Arguments.read arguments host with
  | .error refusal => (refusal.message, refusal.exitCode == 0, refusal.exitCode)
  | .ok config =>
      match reachInVain .usual config.host with
      | .ok _ => ("", true, 0)
      | .error failure => (s!"dockboard: {failure.connectMessage}\n", false, 1)

end Dockboard.CommandLine

open Dockboard.CommandLine in
/-- The dashboard as a program. -/
def main (arguments : List String) : IO UInt32 := do
  let (text, isOutput, code) := outcome arguments (← IO.getEnv "DOCKER_HOST")
  if isOutput then IO.print text else IO.eprint text
  return code.toUInt32
