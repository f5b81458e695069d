set_option autoImplicit false

/-! # Failures

What can go wrong when the daemon or its command line is asked for something, and the text by
which a failure is reported.
-/

namespace Dockboard

/-- What is wrong with a JSON document. -/
inductive JsonFault where
  /-- It is not written in JSON. -/
  | malformed
  /-- It is JSON, but not of the shape that is expected. -/
  | mismatch
  /-- It ends too early. -/
  | truncated
  deriving DecidableEq, Repr, Inhabited

/-- Why a request to the daemon or its command line failed. -/
inductive Failure where
  /-- The daemon answered with an error status. -/
  | refused (status : Nat) (message : String)
  /-- The daemon's answer could not be read. -/
  | garbled
  /-- The daemon's answer broke off inside a frame. -/
  | brokenOff
  /-- What the daemon sent is no answer. -/
  | unanswered
  /-- The daemon cannot be reached. -/
  | unreachable (reason : String)
  /-- There is no socket at this path. -/
  | noSocket (path : String)
  /-- A file, a socket or a program could not be used. -/
  | io (text : String)
  /-- A JSON document printed by a command could not be read. -/
  | json (fault : JsonFault)
  /-- A command ended with an error. -/
  | command (line stderr : String)
  /-- There is no such thing. -/
  | notFound (what : String)
  /-- The request makes no sense. -/
  | invalid (what : String)
  deriving DecidableEq, Repr, Inhabited

/-- What is said of a document with this fault. -/
def JsonFault.message : JsonFault → String
  | .malformed => "malformed document"
  | .mismatch => "unexpected content"
  | .truncated => "unexpected end of document"

/-- The text of a failure. -/
def Failure.message : Failure → String
  | .refused status text => s!"docker: Docker responded with status code {status}: {text}"
  | .garbled => "docker: the answer could not be read"
  | .brokenOff => "docker: bytes remaining on stream"
  | .unanswered => "docker: Error in the hyper legacy client: client error (SendRequest)"
  | .unreachable reason => s!"docker: {reason}"
  | .noSocket path => s!"docker: Socket not found: {path}"
  | .io text => s!"i/o: {text}"
  | .json fault => s!"json: {fault.message}"
  | .command line stderr => s!"{line} failed: {stderr}"
  | .notFound what => s!"{what} not found"
  | .invalid what => s!"invalid input: {what}"

/-- How it is said that no daemon can be reached. -/
def Failure.connectMessage (failure : Failure) : String :=
  s!"cannot connect to the docker daemon: {failure.message}"

end Dockboard
