import Dockboard.Call
import Dockboard.Engine.Exchange
import Dockboard.Operation
import Dockboard.Stream.Demuxer
import Dockboard.Swarm.Listing
import Dockboard.Text.Utf8

set_option autoImplicit false

/-! # The swarm's command line

The swarm is asked through a command, whose arguments say what is asked. A command fails if it
cannot be run, and if it ends with a code other than 0; what it then writes to its standard error
is the reason. As arguments end where a NUL stands, none of them may hold one, and their length is
limited, too.
-/

namespace Dockboard.Swarm

open Dockboard.Engine Dockboard.Stream Dockboard.Text

/-- The arguments with the daemon's address before them, if one is given. -/
def addressed (host : Option String) (args : List String) : List String :=
  match host with
  | some host => "--host" :: host :: args
  | none => args

/-- Why a command cannot be run that has a NUL in an argument. -/
def nulReason : String := "nul byte found in provided data"

/-- Why a command cannot be run that has too long an argument. -/
def lengthReason : String := "Argument list too long (os error 7)"

/-- How many bytes an argument has at most. -/
def maxArgument : Nat := 131071

/-- Run a command, if its arguments can be passed to it. -/
def launch (host : Option String) (args : List String) : Exchange (Except String Output) :=
  let args := addressed host args
  if args.any fun arg => arg.toList.contains '\x00' then pure (.error nulReason)
  else if args.any fun arg => maxArgument < arg.utf8ByteSize then pure (.error lengthReason)
  else Exchange.run args

/-- How a command is called when it has failed. -/
def commandName (args : List String) : String := " ".intercalate ("docker" :: args.take 2)

/-- Run a command for what it writes. -/
def run (host : Option String) (args : List String) : Dialogue (List Char) := do
  match ← launch host args with
  | .error reason => throw (.io reason)
  | .ok output =>
      if output.code = 0 then return Utf8.lossy output.stdout
      else throw (.command (commandName args) (String.ofList (trim (Utf8.lossy output.stderr))))

/-- The form in which each of several things is written as a document. -/
def asDocument : String := "\x7b\x7bjson .\x7d\x7d"

/-- The form in which the id and the stack of a service are written. -/
def asLabel : String :=
  "\x7b\x7b.ID\x7d\x7d \x7b\x7bindex .Spec.Labels \"com.docker.stack.namespace\"\x7d\x7d"

/-- Run a command for the things that it lists. -/
def list {α : Type} (host : Option String) (read : List Char → Except JsonFault α)
    (args : List String) : Dialogue (List α) := do
  let listing ← run host args
  ofExcept (readLines read listing)

/-- The nodes. -/
def listNodes (host : Option String) : Dialogue (List Node) :=
  list host Node.read ["node", "ls", "--format", asDocument]

/-- The services with the stacks given by a second command; without stacks if it fails. -/
def listServices (host : Option String) : Dialogue (List Service) := do
  let services ← list host Service.read ["service", "ls", "--format", asDocument]
  if services.isEmpty then return []
  else
    let args := ["service", "inspect", "--format", asLabel] ++ services.map Service.id
    try
      return withStacks services (← run host args)
    catch _ => return services

/-- The tasks in a scope. -/
def listTasks (host : Option String) : TaskScope → Dialogue (List Task)
  | .service id _ => list host Task.read ["service", "ps", "--format", asDocument, id]
  | .node id _ => list host Task.read ["node", "ps", "--format", asDocument, id]
  | .stack name => list host Task.read ["stack", "ps", "--format", asDocument, name]

/-- What is known of a thing, as a document. -/
def inspect (host : Option String) (kind : InspectKind) (id : String) : Dialogue (List Char) :=
  match kind with
  | .task => run host ["inspect", "--type", "task", id]
  | _ => run host [kind.label, "inspect", id]

/-- Run a command for what it does. -/
def perform (host : Option String) (args : List String) : Dialogue Unit := discard (run host args)

/-- Remove services, if there are any to be removed. -/
def removeServices (host : Option String) (ids : List String) : Dialogue Unit :=
  if ids.isEmpty then pure () else perform host (["service", "rm"] ++ ids)

/-- Remove every service of a stack, and count them. -/
def removeStack (host : Option String) (name : String) : Dialogue Nat := do
  let services ← listServices host
  let ids := (services.filter fun service => service.stack == name).map Service.id
  if ids.isEmpty then throw (.notFound s!"stack {name}")
  removeServices host ids
  return ids.length

/-- The arguments that ask for the log of a service. -/
def logArgs (id : String) (request : LogRequest) : List String :=
  ["service", "logs", "--tail", toString request.tail] ++
    (if request.since = 0 then [] else ["--since", toString request.since]) ++
    (if request.follow then ["--follow"] else []) ++ [id]

/-- How many bytes are read from a command at once. -/
def readSize : Nat := 8192

/-- The bytes in pieces, each with no more than are read at once, if that makes at most `fuel`
pieces. -/
def readPieces (bytes : List UInt8) : Nat → List (List UInt8)
  | 0 => []
  | fuel + 1 =>
      if bytes.isEmpty then []
      else bytes.take readSize :: readPieces (bytes.drop readSize) fuel

/-- The bytes that a command writes to `source`, in frames. -/
def framed (source : Source) (bytes : List UInt8) : List (List UInt8) :=
  (readPieces bytes bytes.length).map (encodeFrame source)

/-- The log of a service, in frames. It matters neither how a command ends that writes a log nor
in which order its two streams are read. -/
def logs (host : Option String) (id : String) (request : LogRequest) :
    Exchange (Feed (List UInt8)) := do
  match ← launch host (logArgs id request) with
  | .error reason => return ⟨[.error (.io reason)], false⟩
  | .ok output =>
      return ⟨(framed .stdout output.stdout ++ framed .stderr output.stderr).map .ok, false⟩

end Dockboard.Swarm
