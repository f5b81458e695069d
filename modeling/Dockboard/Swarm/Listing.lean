import Dockboard.Document.Record
import Dockboard.Resource.Swarm

set_option autoImplicit false

/-! # Listings of the swarm

The command line lists nodes, services and tasks as lines, each of which is the JSON document of
one of them. The stacks that services belong to are listed apart, as lines

    id label

where an id may be longer than the one by which the service is known, and the label may be
missing. A line is about the first service whose id its own begins with, provided that this id is
long enough to tell services apart.
-/

namespace Dockboard

open Dockboard.Text
open Document.Reader (ExpectedField)

namespace Document.Reader

/-- A field with a text, which must be there. -/
def textField (name : String) : ExpectedField := { name, value := text }

/-- A field with a text, which is usually empty. -/
def usualTextField (name : String) : ExpectedField :=
  { name, value := text, absence := .usual (.text "") }

end Document.Reader

open Document.Reader (textField usualTextField)

/-- What a line about a node holds. -/
def Node.fields : List ExpectedField :=
  ["ID", "Hostname", "Status", "Availability"].map textField ++
    ["ManagerStatus", "EngineVersion"].map usualTextField ++
    [{ name := "Self", value := Document.Reader.flag, absence := .usual (.flag false) }]

/-- The node a document is about. -/
def Node.ofDocument (d : Document) : Node :=
  { id := d.textAt "ID"
    hostname := d.textAt "Hostname"
    status := d.textAt "Status"
    availability := d.textAt "Availability"
    managerStatus := d.textAt "ManagerStatus"
    engineVersion := d.textAt "EngineVersion"
    isSelf := d.flagAt "Self" }

/-- The node a line is about. -/
def Node.read (line : List Char) : Except JsonFault Node :=
  ((Document.Reader.record Node.fields).runText line).map Node.ofDocument

/-- What a line about a service holds. -/
def Service.fields : List ExpectedField :=
  ["ID", "Name"].map textField ++ ["Mode", "Replicas", "Image", "Ports"].map usualTextField

/-- The service a document is about, as yet without its stack. -/
def Service.ofDocument (d : Document) : Service :=
  { id := d.textAt "ID"
    name := d.textAt "Name"
    mode := d.textAt "Mode"
    replicas := d.textAt "Replicas"
    image := d.textAt "Image"
    ports := d.textAt "Ports" }

/-- The service a line is about. -/
def Service.read (line : List Char) : Except JsonFault Service :=
  ((Document.Reader.record Service.fields).runText line).map Service.ofDocument

/-- What a line about a task holds. -/
def Task.fields : List ExpectedField :=
  ["ID", "Name"].map textField ++
    ["Image", "Node", "DesiredState", "CurrentState", "Error", "Ports"].map usualTextField

/-- The task a document is about. -/
def Task.ofDocument (d : Document) : Task :=
  { id := d.textAt "ID"
    name := d.textAt "Name"
    image := d.textAt "Image"
    node := d.textAt "Node"
    desiredState := d.textAt "DesiredState"
    currentState := d.textAt "CurrentState"
    error := d.textAt "Error"
    ports := d.textAt "Ports" }

/-- The task a line is about. -/
def Task.read (line : List Char) : Except JsonFault Task :=
  ((Document.Reader.record Task.fields).runText line).map Task.ofDocument

namespace Swarm

/-- What the lines of a listing that are not blank are about. -/
def readLines {α : Type} (read : List Char → Except JsonFault α) (listing : List Char) :
    Except Failure (List α) :=
  ((filledLines listing).mapM read).mapError .json

/-! ## Stacks -/

/-- What is listed for a service without a label. -/
def noLabel : List Char := "<no value>".toList

/-- The shortest id that tells a service from others, in bytes. -/
def minIdLength : Nat := 10

/-- The id and the label on a line, the label empty if there is none. -/
def labelOnLine (line : List Char) : List Char × List Char :=
  let (id, rest) := (splitOnce ' ' line).getD (line, [])
  let label := trim rest
  (id, if label = noLabel then [] else label)

/-- Whether `service` can be the one with the full id `id`. -/
def hasFullId (id : List Char) (service : Service) : Bool :=
  minIdLength ≤ service.id.utf8ByteSize && service.id.toList.isPrefixOf id

/-- The id by which the service with the full id `id` is known. -/
def knownId? (services : List Service) (id : List Char) : Option String :=
  (services.find? (hasFullId id)).map Service.id

/-- The label of the service known by `id`: what the last line about it says. -/
def labelOf? (services : List Service) (listing : List Char) (id : String) : Option String :=
  let lines := (filledLines listing).map labelOnLine
  let own := lines.filter fun (fullId, _) => knownId? services fullId == some id
  own.getLast?.map fun (_, label) => String.ofList label

/-- The services with the stacks that a listing says they belong to. -/
def withStacks (services : List Service) (listing : List Char) : List Service :=
  services.map fun service =>
    match labelOf? services listing service.id with
    | some label => { service with stack := label }
    | none => service

end Swarm

end Dockboard
