import Dockboard.Document.Printer
import Dockboard.Engine.Answer
import Dockboard.Engine.Files
import Dockboard.Engine.Objects
import Dockboard.Engine.Reports
import Dockboard.Engine.Schema.Activity
import Dockboard.Engine.Schema.Daemon
import Dockboard.Engine.Schema.Space
import Dockboard.Engine.Target
import Dockboard.Swarm.Commands

set_option autoImplicit false

/-! # The client of the daemon

The client answers calls and subscriptions by exchanges: what concerns one host by requests to
the daemon, what concerns the swarm by its command line. It is therefore a `Daemon`, and as it
says nothing of where answers come from, what it does can be followed for every course they may
take.
-/

namespace Dockboard.Engine

open Dockboard.Stream
open Document (Reader)

/-! ## Where the daemon is -/

/-- Where a daemon can be reached. -/
inductive Endpoint where
  /-- At a socket of this host. -/
  | socket (path : String)
  /-- At an address in a network. -/
  | network (address : String)
  deriving DecidableEq, Repr, Inhabited

/-- What stands before the path of a socket. -/
def socketScheme : String := "unix://"

/-- What may stand before an address in a network. -/
def networkSchemes : List String := ["tcp://", "http://"]

/-- Where the socket of a daemon is that has no other place. -/
def usualSocket : String := "/var/run/docker.sock"

/-- The socket at `path`, if there is one. -/
def Endpoint.ofSocket (files : Files) (path : String) : Except Failure Endpoint :=
  if files.has path then .ok (.socket path) else .error (.noSocket path)

/-- Where the daemon called `host` can be reached from a host with these files. -/
def Endpoint.ofHost (files : Files) : Option String → Except Failure Endpoint
  | none => ofSocket files usualSocket
  | some host =>
      if host.startsWith socketScheme then
        ofSocket files (String.ofList (host.toList.drop socketScheme.length))
      else if networkSchemes.any (host.startsWith ·) then .ok (.network host)
      else .error (.invalid s!"unsupported host {host}")

/-! ## Requests -/

/-- How long the target of a request can be, in bytes. With the place of the daemon before it, it
is not longer than 64 KiB. -/
def maxTarget : Nat := 65400

/-- Make a request, if its target is not too long. -/
def send (request : Request) : Exchange (Except String Reply) :=
  if maxTarget < request.target.utf8ByteSize then pure (.error "uri too long")
  else Exchange.ask request

/-- Make a request for an answer. -/
def ask (request : Request) : Dialogue Reply := do
  match ← send request with
  | .ok reply => return reply
  | .error reason => throw (.unreachable reason)

/-- Make a request for the document in its answer. -/
def fetch (reader : Reader Document) (request : Request) : Dialogue Document := do
  ofExcept ((← ask request).document reader)

/-- Make a request for what it does. -/
def demand (request : Request) : Dialogue Unit := do
  discard (ofExcept (← ask request).accepted)

/-- Make a request for a stream. -/
def subscribe {α : Type} (request : Request) (items : Reply → List (Except Failure α)) :
    Exchange (Feed α) := do
  match ← send request with
  | .ok reply => return ⟨items reply, false⟩
  | .error reason => return ⟨[.error (.unreachable reason)], false⟩

/-- The parameters that ask for everything. -/
def noFilter : String := "filters=%7B%7D"

/-- The parameters that ask for images without a tag. -/
def danglingFilter : String := "filters=%7B%22dangling%22%3A%5B%22true%22%5D%7D"

/-- Whether the daemon answers. -/
def ping : Dialogue Unit := demand (.to .get "/_ping")

/-- What the daemon says of itself. -/
def information : Dialogue Document := fetch Schema.information (.to .get "/info")

/-- The daemon's summary. -/
def summary : Dialogue DaemonSummary := do
  let version ← fetch Schema.version (.to .get "/version")
  return .ofDocuments version (← information)

/-- The containers. -/
def listContainers (all : Bool) : Dialogue (List Container) := do
  let listing ← fetch (.list Schema.container)
    (.to .get "/containers/json" s!"all={all}&size=false&{noFilter}")
  return listing.items.map .ofDocument

/-- The images. -/
def listImages : Dialogue (List Image) := do
  let listing ← fetch (.list Schema.image)
    (.to .get "/images/json" s!"all=false&{noFilter}&digests=false")
  return listing.items.map .ofDocument

/-- The networks. -/
def listNetworks : Dialogue (List Network) := do
  let listing ← fetch (.list Schema.network) (.to .get "/networks")
  return listing.items.map .ofDocument

/-- The volumes. -/
def listVolumes : Dialogue (List Volume) := do
  let listing ← fetch Schema.volumes (.to .get "/volumes")
  return (listing.itemsAt "Volumes").map .ofDocument

/-- What takes up space. -/
def diskUsage : Dialogue DiskUsage := do
  return .ofDocument (← fetch Schema.space (.to .get "/system/df"))

/-- What is known of one object. -/
def inspect (host : Option String) (kind : InspectKind) (id : String) : Dialogue String := do
  let details := fun reader path => do return (← fetch reader (.to .get path)).pretty
  match kind with
  | .container => details Schema.containerDetails s!"/containers/{id}/json"
  | .image => details Schema.imageDetails s!"/images/{id}/json"
  | .network => details Schema.network s!"/networks/{id}"
  | .volume => details Schema.volume s!"/volumes/{id}"
  | .node | .service | .task => return String.ofList (← Swarm.inspect host kind id)

/-! ## Operations -/

/-- For how many seconds a container may go on when it is to be stopped. -/
def stopTimeout : Nat := 10

/-- Remove the containers that are not running. -/
def pruneContainers : Dialogue Document :=
  fetch (Schema.pruned "ContainersDeleted" Schema.texts) (.to .post "/containers/prune")

/-- Remove the images without a tag. -/
def pruneImages : Dialogue Document :=
  fetch (Schema.pruned "ImagesDeleted" (.list Schema.deletedLayer))
    (.to .post "/images/prune" danglingFilter)

/-- Remove the volumes that are not used. -/
def pruneVolumes : Dialogue Document :=
  fetch (Schema.pruned "VolumesDeleted" Schema.texts) (.to .post "/volumes/prune")

/-- Remove the networks that are not used. -/
def pruneNetworks : Dialogue Document :=
  fetch (.record [Schema.optional "NetworksDeleted" Schema.texts]) (.to .post "/networks/prune")

/-- How much space a removal gives back. -/
def reclaimed (removal : Document) : Int := removal.numberAt "SpaceReclaimed"

/-- How it is said that `space` has been given back. -/
def reclaimedText (space : Int) : String :=
  let size := Measure.bytes space.toNat
  s!"reclaimed {size}"

/-- Remove whatever is not used, and find out how much space that gives back. The sum goes round
when it becomes too large for a signed number of 64 bits. -/
def prune : Dialogue Int := do
  let containers ← pruneContainers
  let images ← pruneImages
  let volumes ← pruneVolumes
  discard pruneNetworks
  let sum := reclaimed containers + reclaimed images + reclaimed volumes
  return sum.bmod 18446744073709551616

/-- Make a request for what it does, of which there is no more to say. -/
def demandSilently (verb : Verb) (path : String) (parameters : Option String := none) :
    Dialogue String := do
  demand (.to verb path parameters)
  return ""

/-- Let the swarm do something, of which there is no more to say. -/
def performSilently (host : Option String) (args : List String) : Dialogue String := do
  Swarm.perform host args
  return ""

/-- Carry out an operation, and say what it did. -/
def execute (host : Option String) : Operation → Dialogue String
  | .killContainer id => demandSilently .post s!"/containers/{id}/kill"
  | .stopContainer id => demandSilently .post s!"/containers/{id}/stop" s!"t={stopTimeout}"
  | .restartContainer id => demandSilently .post s!"/containers/{id}/restart" s!"t={stopTimeout}"
  | .removeContainer id =>
      demandSilently .delete s!"/containers/{id}" "v=false&force=true&link=false"
  | .removeStoppedContainers => do
      let removal ← pruneContainers
      let count := (removal.itemsAt "ContainersDeleted").length
      return s!"{count} removed"
  | .removeImage id force => do
      let layers ← fetch (.list Schema.deletedLayer)
        (.to .delete s!"/images/{id}" s!"force={force}&noprune=false")
      return s!"{layers.items.length} layers"
  | .removeDanglingImages => return reclaimedText (reclaimed (← pruneImages))
  | .removeNetwork id => demandSilently .delete s!"/networks/{id}"
  | .removeVolume name => demandSilently .delete s!"/volumes/{name}"
  | .prune => return reclaimedText (← prune)
  | .setNodeAvailability id availability =>
      performSilently host ["node", "update", "--availability", availability.word, id]
  | .scaleService id replicas =>
      performSilently host ["service", "scale", "--detach", s!"{id}={replicas}"]
  | .forceUpdateService id =>
      performSilently host ["service", "update", "--force", "--detach", id]
  | .removeService id => do
      Swarm.removeServices host [id]
      return ""
  | .removeStack name => do
      let count ← Swarm.removeStack host name
      return s!"{count} services"

/-! ## The daemon, as the library sees it -/

/-- Answer a call. -/
def answer (host : Option String) {α : Type} : Call α → Dialogue α
  | .summary => summary
  | .info => return (← information).pretty
  | .listContainers all => listContainers all
  | .listImages => listImages
  | .listNetworks => listNetworks
  | .listVolumes => listVolumes
  | .diskUsage => diskUsage
  | .listNodes => Swarm.listNodes host
  | .listServices => Swarm.listServices host
  | .tasksOf scope => Swarm.listTasks host scope
  | .inspect kind id => inspect host kind id
  | .execute op => execute host op

/-- The log of a container. -/
def containerLog (id : String) (request : LogRequest) : Exchange (Feed (List UInt8)) :=
  let parameters := s!"follow={request.follow}&stdout=true&stderr=true&since={request.since}" ++
    s!"&timestamps=false&tail={request.tail}"
  subscribe (.to .get s!"/containers/{id}/logs" parameters) Reply.log

/-- The log that is wished for. -/
def logs (host : Option String) (request : LogRequest) : Exchange (Feed (List UInt8)) :=
  match request.source with
  | .container id => containerLog id request
  | .service id => Swarm.logs host id request

/-- What a container consumes. -/
def stats (id : String) : Exchange (Feed Sample) :=
  subscribe (.to .get s!"/containers/{id}/stats" "stream=true&one-shot=false") fun reply =>
    (reply.documents Schema.measurement).map (·.map Sample.ofDocument)

/-- What happens from now on. -/
def events : Exchange (Feed DaemonEvent) :=
  subscribe (.to .get "/events") fun reply =>
    (reply.documents Schema.event).map (·.map DaemonEvent.ofDocument)

/-- Asks the daemon called `host`. -/
def client (host : Option String) : Daemon Exchange where
  ask call := (answer host call).run
  logs := logs host
  stats := stats
  events := events

/-! ## Without a daemon -/

/-- Why no request is answered. -/
def noConnection : String := "Error in the hyper legacy client: client error (Connect)"

/-- The value of an exchange in which nothing is answered. -/
def withoutAnswers {α : Type} : Exchange α → α
  | .done value => value
  | .request _ next => withoutAnswers (next (.error noConnection))
  | .command _ next => withoutAnswers (next (.error noConnection))

/-- Try to reach the daemon called `host` where there is none, from a host with these files. -/
def reachInVain (files : Files) (host : Option String) : Except Failure Unit := do
  discard (Endpoint.ofHost files host)
  withoutAnswers ping.run

end Dockboard.Engine
