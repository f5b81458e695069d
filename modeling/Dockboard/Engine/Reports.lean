import Dockboard.Document.Basic
import Dockboard.Resource.Daemon

set_option autoImplicit false

/-! # What the daemon reports

Its summary, its events, and what containers consume. The share of a processor is measured by
comparing two readings: what the container has used in between, of what the whole host has used,
times the number of processors.
-/

namespace Dockboard

namespace Engine

/-- The daemon's part in its swarm. -/
def roleIn (swarm : Document) : String :=
  if swarm.textAt "LocalNodeState" == "active" then
    if swarm.flagAt "ControlAvailable" then "manager" else "worker"
  else "inactive"

/-- The difference of two counts, each rounded to the nearest floating-point number. -/
def difference (now before : Nat) : Float :=
  (Binary64.ofCount now).toFloat - (Binary64.ofCount before).toFloat

/-- The share of one processor used between two readings, in per cent; none if nothing was used
or no time has passed. -/
def cpuPercent (before now : Document) : Binary64 :=
  let usage := fun (d : Document) => (d.field "cpu_usage").countAt "total_usage"
  let used := difference (usage now) (usage before)
  let passed := difference (now.countAt "system_cpu_usage") (before.countAt "system_cpu_usage")
  if passed > 0.0 && used > 0.0 then
    let processors := ((now.field "online_cpus").number?.getD 1).toNat
    .ofFloat (used / passed * (Binary64.ofCount processors).toFloat * 100.0)
  else .zero

/-- The sum of counts of 64 bits, which goes round when it becomes too large. -/
def total (counts : List Nat) : Nat := counts.foldr (· + ·) 0 % (Text.Numeral.max64 + 1)

/-- The sum of a number over all interfaces. -/
def overInterfaces (interfaces : Document) (name : String) : Nat :=
  total (interfaces.values.map fun interface => interface.countAt name)

/-- The sum of what has been transferred in one direction. -/
def overTransfers (transfers : List Document) (direction : String) : Nat :=
  let own := transfers.filter fun transfer =>
    (transfer.textAt "op").toList.map Char.toLower == direction.toList
  total (own.map fun transfer => transfer.countAt "value")

end Engine

open Engine

/-- The summary of a daemon from what it says of its version and of itself. -/
def DaemonSummary.ofDocuments (version information : Document) : DaemonSummary :=
  { version := version.textAt "Version"
    apiVersion := version.textAt "ApiVersion"
    os := version.textAt "Os"
    arch := version.textAt "Arch"
    host := information.textAt "Name"
    swarmRole := roleIn (information.field "Swarm")
    containersRunning := information.numberAt "ContainersRunning"
    containersTotal := information.numberAt "Containers"
    images := information.numberAt "Images" }

/-- The event a document is about. -/
def DaemonEvent.ofDocument (d : Document) : DaemonEvent :=
  let actor := d.field "Actor"
  { time := d.numberAt "time"
    kind := d.textAt "Type"
    action := d.textAt "Action"
    actorId := actor.textAt "ID"
    actorName := (actor.field "Attributes").textAt "name" }

/-- The sample a document is about. -/
def Sample.ofDocument (d : Document) : Sample :=
  let memory := d.field "memory_stats"
  let interfaces := d.field "networks"
  let transfers := (d.field "blkio_stats").itemsAt "io_service_bytes_recursive"
  { cpu := cpuPercent (d.field "precpu_stats") (d.field "cpu_stats")
    memory := memory.countAt "usage"
    memoryLimit := memory.countAt "limit"
    received := overInterfaces interfaces "rx_bytes"
    sent := overInterfaces interfaces "tx_bytes"
    blockRead := overTransfers transfers "read"
    blockWritten := overTransfers transfers "write"
    pids := (d.field "pids_stats").countAt "current" }

end Dockboard
