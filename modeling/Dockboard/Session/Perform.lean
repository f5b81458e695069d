import Dockboard.Session.State

set_option autoImplicit false

/-! # Carrying out commands

Every command leads to one message, unless it reads a stream that stays silent: then the message
comes when the token of the read is cancelled.
-/

namespace Dockboard

open Dockboard.Stream

namespace Cmd

variable {m : Type → Type} [Monad m]

/-- Ask a daemon for the rows of a view. -/
def loadRows (daemon : Daemon m) (view : View) (all : Bool) (scope : Option TaskScope) :
    m (Except Failure (List Row)) := do
  match view, scope with
  | .containers, _ => return (← daemon.ask (.listContainers all)).map (·.map Row.container)
  | .images, _ => return (← daemon.ask .listImages).map (·.map Row.image)
  | .networks, _ => return (← daemon.ask .listNetworks).map (·.map Row.network)
  | .volumes, _ => return (← daemon.ask .listVolumes).map (·.map Row.volume)
  | .diskUsage, _ => return (← daemon.ask .diskUsage).map Row.ofDiskUsage
  | .monitor, _ => return .error (.invalid "monitor rows are not loaded")
  | .nodes, _ => return (← daemon.ask .listNodes).map (·.map Row.node)
  | .services, _ => return (← daemon.ask .listServices).map (·.map Row.service)
  | .stackList, _ =>
      return (← daemon.ask .listServices).map fun services =>
        (Stack.ofServices services).map Row.stack
  | .serviceTasks, none | .stackTasks, none | .nodeTasks, none =>
      return .error (.invalid "no task scope")
  | .serviceTasks, some scope | .stackTasks, some scope | .nodeTasks, some scope =>
      return (← daemon.ask (.tasksOf scope)).map fun tasks =>
        match scope with
        | .stack _ => Row.ofTasks tasks
        | _ => tasks.map Row.task

/-- The message of an answer that is either a value or a failure. -/
def answered {α : Type} (ok : α → Msg) (failed : String → Msg) (answer : Except Failure α) : Msg :=
  match answer with
  | .ok value => ok value
  | .error failure => failed failure.message

/-- Read a log once. -/
def readLog (pager : Nat) (reader : LogReader) : Option Msg :=
  match reader.next with
  | (.text text, reader) => some (.logChunk pager text reader)
  | (.ended, _) => some (.logEnded pager none)
  | (.failed error, _) => some (.logEnded pager (some error))
  | (.silence, _) => none

/-- Read samples once. -/
def readSample (sink : StatSink) (feed : Feed Sample) : Option Msg :=
  match feed.next with
  | .item (.ok sample) rest => some (.statSample sink sample rest)
  | .item (.error failure) _ => some (.statsEnded sink (some failure.message))
  | .ended => some (.statsEnded sink none)
  | .silence => none

/-- Read events once. -/
def readEvent (feed : Feed DaemonEvent) : Option Msg :=
  match feed.next with
  | .item (.ok event) rest => some (.daemonEvent event rest)
  | .item (.error failure) _ => some (.eventsEnded (some failure.message))
  | .ended => some (.eventsEnded none)
  | .silence => none

/-- The title of the text that the daemon says of itself. -/
def infoTitle : String := "Daemon info"

/-- Carry out a command; there is no message as long as a stream is silent. -/
def perform (daemon : Daemon m) : Cmd → m (Option Msg)
  | .summary => return some (answered .summary .summaryFailed (← daemon.ask .summary))
  | .load view all scope =>
      return some (answered (.loaded view scope) (.loadFailed view)
        (← loadRows daemon view all scope))
  | .listMonitor =>
      return some (answered .monitorListed (.loadFailed .monitor)
        (← daemon.ask (.listContainers false)))
  | .inspect kind id title =>
      return some (answered (.textLoaded title) (.textFailed title)
        (← daemon.ask (.inspect kind id)))
  | .info =>
      return some (answered (.textLoaded infoTitle) (.textFailed infoTitle)
        (← daemon.ask .info))
  | .act op =>
      return some (answered (.operationDone op) (.operationFailed op)
        (← daemon.ask (.execute op)))
  | .openLogs pager request _ => return readLog pager { source := ← daemon.logs request }
  | .readLogs pager reader _ => return readLog pager reader
  | .openStats sink id _ => return readSample sink (← daemon.stats id)
  | .readStats sink feed _ => return readSample sink feed
  | .watchEvents => return readEvent (← daemon.events)
  | .readEvents feed => return readEvent feed
  | .timer _ alarm => return some (.alarm alarm)

/-- The message of a read that is given up. -/
def abandoned? : Cmd → Option Msg
  | .openLogs pager _ _ => some (.logEnded pager none)
  | .readLogs pager _ _ => some (.logEnded pager none)
  | .openStats sink _ _ => some (.statsEnded sink none)
  | .readStats sink _ _ => some (.statsEnded sink none)
  | _ => none

end Cmd

end Dockboard
