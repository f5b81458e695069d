import Dockboard.Call
import Dockboard.Config
import Dockboard.Pager.Basic
import Dockboard.Prompt.Basic
import Dockboard.Session.Debouncer
import Dockboard.Stream.LogReader
import Dockboard.Table

set_option autoImplicit false

/-! # The state of a session

A session is a machine: it takes one message at a time, and answers with a new state and with
commands. Each command is carried out by someone else and leads to one message. A read of a
stream carries a token; once the token is cancelled, whoever carries out the read gives it up.

    Msg       what a session is told
    Cmd       what a session wants done
    State     what it knows and shows
-/

namespace Dockboard

open Dockboard.Stream

/-- What stands for the wish to go on reading a stream. -/
abbrev Token := Nat

/-- Who receives the samples of a container. -/
inductive StatSink where
  /-- The row of the container with this identifier in the monitor. -/
  | monitor (id : String)
  /-- The pager with this number. -/
  | pager (id : Nat)
  deriving DecidableEq, Repr, Inhabited

/-- What a timer announces. -/
inductive Alarm where
  /-- Enough reports of changes have been gathered. -/
  | debounceElapsed
  /-- The status message with this number has been shown long enough. -/
  | statusExpired (seq : Nat)
  /-- The monitor has to be refreshed, if it has not been left since. -/
  | monitorTick (epoch : Nat)
  deriving DecidableEq, Repr, Inhabited

/-- What a session is told. -/
inductive Msg where
  | key (key : Key)
  | resize (width height : Nat)
  | summary (summary : DaemonSummary)
  | summaryFailed (error : String)
  /-- The rows of a view; those of a task view belong to a scope. -/
  | loaded (view : View) (scope : Option TaskScope) (rows : List Row)
  | loadFailed (view : View) (error : String)
  /-- The containers for the monitor. -/
  | monitorListed (containers : List Container)
  | textLoaded (title text : String)
  | textFailed (title error : String)
  | operationDone (op : Operation) (detail : String)
  | operationFailed (op : Operation) (error : String)
  | logChunk (pager : Nat) (text : List Char) (reader : LogReader)
  | logEnded (pager : Nat) (error : Option String)
  | statSample (sink : StatSink) (sample : Sample) (rest : Feed Sample)
  | statsEnded (sink : StatSink) (error : Option String)
  | daemonEvent (event : DaemonEvent) (rest : Feed DaemonEvent)
  | eventsEnded (error : Option String)
  | alarm (alarm : Alarm)

/-- What a session wants done. -/
inductive Cmd where
  | summary
  | load (view : View) (all : Bool) (scope : Option TaskScope)
  /-- List the containers for the monitor. -/
  | listMonitor
  | inspect (kind : InspectKind) (id title : String)
  | info
  | act (op : Operation)
  | openLogs (pager : Nat) (request : LogRequest) (token : Token)
  | readLogs (pager : Nat) (reader : LogReader) (token : Token)
  | openStats (sink : StatSink) (id : String) (token : Token)
  | readStats (sink : StatSink) (feed : Feed Sample) (token : Token)
  | watchEvents
  | readEvents (feed : Feed DaemonEvent)
  /-- Announce `alarm` after so many milliseconds. -/
  | timer (after : Nat) (alarm : Alarm)

/-- The token of a command that reads a stream. -/
def Cmd.token? : Cmd → Option Token
  | .openLogs _ _ token => some token
  | .readLogs _ _ token => some token
  | .openStats _ _ token => some token
  | .readStats _ _ token => some token
  | _ => none

/-- What can be done with a resource. -/
inductive Action where
  | logs
  | inspect
  | stats
  | kill
  | stop
  | restart
  | remove
  | forceRemove
  | removeStopped
  | removeDangling
  | prune
  | tasks
  | setAvailability
  | scale
  | forceUpdate
  deriving DecidableEq, Repr, Inhabited

/-- What an action is called in a menu. -/
def Action.label : Action → String
  | logs => "Logs"
  | inspect => "Inspect"
  | stats => "Stats"
  | kill => "Kill"
  | stop => "Stop"
  | restart => "Restart"
  | remove => "Remove"
  | forceRemove => "Force remove"
  | removeStopped => "Remove all stopped"
  | removeDangling => "Remove dangling"
  | prune => "Prune"
  | tasks => "Tasks"
  | setAvailability => "Set availability"
  | scale => "Scale"
  | forceUpdate => "Force update"

/-- What the answer to a prompt is for. -/
inductive Followup where
  | menu
  | confirm (op : Operation)
  | filter
  | scale
  | availability
  deriving DecidableEq, Repr, Inhabited

/-- A message in the status line. -/
structure Status where
  text : String
  isError : Bool
  /-- Every status message has a number of its own. -/
  seq : Nat
  deriving DecidableEq, Repr, Inhabited

/-- What a pager shows. -/
inductive PagerKind where
  | text
  | logs
  | stats
  | events
  deriving DecidableEq, Repr, Inhabited

/-- A pager on the screen. -/
structure PagerLayer where
  id : Nat
  kind : PagerKind
  pager : Pager
  /-- The token of the stream it shows. -/
  token : Option Token := none
  deriving DecidableEq, Repr

/-- What stands before the active view. -/
inductive Layer where
  | prompt (prompt : Prompt Followup Action)
  | pager (layer : PagerLayer)
  deriving DecidableEq, Repr

/-- What a session knows and shows. -/
structure State where
  config : Config
  /-- The present, in unix seconds, from which ages are reckoned. -/
  now : Int
  view : View := .containers
  /-- The view to which a task view leads back. -/
  previous : View := .containers
  tables : ByView (Table Row)
  taskScope : Option TaskScope := none
  layer : Option Layer := none
  debouncer : Debouncer
  /-- Whether a load of the view is under way. -/
  loading : ByView Bool := .ofFn fun _ => false
  /-- Whether the view has to be loaded once more when that load has arrived. -/
  stale : ByView Bool := .ofFn fun _ => false
  /-- Whether the rows are sorted by the sort column whenever they arrive. -/
  sorted : ByView Bool := .ofFn fun _ => false
  showAll : Bool
  showHeader : Bool
  summary : Option DaemonSummary := none
  status : Option Status := none
  /-- The number of the latest status message. -/
  statusSeq : Nat := 0
  /-- The number of the latest pager. -/
  lastPager : Nat := 0
  /-- The containers whose samples are being read, each with the token of the reads. -/
  monitor : List (String × Token) := []
  /-- Counts how often the monitor was entered or left. -/
  monitorEpoch : Nat := 0
  /-- The latest events, the oldest first. -/
  events : List DaemonEvent := []
  width : Nat := 0
  height : Nat := 0
  quit : Bool := false
  /-- The next token that is given out. -/
  nextToken : Token := 0
  /-- The tokens that have been cancelled. -/
  cancelled : List Token := []

/-- What a message leads to. -/
abbrev Step := State × List Cmd

/-- How many events are kept. -/
def eventHistory : Nat := 500

end Dockboard
