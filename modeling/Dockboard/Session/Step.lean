import Dockboard.Session.Keys
import Dockboard.Session.Monitor

set_option autoImplicit false

/-! # Steps of a session

The beginning of a session, and what each message leads to.
-/

namespace Dockboard

open Dockboard.Stream

namespace State

/-- A new session. -/
def new (config : Config) (now : Int) : State where
  config
  now
  tables := .ofFn fun view => .new (Layout.columns view)
  debouncer := { window := config.debounce }
  showAll := config.showAll
  showHeader := config.showHeader

/-- The commands with which a session begins. -/
def begin (s : State) : Step :=
  let (s, cmds) := s.requestLoad s.view
  (s, [.summary, .watchEvents] ++ cmds)

/-! ## Streams that pagers show -/

/-- The pager with a number, if it is on the screen. -/
def pagerLayer? (s : State) (id : Nat) : Option PagerLayer :=
  match s.layer with
  | some (.pager layer) => if layer.id = id then some layer else none
  | _ => none

/-- The state with another pager in a layer. -/
def setPager (s : State) (layer : PagerLayer) (pager : Pager) : State :=
  { s with layer := some (.pager { layer with pager }) }

/-- Text has arrived for a pager; unless its stream is given up, the command `next` reads on. -/
def onPagerText (s : State) (id : Nat) (text : List Char) (next : Token → Cmd) : Step :=
  match s.pagerLayer? id with
  | none => s.noCmds
  | some layer =>
      let s := s.setPager layer (layer.pager.append text)
      match layer.token with
      | some token => if s.cancelled.contains token then s.noCmds else (s, [next token])
      | none => s.noCmds

/-- The stream of a pager has ended. -/
def onPagerEnded (s : State) (id : Nat) (error : Option String) : Step :=
  match s.pagerLayer? id with
  | none => s.noCmds
  | some layer => (s.setPager layer (layer.pager.close error)).noCmds

/-! ## Samples -/

/-- A sample has arrived. -/
def onSample (s : State) (sink : StatSink) (sample : Sample) (rest : Feed Sample) : Step :=
  match sink with
  | .pager id => s.onPagerText id (sample.describe ++ ['\n']) (.readStats sink rest)
  | .monitor id =>
      match s.subscription? id with
      | none => s.noCmds
      | some token =>
          (s.updateMonitored id fun m => { m with sample := some sample },
           [.readStats sink rest token])

/-- Samples have come to an end. -/
def onStatsEnded (s : State) (sink : StatSink) (error : Option String) : Step :=
  match sink with
  | .pager id => s.onPagerEnded id error
  | .monitor id =>
      match s.subscription? id with
      | none => s.noCmds
      | some _ =>
          ((s.unsubscribe id).updateMonitored id fun m =>
            { m with ended := some (error.getD "ended") }).noCmds

/-! ## Events -/

/-- The latest events with one more. -/
def remember (events : List DaemonEvent) (event : DaemonEvent) : List DaemonEvent :=
  (if events.length = eventHistory then events.tail else events) ++ [event]

/-- Gather the change that an event reports, if it is one of a kind of resource. -/
def noteChange (s : State) (event : DaemonEvent) : Step :=
  match ResourceKind.ofEventType? event.kind with
  | none => s.noCmds
  | some kind =>
      let (debouncer, delay) := s.debouncer.notify kind
      ({ s with debouncer }, (delay.map fun after => .timer after .debounceElapsed).toList)

/-- Add an event to the pager of the events, if that is open. -/
def showEvent (s : State) (event : DaemonEvent) : State :=
  match s.layer with
  | some (.pager layer) =>
      if layer.kind = .events then s.setPager layer (layer.pager.append (eventLine event)) else s
  | _ => s

/-- An event has arrived. -/
def onEvent (s : State) (event : DaemonEvent) (rest : Feed DaemonEvent) : Step :=
  let (s, timers) := s.noteChange event
  let s := s.showEvent event
  ({ s with events := remember s.events event }, .readEvents rest :: timers)

/-- Events have come to an end. -/
def onEventsEnded (s : State) (error : Option String) : Step :=
  s.fail
    (match error with
    | some error => s!"Event stream closed: {error}"
    | none => "Event stream closed; automatic refresh is off")

/-! ## Other messages -/

/-- An announcement. -/
def onAlarm (s : State) (alarm : Alarm) : Step :=
  match alarm with
  | .monitorTick epoch => s.onMonitorTick epoch
  | .statusExpired seq =>
      if s.status.any (·.seq == seq) then { s with status := none }.noCmds else s.noCmds
  | .debounceElapsed =>
      let (debouncer, kinds) := s.debouncer.flush
      let s := { s with debouncer }
      if kinds.any (·.affects s.view) then s.requestLoad s.view else s.noCmds

/-- A text has arrived, which is dropped while a prompt is open. -/
def onText (s : State) (title text : String) : Step :=
  match s.layer with
  | some (.prompt _) => s.noCmds
  | _ => (s.openPager .text (.new title text.toList s.config.logBuffer) none).noCmds

/-- An operation has been carried out. -/
def onDone (s : State) (op : Operation) (detail : String) : Step :=
  let (s, timers) := s.setStatus false (op.successMessage detail)
  let (s, loads) := s.requestLoad s.view
  (s, timers ++ loads)

/-- What a message leads to. -/
def step (s : State) : Msg → Step
  | .key key => s.press key
  | .resize width height => { s with width, height }.resizeAll.noCmds
  | .summary summary => { s with summary := some summary }.noCmds
  | .summaryFailed _ => s.noCmds
  | .loaded view scope rows => s.onLoaded view scope rows
  | .loadFailed view error => s.onLoadFailed view error
  | .monitorListed containers => s.onMonitorListed containers
  | .textLoaded title text => s.onText title text
  | .textFailed title error => s.fail s!"{title}: {error}"
  | .operationDone op detail => s.onDone op detail
  | .operationFailed op error => s.fail s!"Failed to {op.label}: {error}"
  | .logChunk pager text reader => s.onPagerText pager text (.readLogs pager reader)
  | .logEnded pager error => s.onPagerEnded pager error
  | .statSample sink sample rest => s.onSample sink sample rest
  | .statsEnded sink error => s.onStatsEnded sink error
  | .daemonEvent event rest => s.onEvent event rest
  | .eventsEnded error => s.onEventsEnded error
  | .alarm alarm => s.onAlarm alarm

end State

end Dockboard
