import Dockboard.Session.Layout

set_option autoImplicit false

/-! # Loading views

A view is loaded when it is entered and whenever it is outdated. While a load is under way no
other one is begun; the view is marked stale instead and loaded again afterwards. The monitor
is loaded over and over by a chain of timers, which carry the number of the session of the
monitor, so that a chain begun in an earlier session breaks off.
-/

namespace Dockboard

namespace State

/-! ## Small changes -/

/-- The state without any command. -/
def noCmds (s : State) : Step := (s, [])

/-- How the tables of the session read their rows. -/
def format (s : State) : RowFormat Row where
  columns := Row.columns s.now
  id? := Row.id?
  isHeading := Row.isHeading
  sortKey := Row.sortKey

/-- The table of the active view. -/
def activeTable (s : State) : Table Row := s.tables.get s.view

/-- The state with `f` applied to the table of a view. -/
def modifyTable (s : State) (view : View) (f : Table Row → Table Row) : State :=
  { s with tables := s.tables.modify view f }

/-- Give out a token. -/
def freshToken (s : State) : Token × State := (s.nextToken, { s with nextToken := s.nextToken + 1 })

/-- Cancel a token. -/
def cancel (s : State) (token : Token) : State :=
  if s.cancelled.contains token then s else { s with cancelled := token :: s.cancelled }

/-- Show a status message and start the timer that removes it. -/
def setStatus (s : State) (isError : Bool) (text : String) : Step :=
  let seq := s.statusSeq + 1
  ({ s with statusSeq := seq, status := some { text, isError, seq } },
   [.timer s.config.statusTtl (.statusExpired seq)])

/-- Show a status message of an error. -/
def fail (s : State) (text : String) : Step := s.setStatus true text

/-! ## Sizes -/

/-- The lines taken up by the tab bar, the header of the table, the status and the footer. -/
def chromeRows : Nat := 4

/-- How many rows of a table are visible. -/
def bodyHeight (s : State) : Nat :=
  max (s.height - (chromeRows + if s.showHeader then 1 else 0)) 1

/-- How many lines of a pager are visible. -/
def pagerHeight (s : State) : Nat := max (s.height - 2) 1

/-- Fit all tables and the pager to the screen. -/
def resizeAll (s : State) : State :=
  { s with
    tables := s.tables.map fun t => t.resize s.width s.bodyHeight
    layer :=
      match s.layer with
      | some (.pager layer) =>
          some (.pager { layer with pager := layer.pager.resize s.width s.pagerHeight })
      | other => other }

/-! ## Rows -/

/-- The state with other rows in the table of a view, sorted if the view is. -/
def setRows (s : State) (view : View) (rows : List Row) : State :=
  s.modifyTable view fun t =>
    let t := t.replaceRows s.format rows
    if s.sorted.get view then t.sortByField s.format else t

/-- The state without rows in the table of a view. -/
def clearRows (s : State) (view : View) : State :=
  s.modifyTable view fun t => t.replaceRows s.format []

/-! ## Loads -/

/-- The command that loads a view. -/
def loadCmd (s : State) (view : View) : Cmd :=
  if view = .monitor then .listMonitor
  else .load view s.showAll (if view.isTaskView then s.taskScope else none)

/-- Load a view, now or after the load that is under way. -/
def requestLoad (s : State) (view : View) : Step :=
  if s.loading.get view then ({ s with stale := s.stale.set view true }, [])
  else if view.isTaskView && s.taskScope.isNone then s.noCmds
  else ({ s with loading := s.loading.set view true }, [s.loadCmd view])

/-- The timer of the current session of the monitor. -/
def monitorTimer (s : State) : Cmd :=
  .timer s.config.monitorInterval (.monitorTick s.monitorEpoch)

/-- Begin a session of the monitor. -/
def startMonitor (s : State) : Step :=
  let (s, cmds) := { s with monitorEpoch := s.monitorEpoch + 1 }.requestLoad .monitor
  (s, cmds ++ [s.monitorTimer])

/-- End a session of the monitor: cancel all reads of samples and forget the rows. -/
def stopMonitor (s : State) : State :=
  let s := s.monitor.foldl (fun s entry => s.cancel entry.2) s
  { s.clearRows .monitor with monitor := [], monitorEpoch := s.monitorEpoch + 1 }

/-- Make a view the active one and load it. -/
def switchView (s : State) (target : View) : Step :=
  if target = s.view then s.requestLoad target
  else
    let s := if s.view = .monitor then s.stopMonitor else s
    let s := { s with view := target }
    if target = .monitor then s.startMonitor else s.requestLoad target

/-- Show the tasks of a scope. Rows of another scope are forgotten, and a load of another scope
that is under way is not waited for. -/
def enterTaskView (s : State) (scope : TaskScope) : Step :=
  let target := scope.view
  let s := if s.view.isTaskView then s else { s with previous := s.view }
  let s := if s.taskScope = some scope then s else s.clearRows target
  { s with taskScope := some scope, loading := s.loading.set target false }.switchView target

/-- Leave a task view. -/
def back (s : State) : Step := if s.view.isTaskView then s.switchView s.previous else s.noCmds

/-- The rows of a view have arrived. Tasks of a scope that is no longer shown are dropped. -/
def onLoaded (s : State) (view : View) (scope : Option TaskScope) (rows : List Row) : Step :=
  if view.isTaskView && scope != s.taskScope then s.noCmds
  else
    let s := { s with loading := s.loading.set view false }.setRows view rows
    let wasStale := s.stale.get view
    let s := { s with stale := s.stale.set view false }
    if wasStale && view == s.view then s.requestLoad view else s.noCmds

/-- A view could not be loaded; its rows stay. -/
def onLoadFailed (s : State) (view : View) (error : String) : Step :=
  { s with loading := s.loading.set view false, stale := s.stale.set view false }.fail
    s!"Loading {view.title} failed: {error}"

end State

end Dockboard
