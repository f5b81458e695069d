set_option autoImplicit false

/-! # Settings -/

namespace Dockboard

/-- The settings of the dashboard. Times are in milliseconds. -/
structure Config where
  /-- The address of the daemon; its usual one if none is given. -/
  host : Option String := none
  /-- For how long reports of changes are gathered before a view is loaded again. -/
  debounce : Nat := 250
  /-- How often running containers are listed for the monitor. -/
  monitorInterval : Nat := 2000
  /-- For how long a status message stays. -/
  statusTtl : Nat := 5000
  /-- How many lines of a log are asked for. -/
  logTail : Nat := 200
  /-- How many lines a pager keeps. -/
  logBuffer : Nat := 10000
  /-- Whether containers that are not running are listed. -/
  showAll : Bool := false
  /-- Whether the daemon's summary is shown. -/
  showHeader : Bool := true
  /-- Whether the terminal's own colours are used. -/
  noColor : Bool := false
  /-- The file that records are written to; a usual one if none is given. -/
  logFile : Option String := none
  /-- Which records are written. -/
  logFilter : Option String := none
  deriving DecidableEq, Repr, Inhabited

end Dockboard
