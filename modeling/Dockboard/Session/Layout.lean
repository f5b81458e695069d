import Dockboard.Session.State

set_option autoImplicit false

/-! # What the views look like

The columns of each view, the hints in its footer, what it says when it is empty, and the help.
-/

namespace Dockboard.Layout

/-- A column of a given width. -/
def fixed (title : String) (width : Nat) : Column := ⟨title, some width⟩

/-- A column that shares the width the others leave. -/
def flexible (title : String) : Column := ⟨title, none⟩

/-- The columns of a view. -/
def columns : View → List Column
  | .containers =>
      [fixed "ID" 12, flexible "NAME", flexible "IMAGE", fixed "STATE" 10, fixed "STATUS" 22,
       fixed "AGE" 8, flexible "PORTS"]
  | .images =>
      [fixed "ID" 12, flexible "TAG", fixed "AGE" 8, fixed "SIZE" 10, fixed "CONTAINERS" 10]
  | .networks =>
      [fixed "ID" 12, flexible "NAME", fixed "DRIVER" 10, fixed "SCOPE" 8, fixed "INTERNAL" 8]
  | .volumes => [flexible "NAME", fixed "DRIVER" 10, fixed "SCOPE" 8, flexible "MOUNTPOINT"]
  | .diskUsage => [flexible "NAME", fixed "ACTIVE" 10, fixed "SIZE" 10, fixed "RECLAIMABLE" 12]
  | .monitor =>
      [fixed "ID" 12, flexible "NAME", fixed "CPU %" 8, fixed "MEM USAGE / LIMIT" 21,
       fixed "MEM %" 7, fixed "NET I/O" 21, fixed "BLOCK I/O" 21, fixed "PIDS" 5]
  | .nodes =>
      [fixed "ID" 12, flexible "HOSTNAME", fixed "STATUS" 8, fixed "AVAILABILITY" 12,
       fixed "ROLE" 8, fixed "MANAGER" 11, fixed "ENGINE" 10]
  | .services =>
      [fixed "ID" 12, flexible "NAME", fixed "MODE" 10, fixed "REPLICAS" 10, flexible "IMAGE",
       flexible "PORTS"]
  | .stackList => [flexible "NAME", fixed "SERVICES" 8, fixed "HEALTH" 12]
  | .serviceTasks | .stackTasks | .nodeTasks =>
      [fixed "ID" 12, flexible "NAME", flexible "IMAGE", fixed "NODE" 14, fixed "DESIRED" 8,
       fixed "CURRENT" 20, flexible "ERROR"]

/-- What a view says when it has no rows to show. -/
def emptyMessage (view : View) (filter : List Char) : String :=
  if filter.isEmpty then
    match view with
    | .nodes | .services | .stackList => "  Nothing to show (is this node a swarm manager?)"
    | .monitor => "  No running containers"
    | _ => "  Nothing to show"
  else "  No rows match the filter"

/-- The keys of a view, as its footer names them. -/
def footerHints : View → String
  | .containers =>
      " Enter: Menu | l: Logs | i: Inspect | s: Stats | ^k: Kill | ^e: Remove | F2: All" ++
        " | %: Filter | ?: Help"
  | .images =>
      " Enter: Menu | i: Inspect | ^e: Remove | ^f: Force | ^d: Dangling | %: Filter | ?: Help"
  | .networks | .volumes => " i: Inspect | ^e: Remove | %: Filter | F5: Refresh | ?: Help"
  | .diskUsage => " ^p: Prune | F5: Refresh | Esc: Back | ?: Help"
  | .monitor => " l: Logs | s: Stats | i: Inspect | m: Stop monitor | ?: Help"
  | .nodes => " Enter: Tasks | i: Inspect | ^a: Availability | %: Filter | ?: Help"
  | .services =>
      " Enter: Tasks | i: Inspect | l: Logs | ^s: Scale | ^u: Update | ^r: Remove | ?: Help"
  | .stackList => " Enter: Tasks | ^r: Remove | %: Filter | ?: Help"
  | .serviceTasks | .stackTasks | .nodeTasks =>
      " i: Inspect | Esc: Back | %: Filter | F5: Refresh | ?: Help"

/-- The lines of the help. -/
def helpLines : List String :=
  ["Global",
   "  q, Ctrl-c        quit",
   "  ?                this help",
   "  1..7             containers, images, networks, volumes, nodes, services, stacks",
   "  m                monitor on/off",
   "  H                show/hide the daemon header",
   "  F8               disk usage",
   "  F9               daemon events",
   "  F10              daemon info",
   "",
   "Every list",
   "  Up/Down, j/k     move",
   "  PgUp/PgDn        page",
   "  Home/End, g/G    first/last row",
   "  F1               cycle sort column",
   "  F5               refresh",
   "  %                filter rows",
   "",
   "Containers",
   "  Enter            action menu",
   "  l / i / s        logs / inspect / stats",
   "  Ctrl-k           kill",
   "  Ctrl-t           stop",
   "  Ctrl-r           restart",
   "  Ctrl-e           remove",
   "  Ctrl-x           remove all stopped",
   "  F2               show all / running only",
   "",
   "Images",
   "  Enter            action menu",
   "  i                inspect",
   "  Ctrl-e / Ctrl-f  remove / force remove",
   "  Ctrl-d           remove dangling",
   "",
   "Networks, Volumes",
   "  i                inspect",
   "  Ctrl-e           remove",
   "",
   "Disk usage",
   "  Ctrl-p           prune",
   "",
   "Nodes",
   "  Enter            tasks on node",
   "  i                inspect",
   "  Ctrl-a           set availability",
   "",
   "Services",
   "  Enter            tasks of service",
   "  i / l            inspect / logs",
   "  Ctrl-s           scale",
   "  Ctrl-u           force update",
   "  Ctrl-r           remove",
   "",
   "Stacks",
   "  Enter            tasks of stack",
   "  Ctrl-r           remove stack",
   "",
   "Tasks",
   "  i                inspect",
   "  Esc, Backspace   back",
   "",
   "Pager",
   "  Up/Down, PgUp/PgDn, g/G   scroll",
   "  /                search, n/N next/previous match",
   "  f                filter lines (Esc clears)",
   "  F                follow on/off",
   "  q, Esc           close"]

/-- The text of the help. -/
def help : String := String.join (helpLines.map fun line => line ++ "\n")

end Dockboard.Layout
