import Dockboard.Resource.Daemon
import Dockboard.Screen.Draw
import Dockboard.Table
import Dockboard.View

set_option autoImplicit false

/-! # The parts of the screen

From top to bottom: the header with the daemon's summary, the tab bar, the table, the status
line and the footer. A screen that is too small shows a notice instead.
-/

namespace Dockboard.Screen

open Dockboard.Text

/-! ## A screen that is too small -/

/-- The least width of a screen. -/
def minColumns : Nat := 60

/-- The least height of a screen. -/
def minRows : Nat := 10

/-- Whether a screen is large enough. -/
def isLargeEnough (columns rows : Nat) : Bool := minColumns ≤ columns && minRows ≤ rows

/-- The notice that a screen is too small. -/
def smallNotice (columns rows : Nat) : List Char :=
  s!"Terminal too small ({columns}x{rows}). Resize to at least {minColumns}x{minRows}.".toList

/-- A screen that is too small. -/
def guardPage (theme : Theme) (columns rows : Nat) : List Draw :=
  let notice := smallNotice columns rows
  [.clear, .moveTo 0 0, .moveTo ((columns - notice.length) / 2) (rows / 2), .fore theme.warning,
   .text (ellipsize columns notice), .resetColors]

/-! ## Header and tabs -/

/-- The text of the header. -/
def headerText : Option DaemonSummary → List Char
  | none => " Docker ...".toList
  | some s =>
      (s!" Docker {s.version} (API {s.apiVersion})  {s.os}/{s.arch}  host {s.host}  " ++
        s!"swarm {s.swarmRole}  containers {s.containersRunning}/{s.containersTotal}  " ++
        s!"images {s.images}").toList

/-- The header. -/
def header (theme : Theme) (summary : Option DaemonSummary) (width : Nat) : List Draw :=
  [.fore theme.muted, .text (fit width (headerText summary)), .resetColors, .newline]

/-- The label of the tab of a view. -/
def tabLabel (number : Nat) (view : View) : List Char := s!" {number}:{view.title} ".toList

/-- The tabs of `views` as far as there is room for them, `used` columns being taken, and the
columns taken with them. `reserved` columns stay free. -/
def tabs (theme : Theme) (current : View) (reserved width : Nat) (used : Nat) :
    List (View × Nat) → List Draw × Nat
  | [] => ([], used)
  | (view, number) :: rest =>
      let label := tabLabel number view
      if width < used + label.length + reserved then ([], used)
      else
        let color :=
          if view = current then [.back theme.tabBack, .fore theme.tabFore]
          else [.fore theme.muted]
        let (more, total) := tabs theme current reserved width (used + label.length) rest
        (color ++ [.text label, .resetColors] ++ more, total)

/-- The tab of a view that has no number, if there is room for it, and the columns taken with
it. -/
def extraTab (theme : Theme) (extra : Option (List Char)) (reserved width used : Nat) :
    List Draw × Nat :=
  match extra with
  | none => ([], used)
  | some title =>
      let room := width - (used + reserved)
      if 3 < room then
        let label := ellipsize room (' ' :: title ++ [' '])
        ([.text [' '], .back theme.tabBack, .fore theme.tabFore, .text label, .resetColors],
         used + 1 + label.length)
      else ([], used)

/-- The tab bar: numbered views, the view that has no number if that is shown, and on the right
a counter. The room for the counter is reckoned in bytes. -/
def tabBar (theme : Theme) (current : View) (extra : Option (List Char)) (counter : List Char)
    (width : Nat) : List Draw :=
  let counterSize := byteLength counter
  let (numbered, used) := tabs theme current (counterSize + 1) width 0 (View.numbered.zipIdx 1)
  let (further, used) := extraTab theme extra (counterSize + 2) width used
  numbered ++ further ++
    [.text (List.replicate (width - (used + counter.length)) ' '), .fore theme.muted,
     .text counter, .resetColors, .newline]

/-! ## The table -/

/-- A line of the table. -/
def tableLine (theme : Theme) (width : Nat) (line : TableLine) : List Draw :=
  if line.heading && !line.selected then
    [.fore theme.accent, .bold] ++ Draw.line width line.text ++ [.resetColors, .plain]
  else Draw.selectable theme width line.text line.selected

/-- The table with `height` lines under its header, and a message in place of the lines if there
are none. -/
def table (theme : Theme) (view : TableView) (width height : Nat) (message : List Char) :
    List Draw :=
  let notice :=
    if view.lines.isEmpty && !message.isEmpty then
      [.fore theme.muted] ++ Draw.line width message ++ [.resetColors]
    else []
  let printed := (if notice.isEmpty then 0 else 1) + min view.lines.length height
  [.bold] ++ Draw.line width view.header ++ [.plain] ++ notice ++
    (view.lines.take height).flatMap (tableLine theme width) ++
    Draw.blankLines (height - printed)

/-! ## Status and footer -/

/-- The status line. -/
def status (theme : Theme) (text : List Char) (isError : Bool) (width : Nat) : List Draw :=
  [.fore (if isError then theme.error else theme.ok)] ++ Draw.line width text ++ [.resetColors]

/-- The last line of the screen. -/
def footer (theme : Theme) (text : List Char) (width : Nat) : List Draw :=
  [.fore theme.muted, .text (fit width text), .resetColors]

end Dockboard.Screen
