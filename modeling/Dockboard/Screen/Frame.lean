import Dockboard.Screen.PagerPage
import Dockboard.Screen.Parts
import Dockboard.Screen.PromptBox
import Dockboard.Session.Loading

set_option autoImplicit false

/-! # The whole screen

A pager takes the whole screen. Otherwise the active view is shown, with a prompt on top of it
if one is open.
-/

namespace Dockboard.Screen

/-- What the tab bar calls a view that has no number. -/
def extraTitle (s : State) : Option (List Char) :=
  match s.view with
  | .diskUsage | .monitor => some s.view.title.toList
  | .serviceTasks | .stackTasks | .nodeTasks =>
      some ((s.taskScope.map TaskScope.label).getD s.view.title).toList
  | _ => none

/-- The counter of rows. -/
def counter (s : State) : List Char :=
  let t := s.activeTable
  let rows :=
    if t.shown.length = t.rows.length then toString t.rows.length
    else s!"{t.shown.length}/{t.rows.length}"
  rows.toList ++ (if s.loading.get s.view then " loading…".toList else []) ++ [' ']

/-- The message in place of rows. -/
def emptyNotice (s : State) : List Char :=
  if s.loading.get s.view then [] else (Layout.emptyMessage s.view s.activeTable.filter).toList

/-- The status line of a session. -/
def statusLine (theme : Theme) (s : State) : List Draw :=
  match s.status with
  | some message => status theme message.text.toList message.isError s.width
  | none => status theme [] false s.width

/-- The active view. -/
def viewPage (theme : Theme) (s : State) : List Draw :=
  (if s.showHeader then header theme s.summary s.width else []) ++
    tabBar theme s.view (extraTitle s) (counter s) s.width ++
    table theme (s.activeTable.view s.format) s.width s.bodyHeight (emptyNotice s) ++
    statusLine theme s ++ footer theme (Layout.footerHints s.view).toList s.width

/-- What stands on a screen that is large enough. -/
def page (theme : Theme) (s : State) : List Draw :=
  match s.layer with
  | some (.pager layer) => pagerPage theme layer.pager s.width s.height
  | some (.prompt prompt) =>
      viewPage theme s ++ promptBox theme prompt.question s.width s.height
  | none => viewPage theme s

/-- Everything that is drawn for a state. -/
def frame (theme : Theme) (s : State) : List Draw :=
  [.clear, .moveTo 0 0] ++
    if isLargeEnough s.width s.height then page theme s else guardPage theme s.width s.height

end Dockboard.Screen
