import Dockboard.Session.Actions

set_option autoImplicit false

/-! # Keys of a session

What stands before the view takes every key. Otherwise a key has a meaning everywhere, or in the
active view, or none.
-/

namespace Dockboard

namespace State

/-- Show the help. -/
def openHelp (s : State) : State :=
  s.openPager .text (.new "Help" Layout.help.toList s.config.logBuffer) none

/-- The line of an event in a pager. -/
def eventLine (event : DaemonEvent) : List Char := event.describe ++ ['\n']

/-- Show the events. -/
def openEvents (s : State) : State :=
  let pager := s.events.foldl (fun p event => p.append (eventLine event))
    (Pager.live "Events" eventHistory)
  s.openPager .events pager none

/-- The place of a view among the numbered ones, for a key that is one of their numbers. -/
def numberedView? (c : Char) : Option View :=
  if '1' ≤ c ∧ c ≤ '7' then View.numbered[c.toNat - '1'.toNat]? else none

/-- What a key does whatever the view is, if it does anything. -/
def pressGlobal? (s : State) (key : Key) : Option Step :=
  if key.control then
    if key.code = .char 'c' then some ({ s with quit := true }, []) else none
  else
    match key.code with
    | .function 8 => some (s.switchView .diskUsage)
    | .function 9 => some s.openEvents.noCmds
    | .function 10 => some (s, [.info])
    | .char 'q' => some ({ s with quit := true }, [])
    | .char '?' => some s.openHelp.noCmds
    | .char 'm' => some (s.switchView (if s.view = .monitor then .containers else .monitor))
    | .char 'H' => some ({ s with showHeader := !s.showHeader }.resizeAll).noCmds
    | .char c => (numberedView? c).map s.switchView
    | _ => none

/-- Run the action of a key in the active view. -/
def pressAction (s : State) (key : Key) : Step :=
  match Bindings.action? s.view key with
  | none => s.noCmds
  | some action =>
      if Bindings.needsTarget action then
        match s.selectedTarget? with
        | some (target, row) => s.runAction action target (some row)
        | none => s.noCmds
      else s.runAction action {} none

/-- Sort the active view by its next column, and from now on whenever its rows arrive. -/
def sortNext (s : State) : State :=
  { s.modifyTable s.view (fun t => t.nextSortField.sortByField s.format) with
    sorted := s.sorted.set s.view true }

/-- Ask for a filter. -/
def askFilter (s : State) : State :=
  s.openPrompt (.input .filter ⟨"", s.view.title⟩ "Filter:" s.activeTable.filter)

/-- Open the menu of the active view, if it has one, or else do what Enter does there. -/
def pressEnter (s : State) (key : Key) : Step :=
  match Bindings.menuItems? s.view with
  | none => s.pressAction key
  | some items =>
      match s.selectedTarget? with
      | some (target, _) => (s.openPrompt (.menu .menu target target.name items)).noCmds
      | none => s.noCmds

/-- What a key does in the active view. -/
def pressView (s : State) (key : Key) : Step :=
  let move := fun f => (s.modifyTable s.view f).noCmds
  if key.control then s.pressAction key
  else
    match key.code with
    | .up | .char 'k' => move (·.cursorUp 1)
    | .down | .char 'j' => move (·.cursorDown 1)
    | .pageUp => move Table.pageUp
    | .pageDown => move Table.pageDown
    | .home | .char 'g' => move Table.home
    | .toEnd | .char 'G' => move Table.toEnd
    | .function 1 => s.sortNext.noCmds
    | .function 2 =>
        if s.view = .containers then { s with showAll := !s.showAll }.requestLoad s.view
        else s.pressAction key
    | .function 5 => s.requestLoad s.view
    | .char '%' => s.askFilter.noCmds
    | .esc | .backspace => s.back
    | .enter => s.pressEnter key
    | _ => s.pressAction key

/-- A key while a prompt is open. -/
def pressPrompt (s : State) (prompt : Prompt Followup Action) (key : Key) : Step :=
  match prompt.press key with
  | .inl outcome => { s with layer := none }.onOutcome prompt.tag prompt.target outcome
  | .inr prompt => ({ s with layer := some (.prompt prompt) }, [])

/-- A key while a pager is open. -/
def pressPager (s : State) (layer : PagerLayer) (key : Key) : Step :=
  let (pager, closes) := layer.pager.press key
  let s := { s with layer := some (.pager { layer with pager }) }
  (if closes then s.closeLayer else s).noCmds

/-- A key. Without a prompt or a pager it removes the status message. -/
def press (s : State) (key : Key) : Step :=
  match s.layer with
  | some (.prompt prompt) => s.pressPrompt prompt key
  | some (.pager layer) => s.pressPager layer key
  | none =>
      let s := { s with status := none }
      (s.pressGlobal? key).getD (s.pressView key)

end State

end Dockboard
