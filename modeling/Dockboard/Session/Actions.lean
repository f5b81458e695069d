import Dockboard.Session.Bindings
import Dockboard.Session.Loading
import Dockboard.Text.Quoted

set_option autoImplicit false

/-! # Actions

An action either opens a pager, asks for something, leads to another view, or opens a prompt.
Nothing is changed before a prompt has been confirmed.
-/

namespace Dockboard

open Dockboard.Text

namespace State

/-! ## Layers -/

/-- Remove what stands before the view; the stream of a pager is no longer read. -/
def closeLayer (s : State) : State :=
  match s.layer with
  | some (.pager { token := some token, .. }) => { s.cancel token with layer := none }
  | _ => { s with layer := none }

/-- The number of the next pager. -/
def nextPager (s : State) : Nat := s.lastPager + 1

/-- Show a pager. -/
def openPager (s : State) (kind : PagerKind) (pager : Pager) (token : Option Token) : State :=
  let s := s.closeLayer
  { s with
    lastPager := s.nextPager
    layer := some (.pager
      { id := s.nextPager, kind, pager := pager.resize s.width s.pagerHeight, token }) }

/-- Show a prompt. -/
def openPrompt (s : State) (prompt : Prompt Followup Action) : State :=
  { s with layer := some (.prompt prompt) }

/-- The selected row with its name and identifier, if it has one. -/
def selectedTarget? (s : State) : Option (Target × Row) :=
  s.activeTable.selected?.bind fun row => row.id?.map fun id => (⟨id, row.displayName⟩, row)

/-! ## Running an action -/

/-- Show the log of the target. -/
def openLogs (s : State) (target : Target) : Step :=
  let source :=
    if s.view = .services then LogSource.service target.id else LogSource.container target.id
  let (token, s) := s.freshToken
  let request : LogRequest := { source, tail := s.config.logTail }
  let pager := Pager.live s!"Logs: {target.name}" s.config.logBuffer
  (s.openPager .logs pager (some token), [.openLogs s.nextPager request token])

/-- Show the samples of the target. -/
def openStats (s : State) (target : Target) : Step :=
  let (token, s) := s.freshToken
  let pager := Pager.live s!"Stats: {target.name}" s.config.logBuffer
  (s.openPager .stats pager (some token), [.openStats (.pager s.nextPager) target.id token])

/-- The tasks that belong to the target in a view. -/
def scopeOf? (view : View) (target : Target) : Option TaskScope :=
  match view with
  | .services => some (.service target.id target.name)
  | .nodes => some (.node target.id target.name)
  | .stackList => some (.stack target.id)
  | _ => none

/-- The number of replicas that is offered for a row. -/
def offeredReplicas : Option Row → List Char
  | some (.service service) => desiredReplicas service.replicas.toList
  | _ => []

/-- Ask whether an operation should be carried out. -/
def askFor (s : State) (op : Operation) (target : Target) : State :=
  s.openPrompt
    (.confirm (.confirm op) target s!"Really {op.promptLabel target.name}? (y/n)")

/-- Run an action on a target; `row` is its row if the action was chosen by a key. -/
def runAction (s : State) (action : Action) (target : Target) (row : Option Row) : Step :=
  match action with
  | .inspect =>
      match Bindings.inspectKind? s.view with
      | some kind => (s, [.inspect kind target.id s!"{kind.label} {target.name}"])
      | none => s.noCmds
  | .logs => s.openLogs target
  | .stats => s.openStats target
  | .tasks =>
      match scopeOf? s.view target with
      | some scope => s.enterTaskView scope
      | none => s.noCmds
  | .setAvailability =>
      (s.openPrompt
        (.input .availability target "Availability (active, pause, drain):" [])).noCmds
  | .scale => (s.openPrompt (.input .scale target "Replicas:" (offeredReplicas row))).noCmds
  | _ =>
      match Bindings.operation? action s.view target.id with
      | some op => (s.askFor op target).noCmds
      | none => s.noCmds

/-! ## Answers to prompts -/

/-- A number of replicas has been typed. -/
def onScale (s : State) (target : Target) (text : List Char) : Step :=
  match Numeral.read? Numeral.max64 (trim text) with
  | some replicas => (s, [.act (.scaleService target.id replicas)])
  | none => s.fail s!"Invalid replica count: {quoted (String.ofList (trim text))}"

/-- An availability has been typed. -/
def onAvailability (s : State) (target : Target) (text : List Char) : Step :=
  match Availability.ofText? text with
  | some availability => (s, [.act (.setNodeAvailability target.id availability)])
  | none =>
      s.fail
        (s!"Invalid availability {quoted (String.ofList (trim text))}: " ++
          "expected active, pause or drain")

/-- A prompt has been answered. -/
def onOutcome (s : State) (tag : Followup) (target : Target) (outcome : Outcome Action) : Step :=
  match tag, outcome with
  | .menu, .selected action => s.runAction action target none
  | .confirm op, .confirmed => (s, [.act op])
  | .filter, .value text =>
      (s.modifyTable s.view fun t => t.setFilter s.format (trim text)).noCmds
  | .scale, .value text => s.onScale target text
  | .availability, .value text => s.onAvailability target text
  | _, _ => s.noCmds

end State

end Dockboard
