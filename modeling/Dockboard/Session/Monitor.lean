import Dockboard.Session.Loading

set_option autoImplicit false

/-! # The monitor

The monitor has a row for every running container and reads the samples of each. Whenever the
containers are listed again, reads of new ones begin, reads of those that are gone are cancelled,
and the others go on.
-/

namespace Dockboard

namespace State

/-- The token under which the samples of a container are read. -/
def subscription? (s : State) (id : String) : Option Token :=
  (s.monitor.find? fun entry => entry.1 == id).map Prod.snd

/-- The state in which the samples of a container are read under `token`. -/
def subscribe (s : State) (id : String) (token : Token) : State :=
  { s with monitor := s.monitor.filter (fun entry => entry.1 != id) ++ [(id, token)] }

/-- The state in which no samples of a container are read. -/
def unsubscribe (s : State) (id : String) : State :=
  { s with monitor := s.monitor.filter fun entry => entry.1 != id }

/-- The containers the monitor shows. -/
def monitoredRows (s : State) : List Monitored :=
  (s.tables.get .monitor).rows.filterMap fun row =>
    match row with
    | .monitored m => some m
    | _ => none

/-- The rows for the listed containers. `previous` holds the rows of before that have not been
found again yet; the answer tells which remain, and begins reads for the containers that are
new. -/
def relist (s : State) (previous : List Monitored) :
    List Container → State × List Monitored × List Row × List Cmd
  | [] => (s, previous, [], [])
  | c :: rest =>
      let old := previous.reverse.find? fun m => m.id == c.id
      let previous := previous.filter fun m => m.id != c.id
      let kept := old.filter fun m => m.ended.isSome || (s.subscription? c.id).isSome
      match kept with
      | some m =>
          let (s, left, rows, cmds) := s.relist previous rest
          (s, left, .monitored { m with name := c.name } :: rows, cmds)
      | none =>
          let (token, s) := s.freshToken
          let (s, left, rows, cmds) := (s.subscribe c.id token).relist previous rest
          (s, left, .monitored { id := c.id, name := c.name } :: rows,
           .openStats (.monitor c.id) c.id token :: cmds)

/-- Cancel the reads for a container that is gone. -/
def drop (s : State) (m : Monitored) : State :=
  match s.subscription? m.id with
  | some token => (s.unsubscribe m.id).cancel token
  | none => s

/-- The containers have been listed. -/
def onMonitorListed (s : State) (containers : List Container) : Step :=
  let s := { s with loading := s.loading.set .monitor false }
  if s.view != .monitor then s.noCmds
  else
    let (s, gone, rows, cmds) :=
      s.relist s.monitoredRows (containers.filter Container.isRunning)
    let s := (gone.foldl drop s).setRows .monitor rows
    if s.stale.get .monitor then
      let (s, more) := { s with stale := s.stale.set .monitor false }.requestLoad .monitor
      (s, cmds ++ more)
    else (s, cmds)

/-- The rows with `change` applied to the first one with an identifier, if that is a container
of the monitor. -/
def changeRow (id : String) (change : Monitored → Monitored) : List Row → Option (List Row)
  | [] => none
  | row :: rest =>
      if row.id? = some id then
        match row with
        | .monitored m => some (.monitored (change m) :: rest)
        | _ => none
      else (changeRow id change rest).map (row :: ·)

/-- The state with `change` applied to the row of a container. -/
def updateMonitored (s : State) (id : String) (change : Monitored → Monitored) : State :=
  match changeRow id change (s.tables.get .monitor).rows with
  | some rows => s.setRows .monitor rows
  | none => s

/-- It is time to list the containers again. -/
def onMonitorTick (s : State) (epoch : Nat) : Step :=
  if s.view = .monitor ∧ epoch = s.monitorEpoch then
    let (s, cmds) := s.requestLoad .monitor
    (s, cmds ++ [s.monitorTimer])
  else s.noCmds

end State

end Dockboard
