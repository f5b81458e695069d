import Dockboard.Measure
import Dockboard.SortKey
import Dockboard.Text.Width

set_option autoImplicit false

/-! # The daemon: its summary, its events, and what it measures of containers -/

namespace Dockboard

open Dockboard.Text

/-- What is shown of the daemon at the top of the screen. -/
structure DaemonSummary where
  version : String := ""
  apiVersion : String := ""
  os : String := ""
  arch : String := ""
  host : String := ""
  /-- Its part in a swarm. -/
  swarmRole : String := ""
  containersRunning : Int := 0
  containersTotal : Int := 0
  images : Int := 0
  deriving DecidableEq, Repr, Inhabited

/-- A change the daemon reports. -/
structure DaemonEvent where
  /-- When it happened, in unix seconds. -/
  time : Int := 0
  kind : String := ""
  action : String := ""
  actorId : String := ""
  actorName : String := ""
  deriving DecidableEq, Repr, Inhabited

/-- The line that reports an event. -/
def DaemonEvent.describe (e : DaemonEvent) : List Char :=
  (Measure.timeOfDay e.time).toList ++ ' ' :: padRight 10 e.kind.toList ++
    ' ' :: padRight 16 e.action.toList ++ ' ' :: e.actorId.toList.take 12 ++
    if e.actorName.isEmpty then [] else " (".toList ++ e.actorName.toList ++ [')']

/-- What a container consumes at a moment. -/
structure Sample where
  /-- In per cent of one processor. -/
  cpu : Binary64 := .zero
  memory : Nat := 0
  memoryLimit : Nat := 0
  received : Nat := 0
  sent : Nat := 0
  blockRead : Nat := 0
  blockWritten : Nat := 0
  pids : Nat := 0
  deriving DecidableEq, Repr, Inhabited

namespace Sample

/-- The part of the memory limit that is used, in per cent. -/
def memoryPercent (s : Sample) : Binary64 :=
  if s.memoryLimit = 0 then .zero
  else
    .ofFloat
      ((Binary64.ofCount s.memory).toFloat / (Binary64.ofCount s.memoryLimit).toFloat * 100.0)

/-- Two sizes next to each other. -/
def pair (a b : Nat) : String := s!"{Measure.bytes a} / {Measure.bytes b}"

/-- The line that reports a sample. -/
def describe (s : Sample) : List Char :=
  "cpu ".toList ++ padLeft 6 (Binary64.fixed 2 s.cpu) ++ "%  mem ".toList ++
    (pair s.memory s.memoryLimit).toList ++ " (".toList ++ Binary64.fixed 1 s.memoryPercent ++
    "%)  net ".toList ++ (pair s.received s.sent).toList ++ "  block ".toList ++
    (pair s.blockRead s.blockWritten).toList ++ "  pids ".toList ++ (toString s.pids).toList

end Sample

/-- A container whose samples are watched. -/
structure Monitored where
  id : String := ""
  name : String := ""
  /-- The latest sample. -/
  sample : Option Sample := none
  /-- Why no more samples come, if none do. -/
  ended : Option String := none
  deriving DecidableEq, Repr, Inhabited

namespace Monitored

/-- The columns of a watched container. -/
def columns (m : Monitored) : List (List Char) :=
  m.id.toList :: m.name.toList ::
    match m.sample with
    | some s =>
        [Binary64.fixed 2 s.cpu ++ ['%'], (Sample.pair s.memory s.memoryLimit).toList,
         Binary64.fixed 2 s.memoryPercent ++ ['%'], (Sample.pair s.received s.sent).toList,
         (Sample.pair s.blockRead s.blockWritten).toList, (toString s.pids).toList]
    | none => List.replicate 6 (if m.ended.isSome then "ended" else "...").toList

/-- What a column of watched containers is sorted by; those without a sample count as least. -/
def sortKey (m : Monitored) (column : Nat) : SortKey :=
  match column, m.sample with
  | 0, _ => .text m.id
  | 1, _ => .folded m.name.toList
  | _, none => .number .least
  | 2, some s => .number s.cpu
  | 3, some s => .number (Binary64.ofCount s.memory)
  | 4, some s => .number s.memoryPercent
  | 5, some s => .number (Binary64.ofCount (s.received + s.sent))
  | 6, some s => .number (Binary64.ofCount (s.blockRead + s.blockWritten))
  | 7, some s => .number (Binary64.ofCount s.pids)
  | _, some _ => .folded m.name.toList

end Monitored

end Dockboard
