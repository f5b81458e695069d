import Dockboard.SortKey
import Dockboard.Text.Blank
import Dockboard.Text.Numeral

set_option autoImplicit false

/-! # Nodes, services, stacks and tasks

A swarm is a set of nodes that run services. The replicas of a service are its tasks. Services
that were deployed together carry the name of their stack.
-/

namespace Dockboard

open Dockboard.Text

/-- A node of the swarm. -/
structure Node where
  id : String := ""
  hostname : String := ""
  status : String := ""
  availability : String := ""
  /-- Its standing among the managers; empty for a worker. -/
  managerStatus : String := ""
  engineVersion : String := ""
  /-- Whether it is the node that was asked. -/
  isSelf : Bool := false
  deriving DecidableEq, Repr, Inhabited

namespace Node

/-- The part a node has in the swarm. -/
def role (n : Node) : String := if n.managerStatus.isEmpty then "worker" else "manager"

/-- The columns of a node. -/
def columns (n : Node) : List (List Char) :=
  [n.id.toList, if n.isSelf then n.hostname.toList ++ " *".toList else n.hostname.toList,
   n.status.toList, n.availability.toList, n.role.toList, n.managerStatus.toList,
   n.engineVersion.toList]

end Node

/-- A service. -/
structure Service where
  id : String := ""
  name : String := ""
  mode : String := ""
  /-- How many replicas run and how many should, with a slash between. -/
  replicas : String := ""
  image : String := ""
  ports : String := ""
  /-- The stack it was deployed with; empty if there is none. -/
  stack : String := ""
  deriving DecidableEq, Repr, Inhabited

namespace Service

/-- The columns of a service. -/
def columns (s : Service) : List (List Char) :=
  [s.id.toList, s.name.toList, s.mode.toList, s.replicas.toList, s.image.toList, s.ports.toList]

end Service

/-- Whether replicas written as `running/desired`, with anything after a blank, fall short. A
part that writes no number of 32 bits counts as none. -/
def isDegraded (replicas : List Char) : Bool :=
  match splitOnce '/' (firstWord replicas) with
  | some (running, desired) =>
      let read := fun part => (Numeral.read? Numeral.max32 (trim part)).getD 0
      read running < read desired
  | none => false

/-- The desired number of replicas as it is written. -/
def desiredReplicas (replicas : List Char) : List Char :=
  firstWord ((splitOn '/' replicas).getD 1 [])

/-- Services that were deployed together. -/
structure Stack where
  name : String := ""
  /-- The identifiers of its services. -/
  services : List String := []
  /-- How many of them have too few replicas. -/
  degraded : Nat := 0
  deriving DecidableEq, Repr, Inhabited

namespace Stack

/-- The name under which services without a stack are grouped. -/
def noStack : String := "(no stack)"

/-- The columns of a stack. -/
def columns (s : Stack) : List (List Char) :=
  [s.name.toList, (toString s.services.length).toList,
   (if s.degraded = 0 then "ok" else s!"{s.degraded} degraded").toList]

/-- What a column of stacks is sorted by. -/
def sortKey (s : Stack) : Nat → SortKey
  | 1 => .number (Binary64.ofCount s.services.length)
  | 2 => .number (Binary64.ofCount s.degraded)
  | _ => .folded s.name.toList

/-- The name of the group a service belongs to. -/
def nameOf (service : Service) : String :=
  if service.stack.isEmpty then noStack else service.stack

/-- Whether the group `a` may stand before the group `b`: by name, services without a stack
last. -/
def nameLe (a b : String) : Bool :=
  ((compare (a == noStack) (b == noStack)).then (compare a b)).isLE

/-- The group of that name. -/
def gather (services : List Service) (name : String) : Stack :=
  let own := services.filter fun service => nameOf service == name
  { name
    services := own.map Service.id
    degraded := (own.filter fun service => isDegraded service.replicas.toList).length }

/-- The services in groups. -/
def ofServices (services : List Service) : List Stack :=
  (((services.map nameOf).eraseDups).mergeSort nameLe).map (gather services)

end Stack

/-- A task: a replica of a service. -/
structure Task where
  id : String := ""
  name : String := ""
  image : String := ""
  node : String := ""
  desiredState : String := ""
  currentState : String := ""
  error : String := ""
  ports : String := ""
  deriving DecidableEq, Repr, Inhabited

namespace Task

/-- The columns of a task. -/
def columns (t : Task) : List (List Char) :=
  [t.id.toList, t.name.toList, t.image.toList, t.node.toList, t.desiredState.toList,
   t.currentState.toList, t.error.toList]

/-- What stands before the name of a task that was replaced. -/
def historyMark : List Char := ['\\', '_']

/-- The service in the name of a task, which ends at the first dot. -/
def serviceOf (name : List Char) : List Char :=
  (trim (dropStarts historyMark (trim name))).takeWhile (· != '.')

/-- The service a task belongs to. -/
def service (t : Task) : String := String.ofList (serviceOf t.name.toList)

end Task

end Dockboard
