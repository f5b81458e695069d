import Dockboard.Text.Blank
import Dockboard.Text.Width

set_option autoImplicit false

/-! # Operations

An operation changes something on the host or in the swarm. Each has an imperative form, for
prompts and failures, and a form in the past tense, for its success.
-/

namespace Dockboard

open Dockboard.Text

/-- Whether a node takes tasks. -/
inductive Availability where
  | active
  | pause
  | drain
  deriving DecidableEq, Repr, Inhabited

namespace Availability

/-- The word for an availability. -/
def word : Availability → String
  | active => "active"
  | pause => "pause"
  | drain => "drain"

/-- Every availability. -/
def all : List Availability := [active, pause, drain]

/-- The availability whose word `text` is, whatever the case of its letters `a` to `z`. -/
def ofText? (text : List Char) : Option Availability :=
  all.find? fun a => (trim text).map Char.toLower == a.word.toList

end Availability

/-- A change of something. -/
inductive Operation where
  | killContainer (id : String)
  | stopContainer (id : String)
  | restartContainer (id : String)
  | removeContainer (id : String)
  | removeStoppedContainers
  | removeImage (id : String) (force : Bool)
  | removeDanglingImages
  | removeNetwork (id : String)
  | removeVolume (name : String)
  | prune
  | setNodeAvailability (id : String) (availability : Availability)
  | scaleService (id : String) (replicas : Nat)
  | forceUpdateService (id : String)
  | removeService (id : String)
  | removeStack (name : String)
  deriving DecidableEq, Repr, Inhabited

namespace Operation

/-- An identifier as it is shown. -/
def short (id : String) : String := String.ofList (id.toList.take 12)

/-- What has been done, with a detail in parentheses if there is one. -/
def successMessage (op : Operation) (detail : String) : String :=
  let message :=
    match op with
    | killContainer id => s!"Killed container {short id}"
    | stopContainer id => s!"Stopped container {short id}"
    | restartContainer id => s!"Restarted container {short id}"
    | removeContainer id => s!"Removed container {short id}"
    | removeStoppedContainers => "Removed stopped containers"
    | removeImage id _ => s!"Removed image {short id}"
    | removeDanglingImages => "Removed dangling images"
    | removeNetwork id => s!"Removed network {short id}"
    | removeVolume name => s!"Removed volume {name}"
    | prune => "Pruned unused data"
    | setNodeAvailability id availability => s!"Node {short id} set to {availability.word}"
    | scaleService id replicas => s!"Scaled service {short id} to {replicas}"
    | forceUpdateService id => s!"Force-updated service {short id}"
    | removeService id => s!"Removed service {short id}"
    | removeStack name => s!"Removed stack {name}"
  if detail.isEmpty then message else s!"{message} ({detail})"

/-- What is to be done. -/
def label : Operation → String
  | killContainer id => s!"kill container {short id}"
  | stopContainer id => s!"stop container {short id}"
  | restartContainer id => s!"restart container {short id}"
  | removeContainer id => s!"remove container {short id}"
  | removeStoppedContainers => "remove all stopped containers"
  | removeImage id false => s!"remove image {short id}"
  | removeImage id true => s!"force remove image {short id}"
  | removeDanglingImages => "remove dangling images"
  | removeNetwork id => s!"remove network {short id}"
  | removeVolume name => s!"remove volume {name}"
  | prune => "prune unused containers, images, networks and volumes"
  | setNodeAvailability id availability => s!"set node {short id} to {availability.word}"
  | scaleService id replicas => s!"scale service {short id} to {replicas}"
  | forceUpdateService id => s!"force update service {short id}"
  | removeService id => s!"remove service {short id}"
  | removeStack name => s!"remove stack {name}"

/-- What is to be done to the thing called `name`, for the question whether to do it. -/
def promptLabel (op : Operation) (name : String) : String :=
  match op with
  | killContainer _ => s!"kill container {name}"
  | stopContainer _ => s!"stop container {name}"
  | restartContainer _ => s!"restart container {name}"
  | removeContainer _ => s!"remove container {name}"
  | removeImage _ false => s!"remove image {name}"
  | removeImage _ true => s!"force remove image {name}"
  | removeNetwork _ => s!"remove network {name}"
  | removeVolume _ => s!"remove volume {name}"
  | forceUpdateService _ => s!"force update service {name}"
  | removeService _ => s!"remove service {name}"
  | removeStack _ => s!"remove stack {name} and all its services"
  | other => other.label

end Operation

end Dockboard
