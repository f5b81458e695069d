import Dockboard.Session.State

set_option autoImplicit false

/-! # Which key does what in which view -/

namespace Dockboard.Bindings

/-- What is inspected in a view. -/
def inspectKind? : View → Option InspectKind
  | .containers | .monitor => some .container
  | .images => some .image
  | .networks => some .network
  | .volumes => some .volume
  | .nodes => some .node
  | .services => some .service
  | .serviceTasks | .stackTasks | .nodeTasks => some .task
  | .diskUsage | .stackList => none

/-- The action of a key held together with Control. -/
def controlAction? : View → KeyCode → Option Action
  | .containers, .char 'k' => some .kill
  | .containers, .char 't' => some .stop
  | .containers, .char 'r' => some .restart
  | .containers, .char 'x' => some .removeStopped
  | .images, .char 'f' => some .forceRemove
  | .images, .char 'd' => some .removeDangling
  | .containers, .char 'e' | .images, .char 'e' | .networks, .char 'e' | .volumes, .char 'e' =>
      some .remove
  | .diskUsage, .char 'p' => some .prune
  | .nodes, .enter | .services, .enter | .stackList, .enter => some .tasks
  | .nodes, .char 'a' => some .setAvailability
  | .services, .char 's' => some .scale
  | .services, .char 'u' => some .forceUpdate
  | .services, .char 'r' | .stackList, .char 'r' => some .remove
  | _, _ => none

/-- The action of a key without Control. -/
def plainAction? : View → KeyCode → Option Action
  | _, .char 'i' => some .inspect
  | .containers, .char 'l' | .monitor, .char 'l' | .services, .char 'l' => some .logs
  | .containers, .char 's' | .monitor, .char 's' => some .stats
  | .nodes, .enter | .services, .enter | .stackList, .enter => some .tasks
  | _, _ => none

/-- The action of a key in a view. -/
def action? (view : View) (key : Key) : Option Action :=
  if key.control then controlAction? view key.code else plainAction? view key.code

/-- Whether an action applies to the selected row, not to the view as a whole. -/
def needsTarget : Action → Bool
  | .removeStopped | .removeDangling | .prune => false
  | _ => true

/-- The menu of a view, if it has one. -/
def menuItems? (view : View) : Option (List (MenuItem Action)) :=
  let actions : Option (List Action) :=
    match view with
    | .containers =>
        some [.logs, .inspect, .stats, .restart, .stop, .kill, .remove]
    | .images => some [.inspect, .remove, .forceRemove]
    | _ => none
  actions.map fun actions => actions.map fun action => ⟨action.label, action⟩

/-- The operation of an action that has to be confirmed, on the resource `id` of a view. -/
def operation? (action : Action) (view : View) (id : String) : Option Operation :=
  match action, view with
  | .kill, _ => some (.killContainer id)
  | .stop, _ => some (.stopContainer id)
  | .restart, _ => some (.restartContainer id)
  | .removeStopped, _ => some .removeStoppedContainers
  | .removeDangling, _ => some .removeDanglingImages
  | .prune, _ => some .prune
  | .forceUpdate, _ => some (.forceUpdateService id)
  | .forceRemove, .images => some (.removeImage id true)
  | .remove, .containers => some (.removeContainer id)
  | .remove, .images => some (.removeImage id false)
  | .remove, .networks => some (.removeNetwork id)
  | .remove, .volumes => some (.removeVolume id)
  | .remove, .services => some (.removeService id)
  | .remove, .stackList => some (.removeStack id)
  | _, _ => none

end Dockboard.Bindings
