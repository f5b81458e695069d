set_option autoImplicit false

/-! # Views

The dashboard shows one view at a time. A view that lists a kind of resource is outdated by
changes of certain kinds of resources; three views list tasks, each within a scope.
-/

namespace Dockboard

/-- What the dashboard shows. -/
inductive View where
  | containers
  | images
  | networks
  | volumes
  | diskUsage
  | monitor
  | nodes
  | services
  | stackList
  | serviceTasks
  | stackTasks
  | nodeTasks
  deriving DecidableEq, Repr, Inhabited

namespace View

/-- Every view. -/
def all : List View :=
  [containers, images, networks, volumes, diskUsage, monitor, nodes, services, stackList,
   serviceTasks, stackTasks, nodeTasks]

/-- The views behind the number keys, from 1 on. -/
def numbered : List View := [containers, images, networks, volumes, nodes, services, stackList]

/-- What a view is called. -/
def title : View → String
  | containers => "Containers"
  | images => "Images"
  | networks => "Networks"
  | volumes => "Volumes"
  | diskUsage => "Disk Usage"
  | monitor => "Monitor"
  | nodes => "Nodes"
  | services => "Services"
  | stackList => "Stacks"
  | serviceTasks | stackTasks | nodeTasks => "Tasks"

/-- Whether the view lists the tasks of a scope. -/
def isTaskView : View → Bool
  | serviceTasks | stackTasks | nodeTasks => true
  | _ => false

/-- The number key of a view, if it has one. -/
def number? (view : View) : Option Nat := (numbered.findIdx? (· == view)).map (· + 1)

/-- The place of a view in `View.all`. -/
def index : View → Fin 12
  | containers => 0
  | images => 1
  | networks => 2
  | volumes => 3
  | diskUsage => 4
  | monitor => 5
  | nodes => 6
  | services => 7
  | stackList => 8
  | serviceTasks => 9
  | stackTasks => 10
  | nodeTasks => 11

theorem index_injective {v w : View} (h : v.index = w.index) : v = w := by
  cases v <;> cases w <;> simp_all [index]

end View

/-- Something for every view. -/
structure ByView (α : Type) where
  entries : Vector α 12

namespace ByView

variable {α : Type}

/-- The same for every view but what `f` says. -/
def ofFn (f : View → α) : ByView α := ⟨⟨(View.all.map f).toArray, by simp [View.all]⟩⟩

/-- What belongs to `view`. -/
def get (table : ByView α) (view : View) : α := table.entries[view.index]

/-- The same with `value` for `view`. -/
def set (table : ByView α) (view : View) (value : α) : ByView α :=
  ⟨table.entries.set view.index value⟩

/-- The same with `f` applied for `view`. -/
def modify (table : ByView α) (view : View) (f : α → α) : ByView α :=
  table.set view (f (table.get view))

/-- The same with `f` applied for every view. -/
def map (table : ByView α) (f : α → α) : ByView α := ⟨table.entries.map f⟩

@[simp] theorem get_ofFn (f : View → α) (view : View) : (ofFn f).get view = f view := by
  cases view <;> rfl

@[simp] theorem get_map (table : ByView α) (f : α → α) (view : View) :
    (table.map f).get view = f (table.get view) := by
  simp [get, map]

theorem get_set (table : ByView α) (view other : View) (value : α) :
    (table.set view value).get other = if view = other then value else table.get other := by
  unfold get set
  by_cases h : view = other
  · subst h
    simp
  · have hne : (view.index : Nat) ≠ other.index := fun he => h (View.index_injective (Fin.ext he))
    simp [h, Vector.getElem_set_ne _ _ hne]

theorem get_set_self (table : ByView α) (view : View) (value : α) :
    (table.set view value).get view = value := by
  rw [get_set, if_pos rfl]

theorem get_set_of_ne {view other : View} (h : view ≠ other) (table : ByView α) (value : α) :
    (table.set view value).get other = table.get other := by
  rw [get_set, if_neg h]

theorem get_modify (table : ByView α) (view other : View) (f : α → α) :
    (table.modify view f).get other =
      if view = other then f (table.get view) else table.get other :=
  get_set table view other _

end ByView

/-- A kind of resource the daemon reports changes of. -/
inductive ResourceKind where
  | container
  | image
  | network
  | volume
  | node
  | service
  deriving DecidableEq, Repr, Inhabited

namespace ResourceKind

/-- Every kind, in the order in which they are reported together. -/
def all : List ResourceKind := [container, image, network, volume, node, service]

/-- The place of a kind in that order. -/
def rank : ResourceKind → Nat
  | container => 0
  | image => 1
  | network => 2
  | volume => 3
  | node => 4
  | service => 5

/-- The kind named by the type of an event, if it is one of these. -/
def ofEventType? : String → Option ResourceKind
  | "container" => some container
  | "image" => some image
  | "network" => some network
  | "volume" => some volume
  | "node" => some node
  | "service" => some service
  | _ => none

/-- Whether a change of this kind outdates what `view` shows. -/
def affects : ResourceKind → View → Bool
  | container, .containers | container, .diskUsage | container, .monitor
  | container, .serviceTasks | container, .stackTasks | container, .nodeTasks => true
  | image, .images | image, .diskUsage => true
  | network, .networks => true
  | volume, .volumes | volume, .diskUsage => true
  | node, .nodes | node, .nodeTasks => true
  | service, .services | service, .stackList | service, .serviceTasks | service, .stackTasks => true
  | _, _ => false

end ResourceKind

/-- A kind of object that can be inspected. -/
inductive InspectKind where
  | container
  | image
  | network
  | volume
  | node
  | service
  | task
  deriving DecidableEq, Repr, Inhabited

/-- What an object of this kind is called. -/
def InspectKind.label : InspectKind → String
  | container => "container"
  | image => "image"
  | network => "network"
  | volume => "volume"
  | node => "node"
  | service => "service"
  | task => "task"

/-- Whose tasks a task view lists. -/
inductive TaskScope where
  | service (id name : String)
  | stack (name : String)
  | node (id name : String)
  deriving DecidableEq, Repr, Inhabited

namespace TaskScope

/-- What a scope is called. -/
def label : TaskScope → String
  | .service _ name => s!"service {name}"
  | .stack name => s!"stack {name}"
  | .node _ name => s!"node {name}"

/-- The view that lists the tasks of the scope. -/
def view : TaskScope → View
  | .service _ _ => .serviceTasks
  | .stack _ => .stackTasks
  | .node _ _ => .nodeTasks

end TaskScope

end Dockboard
