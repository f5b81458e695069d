import Dockboard.Resource.Daemon
import Dockboard.Resource.Objects
import Dockboard.Resource.Swarm
import Dockboard.Resource.Usage

set_option autoImplicit false

/-! # Rows

A row of the dashboard shows a resource, or is the heading of the rows that follow it. Headings
have no identifier, so that no action applies to them.
-/

namespace Dockboard

/-- A row of any view. -/
inductive Row where
  | container (container : Container)
  | image (image : Image)
  | network (network : Network)
  | volume (volume : Volume)
  | usage (usage : Usage)
  | monitored (monitored : Monitored)
  | node (node : Node)
  | service (service : Service)
  | stack (stack : Stack)
  | task (task : Task)
  /-- The heading of a part of the list. -/
  | heading (title : String)
  /-- The heading of a group of tasks. -/
  | group (title : String)
  deriving DecidableEq, Repr, Inhabited

namespace Row

/-- The name by which a row is called in prompts and titles. -/
def displayName : Row → String
  | .container c => c.name
  | .image i => i.tag
  | .network n => n.name
  | .volume v => v.name
  | .usage u => u.name
  | .monitored m => m.name
  | .node n => n.hostname
  | .service s => s.name
  | .stack s => s.name
  | .task t => t.name
  | .heading title => title
  | .group title => title

/-- The columns of a row as of `now`. -/
def columns (now : Int) : Row → List (List Char)
  | .container c => c.columns now
  | .image i => i.columns now
  | .network n => n.columns
  | .volume v => v.columns
  | .usage u => u.columns
  | .monitored m => m.columns
  | .node n => n.columns
  | .service s => s.columns
  | .stack s => s.columns
  | .task t => t.columns
  | .heading title => [s!"── {title} ──".toList]
  | .group title => [s!"▸ {title}".toList]

/-- The identifier of what a row shows. -/
def id? : Row → Option String
  | .container c => some c.id
  | .image i => some i.id
  | .network n => some n.id
  | .volume v => some v.name
  | .usage u => u.id?
  | .monitored m => some m.id
  | .node n => some n.id
  | .service s => some s.id
  | .stack s => some s.name
  | .task t => some t.id
  | .heading _ => none
  | .group _ => none

/-- Whether a row is a heading. -/
def isHeading : Row → Bool
  | .heading _ | .group _ => true
  | _ => false

/-- What a column is sorted by. -/
def sortKey (row : Row) (column : Nat) : SortKey :=
  match row with
  | .container c => c.sortKey column
  | .image i => i.sortKey column
  | .network n => .ofColumn n.columns column
  | .volume v => .ofColumn v.columns column
  | .usage u => u.sortKey column
  | .monitored m => m.sortKey column
  | .node n => .ofColumn n.columns column
  | .service s => .ofColumn s.columns column
  | .stack s => s.sortKey column
  | .task t => .ofColumn t.columns column
  | .heading _ => .text ""
  | .group _ => .text ""

/-- The section of the objects of a kind, if there are any. -/
def usageSection (usage : DiskUsage) (kind : UsageKind) : List Row :=
  if (usage.items kind).isEmpty then []
  else .heading kind.label :: (usage.items kind).map .usage

/-- The rows of the disk usage: a summary, and a section for each kind of object there is. -/
def ofDiskUsage (usage : DiskUsage) : List Row :=
  .heading "Summary" :: UsageKind.all.map (fun kind => .usage (usage.summary kind)) ++
    UsageKind.all.flatMap (usageSection usage)

/-- Tasks with a heading wherever another service begins than `current`. -/
def withGroups (current : Option String) : List Task → List Row
  | [] => []
  | t :: rest =>
      if current = some t.service then .task t :: withGroups current rest
      else .group t.service :: .task t :: withGroups (some t.service) rest

/-- Tasks in groups, one for each service in the order of names. -/
def ofTasks (tasks : List Task) : List Row :=
  withGroups none (tasks.mergeSort fun a b => (compare a.service b.service).isLE)

end Row

end Dockboard
