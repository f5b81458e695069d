import Dockboard.Measure
import Dockboard.SortKey

set_option autoImplicit false

/-! # Disk usage

The daemon reports which objects of four kinds take up how much space, and how much of it could
be given back. An object that could give nothing back counts as active.
-/

namespace Dockboard

/-- A kind of object that takes up space. -/
inductive UsageKind where
  | images
  | containers
  | volumes
  | buildCache
  deriving DecidableEq, Repr, Inhabited

namespace UsageKind

/-- Every kind, in the order in which they are listed. -/
def all : List UsageKind := [images, containers, volumes, buildCache]

/-- What a kind is called. -/
def label : UsageKind → String
  | images => "Images"
  | containers => "Containers"
  | volumes => "Local Volumes"
  | buildCache => "Build Cache"

end UsageKind

/-- The space taken up by one object, or by all objects of a kind. -/
structure Usage where
  kind : UsageKind
  /-- Empty for all objects of a kind together. -/
  id : String := ""
  name : String := ""
  active : String := ""
  size : Int := 0
  reclaimable : Int := 0
  deriving DecidableEq, Repr, Inhabited

namespace Usage

/-- The columns of an entry. -/
def columns (u : Usage) : List (List Char) :=
  [u.name.toList, u.active.toList, (Measure.bytes u.size.toNat).toList,
   (Measure.bytes u.reclaimable.toNat).toList]

/-- The identifier of an entry, if it stands for one object. -/
def id? (u : Usage) : Option String := if u.id.isEmpty then none else some u.id

/-- What a column of entries is sorted by. -/
def sortKey (u : Usage) : Nat → SortKey
  | 1 => .text u.active
  | 2 => .number (Binary64.ofSigned u.size)
  | 3 => .number (Binary64.ofSigned u.reclaimable)
  | _ => .folded u.name.toList

/-- Whether the object of an entry is in use. -/
def isActive (u : Usage) : Bool := u.reclaimable == 0

end Usage

/-- What takes up space on the host. -/
structure DiskUsage where
  images : List Usage := []
  containers : List Usage := []
  volumes : List Usage := []
  buildCache : List Usage := []
  deriving DecidableEq, Repr, Inhabited

namespace DiskUsage

/-- The objects of a kind. -/
def items (usage : DiskUsage) : UsageKind → List Usage
  | .images => usage.images
  | .containers => usage.containers
  | .volumes => usage.volumes
  | .buildCache => usage.buildCache

/-- The sum of sizes, those below zero left out. It goes round when it becomes too large for a
signed number of 64 bits. -/
def totalSize (sizes : List Int) : Int :=
  Int.bmod ((sizes.map fun size => max size 0).foldr (· + ·) 0) 18446744073709551616

/-- The objects of a kind taken together. -/
def summary (usage : DiskUsage) (kind : UsageKind) : Usage :=
  let items := usage.items kind
  { kind
    name := kind.label
    active := s!"{(items.filter Usage.isActive).length}/{items.length}"
    size := totalSize (items.map Usage.size)
    reclaimable := totalSize (items.map Usage.reclaimable) }

end DiskUsage

end Dockboard
