import Dockboard.Measure
import Dockboard.SortKey

set_option autoImplicit false

/-! # Containers, images, networks and volumes

What the dashboard knows of the objects on one host, the columns that show them, and what the
columns are sorted by. Ages and sizes are sorted by the number behind them, the newest first.
-/

namespace Dockboard

/-- A container. -/
structure Container where
  /-- The first twelve digits of its number. -/
  id : String := ""
  name : String := ""
  image : String := ""
  command : String := ""
  state : String := ""
  status : String := ""
  /-- When it was created, in unix seconds. -/
  created : Int := 0
  ports : String := ""
  address : String := ""
  deriving DecidableEq, Repr, Inhabited

namespace Container

/-- Whether its processes are running. -/
def isRunning (c : Container) : Bool := c.state == "running"

/-- The columns of a container as of `now`. -/
def columns (now : Int) (c : Container) : List (List Char) :=
  [c.id.toList, c.name.toList, c.image.toList, c.state.toList, c.status.toList,
   (Measure.age now c.created).toList, c.ports.toList]

/-- What a column of containers is sorted by. -/
def sortKey (c : Container) (column : Nat) : SortKey :=
  -- The age is sorted by number, so its text, which needs the present, has no part in it.
  if column = 5 then .number (Binary64.ofSigned c.created).negate
  else .ofColumn (c.columns 0) column

end Container

/-- An image. -/
structure Image where
  id : String := ""
  /-- Its name and tag. -/
  tag : String := ""
  created : Int := 0
  size : Int := 0
  /-- How many containers use it; negative if the daemon did not count them. -/
  containers : Int := 0
  deriving DecidableEq, Repr, Inhabited

namespace Image

/-- The tag of an image that has none. -/
def noTag : String := "<none>:<none>"

/-- Whether no tag refers to the image. -/
def isDangling (i : Image) : Bool := i.tag == noTag

/-- The columns of an image as of `now`. -/
def columns (now : Int) (i : Image) : List (List Char) :=
  [i.id.toList, i.tag.toList, (Measure.age now i.created).toList,
   (Measure.bytes i.size.toNat).toList,
   (if i.containers < 0 then "-" else toString i.containers.toNat).toList]

/-- What a column of images is sorted by. -/
def sortKey (i : Image) : Nat → SortKey
  | 0 => .text i.id
  | 2 => .number (Binary64.ofSigned i.created).negate
  | 3 => .number (Binary64.ofSigned i.size)
  | 4 => .number (Binary64.ofSigned i.containers)
  | _ => .folded i.tag.toList

end Image

/-- A network. -/
structure Network where
  id : String := ""
  name : String := ""
  driver : String := ""
  scope : String := ""
  internal : Bool := false
  deriving DecidableEq, Repr, Inhabited

/-- The columns of a network. -/
def Network.columns (n : Network) : List (List Char) :=
  [n.id.toList, n.name.toList, n.driver.toList, n.scope.toList,
   (if n.internal then "yes" else "no").toList]

/-- A volume. -/
structure Volume where
  name : String := ""
  driver : String := ""
  scope : String := ""
  mountpoint : String := ""
  deriving DecidableEq, Repr, Inhabited

/-- The columns of a volume. -/
def Volume.columns (v : Volume) : List (List Char) :=
  [v.name.toList, v.driver.toList, v.scope.toList, v.mountpoint.toList]

end Dockboard
