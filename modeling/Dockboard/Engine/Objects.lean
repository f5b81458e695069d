import Dockboard.Document.Basic
import Dockboard.Resource.Objects
import Dockboard.Resource.Usage
import Dockboard.Text.Blank

set_option autoImplicit false

/-! # What the daemon's documents are about

Containers, images, networks and volumes as the dashboard knows them, and the space they take up.
What is in use gives no space back.
-/

namespace Dockboard

open Dockboard.Text

namespace Engine

/-- What may stand before the digits of an id. -/
def digestMark : List Char := "sha256:".toList

/-- An id as it is known: its first twelve characters. -/
def shortId (id : String) : String :=
  String.ofList ((dropStarts digestMark id.toList).take 12)

/-- The name of a container without the slashes before it. -/
def bareName (name : String) : String := String.ofList (name.toList.dropWhile (· == '/'))

/-- The protocol of a port that does not tell it. -/
def usualProtocol : String := "tcp"

/-- A port of a container, and where it is published if it is. -/
def portText (port : Document) : String :=
  let number := port.numberAt "PrivatePort"
  let protocol := (port.field "Type").text?.getD usualProtocol
  match (port.field "IP").text?, (port.field "PublicPort").number? with
  | some address, some published => s!"{address}:{published}->{number}/{protocol}"
  | _, _ => s!"{number}/{protocol}"

/-- The ports of a container. One that repeats the one before it is left out. -/
def portsText (ports : List Document) : String :=
  ", ".intercalate ((ports.map portText).eraseReps)

/-- The first address of a container in its networks. -/
def addressIn (networks : Document) : String :=
  ((networks.values.map fun endpoint => endpoint.textAt "IPAddress").find? fun address =>
    !address.isEmpty).getD ""

end Engine

open Engine

/-- The container a document is about. -/
def Container.ofDocument (d : Document) : Container :=
  let id := shortId (d.textAt "Id")
  { id
    name :=
      match (d.itemsAt "Names").head? with
      | some name => bareName (name.text?.getD "")
      | none => id
    image := d.textAt "Image"
    command := d.textAt "Command"
    state := d.textAt "State"
    status := d.textAt "Status"
    created := d.numberAt "Created"
    ports := portsText (d.itemsAt "Ports")
    address := addressIn ((d.field "NetworkSettings").field "Networks") }

/-- The image a document is about. -/
def Image.ofDocument (d : Document) : Image :=
  { id := shortId (d.textAt "Id")
    tag := ((d.itemsAt "RepoTags").head?.bind Document.text?).getD Image.noTag
    created := d.numberAt "Created"
    size := d.numberAt "Size"
    containers := d.numberAt "Containers" }

/-- The network a document is about. -/
def Network.ofDocument (d : Document) : Network :=
  { id := shortId (d.textAt "Id")
    name := d.textAt "Name"
    driver := d.textAt "Driver"
    scope := d.textAt "Scope"
    internal := d.flagAt "Internal" }

/-- The volume a document is about. -/
def Volume.ofDocument (d : Document) : Volume :=
  { name := d.textAt "Name"
    driver := d.textAt "Driver"
    scope := d.textAt "Scope"
    mountpoint := d.textAt "Mountpoint" }

/-! ## Space -/

namespace Usage

/-- The space of an image, which is in use if containers use it. -/
def ofImage (d : Document) : Usage :=
  let image := Image.ofDocument d
  let inUse := 0 < image.containers
  { kind := .images
    id := image.id
    name := image.tag
    active := if inUse then toString image.containers else "0"
    size := image.size
    reclaimable := if inUse then 0 else image.size }

/-- The space of a container, which is in use if its processes are running. -/
def ofContainer (d : Document) : Usage :=
  let container := Container.ofDocument d
  let size := d.numberAt "SizeRw"
  { kind := .containers
    id := container.id
    name := container.name
    active := container.state
    size
    reclaimable := if container.isRunning then 0 else size }

/-- The space of a volume, which is in use if something refers to it. -/
def ofVolume (d : Document) : Usage :=
  let usage := d.field "UsageData"
  let references := usage.numberAt "RefCount"
  let size := max (usage.numberAt "Size") 0
  { kind := .volumes
    id := d.textAt "Name"
    name := d.textAt "Name"
    active := toString references
    size
    reclaimable := if 0 < references then 0 else size }

/-- The space of what is kept of an earlier build. -/
def ofBuildStep (d : Document) : Usage :=
  let id := d.textAt "ID"
  let description := d.textAt "Description"
  let inUse := d.flagAt "InUse"
  let size := d.numberAt "Size"
  { kind := .buildCache
    id
    name := if description.isEmpty then shortId id else description
    active := if inUse then "yes" else "no"
    size
    reclaimable := if inUse then 0 else size }

end Usage

/-- What takes up space according to a document. -/
def DiskUsage.ofDocument (d : Document) : DiskUsage :=
  { images := (d.itemsAt "Images").map Usage.ofImage
    containers := (d.itemsAt "Containers").map Usage.ofContainer
    volumes := (d.itemsAt "Volumes").map Usage.ofVolume
    buildCache := (d.itemsAt "BuildCache").map Usage.ofBuildStep }

end Dockboard
