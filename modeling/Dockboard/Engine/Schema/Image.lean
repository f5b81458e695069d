import Dockboard.Engine.Schema.Container

set_option autoImplicit false

/-! # Images

An image in a list with the manifests it consists of, all that is known of one, and what becomes
of one that is removed.
-/

namespace Dockboard.Engine.Schema

open Document Document.Reader

/-- What an image is made for. -/
def platform : Reader Document :=
  record (optionalAll text ["architecture", "os", "os.version"] ++
    [optional "os.features" texts, optional "variant" text])

/-- How content is found. -/
def descriptor : Reader Document :=
  record (optionalAll text ["mediaType", "digest"] ++ [optional "size" int])

/-- What a manifest says of an image. -/
def imageManifest : Reader Document :=
  record [required "Platform" platform, requiredTexts "Containers",
    required "Size" (record [required "Unpacked" int])]

/-- A manifest of an image. -/
def manifest : Reader Document :=
  record [required "ID" text, required "Descriptor" descriptor, required "Available" flag,
    required "Size" (record (requiredAll int ["Total", "Content"])),
    requiredOneOf "Kind" ["image", "attestation", "unknown"], optional "ImageData" imageManifest,
    optional "AttestationData" (record [required "For" text])]

/-- An image in a list. -/
def image : Reader Document :=
  record (requiredAll text ["Id", "ParentId"] ++
    ["RepoTags", "RepoDigests"].map requiredTexts ++
    requiredAll int ["Created", "Size", "SharedSize"] ++
    [optional "VirtualSize" int, requiredLabels "Labels", required "Containers" int,
     optional "Manifests" (list manifest)])

/-- All that is known of an image. -/
def imageDetails : Reader Document :=
  record ([optional "Id" text] ++ optionalAll texts ["RepoTags", "RepoDigests"] ++
    [optional "Parent" text, optional "Comment" text, moment "Created"] ++
    optionalAll text ["DockerVersion", "Author"] ++
    [optional "Config" containerConfig] ++
    optionalAll text ["Architecture", "Variant", "Os", "OsVersion"] ++
    optionalAll int ["Size", "VirtualSize"] ++
    [optional "GraphDriver" layerStore,
     optional "RootFS" (record [required "Type" text, optional "Layers" texts]),
     optional "Metadata" (record [moment "LastTagTime"])])

/-- A layer of an image that has been removed. -/
def deletedLayer : Reader Document := record (optionalAll text ["Untagged", "Deleted"])

end Dockboard.Engine.Schema
