import Dockboard.Engine.Schema.Cluster
import Dockboard.Engine.Schema.Network

set_option autoImplicit false

/-! # Volumes

A volume belongs to one host or, with further particulars, to the whole swarm.
-/

namespace Dockboard.Engine.Schema

open Document Document.Reader

/-- A place in a topology. It is written like the ports that are published. -/
def topology : Reader Document := publishedPorts

/-- How a volume of the swarm may be used. -/
def volumeAccess : Reader Document :=
  record [optional "Scope" (oneOf ["single", "multi"]),
    optional "Sharing" (oneOf ["none", "readonly", "onewriter", "all"]),
    optional "MountVolume" emptyMap,
    optional "Secrets" (list (record (optionalAll text ["Key", "Secret"]))),
    optional "AccessibilityRequirements"
      (record (optionalAll (list topology) ["Requisite", "Preferred"])),
    optional "CapacityRange" (record (optionalAll int ["RequiredBytes", "LimitBytes"])),
    optional "Availability" (oneOf ["active", "pause", "drain"])]

/-- What is known of a volume of the swarm once it exists. -/
def volumeState : Reader Document :=
  record [optional "CapacityBytes" int, optional "VolumeContext" labels,
    optional "VolumeID" text, optional "AccessibleTopology" (list topology)]

/-- How far a volume of the swarm has come on a node. -/
def volumeProgress : Reader Document :=
  record [optional "NodeID" text,
    optional "State" (oneOf ["pending-publish", "published", "pending-node-unpublish",
      "pending-controller-unpublish"]),
    optional "PublishContext" labels]

/-- The particulars of a volume of the swarm. -/
def clusterVolume : Reader Document :=
  record [optional "ID" text, optional "Version" objectVersion, moment "CreatedAt",
    moment "UpdatedAt",
    optional "Spec" (record [optional "Group" text, optional "AccessMode" volumeAccess]),
    optional "Info" volumeState, optional "PublishStatus" (list volumeProgress)]

/-- A volume. -/
def volume : Reader Document :=
  record (requiredAll text ["Name", "Driver", "Mountpoint"] ++
    [moment "CreatedAt", optional "Status" names, requiredLabels "Labels",
     requiredOneOf "Scope" ["local", "global"], optional "ClusterVolume" clusterVolume,
     requiredLabels "Options",
     optional "UsageData" (record (requiredAll int ["Size", "RefCount"]))])

/-- The volumes there are. -/
def volumes : Reader Document :=
  record [optional "Volumes" (list volume), optional "Warnings" texts]

end Dockboard.Engine.Schema
