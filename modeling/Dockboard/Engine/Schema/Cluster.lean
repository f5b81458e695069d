import Dockboard.Engine.Schema.Basic

set_option autoImplicit false

/-! # What a manager says of its swarm

A daemon that manages a swarm describes it as a part of what it says of itself.
-/

namespace Dockboard.Engine.Schema

open Document Document.Reader

/-- The version of a thing that the swarm keeps. -/
def objectVersion : Reader Document := record [optional "Index" count]

/-- An authority that signs the certificates of nodes. -/
def externalAuthority : Reader Document :=
  record [optional "Protocol" (oneOf ["cfssl"]), optional "URL" text, optional "Options" labels,
    optional "CACert" text]

/-- How certificates are signed. -/
def authority : Reader Document :=
  record ([optional "NodeCertExpiry" int, optional "ExternalCAs" (list externalAuthority)] ++
    optionalAll text ["SigningCACert", "SigningCAKey"] ++ [optional "ForceRotate" count])

/-- How managers agree. -/
def agreement : Reader Document :=
  record (optionalAll count ["SnapshotInterval", "KeepOldSnapshots",
      "LogEntriesForSlowFollowers"] ++
    optionalAll int ["ElectionTick", "HeartbeatTick"])

/-- What a swarm is asked to be. -/
def swarmSettings : Reader Document :=
  record [optional "Name" text, optional "Labels" labels,
    optional "Orchestration" (record [optional "TaskHistoryRetentionLimit" int]),
    optional "Raft" agreement, optional "Dispatcher" (record [optional "HeartbeatPeriod" int]),
    optional "CAConfig" authority,
    optional "EncryptionConfig" (record [optional "AutoLockManagers" flag]),
    optional "TaskDefaults" (record [optional "LogDriver"
      (record [optional "Name" text, optional "Options" labels])])]

/-- A swarm. -/
def cluster : Reader Document :=
  record [optional "ID" text, optional "Version" objectVersion, moment "CreatedAt",
    moment "UpdatedAt", optional "Spec" swarmSettings,
    optional "TLSInfo"
      (record (optionalAll text ["TrustRoot", "CertIssuerSubject", "CertIssuerPublicKey"])),
    optional "RootRotationInProgress" flag, optional "DataPathPort" count32,
    optional "DefaultAddrPool" texts, optional "SubnetSize" count32]

/-- The place of a daemon in its swarm. -/
def swarm : Reader Document :=
  record (optionalAll text ["NodeID", "NodeAddr"] ++
    [optional "LocalNodeState" (oneOf ["inactive", "pending", "active", "error", "locked"]),
     optional "ControlAvailable" flag, optional "Error" text,
     optional "RemoteManagers" (list (record (optionalAll text ["NodeID", "Addr"])))] ++
    optionalAll int ["Nodes", "Managers"] ++ [optional "Cluster" cluster])

end Dockboard.Engine.Schema
