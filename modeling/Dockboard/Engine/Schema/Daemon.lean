import Dockboard.Engine.Schema.Cluster

set_option autoImplicit false

/-! # What the daemon says of itself

Its version, and everything else about it and its host.
-/

namespace Dockboard.Engine.Schema

open Document Document.Reader

/-- A program that the daemon consists of. Anything may be told of it. -/
def component : Reader Document :=
  record [required "Name" text, required "Version" text, optional "Details" (map (any 4))]

/-- The version of the daemon. -/
def version : Reader Document :=
  record ([optional "Platform" (record [required "Name" text]),
      optional "Components" (list component)] ++
    optionalAll text ["Version", "ApiVersion", "MinAPIVersion", "GitCommit", "GoVersion", "Os",
      "Arch", "KernelVersion", "experimental", "BuildTime"])

/-- The version of a program the daemon uses. -/
def commit : Reader Document := record (optionalAll text ["ID", "Expected"])

/-- A program that runs containers. -/
def runtime : Reader Document :=
  record [optional "path" text, optional "runtimeArgs" texts, optional "status" labels]

/-- The registries that images come from. -/
def registries : Reader Document :=
  record (optionalAll texts ["AllowNondistributableArtifactsCIDRs",
      "AllowNondistributableArtifactsHostnames", "InsecureRegistryCIDRs"] ++
    [optional "IndexConfigs" (map (record ([optional "Name" text, optional "Mirrors" texts] ++
      optionalAll flag ["Secure", "Official"]))),
     optional "Mirrors" texts])

/-- What else nodes have to offer. -/
def resources : Reader Document :=
  record [optional "NamedResourceSpec" (record (optionalAll text ["Kind", "Value"])),
    optional "DiscreteResourceSpec" (record [optional "Kind" text, optional "Value" int])]

/-- How the program is reached that holds the containers. -/
def containerd : Reader Document :=
  record [optional "Address" text,
    optional "Namespaces" (record (optionalAll text ["Containers", "Plugins"]))]

/-- What the daemon says of itself. -/
def information : Reader Document :=
  record ([optional "ID" text] ++
    optionalAll int ["Containers", "ContainersRunning", "ContainersPaused", "ContainersStopped",
      "Images"] ++
    [optional "Driver" text, optional "DriverStatus" (list texts), optional "DockerRootDir" text,
     optional "Plugins"
       (record (optionalAll texts ["Volume", "Network", "Authorization", "Log"]))] ++
    optionalAll flag ["MemoryLimit", "SwapLimit", "KernelMemoryTCP", "CpuCfsPeriod", "CpuCfsQuota",
      "CPUShares", "CPUSet", "PidsLimit", "OomKillDisable", "IPv4Forwarding", "BridgeNfIptables",
      "BridgeNfIp6tables", "Debug"] ++
    optionalAll int ["NFd", "NGoroutines"] ++
    optionalAll text ["SystemTime", "LoggingDriver"] ++
    [optional "CgroupDriver" (oneOf ["cgroupfs", "systemd", "none"]),
     optional "CgroupVersion" (oneOf ["1", "2"]), optional "NEventsListener" int] ++
    optionalAll text ["KernelVersion", "OperatingSystem", "OSVersion", "OSType", "Architecture"] ++
    optionalAll int ["NCPU", "MemTotal"] ++
    [optional "IndexServerAddress" text, optional "RegistryConfig" registries,
     optional "GenericResources" resources] ++
    optionalAll text ["HttpProxy", "HttpsProxy", "NoProxy", "Name"] ++
    [optional "Labels" texts, optional "ExperimentalBuild" flag, optional "ServerVersion" text,
     optional "Runtimes" (map runtime), optional "DefaultRuntime" text, optional "Swarm" swarm,
     optional "LiveRestoreEnabled" flag,
     optional "Isolation" (oneOf ["default", "hyperv", "process"]), optional "InitBinary" text] ++
    optionalAll commit ["ContainerdCommit", "RuncCommit", "InitCommit"] ++
    [optional "SecurityOptions" texts, optional "ProductLicense" text,
     optional "DefaultAddressPools" (list (record [optional "Base" text, optional "Size" int]))] ++
    optionalAll texts ["Warnings", "CDISpecDirs"] ++ [optional "Containerd" containerd])

end Dockboard.Engine.Schema
