import Dockboard.Engine.Schema.Network

set_option autoImplicit false

/-! # Containers

A container in a list, and all that is known of one: how it was created, what it may use of its
host, and in what state it is.
-/

namespace Dockboard.Engine.Schema

open Document Document.Reader

/-- What can be mounted. -/
def mountKinds : List String := ["bind", "volume", "tmpfs", "npipe", "cluster"]

/-- What is mounted into a container. -/
def mount : Reader Document :=
  record ([optional "Type" (oneOf mountKinds)] ++
    optionalAll text ["Name", "Source", "Destination", "Driver", "Mode"] ++
    [optional "RW" flag, optional "Propagation" text])

/-- A container in a list. -/
def container : Reader Document :=
  record [optional "Id" text, optional "Names" texts, optional "Image" text,
    optional "ImageID" text, optional "Command" text, optional "Created" int,
    optional "Ports" (list port), optional "SizeRw" int, optional "SizeRootFs" int,
    optional "Labels" labels, optional "State" text, optional "Status" text,
    optional "HostConfig" (record [optional "NetworkMode" text, optional "Annotations" labels]),
    optional "NetworkSettings" (record [optional "Networks" (map endpoint)]),
    optional "Mounts" (list mount)]

/-! ## Health and state -/

/-- One look at a container's health. -/
def healthReport : Reader Document :=
  record [moment "Start", moment "End", optional "ExitCode" int,
    optional "Output" text]

/-- The health of a container. -/
def health : Reader Document :=
  record [optional "Status" (oneOf ["none", "starting", "healthy", "unhealthy"]),
    optional "FailingStreak" int, optional "Log" (list healthReport)]

/-- The state of a container. -/
def containerState : Reader Document :=
  record ([optional "Status"
      (oneOf ["created", "running", "paused", "restarting", "removing", "exited", "dead"])] ++
    optionalAll flag ["Running", "Paused", "Restarting", "OOMKilled", "Dead"] ++
    optionalAll int ["Pid", "ExitCode"] ++ optionalAll text ["Error", "StartedAt", "FinishedAt"] ++
    [optional "Health" health])

/-! ## How a container was created -/

/-- How a container's health is to be looked at. -/
def healthSettings : Reader Document :=
  record ([optional "Test" texts] ++
    optionalAll int ["Interval", "Timeout", "Retries", "StartPeriod", "StartInterval"])

/-- How a container was created. -/
def containerConfig : Reader Document :=
  record (optionalAll text ["Hostname", "Domainname", "User"] ++
    optionalAll flag ["AttachStdin", "AttachStdout", "AttachStderr"] ++
    [optional "ExposedPorts" names] ++ optionalAll flag ["Tty", "OpenStdin", "StdinOnce"] ++
    optionalAll texts ["Env", "Cmd"] ++
    [optional "Healthcheck" healthSettings, optional "ArgsEscaped" flag, optional "Image" text,
     optional "Volumes" names, optional "WorkingDir" text, optional "Entrypoint" texts,
     optional "NetworkDisabled" flag, optional "MacAddress" text, optional "OnBuild" texts,
     optional "Labels" labels, optional "StopSignal" text, optional "StopTimeout" int,
     optional "Shell" texts])

/-! ## What a container may use -/

/-- How much of a device may be used. -/
def deviceRate : Reader Document := record [optional "Path" text, optional "Rate" int]

/-- Devices that are asked for by what they can do. -/
def deviceRequest : Reader Document :=
  record [optional "Driver" text, optional "Count" int, optional "DeviceIDs" texts,
    optional "Capabilities" (list texts), optional "Options" labels]

/-- How much a container may use of its host. -/
def hostLimits : List ExpectedField :=
  optionalAll int ["CpuShares", "Memory"] ++
    [optional "CgroupParent" text, optional "BlkioWeight" count16,
     optional "BlkioWeightDevice"
       (list (record [optional "Path" text, optional "Weight" count]))] ++
    optionalAll (list deviceRate) ["BlkioDeviceReadBps", "BlkioDeviceWriteBps",
      "BlkioDeviceReadIOps", "BlkioDeviceWriteIOps"] ++
    optionalAll int ["CpuPeriod", "CpuQuota", "CpuRealtimePeriod", "CpuRealtimeRuntime"] ++
    optionalAll text ["CpusetCpus", "CpusetMems"] ++
    [optional "Devices"
       (list (record (optionalAll text ["PathOnHost", "PathInContainer", "CgroupPermissions"]))),
     optional "DeviceCgroupRules" texts, optional "DeviceRequests" (list deviceRequest)] ++
    optionalAll int ["KernelMemoryTCP", "MemoryReservation", "MemorySwap", "MemorySwappiness",
      "NanoCpus"] ++
    optionalAll flag ["OomKillDisable", "Init"] ++
    [optional "PidsLimit" int,
     optional "Ulimits"
       (list (record ([optional "Name" text] ++ optionalAll int ["Soft", "Hard"])))] ++
    optionalAll int ["CpuCount", "CpuPercent", "IOMaximumIOps", "IOMaximumBandwidth"]

/-- What is to be mounted into a container. -/
def requestedMount : Reader Document :=
  record [optional "Target" text, optional "Source" text, optional "Type" (oneOf mountKinds),
    optional "ReadOnly" flag, optional "Consistency" text,
    optional "BindOptions" (record ([optional "Propagation"
        (oneOf ["private", "rprivate", "shared", "rshared", "slave", "rslave"])] ++
      optionalAll flag ["NonRecursive", "CreateMountpoint", "ReadOnlyNonRecursive",
        "ReadOnlyForceRecursive"])),
    optional "VolumeOptions" (record [optional "NoCopy" flag, optional "Labels" labels,
      optional "DriverConfig" (record [optional "Name" text, optional "Options" labels]),
      optional "Subpath" text]),
    optional "TmpfsOptions" (record [optional "SizeBytes" int, optional "Mode" int,
      optional "Options" (list texts)])]

/-- What becomes of a container that has ended. -/
def restartPolicy : Reader Document :=
  record [optional "Name" (oneOf ["no", "always", "unless-stopped", "on-failure"]),
    optional "MaximumRetryCount" int]

/-- How a container uses its host. -/
def hostConfig : Reader Document :=
  record (hostLimits ++
    [optional "Binds" texts, optional "ContainerIDFile" text,
     optional "LogConfig" (record [optional "Type" text, optional "Config" labels]),
     optional "NetworkMode" text, optional "PortBindings" publishedPorts,
     optional "RestartPolicy" restartPolicy, optional "AutoRemove" flag,
     optional "VolumeDriver" text, optional "VolumesFrom" texts,
     optional "Mounts" (list requestedMount), optional "ConsoleSize" (list int32),
     optional "Annotations" labels] ++
    optionalAll texts ["CapAdd", "CapDrop"] ++
    [optional "CgroupnsMode" (oneOf ["private", "host"])] ++
    optionalAll texts ["Dns", "DnsOptions", "DnsSearch", "ExtraHosts", "GroupAdd"] ++
    optionalAll text ["IpcMode", "Cgroup"] ++
    [optional "Links" texts, optional "OomScoreAdj" int, optional "PidMode" text] ++
    optionalAll flag ["Privileged", "PublishAllPorts", "ReadonlyRootfs"] ++
    [optional "SecurityOpt" texts] ++ optionalAll labels ["StorageOpt", "Tmpfs"] ++
    optionalAll text ["UTSMode", "UsernsMode"] ++
    [optional "ShmSize" int, optional "Sysctls" labels, optional "Runtime" text,
     optional "Isolation" (oneOf ["default", "process", "hyperv"])] ++
    optionalAll texts ["MaskedPaths", "ReadonlyPaths"])

/-! ## All that is known of a container -/

/-- How the layers of a file system are kept. -/
def layerStore : Reader Document := record [required "Name" text, requiredLabels "Data"]

/-- All that is known of a container. -/
def containerDetails : Reader Document :=
  record ([optional "Id" text, optional "Created" text, optional "Path" text,
      optional "Args" texts, optional "State" containerState] ++
    optionalAll text ["Image", "ResolvConfPath", "HostnamePath", "HostsPath", "LogPath", "Name"] ++
    [optional "RestartCount" int] ++
    optionalAll text ["Driver", "Platform", "MountLabel", "ProcessLabel", "AppArmorProfile"] ++
    [optional "ExecIDs" texts, optional "HostConfig" hostConfig,
     optional "GraphDriver" layerStore, optional "SizeRw" int, optional "SizeRootFs" int,
     optional "Mounts" (list mount), optional "Config" containerConfig,
     optional "NetworkSettings" networkSettings])

end Dockboard.Engine.Schema
