import Dockboard.Engine.Schema.Basic

set_option autoImplicit false

/-! # Networks and places in them

A network, and what a container has in the networks it is in: addresses and ports.
-/

namespace Dockboard.Engine.Schema

open Document Document.Reader

/-! ## Networks -/

/-- How the addresses of a network are given out. -/
def addressing : Reader Document :=
  record [optional "Driver" text,
    optional "Config" (list (record (optionalAll text ["Subnet", "IPRange", "Gateway"] ++
      [optional "AuxiliaryAddresses" labels]))),
    optional "Options" labels]

/-- A network. -/
def network : Reader Document :=
  record (optionalAll text ["Name", "Id"] ++ [moment "Created"] ++
    optionalAll text ["Scope", "Driver"] ++
    optionalAll flag ["EnableIPv4", "EnableIPv6"] ++ [optional "IPAM" addressing] ++
    optionalAll flag ["Internal", "Attachable", "Ingress"] ++
    [optional "ConfigFrom" (record [optional "Network" text]), optional "ConfigOnly" flag,
     optional "Containers" (map (record
       (optionalAll text ["Name", "EndpointID", "MacAddress", "IPv4Address", "IPv6Address"])))] ++
    optionalAll labels ["Options", "Labels"] ++
    [optional "Peers" (list (record (optionalAll text ["Name", "IP"])))])

/-! ## Containers in networks -/

/-- A port of a container. -/
def port : Reader Document :=
  record [optional "IP" text, required "PrivatePort" count16, optional "PublicPort" count16,
    requiredOneOf "Type" ["tcp", "udp", "sctp"]]

/-- Where ports are published. A port that is known but not published has null. -/
def publishedPorts : Reader Document :=
  map (orNull (list (record (optionalAll text ["HostIp", "HostPort"]))))

/-- The addresses that a container is to have in a network. -/
def requestedAddresses : Reader Document :=
  record (optionalAll text ["IPv4Address", "IPv6Address"] ++ [optional "LinkLocalIPs" texts])

/-- A container's place in a network. -/
def endpoint : Reader Document :=
  record [optional "IPAMConfig" requestedAddresses, optional "Links" texts,
    optional "MacAddress" text, optional "Aliases" texts, optional "DriverOpts" labels,
    optional "NetworkID" text, optional "EndpointID" text, optional "Gateway" text,
    optional "IPAddress" text, optional "IPPrefixLen" int, optional "IPv6Gateway" text,
    optional "GlobalIPv6Address" text, optional "GlobalIPv6PrefixLen" int,
    optional "DNSNames" texts]

/-- Further addresses of a container. -/
def addresses : Reader Document :=
  list (record [optional "Addr" text, optional "PrefixLen" int])

/-- The networks of a container. -/
def networkSettings : Reader Document :=
  record ([optional "Bridge" text, optional "SandboxID" text, optional "HairpinMode" flag,
      optional "LinkLocalIPv6Address" text, optional "LinkLocalIPv6PrefixLen" int,
      optional "Ports" publishedPorts, optional "SandboxKey" text] ++
    optionalAll addresses ["SecondaryIPAddresses", "SecondaryIPv6Addresses"] ++
    [optional "EndpointID" text, optional "Gateway" text, optional "GlobalIPv6Address" text,
     optional "GlobalIPv6PrefixLen" int, optional "IPAddress" text, optional "IPPrefixLen" int,
     optional "IPv6Gateway" text, optional "MacAddress" text, optional "Networks" (map endpoint)])

end Dockboard.Engine.Schema
