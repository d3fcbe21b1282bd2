import SegmentRouter.Address.Mac
import SegmentRouter.Rule.Basic

/-!
# Config/Basic — what a router is configured with

A configuration lists the domains of the router with their addresses and rules, and says how the
router reports and how long it remembers. A key that a document leaves out has the default given
here. Times are written in seconds and counted in milliseconds.
-/

namespace SegmentRouter

namespace Config

/-- How log lines are laid out. -/
inductive LogFormat where
  | pretty
  | compact
  | json
deriving DecidableEq, Repr, Inhabited

/-- The form's name in lower case. -/
def LogFormat.name : LogFormat → String
  | pretty => "pretty"
  | compact => "compact"
  | json => "json"

/-- What is logged. -/
structure Log where
  /-- The least important level that is written. -/
  level : String := "info"
  format : LogFormat := .pretty
deriving DecidableEq, Repr, Inhabited

/-- What is reported and how often. -/
structure Report where
  intervalSec : Nat := 5
  /-- Whether byte counters are reported. -/
  bytes : Bool := true
  /-- Whether rules and their counts are reported. -/
  config : Bool := true
  /-- Whether rules, links, ARP entries and leases are listed. -/
  verbose : Bool := false
  /-- The file that the report goes to, instead of the log. -/
  path : Option String := none
  /-- Whether each new configuration is followed by a report. -/
  configTriggers : Bool := false
deriving DecidableEq, Repr, Inhabited

/-- How long things are remembered, in seconds. -/
structure Timeouts where
  tcpIdleSec : Nat := 600
  tcpClosingSec : Nat := 30
  udpIdleSec : Nat := 60
  icmpIdleSec : Nat := 30
  arpRequestSec : Nat := 10
  arpEntrySec : Nat := 300
  dhcpOfferSec : Nat := 10
deriving DecidableEq, Repr, Inhabited

/-- Seconds as milliseconds. -/
def seconds (n : Nat) : Nat :=
  n * 1000

/-- The addresses that a domain's DHCP server leases. -/
structure DhcpPool where
  first : Ipv4Addr
  last : Ipv4Addr
  leaseTimeSec : UInt32 := 3600
  dnsServer : Option Ipv4Addr := none
  /-- The domain whose DNS server is handed out. -/
  dnsServerFrom : Option String := none
deriving DecidableEq, Repr

/-- Address translation for traffic that `domain` sends into the domain that has the entry. -/
structure Masquerade where
  domain : String
  tcpPorts : Nat := 0
  udpPorts : Nat := 0
  icmpIds : Nat := 0
deriving DecidableEq, Repr

/-- The ports that a text writes may be reached through a domain. -/
structure Permit where
  ports : String
  domain : String
deriving DecidableEq, Repr

/-- The policy for one protocol's traffic to a subnet. -/
structure Transport where
  dst : Cidr
  permitAny : Option String := none
  permit : List Permit := []
deriving DecidableEq, Repr

/-- A domain: a part of the network with one router address and rules for what leaves it. -/
structure Domain where
  name : String
  /-- The router's address in the domain; without one the domain is dynamic. -/
  interface : Option Cidr := none
  gateway : Option Ipv4Addr := none
  dnsServer : Option Ipv4Addr := none
  /-- The domain whose addresses a dynamic domain takes over. -/
  ipConfigFrom : Option String := none
  dhcpServer : Option DhcpPool := none
  nat : List Masquerade := []
  ip : List Rule.Ip := []
  icmp : List Rule.Ip := []
  tcp : List Transport := []
  udp : List Transport := []
  tcpForward : List Rule.Forward := []
  udpForward : List Rule.Forward := []
  /-- Whether dropped packets and new links are logged. -/
  verbosePackets : Bool := false
deriving DecidableEq, Repr

namespace Domain

/-- Whether the domain has a fixed router address. -/
def isStatic (d : Domain) : Bool :=
  d.interface.isSome

/-- The names in a list of transport rules. -/
def transportNames (rules : List Transport) : List String :=
  rules.flatMap fun r => r.permitAny.toList ++ r.permit.map (·.domain)

/-- Every domain that the domain refers to, as often as it does. -/
def references (d : Domain) : List String :=
  d.nat.map (·.domain) ++ (d.ip ++ d.icmp).map (·.domain) ++
    transportNames (d.tcp ++ d.udp) ++ (d.tcpForward ++ d.udpForward).map (·.domain) ++
    d.ipConfigFrom.toList ++ (d.dhcpServer.bind (·.dnsServerFrom)).toList

end Domain

/-- A network device whose frames belong to a domain. -/
structure Attachment where
  device : String
  domain : String
deriving DecidableEq, Repr

/-- The hardware address of a router that is given none. -/
def defaultMac : Mac := ⟨0x02, 0, 0, 0, 0, 0x01⟩

end Config

/-- The configuration of a router. -/
structure Config where
  /-- The hardware address that the router has on every interface. -/
  mac : Mac := Config.defaultMac
  /-- Whether changes of a domain's addresses are logged for the operator. -/
  verboseDomainState : Bool := false
  /-- Whether senders are told that a packet has no way to its destination. -/
  icmpUnreachable : Bool := true
  log : Option Config.Log := none
  report : Config.Report := {}
  timeouts : Config.Timeouts := {}
  domains : List Config.Domain := []
  attachments : List Config.Attachment := []
deriving DecidableEq, Repr, Inhabited

end SegmentRouter
