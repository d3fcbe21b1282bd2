import SegmentRouter.ArpCache
import SegmentRouter.Dhcp.Server
import SegmentRouter.Error
import SegmentRouter.Link.Basic
import SegmentRouter.Rule.RuleSet

/-!
# Domain/Basic — one part of the network

A domain has a router address in its own subnet, rules for what leaves it, and what the router
remembers of it: the links with an end in it, the hardware addresses of its hosts, the ports that
translated links hold, the leases of its DHCP server. Domains know each other by name only.
-/

namespace SegmentRouter

open Wire (Protocol)

/-- The addresses of a domain: the router's own with the domain's subnet, the gateway to what lies
behind that subnet, and the DNS server that the hosts are told. -/
structure IpConfig where
  interface : Cidr
  gateway : Option Ipv4Addr := none
  dnsServer : Option Ipv4Addr := none
deriving DecidableEq, Repr

/-- Where a domain's addresses come from. -/
inductive IpSource where
  /-- They are configured. -/
  | static
  /-- They are those of another domain. -/
  | derived (supplier : String)
  /-- They are leased by a DHCP client. -/
  | dhcp
deriving DecidableEq, Repr

/-- A part of the network. -/
structure Domain where
  config : Config.Domain
  source : IpSource
  ipConfig : Option IpConfig
  rules : RuleSet
  /-- The shares of ports that other domains have here, by their names. -/
  nat : SortedMap String Rule.Masquerade
  /-- The ports, or ICMP identifiers, that links hold here. -/
  pools : Rule.PerProtocol Port.Pool
  arp : ArpCache
  links : LinkTable
  dhcpServer : Option DhcpServer
  interfaces : SortedSet InterfaceId
  /-- The domains that have their addresses from this one. -/
  dependents : SortedSet String
  rxBytes : Nat
  txBytes : Nat
deriving DecidableEq

namespace Domain

/-- Where a configured domain has its addresses from. -/
def sourceOf (config : Config.Domain) : IpSource :=
  if config.isStatic then .static
  else match config.ipConfigFrom with
    | some supplier => .derived supplier
    | none => .dhcp

/-- A domain as it is configured; without fixed addresses it has none yet. -/
def ofConfig (config : Config.Domain) (timeouts : Config.Timeouts) : Domain where
  config := config
  source := sourceOf config
  ipConfig := config.interface.map fun interface =>
    { interface, gateway := config.gateway, dnsServer := config.dnsServer }
  rules := .ofConfig config
  nat := .ofList (config.nat.map fun n => (n.domain, .ofConfig n))
  pools := { icmp := {}, tcp := {}, udp := {} }
  arp := ∅
  links := {}
  dhcpServer := config.dhcpServer.map fun pool =>
    .ofConfig pool (Config.seconds timeouts.dhcpOfferSec)
  interfaces := ∅
  dependents := ∅
  rxBytes := 0
  txBytes := 0

/-- The domain's name. -/
def name (d : Domain) : String :=
  d.config.name

/-- Whether the domain's addresses are configured. -/
def isStatic (d : Domain) : Bool :=
  d.source == .static

/-- The router's address in the domain. -/
def routerIp? (d : Domain) : Option Ipv4Addr :=
  d.ipConfig.map (·.interface.addr)

/-- The address to which packets for a destination are sent: the destination itself in the subnet,
else the gateway. -/
def nextHop (d : Domain) (dst : Ipv4Addr) : Except Error Ipv4Addr :=
  match d.ipConfig with
  | none => .error (.noNextHop dst)
  | some config =>
    if config.interface.contains dst then .ok dst
    else match config.gateway with
      | some gateway => .ok gateway
      | none => .error (.noNextHop dst)

/-- What the domain's rules for ports say of a flow that arrives in it. -/
def decision (d : Domain) (key : FlowKey) : LinkDecision :=
  match d.routerIp? with
  | some routerIp => d.rules.decision routerIp key
  | none => .noRule

/-! ## Translated ports -/

/-- Whether traffic from another domain is translated here. -/
def translatesFor (d : Domain) (client : String) : Bool :=
  d.nat.contains client

/-- The domain with a share of ports and the pool behind it replaced. -/
def withShare (d : Domain) (client : String) (rule : Rule.Masquerade) (p : Protocol)
    (quota : Port.Quota) (pool : Port.Pool) : Domain :=
  { d with
    nat := d.nat.insert client { rule with quotas := rule.quotas.set p quota }
    pools := d.pools.set p pool }

/-- A port for a flow from another domain, within that domain's share. -/
def allocPort (d : Domain) (client : String) (p : Protocol) : Except Error (UInt16 × Domain) :=
  match d.nat.get? client with
  | none => .error (.unknownDomain client)
  | some rule =>
    match (rule.quotas.get p).alloc? (d.pools.get p) with
    | some (port, quota, pool) => .ok (port, d.withShare client rule p quota pool)
    | none => .error .portExhausted

/-- The domain with a given port taken by a link from another domain. -/
def reservePort (d : Domain) (client : String) (p : Protocol) (port : UInt16) :
    Except Error Domain :=
  match d.nat.get? client with
  | none => .error (.unknownDomain client)
  | some rule =>
    match (rule.quotas.get p).reserve? (d.pools.get p) port with
    | some (quota, pool) => .ok (d.withShare client rule p quota pool)
    | none => .error .portExhausted

/-- The domain with a port given back, whether or not the other domain still has a share. -/
def freePort (d : Domain) (client : String) (p : Protocol) (port : UInt16) : Domain :=
  match d.nat.get? client with
  | some rule =>
    let (quota, pool) := (rule.quotas.get p).free (d.pools.get p) port
    d.withShare client rule p quota pool
  | none => { d with pools := d.pools.set p ((d.pools.get p).free port) }

/-! ## Parts -/

/-- The domain with an interface in it. -/
def addInterface (d : Domain) (id : InterfaceId) : Domain :=
  { d with interfaces := d.interfaces.insert id () }

/-- The domain without an interface. -/
def removeInterface (d : Domain) (id : InterfaceId) : Domain :=
  { d with interfaces := d.interfaces.erase id }

/-- What the DHCP server's answers depend on, if the domain has addresses. -/
def dhcpParams? (d : Domain) (dnsServer : Option Ipv4Addr) : Option DhcpServer.Params :=
  d.ipConfig.map fun config => { interface := config.interface, dnsServer }

end Domain

end SegmentRouter
