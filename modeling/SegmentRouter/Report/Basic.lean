import SegmentRouter.Domain.Basic
import SegmentRouter.Report.Json

/-!
# Report/Basic — what the router tells about itself

A report has an entry for each domain: its addresses, how many rules and links it has, how many
bytes passed through it, and in detail its links, the hardware addresses of its hosts and its
leases. A configuration says which of these parts are wanted.
-/

namespace SegmentRouter

namespace Report

/-- The ports that a client domain holds. -/
structure Usage where
  domain : String
  tcp : Nat
  udp : Nat
  icmp : Nat
deriving DecidableEq, Repr

/-- How many rules there are of each kind. -/
structure Rules where
  ip : Nat
  icmp : Nat
  tcp : Nat
  udp : Nat
  tcpForward : Nat
  udpForward : Nat
  nat : List Usage
deriving DecidableEq, Repr

/-- How many links a domain holds. -/
structure Links where
  tcp : Nat
  udp : Nat
  icmp : Nat
deriving DecidableEq, Repr

/-- The number of links of any protocol. -/
def Links.total (l : Links) : Nat :=
  l.tcp + l.udp + l.icmp

/-- A link. -/
structure LinkEntry where
  id : Nat
  protocol : Wire.Protocol
  client : String
  server : String
  natPort : Option UInt16
  closing : Bool
  idleSec : Nat
deriving DecidableEq, Repr

/-- An address that the router asked for. -/
structure ArpLine where
  ip : Ipv4Addr
  mac : Option Mac
  waiters : Nat
deriving DecidableEq, Repr

/-- A lease. -/
structure LeaseEntry where
  mac : Mac
  ip : Ipv4Addr
  state : LeaseState
deriving DecidableEq, Repr

/-- What a domain remembers. -/
structure Detail where
  links : List LinkEntry
  arp : List ArpLine
  leases : List LeaseEntry
deriving DecidableEq, Repr

/-- The entry of a domain. -/
structure DomainEntry where
  name : String
  ipConfig : Option IpConfig
  interfaces : Nat
  rxBytes : Option Nat
  txBytes : Option Nat
  rules : Option Rules
  dependents : List String
  links : Links
  detail : Option Detail
deriving DecidableEq, Repr

end Report

/-- A report of all domains. -/
structure Report where
  generation : Nat
  /-- Why the last configuration was not taken. -/
  configError : Option String
  domains : List Report.DomainEntry
deriving DecidableEq, Repr

/-! ## Gathering -/

namespace Domain

/-- The ports that client domains hold here. -/
def usage (d : Domain) : List Report.Usage :=
  d.nat.values.map fun rule =>
    { domain := rule.domain, tcp := rule.quotas.tcp.used, udp := rule.quotas.udp.used,
      icmp := rule.quotas.icmp.used }

/-- The numbers of the domain's rules. -/
def ruleCounts (d : Domain) : Report.Rules where
  ip := d.rules.ip.rules.length
  icmp := d.rules.icmp.rules.length
  tcp := d.rules.tcp.rules.length
  udp := d.rules.udp.rules.length
  tcpForward := d.rules.tcpForward.size
  udpForward := d.rules.udpForward.size
  nat := d.usage

/-- The number of the domain's links of a protocol. -/
def linkCount (d : Domain) (p : Wire.Protocol) : Nat :=
  (d.links.owned.values.filter (·.protocol = p)).length

/-- The numbers of the domain's links. -/
def linkCounts (d : Domain) : Report.Links where
  tcp := d.linkCount .tcp
  udp := d.linkCount .udp
  icmp := d.linkCount .icmp

/-- A link as it is reported. -/
def linkEntry (now : Nat) (l : Link) : Report.LinkEntry where
  id := l.id
  protocol := l.protocol
  client := s!"{l.client.domain} {l.client.flow}"
  server := s!"{l.server.domain} {l.server.flow}"
  natPort := l.natPort
  closing := l.closing
  idleSec := (now - l.lastActivity) / 1000

/-- What is known of an address as it is reported. -/
def arpLine : Ipv4Addr × ArpEntry → Report.ArpLine
  | (ip, .resolved mac _ _) => { ip, mac := some mac, waiters := 0 }
  | (ip, .pending _ waiters) => { ip, mac := none, waiters := waiters.length }

/-- What the domain remembers. -/
def detail (d : Domain) (now : Nat) : Report.Detail where
  links := d.links.owned.values.map (linkEntry now)
  arp := d.arp.toList.map arpLine
  leases := match d.dhcpServer with
    | some server => server.leases.toList.map fun (mac, lease) =>
        { mac, ip := lease.ip, state := lease.state }
    | none => []

/-- The domain's entry in a report. -/
def report (d : Domain) (wanted : Config.Report) (now : Nat) : Report.DomainEntry where
  name := d.name
  ipConfig := d.ipConfig
  interfaces := d.interfaces.size
  rxBytes := if wanted.bytes then some d.rxBytes else none
  txBytes := if wanted.bytes then some d.txBytes else none
  rules := if wanted.config then some d.ruleCounts else none
  dependents := if wanted.config then d.dependents.keys else []
  links := d.linkCounts
  detail := if wanted.verbose then some (d.detail now) else none

end Domain

/-! ## Writing -/

namespace Report

/-- An entry that is left out if there is no value. -/
def entry? {α : Type} (key : String) (write : α → Json) : Option α → List (String × Json)
  | some a => [(key, write a)]
  | none => []

/-- An address as a string. -/
def ipJson (ip : Ipv4Addr) : Json := .string ip.text

/-- The ports of a client domain as an object. -/
def Usage.json (u : Usage) : Json :=
  .object [("domain", .string u.domain), ("tcp", .number u.tcp), ("udp", .number u.udp),
    ("icmp", .number u.icmp)]

/-- The numbers of rules as an object. -/
def Rules.json (r : Rules) : Json :=
  .object [("ip", .number r.ip), ("icmp", .number r.icmp), ("tcp", .number r.tcp),
    ("udp", .number r.udp), ("tcp_forward", .number r.tcpForward),
    ("udp_forward", .number r.udpForward), ("nat", .array (r.nat.map Usage.json))]

/-- The numbers of links as an object. -/
def Links.json (l : Links) : Json :=
  .object [("tcp", .number l.tcp), ("udp", .number l.udp), ("icmp", .number l.icmp)]

/-- A link as an object. -/
def LinkEntry.json (l : LinkEntry) : Json :=
  .object ([("id", .number l.id), ("protocol", .string l.protocol.name),
    ("client", .string l.client), ("server", .string l.server)] ++
    entry? "nat_port" (fun p => .number p.toNat) l.natPort ++
    [("closing", .boolean l.closing), ("idle_sec", .number l.idleSec)])

/-- What is known of an address as an object. -/
def ArpLine.json (a : ArpLine) : Json :=
  .object [("ip", ipJson a.ip),
    ("mac", match a.mac with
      | some mac => .string mac.text
      | none => .null),
    ("waiters", .number a.waiters)]

/-- A lease as an object. -/
def LeaseEntry.json (l : LeaseEntry) : Json :=
  .object [("mac", .string l.mac.text), ("ip", ipJson l.ip), ("state", .string l.state.name)]

/-- What a domain remembers as an object. -/
def Detail.json (d : Detail) : Json :=
  .object [("links", .array (d.links.map LinkEntry.json)), ("arp", .array (d.arp.map ArpLine.json)),
    ("leases", .array (d.leases.map LeaseEntry.json))]

/-- The entry of a domain as an object. -/
def DomainEntry.json (d : DomainEntry) : Json :=
  .object ([("name", .string d.name)] ++
    entry? "ipv4" (fun c => .string c.interface.text) d.ipConfig ++
    entry? "gateway" ipJson (d.ipConfig.bind (·.gateway)) ++
    entry? "dns_server" ipJson (d.ipConfig.bind (·.dnsServer)) ++
    [("interfaces", .number d.interfaces)] ++
    entry? "rx_bytes" .number d.rxBytes ++
    entry? "tx_bytes" .number d.txBytes ++
    entry? "rules" Rules.json d.rules ++
    (if d.dependents.isEmpty then [] else [("dependents", .array (d.dependents.map .string))]) ++
    [("links", d.links.json)] ++
    entry? "detail" Detail.json d.detail)

/-- The report, made at a time that is given as text. -/
def json (r : Report) (generatedAt : String) : Json :=
  .object ([("generated_at", .string generatedAt), ("generation", .number r.generation)] ++
    entry? "config_error" .string r.configError ++
    [("domains", .array (r.domains.map DomainEntry.json))])

end Report

end SegmentRouter
