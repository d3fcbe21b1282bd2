import SegmentRouter.Config.Basic
import SegmentRouter.Config.Value
import SegmentRouter.Error
import SegmentRouter.Toml.Document

/-!
# Config/Decode — configurations as values

Each part of a configuration is a table. A table may only have the keys of its part, and a key
without a default must be there. A part can also be written as a list of its values in the order of
the keys.
-/

namespace SegmentRouter.Config

namespace Decode

/-! ## Single values -/

/-- A string. -/
def string? : Value → Option String
  | .string s => some s
  | _ => none

/-- A truth value. -/
def bool? : Value → Option Bool
  | .boolean b => some b
  | _ => none

/-- A number from zero to a bound. -/
def number? (max : Nat) : Value → Option Nat
  | .integer n => if 0 ≤ n ∧ n ≤ max then some n.toNat else none
  | _ => none

/-- A number of 64 bits. -/
def count? : Value → Option Nat := number? (UInt64.size - 1)

/-- A port. -/
def port? (v : Value) : Option UInt16 :=
  (number? 65535 v).map UInt16.ofNat

/-- An address in dotted decimal. -/
def ip? (v : Value) : Option Ipv4Addr :=
  (string? v).bind Ipv4Addr.ofText?

/-- An address with a prefix length. -/
def cidr? (v : Value) : Option Cidr :=
  (string? v).bind fun s => (Cidr.ofText s).toOption

/-- A hardware address. -/
def mac? (v : Value) : Option Mac :=
  (string? v).bind Mac.ofText?

/-- A list of values. -/
def list? {α : Type} (element? : Value → Option α) : Value → Option (List α)
  | .list _ elements => elements.mapM element?
  | _ => none

/-! ## Tables -/

/-- The values of a part's keys, in their order. In TOML a list may have more values than the part
has keys. -/
def fields? (keys : List String) : Value → Option (List (Option Value))
  | .table _ entries =>
    if entries.all fun e => keys.contains e.1 then some (keys.map fun key => entries.lookup key)
    else none
  | .list language elements =>
    if language = .toml ∨ elements.length ≤ keys.length then
      some (keys.mapIdx fun i _ => elements[i]?)
    else none
  | _ => none

/-- A value that has to be there. -/
def required {α : Type} (read? : Value → Option α) (v : Option Value) : Option α :=
  v.bind read?

/-- A value, or what stands for a missing one. -/
def orElse {α : Type} (default : α) (read? : Value → Option α) : Option Value → Option α
  | some v => read? v
  | none => some default

/-- A value that may be missing, or `null` in its place. -/
def optional {α : Type} (read? : Value → Option α) : Option Value → Option (Option α)
  | none | some .null => some none
  | some v => (read? v).map some

end Decode

open Decode

/-- The form of log lines: its name, or a table with its name as the only key and nothing there. -/
def LogFormat.ofValue? (v : Value) : Option LogFormat :=
  let named? (name : String) : Option LogFormat :=
    [LogFormat.pretty, .compact, .json].find? (·.name == name)
  match v with
  | .string name => named? name
  | .table language [(name, v)] => if v.isNothing language then named? name else none
  | _ => none

/-- The part about logging. -/
def Log.ofValue? (v : Value) : Option Log := do
  let default : Log := {}
  match ← fields? ["level", "format"] v with
  | [level, format] =>
    return {
      level := ← orElse default.level string? level
      format := ← orElse default.format LogFormat.ofValue? format }
  | _ => none

/-- The part about reports. -/
def Report.ofValue? (v : Value) : Option Report := do
  let default : Report := {}
  match ← fields? ["interval_sec", "bytes", "config", "verbose", "path", "config_triggers"] v with
  | [interval, bytes, config, verbose, path, triggers] =>
    return {
      intervalSec := ← orElse default.intervalSec count? interval
      bytes := ← orElse default.bytes bool? bytes
      config := ← orElse default.config bool? config
      verbose := ← orElse default.verbose bool? verbose
      path := ← optional string? path
      configTriggers := ← orElse default.configTriggers bool? triggers }
  | _ => none

/-- The part about timeouts. -/
def Timeouts.ofValue? (v : Value) : Option Timeouts := do
  let default : Timeouts := {}
  match ← fields? ["tcp_idle_sec", "tcp_closing_sec", "udp_idle_sec", "icmp_idle_sec",
      "arp_request_sec", "arp_entry_sec", "dhcp_offer_sec"] v with
  | [tcpIdle, tcpClosing, udpIdle, icmpIdle, arpRequest, arpEntry, dhcpOffer] =>
    return {
      tcpIdleSec := ← orElse default.tcpIdleSec count? tcpIdle
      tcpClosingSec := ← orElse default.tcpClosingSec count? tcpClosing
      udpIdleSec := ← orElse default.udpIdleSec count? udpIdle
      icmpIdleSec := ← orElse default.icmpIdleSec count? icmpIdle
      arpRequestSec := ← orElse default.arpRequestSec count? arpRequest
      arpEntrySec := ← orElse default.arpEntrySec count? arpEntry
      dhcpOfferSec := ← orElse default.dhcpOfferSec count? dhcpOffer }
  | _ => none

/-- A DHCP pool. -/
def DhcpPool.ofValue? (v : Value) : Option DhcpPool := do
  match ← fields? ["ip_first", "ip_last", "ip_lease_time_sec", "dns_server", "dns_server_from"] v with
  | [first, last, leaseTime, dnsServer, dnsServerFrom] =>
    return {
      first := ← required ip? first
      last := ← required ip? last
      leaseTimeSec := UInt32.ofNat (← orElse 3600 (number? (UInt32.size - 1)) leaseTime)
      dnsServer := ← optional ip? dnsServer
      dnsServerFrom := ← optional string? dnsServerFrom }
  | _ => none

/-- An entry for address translation. -/
def Masquerade.ofValue? (v : Value) : Option Masquerade := do
  match ← fields? ["domain", "tcp_ports", "udp_ports", "icmp_ids"] v with
  | [domain, tcp, udp, icmp] =>
    return {
      domain := ← required string? domain
      tcpPorts := ← orElse 0 count? tcp
      udpPorts := ← orElse 0 count? udp
      icmpIds := ← orElse 0 count? icmp }
  | _ => none

/-- A rule for unchanged packets. -/
def ipRule? (v : Value) : Option Rule.Ip := do
  match ← fields? ["dst", "domain"] v with
  | [dst, domain] => return { dst := ← required cidr? dst, domain := ← required string? domain }
  | _ => none

/-- A permit for ports. -/
def Permit.ofValue? (v : Value) : Option Permit := do
  match ← fields? ["ports", "domain"] v with
  | [ports, domain] =>
    return { ports := ← required string? ports, domain := ← required string? domain }
  | _ => none

/-- A rule for TCP or UDP. -/
def Transport.ofValue? (v : Value) : Option Transport := do
  match ← fields? ["dst", "permit_any", "permit"] v with
  | [dst, permitAny, permit] =>
    return {
      dst := ← required cidr? dst
      permitAny := ← optional string? permitAny
      permit := ← orElse [] (list? Permit.ofValue?) permit }
  | _ => none

/-- A rule that passes a port on. -/
def forwardRule? (v : Value) : Option Rule.Forward := do
  match ← fields? ["port", "domain", "to", "to_port"] v with
  | [port, domain, host, hostPort] =>
    return {
      port := ← required port? port
      domain := ← required string? domain
      host := ← required ip? host
      hostPort := ← optional port? hostPort }
  | _ => none

/-- A domain. -/
def Domain.ofValue? (v : Value) : Option Domain := do
  match ← fields? ["name", "interface", "gateway", "dns_server", "ip_config_from", "dhcp_server",
      "nat", "ip", "icmp", "tcp", "udp", "tcp_forward", "udp_forward", "verbose_packets"] v with
  | [name, interface, gateway, dnsServer, ipConfigFrom, dhcpServer, nat, ip, icmp, tcp, udp,
      tcpForward, udpForward, verbosePackets] =>
    return {
      name := ← required string? name
      interface := ← optional cidr? interface
      gateway := ← optional ip? gateway
      dnsServer := ← optional ip? dnsServer
      ipConfigFrom := ← optional string? ipConfigFrom
      dhcpServer := ← optional DhcpPool.ofValue? dhcpServer
      nat := ← orElse [] (list? Masquerade.ofValue?) nat
      ip := ← orElse [] (list? ipRule?) ip
      icmp := ← orElse [] (list? ipRule?) icmp
      tcp := ← orElse [] (list? Transport.ofValue?) tcp
      udp := ← orElse [] (list? Transport.ofValue?) udp
      tcpForward := ← orElse [] (list? forwardRule?) tcpForward
      udpForward := ← orElse [] (list? forwardRule?) udpForward
      verbosePackets := ← orElse false bool? verbosePackets }
  | _ => none

/-- A device of a domain. -/
def Attachment.ofValue? (v : Value) : Option Attachment := do
  match ← fields? ["device", "domain"] v with
  | [device, domain] =>
    return { device := ← required string? device, domain := ← required string? domain }
  | _ => none

/-- The configuration that a value describes. -/
def ofValue? (v : Value) : Option Config := do
  match ← fields? ["mac", "verbose_domain_state", "icmp_unreachable", "log", "report", "timeouts",
      "domain", "attach"] v with
  | [mac, verbose, unreachable, log, report, timeouts, domains, attachments] =>
    return {
      mac := ← orElse defaultMac mac? mac
      verboseDomainState := ← orElse false bool? verbose
      icmpUnreachable := ← orElse true bool? unreachable
      log := ← optional Log.ofValue? log
      report := ← orElse {} Report.ofValue? report
      timeouts := ← orElse {} Timeouts.ofValue? timeouts
      domains := ← orElse [] (list? Domain.ofValue?) domains
      attachments := ← orElse [] (list? Attachment.ofValue?) attachments }
  | _ => none

/-- The configuration that a value describes, or that there is none. -/
def ofValue (v : Value) : Except Error Config :=
  match ofValue? v with
  | some config => .ok config
  | none => .error (.config .unreadable)

/-- The configuration that a text describes. -/
def ofText (text : String) : Except Error Config :=
  match Toml.read? text with
  | some v => ofValue (.ofToml v)
  | none => .error (.config .unreadable)

end SegmentRouter.Config
