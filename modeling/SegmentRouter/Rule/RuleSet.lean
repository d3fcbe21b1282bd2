import SegmentRouter.Config.Basic
import SegmentRouter.Link.Flow
import SegmentRouter.Rule.Masquerade

/-!
# Rule/RuleSet — the rules of one domain

What may leave a domain and where it goes. A flow is decided at the level of ports
(`RuleSet.decision`): a port of the router's own address by the forward rules, a port of another
address by the transport rule for that address, an ICMP echo by the ICMP rules. Only where these
have nothing to say do the rules for unchanged packets count.
-/

namespace SegmentRouter

open Wire (Protocol)

/-- The server's end of a new link. -/
structure LinkTarget where
  domain : String
  ip : Ipv4Addr
  port : UInt16
deriving DecidableEq, Repr

/-- What the rules for ports say of a flow. -/
inductive LinkDecision where
  /-- No rule covers the flow. -/
  | noRule
  /-- A rule covers the flow and does not let it pass. -/
  | denied
  | permitted (target : LinkTarget)
deriving DecidableEq, Repr

/-- The rules of a domain. -/
structure RuleSet where
  ip : Rule.PrefixTable Rule.Ip
  icmp : Rule.PrefixTable Rule.Ip
  tcp : Rule.PrefixTable Rule.Transport
  udp : Rule.PrefixTable Rule.Transport
  tcpForward : Rule.Forwards
  udpForward : Rule.Forwards
deriving DecidableEq

namespace RuleSet

/-- A transport rule as configured, without the permits whose ports are none. -/
def transportRule (config : Config.Transport) : Rule.Transport where
  dst := config.dst
  permitAny := config.permitAny
  permits := config.permit.filterMap fun permit =>
    match Port.Range.ofText permit.ports with
    | .ok ports => some { ports, domain := permit.domain }
    | .error _ => none

/-- The rules that a domain is configured with. -/
def ofConfig (config : Config.Domain) : RuleSet where
  ip := .ofList Rule.Ip.dst config.ip
  icmp := .ofList Rule.Ip.dst config.icmp
  tcp := .ofList Rule.Transport.dst (config.tcp.map transportRule)
  udp := .ofList Rule.Transport.dst (config.udp.map transportRule)
  tcpForward := .ofList config.tcpForward
  udpForward := .ofList config.udpForward

/-- The transport rules of a protocol that has ports. -/
def transport? (rules : RuleSet) : Protocol → Option (Rule.PrefixTable Rule.Transport)
  | .tcp => some rules.tcp
  | .udp => some rules.udp
  | .icmp => none

/-- The forward rules of a protocol that has ports. -/
def forwards? (rules : RuleSet) : Protocol → Option Rule.Forwards
  | .tcp => some rules.tcpForward
  | .udp => some rules.udpForward
  | .icmp => none

/-- What the forward rules say of a port of the router. -/
def decideForward (forwards : Rule.Forwards) (port : UInt16) : LinkDecision :=
  match forwards.get? port with
  | some rule => .permitted { domain := rule.domain, ip := rule.host, port := rule.targetPort }
  | none => .denied

/-- What the transport rules say of an address and port. -/
def decideTransport (table : Rule.PrefixTable Rule.Transport) (ip : Ipv4Addr) (port : UInt16) :
    LinkDecision :=
  match table.longestMatch? ip with
  | none => .noRule
  | some rule =>
    match rule.permittedDomain? port with
    | some domain => .permitted { domain, ip, port }
    | none => .denied

/-- What the ICMP rules say of an address. -/
def decideIcmp (table : Rule.PrefixTable Rule.Ip) (ip : Ipv4Addr) (id : UInt16) : LinkDecision :=
  match table.longestMatch? ip with
  | some rule => .permitted { domain := rule.domain, ip, port := id }
  | none => .noRule

/-- What the rules say of a flow that arrives in a domain with the given router address. -/
def decision (rules : RuleSet) (routerIp : Ipv4Addr) (key : FlowKey) : LinkDecision :=
  let flow := key.flow
  match rules.forwards? key.protocol, rules.transport? key.protocol with
  | some forwards, some transport =>
    if flow.dstIp = routerIp then decideForward forwards flow.dstPort
    else decideTransport transport flow.dstIp flow.dstPort
  | _, _ => decideIcmp rules.icmp flow.dstIp flow.dstPort

end RuleSet

/-- The shares that a configuration entry grants. -/
def Rule.Masquerade.ofConfig (config : Config.Masquerade) : Rule.Masquerade where
  domain := config.domain
  quotas := {
    icmp := { max := config.icmpIds }
    tcp := { max := config.tcpPorts }
    udp := { max := config.udpPorts } }

end SegmentRouter
