import SegmentRouter.Domain.Tree
import SegmentRouter.Link.Translation

/-!
# Router/Verdict — what becomes of an IPv4 packet

The domain in which a packet arrives decides alone what is done with it. In this order a packet is
for the router's DHCP client or server, is an echo request to the router, runs out of hops, belongs
to a link, is covered by a rule for ports, or is passed by a rule for addresses; else it is refused.
-/

namespace SegmentRouter

open Wire (Bytes)
open Wire.Ipv4 (Packet)

/-- Why a packet is dropped without an answer. -/
inductive DropReason where
  /-- The domain has no addresses. -/
  | unconfigured
  /-- The packet has no hop left. -/
  | ttlExceeded
deriving DecidableEq, Repr

/-- Why the sender of a packet is told that it cannot be delivered. -/
inductive Refusal where
  /-- A rule for ports covers the flow and does not permit it. -/
  | denied (key : FlowKey)
  /-- No rule covers the packet. -/
  | noRule
deriving DecidableEq, Repr

/-- What is done with a packet. Where it is sent on, it has one hop less already. -/
inductive Verdict where
  | drop (reason : DropReason)
  /-- The message goes to the interface's DHCP client. -/
  | toDhcpClient (message : Bytes)
  /-- The message goes to the domain's DHCP server. -/
  | toDhcpServer (message : Bytes)
  /-- The router is asked for an echo. -/
  | echo
  /-- The packet belongs to a link. -/
  | follow (ref : LinkRef) (flow : PacketFlow) (packet : Packet)
  /-- The packet opens a link. -/
  | openLink (target : LinkTarget) (flow : PacketFlow) (packet : Packet)
  /-- The packet passes unchanged into a domain. -/
  | pass (domain : String) (packet : Packet)
  | refuse (reason : Refusal) (packet : Packet)
deriving DecidableEq

namespace Domain

/-- Whether an address means the router in this domain: everyone, the router's address, or everyone
in the subnet. -/
def isLocal (d : Domain) (dst : Ipv4Addr) : Bool :=
  dst == .broadcast || match d.ipConfig with
    | some config => dst == config.interface.addr || dst == config.interface.broadcast
    | none => false

/-- The verdict on a packet that may be for the router's DHCP client or server. -/
def dhcpVerdict? (d : Domain) (p : Packet) : Option Verdict :=
  if p.protocol? = some .udp ∧ ¬ p.isFragment ∧ d.isLocal p.dst then
    match Wire.Udp.parse p.payload with
    | .error _ => none
    | .ok datagram =>
      if datagram.dstPort = Wire.Dhcp.clientPort ∧ d.source = .dhcp then
        some (.toDhcpClient datagram.payload)
      else if datagram.dstPort = Wire.Dhcp.serverPort ∧ d.dhcpServer.isSome ∧ d.ipConfig.isSome then
        some (.toDhcpServer datagram.payload)
      else none
  else none

/-- Whether a packet is an echo request. -/
def isEchoRequest (p : Packet) : Bool :=
  p.protocol? == some .icmp && match Wire.Icmp.parse p.payload with
    | .ok message => message.isEchoRequest
    | .error _ => false

/-- The verdict by the rules for addresses. -/
def addressVerdict (d : Domain) (p : Packet) : Verdict :=
  match d.rules.ip.longestMatch? p.dst with
  | some rule => .pass rule.domain p
  | none => .refuse .noRule p

/-- The verdict by the rules for ports where they have a say, else by those for addresses. -/
def portVerdict (d : Domain) (flow : PacketFlow) (p : Packet) : Verdict :=
  if flow.initiates then
    match d.decision flow.key with
    | .permitted target => .openLink target flow p
    | .denied => .refuse (.denied flow.key) p
    | .noRule => d.addressVerdict p
  else d.addressVerdict p

/-- The verdict on a packet that is sent on. -/
def transitVerdict (d : Domain) (p : Packet) : Verdict :=
  match PacketFlow.ofPacket? p with
  | none => d.addressVerdict p
  | some flow =>
    match d.links.lookup? flow.key with
    | some ref => .follow ref flow p
    | none => d.portVerdict flow p

/-- The verdict on a packet that is not for the router's DHCP client or server. -/
def hostVerdict (d : Domain) (p : Packet) : Verdict :=
  match d.routerIp? with
  | none => .drop .unconfigured
  | some routerIp =>
    if p.dst = routerIp ∧ isEchoRequest p then .echo
    else match p.nextHop? with
      | none => .drop .ttlExceeded
      | some p => d.transitVerdict p

/-- The verdict on a packet that arrived in the domain. -/
def verdict (d : Domain) (p : Packet) : Verdict :=
  (d.dhcpVerdict? p).getD (d.hostVerdict p)

end Domain

end SegmentRouter
