import SegmentRouter.Domain.Basic
import SegmentRouter.Link.Translation

/-!
# Link/Opening — new links

A link that a packet opens has the packet's flow on its client's side. What the server sees as the
source is that of the packet, or the router's address in the server's domain with a port from the
client domain's share there, if the server's domain translates for it.
-/

namespace SegmentRouter

open Wire (Protocol)

/-- The source that packets of a link have in the server's domain. -/
structure LinkSource where
  ip : Ipv4Addr
  port : UInt16
  /-- The port that was taken from the share of the client's domain. -/
  natPort : Option UInt16 := none
deriving DecidableEq, Repr

/-- The source of a new link in the server's domain, and that domain with the port taken. -/
def Domain.linkSource (server : Domain) (routerIp : Ipv4Addr) (client : String) (key : FlowKey) :
    Except Error (LinkSource × Domain) :=
  if server.translatesFor client then
    match server.allocPort client key.protocol with
    | .ok (port, taken) => .ok ({ ip := routerIp, port, natPort := some port }, taken)
    | .error e => .error e
  else .ok ({ ip := key.flow.srcIp, port := key.flow.srcPort }, server)

namespace LinkTarget

/-- The flow of the answers to a link's packets. The answer to an ICMP echo has the identifier of
the request for both ports. -/
def answerFlow (target : LinkTarget) (protocol : Protocol) (source : LinkSource) : Flow where
  srcIp := target.ip
  srcPort := match protocol with
    | .icmp => source.port
    | .tcp | .udp => target.port
  dstIp := source.ip
  dstPort := source.port

end LinkTarget

namespace Link

/-- The link after its first packet, which came from the client. -/
def observeFirst (link : Link) (tcpFlags : Option Wire.Tcp.Flags) : Link :=
  match tcpFlags with
  | some flags => link.observeTcp .client flags
  | none => link

/-- The link that a packet from `client` opens. -/
def opened (id : Nat) (client : String) (flow : PacketFlow) (target : LinkTarget)
    (source : LinkSource) (origin : InterfaceId) (now : Nat) : Link :=
  let link : Link := {
    id
    protocol := flow.key.protocol
    client := { domain := client, flow := flow.key.flow }
    server := { domain := target.domain, flow := target.answerFlow flow.key.protocol source }
    natPort := source.natPort
    origin
    created := now
    lastActivity := now }
  link.observeFirst flow.tcpFlags

/-- The link after a packet of its flow from a side was sent on. -/
def followed (link : Link) (side : Side) (flow : PacketFlow) (now : Nat) : Link :=
  match flow.tcpFlags with
  | some flags => (link.touch now).observeTcp side flags
  | none => link.touch now

end Link

end SegmentRouter
