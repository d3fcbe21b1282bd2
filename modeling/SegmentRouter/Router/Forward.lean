import SegmentRouter.Link.Opening
import SegmentRouter.Link.Registry
import SegmentRouter.Router.NextHop
import SegmentRouter.Router.Verdict

/-!
# Router/Forward — packets that are sent on, refused or echoed

A packet of a link leaves with the addresses and ports of the link's other end, a packet that a rule
for addresses passes leaves as it is. Nothing but the ARP cache of the domain that is its
destination changes before the next hop is known: no port is taken, no link opened, and no link's
time renewed.
-/

namespace SegmentRouter

open Wire.Ipv4 (Packet)

namespace LinkTable

/-- The table with a link that starts here changed. -/
def change (table : LinkTable) (id : Nat) (f : Link → Link) : LinkTable :=
  { table with owned := table.owned.modify id f }

end LinkTable

namespace Domain

/-- The domain with a link of its own changed. -/
def changeLink (id : Nat) (f : Link → Link) (d : Domain) : Domain :=
  { d with links := d.links.change id f }

end Domain

namespace Router

/-! ## Sending on -/

/-- Sends a packet on that a rule for addresses passes into a domain. -/
def pass (r : Router) (frame : Waiter) (domain : String) (packet : Packet) : Logged Reaction := do
  let (hop, reaction) ← r.resolve domain packet.dst frame
  match hop with
  | none => return reaction
  | some hop => r.forward domain hop packet

/-- Sends a packet on that belongs to a link. -/
def follow (r : Router) (frame : Waiter) (ref : LinkRef) (flow : PacketFlow) (packet : Packet) :
    Logged Reaction :=
  match r.tree.ownedLink? ref.owner ref.link with
  | none => return r.sending []
  | some link => do
    let out := link.egress ref.side
    let (hop, reaction) ← r.resolve out.domain out.rewrite.dstIp frame
    match hop with
    | none => return reaction
    | some hop =>
      let followed := r.tree.update ref.owner
        (Domain.changeLink ref.link (·.followed ref.side flow frame.queued))
      (r.withTree followed).forward out.domain hop (packet.translate flow.key.protocol out.rewrite)

/-! ## Opening links -/

/-- Enters a new link and sends its first packet on. If another link has one of the flows, the port
is given back and the packet dropped. -/
def enter (r : Router) (link : Link) (hop : NextHop) (packet : Packet) : Logged Reaction := do
  let client := link.client.domain
  let server := link.server.domain
  match r.tree.insertLink? link with
  | some tree =>
    let entered := { r with tree, nextLink := r.nextLink + 1 }
    let out := link.egress .client
    entered.logPacket client
      s!"{client}: new {link.protocol} link #{link.id} {link.client.flow} -> {server} {out.rewrite}"
    entered.forward server hop (packet.translate link.protocol out.rewrite)
  | none =>
    logDebug s!"{client}: {link.protocol} link {link.client.flow} collides, dropped"
    match link.natPort with
    | some port => return (r.withTree (r.tree.update server
        (·.freePort client link.protocol port))).sending []
    | none => return r.sending []

/-- Opens a link into a domain with the given router address once its next hop is known. -/
def openTowards (r : Router) (frame : Waiter) (client : String) (target : LinkTarget)
    (server : Domain) (routerIp : Ipv4Addr) (flow : PacketFlow) (packet : Packet) :
    Logged Reaction := do
  let (hop, reaction) ← r.resolve target.domain target.ip frame
  match hop with
  | none => return reaction
  | some hop =>
    match server.linkSource routerIp client flow.key with
    | .error e =>
      let protocol := flow.key.protocol
      logWarn s!"{client}: {protocol} NAT towards {target.domain} failed: {e.message}"
      return r.sending []
    | .ok (source, taken) =>
      (r.withTree (r.tree.update target.domain fun _ => taken)).enter
        (.opened r.nextLink client flow target source frame.src frame.queued) hop packet

/-- Opens a link from a domain and sends its first packet on. -/
def openLink (r : Router) (frame : Waiter) (client : String) (target : LinkTarget)
    (flow : PacketFlow) (packet : Packet) : Logged Reaction :=
  match r.tree.byName? target.domain with
  | none => do
    logDebug s!"{client}: rule names unknown domain {target.domain}"
    return r.sending []
  | some server =>
    match server.routerIp? with
    | none => do
      logDebug s!"{client}: dropped, {target.domain} unconfigured"
      return r.sending []
    | some routerIp => r.openTowards frame client target server routerIp flow packet

/-! ## Answers of the router -/

/-- The header fields of an ICMP message from the router. -/
def icmpDraft (src dst : Ipv4Addr) : Wire.Ipv4.Draft :=
  { src, dst, protocolNumber := Wire.Protocol.icmp.number }

/-- Answers an echo request. -/
def echo (r : Router) (interface : InterfaceId) (srcMac : Mac) (request : Packet) :
    Logged Reaction :=
  match Wire.Icmp.echoReply request.payload with
  | .ok message => return r.reply interface srcMac ((icmpDraft request.dst request.src).build message)
  | .error e => do
    logDebug s!"{interface}: {e.message}"
    return r.sending []

/-- Whether the sender of a packet may be told that it was refused. ICMP messages other than echo
requests may be such answers themselves. -/
def mayAnswer (packet : Packet) : Bool :=
  packet.protocol? != some .icmp || Domain.isEchoRequest packet

/-- Tells the sender of a packet, unless the configuration forbids it, that its destination cannot be
reached. -/
def answerUnreachable (r : Router) (interface : InterfaceId) (srcMac : Mac) (routerIp : Ipv4Addr)
    (packet : Packet) : Reaction :=
  if r.config.icmpUnreachable ∧ mayAnswer packet then
    let message := Wire.Icmp.unreachable Wire.Icmp.networkUnreachable packet.bytes
      packet.headerLength
    r.reply interface srcMac ((icmpDraft routerIp packet.src).build message)
  else r.sending []

/-- Refuses a packet that arrived in a domain. -/
def refuse (r : Router) (interface : InterfaceId) (srcMac : Mac) (d : Domain) (reason : Refusal)
    (packet : Packet) : Logged Reaction := do
  match reason with
  | .denied key => r.logPacket d.name s!"{d.name}: {key.protocol} {key.flow} denied"
  | .noRule => r.logPacket d.name s!"{d.name}: no rule for {packet.dst}"
  match d.routerIp? with
  | some routerIp => return r.answerUnreachable interface srcMac routerIp packet
  | none => return r.sending []

end Router

end SegmentRouter
