import SegmentRouter.Link.Flow
import SegmentRouter.Wire.Icmp
import SegmentRouter.Wire.Ipv4
import SegmentRouter.Wire.Tcp
import SegmentRouter.Wire.Udp

/-!
# Link/Translation — reading and writing the flow of a packet

`PacketFlow.ofPacket?` reads the addresses and ports of a packet, and `Packet.translate` writes
others in their place, with checksums to match. Fragments have no flow: what follows the header of a
trailing fragment is not a transport header, and a first fragment would go another way than the
rest.
-/

namespace SegmentRouter

open Wire (Bytes Protocol)

/-- What a packet is to the links of the domain in which it arrived. -/
structure PacketFlow where
  key : FlowKey
  /-- The control bits of a TCP segment. -/
  tcpFlags : Option Wire.Tcp.Flags := none
  /-- Whether the packet may open a link. Of ICMP only echo requests may. -/
  initiates : Bool := true
deriving DecidableEq, Repr

namespace PacketFlow

/-- The flow of a payload between two addresses, if its transport header can be read. -/
def ofPayload? (src dst : Ipv4Addr) (payload : Bytes) : Protocol → Option PacketFlow
  | .tcp =>
    match Wire.Tcp.parse payload with
    | .ok h => some {
        key := ⟨.tcp, { srcIp := src, srcPort := h.srcPort, dstIp := dst, dstPort := h.dstPort }⟩
        tcpFlags := some h.flags }
    | .error _ => none
  | .udp =>
    match Wire.Udp.parse payload with
    | .ok d => some {
        key := ⟨.udp, { srcIp := src, srcPort := d.srcPort, dstIp := dst, dstPort := d.dstPort }⟩ }
    | .error _ => none
  | .icmp =>
    match Wire.Icmp.parse payload with
    | .ok m =>
      if m.isEcho then some {
        key := ⟨.icmp,
          { srcIp := src, srcPort := m.identifier, dstIp := dst, dstPort := m.identifier }⟩
        initiates := m.isEchoRequest }
      else none
    | .error _ => none

/-- The flow of a packet, unless it is a fragment or its transport header cannot be read. -/
def ofPacket? (p : Wire.Ipv4.Packet) : Option PacketFlow :=
  if p.isFragment then none else p.protocol?.bind (ofPayload? p.src p.dst p.payload)

end PacketFlow

namespace Wire.Ipv4.Packet

/-- A payload with the ports of a flow, and the checksum that it then needs. An ICMP echo has one
identifier for both ports. -/
def translatePayload (new : Flow) (payload : Bytes) : Protocol → Bytes
  | .tcp => Tcp.refreshChecksum (Tcp.withPorts payload new.srcPort new.dstPort) new.srcIp new.dstIp
  | .udp => Udp.refreshChecksum (Udp.withPorts payload new.srcPort new.dstPort) new.srcIp new.dstIp
  | .icmp => Icmp.refreshChecksum (Icmp.withIdentifier payload new.srcPort)

/-- The packet with the addresses and ports of a flow. -/
def translate (p : Packet) (protocol : Protocol) (new : Flow) : Packet :=
  let addressed := (p.withSrc new.srcIp).withDst new.dstIp
  addressed.writePayload 0 (translatePayload new addressed.payload protocol)

end Wire.Ipv4.Packet

end SegmentRouter
