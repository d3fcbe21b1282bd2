import SegmentRouter.Wire.Ethernet

/-!
# Wire/Arp — address resolution for IPv4 over Ethernet

A request asks which hardware address has an IPv4 address, a reply tells it. Requests are sent to
every station, replies to the one that asked.
-/

namespace SegmentRouter.Wire.Arp

/-- The length of a packet. -/
def packetLength : Nat := 28

/-- What a packet does. -/
inductive Operation where
  | request
  | reply
deriving DecidableEq, Repr

namespace Operation

/-- The number in the operation field. -/
def number : Operation → UInt16
  | request => 1
  | reply => 2

/-- The operation with a number. -/
def ofNumber? (n : UInt16) : Option Operation :=
  if n = 1 then some request else if n = 2 then some reply else none

end Operation

/-- A question for, or an answer with, the hardware address of an IPv4 address. -/
structure Packet where
  operation : Operation
  senderMac : Mac
  senderIp : Ipv4Addr
  targetMac : Mac
  targetIp : Ipv4Addr
deriving DecidableEq, Repr

/-- The packet at the start of a byte string. -/
def parse (b : Bytes) : Except Malformed Packet :=
  if b.length < packetLength then .error .arpTooShort
  else if word16At b 0 ≠ 1 ∨ word16At b 2 ≠ EtherType.ipv4.number then
    .error .arpNotIpv4OverEthernet
  else if byteAt b 4 ≠ 6 ∨ byteAt b 5 ≠ 4 then .error .arpAddressLengths
  else match Operation.ofNumber? (word16At b 6) with
    | none => .error (.arpOperation (word16At b 6))
    | some operation => .ok {
        operation
        senderMac := macAt b 8
        senderIp := ipAt b 14
        targetMac := macAt b 18
        targetIp := ipAt b 24 }

namespace Packet

/-- The bytes of a packet. -/
def build (p : Packet) : Bytes :=
  bytes16 1 ++ bytes16 EtherType.ipv4.number ++ [6, 4] ++ bytes16 p.operation.number ++
    p.senderMac.octets ++ p.senderIp.octets ++ p.targetMac.octets ++ p.targetIp.octets

@[simp] theorem length_build (p : Packet) : p.build.length = packetLength := rfl

/-- The question for the hardware address of `targetIp`. -/
def request (senderMac : Mac) (senderIp targetIp : Ipv4Addr) : Packet :=
  { operation := .request, senderMac, senderIp, targetMac := .zero, targetIp }

/-- The answer that `ip` is at `mac`, to whoever sent the packet. -/
def replyTo (p : Packet) (mac : Mac) (ip : Ipv4Addr) : Packet :=
  { operation := .reply, senderMac := mac, senderIp := ip,
    targetMac := p.senderMac, targetIp := p.senderIp }

/-- The frame that carries a packet. -/
def frame (p : Packet) : Bytes :=
  Ethernet.build {
    dst := match p.operation with
      | .request => .broadcast
      | .reply => p.targetMac
    src := p.senderMac
    etherType := EtherType.arp.number
    payload := p.build }

end Packet

end SegmentRouter.Wire.Arp
