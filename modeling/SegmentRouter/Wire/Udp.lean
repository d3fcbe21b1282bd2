import SegmentRouter.Malformed
import SegmentRouter.Wire.Checksum
import SegmentRouter.Wire.Protocol

/-!
# Wire/Udp — UDP datagrams

A checksum of zero says that none was computed, and stays; a computed checksum of zero is written
with all bits set instead.
-/

namespace SegmentRouter.Wire.Udp

/-- The number of bytes in front of the payload. -/
def headerLength : Nat := 8

/-- What the router reads of a datagram. -/
structure Datagram where
  srcPort : UInt16
  dstPort : UInt16
  payload : Bytes
deriving DecidableEq, Repr

/-- The datagram at the start of a byte string; what follows its length is not part of it. -/
def parse (b : Bytes) : Except Malformed Datagram :=
  let length := (word16At b 4).toNat
  if b.length < headerLength then .error .udpTooShort
  else if length < headerLength ∨ b.length < length then .error .udpLength
  else .ok {
    srcPort := word16At b 0
    dstPort := word16At b 2
    payload := (b.take length).drop headerLength }

/-- The datagram with other ports; its checksum is then out of date. -/
def withPorts (b : Bytes) (srcPort dstPort : UInt16) : Bytes :=
  overwrite (overwrite b 0 (bytes16 srcPort)) 2 (bytes16 dstPort)

/-- Whether the datagram has no checksum. -/
def lacksChecksum (b : Bytes) : Bool :=
  word16At b 6 == 0

/-- The checksum as it is written: zero becomes all ones. -/
def writtenChecksum (sum : UInt16) : UInt16 :=
  if sum = 0 then 0xffff else sum

/-- The datagram with the checksum it needs between two addresses, unless it has none. -/
def refreshChecksum (b : Bytes) (src dst : Ipv4Addr) : Bytes :=
  if lacksChecksum b then b
  else
    let cleared := overwrite b 6 [0, 0]
    overwrite cleared 6
      (bytes16 (writtenChecksum (segmentChecksum src dst Protocol.udp.number cleared)))

@[simp] theorem length_withPorts (b : Bytes) (s d : UInt16) : (withPorts b s d).length = b.length := by
  simp [withPorts]

@[simp] theorem length_refreshChecksum (b : Bytes) (s d : Ipv4Addr) :
    (refreshChecksum b s d).length = b.length := by
  unfold refreshChecksum
  split <;> simp

/-- Whether the datagram's checksum is right between two addresses, or absent. -/
def checksumValid (b : Bytes) (src dst : Ipv4Addr) : Bool :=
  lacksChecksum b || segmentChecksum src dst Protocol.udp.number b == 0

/-- The bytes of a datagram between two addresses; its length is taken modulo 2¹⁶. -/
def build (src dst : Ipv4Addr) (d : Datagram) : Bytes :=
  refreshChecksum (bytes16 d.srcPort ++ bytes16 d.dstPort ++
    bytes16 (UInt16.ofNat (headerLength + d.payload.length)) ++ [0xff, 0xff] ++ d.payload) src dst

end SegmentRouter.Wire.Udp
