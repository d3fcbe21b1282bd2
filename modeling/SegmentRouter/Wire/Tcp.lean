import SegmentRouter.Malformed
import SegmentRouter.Wire.Checksum
import SegmentRouter.Wire.Protocol

/-!
# Wire/Tcp — TCP segments

The fields that tell a segment's flow and the stage of its connection, and the edits that keep a
segment valid when its flow is renamed.
-/

namespace SegmentRouter.Wire.Tcp

/-- The length of a header without options. -/
def minHeaderLength : Nat := 20

/-- The control bits of a segment. -/
structure Flags where
  bits : UInt8
deriving DecidableEq, Repr

namespace Flags

/-- Whether the sender has no more to send. -/
def fin (f : Flags) : Bool := f.bits.toNat % 2 == 1

/-- Whether the segment opens a connection. -/
def syn (f : Flags) : Bool := f.bits.toNat / 2 % 2 == 1

/-- Whether the segment breaks its connection off. -/
def rst (f : Flags) : Bool := f.bits.toNat / 4 % 2 == 1

/-- Whether the acknowledgement number counts. -/
def ack (f : Flags) : Bool := f.bits.toNat / 16 % 2 == 1

end Flags

/-- The control bit of an acknowledgement. -/
def ackBit : UInt8 := 0x10

/-- What the router reads of a segment. -/
structure Header where
  srcPort : UInt16
  dstPort : UInt16
  flags : Flags
deriving DecidableEq, Repr

/-- The header of a segment that is long enough for it and its options. -/
def parse (b : Bytes) : Except Malformed Header :=
  let headerLength := (byteAt b 12).toNat / 16 * 4
  if b.length < minHeaderLength then .error .tcpTooShort
  else if headerLength < minHeaderLength ∨ b.length < headerLength then .error .tcpDataOffset
  else .ok { srcPort := word16At b 0, dstPort := word16At b 2, flags := ⟨byteAt b 13⟩ }

/-- The segment with other ports; its checksum is then out of date. -/
def withPorts (b : Bytes) (srcPort dstPort : UInt16) : Bytes :=
  overwrite (overwrite b 0 (bytes16 srcPort)) 2 (bytes16 dstPort)

/-- The segment with the checksum it needs between two addresses. -/
def refreshChecksum (b : Bytes) (src dst : Ipv4Addr) : Bytes :=
  let cleared := overwrite b 16 [0, 0]
  overwrite cleared 16 (bytes16 (segmentChecksum src dst Protocol.tcp.number cleared))

@[simp] theorem length_withPorts (b : Bytes) (s d : UInt16) : (withPorts b s d).length = b.length := by
  simp [withPorts]

@[simp] theorem length_refreshChecksum (b : Bytes) (s d : Ipv4Addr) :
    (refreshChecksum b s d).length = b.length := by
  simp [refreshChecksum]

/-- Whether the segment's checksum is right between two addresses. -/
def checksumValid (b : Bytes) (src dst : Ipv4Addr) : Bool :=
  segmentChecksum src dst Protocol.tcp.number b == 0

/-- The header fields of a segment without options. -/
structure Draft where
  srcPort : UInt16
  dstPort : UInt16
  seq : UInt32 := 0
  ack : UInt32 := 0
  flags : UInt8 := 0

/-- The number of bytes that the sender of a draft is ready to receive. -/
def window : UInt16 := 64240

/-- The bytes of a segment between two addresses. -/
def Draft.build (d : Draft) (src dst : Ipv4Addr) (payload : Bytes) : Bytes :=
  refreshChecksum (bytes16 d.srcPort ++ bytes16 d.dstPort ++ bytes32 d.seq ++ bytes32 d.ack ++
    [0x50, d.flags] ++ bytes16 window ++ [0, 0, 0, 0] ++ payload) src dst

end SegmentRouter.Wire.Tcp
