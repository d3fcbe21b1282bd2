import SegmentRouter.Malformed
import SegmentRouter.Wire.Checksum
import SegmentRouter.Wire.Protocol

/-!
# Wire/Ipv4 — IPv4 packets

A packet is a byte string whose own length fields are right: it starts with version 4, its header
has at least 20 bytes, and its total length is the number of its bytes. `parse` trims link-layer
padding to make it so, and no edit of a packet touches the first four bytes, so the length fields
stay right.
-/

namespace SegmentRouter.Wire.Ipv4

/-- The length of a header without options. -/
def minHeaderLength : Nat := 20

/-- The time to live of packets that the router itself sends. -/
def defaultTtl : UInt8 := 64

/-- The header length that a byte string's first byte states. -/
def headerLengthOf (b : Bytes) : Nat :=
  (byteAt b 0).toNat % 16 * 4

/-- The total length that a byte string's length field states. -/
def totalLengthOf (b : Bytes) : Nat :=
  (word16At b 2).toNat

theorem headerLengthOf_take {b : Bytes} {n : Nat} (h : 4 ≤ n) :
    headerLengthOf (b.take n) = headerLengthOf b := by
  rw [headerLengthOf, byteAt_take (by omega), headerLengthOf]

theorem totalLengthOf_take {b : Bytes} {n : Nat} (h : 4 ≤ n) :
    totalLengthOf (b.take n) = totalLengthOf b := by
  rw [totalLengthOf, word16At, byteAt_take (by omega), byteAt_take (by omega), totalLengthOf,
    word16At]

/-- A packet with consistent length fields. -/
structure Packet where
  bytes : Bytes
  version_eq : (byteAt bytes 0).toNat / 16 = 4
  minHeaderLength_le : minHeaderLength ≤ headerLengthOf bytes
  headerLength_le : headerLengthOf bytes ≤ bytes.length
  totalLength_eq : totalLengthOf bytes = bytes.length
deriving DecidableEq

/-- The packet at the start of a byte string; what follows its total length is dropped. -/
def parse (b : Bytes) : Except Malformed Packet :=
  if b.length < minHeaderLength then .error .ipv4TooShort
  else if hv : (byteAt b 0).toNat / 16 = 4 then
    if h : minHeaderLength ≤ headerLengthOf b ∧ headerLengthOf b ≤ totalLengthOf b ∧
        totalLengthOf b ≤ b.length then
      have hlen : (b.take (totalLengthOf b)).length = totalLengthOf b := by
        rw [List.length_take]
        omega
      have hmin : 4 ≤ totalLengthOf b := by
        simp only [minHeaderLength] at h
        omega
      .ok {
        bytes := b.take (totalLengthOf b)
        version_eq := by rw [byteAt_take (by omega)]; exact hv
        minHeaderLength_le := by rw [headerLengthOf_take hmin]; exact h.1
        headerLength_le := by rw [headerLengthOf_take hmin, hlen]; exact h.2.1
        totalLength_eq := by rw [totalLengthOf_take hmin, hlen] }
    else .error .ipv4Lengths
  else .error .notIpv4

namespace Packet

/-! ## Fields -/

/-- The length of the header with its options. -/
def headerLength (p : Packet) : Nat :=
  headerLengthOf p.bytes

theorem headerLength_ge (p : Packet) : 20 ≤ p.headerLength :=
  p.minHeaderLength_le

/-- The bytes of the header with its options. -/
def header (p : Packet) : Bytes :=
  p.bytes.take p.headerLength

/-- The bytes after the header. -/
def payload (p : Packet) : Bytes :=
  p.bytes.drop p.headerLength

/-- The source address. -/
def src (p : Packet) : Ipv4Addr :=
  ipAt p.bytes 12

/-- The destination address. -/
def dst (p : Packet) : Ipv4Addr :=
  ipAt p.bytes 16

/-- The number of further hops the packet may take, and one more. -/
def ttl (p : Packet) : UInt8 :=
  byteAt p.bytes 8

/-- The number of the protocol of the payload. -/
def protocolNumber (p : Packet) : UInt8 :=
  byteAt p.bytes 9

/-- The protocol of the payload, if its flows are followed. -/
def protocol? (p : Packet) : Option Protocol :=
  Protocol.ofNumber? p.protocolNumber

/-- The place of the payload in the fragmented packet's, in units of eight bytes. -/
def fragmentOffset (p : Packet) : Nat :=
  (byteAt p.bytes 6).toNat % 32 * 256 + (byteAt p.bytes 7).toNat

/-- Whether more fragments follow. -/
def moreFragments (p : Packet) : Bool :=
  (byteAt p.bytes 6).toNat / 32 % 2 == 1

/-- Whether the packet is a fragment other than the first. -/
def isTrailingFragment (p : Packet) : Bool :=
  p.fragmentOffset != 0

/-- Whether the packet is a fragment. -/
def isFragment (p : Packet) : Bool :=
  p.moreFragments || p.isTrailingFragment

/-- Whether the header's checksum is right. -/
def headerChecksumValid (p : Packet) : Bool :=
  checksum p.header == 0

/-! ## Edits -/

/-- The packet with the bytes from an offset past the length fields replaced. -/
def edit (p : Packet) (offset : Nat) (v : Bytes) (h : 4 ≤ offset) : Packet :=
  have h0 : byteAt (overwrite p.bytes offset v) 0 = byteAt p.bytes 0 :=
    byteAt_overwrite_of_lt (by omega)
  have h2 : byteAt (overwrite p.bytes offset v) 2 = byteAt p.bytes 2 :=
    byteAt_overwrite_of_lt (by omega)
  have h3 : byteAt (overwrite p.bytes offset v) 3 = byteAt p.bytes 3 :=
    byteAt_overwrite_of_lt (by omega)
  { bytes := overwrite p.bytes offset v
    version_eq := h0 ▸ p.version_eq
    minHeaderLength_le := by rw [headerLengthOf, h0]; exact p.minHeaderLength_le
    headerLength_le := by
      rw [headerLengthOf, h0, length_overwrite]
      exact p.headerLength_le
    totalLength_eq := by
      rw [length_overwrite, totalLengthOf, word16At, h2, h3]
      exact p.totalLength_eq }

@[simp] theorem bytes_edit (p : Packet) (offset : Nat) (v : Bytes) (h : 4 ≤ offset) :
    (p.edit offset v h).bytes = overwrite p.bytes offset v := rfl

@[simp] theorem headerLength_edit (p : Packet) (offset : Nat) (v : Bytes) (h : 4 ≤ offset) :
    (p.edit offset v h).headerLength = p.headerLength := by
  rw [headerLength, headerLengthOf, bytes_edit, byteAt_overwrite_of_lt (by omega)]
  rfl

/-- The packet with the header checksum that its header needs. -/
def refreshChecksum (p : Packet) : Packet :=
  let cleared := p.edit 10 [0, 0] (by decide)
  cleared.edit 10 (bytes16 (checksum cleared.header)) (by decide)

/-- The packet from another source. -/
def withSrc (p : Packet) (ip : Ipv4Addr) : Packet :=
  (p.edit 12 ip.octets (by decide)).refreshChecksum

/-- The packet to another destination. -/
def withDst (p : Packet) (ip : Ipv4Addr) : Packet :=
  (p.edit 16 ip.octets (by decide)).refreshChecksum

/-- The packet one hop further, unless it has no hop left. -/
def nextHop? (p : Packet) : Option Packet :=
  if p.ttl.toNat ≤ 1 then none
  else some (p.edit 8 [p.ttl - 1] (by decide)).refreshChecksum

/-- The packet with the bytes of its payload from an offset on replaced. -/
def writePayload (p : Packet) (offset : Nat) (v : Bytes) : Packet :=
  p.edit (p.headerLength + offset) v (by have := p.headerLength_ge; omega)

end Packet

/-! ## New packets -/

/-- The header fields of a packet that starts here. -/
structure Draft where
  src : Ipv4Addr
  dst : Ipv4Addr
  protocolNumber : UInt8
  ttl : UInt8 := defaultTtl
  identification : UInt16 := 0

/-- The header of a draft for a payload, with the given checksum. -/
def Draft.header (d : Draft) (payloadLength : Nat) (sum : UInt16) : Bytes :=
  [0x45, 0] ++ bytes16 (UInt16.ofNat (minHeaderLength + payloadLength)) ++
    bytes16 d.identification ++ [0x40, 0, d.ttl, d.protocolNumber] ++ bytes16 sum ++
    d.src.octets ++ d.dst.octets

/-- The bytes of a packet without options that must not be fragmented; its total length is taken
modulo 2¹⁶. -/
def Draft.build (d : Draft) (payload : Bytes) : Bytes :=
  d.header payload.length (checksum (d.header payload.length 0)) ++ payload

end SegmentRouter.Wire.Ipv4
