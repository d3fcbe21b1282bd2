import SegmentRouter.Wire.Bytes

/-!
# Wire/Checksum — the Internet checksum

The ones' complement of the ones' complement sum of a byte string's 16-bit words; an odd last byte
is the high half of a word. The words are added in a 32-bit accumulator, so the carries of up to
65536 words are kept until they are folded in.
-/

namespace SegmentRouter.Wire

/-- The sum of the 16-bit words of a byte string, added to `acc` modulo 2³². -/
def wordSum : UInt32 → Bytes → UInt32
  | acc, [] => acc
  | acc, [hi] => acc + UInt32.ofNat (hi.toNat * 256)
  | acc, hi :: lo :: rest => wordSum (acc + UInt32.ofNat (hi.toNat * 256 + lo.toNat)) rest

/-- The low half of a number plus its high half: the carries added back in. -/
def addCarries (n : Nat) : Nat :=
  n % 65536 + n / 65536

/-- The ones' complement sum that a 32-bit sum of words stands for. Carries are added back twice;
after that none is left (`foldCarries_lt`). -/
def foldCarries (n : Nat) : Nat :=
  addCarries (addCarries n)

theorem foldCarries_lt {n : Nat} (h : n < 4294967296) : foldCarries n < 65536 := by
  simp only [foldCarries, addCarries]
  omega

theorem addCarries_of_lt {n : Nat} (h : n < 65536) : addCarries n = n := by
  simp only [addCarries]
  omega

/-- The ones' complement sum of a byte string's words, from a sum to begin with. -/
def onesSum (start : Nat) (b : Bytes) : Nat :=
  foldCarries (wordSum (UInt32.ofNat start) b).toNat

theorem onesSum_lt (start : Nat) (b : Bytes) : onesSum start b < 65536 :=
  foldCarries_lt (UInt32.toNat_lt _)

/-- The ones' complement of a sum, as it is written in a header. -/
def complement (sum : Nat) : UInt16 :=
  UInt16.ofNat (65535 - sum)

/-- The checksum of a byte string. -/
def checksum (b : Bytes) : UInt16 :=
  complement (onesSum 0 b)

/-- The words that a TCP or UDP checksum covers besides the segment: both addresses, the protocol
number and the segment's length modulo 2¹⁶. -/
def pseudoHeader (src dst : Ipv4Addr) (protocol : UInt8) (length : Nat) : Bytes :=
  src.octets ++ dst.octets ++ [0, protocol] ++ bytes16 (UInt16.ofNat length)

/-- The checksum of a segment together with its pseudo header. -/
def segmentChecksum (src dst : Ipv4Addr) (protocol : UInt8) (segment : Bytes) : UInt16 :=
  complement (onesSum (onesSum 0 (pseudoHeader src dst protocol segment.length)) segment)

end SegmentRouter.Wire
