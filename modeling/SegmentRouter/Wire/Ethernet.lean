import SegmentRouter.Malformed
import SegmentRouter.Wire.Bytes
import SegmentRouter.Wire.Protocol

/-!
# Wire/Ethernet — Ethernet II frames

Two hardware addresses and a type number in front of a payload. Main statement: `parse_build`, a
built frame reads back.
-/

namespace SegmentRouter.Wire.Ethernet

/-- The number of bytes in front of the payload. -/
def headerLength : Nat := 14

/-- A frame, without its frame check sequence. -/
structure Frame where
  dst : Mac
  src : Mac
  etherType : UInt16
  payload : Bytes
deriving DecidableEq, Repr

/-- The frame in a byte string. -/
def parse (b : Bytes) : Except Malformed Frame :=
  if b.length < headerLength then .error .frameTooShort
  else .ok {
    dst := macAt b 0
    src := macAt b 6
    etherType := word16At b 12
    payload := b.drop headerLength }

/-- The bytes of a frame. -/
def build (f : Frame) : Bytes :=
  f.dst.octets ++ f.src.octets ++ bytes16 f.etherType ++ f.payload

theorem parse_build (f : Frame) : parse (build f) = .ok f := by
  obtain ⟨d, s, t, p⟩ := f
  have hlen : ¬ (build ⟨d, s, t, p⟩).length < headerLength := by
    simp only [build, headerLength, List.length_append, Mac.length_octets, length_bytes16]
    omega
  have ht : word16At (build ⟨d, s, t, p⟩) 12 = t := by
    rw [build, List.append_assoc (d.octets ++ s.octets), word16At_append (by simp)]
    exact word16At_bytes16 t p
  rw [parse, if_neg hlen, ht]
  simp [build, headerLength, macAt, byteAt, bytes16, Mac.octets]

/-- The frame with other addresses; a string shorter than a header stays as it is. -/
def readdress (b : Bytes) (dst src : Mac) : Bytes :=
  if b.length < headerLength then b
  else overwrite (overwrite b 0 dst.octets) 6 src.octets

@[simp] theorem length_readdress (b : Bytes) (dst src : Mac) :
    (readdress b dst src).length = b.length := by
  unfold readdress
  split <;> simp

end SegmentRouter.Wire.Ethernet
