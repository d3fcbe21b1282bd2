import SegmentRouter.Address.Ipv4
import SegmentRouter.Address.Mac

/-!
# Wire/Bytes — fields of a byte string

Headers are read field by field at fixed offsets, most significant byte first, and changed by
writing over the bytes of a field. Every reader answers for any offset (a byte past the end reads as
zero), and `overwrite` never changes the length; the headers' own parsers check the lengths first.
-/

namespace SegmentRouter.Wire

/-- A string of bytes in the order of transmission. -/
abbrev Bytes := List UInt8

/-! ## Reading -/

/-- The byte at an offset. -/
def byteAt (b : Bytes) (i : Nat) : UInt8 :=
  b.getD i 0

/-- The 16-bit number at an offset. -/
def word16At (b : Bytes) (i : Nat) : UInt16 :=
  UInt16.ofNat ((byteAt b i).toNat * 256 + (byteAt b (i + 1)).toNat)

/-- The 32-bit number at an offset. -/
def word32At (b : Bytes) (i : Nat) : UInt32 :=
  UInt32.ofNat ((word16At b i).toNat * 65536 + (word16At b (i + 2)).toNat)

/-- The IPv4 address at an offset. -/
def ipAt (b : Bytes) (i : Nat) : Ipv4Addr :=
  ⟨word32At b i⟩

/-- The hardware address at an offset. -/
def macAt (b : Bytes) (i : Nat) : Mac :=
  ⟨byteAt b i, byteAt b (i + 1), byteAt b (i + 2), byteAt b (i + 3), byteAt b (i + 4),
    byteAt b (i + 5)⟩

theorem byteAt_append_left {b c : Bytes} {i : Nat} (h : i < b.length) :
    byteAt (b ++ c) i = byteAt b i := by
  simp [byteAt, List.getD, List.getElem?_append_left h]

theorem byteAt_append_right {b c : Bytes} {i : Nat} (h : b.length ≤ i) :
    byteAt (b ++ c) i = byteAt c (i - b.length) := by
  simp [byteAt, List.getD, List.getElem?_append_right h]

theorem byteAt_take {b : Bytes} {n i : Nat} (h : i < n) : byteAt (b.take n) i = byteAt b i := by
  simp [byteAt, List.getD, h]

/-! ## Writing -/

/-- The two bytes of a 16-bit number. -/
def bytes16 (w : UInt16) : Bytes :=
  [UInt8.ofNat (w.toNat / 256), UInt8.ofNat w.toNat]

/-- The four bytes of a 32-bit number. -/
def bytes32 (w : UInt32) : Bytes :=
  [UInt8.ofNat (w.toNat >>> 24), UInt8.ofNat (w.toNat >>> 16), UInt8.ofNat (w.toNat >>> 8),
    UInt8.ofNat w.toNat]

@[simp] theorem length_bytes16 (w : UInt16) : (bytes16 w).length = 2 := rfl

@[simp] theorem length_bytes32 (w : UInt32) : (bytes32 w).length = 4 := rfl

theorem word16At_bytes16 (w : UInt16) (rest : Bytes) : word16At (bytes16 w ++ rest) 0 = w := by
  have := w.toNat_lt
  rw [← UInt16.toNat_inj]
  simp [word16At, byteAt, bytes16]
  omega

theorem word16At_append {b c : Bytes} {i : Nat} (h : b.length ≤ i) :
    word16At (b ++ c) i = word16At c (i - b.length) := by
  rw [word16At, byteAt_append_right h, byteAt_append_right (by omega),
    show i + 1 - b.length = i - b.length + 1 by omega, word16At]

/-- The bytes with those from an offset on replaced, as far as they reach. -/
def overwrite : Bytes → Nat → Bytes → Bytes
  | [], _, _ => []
  | b :: bs, 0, [] => b :: bs
  | _ :: bs, 0, v :: vs => v :: overwrite bs 0 vs
  | b :: bs, i + 1, vs => b :: overwrite bs i vs

@[simp] theorem length_overwrite : ∀ (b : Bytes) (i : Nat) (v : Bytes),
    (overwrite b i v).length = b.length
  | [], _, _ => by simp [overwrite]
  | _ :: _, 0, [] => by simp [overwrite]
  | _ :: bs, 0, _ :: vs => by simp [overwrite, length_overwrite bs 0 vs]
  | _ :: bs, i + 1, vs => by simp [overwrite, length_overwrite bs i vs]

/-- A byte before the written ones is kept. -/
theorem byteAt_overwrite_of_lt : ∀ {b : Bytes} {i j : Nat} {v : Bytes}, j < i →
    byteAt (overwrite b i v) j = byteAt b j
  | [], _, _, _, _ => by simp [overwrite]
  | _ :: _, i + 1, 0, _, _ => by simp [overwrite, byteAt]
  | _ :: bs, i + 1, j + 1, v, h => by
    have := byteAt_overwrite_of_lt (b := bs) (i := i) (j := j) (v := v) (by omega)
    simpa [overwrite, byteAt] using this

/-- A byte after the written ones is kept. -/
theorem byteAt_overwrite_of_ge : ∀ {b : Bytes} {i j : Nat} {v : Bytes}, i + v.length ≤ j →
    byteAt (overwrite b i v) j = byteAt b j
  | [], _, _, _, _ => by simp [overwrite]
  | _ :: _, 0, _, [], _ => by simp [overwrite]
  | _ :: _, 0, 0, _ :: _, h => by simp at h
  | _ :: _, i + 1, 0, _, h => by omega
  | _ :: bs, 0, j + 1, _ :: vs, h => by
    have := byteAt_overwrite_of_ge (b := bs) (i := 0) (j := j) (v := vs) (by simp at h; omega)
    simpa [overwrite, byteAt] using this
  | _ :: bs, i + 1, j + 1, v, h => by
    have := byteAt_overwrite_of_ge (b := bs) (i := i) (j := j) (v := v) (by omega)
    simpa [overwrite, byteAt] using this

/-- The written bytes read back, as far as the string reaches. -/
theorem byteAt_overwrite : ∀ {b : Bytes} {i j : Nat} {v : Bytes}, j < v.length →
    i + j < b.length → byteAt (overwrite b i v) (i + j) = byteAt v j
  | [], _, _, _, _, hb => by simp at hb
  | _ :: _, 0, _, [], h, _ => by simp at h
  | _ :: _, 0, 0, _ :: _, _, _ => by simp [overwrite, byteAt]
  | _ :: bs, 0, j + 1, _ :: vs, h, hb => by
    have := byteAt_overwrite (b := bs) (i := 0) (j := j) (v := vs) (by simpa using h)
      (by simp at hb; omega)
    simpa [overwrite, byteAt] using this
  | _ :: bs, i + 1, j, v, h, hb => by
    have := byteAt_overwrite (b := bs) (i := i) (j := j) (v := v) h (by simp at hb; omega)
    rw [show i + 1 + j = (i + j) + 1 by omega]
    simpa [overwrite, byteAt] using this

end SegmentRouter.Wire
