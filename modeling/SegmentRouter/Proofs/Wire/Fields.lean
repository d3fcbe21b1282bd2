import SegmentRouter.Wire.Bytes

/-!
# Proofs/Wire/Fields — fields that are written and read back

A field that was written over reads as what was written, if the string reaches that far, and every
field that lies beside the written bytes reads as before.
-/

namespace SegmentRouter.Wire

variable {b c v : Bytes} {i j n : Nat}

/-! ## Fields beside the written bytes -/

/-- A byte beside the written ones is kept. -/
theorem byteAt_overwrite_of_disjoint (h : j < i ∨ i + v.length ≤ j) :
    byteAt (overwrite b i v) j = byteAt b j :=
  h.elim byteAt_overwrite_of_lt byteAt_overwrite_of_ge

theorem word16At_congr (h : ∀ k < 2, byteAt b (i + k) = byteAt c (j + k)) :
    word16At b i = word16At c j := by
  have h0 : byteAt b i = byteAt c j := h 0 (by decide)
  rw [word16At, h0, h 1 (by decide), word16At]

theorem ipAt_congr (h : ∀ k < 4, byteAt b (i + k) = byteAt c (j + k)) : ipAt b i = ipAt c j := by
  have hhigh : word16At b i = word16At c j := word16At_congr fun k hk => h k (by omega)
  have hlow : word16At b (i + 2) = word16At c (j + 2) := word16At_congr fun k hk => by
    rw [Nat.add_assoc, Nat.add_assoc]
    exact h (2 + k) (by omega)
  rw [ipAt, word32At, hhigh, hlow, ipAt, word32At]

/-- A number beside the written bytes is kept. -/
theorem word16At_overwrite_of_disjoint (h : j + 2 ≤ i ∨ i + v.length ≤ j) :
    word16At (overwrite b i v) j = word16At b j :=
  word16At_congr fun k hk => byteAt_overwrite_of_disjoint (by omega)

/-! ## Fields that were written -/

/-- **A number that was written reads back.** -/
theorem word16At_overwrite (w : UInt16) (h : i + 2 ≤ b.length) :
    word16At (overwrite b i (bytes16 w)) i = w :=
  (word16At_congr fun k hk => by
    rw [byteAt_overwrite (by simpa using hk) (by omega), Nat.zero_add, List.append_nil]).trans
    (word16At_bytes16 w [])

theorem ipAt_octets (ip : Ipv4Addr) : ipAt ip.octets 0 = ip := by
  have hlt := ip.toNat_lt
  rw [← Ipv4Addr.toNat_inj]
  simp [ipAt, word32At, word16At, byteAt, Ipv4Addr.octets, Ipv4Addr.toNat] at hlt ⊢
  omega

/-- **An address that was written reads back.** -/
theorem ipAt_overwrite (ip : Ipv4Addr) (h : i + 4 ≤ b.length) :
    ipAt (overwrite b i ip.octets) i = ip :=
  (ipAt_congr fun k hk => by
    rw [byteAt_overwrite (by simpa using hk) (by omega), Nat.zero_add]).trans (ipAt_octets ip)

/-! ## The rest of the string -/

theorem byteAt_drop (b : Bytes) (n i : Nat) : byteAt (b.drop n) i = byteAt b (n + i) := by
  simp [byteAt]

theorem ext_byteAt (hlen : b.length = c.length) (h : ∀ i < b.length, byteAt b i = byteAt c i) :
    b = c := by
  refine List.ext_getElem hlen fun i hb hc => ?_
  simpa [byteAt, hb, hc] using h i hb

/-- What stands after the written bytes is kept. -/
theorem drop_overwrite_of_le (h : i + v.length ≤ n) : (overwrite b i v).drop n = b.drop n :=
  ext_byteAt (by simp) fun k _ => by
    rw [byteAt_drop, byteAt_drop, byteAt_overwrite_of_ge (by omega)]

/-- Bytes that are as many as stand behind an offset replace these. -/
theorem drop_overwrite_self (h : v.length = (b.drop i).length) : (overwrite b i v).drop i = v :=
  ext_byteAt (by simp [h]) fun k hk => by
    rw [List.length_drop, length_overwrite] at hk
    rw [List.length_drop] at h
    rw [byteAt_drop, byteAt_overwrite (by omega) (by omega)]

/-! ## Fields at which a string goes on -/

theorem word16At_of_drop {w : UInt16} (h : b.drop i = bytes16 w ++ c) : word16At b i = w := by
  rw [← word16At_bytes16 w c, ← h]
  exact word16At_congr fun k _ => by rw [byteAt_drop, Nat.zero_add]

theorem ipAt_of_drop {ip : Ipv4Addr} (h : b.drop i = ip.octets ++ c) : ipAt b i = ip := by
  have hfront : ipAt (ip.octets ++ c) 0 = ip :=
    (ipAt_congr fun k hk => byteAt_append_left (by simpa using hk)).trans (ipAt_octets ip)
  rw [← hfront, ← h]
  exact ipAt_congr fun k _ => by rw [byteAt_drop, Nat.zero_add]

theorem word32At_of_drop {w : UInt32} (h : b.drop i = bytes32 w ++ c) : word32At b i = w := by
  have hip : ipAt b i = ⟨w⟩ := ipAt_of_drop h
  exact congrArg Ipv4Addr.bits hip

theorem macAt_of_drop {mac : Mac} (h : b.drop i = mac.octets ++ c) : macAt b i = mac := by
  have hbyte (k : Nat) : byteAt b (i + k) = byteAt (mac.octets ++ c) k := by rw [← byteAt_drop, h]
  have hfirst : byteAt b i = byteAt (mac.octets ++ c) 0 := hbyte 0
  rw [macAt, hfirst, hbyte, hbyte, hbyte, hbyte, hbyte]
  rfl

/-! ## Fields that are written as they were read -/

theorem take_drop_eq_map (h : i + n ≤ b.length) :
    (b.drop i).take n = (List.range n).map fun k => byteAt b (i + k) := by
  have hlen : n ≤ (b.drop i).length := by
    rw [List.length_drop]
    omega
  refine List.ext_getElem (by rw [List.length_take_of_le hlen]; simp) fun k hk hk' => ?_
  rw [List.length_map, List.length_range] at hk'
  have hbyte : byteAt b (i + k) = b[i + k] := by simp [byteAt, show i + k < b.length by omega]
  rw [List.getElem_map, List.getElem_range, List.getElem_take, List.getElem_drop, hbyte]

theorem bytes16_word16At (h : i + 2 ≤ b.length) : bytes16 (word16At b i) = (b.drop i).take 2 := by
  have hhigh := (byteAt b i).toNat_lt
  have hlow := (byteAt b (i + 1)).toNat_lt
  have hbytes : bytes16 (word16At b i) = [byteAt b i, byteAt b (i + 1)] := by
    simp only [bytes16, word16At, List.cons.injEq, ← UInt8.toNat_inj, UInt8.toNat_ofNat',
      UInt16.toNat_ofNat', and_true]
    omega
  rw [hbytes, take_drop_eq_map h]
  rfl

theorem octets_ipAt (h : i + 4 ≤ b.length) : (ipAt b i).octets = (b.drop i).take 4 := by
  have hip : ipAt b i =
      .ofOctets (byteAt b i) (byteAt b (i + 1)) (byteAt b (i + 2)) (byteAt b (i + 3)) := by
    have hdrop : b.drop i = (b.drop i).take 4 ++ b.drop (i + 4) := by
      rw [← List.drop_drop, List.take_append_drop]
    rw [take_drop_eq_map h] at hdrop
    exact ipAt_of_drop (hdrop.trans (by rw [Ipv4Addr.octets_ofOctets]; rfl))
  rw [hip, Ipv4Addr.octets_ofOctets, take_drop_eq_map h]
  rfl

theorem octets_macAt (h : i + 6 ≤ b.length) : (macAt b i).octets = (b.drop i).take 6 :=
  (take_drop_eq_map h).symm

end SegmentRouter.Wire
