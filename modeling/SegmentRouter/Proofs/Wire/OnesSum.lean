import Mathlib.Algebra.BigOperators.Intervals
import Mathlib.Data.Nat.ModEq
import SegmentRouter.Proofs.Wire.Checksum

/-!
# Proofs/Wire/OnesSum — the folded sum is the ones' complement sum

In ones' complement 65535 is zero written in another way, so of the numbers up to 65535 two stand for
the multiples of 65535.  Folding never makes zero of a number that is not (`isOnesSum_foldCarries`),
which is why a checksum that was written makes the sum all ones and the checksum of the whole zero
(`onesSum_isOnesSum`).  The accumulator is just wide enough for 65536 words and a sum to begin with:
65537 times 65535 is its last number.
-/

namespace SegmentRouter.Wire

variable {b : Bytes} {n : Nat}

/-! ## The words of a byte string -/

/-- **The plain sum is that of the 16-bit numbers at the even offsets**; past the end of the string
there is zero, so an odd last byte has a zero byte after it. -/
theorem words_eq_sum (b : Bytes) :
    words b = ∑ k ∈ Finset.range ((b.length + 1) / 2), (word16At b (2 * k)).toNat := by
  fun_induction words b with
  | case1 => rfl
  | case2 hi =>
    have := hi.toNat_lt
    simp [word16At, byteAt]
    omega
  | case3 hi lo rest ih =>
    have hfirst : (word16At (hi :: lo :: rest) 0).toNat = hi.toNat * 256 + lo.toNat := by
      have := hi.toNat_lt
      have := lo.toNat_lt
      simp [word16At, byteAt]
      omega
    have hcount : ((hi :: lo :: rest).length + 1) / 2 = (rest.length + 1) / 2 + 1 := by
      simp only [List.length_cons]
      omega
    rw [hcount, Finset.sum_range_succ', hfirst, ih, Nat.add_comm]
    rfl

/-- Only zero bytes add nothing. -/
theorem words_eq_zero_iff (b : Bytes) : words b = 0 ↔ ∀ x ∈ b, x = 0 := by
  have hbyte : ∀ x : UInt8, x = 0 ↔ x.toNat = 0 := fun x => UInt8.toNat_inj.symm
  fun_induction words b with
  | case1 => simp
  | case2 hi =>
    simp only [List.mem_singleton, forall_eq, hbyte]
    omega
  | case3 hi lo rest ih =>
    simp only [List.mem_cons, forall_eq_or_imp, hbyte hi, hbyte lo, ← ih]
    omega

/-! ## The accumulator -/

/-- The words of a front are added before those of the rest. -/
theorem wordSum_append {front : Bytes} (heven : front.length % 2 = 0) (acc : UInt32)
    (rest : Bytes) : wordSum acc (front ++ rest) = wordSum (wordSum acc front) rest := by
  fun_induction wordSum acc front with
  | case1 => rfl
  | case2 => simp at heven
  | case3 acc hi lo front ih =>
    have hfront : front.length % 2 = 0 := by
      simp only [List.length_cons] at heven
      omega
    exact ih hfront

/-- A string of fewer than 131072 bytes never fills the accumulator, not even from a sum that was
folded before. -/
theorem toNat_wordSum_of_lt {acc : UInt32} (hacc : acc.toNat < 65536) (hlen : b.length < 131072) :
    (wordSum acc b).toNat = acc.toNat + words b := by
  have hwords := words_le b
  rw [toNat_wordSum, Nat.mod_eq_of_lt (by omega)]

/-! ## The folding -/

/-- **A loop that adds the carries back in as long as there are any** ends after some rounds. -/
structure FoldsIn (n rounds result : Nat) : Prop where
  carries : ∀ k < rounds, 65536 ≤ addCarries^[k] n
  result_eq : addCarries^[rounds] n = result
  done : result < 65536

/-- **The loop ends after two rounds at most**, with the folded sum. -/
theorem foldsIn_foldCarries (h : n < 4294967296) : ∃ rounds ≤ 2, FoldsIn n rounds (foldCarries n) := by
  have hdone := foldCarries_lt h
  rcases Nat.lt_or_ge n 65536 with hnone | hsome
  · refine ⟨0, by decide, nofun, ?_, hdone⟩
    rw [foldCarries, addCarries_of_lt hnone, addCarries_of_lt hnone]
    rfl
  · rcases Nat.lt_or_ge (addCarries n) 65536 with hnone | hagain
    · refine ⟨1, by decide, fun k hk => ?_, ?_, hdone⟩
      · obtain rfl : k = 0 := by omega
        exact hsome
      · rw [foldCarries, addCarries_of_lt hnone]
        rfl
    · refine ⟨2, le_rfl, fun k hk => ?_, rfl, hdone⟩
      obtain rfl | rfl : k = 0 ∨ k = 1 := by omega
      · exact hsome
      · exact hagain

/-- **What stands for a sum in ones' complement**: zero for nothing, and otherwise the number from 1
to 65535 that leaves the same remainder. -/
def IsOnesSum (n r : Nat) : Prop :=
  if n = 0 then r = 0 else 1 ≤ r ∧ r ≤ 65535 ∧ r ≡ n [MOD 65535]

theorem IsOnesSum.unique {r s : Nat} (hr : IsOnesSum n r) (hs : IsOnesSum n s) : r = s := by
  unfold IsOnesSum at hr hs
  split at hr
  · rename_i hn
    rw [if_pos hn] at hs
    exact hr.trans hs.symm
  · rename_i hn
    rw [if_neg hn] at hs
    obtain ⟨hr₁, hr₂, hr⟩ := hr
    obtain ⟨hs₁, hs₂, hs⟩ := hs
    have hmod : r % 65535 = s % 65535 := hr.trans hs.symm
    omega

/-- **The folded sum stands for the sum.** -/
theorem isOnesSum_foldCarries (h : n < 4294967296) : IsOnesSum n (foldCarries n) := by
  have hlt := foldCarries_lt h
  unfold IsOnesSum
  split
  · rename_i hn
    rw [hn]
    rfl
  · rename_i hn
    refine ⟨?_, by omega, foldCarries_mod n⟩
    simp only [foldCarries, addCarries]
    omega

/-! ## Checksums -/

/-- The string with a checksum in the field at an offset, which counts as zero for it. -/
def withChecksum (sum : Bytes → UInt16) (b : Bytes) (i : Nat) : Bytes :=
  let cleared := overwrite b i [0, 0]
  overwrite cleared i (bytes16 (sum cleared))

/-- What is said of a sum of words that begins with a number below 65536: the accumulator holds the
plain sum after every word, the folding ends, and the folded sum stands for the plain one. -/
structure SumsUp (start : Nat) (b : Bytes) : Prop where
  holds : ∀ front rest, b = front ++ rest → front.length % 2 = 0 ∨ rest = [] →
    wordSum (UInt32.ofNat start) b = wordSum (wordSum (UInt32.ofNat start) front) rest ∧
      (wordSum (UInt32.ofNat start) front).toNat = start + words front
  ends : ∃ rounds ≤ 2, FoldsIn (wordSum (UInt32.ofNat start) b).toNat rounds (onesSum start b)
  isOnesSum : IsOnesSum (start + words b) (onesSum start b)

/-- **Fewer than 131072 bytes sum up.** -/
theorem sumsUp {start : Nat} (hstart : start < 65536) (hlen : b.length < 131072) :
    SumsUp start b := by
  have hacc : (UInt32.ofNat start).toNat = start := by
    rw [UInt32.toNat_ofNat']
    omega
  have hfits : ∀ c : Bytes, c.length < 131072 →
      (wordSum (UInt32.ofNat start) c).toNat = start + words c := fun c hc => by
    rw [toNat_wordSum_of_lt (hacc.symm ▸ hstart) hc, hacc]
  have hlt := UInt32.toNat_lt (wordSum (UInt32.ofNat start) b)
  constructor
  case holds =>
    rintro front rest rfl hcut
    have hfront : front.length < 131072 := by
      rw [List.length_append] at hlen
      omega
    refine ⟨?_, hfits front hfront⟩
    rcases hcut with heven | rfl
    · exact wordSum_append heven ..
    · rw [List.append_nil]
      rfl
  case ends => exact foldsIn_foldCarries hlt
  case isOnesSum =>
    rw [onesSum, ← hfits b hlen]
    exact isOnesSum_foldCarries hlt

/-- **The folded sum is the ones' complement sum.**  Of fewer than 131072 bytes it is zero if all
bytes are, and otherwise the number from 1 to 65535 that is congruent modulo 65535 to the sum of the
16-bit words; on the way the accumulator never wraps, and the folding ends.  It is the same when the
sum of a pseudo header comes first.  So a checksum that is written into a field at an even offset
makes the checksum of the whole zero, with a pseudo header and without. -/
theorem onesSum_isOnesSum (hlen : b.length < 131072) (src dst : Ipv4Addr) (protocol : UInt8) :
    ((∀ x ∈ b, x = 0) → onesSum 0 b = 0) ∧
    ((∃ x ∈ b, x ≠ 0) → ∀ n, n = onesSum 0 b ↔ 1 ≤ n ∧ n ≤ 65535 ∧
      n ≡ ∑ k ∈ Finset.range ((b.length + 1) / 2), (word16At b (2 * k)).toNat [MOD 65535]) ∧
    SumsUp 0 b ∧
    (∀ length, SumsUp 0 (pseudoHeader src dst protocol length) ∧
      SumsUp (onesSum 0 (pseudoHeader src dst protocol length)) b) ∧
    ∀ i, i % 2 = 0 → i + 2 ≤ b.length →
      checksum (withChecksum checksum b i) = 0 ∧
      segmentChecksum src dst protocol
        (withChecksum (segmentChecksum src dst protocol) b i) = 0 := by
  have hsums : SumsUp 0 b := sumsUp (by decide) hlen
  have hones := hsums.isOnesSum
  rw [Nat.zero_add] at hones
  refine ⟨fun hzero => ?_, fun hsome n => ?_, hsums, fun length => ?_, fun i heven hi => ?_⟩
  · rwa [IsOnesSum, if_pos ((words_eq_zero_iff b).2 hzero)] at hones
  · have hwords : words b ≠ 0 := fun hzero => by
      obtain ⟨x, hx, hne⟩ := hsome
      exact hne ((words_eq_zero_iff b).1 hzero x hx)
    rw [← words_eq_sum]
    constructor
    · rintro rfl
      rwa [IsOnesSum, if_neg hwords] at hones
    · intro hn
      have hn : IsOnesSum (words b) n := by rwa [IsOnesSum, if_neg hwords]
      exact hn.unique hones
  · have hpseudo : (pseudoHeader src dst protocol length).length = 12 := rfl
    exact ⟨sumsUp (by decide) (by omega), sumsUp (onesSum_lt ..) hlen⟩
  · refine ⟨checksum_sealed heven hi, segmentChecksum_sealed heven hi ?_⟩
    rw [segmentChecksum, length_overwrite]
    exact completes_complement (UInt32.toNat_lt _)

/-- Three words, of which the last is half a word, with a carry and a checksum in the second. -/
theorem onesSum_isOnesSum_odd :
    onesSum 0 [0xff, 0xff, 0, 1, 0x80] = 32769 ∧
    32769 ≡ 65535 + 1 + 32768 [MOD 65535] ∧
    withChecksum checksum [0xff, 0xff, 0, 1, 0x80] 2 = [0xff, 0xff, 0x7f, 0xff, 0x80] ∧
    checksum [0xff, 0xff, 0x7f, 0xff, 0x80] = 0 := by
  have hsealed : withChecksum checksum [0xff, 0xff, 0, 1, 0x80] 2 =
      [0xff, 0xff, 0x7f, 0xff, 0x80] := by decide
  obtain ⟨-, hsum, -, -, hfield⟩ := onesSum_isOnesSum (b := [0xff, 0xff, 0, 1, 0x80]) (by decide)
    (.ofOctets 10 0 0 1) (.ofOctets 10 0 0 2) 6
  have hvalue := (hsum ⟨0xff, by decide, by decide⟩ 32769).2 ⟨by decide, by decide, by decide⟩
  refine ⟨hvalue.symm, by decide, hsealed, ?_⟩
  rw [← hsealed]
  exact (hfield 2 rfl (by decide)).1

end SegmentRouter.Wire
