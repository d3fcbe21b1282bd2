import SegmentRouter.Proofs.Wire.Translation

/-!
# Proofs/Wire/Checksum — a refreshed checksum is valid

The checksum of a byte string is a matter of the plain sum of its 16-bit words (`words`): the
accumulator holds it modulo 2³², and as long as it fits, `onesSum` only folds it (`onesSum_eq`).  A
number written over a field at an even offset changes the sum by the difference to what stood there
(`words_overwrite`).  So a number that completes what the accumulator has of the rest to a multiple
of 65535 makes the whole sum all ones (`onesSum_sealed`), and that is what a valid checksum is.  The
complement of the rest completes it, even if the rest was too much for the accumulator, because
2³² - 1 is a multiple of 65535; so does the one that UDP writes for it, if the rest was not.
-/

namespace SegmentRouter.Wire

variable {b v : Bytes} {i n start : Nat} {w : UInt16}

/-! ## Sums of words -/

/-- The sum of the 16-bit words of a byte string; an odd last byte is the high half of a word. -/
def words : Bytes → Nat
  | [] => 0
  | [hi] => hi.toNat * 256
  | hi :: lo :: rest => hi.toNat * 256 + lo.toNat + words rest

/-- A word is at most 65535. -/
theorem words_le (b : Bytes) : words b ≤ 65535 * ((b.length + 1) / 2) := by
  fun_induction words b with
  | case1 => exact Nat.zero_le _
  | case2 hi =>
    have := hi.toNat_lt
    simp only [List.length_cons, List.length_nil]
    omega
  | case3 hi lo rest ih =>
    have := hi.toNat_lt
    have := lo.toNat_lt
    simp only [List.length_cons]
    omega

/-- **The accumulator holds the sum modulo 2³².** -/
theorem toNat_wordSum (acc : UInt32) (b : Bytes) :
    (wordSum acc b).toNat = (acc.toNat + words b) % 4294967296 := by
  fun_induction wordSum acc b with
  | case1 acc => exact (Nat.mod_eq_of_lt acc.toNat_lt).symm
  | case2 acc hi =>
    rw [words, UInt32.toNat_add, UInt32.toNat_ofNat']
    omega
  | case3 acc hi lo rest ih =>
    rw [ih, words, UInt32.toNat_add, UInt32.toNat_ofNat']
    omega

/-- The ones' complement sum folds the carries of the plain sum. -/
theorem onesSum_eq (hstart : start < 65536) (hlen : b.length ≤ 65535) :
    onesSum start b = foldCarries (start + words b) := by
  have hwords := words_le b
  have hacc : (UInt32.ofNat start).toNat = start := by
    rw [UInt32.toNat_ofNat']
    omega
  rw [onesSum, toNat_wordSum, hacc, Nat.mod_eq_of_lt (by omega)]

/-- **A number written at an even offset takes the place of the word that stood there.** -/
theorem words_overwrite (w : UInt16) : ∀ {b : Bytes} {i : Nat}, i % 2 = 0 → i + 2 ≤ b.length →
    words (overwrite b i (bytes16 w)) + (word16At b i).toNat = words b + w.toNat
  | [], _, _, h => by simp at h
  | [_], _, _, h => by simp at h
  | hi :: lo :: rest, 0, _, _ => by
    have := hi.toNat_lt
    have := lo.toNat_lt
    have := w.toNat_lt
    have hend : overwrite rest 0 [] = rest := by cases rest <;> rfl
    simp only [bytes16, overwrite, words, hend, word16At, byteAt, List.getD_cons_zero,
      List.getD_cons_succ, UInt8.toNat_ofNat', UInt16.toNat_ofNat']
    omega
  | _ :: _ :: _, 1, heven, _ => by omega
  | hi :: lo :: rest, i + 2, heven, h => by
    have ih := words_overwrite w (b := rest) (i := i) (by omega)
      (by simp only [List.length_cons] at h; omega)
    have hword : word16At (hi :: lo :: rest) (i + 2) = word16At rest i := rfl
    simp only [overwrite, words, hword]
    omega

/-! ## Sums that are all ones -/

/-- **The carries of a positive multiple of 65535 fold to all ones**, and nothing else does. -/
theorem foldCarries_eq_ones (h : n < 4294967296) :
    foldCarries n = 65535 ↔ 0 < n ∧ n % 65535 = 0 := by
  simp only [foldCarries, addCarries]
  omega

/-- Folding the carries leaves the remainder. -/
theorem foldCarries_mod (n : Nat) : foldCarries n % 65535 = n % 65535 := by
  simp only [foldCarries, addCarries]
  omega

theorem foldCarries_le (n : Nat) : foldCarries n ≤ n := by
  simp only [foldCarries, addCarries]
  omega

/-- Whether a number, as a checksum, makes a sum of words a positive multiple of 65535 that the
accumulator holds. -/
def Completes (sum : Nat) (w : UInt16) : Prop :=
  sum + w.toNat < 4294967296 ∧ 0 < sum + w.toNat ∧ (sum + w.toNat) % 65535 = 0

theorem toNat_complement (h : n < 65536) : (complement n).toNat = 65535 - n := by
  rw [complement, UInt16.toNat_ofNat']
  omega

/-- **The complement of the folded sum completes the sum.**  The next multiple of 65535 is always
within the accumulator, whose last number is one. -/
theorem completes_complement (h : n < 4294967296) : Completes n (complement (foldCarries n)) := by
  have hlt := foldCarries_lt h
  have hmod := foldCarries_mod n
  rw [Completes, toNat_complement hlt]
  -- the bound needs the folded sum itself, its remainder does not tell zero from 65535
  simp only [foldCarries, addCarries] at hlt hmod ⊢
  omega

/-- All ones in place of zero complete a sum as well, if it is not near the accumulator's end. -/
theorem completes_writtenChecksum (h : n + 65535 < 4294967296) :
    Completes n (Udp.writtenChecksum (complement (foldCarries n))) := by
  have hcomplement := completes_complement (n := n) (by omega)
  unfold Udp.writtenChecksum
  split
  · rename_i hzero
    obtain ⟨-, hpos, hmultiple⟩ := hcomplement
    have hones : (0xffff : UInt16).toNat = 65535 := rfl
    have hnone : (0 : UInt16).toNat = 0 := rfl
    rw [hzero, hnone] at hpos hmultiple
    rw [Completes, hones]
    omega
  · exact hcomplement

theorem complement_eq_zero_iff (h : n < 65536) : complement n = 0 ↔ n = 65535 := by
  have hn := toNat_complement h
  rw [← UInt16.toNat_inj, hn]
  have : (0 : UInt16).toNat = 0 := rfl
  omega

/-- **A field at an even offset that completes the sum of the rest makes the whole sum all ones.** -/
theorem onesSum_sealed (heven : i % 2 = 0) (hi : i + 2 ≤ b.length)
    (hw : Completes (wordSum (UInt32.ofNat start) (overwrite b i [0, 0])).toNat w) :
    onesSum start (overwrite (overwrite b i [0, 0]) i (bytes16 w)) = 65535 := by
  have hcleared : word16At (overwrite b i [0, 0]) i = 0 := word16At_overwrite 0 hi
  have hwords := words_overwrite w heven (b := overwrite b i [0, 0]) (by simpa using hi)
  have hzero : (0 : UInt16).toNat = 0 := rfl
  rw [hcleared, hzero, Nat.add_zero] at hwords
  rw [toNat_wordSum] at hw
  obtain ⟨hfits, hsum⟩ := hw
  rw [onesSum, foldCarries_eq_ones (UInt32.toNat_lt _), toNat_wordSum, hwords, ← Nat.add_assoc,
    Nat.add_mod, Nat.mod_eq_of_lt (Nat.lt_trans w.toNat_lt (by decide)), Nat.mod_eq_of_lt hfits]
  exact hsum

/-! ## Checksums of headers, messages, segments and datagrams -/

theorem take_overwrite : ∀ (b : Bytes) (i : Nat) (v : Bytes) (n : Nat),
    (overwrite b i v).take n = overwrite (b.take n) i v
  | [], _, _, _ => by simp [overwrite]
  | _ :: _, _, _, 0 => by simp [overwrite]
  | _ :: _, 0, [], _ + 1 => by simp [overwrite]
  | _ :: bs, 0, _ :: vs, n + 1 => by simp [overwrite, take_overwrite bs 0 vs n]
  | _ :: bs, i + 1, vs, n + 1 => by simp [overwrite, take_overwrite bs i vs n]

/-- A string whose checksum field completes it has the checksum zero. -/
theorem checksum_sealed (heven : i % 2 = 0) (hi : i + 2 ≤ b.length) :
    checksum (overwrite (overwrite b i [0, 0]) i
      (bytes16 (checksum (overwrite b i [0, 0])))) = 0 :=
  (complement_eq_zero_iff (onesSum_lt ..)).2
    (onesSum_sealed heven hi (completes_complement (UInt32.toNat_lt _)))

/-- A segment whose checksum field completes it has the checksum zero between its addresses. -/
theorem segmentChecksum_sealed {src dst : Ipv4Addr} {protocol : UInt8} (heven : i % 2 = 0)
    (hi : i + 2 ≤ b.length)
    (hw : Completes (wordSum (UInt32.ofNat (onesSum 0 (pseudoHeader src dst protocol b.length)))
      (overwrite b i [0, 0])).toNat w) :
    segmentChecksum src dst protocol (overwrite (overwrite b i [0, 0]) i (bytes16 w)) = 0 := by
  unfold segmentChecksum
  rw [length_overwrite, length_overwrite, complement_eq_zero_iff (onesSum_lt ..)]
  exact onesSum_sealed heven hi hw

/-- **The checksum of a refreshed header is valid.** -/
theorem Ipv4.Packet.headerChecksumValid_refreshChecksum (p : Ipv4.Packet) :
    p.refreshChecksum.headerChecksumValid = true := by
  have hge := p.headerLength_ge
  have hle : p.headerLength ≤ p.bytes.length := p.headerLength_le
  have hheader : p.header.length = p.headerLength := by
    rw [header, List.length_take]
    omega
  have hsealed : p.refreshChecksum.header = overwrite (overwrite p.header 10 [0, 0]) 10
      (bytes16 (checksum (overwrite p.header 10 [0, 0]))) := by
    unfold refreshChecksum header
    simp only [headerLength_edit, bytes_edit, take_overwrite]
  rw [headerChecksumValid, hsealed, checksum_sealed (by decide) (by omega)]
  rfl

/-- **The checksum of a refreshed message is valid**, however long the message is. -/
theorem Icmp.checksumValid_refreshChecksum (hmin : Icmp.headerLength ≤ b.length) :
    Icmp.checksumValid (Icmp.refreshChecksum b) = true := by
  have hmin : 8 ≤ b.length := hmin
  unfold Icmp.checksumValid Icmp.refreshChecksum
  rw [checksum_sealed (by decide) (by omega)]
  rfl

/-- **The checksum of a refreshed segment is valid.** -/
theorem Tcp.checksumValid_refreshChecksum (src dst : Ipv4Addr)
    (hmin : Tcp.minHeaderLength ≤ b.length) :
    Tcp.checksumValid (Tcp.refreshChecksum b src dst) src dst = true := by
  have hmin : 20 ≤ b.length := hmin
  unfold Tcp.checksumValid Tcp.refreshChecksum
  rw [segmentChecksum_sealed (by decide) (by omega)]
  · rfl
  · rw [← length_overwrite b 16 [0, 0]]
    exact completes_complement (UInt32.toNat_lt _)

/-- **The checksum of a refreshed datagram is valid, or still absent.** -/
theorem Udp.checksumValid_refreshChecksum (src dst : Ipv4Addr)
    (hmin : Udp.headerLength ≤ b.length) (hlen : b.length ≤ 65535) :
    Udp.checksumValid (Udp.refreshChecksum b src dst) src dst = true := by
  have hmin : 8 ≤ b.length := hmin
  unfold Udp.checksumValid Udp.refreshChecksum
  split
  · rename_i hlacks
    rw [hlacks, Bool.true_or]
  · rw [segmentChecksum_sealed (by decide) (by omega)]
    · simp
    · have hstart := onesSum_lt 0 (pseudoHeader src dst Protocol.udp.number b.length)
      have hwords := words_le (overwrite b 6 [0, 0])
      rw [length_overwrite] at hwords
      have hfits : (wordSum (UInt32.ofNat (onesSum 0 (pseudoHeader src dst Protocol.udp.number
          b.length))) (overwrite b 6 [0, 0])).toNat + 65535 < 4294967296 := by
        rw [toNat_wordSum, UInt32.toNat_ofNat']
        omega
      rw [segmentChecksum, length_overwrite]
      exact completes_writtenChecksum hfits

theorem Udp.writtenChecksum_ne_zero (sum : UInt16) : Udp.writtenChecksum sum ≠ 0 := by
  unfold Udp.writtenChecksum
  split
  · decide
  · assumption

/-- **A datagram has a checksum after its refreshment exactly if it had one before.** -/
theorem Udp.lacksChecksum_refreshChecksum (src dst : Ipv4Addr)
    (hmin : Udp.headerLength ≤ b.length) :
    Udp.lacksChecksum (Udp.refreshChecksum b src dst) = Udp.lacksChecksum b := by
  have hmin : 8 ≤ b.length := hmin
  unfold Udp.refreshChecksum
  split
  · rfl
  · rename_i hlacks
    rw [Bool.eq_false_iff.2 hlacks, Udp.lacksChecksum, word16At_overwrite _ (by simp; omega),
      beq_eq_false_iff_ne]
    exact Udp.writtenChecksum_ne_zero _

end SegmentRouter.Wire
