import SegmentRouter.Proofs.Wire.Carriage

/-!
# Proofs/Wire/Datagrams — the checksum of a translated datagram

A datagram ends where its length field says, and an IPv4 payload may go on after it.  The checksum
of a translated payload is refreshed over all of it, with its length in the pseudo header, while a
receiver checks the datagram alone, with the length that it states.  The two sums differ by the
bytes in between and their number, so the datagram's checksum is right exactly if these add up to a
multiple of 65535 (`checksumValid_delimited_translate`): if nothing stands after the datagram, and
never if a few zeros do.
-/

namespace SegmentRouter.Wire

variable {b c : Bytes} {n : Nat} {src dst : Ipv4Addr} {protocol : UInt8}

/-! ## Sums of parts -/

theorem words_append (heven : b.length % 2 = 0) : words (b ++ c) = words b + words c := by
  fun_induction words b with
  | case1 => rw [List.nil_append, Nat.zero_add]
  | case2 hi => cases heven
  | case3 hi lo rest ih =>
    have hrest : rest.length % 2 = 0 := by
      rw [List.length_cons, List.length_cons] at heven
      omega
    rw [List.cons_append, List.cons_append, words, ih hrest]
    omega

theorem words_replicate_zero : ∀ n, words (List.replicate n 0) = 0
  | 0 => rfl
  | 1 => rfl
  | n + 2 => by
    rw [List.replicate_succ, List.replicate_succ, words, words_replicate_zero n]
    rfl

/-- What the bytes from an offset on add to the sum of a byte string's words. -/
def wordsFrom (n : Nat) (b : Bytes) : Nat :=
  words (List.replicate n 0 ++ b.drop n)

/-- **The sum of a byte string's words is that of its first bytes and of the others**, each at its
place. -/
theorem words_eq_add_wordsFrom (n : Nat) (b : Bytes) :
    words b = words (b.take n) + wordsFrom n b := by
  have hzero : (0 : UInt8).toNat = 0 := rfl
  fun_induction words b generalizing n with
  | case1 =>
    rw [wordsFrom, List.take_nil, List.drop_nil, List.append_nil, words_replicate_zero, words]
  | case2 hi =>
    cases n with
    | zero => rw [wordsFrom, List.take_zero, List.drop_zero, words, Nat.zero_add]; rfl
    | succ n =>
      rw [wordsFrom, List.take_succ_cons, List.take_nil, List.drop_succ_cons, List.drop_nil,
        List.append_nil, words_replicate_zero, words, Nat.add_zero]
  | case3 hi lo rest ih =>
    rcases n with _ | _ | n
    · rw [wordsFrom, List.take_zero, List.drop_zero, words, Nat.zero_add]
      rfl
    · simp only [wordsFrom, List.take_succ_cons, List.take_zero, List.drop_succ_cons,
        List.drop_zero, List.replicate_succ, List.replicate_zero, List.cons_append,
        List.nil_append, words, hzero, Nat.zero_mul, Nat.zero_add, Nat.add_assoc]
    · have hfrom : wordsFrom (n + 2) (hi :: lo :: rest) = wordsFrom n rest := by
        simp only [wordsFrom, List.drop_succ_cons, List.replicate_succ, List.cons_append, words,
          hzero, Nat.zero_mul, Nat.zero_add]
      rw [hfrom, List.take_succ_cons, List.take_succ_cons, words, ih n]
      omega

theorem wordsFrom_congr (h : b.drop n = c.drop n) : wordsFrom n b = wordsFrom n c := by
  rw [wordsFrom, h, wordsFrom]

theorem wordsFrom_length (b : Bytes) : wordsFrom b.length b = 0 := by
  rw [wordsFrom, List.drop_length, List.append_nil, words_replicate_zero]

/-! ## Checksums as sums -/

/-- The sum of the words that a segment's checksum covers: addresses, protocol, length and bytes. -/
def segmentWords (src dst : Ipv4Addr) (protocol : UInt8) (b : Bytes) : Nat :=
  words (src.octets ++ dst.octets ++ [0, protocol]) + b.length + words b

theorem words_pseudoHeader (src dst : Ipv4Addr) (protocol : UInt8) (h : n < 65536) :
    words (pseudoHeader src dst protocol n) =
      words (src.octets ++ dst.octets ++ [0, protocol]) + n := by
  have hlength : words (bytes16 (UInt16.ofNat n)) = n := by
    simp only [bytes16, words, UInt16.toNat_ofNat', UInt8.toNat_ofNat']
    omega
  rw [pseudoHeader, words_append (by simp), hlength]

theorem foldCarries_eq_zero_iff : foldCarries n = 0 ↔ n = 0 := by
  simp only [foldCarries, addCarries]
  omega

/-- **A segment has the checksum zero exactly if what it covers is a positive multiple of 65535.** -/
theorem segmentChecksum_eq_zero_iff (hlen : b.length ≤ 65535) :
    segmentChecksum src dst protocol b = 0 ↔
      0 < segmentWords src dst protocol b ∧ segmentWords src dst protocol b % 65535 = 0 := by
  have hpseudo := words_pseudoHeader src dst protocol (Nat.lt_succ_of_le hlen)
  have hstart : onesSum 0 (pseudoHeader src dst protocol b.length) =
      foldCarries (words (pseudoHeader src dst protocol b.length)) := by
    rw [onesSum_eq (by decide) (by simp [pseudoHeader]), Nat.zero_add]
  have hlt := onesSum_lt 0 (pseudoHeader src dst protocol b.length)
  have hmod := foldCarries_mod (words (pseudoHeader src dst protocol b.length))
  have hle := foldCarries_le (words (pseudoHeader src dst protocol b.length))
  have hwords := words_le b
  have hpos := foldCarries_eq_zero_iff (n := words (pseudoHeader src dst protocol b.length))
  rw [hpseudo] at hstart hmod hle hpos
  rw [segmentChecksum, complement_eq_zero_iff (onesSum_lt ..), onesSum_eq hlt hlen,
    foldCarries_eq_ones (by omega), segmentWords, hstart]
  omega

/-! ## Datagrams -/

namespace Udp

/-- The datagram at the start of a byte string, which ends where its length field says. -/
def delimited (b : Bytes) : Bytes :=
  b.take (word16At b 4).toNat

/-- A byte string is long enough for its datagram, and that for its header. -/
def Delimits (b : Bytes) : Prop :=
  headerLength ≤ (word16At b 4).toNat ∧ (word16At b 4).toNat ≤ b.length

theorem delimits_of_parse {g : Datagram} (h : parse b = .ok g) : Delimits b :=
  (parse_eq_ok.1 h).1.2

/-- A datagram is read from its own bytes. -/
theorem payload_of_parse {g : Datagram} (h : parse b = .ok g) :
    g.payload = (delimited b).drop headerLength :=
  (congrArg Datagram.payload (parse_eq_ok.1 h).2).symm

section

variable (h : Delimits b)

include h

theorem length_delimited : (delimited b).length = (word16At b 4).toNat := by
  rw [delimited, List.length_take]
  exact Nat.min_eq_left h.2

theorem lacksChecksum_delimited : lacksChecksum (delimited b) = lacksChecksum b := by
  have hmin : 8 ≤ (word16At b 4).toNat := h.1
  unfold lacksChecksum delimited
  rw [word16At_congr (b := b.take (word16At b 4).toNat) (c := b) (i := 6) (j := 6)
    fun k hk => byteAt_take (by omega)]

end

/-- Refreshment leaves what stands after a datagram, and the length that tells where. -/
theorem length_field_refreshChecksum (b : Bytes) (src dst : Ipv4Addr) :
    word16At (refreshChecksum b src dst) 4 = word16At b 4 :=
  word16At_refreshChecksum (by decide) b src dst

theorem Delimits.refreshChecksum (h : Delimits b) (src dst : Ipv4Addr) :
    Delimits (refreshChecksum b src dst) := by
  rw [Delimits, length_field_refreshChecksum, length_refreshChecksum]
  exact h

/-- **The refreshed checksum is that of the datagram exactly if what stands after it, and the number
of those bytes, add up to a multiple of 65535**, because it was refreshed over all of the string. -/
theorem checksumValid_delimited_refreshChecksum (h : Delimits b) (hlen : b.length ≤ 65535)
    (hsum : lacksChecksum b = false) (src dst : Ipv4Addr) :
    checksumValid (delimited (refreshChecksum b src dst)) src dst = true ↔
      (b.length - (word16At b 4).toNat + wordsFrom (word16At b 4).toNat b) % 65535 = 0 := by
  have hmin : 8 ≤ (word16At b 4).toNat := h.1
  have hfits := h.2
  have hrefreshed := h.refreshChecksum src dst
  have hlacks : lacksChecksum (refreshChecksum b src dst) = false := by
    rw [lacksChecksum_refreshChecksum src dst (Nat.le_trans h.1 h.2), hsum]
  have hrest : wordsFrom (word16At b 4).toNat (refreshChecksum b src dst) =
      wordsFrom (word16At b 4).toNat b := by
    refine wordsFrom_congr ?_
    have hdrop := congrArg (List.drop ((word16At b 4).toNat - headerLength))
      (drop_refreshChecksum b src dst)
    rwa [List.drop_drop, List.drop_drop, Nat.add_sub_cancel' h.1] at hdrop
  -- over all of the string the checksum is right
  have hall : 0 < segmentWords src dst Protocol.udp.number (refreshChecksum b src dst) ∧
      segmentWords src dst Protocol.udp.number (refreshChecksum b src dst) % 65535 = 0 := by
    have hvalid := checksumValid_refreshChecksum src dst (Nat.le_trans h.1 h.2) hlen
    rw [checksumValid, hlacks, Bool.false_or] at hvalid
    exact (segmentChecksum_eq_zero_iff (by rwa [length_refreshChecksum])).1 (eq_of_beq hvalid)
  have hpos : 17 ≤ words (src.octets ++ dst.octets ++ [0, Protocol.udp.number]) := by
    rw [words_append (by simp)]
    exact Nat.le_add_left ..
  have hsplit := words_eq_add_wordsFrom (word16At b 4).toNat (refreshChecksum b src dst)
  rw [checksumValid, lacksChecksum_delimited hrefreshed, hlacks, Bool.false_or, beq_iff_eq,
    segmentChecksum_eq_zero_iff (by
      rw [length_delimited hrefreshed, length_field_refreshChecksum]
      exact Nat.le_of_lt_succ (UInt16.toNat_lt _)), segmentWords, length_delimited hrefreshed,
    delimited, length_field_refreshChecksum]
  rw [segmentWords, length_refreshChecksum, hsplit, hrest] at hall
  omega

/-- Other ports leave the length of a datagram and what stands after it. -/
theorem length_field_withPorts (b : Bytes) (s d : UInt16) :
    word16At (withPorts b s d) 4 = word16At b 4 := by
  unfold withPorts
  rw [word16At_overwrite_of_disjoint (by simp), word16At_overwrite_of_disjoint (by simp)]

theorem drop_withPorts (b : Bytes) (s d : UInt16) (hn : 4 ≤ n) :
    (withPorts b s d).drop n = b.drop n := by
  unfold withPorts
  rw [drop_overwrite_of_le (by simpa using hn), drop_overwrite_of_le (by simp; omega)]

end Udp

/-! ## Translated packets -/

namespace Ipv4.Packet

/-- **A translated datagram is valid for its receiver exactly if nothing that stands after it in the
packet weighs in**: it is read from the bytes that its length field delimits, it has a checksum, and
this is right for the new addresses if and only if the bytes after it, as words, and their number
add up to a multiple of 65535.  So it is where the datagram fills the packet. -/
theorem checksumValid_delimited_translate {p : Packet} {flow : PacketFlow}
    (hflow : PacketFlow.ofPayload? p.src p.dst p.payload .udp = some flow)
    (hsum : Udp.lacksChecksum p.payload = false) (new : Flow) :
    let length := (word16At p.payload 4).toNat
    let datagram := Udp.delimited (p.translate .udp new).payload
    (Udp.headerLength ≤ length ∧ length ≤ p.payload.length) ∧
      Udp.parse (p.translate .udp new).payload = .ok {
        srcPort := new.srcPort, dstPort := new.dstPort
        payload := datagram.drop Udp.headerLength } ∧
      datagram.length = length ∧ Udp.lacksChecksum datagram = false ∧
      (Udp.checksumValid datagram new.srcIp new.dstIp = true ↔
        (p.payload.length - length + wordsFrom length p.payload) % 65535 = 0) ∧
      (p.payload.length = length → Udp.checksumValid datagram new.srcIp new.dstIp = true) := by
  intro length datagram
  obtain ⟨g, hparse⟩ : ∃ g, Udp.parse p.payload = .ok g := by
    dsimp only [PacketFlow.ofPayload?] at hflow
    split at hflow
    · exact ⟨_, by assumption⟩
    · cases hflow
  have hpayload : (p.translate .udp new).payload =
      Udp.refreshChecksum (Udp.withPorts p.payload new.srcPort new.dstPort) new.srcIp new.dstIp :=
    payload_translate ..
  have hlength := Udp.length_field_withPorts p.payload new.srcPort new.dstPort
  have hdelimits : Udp.Delimits (Udp.withPorts p.payload new.srcPort new.dstPort) := by
    rw [Udp.Delimits, hlength, Udp.length_withPorts]
    exact Udp.delimits_of_parse hparse
  have hvalid := Udp.checksumValid_delimited_refreshChecksum hdelimits
    (by rw [Udp.length_withPorts]; exact p.length_payload_le)
    (by rw [Udp.lacksChecksum_withPorts, hsum]) new.srcIp new.dstIp
  rw [hlength, Udp.length_withPorts, wordsFrom_congr (c := p.payload)
    (Udp.drop_withPorts _ _ _ (Nat.le_trans (by decide) (Udp.delimits_of_parse hparse).1)),
    ← hpayload] at hvalid
  have hdelimits' : Udp.Delimits (p.translate .udp new).payload :=
    hpayload ▸ hdelimits.refreshChecksum new.srcIp new.dstIp
  have hlength' : word16At (p.translate .udp new).payload 4 = word16At p.payload 4 := by
    rw [hpayload, Udp.length_field_refreshChecksum, hlength]
  have htranslated := Udp.parse_translated hparse new.srcPort new.dstPort new.srcIp new.dstIp
  rw [← hpayload] at htranslated
  refine ⟨Udp.delimits_of_parse hparse, ?_, ?_, ?_, hvalid, fun hfills => hvalid.2 ?_⟩
  · rw [htranslated, ← Udp.payload_of_parse htranslated]
  · rw [Udp.length_delimited hdelimits', hlength']
  · rw [Udp.lacksChecksum_delimited hdelimits', hpayload,
      Udp.lacksChecksum_refreshChecksum _ _ (Nat.le_trans hdelimits.1 hdelimits.2),
      Udp.lacksChecksum_withPorts, hsum]
  · have hfills : p.payload.length = (word16At p.payload 4).toNat := hfills
    rw [← hfills, Nat.sub_self, wordsFrom_length]

/-! ### A datagram with a trailer -/

namespace Trailer

/-- A packet with a datagram and bytes after it. -/
def bytes (trailer : Bytes) : Bytes :=
  let src : Ipv4Addr := .ofOctets 10 0 0 2
  let dst : Ipv4Addr := .ofOctets 10 0 1 2
  Draft.build { src, dst, protocolNumber := Protocol.udp.number }
    (Udp.build src dst { srcPort := 40000, dstPort := 53, payload := [] } ++ trailer)

/-- The packet with two zeros after its datagram. -/
def padded : Packet where
  bytes := bytes [0, 0]
  version_eq := by decide +kernel
  minHeaderLength_le := by decide +kernel
  headerLength_le := by decide +kernel
  totalLength_eq := by decide +kernel

/-- The packet with two bytes after its datagram that make up for their number. -/
def balanced : Packet where
  bytes := bytes [0xff, 0xfd]
  version_eq := by decide +kernel
  minHeaderLength_le := by decide +kernel
  headerLength_le := by decide +kernel
  totalLength_eq := by decide +kernel

/-- The flow that the packet takes on. -/
def translated : Flow where
  srcIp := .ofOctets 10 0 1 1
  srcPort := 49152
  dstIp := .ofOctets 10 0 1 2
  dstPort := 53

/-- The flow of the packet. -/
def flow : PacketFlow where
  key := {
    protocol := .udp
    flow := {
      srcIp := .ofOctets 10 0 0 2, srcPort := 40000, dstIp := .ofOctets 10 0 1 2, dstPort := 53 } }

end Trailer

/-- Two bytes that make up for their number leave a translated datagram valid. -/
theorem checksumValid_delimited_balanced :
    PacketFlow.ofPayload? Trailer.balanced.src Trailer.balanced.dst Trailer.balanced.payload .udp =
        some Trailer.flow ∧
      Udp.lacksChecksum Trailer.balanced.payload = false ∧
      Trailer.balanced.payload.length = (word16At Trailer.balanced.payload 4).toNat + 2 ∧
      Udp.checksumValid (Udp.delimited (Trailer.balanced.translate .udp Trailer.translated).payload)
        Trailer.translated.srcIp Trailer.translated.dstIp = true := by
  have hflow : PacketFlow.ofPayload? Trailer.balanced.src Trailer.balanced.dst
      Trailer.balanced.payload .udp = some Trailer.flow := by
    decide +kernel
  have hsum : Udp.lacksChecksum Trailer.balanced.payload = false := by decide +kernel
  obtain ⟨-, -, -, -, hvalid, -⟩ :=
    checksumValid_delimited_translate hflow hsum Trailer.translated
  exact ⟨hflow, hsum, by decide +kernel, hvalid.2 (by decide +kernel)⟩

/-- **Two zeros after a datagram spoil its checksum**, which was right before the translation. -/
theorem checksum_spoiled_padded : PacketFlow.ofPacket? Trailer.padded = some Trailer.flow ∧
    Udp.lacksChecksum Trailer.padded.payload = false ∧
    Udp.checksumValid (Udp.delimited Trailer.padded.payload) Trailer.padded.src Trailer.padded.dst =
      true ∧
    Udp.checksumValid (Udp.delimited (Trailer.padded.translate .udp Trailer.translated).payload)
      Trailer.translated.srcIp Trailer.translated.dstIp = false := by
  decide +kernel

end Ipv4.Packet

end SegmentRouter.Wire
