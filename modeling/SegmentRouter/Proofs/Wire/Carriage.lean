import SegmentRouter.Proofs.Router.Verdicts
import SegmentRouter.Proofs.Wire.Checksum

/-!
# Proofs/Wire/Carriage — what a packet keeps on its way

A packet that goes a hop further keeps its length; it has one hop less to go, and a header whose
checksum is right (`Hopped`).  A packet that a rule for addresses passes keeps every other byte
(`Passed`).  A packet of a link takes the addresses and ports of the link's other end, and the
transport checksum that these need; it keeps every byte that says none of this (`Carried`).
-/

namespace SegmentRouter

open Wire (Bytes Protocol byteAt overwrite)
open Wire (byteAt_overwrite byteAt_overwrite_of_lt byteAt_overwrite_of_disjoint byteAt_drop)

namespace Wire

/-! ## Payloads -/

/-- The bytes of a transport header that name a flow, and those of the transport checksum: the ports
of a TCP segment or a UDP datagram, the identifier of an ICMP echo. -/
def Protocol.Marks : Protocol → Nat → Prop
  | .tcp, i => i < 4 ∨ i = 16 ∨ i = 17
  | .udp, i => i < 4 ∨ i = 6 ∨ i = 7
  | .icmp, i => 2 ≤ i ∧ i < 6

/-- The checksum of a payload between two addresses is right, and a datagram that had none has none
still. -/
def Protocol.SumsUp (protocol : Protocol) (src dst : Ipv4Addr) (before after : Bytes) : Prop :=
  match protocol with
  | .tcp => Tcp.checksumValid after src dst = true
  | .udp => Udp.lacksChecksum after = Udp.lacksChecksum before ∧
      Udp.checksumValid after src dst = true
  | .icmp => Icmp.checksumValid after = true

/-- A datagram keeps its checksum field when it is given other ports. -/
theorem Udp.lacksChecksum_withPorts (b : Bytes) (s d : UInt16) :
    Udp.lacksChecksum (Udp.withPorts b s d) = Udp.lacksChecksum b := by
  unfold Udp.lacksChecksum Udp.withPorts
  rw [word16At_overwrite_of_disjoint (by simp), word16At_overwrite_of_disjoint (by simp)]

/-- **The packet in a byte string is as long as its length field says**; padding is not part of it. -/
theorem Ipv4.bytes_of_parse {b : Bytes} {p : Ipv4.Packet} (h : parse b = .ok p) :
    p.bytes = b.take (totalLengthOf b) ∧ p.bytes.length = totalLengthOf b := by
  unfold parse at h
  split at h
  · cases h
  · split at h
    · split at h
      · rename_i hlengths
        obtain rfl := Except.ok.inj h
        refine ⟨rfl, ?_⟩
        rw [List.length_take]
        omega
      · cases h
    · cases h

namespace Ipv4.Packet

variable {p q : Packet} {protocol : Protocol} {new : Flow} {i : Nat}

/-- **A translated payload keeps every byte that does not name its flow or check it.** -/
theorem byteAt_translatePayload (new : Flow) (b : Bytes) (h : ¬ protocol.Marks i) :
    byteAt (translatePayload new b protocol) i = byteAt b i := by
  cases protocol with
  | tcp =>
    have hmarks : ¬ (i < 4 ∨ i = 16 ∨ i = 17) := h
    unfold translatePayload Tcp.refreshChecksum Tcp.withPorts
    rw [byteAt_overwrite_of_disjoint (by simp; omega),
      byteAt_overwrite_of_disjoint (by simp; omega),
      byteAt_overwrite_of_disjoint (by simp; omega), byteAt_overwrite_of_disjoint (by simp; omega)]
  | udp =>
    have hmarks : ¬ (i < 4 ∨ i = 6 ∨ i = 7) := h
    have hports : byteAt (Udp.withPorts b new.srcPort new.dstPort) i = byteAt b i := by
      unfold Udp.withPorts
      rw [byteAt_overwrite_of_disjoint (by simp; omega),
        byteAt_overwrite_of_disjoint (by simp; omega)]
    dsimp only [translatePayload]
    unfold Udp.refreshChecksum
    split
    · exact hports
    · rw [byteAt_overwrite_of_disjoint (by simp; omega),
        byteAt_overwrite_of_disjoint (by simp; omega), hports]
  | icmp =>
    have hmarks : ¬ (2 ≤ i ∧ i < 6) := h
    unfold translatePayload Icmp.refreshChecksum Icmp.withIdentifier
    rw [byteAt_overwrite_of_disjoint (by simp; omega),
      byteAt_overwrite_of_disjoint (by simp; omega), byteAt_overwrite_of_disjoint (by simp; omega)]

/-- **A translated payload has the checksum that its new addresses and ports need.** -/
theorem sumsUp_translatePayload {src dst : Ipv4Addr} {b : Bytes} {flow : PacketFlow}
    (h : PacketFlow.ofPayload? src dst b protocol = some flow) (hlen : b.length ≤ 65535)
    (new : Flow) :
    protocol.SumsUp new.srcIp new.dstIp b (translatePayload new b protocol) := by
  cases protocol with
  | tcp =>
    dsimp only [PacketFlow.ofPayload?] at h
    split at h
    · rename_i header hparse
      have hmin := (Tcp.parse_eq_ok.1 hparse).1.1
      exact Tcp.checksumValid_refreshChecksum _ _ (by rwa [Tcp.length_withPorts])
    · cases h
  | udp =>
    dsimp only [PacketFlow.ofPayload?] at h
    split at h
    · rename_i datagram hparse
      have hmin := (Udp.parse_eq_ok.1 hparse).1.1
      refine ⟨?_, Udp.checksumValid_refreshChecksum _ _ (by rwa [Udp.length_withPorts])
        (by rwa [Udp.length_withPorts])⟩
      rw [translatePayload, Udp.lacksChecksum_refreshChecksum _ _ (by rwa [Udp.length_withPorts]),
        Udp.lacksChecksum_withPorts]
    · cases h
  | icmp =>
    dsimp only [PacketFlow.ofPayload?] at h
    split at h
    · rename_i message hparse
      have hmin := (Icmp.parse_eq_ok.1 hparse).1
      exact Icmp.checksumValid_refreshChecksum (by rwa [Icmp.length_withIdentifier])
    · cases h

/-! ## Packets -/

/-- A packet is another one a hop further: as long as it, with one hop less to go, and with a header
whose checksum is right. -/
structure Hopped (p q : Packet) : Prop where
  length : q.bytes.length = p.bytes.length
  ttl : q.ttl.toNat + 1 = p.ttl.toNat
  alive : 1 ≤ q.ttl.toNat
  checksum : q.headerChecksumValid = true

/-- **A packet is another one a hop further, unchanged**: no byte differs but the hops left and the
header's checksum. -/
structure Passed (p q : Packet) : Prop extends Hopped p q where
  bytes : ∀ i, i ≠ 8 → i ≠ 10 → i ≠ 11 → byteAt q.bytes i = byteAt p.bytes i

/-- **A packet is another one of a given flow a hop further, with the addresses and ports of a new
flow**: no byte differs but the hops left, the header's checksum, the addresses, and what marks the
transport header; and the transport checksum is right. -/
structure Carried (flow : PacketFlow) (new : Flow) (p q : Packet) : Prop extends Hopped p q where
  bytes : ∀ i, i ≠ 8 → ¬ (10 ≤ i ∧ i < 20) →
    ¬ (p.headerLength ≤ i ∧ flow.key.protocol.Marks (i - p.headerLength)) →
    byteAt q.bytes i = byteAt p.bytes i
  src : q.src = new.srcIp
  dst : q.dst = new.dstIp
  flow_eq : PacketFlow.ofPacket? q = some { flow with key := ⟨flow.key.protocol, new⟩ }
  sumsUp : flow.key.protocol.SumsUp new.srcIp new.dstIp p.payload q.payload

theorem length_le (p : Packet) : p.bytes.length ≤ 65535 := by
  rw [← p.totalLength_eq]
  exact Nat.le_of_lt_succ (UInt16.toNat_lt _)

theorem length_payload_le (p : Packet) : p.payload.length ≤ 65535 := by
  have := p.length_le
  rw [payload, List.length_drop]
  omega

theorem ttl_nextHop? (h : p.nextHop? = some q) : q.ttl.toNat = p.ttl.toNat - 1 := by
  obtain ⟨httl, rfl⟩ := nextHop?_eq_some.1 h
  have hwritten : byteAt (overwrite p.bytes 8 [p.ttl - 1]) (8 + 0) = p.ttl - 1 :=
    byteAt_overwrite (Nat.zero_lt_one) (by have := p.length_ge; omega)
  have hone : (1 : UInt8) ≤ p.ttl := UInt8.le_iff_toNat_le.2 (Nat.le_of_lt httl)
  have hwritten : (p.edit 8 [p.ttl - 1] (by decide)).refreshChecksum.ttl = p.ttl - 1 :=
    (byteAt_refreshChecksum _ (.inl (by decide))).trans hwritten
  rw [hwritten, UInt8.toNat_sub_of_le _ _ hone]
  rfl

theorem hopped_nextHop? (h : p.nextHop? = some q) : p.Hopped q := by
  have hone := ttl_nextHop? h
  obtain ⟨httl, rfl⟩ := nextHop?_eq_some.1 h
  refine ⟨?_, by omega, by omega, headerChecksumValid_refreshChecksum _⟩
  simp [refreshChecksum]

/-- **One hop further nothing else changes.** -/
theorem passed_nextHop? (h : p.nextHop? = some q) : p.Passed q where
  toHopped := hopped_nextHop? h
  bytes i h8 h10 h11 := byteAt_nextHop? h (by omega)

theorem headerLength_translate (p : Packet) (protocol : Protocol) (new : Flow) :
    (p.translate protocol new).headerLength = p.headerLength := by
  rw [headerLength, Ipv4.headerLengthOf, byteAt_translate _ _ _ (by decide)]
  rfl

theorem length_translate (p : Packet) (protocol : Protocol) (new : Flow) :
    (p.translate protocol new).bytes.length = p.bytes.length := by
  simp [translate, writePayload, withDst, withSrc, refreshChecksum]

/-- Translation leaves the options of a header. -/
theorem byteAt_translate_options (h : 20 ≤ i) (hi : i < p.headerLength) :
    byteAt (p.translate protocol new).bytes i = byteAt p.bytes i := by
  have hlength : ((p.withSrc new.srcIp).withDst new.dstIp).headerLength = p.headerLength := by
    rw [headerLength, Ipv4.headerLengthOf, byteAt_withDst _ _ (by omega),
      byteAt_withSrc _ _ (by omega)]
    rfl
  rw [translate, writePayload, bytes_edit, byteAt_overwrite_of_lt (by omega),
    byteAt_withDst _ _ (by omega), byteAt_withSrc _ _ (by omega)]

theorem byteAt_payload (p : Packet) (i : Nat) :
    byteAt p.payload i = byteAt p.bytes (p.headerLength + i) :=
  byteAt_drop ..

/-- **Translation keeps every byte that says nothing of addresses, ports and checksums.** -/
theorem byteAt_translate_of_not_marks (h : ¬ (10 ≤ i ∧ i < 20))
    (hmarks : ¬ (p.headerLength ≤ i ∧ protocol.Marks (i - p.headerLength))) :
    byteAt (p.translate protocol new).bytes i = byteAt p.bytes i := by
  by_cases hi : i < p.headerLength
  · by_cases hfixed : i < 10
    · exact byteAt_translate _ _ _ hfixed
    · exact byteAt_translate_options (by omega) hi
  · obtain ⟨k, rfl⟩ : ∃ k, i = p.headerLength + k := ⟨i - p.headerLength, by omega⟩
    rw [Nat.add_sub_cancel_left] at hmarks
    have hk : ¬ protocol.Marks k := fun hk => hmarks ⟨by omega, hk⟩
    rw [← byteAt_payload, ← p.headerLength_translate protocol new, ← byteAt_payload,
      payload_translate, byteAt_translatePayload _ _ hk]

/-- **The header of a translated packet has the right checksum.** -/
theorem headerChecksumValid_translate (p : Packet) (protocol : Protocol) (new : Flow) :
    (p.translate protocol new).headerChecksumValid = true := by
  have hheader : ∀ (p : Packet) (v : Bytes), (p.writePayload 0 v).header = p.header := fun p v => by
    rw [header, header, writePayload, headerLength_edit, bytes_edit]
    refine Wire.ext_byteAt (by simp) fun k hk => ?_
    have hk : k < p.headerLength := by
      rw [List.length_take] at hk
      omega
    rw [Wire.byteAt_take hk, Wire.byteAt_take hk, byteAt_overwrite_of_lt (by omega)]
  rw [headerChecksumValid, translate, hheader]
  exact headerChecksumValid_refreshChecksum _

theorem Hopped.translate (h : p.Hopped q) (protocol : Protocol) (new : Flow) :
    p.Hopped (q.translate protocol new) := by
  have httl : (q.translate protocol new).ttl = q.ttl := byteAt_translate _ _ _ (by decide)
  refine ⟨(length_translate ..).trans h.length, ?_, ?_, headerChecksumValid_translate ..⟩
  · rw [httl, h.ttl]
  · rw [httl]
    exact h.alive

/-- **A packet that goes a hop further over a link is carried**, if an echo is given one
identifier. -/
theorem carried_translate {flow : PacketFlow} (h : p.nextHop? = some q)
    (hflow : PacketFlow.ofPacket? p = some flow)
    (hecho : flow.key.protocol = .icmp → new.srcPort = new.dstPort) :
    p.Carried flow new (q.translate flow.key.protocol new) := by
  have hpassed := passed_nextHop? h
  have hnext : PacketFlow.ofPacket? q = some flow :=
    (PacketFlow.ofPacket?_nextHop? h).trans hflow
  have hlength : q.headerLength = p.headerLength := by
    rw [headerLength, Ipv4.headerLengthOf, byteAt_nextHop? h (.inl (by decide))]
    rfl
  exact {
    toHopped := hpassed.toHopped.translate ..
    bytes := fun i h8 haddresses hmarks => by
      rw [byteAt_translate_of_not_marks haddresses (hlength ▸ hmarks)]
      exact hpassed.bytes i h8 (by omega) (by omega)
    src := src_translate ..
    dst := dst_translate ..
    flow_eq := PacketFlow.ofPacket?_translate hnext hecho
    sumsUp := by
      rw [payload_translate, ← payload_nextHop? h]
      exact sumsUp_translatePayload (PacketFlow.ofPacket?_eq_some.1 hnext).2.2
        q.length_payload_le new }

end Ipv4.Packet

end Wire

end SegmentRouter
