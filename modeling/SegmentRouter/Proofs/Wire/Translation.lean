import SegmentRouter.Link.Translation
import SegmentRouter.Proofs.Wire.Fields

/-!
# Proofs/Wire/Translation — a translated packet has the flow that was written into it

A change of the header leaves the payload, and a change of the addresses leaves every field by which
a packet is told to be of a protocol and whole.  New ports leave what else is read of a transport
header.  So reading the flow of a translated packet gives the flow that was written
(`ofPacket?_translate`), with the control bits that it had.
-/

namespace SegmentRouter

open Wire (Bytes Protocol byteAt word16At overwrite)
open Wire (byteAt_overwrite_of_ge byteAt_overwrite_of_lt byteAt_overwrite_of_disjoint
  word16At_overwrite word16At_overwrite_of_disjoint drop_overwrite_of_le drop_overwrite_self)

/-! ## Transport headers -/

namespace Wire

variable {b : Bytes}

namespace Tcp

theorem parse_eq_ok {h : Header} : parse b = .ok h ↔
    (minHeaderLength ≤ b.length ∧ minHeaderLength ≤ (byteAt b 12).toNat / 16 * 4 ∧
      (byteAt b 12).toNat / 16 * 4 ≤ b.length) ∧
    { srcPort := word16At b 0, dstPort := word16At b 2, flags := ⟨byteAt b 13⟩ } = h := by
  unfold parse
  dsimp only
  split
  · exact ⟨nofun, fun he => by omega⟩
  · split
    · exact ⟨nofun, fun he => by omega⟩
    · rw [Except.ok.injEq, iff_and_self]
      exact fun _ => by omega

theorem word16At_refreshChecksum {i : Nat} (h : i + 2 ≤ 16) (b : Bytes) (src dst : Ipv4Addr) :
    word16At (refreshChecksum b src dst) i = word16At b i := by
  unfold refreshChecksum
  rw [word16At_overwrite_of_disjoint (.inl h), word16At_overwrite_of_disjoint (.inl h)]

/-- **Other ports are all that a segment's reader sees of new ones.** -/
theorem parse_translated {h : Header} (hb : parse b = .ok h) (s d : UInt16) (src dst : Ipv4Addr) :
    parse (refreshChecksum (withPorts b s d) src dst) =
      .ok { h with srcPort := s, dstPort := d } := by
  obtain ⟨hlen, rfl⟩ := parse_eq_ok.1 hb
  have hmin : 20 ≤ b.length := hlen.1
  have hbyte : ∀ i, 4 ≤ i → i < 16 →
      byteAt (refreshChecksum (withPorts b s d) src dst) i = byteAt b i := by
    intro i hge hlt
    unfold refreshChecksum withPorts
    rw [byteAt_overwrite_of_lt hlt, byteAt_overwrite_of_lt hlt,
      byteAt_overwrite_of_ge (by simpa using hge), byteAt_overwrite_of_ge (by simp; omega)]
  have hsrc : word16At (withPorts b s d) 0 = s := by
    unfold withPorts
    rw [word16At_overwrite_of_disjoint (by simp)]
    exact word16At_overwrite s (by omega)
  have hdst : word16At (withPorts b s d) 2 = d := word16At_overwrite d (by simp; omega)
  rw [parse_eq_ok, length_refreshChecksum, length_withPorts, hbyte 12 (by decide) (by decide),
    hbyte 13 (by decide) (by decide), word16At_refreshChecksum (by decide),
    word16At_refreshChecksum (by decide), hsrc, hdst]
  exact ⟨hlen, rfl⟩

end Tcp

namespace Udp

theorem parse_eq_ok {g : Datagram} : parse b = .ok g ↔
    (headerLength ≤ b.length ∧ headerLength ≤ (word16At b 4).toNat ∧
      (word16At b 4).toNat ≤ b.length) ∧
    { srcPort := word16At b 0, dstPort := word16At b 2
      payload := (b.take (word16At b 4).toNat).drop headerLength } = g := by
  unfold parse
  dsimp only
  split
  · exact ⟨nofun, fun he => by omega⟩
  · split
    · exact ⟨nofun, fun he => by omega⟩
    · rw [Except.ok.injEq, iff_and_self]
      exact fun _ => by omega

theorem word16At_refreshChecksum {i : Nat} (h : i + 2 ≤ 6) (b : Bytes) (src dst : Ipv4Addr) :
    word16At (refreshChecksum b src dst) i = word16At b i := by
  unfold refreshChecksum
  split
  · rfl
  · rw [word16At_overwrite_of_disjoint (.inl h), word16At_overwrite_of_disjoint (.inl h)]

theorem drop_refreshChecksum (b : Bytes) (src dst : Ipv4Addr) :
    (refreshChecksum b src dst).drop headerLength = b.drop headerLength := by
  unfold refreshChecksum
  split
  · rfl
  · rw [drop_overwrite_of_le (by simp [headerLength]),
      drop_overwrite_of_le (by simp [headerLength])]

/-- **Other ports are all that a datagram's reader sees of new ones.** -/
theorem parse_translated {g : Datagram} (hb : parse b = .ok g) (s d : UInt16)
    (src dst : Ipv4Addr) : parse (refreshChecksum (withPorts b s d) src dst) =
      .ok { g with srcPort := s, dstPort := d } := by
  obtain ⟨hlen, rfl⟩ := parse_eq_ok.1 hb
  have hmin : 8 ≤ b.length := hlen.1
  have hlength : word16At (withPorts b s d) 4 = word16At b 4 := by
    unfold withPorts
    rw [word16At_overwrite_of_disjoint (by simp), word16At_overwrite_of_disjoint (by simp)]
  have hsrc : word16At (withPorts b s d) 0 = s := by
    unfold withPorts
    rw [word16At_overwrite_of_disjoint (by simp)]
    exact word16At_overwrite s (by omega)
  have hdst : word16At (withPorts b s d) 2 = d := word16At_overwrite d (by simp; omega)
  have hrest : (withPorts b s d).drop headerLength = b.drop headerLength := by
    unfold withPorts
    rw [drop_overwrite_of_le (by simp [headerLength]),
      drop_overwrite_of_le (by simp [headerLength])]
  rw [parse_eq_ok, length_refreshChecksum, length_withPorts,
    word16At_refreshChecksum (by decide), word16At_refreshChecksum (by decide),
    word16At_refreshChecksum (by decide), hlength, hsrc, hdst, List.drop_take,
    drop_refreshChecksum, hrest, ← List.drop_take]
  exact ⟨hlen, rfl⟩

end Udp

namespace Icmp

theorem parse_eq_ok {m : Message} : parse b = .ok m ↔ headerLength ≤ b.length ∧
    { type := byteAt b 0, code := byteAt b 1, identifier := word16At b 4
      sequence := word16At b 6 } = m := by
  unfold parse
  split
  · exact ⟨nofun, fun he => by omega⟩
  · rw [Except.ok.injEq, iff_and_self]
    exact fun _ => by omega

theorem word16At_refreshChecksum {i : Nat} (h : 4 ≤ i) (b : Bytes) :
    word16At (refreshChecksum b) i = word16At b i := by
  unfold refreshChecksum
  rw [word16At_overwrite_of_disjoint (.inr h), word16At_overwrite_of_disjoint (.inr h)]

/-- **Another identifier is all that a message's reader sees of a new one.** -/
theorem parse_translated {m : Message} (hb : parse b = .ok m) (id : UInt16) :
    parse (refreshChecksum (withIdentifier b id)) = .ok { m with identifier := id } := by
  obtain ⟨hlen, rfl⟩ := parse_eq_ok.1 hb
  have hmin : 8 ≤ b.length := hlen
  have hbyte : ∀ i < 2, byteAt (refreshChecksum (withIdentifier b id)) i = byteAt b i := by
    intro i hi
    unfold refreshChecksum withIdentifier
    rw [byteAt_overwrite_of_lt hi, byteAt_overwrite_of_lt hi, byteAt_overwrite_of_lt (by omega)]
  have hid : word16At (withIdentifier b id) 4 = id := word16At_overwrite id (by omega)
  have hseq : word16At (withIdentifier b id) 6 = word16At b 6 :=
    word16At_overwrite_of_disjoint (by simp)
  rw [parse_eq_ok, length_refreshChecksum, length_withIdentifier, hbyte 0 (by decide),
    hbyte 1 (by decide), word16At_refreshChecksum (by decide),
    word16At_refreshChecksum (by decide), hid, hseq]
  exact ⟨hlen, rfl⟩

end Icmp

end Wire

/-! ## Payloads -/

namespace PacketFlow

open Wire.Ipv4.Packet (translatePayload)

variable {src dst : Ipv4Addr} {b : Bytes} {protocol : Protocol} {flow : PacketFlow}

/-- **A translated payload has the flow that was written**, if an echo was given one identifier. -/
theorem ofPayload?_translatePayload (h : ofPayload? src dst b protocol = some flow) {new : Flow}
    (hecho : protocol = .icmp → new.srcPort = new.dstPort) :
    ofPayload? new.srcIp new.dstIp (translatePayload new b protocol) protocol =
      some { flow with key := ⟨protocol, new⟩ } := by
  cases protocol with
  | tcp =>
    dsimp only [ofPayload?] at h
    split at h
    · rename_i header hparse
      obtain rfl := Option.some.inj h
      dsimp only [ofPayload?, translatePayload]
      rw [Wire.Tcp.parse_translated hparse]
    · cases h
  | udp =>
    dsimp only [ofPayload?] at h
    split at h
    · rename_i datagram hparse
      obtain rfl := Option.some.inj h
      dsimp only [ofPayload?, translatePayload]
      rw [Wire.Udp.parse_translated hparse]
    · cases h
  | icmp =>
    dsimp only [ofPayload?] at h
    split at h
    · rename_i message hparse
      split at h
      · rename_i his
        obtain rfl := Option.some.inj h
        obtain ⟨srcIp, port, dstIp, dstPort⟩ := new
        obtain rfl : port = dstPort := hecho rfl
        dsimp only [ofPayload?, translatePayload]
        rw [Wire.Icmp.parse_translated hparse]
        exact if_pos his
      · cases h
    · cases h

/-- What a flow that was read off a packet has of it. -/
structure Tells (flow : PacketFlow) (src dst : Ipv4Addr) (protocol : Protocol) : Prop where
  protocol_eq : flow.key.protocol = protocol
  srcIp : flow.key.flow.srcIp = src
  dstIp : flow.key.flow.dstIp = dst
  /-- An echo has one identifier for both ports. -/
  echo : protocol = .icmp → flow.key.flow.srcPort = flow.key.flow.dstPort
  initiates : protocol ≠ .icmp → flow.initiates = true

theorem tells_of_ofPayload? (h : ofPayload? src dst b protocol = some flow) :
    flow.Tells src dst protocol := by
  cases protocol with
  | tcp =>
    dsimp only [ofPayload?] at h
    split at h
    · obtain rfl := Option.some.inj h
      exact ⟨rfl, rfl, rfl, nofun, fun _ => rfl⟩
    · cases h
  | udp =>
    dsimp only [ofPayload?] at h
    split at h
    · obtain rfl := Option.some.inj h
      exact ⟨rfl, rfl, rfl, nofun, fun _ => rfl⟩
    · cases h
  | icmp =>
    dsimp only [ofPayload?] at h
    split at h
    · split at h
      · obtain rfl := Option.some.inj h
        exact ⟨rfl, rfl, rfl, fun _ => rfl, fun hne => absurd rfl hne⟩
      · cases h
    · cases h

end PacketFlow

/-! ## Packets -/

namespace Wire.Ipv4.Packet

variable (p : Packet) {i : Nat} (ip : Ipv4Addr) (protocol : Protocol) (new : Flow)

theorem payload_edit {offset : Nat} {v : Bytes} (h : 4 ≤ offset) (hv : offset + v.length ≤ 20) :
    (p.edit offset v h).payload = p.payload := by
  have hge := p.headerLength_ge
  rw [payload, headerLength_edit, bytes_edit, drop_overwrite_of_le (by omega), payload]

theorem byteAt_refreshChecksum (h : i < 10 ∨ 12 ≤ i) :
    byteAt p.refreshChecksum.bytes i = byteAt p.bytes i := by
  simp only [refreshChecksum, bytes_edit]
  rw [byteAt_overwrite_of_disjoint h, byteAt_overwrite_of_disjoint h]

theorem payload_refreshChecksum : p.refreshChecksum.payload = p.payload := by
  unfold refreshChecksum
  rw [payload_edit _ _ (by simp), payload_edit _ _ (by simp)]

theorem byteAt_withSrc (h : i < 10 ∨ 16 ≤ i) :
    byteAt (p.withSrc ip).bytes i = byteAt p.bytes i := by
  rw [withSrc, byteAt_refreshChecksum _ (by omega), bytes_edit,
    byteAt_overwrite_of_disjoint (by simp; omega)]

theorem byteAt_withDst (h : i < 10 ∨ 12 ≤ i ∧ i < 16 ∨ 20 ≤ i) :
    byteAt (p.withDst ip).bytes i = byteAt p.bytes i := by
  rw [withDst, byteAt_refreshChecksum _ (by omega), bytes_edit,
    byteAt_overwrite_of_disjoint (by simp; omega)]

theorem length_ge : 20 ≤ p.bytes.length :=
  Nat.le_trans p.headerLength_ge p.headerLength_le

theorem src_withSrc : (p.withSrc ip).src = ip := by
  have hkeep : (p.withSrc ip).src = ipAt (overwrite p.bytes 12 ip.octets) 12 :=
    ipAt_congr fun k hk => byteAt_refreshChecksum _ (by omega)
  exact hkeep.trans (ipAt_overwrite ip (by have := p.length_ge; omega))

theorem dst_withDst : (p.withDst ip).dst = ip := by
  have hkeep : (p.withDst ip).dst = ipAt (overwrite p.bytes 16 ip.octets) 16 :=
    ipAt_congr fun k hk => byteAt_refreshChecksum _ (by omega)
  exact hkeep.trans (ipAt_overwrite ip (by have := p.length_ge; omega))

theorem src_withDst : (p.withDst ip).src = p.src :=
  ipAt_congr fun k hk => byteAt_withDst p ip (by omega)

@[simp] theorem payload_withSrc : (p.withSrc ip).payload = p.payload := by
  rw [withSrc, payload_refreshChecksum, payload_edit _ _ (by simp)]

@[simp] theorem payload_withDst : (p.withDst ip).payload = p.payload := by
  rw [withDst, payload_refreshChecksum, payload_edit _ _ (by simp)]

/-! ### Other payloads -/

variable {v : Bytes}

/-- A new payload leaves the header. -/
theorem byteAt_writePayload (h : i < 20) : byteAt (p.writePayload 0 v).bytes i = byteAt p.bytes i :=
  byteAt_overwrite_of_lt (by have := p.headerLength_ge; omega)

/-- **A payload of the same length takes the place of the old one.** -/
theorem payload_writePayload (h : v.length = p.payload.length) :
    (p.writePayload 0 v).payload = v := by
  rw [payload, writePayload, headerLength_edit, bytes_edit, Nat.add_zero, drop_overwrite_self h]

theorem length_translatePayload (b : Bytes) :
    (translatePayload new b protocol).length = b.length := by
  cases protocol <;> simp [translatePayload]

/-! ### Translation -/

/-- Translation leaves the fields in front of the header's checksum. -/
theorem byteAt_translate (h : i < 10) :
    byteAt (p.translate protocol new).bytes i = byteAt p.bytes i := by
  rw [translate, byteAt_writePayload _ (by omega), byteAt_withDst _ _ (.inl h),
    byteAt_withSrc _ _ (.inl h)]

theorem src_translate : (p.translate protocol new).src = new.srcIp := by
  have hkeep : (p.translate protocol new).src = ((p.withSrc new.srcIp).withDst new.dstIp).src :=
    ipAt_congr fun k hk => byteAt_writePayload _ (by omega)
  rw [hkeep, src_withDst, src_withSrc]

theorem dst_translate : (p.translate protocol new).dst = new.dstIp := by
  have hkeep : (p.translate protocol new).dst = ((p.withSrc new.srcIp).withDst new.dstIp).dst :=
    ipAt_congr fun k hk => byteAt_writePayload _ (by omega)
  rw [hkeep, dst_withDst]

theorem payload_translate :
    (p.translate protocol new).payload = translatePayload new p.payload protocol := by
  rw [translate, payload_writePayload, payload_withDst, payload_withSrc]
  exact length_translatePayload ..

theorem isFragment_translate : (p.translate protocol new).isFragment = p.isFragment := by
  have hbyte : ∀ i < 10, byteAt (p.translate protocol new).bytes i = byteAt p.bytes i :=
    fun _ => p.byteAt_translate protocol new
  unfold isFragment isTrailingFragment fragmentOffset moreFragments
  rw [hbyte 6 (by decide), hbyte 7 (by decide)]

theorem protocol?_translate : (p.translate protocol new).protocol? = p.protocol? :=
  congrArg Protocol.ofNumber? (p.byteAt_translate protocol new (by decide))

end Wire.Ipv4.Packet

namespace PacketFlow

variable {p : Wire.Ipv4.Packet} {flow : PacketFlow} {new : Flow}

theorem ofPacket?_eq_some : ofPacket? p = some flow ↔ p.isFragment = false ∧
    p.protocol? = some flow.key.protocol ∧
    ofPayload? p.src p.dst p.payload flow.key.protocol = some flow := by
  unfold ofPacket?
  cases p.isFragment with
  | true => simp
  | false =>
    simp only [Bool.false_eq_true, if_false, true_and]
    constructor
    · intro h
      obtain ⟨protocol, hprotocol, hflow⟩ := Option.bind_eq_some_iff.1 h
      obtain rfl := (tells_of_ofPayload? hflow).protocol_eq
      exact ⟨hprotocol, hflow⟩
    · rintro ⟨hprotocol, hflow⟩
      rw [hprotocol]
      exact hflow

theorem tells_of_ofPacket? (h : ofPacket? p = some flow) :
    flow.Tells p.src p.dst flow.key.protocol :=
  tells_of_ofPayload? (ofPacket?_eq_some.1 h).2.2

/-- **A translated packet has the flow that was written into it**, if an echo was given one
identifier. -/
theorem ofPacket?_translate (h : ofPacket? p = some flow)
    (hecho : flow.key.protocol = .icmp → new.srcPort = new.dstPort) :
    ofPacket? (p.translate flow.key.protocol new) =
      some { flow with key := ⟨flow.key.protocol, new⟩ } := by
  obtain ⟨hwhole, hprotocol, hflow⟩ := ofPacket?_eq_some.1 h
  refine ofPacket?_eq_some.2 ⟨?_, ?_, ?_⟩
  · rw [Wire.Ipv4.Packet.isFragment_translate, hwhole]
  · rw [Wire.Ipv4.Packet.protocol?_translate, hprotocol]
  · rw [Wire.Ipv4.Packet.src_translate, Wire.Ipv4.Packet.dst_translate,
      Wire.Ipv4.Packet.payload_translate]
    exact ofPayload?_translatePayload hflow hecho

end PacketFlow

end SegmentRouter
