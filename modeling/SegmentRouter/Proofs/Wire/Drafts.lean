import SegmentRouter.Proofs.Wire.Twins
import SegmentRouter.Wire.Arp

/-!
# Proofs/Wire/Drafts — what is written reads back

Packets are written with length fields of 16 bits, which hold the lengths as long as these fit.  A
packet with a payload that fits reads back whole (`Draft.packet`), with the header that was drafted;
a datagram reads back with a checksum that is there and right (`Udp.parse_build`).  Segments and
echo requests have no length field; their checksums are right however long they are.  What an ARP
packet was read from is what it is written as (`Arp.build_of_parse`).
-/

namespace SegmentRouter.Wire

/-! ## ARP packets -/

/-- **An ARP packet reads back.** -/
theorem Arp.parse_build (p : Arp.Packet) : Arp.parse p.build = .ok p := by
  have hsender : ipAt p.build 14 = p.senderIp :=
    ipAt_of_drop (c := p.targetMac.octets ++ p.targetIp.octets) rfl
  have htarget : ipAt p.build 24 = p.targetIp := ipAt_of_drop (c := []) rfl
  have hoperation : word16At p.build 6 = p.operation.number :=
    word16At_of_drop (c := p.senderMac.octets ++ p.senderIp.octets ++ p.targetMac.octets ++
      p.targetIp.octets) rfl
  have hnumber : Operation.ofNumber? p.operation.number = some p.operation := by
    cases p.operation <;> rfl
  have hhardware : word16At p.build 0 = 1 := word16At_of_drop rfl
  have hprotocol : word16At p.build 2 = EtherType.ipv4.number := word16At_of_drop rfl
  unfold Arp.parse
  rw [hsender, htarget, hoperation, hnumber, hhardware, hprotocol]
  rfl

/-- **What an ARP packet was read from is what it is written as**, up to what stands behind it. -/
theorem Arp.build_of_parse {b : Bytes} {p : Arp.Packet} (h : Arp.parse b = .ok p) :
    p.build = b.take packetLength := by
  unfold Arp.parse at h
  split at h
  · cases h
  · rename_i hlength
    split at h
    · cases h
    · rename_i hkinds
      split at h
      · cases h
      · rename_i hlengths
        split at h
        · cases h
        · rename_i operation hoperation
          rw [not_or, Classical.not_not, Classical.not_not] at hkinds hlengths
          have hlong : 28 ≤ b.length := Nat.le_of_not_lt hlength
          have hnumber : operation.number = word16At b 6 := by
            unfold Operation.ofNumber? at hoperation
            grind [Operation.number]
          have hfixed : ([6, 4] : Bytes) = (b.drop 4).take 2 := by
            rw [take_drop_eq_map (by omega), ← hlengths.1, ← hlengths.2]
            rfl
          obtain rfl := Except.ok.inj h
          unfold Packet.build
          -- the fields stand one behind another from the first byte on
          rw [hnumber, ← hkinds.1, ← hkinds.2, hfixed, bytes16_word16At (by omega),
            bytes16_word16At (by omega), bytes16_word16At (by omega), octets_macAt (by omega),
            octets_ipAt (by omega), octets_macAt (by omega), octets_ipAt (by omega), List.drop_zero]
          simp only [← List.take_add]
          rfl

/-! ## Packets -/

namespace Ipv4.Draft

variable {d : Draft} {payload : Bytes}

theorem length_build (d : Draft) (payload : Bytes) :
    (d.build payload).length = minHeaderLength + payload.length :=
  List.length_append

theorem byteAt_build_zero (d : Draft) (payload : Bytes) : byteAt (d.build payload) 0 = 0x45 := rfl

theorem headerLengthOf_build (d : Draft) (payload : Bytes) :
    headerLengthOf (d.build payload) = minHeaderLength := by
  rw [headerLengthOf, byteAt_build_zero]
  rfl

theorem totalLengthOf_build (hlen : minHeaderLength + payload.length ≤ 65535) :
    totalLengthOf (d.build payload) = minHeaderLength + payload.length := by
  have hword : word16At (d.build payload) 2 = UInt16.ofNat (minHeaderLength + payload.length) :=
    word16At_of_drop rfl
  rw [totalLengthOf, hword, UInt16.toNat_ofNat']
  omega

/-- **A packet with a payload that fits.** -/
def packet (d : Draft) (payload : Bytes) (hlen : minHeaderLength + payload.length ≤ 65535) :
    Packet where
  bytes := d.build payload
  version_eq := by
    rw [byteAt_build_zero]
    rfl
  minHeaderLength_le := Nat.le_of_eq (headerLengthOf_build d payload).symm
  headerLength_le := by
    rw [headerLengthOf_build, length_build]
    exact Nat.le_add_right ..
  totalLength_eq := by rw [totalLengthOf_build hlen, length_build]

variable (hlen : minHeaderLength + payload.length ≤ 65535)

theorem headerLength_packet : (d.packet payload hlen).headerLength = minHeaderLength :=
  headerLengthOf_build d payload

theorem payload_packet : (d.packet payload hlen).payload = payload := by
  rw [Packet.payload, headerLength_packet]
  exact d.drop_build payload

theorem src_packet : (d.packet payload hlen).src = d.src :=
  ipAt_of_drop (c := d.dst.octets ++ payload) rfl

theorem dst_packet : (d.packet payload hlen).dst = d.dst :=
  ipAt_of_drop (c := payload) rfl

theorem ttl_packet : (d.packet payload hlen).ttl = d.ttl :=
  (rfl : byteAt (d.build payload) 8 = d.ttl)

theorem protocolNumber_packet : (d.packet payload hlen).protocolNumber = d.protocolNumber :=
  (rfl : byteAt (d.build payload) 9 = d.protocolNumber)

/-- Packets are drafted whole. -/
theorem isFragment_packet : (d.packet payload hlen).isFragment = false := by
  have hflags : byteAt (d.packet payload hlen).bytes 6 = 0x40 :=
    (rfl : byteAt (d.build payload) 6 = 0x40)
  have hoffset : byteAt (d.packet payload hlen).bytes 7 = 0 :=
    (rfl : byteAt (d.build payload) 7 = 0)
  unfold Packet.isFragment Packet.isTrailingFragment Packet.moreFragments Packet.fragmentOffset
  rw [hflags, hoffset]
  decide

/-- **The header of a packet has the right checksum.** -/
theorem headerChecksumValid_packet : (d.packet payload hlen).headerChecksumValid = true := by
  have hcleared : overwrite (d.header payload.length 0) 10 [0, 0] = d.header payload.length 0 := rfl
  have hwritten (sum : UInt16) : overwrite (d.header payload.length 0) 10 (bytes16 sum) =
      d.header payload.length sum := rfl
  have hsealed := checksum_sealed (b := d.header payload.length 0) (i := 10) (by decide)
    (by rw [length_header]; decide)
  rw [hcleared, hwritten, ← d.take_build payload] at hsealed
  rw [Packet.headerChecksumValid, beq_iff_eq]
  exact hsealed

end Ipv4.Draft

/-! ## Datagrams -/

namespace Udp

variable {src dst : Ipv4Addr} {d : Datagram}

theorem length_build (src dst : Ipv4Addr) (d : Datagram) :
    (build src dst d).length = headerLength + d.payload.length := by
  rw [build, length_refreshChecksum]
  simp only [List.length_append, length_bytes16, List.length_cons, List.length_nil, headerLength]

/-- **A datagram with a payload that fits reads back**, and has a checksum, which is right. -/
theorem parse_build (hlen : headerLength + d.payload.length ≤ 65535) :
    parse (build src dst d) = .ok d ∧ lacksChecksum (build src dst d) = false ∧
      checksumValid (build src dst d) src dst = true := by
  have hraw := length_build src dst d
  unfold build at hraw ⊢
  generalize hb : bytes16 d.srcPort ++ bytes16 d.dstPort ++
    bytes16 (UInt16.ofNat (headerLength + d.payload.length)) ++ [0xff, 0xff] ++ d.payload = b
    at hraw ⊢
  rw [length_refreshChecksum] at hraw
  have hmin : headerLength ≤ b.length := by omega
  have hlacks : lacksChecksum b = false := by
    rw [← hb, lacksChecksum, word16At_of_drop (w := 0xffff) (c := d.payload) rfl]
    rfl
  have hsrc : word16At b 0 = d.srcPort := by
    rw [← hb]
    exact word16At_of_drop rfl
  have hdst : word16At b 2 = d.dstPort := by
    rw [← hb]
    exact word16At_of_drop rfl
  have htotal : (word16At b 4).toNat = headerLength + d.payload.length := by
    have hword : word16At b 4 = UInt16.ofNat (headerLength + d.payload.length) := by
      rw [← hb]
      exact word16At_of_drop rfl
    rw [hword, UInt16.toNat_ofNat']
    omega
  have hpayload : b.drop headerLength = d.payload := by rw [← hb]; rfl
  have hkept : ∀ i, i + 2 ≤ 6 → word16At (refreshChecksum b src dst) i = word16At b i :=
    fun i hi => word16At_refreshChecksum hi b src dst
  refine ⟨parse_eq_ok.2 ?_, (lacksChecksum_refreshChecksum _ _ hmin).trans hlacks,
    checksumValid_refreshChecksum _ _ hmin (by omega)⟩
  rw [hkept 0 (by decide), hkept 2 (by decide), hkept 4 (by decide), htotal, length_refreshChecksum,
    hraw, List.take_of_length_le (by rw [length_refreshChecksum]; omega), drop_refreshChecksum, hpayload,
    hsrc, hdst]
  exact ⟨⟨by omega, by omega, by omega⟩, rfl⟩

end Udp

/-! ## Segments -/

namespace Tcp

/-- **A segment reads back**, with a checksum that is right. -/
theorem parse_build (d : Draft) (src dst : Ipv4Addr) (payload : Bytes) :
    parse (d.build src dst payload) =
        .ok { srcPort := d.srcPort, dstPort := d.dstPort, flags := ⟨d.flags⟩ } ∧
      checksumValid (d.build src dst payload) src dst = true := by
  unfold Draft.build
  generalize hb : bytes16 d.srcPort ++ bytes16 d.dstPort ++ bytes32 d.seq ++ bytes32 d.ack ++
    [0x50, d.flags] ++ bytes16 window ++ [0, 0, 0, 0] ++ payload = b
  have hmin : minHeaderLength ≤ b.length := by
    rw [← hb, List.length_append]
    exact Nat.le_add_right ..
  have hsrc : word16At b 0 = d.srcPort := by
    rw [← hb]
    exact word16At_of_drop rfl
  have hdst : word16At b 2 = d.dstPort := by
    rw [← hb]
    exact word16At_of_drop rfl
  have hoffset : byteAt b 12 = 0x50 := by rw [← hb]; rfl
  have hflags : byteAt b 13 = d.flags := by rw [← hb]; rfl
  have hkept (i : Nat) (hi : i < 16) : byteAt (refreshChecksum b src dst) i = byteAt b i := by
    unfold refreshChecksum
    rw [byteAt_overwrite_of_lt hi, byteAt_overwrite_of_lt hi]
  refine ⟨parse_eq_ok.2 ?_, checksumValid_refreshChecksum src dst hmin⟩
  rw [hkept 12 (by decide), hkept 13 (by decide), hoffset, hflags,
    word16At_refreshChecksum (by decide), word16At_refreshChecksum (by decide), hsrc, hdst,
    length_refreshChecksum]
  exact ⟨⟨hmin, by decide, hmin⟩, rfl⟩

end Tcp

/-! ## Echoes -/

namespace Icmp

/-- **An echo request reads back**, with a checksum that is right. -/
theorem parse_echoRequest (identifier sequence : UInt16) (payload : Bytes) :
    parse (echoRequest identifier sequence payload) =
        .ok { type := echoRequestType, code := 0, identifier, sequence } ∧
      checksumValid (echoRequest identifier sequence payload) = true := by
  unfold echoRequest
  generalize hb : [echoRequestType, 0, 0, 0] ++ bytes16 identifier ++ bytes16 sequence ++
    payload = b
  have hmin : headerLength ≤ b.length := by
    rw [← hb, List.length_append]
    exact Nat.le_add_right ..
  have htype : byteAt b 0 = echoRequestType := by rw [← hb]; rfl
  have hcode : byteAt b 1 = 0 := by rw [← hb]; rfl
  have hidentifier : word16At b 4 = identifier := by
    rw [← hb]
    exact word16At_of_drop rfl
  have hsequence : word16At b 6 = sequence := by
    rw [← hb]
    exact word16At_of_drop rfl
  refine ⟨parse_eq_ok.2 ?_, checksumValid_refreshChecksum hmin⟩
  rw [byteAt_refreshChecksum b (by decide) (by decide),
    byteAt_refreshChecksum b (by decide) (by decide), word16At_refreshChecksum (by decide),
    word16At_refreshChecksum (by decide), htype, hcode, hidentifier, hsequence,
    length_refreshChecksum]
  exact ⟨hmin, rfl⟩

/-- **A message is another one turned into a reply**: it differs from it in type and checksum at
most, and is of the reply's type with a checksum that is right. -/
structure Echoes (request reply : Bytes) : Prop where
  length : reply.length = request.length
  type : byteAt reply 0 = echoReplyType
  others : ∀ i, i ≠ 0 → i ≠ 2 → i ≠ 3 → byteAt reply i = byteAt request i
  valid : checksumValid reply = true

/-- **What asks for an echo is echoed.** -/
theorem echoes_of_parse {b : Bytes} {m : Message} (h : parse b = .ok m)
    (hm : m.isEchoRequest = true) : ∃ reply, echoReply b = .ok reply ∧ Echoes b reply := by
  have hmin : headerLength ≤ (overwrite b 0 [echoReplyType]).length := by
    rw [length_overwrite]
    exact (parse_eq_ok.1 h).1
  refine ⟨_, echoReply_of_parse h hm, ?_, ?_, fun i hi hi' hi'' => ?_,
    checksumValid_refreshChecksum hmin⟩
  · rw [length_refreshChecksum, length_overwrite]
  · rw [byteAt_refreshChecksum _ (by decide) (by decide)]
    have hfirst : 0 + 0 < b.length :=
      Nat.lt_of_lt_of_le (by decide : 0 + 0 < headerLength) (parse_eq_ok.1 h).1
    exact byteAt_overwrite (v := [echoReplyType]) Nat.zero_lt_one hfirst
  · rw [byteAt_refreshChecksum _ hi' hi'', byteAt_overwrite_of_ge]
    exact Nat.pos_of_ne_zero hi

end Icmp

/-! ## All formats -/

/-- **What is written reads back, in every format of the stack.**  A packet whose length fits reads
back from any bytes that start with it, a datagram whose length fits, a segment and an echo request
from their own, all of them with the right checksums; what asks for an echo is echoed; and an ARP
packet is written as what it was read from. -/
theorem drafts_read_back :
    (∀ (d : Ipv4.Draft) (payload padding : Bytes), Ipv4.minHeaderLength + payload.length ≤ 65535 →
      ∃ p, Ipv4.parse (d.build payload ++ padding) = .ok p ∧ p.src = d.src ∧ p.dst = d.dst ∧
        p.ttl = d.ttl ∧ p.protocolNumber = d.protocolNumber ∧ p.payload = payload ∧
        p.isFragment = false ∧ p.headerChecksumValid = true) ∧
    (∀ (src dst : Ipv4Addr) (d : Udp.Datagram), d.payload.length ≤ 65527 →
      Udp.parse (Udp.build src dst d) = .ok d ∧
        Udp.lacksChecksum (Udp.build src dst d) = false ∧
        Udp.checksumValid (Udp.build src dst d) src dst = true) ∧
    (∀ (d : Tcp.Draft) (src dst : Ipv4Addr) (payload : Bytes),
      Tcp.parse (d.build src dst payload) =
          .ok { srcPort := d.srcPort, dstPort := d.dstPort, flags := ⟨d.flags⟩ } ∧
        Tcp.checksumValid (d.build src dst payload) src dst = true) ∧
    (∀ (identifier sequence : UInt16) (payload : Bytes),
      Icmp.parse (Icmp.echoRequest identifier sequence payload) =
          .ok { type := Icmp.echoRequestType, code := 0, identifier, sequence } ∧
        Icmp.checksumValid (Icmp.echoRequest identifier sequence payload) = true ∧
        ∃ reply, Icmp.echoReply (Icmp.echoRequest identifier sequence payload) = .ok reply ∧
          Icmp.Echoes (Icmp.echoRequest identifier sequence payload) reply) ∧
    (∀ p : Arp.Packet, Arp.parse p.build = .ok p) ∧
    ∀ b p, Arp.parse b = .ok p → p.build = b.take Arp.packetLength := by
  refine ⟨fun d payload padding hlen => ?_, fun src dst d hlen => ?_, Tcp.parse_build,
    fun identifier sequence payload => ?_, Arp.parse_build, fun _ _ => Arp.build_of_parse⟩
  · exact ⟨d.packet payload hlen, Ipv4.parse_append (d.packet payload hlen) padding,
      Ipv4.Draft.src_packet hlen, Ipv4.Draft.dst_packet hlen, Ipv4.Draft.ttl_packet hlen,
      Ipv4.Draft.protocolNumber_packet hlen, Ipv4.Draft.payload_packet hlen,
      Ipv4.Draft.isFragment_packet hlen, Ipv4.Draft.headerChecksumValid_packet hlen⟩
  · exact Udp.parse_build (by rw [Udp.headerLength]; omega)
  · obtain ⟨hread, hvalid⟩ := Icmp.parse_echoRequest identifier sequence payload
    exact ⟨hread, hvalid, Icmp.echoes_of_parse hread rfl⟩

/-- A question with a name of an odd length. -/
def nameQuery : Udp.Datagram := { srcPort := 5353, dstPort := 53, payload := [119, 119, 119] }

/-- The packets that carry questions. -/
def queryDraft : Ipv4.Draft :=
  { src := .ofOctets 10 0 1 50, dst := .ofOctets 8 8 8 8, protocolNumber := Protocol.udp.number }

/-- The question between the addresses of its packet. -/
def queryDatagram : Bytes := Udp.build queryDraft.src queryDraft.dst nameQuery

/-- A station's answer to who asked for its address. -/
def routerAnswer : Arp.Packet :=
  { operation := .reply
    senderMac := ⟨2, 0, 0, 0, 0, 1⟩, senderIp := .ofOctets 10 0 1 1
    targetMac := ⟨2, 0, 0, 0, 0, 2⟩, targetIp := .ofOctets 10 0 1 50 }

theorem drafts_read_back_nameQuery :
    (∃ p, Ipv4.parse (queryDraft.build queryDatagram ++ [0, 0, 0]) = .ok p ∧
      p.payload = queryDatagram ∧ p.headerChecksumValid = true) ∧
    Udp.parse queryDatagram = .ok nameQuery ∧
    ∃ p, Arp.parse (routerAnswer.build ++ [0, 0]) = .ok p ∧
      p.build = (routerAnswer.build ++ [0, 0]).take Arp.packetLength := by
  obtain ⟨hpacket, hdatagram, -, -, -, hanswer⟩ := drafts_read_back
  have hfits : Ipv4.minHeaderLength + queryDatagram.length ≤ 65535 := by
    rw [queryDatagram, Udp.length_build]
    decide
  obtain ⟨p, hp, -, -, -, -, hpayload, -, hvalid⟩ :=
    hpacket queryDraft queryDatagram [0, 0, 0] hfits
  exact ⟨⟨p, hp, hpayload, hvalid⟩, (hdatagram _ _ nameQuery (by decide)).1, _, rfl,
    hanswer _ _ rfl⟩

end SegmentRouter.Wire
