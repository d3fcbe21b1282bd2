import SegmentRouter.Proofs.Wire.Carriage
import SegmentRouter.Wire.Ethernet

/-!
# Proofs/Wire/Twins — packets that differ in their payloads only

Packets with the same header and payloads of one length are twins (`Packet.Twins`), and so are they
one hop further.  Whatever is made of either is compared byte by byte: a byte that is not the same
was copied from the payloads, from the same place in both (`Copied`).
-/

namespace SegmentRouter.Wire

variable {a b c : Bytes} {i : Nat}

/-! ## Frames -/

namespace Ethernet

theorem length_build (f : Frame) : (build f).length = headerLength + f.payload.length := by
  simp [build, headerLength]
  omega

theorem drop_build (f : Frame) : (build f).drop headerLength = f.payload :=
  List.drop_left' (by simp [headerLength])

theorem byteAt_build (f : Frame) (i : Nat) : byteAt (build f) (headerLength + i) =
    byteAt f.payload i := by
  rw [← byteAt_drop, drop_build]

theorem parse_eq_ok {f : Frame} : parse a = .ok f ↔ headerLength ≤ a.length ∧
    { dst := macAt a 0, src := macAt a 6, etherType := word16At a 12
      payload := a.drop headerLength } = f := by
  unfold parse
  split
  · exact ⟨nofun, fun h => by omega⟩
  · rw [Except.ok.injEq, iff_and_self]
    exact fun _ => by omega

/-- What stands in front of a payload does not depend on it. -/
theorem byteAt_build_of_lt (f : Frame) (payload : Bytes) (h : i < headerLength) :
    byteAt (build { f with payload }) i = byteAt (build f) i := by
  have hlen : i < (f.dst.octets ++ f.src.octets ++ bytes16 f.etherType).length := by
    simpa [headerLength] using h
  exact (byteAt_append_left hlen).trans (byteAt_append_left hlen).symm

end Ethernet

namespace Ipv4

namespace Packet

variable {p q p' q' : Packet}

/-! ## Packets -/

/-- **Two packets differ in their payloads only**, which are equally long. -/
structure Twins (p q : Packet) : Prop where
  header : q.header = p.header
  length : q.bytes.length = p.bytes.length

/-- The byte at a place is the same in two strings, or it was copied from the payloads of two
packets, from the same place. -/
def Copied (p q : Packet) (a b : Bytes) (i : Nat) : Prop :=
  byteAt b i = byteAt a i ∨ ∃ k, byteAt a i = byteAt p.payload k ∧ byteAt b i = byteAt q.payload k

theorem Copied.refl (p q : Packet) (a : Bytes) (i : Nat) : p.Copied q a a i :=
  .inl rfl

theorem Copied.symm (h : p.Copied q a b i) : q.Copied p b a i :=
  h.imp Eq.symm fun ⟨k, hp, hq⟩ => ⟨k, hq, hp⟩

theorem byteAt_header (p : Packet) (h : i < p.headerLength) :
    byteAt p.header i = byteAt p.bytes i :=
  byteAt_take h

theorem Copied.append_left (h : ∀ i, p.Copied q a b i) (head : Bytes) :
    p.Copied q (head ++ a) (head ++ b) i := by
  unfold Copied at h ⊢
  by_cases hi : i < head.length
  · exact .inl ((byteAt_append_left hi).trans (byteAt_append_left hi).symm)
  · rw [byteAt_append_right (Nat.not_lt.1 hi), byteAt_append_right (Nat.not_lt.1 hi)]
    exact h _

theorem Copied.take (h : p.Copied q a b i) (n : Nat) : p.Copied q (a.take n) (b.take n) i := by
  unfold Copied at h ⊢
  by_cases hi : i < n
  · rwa [byteAt_take hi, byteAt_take hi]
  · have hnone (c : Bytes) : byteAt (c.take n) i = 0 := by
      rw [byteAt, List.getD, List.getElem?_eq_none (by rw [List.length_take]; omega)]
      rfl
    exact .inl ((hnone b).trans (hnone a).symm)

theorem length_header (p : Packet) : p.header.length = p.headerLength := by
  rw [header, List.length_take]
  exact Nat.min_eq_left p.headerLength_le

theorem header_edit (p : Packet) {offset : Nat} (v : Bytes) (h : 4 ≤ offset) :
    (p.edit offset v h).header = overwrite p.header offset v := by
  rw [header, headerLength_edit, bytes_edit, take_overwrite, header]

namespace Twins

theorem symm (h : p.Twins q) : q.Twins p :=
  ⟨h.header.symm, h.length.symm⟩

theorem trans {packet : Packet} (h : p.Twins q) (h' : q.Twins packet) : p.Twins packet :=
  ⟨h'.header.trans h.header, h'.length.trans h.length⟩

theorem headerLength (h : p.Twins q) : q.headerLength = p.headerLength := by
  have hp := p.headerLength_ge
  have hq := q.headerLength_ge
  have hfirst : byteAt q.bytes 0 = byteAt p.bytes 0 := by
    rw [← q.byteAt_header (by omega), h.header, p.byteAt_header (by omega)]
  rw [Packet.headerLength, headerLengthOf, hfirst]
  rfl

variable (h : p.Twins q)

include h

theorem byteAt (hi : i < p.headerLength) : byteAt q.bytes i = byteAt p.bytes i := by
  rw [← q.byteAt_header (h.headerLength ▸ hi), h.header, p.byteAt_header hi]

theorem length_payload : q.payload.length = p.payload.length := by
  rw [payload, payload, List.length_drop, List.length_drop, h.headerLength, h.length]

theorem src : q.src = p.src :=
  ipAt_congr fun _ _ => h.byteAt (by have := p.headerLength_ge; omega)

theorem dst : q.dst = p.dst :=
  ipAt_congr fun _ _ => h.byteAt (by have := p.headerLength_ge; omega)

theorem ttl : q.ttl = p.ttl :=
  h.byteAt (by have := p.headerLength_ge; omega)

theorem protocol? : q.protocol? = p.protocol? :=
  congrArg Protocol.ofNumber? (h.byteAt (by have := p.headerLength_ge; omega))

theorem isTrailingFragment : q.isTrailingFragment = p.isTrailingFragment := by
  have := p.headerLength_ge
  unfold Packet.isTrailingFragment fragmentOffset
  rw [h.byteAt (by omega), h.byteAt (by omega)]

theorem headerChecksumValid : q.headerChecksumValid = p.headerChecksumValid := by
  rw [Packet.headerChecksumValid, h.header]
  rfl

theorem edit {offset : Nat} (v : Bytes) (ho : 4 ≤ offset) :
    (p.edit offset v ho).Twins (q.edit offset v ho) := by
  refine ⟨?_, ?_⟩
  · rw [header_edit, header_edit, h.header]
  · rw [bytes_edit, bytes_edit, length_overwrite, length_overwrite, h.length]

theorem refreshChecksum : p.refreshChecksum.Twins q.refreshChecksum := by
  have hoffset : 4 ≤ 10 := by decide
  have hcleared := h.edit [0, 0] hoffset
  unfold Packet.refreshChecksum
  dsimp only
  rw [hcleared.header]
  exact hcleared.edit ..

/-- **Twins go a hop further as twins**, or have no hop left. -/
theorem nextHop? :
    (p.nextHop? = none ∧ q.nextHop? = none) ∨ ∃ p' q', p.nextHop? = some p' ∧
      q.nextHop? = some q' ∧ p'.Twins q' ∧ p'.payload = p.payload ∧ q'.payload = q.payload := by
  unfold Packet.nextHop?
  rw [h.ttl]
  split
  · exact .inl ⟨rfl, rfl⟩
  · refine .inr ⟨_, _, rfl, rfl, (h.edit _ _).refreshChecksum, ?_, ?_⟩
    · rw [payload_refreshChecksum, payload_edit _ _ (by simp)]
    · rw [payload_refreshChecksum, payload_edit _ _ (by simp)]

/-- What differs in twins is their payloads. -/
theorem copied (i : Nat) : p.Copied q p.bytes q.bytes i := by
  by_cases hi : i < p.headerLength
  · exact .inl (h.byteAt hi)
  · refine .inr ⟨i - p.headerLength, ?_, ?_⟩
    · rw [byteAt_payload, Nat.add_sub_of_le (Nat.not_lt.1 hi)]
    · rw [byteAt_payload, h.headerLength, Nat.add_sub_of_le (Nat.not_lt.1 hi)]

end Twins

/-- **Whatever is written into its payload makes a packet a twin.** -/
theorem twins_writePayload (p : Packet) (offset : Nat) (v : Bytes) :
    p.Twins (p.writePayload offset v) := by
  refine ⟨?_, length_overwrite ..⟩
  rw [writePayload, header_edit]
  refine ext_byteAt (length_overwrite ..) fun i hi => byteAt_overwrite_of_lt ?_
  rw [length_overwrite, length_header] at hi
  omega

end Packet

/-- **Two byte strings carry trailing fragments and differ in the payloads of these only**, which are
equally long. -/
structure Twins (a b : Bytes) (f : Ethernet.Frame) (p : Packet) : Prop where
  ethernet : Ethernet.parse a = .ok f
  type : EtherType.ofNumber? f.etherType = some .ipv4
  packet : Ipv4.parse f.payload = .ok p
  trailing : p.isTrailingFragment = true
  length : b.length = a.length
  others : ∀ i, i < Ethernet.headerLength + p.headerLength ∨
    Ethernet.headerLength + p.bytes.length ≤ i → byteAt b i = byteAt a i

/-- **A byte string with the same header, and as long, starts with a twin.** -/
theorem exists_twin {p : Packet} (h : Ipv4.parse c = .ok p)
    (hlen : b.length = c.length) (hsame : ∀ i < p.headerLength, byteAt b i = byteAt c i) :
    ∃ q, Ipv4.parse b = .ok q ∧ p.Twins q := by
  obtain ⟨hbytes, htotal⟩ := bytes_of_parse h
  have hmin := p.headerLength_ge
  have hfits : p.bytes.length ≤ c.length := by
    rw [hbytes]
    exact List.length_take_le' ..
  have hle : p.headerLength ≤ p.bytes.length := p.headerLength_le
  have hbyte (i : Nat) (hi : i < p.headerLength) : byteAt b i = byteAt p.bytes i := by
    rw [hsame i hi, hbytes, byteAt_take (by omega)]
  have hheader : headerLengthOf b = p.headerLength := by
    rw [headerLengthOf, hbyte 0 (by omega)]
    rfl
  have htotal' : totalLengthOf b = p.bytes.length := by
    rw [totalLengthOf, word16At, hbyte 2 (by omega), hbyte 3 (by omega)]
    exact p.totalLength_eq
  have hversion : (byteAt b 0).toNat / 16 = 4 := by
    rw [hbyte 0 (by omega)]
    exact p.version_eq
  have hlengths : minHeaderLength ≤ headerLengthOf b ∧ headerLengthOf b ≤ totalLengthOf b ∧
      totalLengthOf b ≤ b.length := by
    rw [hheader, htotal', hlen]
    exact ⟨hmin, hle, hfits⟩
  have hlong : ¬ b.length < minHeaderLength := by
    simp only [minHeaderLength]
    omega
  obtain ⟨q, hq, hqbytes⟩ : ∃ q, Ipv4.parse b = .ok q ∧ q.bytes = b.take p.bytes.length := by
    unfold Ipv4.parse
    rw [if_neg hlong, dif_pos hversion, dif_pos hlengths]
    exact ⟨_, rfl, congrArg b.take htotal'⟩
  have hlength : q.bytes.length = p.bytes.length := by
    rw [hqbytes, List.length_take, Nat.min_eq_left (by omega)]
  have hqbyte (i : Nat) (hi : i < p.headerLength) : byteAt q.bytes i = byteAt p.bytes i := by
    rw [hqbytes, byteAt_take (by omega), hbyte i hi]
  have hqheader : q.headerLength = p.headerLength := by
    rw [Packet.headerLength, headerLengthOf, hqbyte 0 (by omega)]
    rfl
  refine ⟨q, hq, ext_byteAt ?_ fun i hi => ?_, hlength⟩
  · rw [q.length_header, p.length_header, hqheader]
  · rw [q.length_header, hqheader] at hi
    rw [q.byteAt_header (hqheader ▸ hi), p.byteAt_header hi, hqbyte i hi]

/-- **The other string carries a twin of the fragment**, in a frame with the same header. -/
theorem Twins.parse {f : Ethernet.Frame} {p : Packet} (h : Twins a b f p) :
    ∃ g q, Ethernet.parse b = .ok g ∧ g.dst = f.dst ∧ g.src = f.src ∧
      EtherType.ofNumber? g.etherType = some .ipv4 ∧ Ipv4.parse g.payload = .ok q ∧ p.Twins q := by
  have htype := h.type
  have hpacket := h.packet
  obtain ⟨hlen, rfl⟩ := Ethernet.parse_eq_ok.1 h.ethernet
  have hsame (i : Nat) (hi : i < Ethernet.headerLength) : byteAt b i = byteAt a i :=
    h.others i (.inl (by omega))
  have hmac (i : Nat) (hi : i + 6 ≤ Ethernet.headerLength) : macAt b i = macAt a i := by
    simp only [macAt, hsame _ (show i < _ by omega), hsame _ (show i + 1 < _ by omega),
      hsame _ (show i + 2 < _ by omega), hsame _ (show i + 3 < _ by omega),
      hsame _ (show i + 4 < _ by omega), hsame _ (show i + 5 < _ by omega)]
  have hnumber : word16At b 12 = word16At a 12 :=
    word16At_congr fun k hk => hsame _ (by simp only [Ethernet.headerLength]; omega)
  obtain ⟨q, hq, htwins⟩ := exists_twin (b := b.drop Ethernet.headerLength) hpacket
    (by rw [List.length_drop, List.length_drop, h.length]) fun i hi => by
      rw [byteAt_drop, byteAt_drop, h.others _ (.inl (by omega))]
  refine ⟨_, q, Ethernet.parse_eq_ok.2 ⟨h.length ▸ hlen, rfl⟩, hmac 0 (by decide),
    hmac 6 (by decide), ?_, hq, htwins⟩
  dsimp only
  rw [hnumber]
  exact htype

/-- **A packet is read from its bytes, and what stands behind them is dropped.** -/
theorem parse_append (p : Packet) (padding : Bytes) : Ipv4.parse (p.bytes ++ padding) = .ok p := by
  have hmin : 20 ≤ p.bytes.length := p.length_ge
  have hbyte (i : Nat) (hi : i < 20) : byteAt (p.bytes ++ padding) i = byteAt p.bytes i :=
    byteAt_append_left (by omega)
  have hversion : (byteAt (p.bytes ++ padding) 0).toNat / 16 = 4 := by
    rw [hbyte 0 (by decide)]
    exact p.version_eq
  have hheader : headerLengthOf (p.bytes ++ padding) = p.headerLength := by
    rw [headerLengthOf, hbyte 0 (by decide)]
    rfl
  have htotal : totalLengthOf (p.bytes ++ padding) = p.bytes.length := by
    rw [totalLengthOf, word16At, hbyte 2 (by decide), hbyte 3 (by decide)]
    exact p.totalLength_eq
  have hfits : p.bytes.length ≤ (p.bytes ++ padding).length := by
    rw [List.length_append]
    exact Nat.le_add_right ..
  have hlong : ¬ (p.bytes ++ padding).length < minHeaderLength :=
    Nat.not_lt.2 (Nat.le_trans hmin hfits)
  have hlengths : minHeaderLength ≤ headerLengthOf (p.bytes ++ padding) ∧
      headerLengthOf (p.bytes ++ padding) ≤ totalLengthOf (p.bytes ++ padding) ∧
      totalLengthOf (p.bytes ++ padding) ≤ (p.bytes ++ padding).length := by
    rw [hheader, htotal]
    exact ⟨p.minHeaderLength_le, p.headerLength_le, hfits⟩
  have htake : (p.bytes ++ padding).take (totalLengthOf (p.bytes ++ padding)) = p.bytes := by
    rw [htotal, List.take_left]
  unfold Ipv4.parse
  rw [if_neg hlong, dif_pos hversion, dif_pos hlengths]
  obtain ⟨bytes, _⟩ := p
  simp only [Except.ok.injEq, Packet.mk.injEq]
  exact htake

theorem parse_bytes (p : Packet) : Ipv4.parse p.bytes = .ok p := by
  rw [← parse_append p [], List.append_nil]

/-- Twins in frames with one header. -/
theorem twins_build {p q : Packet} (h : p.Twins q) (ht : p.isTrailingFragment = true)
    (f : Ethernet.Frame) (htype : EtherType.ofNumber? f.etherType = some .ipv4) :
    Twins (Ethernet.build { f with payload := p.bytes })
      (Ethernet.build { f with payload := q.bytes }) { f with payload := p.bytes } p where
  ethernet := Ethernet.parse_build _
  type := htype
  packet := parse_bytes p
  trailing := ht
  length := by rw [Ethernet.length_build, Ethernet.length_build, h.length]
  others i hi := by
    by_cases hfront : i < Ethernet.headerLength
    · exact (Ethernet.byteAt_build_of_lt f _ hfront).trans
        (Ethernet.byteAt_build_of_lt f _ hfront).symm
    · obtain ⟨k, rfl⟩ := Nat.exists_eq_add_of_le (Nat.not_lt.1 hfront)
      rw [Ethernet.byteAt_build, Ethernet.byteAt_build]
      rcases hi with hi | hi
      · exact h.byteAt (by omega)
      · have hnone (c : Bytes) (hc : c.length ≤ k) : Wire.byteAt c k = 0 := by
          rw [Wire.byteAt, List.getD, List.getElem?_eq_none hc]
          rfl
        have hlong : p.bytes.length ≤ k := by omega
        exact (hnone q.bytes (h.length ▸ hlong)).trans (hnone p.bytes hlong).symm

/-! ## Headers -/

/-- The Ethernet header of a frame and the IPv4 header behind it. -/
def headers (frame : Bytes) : Bytes :=
  frame.take (Ethernet.headerLength + headerLengthOf (frame.drop Ethernet.headerLength))

theorem headers_build (f : Ethernet.Frame) : headers (Ethernet.build f) =
    (f.dst.octets ++ f.src.octets ++ bytes16 f.etherType) ++
      f.payload.take (headerLengthOf f.payload) := by
  rw [headers, Ethernet.drop_build, Ethernet.build, List.take_append, List.take_of_length_le]
  · congr 2
    simp [Ethernet.headerLength]
  · simp [Ethernet.headerLength]

theorem Draft.length_header (d : Draft) (n : Nat) (sum : UInt16) :
    (d.header n sum).length = minHeaderLength :=
  rfl

/-- The router sends no fragments. -/
theorem Draft.fragment_header (d : Draft) (n : Nat) (sum : UInt16) :
    byteAt (d.header n sum) 6 = 0x40 ∧ byteAt (d.header n sum) 7 = 0 :=
  ⟨rfl, rfl⟩

theorem Draft.drop_build (d : Draft) (payload : Bytes) :
    (d.build payload).drop minHeaderLength = payload :=
  List.drop_left' (d.length_header ..)

theorem Draft.take_build (d : Draft) (payload : Bytes) :
    (d.build payload).take (headerLengthOf (d.build payload)) =
      d.header payload.length (checksum (d.header payload.length 0)) := by
  have hfirst : byteAt (d.build payload) 0 = 0x45 := rfl
  have hlen : headerLengthOf (d.build payload) = minHeaderLength := by
    rw [headerLengthOf, hfirst]
    rfl
  rw [hlen]
  exact List.take_left' (d.length_header ..)

end Ipv4

/-! ## ICMP messages -/

namespace Icmp

variable {p q : Ipv4.Packet}

theorem byteAt_refreshChecksum (b : Bytes) (h : i ≠ 2) (h' : i ≠ 3) :
    byteAt (refreshChecksum b) i = byteAt b i := by
  unfold refreshChecksum
  rw [byteAt_overwrite_of_disjoint (by simp; omega), byteAt_overwrite_of_disjoint (by simp; omega)]

/-- **Two messages differ in bytes that they have from two packets**, and in the checksums that they
then need. -/
structure Twins (p q : Ipv4.Packet) (a b : Bytes) : Prop where
  length : b.length = a.length
  valid : checksumValid a = true ∧ checksumValid b = true
  copied : ∀ i, i ≠ 2 → i ≠ 3 → p.Copied q a b i

theorem Twins.refreshChecksum (hlen : b.length = a.length) (hmin : headerLength ≤ a.length)
    (hcopied : ∀ i, p.Copied q a b i) :
    Twins p q (Icmp.refreshChecksum a) (Icmp.refreshChecksum b) := by
  refine ⟨by simpa using hlen, ⟨checksumValid_refreshChecksum hmin,
    checksumValid_refreshChecksum (hlen ▸ hmin)⟩, fun i h h' => ?_⟩
  unfold Ipv4.Packet.Copied
  rw [byteAt_refreshChecksum a h h', byteAt_refreshChecksum b h h']
  exact hcopied i

theorem parse_of_isEchoRequest (h : Domain.isEchoRequest p = true) :
    ∃ m, parse p.payload = .ok m ∧ m.isEchoRequest = true := by
  unfold Domain.isEchoRequest at h
  obtain ⟨-, h⟩ := Bool.and_eq_true_iff.1 h
  split at h
  · exact ⟨_, ‹_›, h⟩
  · cases h

theorem echoReply_of_parse {m : Message} (h : parse b = .ok m) (hm : m.isEchoRequest = true) :
    echoReply b = .ok (refreshChecksum (overwrite b 0 [echoReplyType])) := by
  rw [echoReply, h]
  exact if_pos hm

theorem echoReply_of_isEchoRequest (h : Domain.isEchoRequest p = true) :
    echoReply p.payload = .ok (refreshChecksum (overwrite p.payload 0 [echoReplyType])) := by
  obtain ⟨m, hparse, hm⟩ := parse_of_isEchoRequest h
  exact echoReply_of_parse hparse hm

/-- **Twins that ask for echoes are echoed alike.** -/
theorem twins_echo (h : p.Twins q) (hp : Domain.isEchoRequest p = true) :
    Twins p q (refreshChecksum (overwrite p.payload 0 [echoReplyType]))
      (refreshChecksum (overwrite q.payload 0 [echoReplyType])) := by
  obtain ⟨m, hparse, -⟩ := parse_of_isEchoRequest hp
  have hmin := (parse_eq_ok.1 hparse).1
  have hlen := h.length_payload
  refine .refreshChecksum (by simpa using hlen) (by simpa using hmin) fun i => ?_
  unfold Ipv4.Packet.Copied
  cases i with
  | zero =>
    have hfirst (b : Bytes) (hb : headerLength ≤ b.length) :
        byteAt (overwrite b 0 [echoReplyType]) (0 + 0) = echoReplyType :=
      byteAt_overwrite Nat.zero_lt_one (by simp only [headerLength] at hb; omega)
    exact .inl ((hfirst q.payload (hlen ▸ hmin)).trans (hfirst p.payload hmin).symm)
  | succ i =>
    rw [byteAt_overwrite_of_ge (by simp), byteAt_overwrite_of_ge (by simp)]
    exact .inr ⟨i + 1, rfl, rfl⟩

/-- **Of twins that cannot be delivered is told alike.** -/
theorem twins_unreachable {p' q' : Ipv4.Packet} (h : p'.Twins q') (hp : p'.payload = p.payload)
    (hq : q'.payload = q.payload) (code : UInt8) :
    Twins p q (unreachable code p'.bytes p'.headerLength)
      (unreachable code q'.bytes q'.headerLength) := by
  have hsame (i : Nat) : p.Copied q p'.bytes q'.bytes i := by
    have hcopied := h.copied i
    unfold Ipv4.Packet.Copied at hcopied ⊢
    rwa [hp, hq] at hcopied
  unfold unreachable
  rw [h.headerLength]
  refine .refreshChecksum ?_ ?_ fun i => ?_
  · simp [h.length]
  · simp [headerLength]
  · exact .append_left (fun k => .take (hsame k) _) _

end Icmp

end SegmentRouter.Wire
