import SegmentRouter.Proofs.Wire.Guards

/-!
# Proofs/Wire/Bounds — packets are read and changed within their bounds

A packet's length fields are right at any time, so every field of its header lies within its bytes,
and so does its payload.  The payload is changed only after its flow was read, and whoever read the
flow has seen that there is room for another (`Packet.translateGuarded_eq`).
-/

namespace SegmentRouter

open Wire (Bytes Protocol)

namespace Wire

variable {b : Bytes}

/-! ## Packets -/

namespace Ipv4

/-- `parse` in guarded steps.  The packet is made of the bytes up to its total length alone. -/
def parseGuarded (b : Bytes) : Option (Except Malformed Packet) :=
  if b.length < minHeaderLength then return .error .ipv4TooShort
  else do
    let first ← byteAtGuarded b 0
    if first.toNat / 16 ≠ 4 then return .error .notIpv4
    else
      let headerLength := first.toNat % 16 * 4
      let totalLength := (← word16AtGuarded b 2).toNat
      if headerLength < minHeaderLength ∨ totalLength < headerLength ∨ b.length < totalLength then
        return .error .ipv4Lengths
      else return parse (← sliceGuarded b 0 totalLength)

/-- A packet reads the same without the bytes behind it. -/
theorem parse_take (hmin : minHeaderLength ≤ totalLengthOf b) (hmax : totalLengthOf b ≤ b.length) :
    parse (b.take (totalLengthOf b)) = parse b := by
  have hlen : (b.take (totalLengthOf b)).length = totalLengthOf b := List.length_take_of_le hmax
  have hfour : 4 ≤ totalLengthOf b := Nat.le_trans (by decide) hmin
  unfold parse
  simp only [hlen, headerLengthOf_take hfour, totalLengthOf_take hfour,
    byteAt_take (Nat.lt_of_lt_of_le (by decide : 0 < 4) hfour), List.take_take, Nat.min_self]
  rw [if_neg (Nat.not_lt.2 hmin), if_neg (Nat.not_lt.2 (Nat.le_trans hmin hmax))]
  split
  · by_cases h : minHeaderLength ≤ headerLengthOf b ∧ headerLengthOf b ≤ totalLengthOf b
    · simp [h, hmax]
    · simp [← and_assoc, h]
  · rfl

theorem parseGuarded_eq (b : Bytes) : parseGuarded b = some (parse b) := by
  unfold parseGuarded
  split
  · rename_i h
    unfold parse
    rw [if_pos h]
    rfl
  · rename_i hlen
    have htwenty : 20 ≤ b.length := Nat.le_of_not_lt hlen
    rw [byteAtGuarded_of_lt (by omega), word16AtGuarded_of_le (by omega)]
    simp only [Option.bind_eq_bind, Option.bind_some]
    split
    · rename_i hversion
      unfold parse
      rw [if_neg hlen, dif_neg hversion]
      rfl
    · rename_i hversion
      split
      · rename_i hlengths
        unfold parse
        rw [if_neg hlen, dif_pos (Decidable.not_not.1 hversion), dif_neg]
        · rfl
        · unfold headerLengthOf totalLengthOf
          omega
      · rename_i hlengths
        simp only [not_or, Nat.not_lt] at hlengths
        obtain ⟨hmin, hheader, hmax⟩ := hlengths
        rw [sliceGuarded_from_start hmax, Option.bind_some]
        exact congrArg some (parse_take (Nat.le_trans hmin hheader) hmax)

namespace Packet

variable (p : Packet)

/-! ### Fields -/

/-- `header` in guarded steps. -/
def headerGuarded : Option Bytes :=
  sliceGuarded p.bytes 0 p.headerLength

/-- `payload` in guarded steps. -/
def payloadGuarded : Option Bytes :=
  sliceGuarded p.bytes p.headerLength p.bytes.length

/-- `src` in guarded steps. -/
def srcGuarded : Option Ipv4Addr :=
  ipAtGuarded p.bytes 12

/-- `dst` in guarded steps. -/
def dstGuarded : Option Ipv4Addr :=
  ipAtGuarded p.bytes 16

/-- `protocol?` in guarded steps. -/
def protocolGuarded : Option (Option Protocol) := do
  return Protocol.ofNumber? (← byteAtGuarded p.bytes 9)

/-- `isFragment` in guarded steps. -/
def isFragmentGuarded : Option Bool := do
  let hi ← byteAtGuarded p.bytes 6
  let lo ← byteAtGuarded p.bytes 7
  return hi.toNat / 32 % 2 == 1 || hi.toNat % 32 * 256 + lo.toNat != 0

/-- `headerChecksumValid` in guarded steps. -/
def headerChecksumValidGuarded : Option Bool := do
  return (← checksumGuarded (← p.headerGuarded)) == 0

theorem headerGuarded_eq : p.headerGuarded = some p.header :=
  sliceGuarded_from_start p.headerLength_le

theorem payloadGuarded_eq : p.payloadGuarded = some p.payload :=
  sliceGuarded_to_end p.headerLength_le

theorem srcGuarded_eq : p.srcGuarded = some p.src :=
  ipAtGuarded_of_le (Nat.le_trans (by decide) p.length_ge)

theorem dstGuarded_eq : p.dstGuarded = some p.dst :=
  ipAtGuarded_of_le p.length_ge

theorem protocolGuarded_eq : p.protocolGuarded = some p.protocol? := by
  unfold protocolGuarded
  rw [byteAtGuarded_of_lt (Nat.lt_of_lt_of_le (by decide) p.length_ge)]
  rfl

theorem isFragmentGuarded_eq : p.isFragmentGuarded = some p.isFragment := by
  unfold isFragmentGuarded
  rw [byteAtGuarded_of_lt (Nat.lt_of_lt_of_le (by decide) p.length_ge),
    byteAtGuarded_of_lt (Nat.lt_of_lt_of_le (by decide) p.length_ge)]
  rfl

theorem headerChecksumValidGuarded_eq :
    p.headerChecksumValidGuarded = some p.headerChecksumValid := by
  unfold headerChecksumValidGuarded
  rw [headerGuarded_eq, Option.bind_eq_bind, Option.bind_some, checksumGuarded_eq]
  rfl

/-! ### Edits -/

/-- `edit` as a guarded step. -/
def editGuarded (offset : Nat) (v : Bytes) : Option Packet :=
  if h : 4 ≤ offset ∧ offset + v.length ≤ p.bytes.length then some (p.edit offset v h.1) else none

theorem editGuarded_of_le {offset : Nat} {v : Bytes} (h : 4 ≤ offset)
    (hle : offset + v.length ≤ p.bytes.length) : p.editGuarded offset v = some (p.edit offset v h) :=
  dif_pos ⟨h, hle⟩

/-- `refreshChecksum` in guarded steps. -/
def refreshChecksumGuarded : Option Packet := do
  let cleared ← p.editGuarded 10 [0, 0]
  let sum ← checksumGuarded (← cleared.headerGuarded)
  cleared.editGuarded 10 (bytes16 sum)

/-- `withSrc` in guarded steps. -/
def withSrcGuarded (ip : Ipv4Addr) : Option Packet := do
  (← p.editGuarded 12 ip.octets).refreshChecksumGuarded

/-- `withDst` in guarded steps. -/
def withDstGuarded (ip : Ipv4Addr) : Option Packet := do
  (← p.editGuarded 16 ip.octets).refreshChecksumGuarded

/-- `nextHop?` in guarded steps, of which one takes a hop off those that are left. -/
def nextHopGuarded : Option (Option Packet) := do
  let ttl ← byteAtGuarded p.bytes 8
  if ttl.toNat ≤ 1 then return none
  else if ttl = 0 then none
  else return some (← (← p.editGuarded 8 [ttl - 1]).refreshChecksumGuarded)

/-- `writePayload` in guarded steps. -/
def writePayloadGuarded (offset : Nat) (v : Bytes) : Option Packet :=
  p.editGuarded (p.headerLength + offset) v

theorem refreshChecksumGuarded_eq : p.refreshChecksumGuarded = some p.refreshChecksum := by
  have hlen := p.length_ge
  unfold refreshChecksumGuarded
  rw [editGuarded_of_le _ (by decide) (by simp; omega)]
  simp only [Option.bind_eq_bind, Option.bind_some, headerGuarded_eq, checksumGuarded_eq]
  exact editGuarded_of_le _ (by decide) (by simp; omega)

theorem withSrcGuarded_eq (ip : Ipv4Addr) : p.withSrcGuarded ip = some (p.withSrc ip) := by
  have hlen := p.length_ge
  unfold withSrcGuarded
  rw [editGuarded_of_le _ (by decide) (by simp; omega), Option.bind_eq_bind, Option.bind_some,
    refreshChecksumGuarded_eq]
  rfl

theorem withDstGuarded_eq (ip : Ipv4Addr) : p.withDstGuarded ip = some (p.withDst ip) := by
  have hlen := p.length_ge
  unfold withDstGuarded
  rw [editGuarded_of_le _ (by decide) (by simp; omega), Option.bind_eq_bind, Option.bind_some,
    refreshChecksumGuarded_eq]
  rfl

/-- **A hop is only taken off where one is left.** -/
theorem nextHopGuarded_eq : p.nextHopGuarded = some p.nextHop? := by
  have hlen := p.length_ge
  unfold nextHopGuarded nextHop?
  rw [byteAtGuarded_of_lt (by omega), Option.bind_eq_bind, Option.bind_some]
  change (if p.ttl.toNat ≤ 1 then _ else _) = _
  split
  · rfl
  · rename_i hleft
    have hne : ¬ byteAt p.bytes 8 = 0 := fun h => hleft (by rw [ttl, h]; decide)
    rw [if_neg hne, editGuarded_of_le _ (by decide) (by simp; omega), Option.bind_eq_bind,
      Option.bind_some, refreshChecksumGuarded_eq]
    rfl

end Packet

/-! ### New packets -/

/-- `Draft.build` in guarded steps: the checksum is written when the rest of the header is there. -/
def Draft.buildGuarded (d : Draft) (payload : Bytes) : Option Bytes := do
  let unsealed := d.header payload.length 0
  let sum ← checksumGuarded (← sliceGuarded unsealed 0 minHeaderLength)
  return (← overwriteGuarded unsealed 10 (bytes16 sum)) ++ payload

theorem Draft.buildGuarded_eq (d : Draft) (payload : Bytes) :
    d.buildGuarded payload = some (d.build payload) := by
  have hslice : sliceGuarded (d.header payload.length 0) 0 minHeaderLength =
      some (d.header payload.length 0) := sliceGuarded_from_start (Nat.le_refl _)
  unfold buildGuarded
  dsimp only
  rw [hslice, Option.bind_eq_bind, Option.bind_some, checksumGuarded_eq]
  rfl

end Ipv4

end Wire

/-! ## Flows -/

namespace PacketFlow

variable {src dst : Ipv4Addr} {b : Bytes} {protocol : Protocol} {flow : PacketFlow}

/-- `ofPayload?` in guarded steps. -/
def ofPayloadGuarded (src dst : Ipv4Addr) (payload : Bytes) :
    Protocol → Option (Option PacketFlow)
  | .tcp => do
    match ← Wire.Tcp.parseGuarded payload with
    | .ok h => return some {
        key := ⟨.tcp, { srcIp := src, srcPort := h.srcPort, dstIp := dst, dstPort := h.dstPort }⟩
        tcpFlags := some h.flags }
    | .error _ => return none
  | .udp => do
    match ← Wire.Udp.parseGuarded payload with
    | .ok d => return some {
        key := ⟨.udp, { srcIp := src, srcPort := d.srcPort, dstIp := dst, dstPort := d.dstPort }⟩ }
    | .error _ => return none
  | .icmp => do
    match ← Wire.Icmp.parseGuarded payload with
    | .ok m =>
      if m.isEcho then return some {
        key := ⟨.icmp,
          { srcIp := src, srcPort := m.identifier, dstIp := dst, dstPort := m.identifier }⟩
        initiates := m.isEchoRequest }
      else return none
    | .error _ => return none

theorem ofPayloadGuarded_eq (src dst : Ipv4Addr) (payload : Bytes) (protocol : Protocol) :
    ofPayloadGuarded src dst payload protocol = some (ofPayload? src dst payload protocol) := by
  cases protocol with
  | tcp =>
    unfold ofPayloadGuarded ofPayload?
    rw [Wire.Tcp.parseGuarded_eq]
    cases Wire.Tcp.parse payload <;> rfl
  | udp =>
    unfold ofPayloadGuarded ofPayload?
    rw [Wire.Udp.parseGuarded_eq]
    cases Wire.Udp.parse payload <;> rfl
  | icmp =>
    unfold ofPayloadGuarded ofPayload?
    rw [Wire.Icmp.parseGuarded_eq]
    cases Wire.Icmp.parse payload with
    | error cause => rfl
    | ok m =>
      dsimp only [Option.bind_eq_bind, Option.bind_some]
      split <;> rfl

/-- `ofPacket?` in guarded steps. -/
def ofPacketGuarded (p : Wire.Ipv4.Packet) : Option (Option PacketFlow) := do
  if ← p.isFragmentGuarded then return none
  else match ← p.protocolGuarded with
    | none => return none
    | some protocol =>
      ofPayloadGuarded (← p.srcGuarded) (← p.dstGuarded) (← p.payloadGuarded) protocol

theorem ofPacketGuarded_eq (p : Wire.Ipv4.Packet) : ofPacketGuarded p = some (ofPacket? p) := by
  unfold ofPacketGuarded ofPacket?
  rw [p.isFragmentGuarded_eq, p.protocolGuarded_eq, p.srcGuarded_eq, p.dstGuarded_eq,
    p.payloadGuarded_eq]
  simp only [Option.bind_eq_bind, Option.bind_some]
  split
  · rfl
  · cases p.protocol? with
    | none => rfl
    | some protocol => exact ofPayloadGuarded_eq ..

/-- The fields of a transport header that a translation writes end here. -/
def headerEnd : Protocol → Nat
  | .tcp => 18
  | .udp => 8
  | .icmp => 6

/-- **Where a flow was read there is room for another.** -/
theorem headerEnd_le_length (h : ofPayload? src dst b protocol = some flow) :
    headerEnd protocol ≤ b.length := by
  cases protocol with
  | tcp =>
    dsimp only [ofPayload?] at h
    split at h
    · rename_i header hparse
      exact Nat.le_trans (by decide) (Wire.Tcp.parse_eq_ok.1 hparse).1.1
    · cases h
  | udp =>
    dsimp only [ofPayload?] at h
    split at h
    · rename_i datagram hparse
      exact (Wire.Udp.parse_eq_ok.1 hparse).1.1
    · cases h
  | icmp =>
    dsimp only [ofPayload?] at h
    split at h
    · rename_i message hparse
      exact Nat.le_trans (by decide) (Wire.Icmp.parse_eq_ok.1 hparse).1
    · cases h

end PacketFlow

namespace Wire.Ipv4.Packet

/-- `translatePayload` in guarded steps. -/
def translatePayloadGuarded (new : Flow) (payload : Bytes) : Protocol → Option Bytes
  | .tcp => do
    let renamed ← Tcp.withPortsGuarded payload new.srcPort new.dstPort
    Tcp.refreshChecksumGuarded renamed new.srcIp new.dstIp
  | .udp => do
    let renamed ← Udp.withPortsGuarded payload new.srcPort new.dstPort
    Udp.refreshChecksumGuarded renamed new.srcIp new.dstIp
  | .icmp => do
    Icmp.refreshChecksumGuarded (← Icmp.withIdentifierGuarded payload new.srcPort)

theorem translatePayloadGuarded_eq {payload : Bytes} {protocol : Protocol}
    (h : PacketFlow.headerEnd protocol ≤ payload.length) (new : Flow) :
    translatePayloadGuarded new payload protocol = some (translatePayload new payload protocol) := by
  cases protocol with
  | tcp =>
    have hlen : 18 ≤ payload.length := h
    unfold translatePayloadGuarded translatePayload
    rw [Tcp.withPortsGuarded_eq (by omega), Option.bind_eq_bind, Option.bind_some,
      Tcp.refreshChecksumGuarded_eq (by simpa using hlen)]
  | udp =>
    have hlen : 8 ≤ payload.length := h
    unfold translatePayloadGuarded translatePayload
    rw [Udp.withPortsGuarded_eq (by omega), Option.bind_eq_bind, Option.bind_some,
      Udp.refreshChecksumGuarded_eq (by simpa using hlen)]
  | icmp =>
    have hlen : 6 ≤ payload.length := h
    unfold translatePayloadGuarded translatePayload
    rw [Icmp.withIdentifierGuarded_eq hlen, Option.bind_eq_bind, Option.bind_some,
      Icmp.refreshChecksumGuarded_eq (by simp; omega)]

/-- `translate` in guarded steps. -/
def translateGuarded (p : Packet) (protocol : Protocol) (new : Flow) : Option Packet := do
  let addressed ← (← p.withSrcGuarded new.srcIp).withDstGuarded new.dstIp
  let payload ← translatePayloadGuarded new (← addressed.payloadGuarded) protocol
  addressed.writePayloadGuarded 0 payload

/-- **A packet whose flow was read is translated within its bounds.** -/
theorem translateGuarded_eq {p : Packet} {flow : PacketFlow}
    (h : PacketFlow.ofPacket? p = some flow) (new : Flow) :
    p.translateGuarded flow.key.protocol new = some (p.translate flow.key.protocol new) := by
  obtain ⟨addressed, haddressed⟩ : ∃ q, q = (p.withSrc new.srcIp).withDst new.dstIp := ⟨_, rfl⟩
  have hroom : PacketFlow.headerEnd flow.key.protocol ≤ addressed.payload.length := by
    rw [haddressed, payload_withDst, payload_withSrc]
    exact PacketFlow.headerEnd_le_length (PacketFlow.ofPacket?_eq_some.1 h).2.2
  have hfits : addressed.headerLength + 0 +
      (translatePayload new addressed.payload flow.key.protocol).length ≤
        addressed.bytes.length := by
    have hheader : addressed.headerLength ≤ addressed.bytes.length := addressed.headerLength_le
    rw [length_translatePayload, payload, List.length_drop]
    omega
  unfold translateGuarded translate
  simp only [Option.bind_eq_bind, Option.bind_some, withSrcGuarded_eq, withDstGuarded_eq,
    payloadGuarded_eq, ← haddressed]
  rw [translatePayloadGuarded_eq hroom]
  exact editGuarded_of_le _ (Nat.le_trans (by decide) addressed.headerLength_ge) hfits

end Wire.Ipv4.Packet

end SegmentRouter
