import SegmentRouter.Proofs.Wire.Translation
import SegmentRouter.Wire.Arp

/-!
# Proofs/Wire/Guards — steps that stay within their strings

The readers and writers of fields answer for any offset.  Here each of them has a guarded form that
fails outside the string instead, and the functions that read and write headers are told once more
in guarded steps, with the offsets that they use.  That the guarded form does not fail, and gives
what the plain one gives, says that no step reaches outside of its string.

A parser needs nothing for this, since it compares every length with the string first.  An edit
needs a string that is long enough for the fields that it writes.
-/

namespace SegmentRouter

open Wire (Bytes Protocol)

namespace Wire

variable {b v : Bytes} {i j : Nat}

/-! ## Guarded steps -/

/-- The byte at an offset, which has to be there. -/
def byteAtGuarded (b : Bytes) (i : Nat) : Option UInt8 :=
  b[i]?

/-- The bytes from an offset up to another, both of which have to be there. -/
def sliceGuarded (b : Bytes) (i j : Nat) : Option Bytes :=
  if i ≤ j ∧ j ≤ b.length then some ((b.take j).drop i) else none

/-- The bytes with those from an offset on replaced, all of which have to be there. -/
def overwriteGuarded (b : Bytes) (i : Nat) (v : Bytes) : Option Bytes :=
  if i + v.length ≤ b.length then some (overwrite b i v) else none

/-- The 16-bit number at an offset. -/
def word16AtGuarded (b : Bytes) (i : Nat) : Option UInt16 := do
  let hi ← byteAtGuarded b i
  let lo ← byteAtGuarded b (i + 1)
  return UInt16.ofNat (hi.toNat * 256 + lo.toNat)

/-- The 32-bit number at an offset. -/
def word32AtGuarded (b : Bytes) (i : Nat) : Option UInt32 := do
  let hi ← word16AtGuarded b i
  let lo ← word16AtGuarded b (i + 2)
  return UInt32.ofNat (hi.toNat * 65536 + lo.toNat)

/-- The IPv4 address at an offset. -/
def ipAtGuarded (b : Bytes) (i : Nat) : Option Ipv4Addr := do
  return ⟨← word32AtGuarded b i⟩

/-- The hardware address at an offset. -/
def macAtGuarded (b : Bytes) (i : Nat) : Option Mac := do
  return macAt (← sliceGuarded b i (i + 6)) 0

theorem byteAtGuarded_of_lt (h : i < b.length) : byteAtGuarded b i = some (byteAt b i) := by
  simp [byteAtGuarded, byteAt, h]

theorem sliceGuarded_of_le (hij : i ≤ j) (hj : j ≤ b.length) :
    sliceGuarded b i j = some ((b.take j).drop i) :=
  if_pos ⟨hij, hj⟩

theorem sliceGuarded_to_end (h : i ≤ b.length) : sliceGuarded b i b.length = some (b.drop i) := by
  rw [sliceGuarded_of_le h (Nat.le_refl _), List.take_length]

theorem sliceGuarded_from_start (h : j ≤ b.length) : sliceGuarded b 0 j = some (b.take j) :=
  sliceGuarded_of_le (Nat.zero_le j) h

theorem overwriteGuarded_of_le (h : i + v.length ≤ b.length) :
    overwriteGuarded b i v = some (overwrite b i v) :=
  if_pos h

theorem word16AtGuarded_of_le (h : i + 2 ≤ b.length) :
    word16AtGuarded b i = some (word16At b i) := by
  unfold word16AtGuarded
  rw [byteAtGuarded_of_lt (by omega), byteAtGuarded_of_lt (by omega)]
  rfl

theorem word32AtGuarded_of_le (h : i + 4 ≤ b.length) :
    word32AtGuarded b i = some (word32At b i) := by
  unfold word32AtGuarded
  rw [word16AtGuarded_of_le (by omega), word16AtGuarded_of_le (by omega)]
  rfl

theorem ipAtGuarded_of_le (h : i + 4 ≤ b.length) : ipAtGuarded b i = some (ipAt b i) := by
  unfold ipAtGuarded
  rw [word32AtGuarded_of_le h]
  rfl

theorem macAtGuarded_of_le (h : i + 6 ≤ b.length) : macAtGuarded b i = some (macAt b i) := by
  have hbyte : ∀ k < 6, byteAt ((b.take (i + 6)).drop i) k = byteAt b (i + k) := fun k hk => by
    rw [byteAt_drop, byteAt_take (by omega)]
  have hmac : macAt ((b.take (i + 6)).drop i) 0 = macAt b i := by
    simp only [macAt, Nat.zero_add, hbyte, Nat.reduceLT, Nat.add_zero]
  unfold macAtGuarded
  rw [sliceGuarded_of_le (by omega) h, ← hmac]
  rfl

/-! ## Frames -/

namespace Ethernet

/-- `parse` in guarded steps. -/
def parseGuarded (b : Bytes) : Option (Except Malformed Frame) :=
  if b.length < headerLength then return .error .frameTooShort
  else do
    let dst ← macAtGuarded b 0
    let src ← macAtGuarded b 6
    let etherType ← word16AtGuarded b 12
    let payload ← sliceGuarded b headerLength b.length
    return .ok { dst, src, etherType, payload }

theorem parseGuarded_eq (b : Bytes) : parseGuarded b = some (parse b) := by
  unfold parseGuarded parse
  split
  · rfl
  · rename_i h
    have hlen : 14 ≤ b.length := Nat.le_of_not_lt h
    rw [macAtGuarded_of_le (by omega), macAtGuarded_of_le (by omega),
      word16AtGuarded_of_le (by omega), sliceGuarded_to_end (i := headerLength) hlen]
    rfl

end Ethernet

/-! ## Address resolution -/

namespace Arp

/-- `parse` in guarded steps. -/
def parseGuarded (b : Bytes) : Option (Except Malformed Packet) :=
  if b.length < packetLength then return .error .arpTooShort
  else do
    let hardware ← word16AtGuarded b 0
    let network ← word16AtGuarded b 2
    if hardware ≠ 1 ∨ network ≠ EtherType.ipv4.number then return .error .arpNotIpv4OverEthernet
    else
      let macLength ← byteAtGuarded b 4
      let ipLength ← byteAtGuarded b 5
      if macLength ≠ 6 ∨ ipLength ≠ 4 then return .error .arpAddressLengths
      else
        let number ← word16AtGuarded b 6
        match Operation.ofNumber? number with
        | none => return .error (.arpOperation number)
        | some operation =>
          let senderMac ← macAtGuarded b 8
          let senderIp ← ipAtGuarded b 14
          let targetMac ← macAtGuarded b 18
          let targetIp ← ipAtGuarded b 24
          return .ok { operation, senderMac, senderIp, targetMac, targetIp }

theorem parseGuarded_eq (b : Bytes) : parseGuarded b = some (parse b) := by
  unfold parseGuarded parse
  split
  · rfl
  · rename_i h
    have hlen : 28 ≤ b.length := Nat.le_of_not_lt h
    rw [word16AtGuarded_of_le (by omega), word16AtGuarded_of_le (by omega),
      word16AtGuarded_of_le (by omega), byteAtGuarded_of_lt (by omega),
      byteAtGuarded_of_lt (by omega), macAtGuarded_of_le (by omega), macAtGuarded_of_le (by omega),
      ipAtGuarded_of_le (by omega), ipAtGuarded_of_le (by omega)]
    simp only [Option.bind_eq_bind, Option.bind_some]
    split
    · rfl
    · split
      · rfl
      · cases Operation.ofNumber? (word16At b 6) <;> rfl

/-- `Packet.build` in guarded steps: the fields are written into a string of zeros. -/
def Packet.buildGuarded (p : Packet) : Option Bytes := do
  let b ← overwriteGuarded (List.replicate packetLength 0) 0 (bytes16 1)
  let b ← overwriteGuarded b 2 (bytes16 EtherType.ipv4.number)
  let b ← overwriteGuarded b 4 [6]
  let b ← overwriteGuarded b 5 [4]
  let b ← overwriteGuarded b 6 (bytes16 p.operation.number)
  let b ← overwriteGuarded b 8 p.senderMac.octets
  let b ← overwriteGuarded b 14 p.senderIp.octets
  let b ← overwriteGuarded b 18 p.targetMac.octets
  overwriteGuarded b 24 p.targetIp.octets

theorem Packet.buildGuarded_eq (p : Packet) : p.buildGuarded = some p.build := rfl

/-- `Packet.frame` in guarded steps. -/
def Packet.frameGuarded (p : Packet) : Option Bytes := do
  return Ethernet.build {
    dst := match p.operation with
      | .request => .broadcast
      | .reply => p.targetMac
    src := p.senderMac
    etherType := EtherType.arp.number
    payload := ← p.buildGuarded }

theorem Packet.frameGuarded_eq (p : Packet) : p.frameGuarded = some p.frame := rfl

end Arp

/-! ## Checksums -/

/-- `wordSum` in guarded steps: each word is read off its own two bytes. -/
def wordSumGuarded : UInt32 → Bytes → Option UInt32
  | acc, [] => some acc
  | acc, [hi] => some (acc + UInt32.ofNat (hi.toNat * 256))
  | acc, hi :: lo :: rest => do
    let word ← word16AtGuarded [hi, lo] 0
    wordSumGuarded (acc + UInt32.ofNat word.toNat) rest

theorem wordSumGuarded_eq (acc : UInt32) (b : Bytes) :
    wordSumGuarded acc b = some (wordSum acc b) := by
  fun_induction wordSum acc b with
  | case1 acc => rfl
  | case2 acc hi => rfl
  | case3 acc hi lo rest ih =>
    have hword : (word16At [hi, lo] 0).toNat = hi.toNat * 256 + lo.toNat := by
      have := hi.toNat_lt
      have := lo.toNat_lt
      simp [word16At, byteAt]
      omega
    rw [wordSumGuarded, word16AtGuarded_of_le (by simp), Option.bind_eq_bind, Option.bind_some,
      hword, ih]

/-- `onesSum` in guarded steps. -/
def onesSumGuarded (start : Nat) (b : Bytes) : Option Nat := do
  return foldCarries (← wordSumGuarded (UInt32.ofNat start) b).toNat

theorem onesSumGuarded_eq (start : Nat) (b : Bytes) :
    onesSumGuarded start b = some (onesSum start b) := by
  unfold onesSumGuarded
  rw [wordSumGuarded_eq]
  rfl

/-- `checksum` in guarded steps. -/
def checksumGuarded (b : Bytes) : Option UInt16 := do
  return complement (← onesSumGuarded 0 b)

theorem checksumGuarded_eq (b : Bytes) : checksumGuarded b = some (checksum b) := by
  unfold checksumGuarded
  rw [onesSumGuarded_eq]
  rfl

/-- `pseudoHeader` in guarded steps: the fields are written into a string of zeros. -/
def pseudoHeaderGuarded (src dst : Ipv4Addr) (protocol : UInt8) (length : Nat) : Option Bytes := do
  let b ← overwriteGuarded (List.replicate 12 0) 0 src.octets
  let b ← overwriteGuarded b 4 dst.octets
  let b ← overwriteGuarded b 9 [protocol]
  overwriteGuarded b 10 (bytes16 (UInt16.ofNat length))

theorem pseudoHeaderGuarded_eq (src dst : Ipv4Addr) (protocol : UInt8) (length : Nat) :
    pseudoHeaderGuarded src dst protocol length = some (pseudoHeader src dst protocol length) :=
  rfl

/-- `segmentChecksum` in guarded steps. -/
def segmentChecksumGuarded (src dst : Ipv4Addr) (protocol : UInt8) (segment : Bytes) :
    Option UInt16 := do
  let pseudo ← pseudoHeaderGuarded src dst protocol segment.length
  let start ← onesSumGuarded 0 pseudo
  return complement (← onesSumGuarded start segment)

theorem segmentChecksumGuarded_eq (src dst : Ipv4Addr) (protocol : UInt8) (segment : Bytes) :
    segmentChecksumGuarded src dst protocol segment =
      some (segmentChecksum src dst protocol segment) := by
  unfold segmentChecksumGuarded
  rw [pseudoHeaderGuarded_eq]
  simp only [Option.bind_eq_bind, Option.bind_some, onesSumGuarded_eq]
  rfl

/-! ## Segments -/

namespace Tcp

/-- `parse` in guarded steps. -/
def parseGuarded (b : Bytes) : Option (Except Malformed Header) :=
  if b.length < minHeaderLength then return .error .tcpTooShort
  else do
    let headerLength := (← byteAtGuarded b 12).toNat / 16 * 4
    if headerLength < minHeaderLength ∨ b.length < headerLength then return .error .tcpDataOffset
    else
      let srcPort ← word16AtGuarded b 0
      let dstPort ← word16AtGuarded b 2
      let flags ← byteAtGuarded b 13
      return .ok { srcPort, dstPort, flags := ⟨flags⟩ }

theorem parseGuarded_eq (b : Bytes) : parseGuarded b = some (parse b) := by
  unfold parseGuarded parse
  dsimp only
  split
  · rfl
  · rename_i h
    have hlen : 20 ≤ b.length := Nat.le_of_not_lt h
    rw [byteAtGuarded_of_lt (by omega), byteAtGuarded_of_lt (by omega),
      word16AtGuarded_of_le (by omega), word16AtGuarded_of_le (by omega)]
    simp only [Option.bind_eq_bind, Option.bind_some]
    split <;> rfl

/-- `withPorts` in guarded steps. -/
def withPortsGuarded (b : Bytes) (srcPort dstPort : UInt16) : Option Bytes := do
  overwriteGuarded (← overwriteGuarded b 0 (bytes16 srcPort)) 2 (bytes16 dstPort)

theorem withPortsGuarded_eq (h : 4 ≤ b.length) (srcPort dstPort : UInt16) :
    withPortsGuarded b srcPort dstPort = some (withPorts b srcPort dstPort) := by
  unfold withPortsGuarded
  rw [overwriteGuarded_of_le (by simp; omega)]
  exact overwriteGuarded_of_le (by simp; omega)

/-- `refreshChecksum` in guarded steps. -/
def refreshChecksumGuarded (b : Bytes) (src dst : Ipv4Addr) : Option Bytes := do
  let cleared ← overwriteGuarded b 16 [0, 0]
  let sum ← segmentChecksumGuarded src dst Protocol.tcp.number cleared
  overwriteGuarded cleared 16 (bytes16 sum)

theorem refreshChecksumGuarded_eq (h : 18 ≤ b.length) (src dst : Ipv4Addr) :
    refreshChecksumGuarded b src dst = some (refreshChecksum b src dst) := by
  unfold refreshChecksumGuarded
  rw [overwriteGuarded_of_le (by simpa using h)]
  simp only [Option.bind_eq_bind, Option.bind_some, segmentChecksumGuarded_eq]
  exact overwriteGuarded_of_le (by simpa using h)

end Tcp

namespace Udp

/-- `parse` in guarded steps. -/
def parseGuarded (b : Bytes) : Option (Except Malformed Datagram) :=
  if b.length < headerLength then return .error .udpTooShort
  else do
    let length := (← word16AtGuarded b 4).toNat
    if length < headerLength ∨ b.length < length then return .error .udpLength
    else
      let datagram ← sliceGuarded b 0 length
      let srcPort ← word16AtGuarded datagram 0
      let dstPort ← word16AtGuarded datagram 2
      let payload ← sliceGuarded datagram headerLength datagram.length
      return .ok { srcPort, dstPort, payload }

theorem parseGuarded_eq (b : Bytes) : parseGuarded b = some (parse b) := by
  unfold parseGuarded parse
  dsimp only
  split
  · rfl
  · rename_i h
    have hlen : 8 ≤ b.length := Nat.le_of_not_lt h
    rw [word16AtGuarded_of_le (by omega)]
    simp only [Option.bind_eq_bind, Option.bind_some]
    split
    · rfl
    · rename_i hlength
      simp only [headerLength, not_or, Nat.not_lt] at hlength
      obtain ⟨hmin, hmax⟩ := hlength
      have htaken : (b.take (word16At b 4).toNat).length = (word16At b 4).toNat :=
        List.length_take_of_le hmax
      have hword : ∀ i, i + 2 ≤ 8 →
          word16At (b.take (word16At b 4).toNat) i = word16At b i := fun i hi =>
        word16At_congr fun k hk => byteAt_take (by omega)
      rw [sliceGuarded_from_start hmax]
      simp only [Option.bind_some]
      rw [word16AtGuarded_of_le (by omega), word16AtGuarded_of_le (by omega),
        sliceGuarded_to_end (by rw [htaken]; exact hmin), hword 0 (by decide), hword 2 (by decide)]
      rfl

/-- `withPorts` in guarded steps. -/
def withPortsGuarded (b : Bytes) (srcPort dstPort : UInt16) : Option Bytes := do
  overwriteGuarded (← overwriteGuarded b 0 (bytes16 srcPort)) 2 (bytes16 dstPort)

theorem withPortsGuarded_eq (h : 4 ≤ b.length) (srcPort dstPort : UInt16) :
    withPortsGuarded b srcPort dstPort = some (withPorts b srcPort dstPort) :=
  Tcp.withPortsGuarded_eq h srcPort dstPort

/-- `refreshChecksum` in guarded steps. -/
def refreshChecksumGuarded (b : Bytes) (src dst : Ipv4Addr) : Option Bytes := do
  let sum ← word16AtGuarded b 6
  if sum = 0 then return b
  else
    let cleared ← overwriteGuarded b 6 [0, 0]
    let sum ← segmentChecksumGuarded src dst Protocol.udp.number cleared
    overwriteGuarded cleared 6 (bytes16 (writtenChecksum sum))

theorem refreshChecksumGuarded_eq (h : 8 ≤ b.length) (src dst : Ipv4Addr) :
    refreshChecksumGuarded b src dst = some (refreshChecksum b src dst) := by
  unfold refreshChecksumGuarded refreshChecksum lacksChecksum
  rw [word16AtGuarded_of_le h, overwriteGuarded_of_le (by simpa using h)]
  simp only [Option.bind_eq_bind, Option.bind_some, segmentChecksumGuarded_eq, beq_iff_eq]
  split
  · rfl
  · exact overwriteGuarded_of_le (by simpa using h)

/-- `build` in guarded steps. -/
def buildGuarded (src dst : Ipv4Addr) (d : Datagram) : Option Bytes :=
  refreshChecksumGuarded (bytes16 d.srcPort ++ bytes16 d.dstPort ++
    bytes16 (UInt16.ofNat (headerLength + d.payload.length)) ++ [0xff, 0xff] ++ d.payload) src dst

theorem buildGuarded_eq (src dst : Ipv4Addr) (d : Datagram) :
    buildGuarded src dst d = some (build src dst d) :=
  refreshChecksumGuarded_eq (by simp; omega) src dst

end Udp

namespace Icmp

/-- `parse` in guarded steps. -/
def parseGuarded (b : Bytes) : Option (Except Malformed Message) :=
  if b.length < headerLength then return .error .icmpTooShort
  else do
    let type ← byteAtGuarded b 0
    let code ← byteAtGuarded b 1
    let identifier ← word16AtGuarded b 4
    let sequence ← word16AtGuarded b 6
    return .ok { type, code, identifier, sequence }

theorem parseGuarded_eq (b : Bytes) : parseGuarded b = some (parse b) := by
  unfold parseGuarded parse
  split
  · rfl
  · rename_i h
    have hlen : 8 ≤ b.length := Nat.le_of_not_lt h
    rw [byteAtGuarded_of_lt (by omega), byteAtGuarded_of_lt (by omega),
      word16AtGuarded_of_le (by omega), word16AtGuarded_of_le (by omega)]
    rfl

/-- `withIdentifier` in guarded steps. -/
def withIdentifierGuarded (b : Bytes) (id : UInt16) : Option Bytes :=
  overwriteGuarded b 4 (bytes16 id)

theorem withIdentifierGuarded_eq (h : 6 ≤ b.length) (id : UInt16) :
    withIdentifierGuarded b id = some (withIdentifier b id) :=
  overwriteGuarded_of_le h

/-- `refreshChecksum` in guarded steps. -/
def refreshChecksumGuarded (b : Bytes) : Option Bytes := do
  let cleared ← overwriteGuarded b 2 [0, 0]
  let sum ← checksumGuarded cleared
  overwriteGuarded cleared 2 (bytes16 sum)

theorem refreshChecksumGuarded_eq (h : 4 ≤ b.length) :
    refreshChecksumGuarded b = some (refreshChecksum b) := by
  unfold refreshChecksumGuarded
  rw [overwriteGuarded_of_le (by simpa using h)]
  simp only [Option.bind_eq_bind, Option.bind_some, checksumGuarded_eq]
  exact overwriteGuarded_of_le (by simpa using h)

/-- `echoReply` in guarded steps. -/
def echoReplyGuarded (request : Bytes) : Option (Except Error Bytes) := do
  match ← parseGuarded request with
  | .error cause => return .error (.malformed cause)
  | .ok m =>
    if m.isEchoRequest then
      return .ok (← refreshChecksumGuarded (← overwriteGuarded request 0 [echoReplyType]))
    else return .error .notEchoRequest

theorem echoReplyGuarded_eq (request : Bytes) :
    echoReplyGuarded request = some (echoReply request) := by
  unfold echoReplyGuarded echoReply
  rw [parseGuarded_eq, Option.bind_eq_bind, Option.bind_some]
  cases hparse : parse request with
  | error cause => rfl
  | ok m =>
    have hlen : 8 ≤ request.length := (parse_eq_ok.1 hparse).1
    dsimp only
    split
    · rw [overwriteGuarded_of_le (by simp; omega), Option.bind_eq_bind, Option.bind_some,
        refreshChecksumGuarded_eq (by simp; omega)]
      rfl
    · rfl

/-- `unreachable` in guarded steps: what is quoted ends where the packet ends. -/
def unreachableGuarded (code : UInt8) (original : Bytes) (originalHeaderLength : Nat) :
    Option Bytes := do
  let quoted ← sliceGuarded original 0 (min original.length (originalHeaderLength + 8))
  refreshChecksumGuarded ([unreachableType, code, 0, 0, 0, 0, 0, 0] ++ quoted)

theorem unreachableGuarded_eq (code : UInt8) (original : Bytes) (originalHeaderLength : Nat) :
    unreachableGuarded code original originalHeaderLength =
      some (unreachable code original originalHeaderLength) := by
  unfold unreachableGuarded unreachable
  rw [sliceGuarded_from_start (Nat.min_le_left ..), Option.bind_eq_bind, Option.bind_some,
    Nat.min_comm, ← List.take_eq_take_min]
  exact refreshChecksumGuarded_eq (by simp)

end Icmp

end Wire

end SegmentRouter
