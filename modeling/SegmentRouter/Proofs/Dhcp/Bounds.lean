import SegmentRouter.Proofs.Dhcp.Messages
import SegmentRouter.Proofs.Wire.Guards

/-!
# Proofs/Dhcp/Bounds — DHCP messages are read and written within their bounds

The options of a message follow each other, each with a length of its own.  The reader that goes
byte by byte is told here in the steps of one that cuts each value off at once: it does so after it
has compared the length with what is left, and both read the same (`readOptionsGuarded_eq`).
-/

namespace SegmentRouter.Wire.Dhcp

variable {options : Options} {code : UInt8} {b v : Bytes} {i j left : Nat}

/-! ## Options -/

theorem length_of_sliceGuarded (h : sliceGuarded b i j = some v) : v.length = j - i := by
  unfold sliceGuarded at h
  split at h
  · rename_i hle
    obtain rfl := Option.some.inj h
    rw [List.length_drop, List.length_take_of_le hle.2]
  · cases h

/-- `readOptions` in guarded steps, of which each reads one option. -/
def readOptionsGuarded (options : Options) : Bytes → Option (Except Malformed Options)
  | [] => some (.ok options)
  | code :: rest =>
    if code = padCode then readOptionsGuarded options rest
    else if code = endCode then some (.ok options)
    else match rest with
      | [] => some (.error .dhcpOptionLength)
      | n :: rest =>
        if rest.length < n.toNat then some (.error (.dhcpOptionTruncated code))
        else match sliceGuarded rest 0 n.toNat, _h : sliceGuarded rest n.toNat rest.length with
          | some value, some others => readOptionsGuarded (extend options code value) others
          | _, _ => none
termination_by rest => rest.length
decreasing_by
  · simp
  · have hlength := length_of_sliceGuarded _h
    simp only [List.length_cons]
    omega

/-- **Options are read within the message**, whatever lengths they claim to have. -/
theorem readOptionsGuarded_eq : ∀ (options : Options) (b : Bytes),
    readOptionsGuarded options b = some (readOptions options .atCode b)
  | options, [] => by rw [readOptionsGuarded, readOptions]
  | options, [code] => by
    rw [readOptionsGuarded, readOptions]
    split
    · rw [readOptionsGuarded, readOptions]
    · split
      · rfl
      · rfl
  | options, code :: n :: rest => by
    rw [readOptionsGuarded, readOptions]
    split
    · exact readOptionsGuarded_eq options (n :: rest)
    · split
      · rfl
      · rw [readOptions_atLength]
        split
        · rfl
        · rename_i hfits
          rw [Nat.not_lt] at hfits
          rw [sliceGuarded_from_start hfits, sliceGuarded_to_end hfits]
          exact readOptionsGuarded_eq _ _
termination_by _ b => b.length
decreasing_by all_goals simp only [List.length_cons, List.length_drop]; omega

/-! ## Messages -/

/-- `parse` in guarded steps. -/
def parseGuarded (b : Bytes) : Option (Except Malformed Message) :=
  if b.length < headerLength + cookie.length then return .error .dhcpTooShort
  else do
    let mark ← sliceGuarded b headerLength (headerLength + cookie.length)
    if mark ≠ cookie then return .error .dhcpCookie
    else
      let operation ← byteAtGuarded b 0
      match Sender.ofNumber? operation with
      | none => return .error (.bootpOperation operation)
      | some sender =>
        let hardware ← byteAtGuarded b 1
        let macLength ← byteAtGuarded b 2
        if hardware ≠ 1 ∨ macLength ≠ 6 then return .error .dhcpHardware
        else
          let rest ← sliceGuarded b (headerLength + cookie.length) b.length
          match ← readOptionsGuarded ∅ rest with
          | .error cause => return .error cause
          | .ok options =>
            let xid ← word32AtGuarded b 4
            let secs ← word16AtGuarded b 8
            let flags ← word16AtGuarded b 10
            let ciaddr ← ipAtGuarded b 12
            let yiaddr ← ipAtGuarded b 16
            let siaddr ← ipAtGuarded b 20
            let giaddr ← ipAtGuarded b 24
            let chaddr ← macAtGuarded b 28
            return .ok {
              sender, xid, secs, flags, ciaddr, yiaddr, siaddr, giaddr, chaddr, options }

theorem parseGuarded_eq (b : Bytes) : parseGuarded b = some (parse b) := by
  unfold parseGuarded parse
  split
  · rfl
  · rename_i h
    have hlen : 240 ≤ b.length := Nat.le_of_not_lt h
    have hmark : sliceGuarded b headerLength (headerLength + cookie.length) =
        some ((b.drop headerLength).take cookie.length) := by
      rw [sliceGuarded_of_le (by omega) (Nat.le_of_not_lt h), List.drop_take,
        Nat.add_sub_cancel_left]
    have hrest : sliceGuarded b (headerLength + cookie.length) b.length =
        some (b.drop (headerLength + cookie.length)) := sliceGuarded_to_end hlen
    rw [hmark, hrest, byteAtGuarded_of_lt (by omega), byteAtGuarded_of_lt (by omega),
      byteAtGuarded_of_lt (by omega), word32AtGuarded_of_le (by omega),
      word16AtGuarded_of_le (by omega), word16AtGuarded_of_le (by omega),
      ipAtGuarded_of_le (by omega), ipAtGuarded_of_le (by omega), ipAtGuarded_of_le (by omega),
      ipAtGuarded_of_le (by omega), macAtGuarded_of_le (by omega)]
    simp only [Option.bind_eq_bind, Option.bind_some, readOptionsGuarded_eq]
    split
    · rfl
    · cases Sender.ofNumber? (byteAt b 0) with
      | none => rfl
      | some sender =>
        dsimp only
        split
        · rfl
        · cases readOptions ∅ .atCode (b.drop (headerLength + cookie.length)) <;> rfl

namespace Message

/-- `headerBytes` in guarded steps: the fields are written into a string of zeros. -/
def headerBytesGuarded (m : Message) : Option Bytes := do
  let b ← overwriteGuarded (List.replicate headerLength 0) 0 [m.sender.number]
  let b ← overwriteGuarded b 1 [1]
  let b ← overwriteGuarded b 2 [6]
  let b ← overwriteGuarded b 4 (bytes32 m.xid)
  let b ← overwriteGuarded b 8 (bytes16 m.secs)
  let b ← overwriteGuarded b 10 (bytes16 m.flags)
  let b ← overwriteGuarded b 12 m.ciaddr.octets
  let b ← overwriteGuarded b 16 m.yiaddr.octets
  let b ← overwriteGuarded b 20 m.siaddr.octets
  let b ← overwriteGuarded b 24 m.giaddr.octets
  overwriteGuarded b 28 m.chaddr.octets

set_option maxRecDepth 4000 in
theorem headerBytesGuarded_eq (m : Message) : m.headerBytesGuarded = some m.headerBytes := rfl

/-- `build` in guarded steps. -/
def buildGuarded (m : Message) : Option Bytes := do
  let b := (← m.headerBytesGuarded) ++ cookie ++ m.optionBytes ++ [endCode]
  return b ++ List.replicate (minLength - b.length) padCode

theorem buildGuarded_eq (m : Message) : m.buildGuarded = some m.build := by
  unfold buildGuarded
  rw [headerBytesGuarded_eq]
  rfl

end Message

end SegmentRouter.Wire.Dhcp
