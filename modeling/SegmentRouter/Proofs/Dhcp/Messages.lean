import SegmentRouter.Proofs.SortedMap.Entries
import SegmentRouter.Proofs.Wire.Fields
import SegmentRouter.Wire.Dhcp

/-!
# Proofs/Dhcp/Messages — a message that is written reads back

The options of a message are a sequence of codes with values, among which there may be padding
(`Spells`).  A reader accepts the strings that spell such a sequence and no others, and joins the
values of each code (`readOptions_eq_ok_iff`).  A value that is too long for one option is written
in pieces; the pieces joined are the value (`readOptions_writeOption`).  So what is written of a
message reads back, and a message that was read is one that can be written again
(`messages_read_back`).
-/

namespace SegmentRouter.Wire.Dhcp

variable {options after : Options} {code : UInt8} {value b rest : Bytes}
  {entries : List (UInt8 × Bytes)} {m : Message}

/-! ## Reading one option -/

/-- A value that ends too early is told as such. -/
theorem readOptions_truncated {left : Nat} (h : b.length ≤ left) :
    readOptions options (.inValue code left) b = .error (.dhcpOptionTruncated code) := by
  induction b generalizing options left with
  | nil => rfl
  | cons c rest ih =>
    obtain ⟨left, rfl⟩ : ∃ n, left = n + 1 := ⟨left - 1, by simp at h; omega⟩
    rw [readOptions]
    exact ih (by simpa using h)

/-- **After its code and its length an option has a value of that length**, which joins what the
code has. -/
theorem readOptions_atLength (options : Options) (code n : UInt8) (b : Bytes) :
    readOptions options (.atLength code) (n :: b) =
      if b.length < n.toNat then .error (.dhcpOptionTruncated code)
      else readOptions (extend options code (b.take n.toNat)) .atCode (b.drop n.toNat) := by
  rw [readOptions]
  cases n.toNat with
  | zero => rw [if_neg (Nat.not_lt_zero _), List.take_zero, List.drop_zero]
  | succ left =>
    dsimp only
    split
    · rename_i hshort
      exact readOptions_truncated (Nat.le_of_lt_succ hshort)
    · rename_i hlong
      conv_lhs => rw [← List.take_append_drop (left + 1) b]
      exact readOptions_value options code _ _ left (by rw [List.length_take]; omega)

theorem readOptions_shortOption (hpad : code ≠ padCode) (hend : code ≠ endCode)
    (hlen : value.length ≤ 255) (options : Options) (rest : Bytes) :
    readOptions options .atCode (shortOption code value ++ rest) =
      readOptions (extend options code value) .atCode rest := by
  have hlength : (UInt8.ofNat value.length).toNat = value.length := by
    rw [UInt8.toNat_ofNat']
    omega
  rw [shortOption, List.cons_append, List.cons_append, readOptions, if_neg hpad, if_neg hend,
    readOptions_atLength, hlength, if_neg (by simp), List.take_left, List.drop_left]

/-! ## The strings that are read -/

/-- **A byte string spells a sequence of options**: between pad bytes stand options that are
complete, up to an end byte or to the end of the string. -/
inductive Spells : List (UInt8 × Bytes) → Bytes → Prop
  | stop : Spells [] []
  | finish (rest : Bytes) : Spells [] (endCode :: rest)
  | pad {entries : List (UInt8 × Bytes)} {rest : Bytes} (h : Spells entries rest) :
      Spells entries (padCode :: rest)
  | option {code : UInt8} {value : Bytes} {entries : List (UInt8 × Bytes)} {rest : Bytes}
      (hpad : code ≠ padCode) (hend : code ≠ endCode) (hlen : value.length ≤ 255)
      (h : Spells entries rest) : Spells ((code, value) :: entries) (shortOption code value ++ rest)

/-- The options with those of a sequence, one after another. -/
def gather (options : Options) (entries : List (UInt8 × Bytes)) : Options :=
  entries.foldl (fun options e => extend options e.1 e.2) options

theorem readOptions_of_spells (h : Spells entries b) (options : Options) :
    readOptions options .atCode b = .ok (gather options entries) := by
  induction h generalizing options with
  | stop => rfl
  | finish rest => rfl
  | pad h ih => exact ih options
  | option hpad hend hlen h ih =>
    rw [readOptions_shortOption hpad hend hlen, ih]
    rfl

theorem spells_of_readOptions (h : readOptions options .atCode b = .ok after) :
    ∃ entries, Spells entries b ∧ gather options entries = after := by
  -- an option takes more than one byte off the string, so the induction is on its length
  induction hlength : b.length using Nat.strongRecOn generalizing options b with
  | ind length ih =>
    subst hlength
    cases b with
    | nil => exact ⟨[], .stop, Except.ok.inj h⟩
    | cons code rest =>
      rw [readOptions] at h
      split at h
      · rename_i hpad
        subst hpad
        obtain ⟨entries, hspells, hgather⟩ := ih rest.length (Nat.lt_succ_self _) h rfl
        exact ⟨entries, .pad hspells, hgather⟩
      · rename_i hpad
        split at h
        · rename_i hend
          subst hend
          exact ⟨[], .finish rest, Except.ok.inj h⟩
        · rename_i hend
          cases rest with
          | nil => cases h
          | cons n tail =>
            rw [readOptions_atLength] at h
            split at h
            · cases h
            · rename_i hlong
              have hvalue : (tail.take n.toNat).length = n.toNat := by
                rw [List.length_take]
                omega
              have hn := n.toNat_lt
              obtain ⟨entries, hspells, hgather⟩ := ih (tail.drop n.toNat).length
                (by simp only [List.length_drop, List.length_cons]; omega) h rfl
              have hwritten : Spells ((code, tail.take n.toNat) :: entries)
                  (shortOption code (tail.take n.toNat) ++ tail.drop n.toNat) :=
                hspells.option hpad hend (by omega)
              rw [shortOption, hvalue, UInt8.ofNat_toNat, List.cons_append, List.cons_append,
                List.take_append_drop] at hwritten
              exact ⟨_, hwritten, hgather⟩

/-- **The strings that are read are those that spell options**, and what is read of them is the
values of each code joined. -/
theorem readOptions_eq_ok_iff : readOptions options .atCode b = .ok after ↔
    ∃ entries, Spells entries b ∧ gather options entries = after := by
  refine ⟨spells_of_readOptions, ?_⟩
  rintro ⟨entries, hspells, rfl⟩
  exact readOptions_of_spells hspells options

/-! ## Written options -/

theorem writeOption_of_le (h : value.length ≤ 255) (code : UInt8) :
    writeOption code value = shortOption code value := by
  have hone : (if value.isEmpty then 1 else (value.length + 254) / 255) = 1 := by
    split
    · rfl
    · rename_i hne
      have := List.length_pos_iff.2 fun he => hne (List.isEmpty_iff.2 he)
      omega
  rw [writeOption, hone, List.range_one, List.flatMap_singleton, Nat.mul_zero, List.drop_zero,
    List.take_of_length_le h]

/-- A value that is too long for one option goes on in the next one. -/
theorem writeOption_of_lt (h : 255 < value.length) (code : UInt8) :
    writeOption code value =
      shortOption code (value.take 255) ++ writeOption code (value.drop 255) := by
  have hpieces {v : Bytes} (hv : 0 < v.length) :
      (if v.isEmpty then 1 else (v.length + 254) / 255) = (v.length + 254) / 255 :=
    if_neg fun he => Nat.ne_of_gt hv (List.length_eq_zero_iff.2 (List.isEmpty_iff.1 he))
  have hrest : (value.drop 255).length = value.length - 255 := List.length_drop
  have hcount : (value.length + 254) / 255 = (value.length - 255 + 254) / 255 + 1 := by omega
  rw [writeOption, hpieces (by omega), hcount, writeOption, hpieces (by omega), hrest,
    List.range_succ_eq_map, List.flatMap_cons, List.flatMap_map, Nat.mul_zero, List.drop_zero]
  simp only [List.drop_drop, Nat.mul_succ, Nat.add_comm]

/-- **An option that is written reads back**, in however many pieces. -/
theorem readOptions_writeOption (hpad : code ≠ padCode) (hend : code ≠ endCode)
    (options : Options) (value rest : Bytes) :
    readOptions options .atCode (writeOption code value ++ rest) =
      readOptions (extend options code value) .atCode rest := by
  induction hlength : value.length using Nat.strongRecOn generalizing options value with
  | ind length ih =>
    subst hlength
    by_cases hlen : value.length ≤ 255
    · rw [writeOption_of_le hlen, readOptions_shortOption hpad hend hlen]
    · rw [writeOption_of_lt (by omega), List.append_assoc,
        readOptions_shortOption hpad hend (by rw [List.length_take]; omega),
        ih (value.drop 255).length (by rw [List.length_drop]; omega) _ _ rfl, extend_extend,
        List.take_append_drop]

theorem readOptions_flatMap (hcodes : ∀ e ∈ entries, e.1 ≠ padCode ∧ e.1 ≠ endCode)
    (options : Options) (rest : Bytes) :
    readOptions options .atCode ((entries.flatMap fun e => writeOption e.1 e.2) ++ rest) =
      readOptions (gather options entries) .atCode rest := by
  induction entries generalizing options with
  | nil => rfl
  | cons e entries ih =>
    obtain ⟨hpad, hend⟩ := hcodes e List.mem_cons_self
    rw [List.flatMap_cons, List.append_assoc, readOptions_writeOption hpad hend,
      ih fun e he => hcodes e (List.mem_cons_of_mem _ he)]
    rfl

/-! ## Options one after another -/

/-- Of codes that occur once each the values are kept as they are. -/
theorem gather_eq_ofList (hnodup : (entries.map (·.1)).Nodup) :
    gather ∅ entries = SortedMap.ofList entries := by
  induction entries using List.reverseRecOn with
  | nil => rfl
  | append_singleton entries e ih =>
    rw [List.map_append, List.nodup_append] at hnodup
    have hnew : (SortedMap.ofList entries).get? e.1 = none :=
      Option.eq_none_iff_forall_ne_some.2 fun v hv => hnodup.2.2 e.1
        (List.mem_map.2 ⟨(e.1, v), SortedMap.mem_of_get?_ofList hv, rfl⟩) e.1
        (List.mem_singleton.2 rfl) rfl
    rw [SortedMap.ofList_concat, ← ih hnodup.1, gather, List.foldl_append, List.foldl_cons,
      List.foldl_nil, ← gather, extend, ih hnodup.1, hnew, Option.getD_none, List.nil_append]

theorem get?_gather_of_notMem {k : UInt8} (h : k ∉ entries.map (·.1)) (options : Options) :
    (gather options entries).get? k = options.get? k := by
  induction entries generalizing options with
  | nil => rfl
  | cons e entries ih =>
    rw [List.map_cons, List.mem_cons, not_or] at h
    obtain ⟨hne, hrest⟩ := h
    rw [gather, List.foldl_cons, ← gather, ih hrest, extend, SortedMap.get?_insert, if_neg hne]

/-- The codes of padding and of the end are no options' codes. -/
theorem Spells.code_ne (h : Spells entries b) :
    ∀ e ∈ entries, e.1 ≠ padCode ∧ e.1 ≠ endCode := by
  induction h with
  | stop | finish => exact fun _ he => nomatch he
  | pad h ih => exact ih
  | option hpad hend hlen h ih => exact List.forall_mem_cons.2 ⟨⟨hpad, hend⟩, ih⟩

/-! ## Messages -/

namespace Message

/-- No option of the message has the code of padding or of the end. -/
structure IsWritable (m : Message) : Prop where
  pad : m.options.get? padCode = none
  finish : m.options.get? endCode = none

/-- The options of a message in the order in which they are written. -/
def written (m : Message) : List (UInt8 × Bytes) :=
  ((m.options.get? kindCode).map (Prod.mk kindCode)).toList ++ (m.options.erase kindCode).toList

theorem optionBytes_eq (m : Message) :
    m.optionBytes = m.written.flatMap fun e => writeOption e.1 e.2 := by
  unfold optionBytes written
  rw [List.flatMap_append]
  cases m.options.get? kindCode with
  | none => rfl
  | some value => exact congrArg (· ++ _) (List.append_nil _).symm

/-- Each option is written once. -/
theorem written_perm (m : Message) : m.written.Perm m.options.toList := by
  unfold written
  cases hkind : m.options.get? kindCode with
  | none => rw [SortedMap.erase_eq_self hkind]; exact .rfl
  | some value => exact (SortedMap.toList_erase hkind).symm

theorem gather_written (m : Message) : gather ∅ m.written = m.options := by
  have hperm := m.written_perm
  have hnodup : (m.written.map (·.1)).Nodup :=
    (hperm.map _).nodup_iff.2 m.options.nodup_keys
  rw [gather_eq_ofList hnodup]
  exact SortedMap.ofList_eq_of_perm hperm

theorem IsWritable.code_ne (h : m.IsWritable) :
    ∀ e ∈ m.written, e.1 ≠ padCode ∧ e.1 ≠ endCode := by
  intro e he
  have hvalue := SortedMap.get?_eq_some_iff.2 (m.written_perm.mem_iff.1 he)
  refine ⟨fun hpad => ?_, fun hend => ?_⟩
  · rw [hpad, h.pad] at hvalue
    cases hvalue
  · rw [hend, h.finish] at hvalue
    cases hvalue

end Message

/-- **A byte string has the frame of a message**: it is long enough, the cookie stands behind the
header, and the hardware addresses are those of Ethernet. -/
structure IsFramed (b : Bytes) : Prop where
  length : headerLength + cookie.length ≤ b.length
  cookie : (b.drop headerLength).take cookie.length = cookie
  hardware : byteAt b 1 = 1
  addressLength : byteAt b 2 = 6

/-- The message with the fields of a header. -/
def messageOf (b : Bytes) (sender : Sender) (options : Options) : Message where
  sender
  xid := word32At b 4
  secs := word16At b 8
  flags := word16At b 10
  ciaddr := ipAt b 12
  yiaddr := ipAt b 16
  siaddr := ipAt b 20
  giaddr := ipAt b 24
  chaddr := macAt b 28
  options

theorem parse_eq_ok_iff : parse b = .ok m ↔ IsFramed b ∧ ∃ sender options,
    Sender.ofNumber? (byteAt b 0) = some sender ∧
    readOptions ∅ .atCode (b.drop (headerLength + cookie.length)) = .ok options ∧
    messageOf b sender options = m := by
  unfold parse
  constructor
  · intro h
    split at h
    · cases h
    · rename_i hlength
      split at h
      · cases h
      · rename_i hcookie
        split at h
        · cases h
        · rename_i sender hsender
          split at h
          · cases h
          · rename_i hhardware
            split at h
            · cases h
            · rename_i options hoptions
              rw [not_or, not_not, not_not] at hhardware
              exact ⟨⟨Nat.le_of_not_lt hlength, not_not.1 hcookie, hhardware.1, hhardware.2⟩,
                sender, options, hsender, hoptions, Except.ok.inj h⟩
  · rintro ⟨hframed, sender, options, hsender, hoptions, rfl⟩
    rw [if_neg (Nat.not_lt.2 hframed.length), if_neg (not_not.2 hframed.cookie), hsender, hoptions]
    dsimp only
    rw [if_neg (not_or.2 ⟨not_not.2 hframed.hardware, not_not.2 hframed.addressLength⟩)]
    rfl

/-- **A byte string is one of a message**: it has the frame of one, is from a client or a server,
and goes on with options. -/
structure IsMessage (b : Bytes) : Prop extends IsFramed b where
  operation : byteAt b 0 = 1 ∨ byteAt b 0 = 2
  options : ∃ entries, Spells entries (b.drop (headerLength + Dhcp.cookie.length))

theorem Sender.exists_ofNumber?_iff {n : UInt8} :
    (∃ sender, ofNumber? n = some sender) ↔ n = 1 ∨ n = 2 := by
  unfold ofNumber?
  split
  · rename_i hone
    exact iff_of_true ⟨client, rfl⟩ (.inl hone)
  · rename_i hone
    split
    · rename_i htwo
      exact iff_of_true ⟨server, rfl⟩ (.inr htwo)
    · rename_i htwo
      exact iff_of_false (fun ⟨_, h⟩ => nomatch h) (not_or.2 ⟨hone, htwo⟩)

/-- **The strings that are read are those of messages.** -/
theorem exists_parse_iff : (∃ m, parse b = .ok m) ↔ IsMessage b := by
  simp only [parse_eq_ok_iff, readOptions_eq_ok_iff]
  constructor
  · rintro ⟨m, hframed, sender, options, hsender, ⟨entries, hspells, -⟩, -⟩
    exact ⟨hframed, Sender.exists_ofNumber?_iff.1 ⟨sender, hsender⟩, entries, hspells⟩
  · rintro ⟨hframed, hoperation, entries, hspells⟩
    obtain ⟨sender, hsender⟩ := Sender.exists_ofNumber?_iff.2 hoperation
    exact ⟨_, hframed, sender, _, hsender, ⟨entries, hspells, rfl⟩, rfl⟩

/-- Behind the header of a written message stand the cookie, the options and an end byte. -/
theorem build_eq (m : Message) : ∃ filler, m.build =
    m.headerBytes ++ (cookie ++ (m.optionBytes ++ endCode :: filler)) := by
  refine ⟨List.replicate
    (minLength - (m.headerBytes ++ cookie ++ m.optionBytes ++ [endCode]).length) padCode, ?_⟩
  rw [Message.build, List.append_assoc, List.append_assoc, List.append_assoc,
    List.singleton_append]

/-- The fields of a header that was written read back. -/
theorem messageOf_headerBytes (m : Message) (tail : Bytes) :
    messageOf (m.headerBytes ++ tail) m.sender m.options = m := by
  have hxid : word32At (m.headerBytes ++ tail) 4 = m.xid := word32At_of_drop rfl
  have hsecs : word16At (m.headerBytes ++ tail) 8 = m.secs := word16At_of_drop rfl
  have hflags : word16At (m.headerBytes ++ tail) 10 = m.flags := word16At_of_drop rfl
  have hciaddr : ipAt (m.headerBytes ++ tail) 12 = m.ciaddr := ipAt_of_drop rfl
  have hyiaddr : ipAt (m.headerBytes ++ tail) 16 = m.yiaddr := ipAt_of_drop rfl
  have hsiaddr : ipAt (m.headerBytes ++ tail) 20 = m.siaddr := ipAt_of_drop rfl
  have hgiaddr : ipAt (m.headerBytes ++ tail) 24 = m.giaddr := ipAt_of_drop rfl
  have hchaddr : macAt (m.headerBytes ++ tail) 28 = m.chaddr := macAt_of_drop rfl
  rw [messageOf, hxid, hsecs, hflags, hciaddr, hyiaddr, hsiaddr, hgiaddr, hchaddr]

/-- A header, the cookie and options read as the message with these fields and options. -/
theorem parse_headerBytes {tail : Bytes} (h : readOptions ∅ .atCode tail = .ok m.options) :
    parse (m.headerBytes ++ (cookie ++ tail)) = .ok m := by
  have hsender : Sender.ofNumber? m.sender.number = some m.sender := by cases m.sender <;> rfl
  have hbody : (m.headerBytes ++ (cookie ++ tail)).drop headerLength = cookie ++ tail :=
    List.drop_left' m.length_headerBytes
  refine parse_eq_ok_iff.2 ⟨⟨?_, ?_, rfl, rfl⟩, m.sender, m.options, hsender, ?_,
    messageOf_headerBytes m _⟩
  · rw [List.length_append, List.length_append, m.length_headerBytes]
    omega
  · rw [hbody, List.take_left]
  · rw [← List.drop_drop, hbody, List.drop_left, h]

/-- **A message that is written reads back.** -/
theorem parse_build (h : m.IsWritable) : parse m.build = .ok m := by
  obtain ⟨filler, hbuild⟩ := build_eq m
  rw [hbuild]
  apply parse_headerBytes
  rw [Message.optionBytes_eq, readOptions_flatMap h.code_ne, Message.gather_written]
  rfl

/-- What was read can be written. -/
theorem isWritable_of_parse (h : parse b = .ok m) : m.IsWritable := by
  obtain ⟨-, sender, options, -, hoptions, rfl⟩ := parse_eq_ok_iff.1 h
  obtain ⟨entries, hspells, rfl⟩ := readOptions_eq_ok_iff.1 hoptions
  have hne := hspells.code_ne
  exact {
    pad := get?_gather_of_notMem (fun hmem => by
      obtain ⟨e, he, hcode⟩ := List.mem_map.1 hmem
      exact (hne e he).1 hcode) ∅
    finish := get?_gather_of_notMem (fun hmem => by
      obtain ⟨e, he, hcode⟩ := List.mem_map.1 hmem
      exact (hne e he).2 hcode) ∅ }

/-- **The written messages and the read ones.**  A message whose options have codes of their own
reads back as it was written, in no fewer bytes than the least a message has, whatever the lengths
of its values.  The strings that are read are those of messages, and what was read of one reads back
when it is written again. -/
theorem messages_read_back :
    (∀ m : Message, m.IsWritable → parse m.build = .ok m ∧ minLength ≤ m.build.length) ∧
    (∀ b, (∃ m, parse b = .ok m) ↔ IsMessage b) ∧
    ∀ b m, parse b = .ok m → parse m.build = .ok m :=
  ⟨fun m h => ⟨parse_build h, m.minLength_le_length_build⟩, fun _ => exists_parse_iff,
    fun _ _ h => parse_build (isWritable_of_parse h)⟩

/-- A request with a host name of no bytes, vendor data of 255 and a file name of 300. -/
def longValues : Message :=
  (((Message.make .client .discover 7 ⟨2, 0, 0, 0, 0, 1⟩).withOption 12 []).withOption 43
    (List.replicate 255 1)).withOption 67 (List.replicate 300 2)

/-- A request whose host name stands in two options, with padding around the first of them. -/
def splitName : Bytes :=
  (Message.make .client .discover 7 ⟨2, 0, 0, 0, 0, 1⟩).headerBytes ++ (cookie ++
    [padCode, 12, 2, 97, 98, padCode, kindCode, 1, 1, 12, 1, 99])

theorem messages_read_back_longValues :
    longValues.IsWritable ∧ parse longValues.build = .ok longValues ∧
    IsMessage splitName ∧ ∃ m, parse splitName = .ok m ∧ m.options.get? 12 = some [97, 98, 99] ∧
      parse m.build = .ok m := by
  obtain ⟨hwritten, hread, hagain⟩ := messages_read_back
  have hwritable : longValues.IsWritable := ⟨rfl, rfl⟩
  let joined := (Message.make .client .discover 7 ⟨2, 0, 0, 0, 0, 1⟩).withOption 12 [97, 98, 99]
  have hsplit : parse splitName = .ok joined := parse_headerBytes (m := joined) rfl
  exact ⟨hwritable, (hwritten _ hwritable).1, (hread _).1 ⟨_, hsplit⟩, _, hsplit, rfl,
    hagain _ _ hsplit⟩

end SegmentRouter.Wire.Dhcp
