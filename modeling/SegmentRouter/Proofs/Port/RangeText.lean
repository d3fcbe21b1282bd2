import SegmentRouter.Proofs.Port.Range
import SegmentRouter.Proofs.Text.Decimal

/-!
# Proofs/Port/RangeText — ranges of ports in writing

An end of a range is written in decimal, with at most one plus sign in front and with blanks around
it (`Writes`).  A range is spelled by its only port or by its two ends with a hyphen between them
(`Spells`).  No end holds a hyphen, so a text is cut where it should be; each text either spells a
range or has a fault (`spells_or_fault`), and reading it gives that (`ofText_of_spells`,
`ofText_of_fault`).  The text of a range spells it (`spells_text`).
-/

namespace SegmentRouter.Port.Range

variable {cs a b : List Char} {s : String} {p q : UInt16} {r : Range} {cause : Malformed}

/-! ## Ports -/

/-- **A text writes a port**: it is a decimal number from 1 to 65535 within blanks, with at most one
plus sign. -/
def Writes (cs : List Char) (p : UInt16) : Prop :=
  ∃ core, Text.Padded core cs ∧ Text.IsUnsigned core p.toNat ∧ 0 < p.toNat

theorem Writes.pos (h : Writes cs p) : 0 < p.toNat := by
  obtain ⟨core, -, -, hpos⟩ := h
  exact hpos

/-- A text that writes a port is that number without its blanks. -/
theorem Writes.unsigned?_trim (h : Writes cs p) :
    Text.unsigned? 65535 (Text.trim cs) = some p.toNat := by
  obtain ⟨core, hpadded, hcore, -⟩ := h
  rw [(Text.trim_eq_iff_padded fun c hc => hcore.isBlank_eq_false hc).2 hpadded]
  exact Text.unsigned?_eq_some_iff.2 ⟨hcore, Nat.le_of_lt_succ p.toNat_lt⟩

/-- **Ports are read of the texts that write them.** -/
theorem port_eq_ok_iff : port cs = .ok p ↔ Writes cs p := by
  constructor
  · intro h
    have hpos := pos_of_port h
    rw [port] at h
    split at h
    · cases h
    · cases h
    · rename_i n _ hn
      obtain ⟨hcore, hle⟩ := Text.unsigned?_eq_some_iff.1 hn
      obtain rfl := Except.ok.inj h
      have hvalue : (UInt16.ofNat n).toNat = n := by
        rw [UInt16.toNat_ofNat', Nat.mod_eq_of_lt (Nat.lt_succ_of_le hle)]
      exact ⟨Text.trim cs, Text.padded_trim cs, hvalue.symm ▸ hcore, hpos⟩
  · intro h
    rw [port, h.unsigned?_trim]
    split
    · rename_i hzero
      exact absurd (Option.some.inj hzero) (Nat.ne_of_gt h.pos)
    · rename_i hnone
      cases hnone
    · rename_i n _ hn
      rw [← Option.some.inj hn, UInt16.ofNat_toNat]

theorem port_of_not_writes (h : ∀ p, ¬ Writes cs p) :
    port cs = .error (.port (String.ofList cs)) := by
  cases hport : port cs with
  | ok p => exact absurd (port_eq_ok_iff.1 hport) (h p)
  | error cause =>
    rw [port] at hport
    split at hport
    · exact hport.symm
    · exact hport.symm
    · cases hport

/-- No port is written with a hyphen. -/
theorem Writes.hyphen_notMem (h : Writes cs p) : '-' ∉ cs := by
  obtain ⟨core, ⟨before, after, rfl, hbefore, hafter⟩, hcore, -⟩ := h
  have hblank : Text.isBlank '-' = false := by decide
  rw [List.mem_append, List.mem_append]
  rintro ((hmem | hmem) | hmem)
  · exact Bool.eq_false_iff.1 hblank (hbefore _ hmem)
  · rcases hcore.isDigit_or hmem with hdigit | hplus
    · cases hdigit
    · cases hplus
  · exact Bool.eq_false_iff.1 hblank (hafter _ hmem)

/-- The digits of a port write it. -/
theorem writes_toDigits (hp : 0 < p.toNat) : Writes (Nat.toDigits 10 p.toNat) p :=
  ⟨_, ⟨[], [], by simp, nofun, nofun⟩, ⟨_, Text.isDecimal_toDigits _, .inl rfl⟩, hp⟩

/-! ## Ranges -/

/-- **A text spells a range**: it writes the only port of the range, or it writes the first and the
last one, in this order, with a hyphen between them. -/
inductive Spells : List Char → Range → Prop
  | single {cs : List Char} {p : UInt16} (h : Writes cs p) : Spells cs ⟨p, p⟩
  | ends {a b : List Char} {p q : UInt16} (hfirst : Writes a p) (hlast : Writes b q)
      (hle : p.toNat ≤ q.toNat) : Spells (a ++ '-' :: b) ⟨p, q⟩

/-- **What is wrong with a text that spells no range.**  Of two ends the first one at fault counts,
and it is named with its blanks. -/
inductive Fault : List Char → Malformed → Prop
  | single {cs : List Char} (hcut : '-' ∉ cs) (h : ∀ p, ¬ Writes cs p) :
      Fault cs (.port (String.ofList cs))
  | first {a b : List Char} (hcut : '-' ∉ a) (h : ∀ p, ¬ Writes a p) :
      Fault (a ++ '-' :: b) (.port (String.ofList a))
  | last {a b : List Char} {p : UInt16} (hfirst : Writes a p) (h : ∀ q, ¬ Writes b q) :
      Fault (a ++ '-' :: b) (.port (String.ofList b))
  | empty {a b : List Char} {p q : UInt16} (hfirst : Writes a p) (hlast : Writes b q)
      (hlt : q.toNat < p.toNat) :
      Fault (a ++ '-' :: b) (.emptyPortRange (String.ofList (a ++ '-' :: b)))

theorem Spells.sound (h : Spells cs r) : r.Sound := by
  rcases h with h | ⟨hfirst, -, hle⟩
  · exact ⟨h.pos, Nat.le_refl _⟩
  · exact ⟨hfirst.pos, hle⟩

/-- **A text spells a range or has a fault.** -/
theorem spells_or_fault (cs : List Char) : (∃ r, Spells cs r) ∨ ∃ cause, Fault cs cause := by
  cases hcut : Text.cut? '-' cs with
  | none =>
    by_cases h : ∃ p, Writes cs p
    · obtain ⟨p, hp⟩ := h
      exact .inl ⟨_, .single hp⟩
    · exact .inr ⟨_, .single (Text.cut?_eq_none_iff.1 hcut) (not_exists.1 h)⟩
  | some parts =>
    obtain ⟨a, b⟩ := parts
    obtain ⟨rfl, ha⟩ := Text.cut?_eq_some hcut
    by_cases hfirst : ∃ p, Writes a p
    · obtain ⟨p, hp⟩ := hfirst
      by_cases hlast : ∃ q, Writes b q
      · obtain ⟨q, hq⟩ := hlast
        rcases Nat.lt_or_ge q.toNat p.toNat with hlt | hle
        · exact .inr ⟨_, .empty hp hq hlt⟩
        · exact .inl ⟨_, .ends hp hq hle⟩
      · exact .inr ⟨_, .last hp (not_exists.1 hlast)⟩
    · exact .inr ⟨_, .first ha (not_exists.1 hfirst)⟩

/-! ## Reading -/

/-- Two ends are read one after the other. -/
theorem ends_of_cut (h : s.toList = a ++ '-' :: b) (ha : '-' ∉ a) :
    ends s = do return ⟨← port a, ← port b⟩ := by
  rw [ends, h, Text.cut?_append ha]
  dsimp only
  cases port a <;> cases port b <;> rfl

theorem ofText_of_spells (h : Spells s.toList r) : ofText s = .ok r := by
  generalize hcs : s.toList = cs at h
  rcases h with h | ⟨hfirst, hlast, hle⟩
  · rw [ofText, ends, hcs, Text.cut?_eq_none_iff.2 h.hyphen_notMem, port_eq_ok_iff.2 h]
    exact if_neg (Nat.lt_irrefl _)
  · rw [ofText, ends_of_cut hcs hfirst.hyphen_notMem, port_eq_ok_iff.2 hfirst,
      port_eq_ok_iff.2 hlast]
    exact if_neg (Nat.not_lt_of_le hle)

theorem ofText_of_fault (h : Fault s.toList cause) : ofText s = .error cause := by
  generalize hcs : s.toList = cs at h
  rcases h with ⟨hcut, h⟩ | ⟨hcut, h⟩ | ⟨hfirst, h⟩ | ⟨hfirst, hlast, hlt⟩
  · rw [ofText, ends, hcs, Text.cut?_eq_none_iff.2 hcut, port_of_not_writes h]
  · rw [ofText, ends_of_cut hcs hcut, port_of_not_writes h]
    rfl
  · rw [ofText, ends_of_cut hcs hfirst.hyphen_notMem, port_eq_ok_iff.2 hfirst, port_of_not_writes h]
    rfl
  · rw [ofText, ends_of_cut hcs hfirst.hyphen_notMem, port_eq_ok_iff.2 hfirst,
      port_eq_ok_iff.2 hlast, ← hcs, String.ofList_toList]
    exact if_pos hlt

/-! ## The text of a range -/

theorem toList_text (r : Range) : r.text.toList = if r.first = r.last
    then Nat.toDigits 10 r.first.toNat
    else Nat.toDigits 10 r.first.toNat ++ '-' :: Nat.toDigits 10 r.last.toNat := by
  have hport (p : UInt16) : (toString p).toList = Nat.toDigits 10 p.toNat := Nat.toList_repr
  rw [text]
  split
  · exact hport _
  · rw [String.toList_append, String.toList_append, hport, hport, List.append_assoc]
    rfl

/-- **The text of a range spells it.** -/
theorem spells_text (h : r.Sound) : Spells r.text.toList r := by
  obtain ⟨first, last⟩ := r
  have hlast : 0 < last.toNat := Nat.lt_of_lt_of_le h.pos h.ordered
  rw [toList_text]
  split
  · rename_i heq
    obtain rfl : first = last := heq
    exact .single (writes_toDigits h.pos)
  · exact .ends (writes_toDigits h.pos) (writes_toDigits hlast) h.ordered

/-- **The texts of ranges are read as the ranges they spell.**  A range that has a port and not port
0 is read of its own text; what is read of any text is such a range, and the text spells it; and a
text that spells none is refused for what is wrong with it. -/
theorem ofText_faithful :
    (∀ r : Range, r.Sound → ofText r.text = .ok r) ∧
    (∀ s r, ofText s = .ok r → r.Sound ∧ ofText r.text = .ok r) ∧
    (∀ s r, ofText s = .ok r ↔ Spells s.toList r) ∧
    ∀ s, (∀ r, ¬ Spells s.toList r) → ∃ cause, Fault s.toList cause ∧ ofText s = .error cause := by
  have hprinted (r : Range) (h : r.Sound) : ofText r.text = .ok r :=
    ofText_of_spells (spells_text h)
  have hread (s : String) (r : Range) (h : ofText s = .ok r) : Spells s.toList r := by
    rcases spells_or_fault s.toList with ⟨r', hr'⟩ | ⟨cause, hcause⟩
    · rw [ofText_of_spells hr'] at h
      exact Except.ok.inj h ▸ hr'
    · rw [ofText_of_fault hcause] at h
      cases h
  refine ⟨hprinted, ?_, fun s r => ⟨hread s r, ofText_of_spells⟩, ?_⟩
  · intro s r h
    have hsound := (hread s r h).sound
    exact ⟨hsound, hprinted r hsound⟩
  · intro s hnone
    obtain ⟨cause, hcause⟩ := (spells_or_fault s.toList).resolve_left (not_exists.2 hnone)
    exact ⟨cause, hcause, ofText_of_fault hcause⟩

/-- Zeros, a sign and blanks make no difference; a second hyphen does. -/
theorem ofText_faithful_padded :
    Sound ⟨80, 443⟩ ∧ ofText (text ⟨80, 443⟩) = .ok ⟨80, 443⟩ ∧
    ofText "\t+0080 -443\u3000" = .ok ⟨80, 443⟩ ∧ Spells "\t+0080 -443\u3000".toList ⟨80, 443⟩ ∧
    (∀ r, ¬ Spells "80-443-8080".toList r) ∧
    ∃ cause, Fault "80-443-8080".toList cause ∧ ofText "80-443-8080" = .error cause := by
  obtain ⟨hprinted, -, hread, hrefused⟩ := ofText_faithful
  have hsound : Sound ⟨80, 443⟩ := ⟨by decide, by decide⟩
  have hpadded : ofText "\t+0080 -443\u3000" = .ok ⟨80, 443⟩ := by rfl
  have hnone : ∀ r, ¬ Spells "80-443-8080".toList r := by
    intro r hr
    have hfault : ofText "80-443-8080" = .error (.port "443-8080") := by rfl
    rw [(hread _ r).2 hr] at hfault
    cases hfault
  exact ⟨hsound, hprinted _ hsound, hpadded, (hread _ _).1 hpadded, hnone, hrefused _ hnone⟩

end SegmentRouter.Port.Range
