import Mathlib.Data.List.Forall2
import Mathlib.Tactic.IntervalCases
import SegmentRouter.Address.Mac

/-!
# Proofs/Address/MacText — hardware addresses in writing

A text is its pieces joined by separators (`Text.Joined`), and cutting it at every separator is the
only way to take it apart again (`Text.fields_eq_iff_joined`).  An octet in writing is a pair of
hexadecimal digits; the number parser behind it also takes a plus sign for the first of the two.
So the texts that are read are those with six octets, of which the ones without a plus sign are in
proper form (`Mac.ofText?_eq_some_iff_spells`).
-/

namespace SegmentRouter

/-! ## Texts and their pieces -/

namespace Text

variable {sep : Char → Bool} {pieces : List (List Char)} {cs : List Char}

/-- **A text is made of pieces** with one separator between each and the next. -/
inductive Joined (sep : Char → Bool) : List (List Char) → List Char → Prop
  | last (piece : List Char) : Joined sep [piece] piece
  | next (piece : List Char) {c : Char} (hc : sep c = true) {pieces : List (List Char)}
      {rest : List Char} (h : Joined sep pieces rest) :
      Joined sep (piece :: pieces) (piece ++ c :: rest)

/-- The fields of a text, joined, are the text. -/
theorem joined_fields (sep : Char → Bool) (cs : List Char) : Joined sep (fields sep cs) cs := by
  induction cs with
  | nil => exact .last []
  | cons c cs ih =>
    rw [fields]
    split
    · rename_i hc
      exact .next [] hc ih
    · split
      · rename_i piece rest hfields
        rw [hfields] at ih
        cases ih with
        | last => exact .last (c :: cs)
        | next _ hc h => exact .next (c :: piece) hc h
      · rename_i hnil
        exact absurd hnil (fields_ne_nil sep cs)

/-- A piece without separators is the first field of what goes on with one. -/
theorem fields_append_sep {piece : List Char} (hpiece : ∀ x ∈ piece, sep x = false) {c : Char}
    (hc : sep c = true) (rest : List Char) :
    fields sep (piece ++ c :: rest) = piece :: fields sep rest := by
  induction piece with
  | nil => simp [fields, hc]
  | cons x piece ih =>
    have hx : sep x = false := hpiece x List.mem_cons_self
    have ih := ih fun y hy => hpiece y (List.mem_cons_of_mem _ hy)
    simp [fields, hx, ih]

/-- A text without separators is its only field. -/
theorem fields_of_not_sep (hcs : ∀ x ∈ cs, sep x = false) : fields sep cs = [cs] := by
  induction cs with
  | nil => rfl
  | cons x cs ih =>
    have hx : sep x = false := hcs x List.mem_cons_self
    have ih := ih fun y hy => hcs y (List.mem_cons_of_mem _ hy)
    simp [fields, hx, ih]

/-- **Cutting undoes joining**, and nothing else does. -/
theorem fields_eq_iff_joined : fields sep cs = pieces ↔
    Joined sep pieces cs ∧ ∀ piece ∈ pieces, ∀ x ∈ piece, sep x = false := by
  constructor
  · rintro rfl
    exact ⟨joined_fields sep cs, fun piece hpiece x hx => not_sep_of_mem_fields hpiece hx⟩
  · rintro ⟨hjoined, hclean⟩
    induction hjoined with
    | last piece => exact fields_of_not_sep (hclean piece List.mem_cons_self)
    | next piece hc _ ih =>
      rw [fields_append_sep (hclean piece List.mem_cons_self) hc,
        ih fun p hp => hclean p (List.mem_cons_of_mem _ hp)]

/-- What a text is made of: the characters of its pieces and the separators. -/
theorem Joined.mem_iff (h : Joined sep pieces cs) {x : Char} (hx : sep x = false) :
    x ∈ cs ↔ ∃ piece ∈ pieces, x ∈ piece := by
  induction h with
  | last piece => simp
  | next piece hc _ ih =>
    have hne : x ≠ _ := fun he => by
      rw [he, hc] at hx
      cases hx
    simp [hne, ih]

/-! ## Digits -/

/-- **A hexadecimal digit and its value**, in either case. -/
def IsHexDigit (c : Char) (value : Nat) : Prop :=
  "0123456789abcdef".toList[value]? = some c ∨ "0123456789ABCDEF".toList[value]? = some c

theorem IsHexDigit.lt {c : Char} {value : Nat} (h : IsHexDigit c value) : value < 16 := by
  rcases h with h | h <;> exact (List.getElem?_eq_some_iff.1 h).1

/-- Where the digits of base 16 stand among the characters. -/
theorem toNat_of_digit? {c : Char} {value : Nat} (h : digit? 16 c = some value) :
    c.toNat = 48 + value ∧ value < 10 ∨
      (c.toNat = 87 + value ∨ c.toNat = 55 + value) ∧ 10 ≤ value ∧ value < 16 := by
  have hlt := digit?_lt h
  have hle : ∀ {x y : Char}, x ≤ y ↔ x.toNat ≤ y.toNat := Char.le_def
  simp only [digit?, hle, Char.reduceToNat] at h
  split_ifs at h <;> cases h <;> omega

/-- The digits of base 16 are the hexadecimal ones. -/
theorem digit?_eq_some_iff_isHexDigit {c : Char} {value : Nat} :
    digit? 16 c = some value ↔ IsHexDigit c value := by
  constructor
  · intro h
    have hc : ∀ {n : Nat}, c.toNat = n → c = Char.ofNat n := by
      rintro _ rfl
      exact c.ofNat_toNat.symm
    obtain ⟨hn, hlt⟩ | ⟨hn | hn, hge, hlt⟩ := toNat_of_digit? h
    all_goals
      rw [hc hn]
      clear h hc hn
      interval_cases value <;> simp [IsHexDigit]
  · intro h
    have hlt := h.lt
    unfold IsHexDigit at h
    interval_cases value <;> rcases h with h | h <;> cases h <;> decide

end Text

namespace Mac

variable {group : List Char} {o : UInt8} {s : String} {m : Mac}

/-! ## Octets -/

/-- **Two hexadecimal digits write an octet.** -/
def IsPair (group : List Char) (o : UInt8) : Prop :=
  ∃ x y high low, group = [x, y] ∧ Text.IsHexDigit x high ∧ Text.IsHexDigit y low ∧
    o.toNat = high * 16 + low

/-- A plus sign and one hexadecimal digit write an octet below 16. -/
def IsSigned (group : List Char) (o : UInt8) : Prop :=
  ∃ y, group = ['+', y] ∧ Text.IsHexDigit y o.toNat

theorem not_isHexDigit_plus (value : Nat) : ¬ Text.IsHexDigit '+' value := by
  rw [← Text.digit?_eq_some_iff_isHexDigit]
  exact nofun

/-- The number parser reads pairs of digits, and signed digits besides. -/
theorem octet?_eq_some_iff : octet? group = some o ↔ IsPair group o ∨ IsSigned group o := by
  have hoctet : ∀ {n : Nat}, n < 256 → (UInt8.ofNat n = o ↔ o.toNat = n) := fun {n} hn => by
    rw [← UInt8.toNat_inj, UInt8.toNat_ofNat', Nat.mod_eq_of_lt hn, eq_comm]
  constructor
  · intro h
    unfold octet? at h
    split at h
    · rename_i y
      obtain ⟨value, hy, ho⟩ := Option.map_eq_some_iff.1 h
      have hlt := Text.digit?_lt hy
      have hvalue := (hoctet (by omega)).1 ho
      exact .inr ⟨y, rfl, Text.digit?_eq_some_iff_isHexDigit.1 (hvalue ▸ hy)⟩
    · rename_i x y _
      split at h
      · rename_i high low hx hy
        have hhigh := Text.digit?_lt hx
        have hlow := Text.digit?_lt hy
        exact .inl ⟨x, y, high, low, rfl, Text.digit?_eq_some_iff_isHexDigit.1 hx,
          Text.digit?_eq_some_iff_isHexDigit.1 hy, (hoctet (by omega)).1 (Option.some.inj h)⟩
      · cases h
    · cases h
  · rintro (⟨x, y, high, low, rfl, hx, hy, ho⟩ | ⟨y, rfl, hy⟩)
    · have hplus : x ≠ '+' := fun he => not_isHexDigit_plus high (he ▸ hx)
      have hhigh := hx.lt
      have hlow := hy.lt
      rw [← Text.digit?_eq_some_iff_isHexDigit] at hx hy
      rw [octet?]
      · simp [hx, hy, (hoctet (by omega)).2 ho]
      · exact hplus
    · rw [← Text.digit?_eq_some_iff_isHexDigit] at hy
      simp [octet?, hy]

theorem IsPair.plus_notMem (h : IsPair group o) : '+' ∉ group := by
  obtain ⟨x, y, high, low, rfl, hx, hy, -⟩ := h
  simp only [List.mem_cons, List.not_mem_nil, or_false, not_or]
  exact ⟨fun he => not_isHexDigit_plus high (he ▸ hx), fun he => not_isHexDigit_plus low (he ▸ hy)⟩

theorem IsSigned.plus_mem (h : IsSigned group o) : '+' ∈ group := by
  obtain ⟨y, rfl, -⟩ := h
  exact List.mem_cons_self

/-! ## Addresses -/

/-- What stands between two octets: a colon or a hyphen. -/
def isSeparator (c : Char) : Bool :=
  c == ':' || c == '-'

/-- **A text spells an address**: it is six groups with a separator between each and the next, and
each group writes its octet. -/
def Spells (writes : List Char → UInt8 → Prop) (s : String) (m : Mac) : Prop :=
  ∃ groups, Text.Joined isSeparator groups s.toList ∧ List.Forall₂ writes groups m.octets

theorem isSeparator_of_isHexDigit {c : Char} {value : Nat} (h : Text.IsHexDigit c value) :
    isSeparator c = false := by
  have hne : c ≠ ':' ∧ c ≠ '-' := by
    rw [← Text.digit?_eq_some_iff_isHexDigit] at h
    constructor <;> (rintro rfl; cases h)
  simp [isSeparator, hne]

/-- No octet holds a separator. -/
theorem isSeparator_of_octet? (h : octet? group = some o) : ∀ x ∈ group, isSeparator x = false := by
  rcases octet?_eq_some_iff.1 h with ⟨x, y, high, low, rfl, hx, hy, -⟩ | ⟨y, rfl, hy⟩
  · simp [isSeparator_of_isHexDigit hx, isSeparator_of_isHexDigit hy]
  · have hplus : isSeparator '+' = false := rfl
    simp [hplus, isSeparator_of_isHexDigit hy]

/-- An address is read field by field. -/
theorem ofText?_eq_some_iff_forall₂ : ofText? s = some m ↔
    List.Forall₂ (fun group o => octet? group = some o)
      (Text.fields isSeparator s.toList) m.octets := by
  have hfields : Text.fields (fun c => c == ':' || c == '-') s.toList =
      Text.fields isSeparator s.toList := rfl
  unfold ofText?
  rw [hfields]
  generalize Text.fields isSeparator s.toList = groups
  constructor
  · intro h
    split at h
    · split at h
      · cases h
        simp [octets, *]
      · cases h
    · cases h
  · intro h
    obtain ⟨a, b, c, d, e, f⟩ := m
    simp only [octets, List.forall₂_cons_right_iff, List.forall₂_nil_right_iff] at h
    obtain ⟨_, _, ha, ⟨_, _, hb, ⟨_, _, hc, ⟨_, _, hd, ⟨_, _, he, ⟨_, _, hf, rfl, rfl⟩, rfl⟩, rfl⟩,
      rfl⟩, rfl⟩, rfl⟩ := h
    simp [ha, hb, hc, hd, he, hf]

/-- **The texts that are read** are those that spell an address with pairs and signed digits. -/
theorem ofText?_eq_some_iff : ofText? s = some m ↔
    Spells (fun group o => IsPair group o ∨ IsSigned group o) s m := by
  simp only [ofText?_eq_some_iff_forall₂, Spells, ← octet?_eq_some_iff]
  constructor
  · exact fun h => ⟨_, Text.joined_fields .., h⟩
  · rintro ⟨groups, hjoined, h⟩
    have hclean := (List.forall₂_and_left groups m.octets).1
      (h.imp fun _ _ ho => ⟨isSeparator_of_octet? ho, ho⟩)
    rwa [Text.fields_eq_iff_joined.2 ⟨hjoined, hclean.1⟩]

/-- In a text that is read the plus signs are those of its signed digits. -/
theorem spells_isPair_iff : Spells IsPair s m ↔ ofText? s = some m ∧ '+' ∉ s.toList := by
  have hplus : isSeparator '+' = false := rfl
  constructor
  · rintro ⟨groups, hjoined, h⟩
    have hpairs := (List.forall₂_and_left groups m.octets).1
      (h.imp fun _ _ hpair => ⟨hpair.plus_notMem, hpair⟩)
    refine ⟨ofText?_eq_some_iff.2 ⟨groups, hjoined, h.imp fun _ _ => .inl⟩, ?_⟩
    rw [hjoined.mem_iff hplus]
    rintro ⟨group, hgroup, hmem⟩
    exact hpairs.1 group hgroup hmem
  · rintro ⟨hread, hnone⟩
    obtain ⟨groups, hjoined, h⟩ := ofText?_eq_some_iff.1 hread
    have hclean : ∀ group ∈ groups, '+' ∉ group := fun group hgroup hmem =>
      hnone ((hjoined.mem_iff hplus).2 ⟨group, hgroup, hmem⟩)
    refine ⟨groups, hjoined, ((List.forall₂_and_left groups m.octets).2 ⟨hclean, h⟩).imp ?_⟩
    rintro group o ⟨hno, ho⟩
    exact ho.resolve_right fun hsigned => hno hsigned.plus_mem

/-- An octet is written with a pair of digits. -/
theorem isPair_hexByte (o : UInt8) : IsPair (Text.hexByte o) o := by
  have hdigit : ∀ value < 16, Text.IsHexDigit (Text.hexDigit value) value := by
    intro value hvalue
    interval_cases value <;> exact .inl rfl
  have ho := o.toNat_lt
  exact ⟨_, _, _, _, rfl, hdigit _ (by omega), hdigit _ (by omega), by omega⟩

/-- Pieces with separators between them are joined. -/
theorem joined_intercalate (first : List Char) (rest : List (List Char)) :
    Text.Joined isSeparator (first :: rest) ([':'].intercalate (first :: rest)) := by
  induction rest generalizing first with
  | nil => simpa using Text.Joined.last first
  | cons second rest ih => simpa using Text.Joined.next first rfl (ih second)

/-- The text of an address is in proper form. -/
theorem spells_text (m : Mac) : Spells IsPair m.text m := by
  have htext : m.text.toList = [':'].intercalate (m.octets.map Text.hexByte) := by
    simp [text, String.toList_intercalate, Function.comp_def]
  refine ⟨m.octets.map Text.hexByte, htext ▸ joined_intercalate .., ?_⟩
  rw [List.forall₂_map_left_iff, List.forall₂_same]
  exact fun o _ => isPair_hexByte o

/-- **Texts are read exactly.**  A text is read as an address if and only if it spells the address
with six octets, where a pair of digits writes an octet and so does a plus sign with one digit.
Without plus signs those are the texts in proper form, and the address as it is printed is one of
them. -/
theorem ofText?_eq_some_iff_spells (s : String) (m : Mac) :
    (ofText? s = some m ↔ Spells (fun group o => IsPair group o ∨ IsSigned group o) s m) ∧
    (Spells IsPair s m ↔ ofText? s = some m ∧ '+' ∉ s.toList) ∧
    ofText? m.text = some m :=
  ⟨ofText?_eq_some_iff, spells_isPair_iff, (spells_isPair_iff.1 (spells_text m)).1⟩

/-- A signed digit is read in place of a pair. -/
theorem ofText?_signed :
    ofText? "+f:00:00:00:00:00" = some ⟨15, 0, 0, 0, 0, 0⟩ ∧
    ∀ m, ¬ Spells IsPair "+f:00:00:00:00:00" m := by
  refine ⟨by decide, fun m h => ?_⟩
  have hnone := (spells_isPair_iff.1 h).2
  simp at hnone

end Mac

end SegmentRouter
