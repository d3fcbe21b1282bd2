import Mathlib.Data.List.DropRight
import SegmentRouter.Text.Field
import SegmentRouter.Text.Numeral

/-!
# Proofs/Text/Decimal — numbers in decimal, within blanks

A number is read of exactly the texts that write it: digits with its value, however many zeros they
begin with (`number?_eq_some_iff`), and at most one plus sign in front (`unsigned?_eq_some_iff`).
Digits and signs are no blanks, so what is left of a text without the blanks at its ends is such a
number exactly if the text is the number within blanks (`trim_eq_iff_padded`).
-/

namespace SegmentRouter.Text

variable {cs core : List Char} {m n max : Nat} {c : Char}

/-! ## Digits -/

/-- **A text is a number in decimal**: it has digits and nothing else, and they have its value. -/
structure IsDecimal (cs : List Char) (n : Nat) : Prop where
  ne_nil : cs ≠ []
  digits : ∀ c ∈ cs, c.isDigit = true
  value : Nat.ofDigitChars 10 cs 0 = n

theorem digit?_ten (c : Char) :
    digit? 10 c = if c.isDigit then some (c.toNat - '0'.toNat) else none := by
  have hle : ∀ {x y : Char}, x ≤ y ↔ x.toNat ≤ y.toNat := Char.le_def
  simp only [digit?, Char.isDigit_iff_toNat, hle, Char.reduceToNat]
  grind

/-- Digits are read from any number on. -/
theorem continueNumber?_eq_some_iff : continueNumber? 10 m cs = some n ↔
    (∀ c ∈ cs, c.isDigit = true) ∧ Nat.ofDigitChars 10 cs m = n := by
  induction cs generalizing m with
  | nil => simp [continueNumber?]
  | cons c cs ih =>
    rw [continueNumber?, digit?_ten, Nat.ofDigitChars_cons, Nat.mul_comm 10 m, List.forall_mem_cons]
    by_cases hc : c.isDigit = true
    · simp only [hc, if_true, true_and]
      exact ih
    · simp [hc]

/-- **Numbers are read of decimal texts**, and of no others. -/
theorem number?_eq_some_iff : number? 10 cs = some n ↔ IsDecimal cs n := by
  rcases cs with _ | ⟨c, cs⟩
  · exact ⟨nofun, fun h => absurd rfl h.ne_nil⟩
  · rw [number?, continueNumber?_eq_some_iff]
    · exact ⟨fun ⟨hdigits, hvalue⟩ => ⟨List.cons_ne_nil c cs, hdigits, hvalue⟩,
        fun h => ⟨h.digits, h.value⟩⟩
    · exact nofun

/-- A number as it is printed is a decimal text. -/
theorem isDecimal_toDigits (n : Nat) : IsDecimal (Nat.toDigits 10 n) n where
  ne_nil := Nat.toDigits_ne_nil
  digits := fun _ => Nat.isDigit_of_mem_toDigits (by decide) (by decide)
  value := Nat.ofDigitChars_ten_toDigits

/-! ## Signs -/

/-- **A number with at most one plus sign in front.** -/
def IsUnsigned (cs : List Char) (n : Nat) : Prop :=
  ∃ digits, IsDecimal digits n ∧ (cs = digits ∨ cs = '+' :: digits)

theorem isUnsigned_iff :
    IsUnsigned cs n ↔ IsDecimal (match cs with | '+' :: rest => rest | _ => cs) n := by
  constructor
  · rintro ⟨digits, hdigits, rfl | rfl⟩
    · split
      · exact absurd (hdigits.digits '+' List.mem_cons_self) (by decide)
      · exact hdigits
    · exact hdigits
  · intro hdigits
    split at hdigits
    · exact ⟨_, hdigits, .inr rfl⟩
    · exact ⟨_, hdigits, .inl rfl⟩

/-- **Numbers are read with their sign, up to the largest one.** -/
theorem unsigned?_eq_some_iff : unsigned? max cs = some n ↔ IsUnsigned cs n ∧ n ≤ max := by
  rw [isUnsigned_iff, ← number?_eq_some_iff, unsigned?.eq_def]
  dsimp only
  generalize number? 10 _ = number
  cases number with
  | none => simp
  | some k => grind

/-- What a number is written with. -/
theorem IsUnsigned.isDigit_or (h : IsUnsigned cs n) (hc : c ∈ cs) : c.isDigit = true ∨ c = '+' := by
  obtain ⟨digits, hdigits, rfl | rfl⟩ := h
  · exact .inl (hdigits.digits c hc)
  · rcases List.mem_cons.1 hc with rfl | hc
    · exact .inr rfl
    · exact .inl (hdigits.digits c hc)

/-! ## Blanks -/

/-- **A text within blanks.** -/
def Padded (core cs : List Char) : Prop :=
  ∃ before after, cs = before ++ core ++ after ∧ (∀ c ∈ before, isBlank c = true) ∧
    ∀ c ∈ after, isBlank c = true

theorem trim_eq (cs : List Char) : trim cs = (cs.dropWhile isBlank).rdropWhile isBlank := rfl

theorem padded_trim (cs : List Char) : Padded (trim cs) cs := by
  refine ⟨cs.takeWhile isBlank, (cs.dropWhile isBlank).rtakeWhile isBlank, ?_,
    fun _ => List.mem_takeWhile_imp, fun _ => List.mem_rtakeWhile_imp⟩
  rw [trim_eq, List.append_assoc, List.rdropWhile_append_rtakeWhile,
    List.takeWhile_append_dropWhile]

/-- **A text without blanks is what is left of it within blanks**, and of no other text. -/
theorem trim_eq_iff_padded (hcore : ∀ c ∈ core, isBlank c = false) :
    trim cs = core ↔ Padded core cs := by
  constructor
  · rintro rfl
    exact padded_trim cs
  · rintro ⟨before, after, rfl, hbefore, hafter⟩
    rw [trim_eq, List.append_assoc, List.dropWhile_append_of_pos hbefore]
    rcases core with _ | ⟨c, core⟩
    · rw [List.nil_append, List.dropWhile_eq_nil_iff.2 hafter, List.rdropWhile_nil]
    · have hfirst : ¬ isBlank c = true := Bool.eq_false_iff.1 (hcore c List.mem_cons_self)
      have hback : ∀ x ∈ after.reverse, isBlank x = true := fun x hx =>
        hafter x (List.mem_reverse.1 hx)
      calc ((c :: core ++ after).dropWhile isBlank).rdropWhile isBlank
          = (c :: core ++ after).rdropWhile isBlank := by
            rw [List.cons_append, List.dropWhile_cons_of_neg hfirst]
        _ = (c :: core).rdropWhile isBlank := by
            rw [List.rdropWhile, List.reverse_append, List.dropWhile_append_of_pos hback,
              List.rdropWhile]
        _ = c :: core := List.rdropWhile_eq_self_iff.2 fun hne =>
            Bool.eq_false_iff.1 (hcore _ (List.getLast_mem hne))

/-- Where the blanks stand among the characters. -/
theorem toNat_of_isBlank (hc : isBlank c = true) : c.toNat ≤ 32 ∨ 128 < c.toNat := by
  have hle : ∀ {x y : Char}, x ≤ y ↔ x.toNat ≤ y.toNat := Char.le_def
  have heq : ∀ {x y : Char}, x = y ↔ x.toNat = y.toNat := Char.toNat_inj.symm
  simp only [isBlank, Bool.or_eq_true, Bool.and_eq_true, decide_eq_true_eq, beq_iff_eq, hle, heq,
    Char.reduceToNat] at hc
  omega

/-- No number holds a blank. -/
theorem IsUnsigned.isBlank_eq_false (h : IsUnsigned cs n) (hc : c ∈ cs) : isBlank c = false := by
  rw [Bool.eq_false_iff]
  intro hblank
  have hnat := toNat_of_isBlank hblank
  rcases h.isDigit_or hc with hdigit | rfl
  · rw [Char.isDigit_iff_toNat] at hdigit
    simp only [Char.reduceToNat] at hdigit
    omega
  · simp only [Char.reduceToNat] at hnat
    omega

end SegmentRouter.Text
