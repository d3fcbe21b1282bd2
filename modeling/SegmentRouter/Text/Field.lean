/-!
# Text/Field — text cut at separators and trimmed

`fields` cuts at every separator and `cut?` at the first one; both keep every other character
(`not_sep_of_mem_fields`, `cut?_eq_some`). `trim` takes off the blanks at the ends; blank are the
characters with the Unicode property White_Space.
-/

namespace SegmentRouter.Text

/-- The pieces of a text between its separators; a text with none is one piece. -/
def fields (sep : Char → Bool) : List Char → List (List Char)
  | [] => [[]]
  | c :: cs =>
    if sep c then [] :: fields sep cs
    else match fields sep cs with
      | piece :: rest => (c :: piece) :: rest
      | [] => [[c]]

/-- The text before and after the first occurrence of a character. -/
def cut? (sep : Char) : List Char → Option (List Char × List Char)
  | [] => none
  | c :: cs => if c = sep then some ([], cs) else (cut? sep cs).map fun p => (c :: p.1, p.2)

theorem fields_ne_nil (sep : Char → Bool) (cs : List Char) : fields sep cs ≠ [] := by
  cases cs with
  | nil => simp [fields]
  | cons c cs =>
    rw [fields]
    split
    · simp
    · split <;> simp

/-- No piece holds a separator. -/
theorem not_sep_of_mem_fields {sep : Char → Bool} {piece : List Char} {c : Char} :
    ∀ {cs : List Char}, piece ∈ fields sep cs → c ∈ piece → sep c = false
  | [], h, hc => by
    simp only [fields, List.mem_singleton] at h
    subst h
    cases hc
  | x :: cs, h, hc => by
    rw [fields] at h
    split at h
    · rcases List.mem_cons.1 h with rfl | h
      · cases hc
      · exact not_sep_of_mem_fields h hc
    · rename_i hx
      have hx : sep x = false := by simpa using hx
      split at h
      · rename_i p rest hf
        rcases List.mem_cons.1 h with rfl | h
        · rcases List.mem_cons.1 hc with rfl | hc
          · exact hx
          · have hp : p ∈ fields sep cs := hf ▸ List.mem_cons_self
            exact not_sep_of_mem_fields hp hc
        · have hp : piece ∈ fields sep cs := hf ▸ List.mem_cons_of_mem _ h
          exact not_sep_of_mem_fields hp hc
      · simp only [List.mem_singleton] at h
        subst h
        simp only [List.mem_singleton] at hc
        exact hc ▸ hx

/-- The cut is at the first separator and loses only it. -/
theorem cut?_eq_some {sep : Char} : ∀ {cs a b : List Char},
    cut? sep cs = some (a, b) → cs = a ++ sep :: b ∧ sep ∉ a
  | [], _, _, h => by simp [cut?] at h
  | c :: cs, a, b, h => by
    rw [cut?] at h
    split at h
    · rename_i hc
      cases h
      simp [hc]
    · rename_i hc
      obtain ⟨⟨a', b'⟩, h', he⟩ := Option.map_eq_some_iff.1 h
      cases he
      obtain ⟨rfl, hn⟩ := cut?_eq_some h'
      exact ⟨rfl, by simp [hn, Ne.symm hc]⟩

theorem cut?_append {sep : Char} {a : List Char} (ha : sep ∉ a) (b : List Char) :
    cut? sep (a ++ sep :: b) = some (a, b) := by
  induction a with
  | nil => simp [cut?]
  | cons c a ih =>
    have hc : ¬ c = sep := fun he => ha (he ▸ List.mem_cons_self)
    have ih := ih fun hmem => ha (List.mem_cons_of_mem c hmem)
    simp [cut?, hc, ih]

/-- Only a text without the character is not cut. -/
theorem cut?_eq_none_iff {sep : Char} {cs : List Char} : cut? sep cs = none ↔ sep ∉ cs := by
  constructor
  · intro h hmem
    obtain ⟨a, b, rfl, ha⟩ := List.eq_append_cons_of_mem hmem
    rw [cut?_append ha] at h
    cases h
  · intro h
    refine Option.eq_none_iff_forall_ne_some.2 fun (a, b) hcut => h ?_
    rw [(cut?_eq_some hcut).1]
    exact List.mem_append_right a List.mem_cons_self

/-! ## Blanks -/

/-- Whether a character has the Unicode property White_Space. -/
def isBlank (c : Char) : Bool :=
  ('\t' ≤ c && c ≤ '\r') || c == ' ' || c == '\x85' || c == '\xa0' || c == '\u1680' ||
    ('\u2000' ≤ c && c ≤ '\u200a') || c == '\u2028' || c == '\u2029' || c == '\u202f' ||
    c == '\u205f' || c == '\u3000'

/-- Text without the blanks at its two ends. -/
def trim (cs : List Char) : List Char :=
  ((cs.dropWhile isBlank).reverse.dropWhile isBlank).reverse

example : trim "\t 80\u3000".toList = "80".toList := by decide

end SegmentRouter.Text
