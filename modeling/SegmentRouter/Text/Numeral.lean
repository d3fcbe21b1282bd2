/-!
# Text/Numeral — numbers written in positional notation

Numerals of any base up to 36, either letter case, and the unsigned decimal numbers of bounded size
that addresses, prefix lengths and ports are written with.
-/

namespace SegmentRouter.Text

/-- The value of a digit of the given base. -/
def digit? (base : Nat) (c : Char) : Option Nat :=
  let value :=
    if '0' ≤ c ∧ c ≤ '9' then c.toNat - '0'.toNat
    else if 'a' ≤ c ∧ c ≤ 'z' then c.toNat - 'a'.toNat + 10
    else if 'A' ≤ c ∧ c ≤ 'Z' then c.toNat - 'A'.toNat + 10
    else base
  if value < base then some value else none

/-- The number that a list of digits continues from the number before it. -/
def continueNumber? (base : Nat) : Nat → List Char → Option Nat
  | n, [] => some n
  | n, c :: cs =>
    match digit? base c with
    | some d => continueNumber? base (n * base + d) cs
    | none => none

/-- The number written by one or more digits of the given base. -/
def number? (base : Nat) : List Char → Option Nat
  | [] => none
  | cs => continueNumber? base 0 cs

/-- A decimal number up to `max`, with at most one plus sign in front. -/
def unsigned? (max : Nat) (cs : List Char) : Option Nat :=
  let digits := match cs with
    | '+' :: rest => rest
    | _ => cs
  match number? 10 digits with
  | some n => if n ≤ max then some n else none
  | none => none

/-- The hexadecimal digit of a number below 16, in lower case. -/
def hexDigit (n : Nat) : Char :=
  if n < 10 then Char.ofNat ('0'.toNat + n) else Char.ofNat ('a'.toNat + (n - 10))

/-- A byte as two hexadecimal digits. -/
def hexByte (b : UInt8) : List Char :=
  [hexDigit (b.toNat / 16), hexDigit (b.toNat % 16)]

/-- Digits of a number in base 16, at least `width` of them. -/
def hexPadded : (width : Nat) → Nat → List Char
  | 0, _ => []
  | width + 1, n => hexPadded width (n / 16) ++ [hexDigit (n % 16)]

theorem digit?_lt {base : Nat} {c : Char} {d : Nat} (h : digit? base c = some d) : d < base := by
  rw [digit?] at h
  generalize (if '0' ≤ c ∧ c ≤ '9' then c.toNat - '0'.toNat
    else if 'a' ≤ c ∧ c ≤ 'z' then c.toNat - 'a'.toNat + 10
    else if 'A' ≤ c ∧ c ≤ 'Z' then c.toNat - 'A'.toNat + 10 else base) = value at h
  by_cases hv : value < base
  · simp only [hv, if_true, Option.some.injEq] at h
    exact h ▸ hv
  · simp [hv] at h

theorem unsigned?_le {max : Nat} {cs : List Char} {n : Nat} (h : unsigned? max cs = some n) :
    n ≤ max := by
  simp only [unsigned?] at h
  split at h
  · split at h
    · cases h; assumption
    · cases h
  · cases h

end SegmentRouter.Text
