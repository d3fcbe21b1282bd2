import SegmentRouter.Text.Field
import SegmentRouter.Text.Numeral

/-!
# Toml/Number — numbers and dates

The written forms of integers, floats and dates. Digits may be grouped by single underscores; a
decimal number has no leading zero, and an integer lies between -2⁶³ and 2⁶³ - 1. A float is refused
if it is rounded to infinity; below zero any size will do.
-/

namespace SegmentRouter.Toml

/-- What a numeral stands for. -/
inductive Numeral where
  | integer (n : Int)
  | float
  | dateTime
deriving DecidableEq, Repr

namespace Numeral

/-- The number that digits write, single underscores between them allowed. -/
def grouped? (base : Nat) (cs : List Char) : Option Nat :=
  let groups := Text.fields (· == '_') cs
  if groups.any (·.isEmpty) then none else Text.number? base groups.flatten

/-- The sign in front of a numeral, and the rest. -/
def sign : List Char → Bool × List Char
  | '-' :: cs => (true, cs)
  | '+' :: cs => (false, cs)
  | cs => (false, cs)

/-- A decimal number without a leading zero. -/
def decimal? (cs : List Char) : Option Nat :=
  match cs with
  | '0' :: _ :: _ => none
  | _ => grouped? 10 cs

/-- An integer of 64 bits. -/
def bounded? (n : Int) : Option Int :=
  if -9223372036854775808 ≤ n ∧ n ≤ 9223372036854775807 then some n else none

/-- The integer that a text writes. -/
def integer? (cs : List Char) : Option Int :=
  match cs with
  | '0' :: 'x' :: digits => (grouped? 16 digits).bind fun n => bounded? n
  | '0' :: 'o' :: digits => (grouped? 8 digits).bind fun n => bounded? n
  | '0' :: 'b' :: digits => (grouped? 2 digits).bind fun n => bounded? n
  | _ =>
    let (negative, digits) := sign cs
    (decimal? digits).bind fun n => bounded? (if negative then -n else n)

/-- Whether a text is the exponent of a float. -/
def isExponent (cs : List Char) : Bool :=
  (grouped? 10 (sign cs).2).isSome

/-- Whether a text is a float without sign and exponent, of which the fraction may be missing. -/
def isMantissa (cs : List Char) : Bool :=
  match Text.cut? '.' cs with
  | some (whole, fraction) => (decimal? whole).isSome && (grouped? 10 fraction).isSome
  | none => (decimal? cs).isSome

/-- The mantissa of a float without sign, and its exponent if it has one. -/
def scientific (cs : List Char) : List Char × Option (List Char) :=
  match Text.cut? 'e' (cs.map fun c => if c = 'E' then 'e' else c) with
  | some (mantissa, exponent) => (mantissa, some exponent)
  | none => (cs, none)

/-- Whether a text without sign is one of the special values. -/
def isSpecial (cs : List Char) : Bool :=
  cs == ['i', 'n', 'f'] || cs == ['n', 'a', 'n']

/-- Whether a text is a float: it has a fraction or an exponent, or is one of the special values. -/
def isFloat (cs : List Char) : Bool :=
  let digits := (sign cs).2
  isSpecial digits ||
    match scientific digits with
    | (mantissa, some exponent) => isMantissa mantissa && isExponent exponent
    | (mantissa, none) => mantissa.contains '.' && isMantissa mantissa

/-- The least number that is rounded to infinity: it lies halfway between the largest float, which
is 2¹⁰²⁴ - 2⁹⁷¹, and the power of two that would come next. -/
def infinityBound : Nat := 1 <<< 1024 - 1 <<< 970

/-- Whether digits times a power of ten are less than `infinityBound`. The bound has 309 digits, so
only a number of that length has to be compared with it. -/
def isFinite (digits : List Char) (exponent : Int) : Bool :=
  let digits := digits.dropWhile (· == '0')
  let length := digits.length + exponent
  digits.isEmpty || length < 309 ||
    (length == 309 && (Text.number? 10 digits).any fun n =>
      n * Nat.pow 10 exponent.toNat < infinityBound * Nat.pow 10 (-exponent).toNat)

/-- The number that the exponent of a float writes. -/
def exponentValue (cs : List Char) : Int :=
  let (negative, digits) := sign cs
  let n : Int := (grouped? 10 digits).getD 0
  if negative then -n else n

/-- Whether a float is less than infinity. -/
def fits (cs : List Char) : Bool :=
  let (negative, digits) := sign cs
  let (mantissa, exponent) := scientific (digits.filter (· != '_'))
  let (whole, fraction) := (Text.cut? '.' mantissa).getD (mantissa, [])
  negative || isSpecial digits ||
    isFinite (whole ++ fraction) ((exponent.map exponentValue).getD 0 - fraction.length)

/-- The number of days in a month. -/
def daysIn (year month : Nat) : Nat :=
  if month = 2 then
    (if (year % 4 = 0 ∧ year % 100 ≠ 0) ∨ year % 400 = 0 then 29 else 28)
  else if month = 4 ∨ month = 6 ∨ month = 9 ∨ month = 11 then 30
  else 31

/-- Whether a text is a day of the calendar. -/
def isDate (cs : List Char) : Bool :=
  match (Text.fields (· == '-') cs).map fun part => (part.length, Text.number? 10 part) with
  | [(4, some year), (2, some month), (2, some day)] =>
    1 ≤ month && month ≤ 12 && 1 ≤ day && day ≤ daysIn year month
  | _ => false

/-- Whether a text is a time of day. -/
def isTime (cs : List Char) : Bool :=
  match (Text.fields (· == ':') cs) with
  | [hour, minute, second] =>
    let (whole, fraction) := (Text.cut? '.' second).getD (second, ['0'])
    hour.length == 2 && minute.length == 2 && whole.length == 2 &&
      (Text.number? 10 hour).any (· ≤ 23) && (Text.number? 10 minute).any (· ≤ 59) &&
      (Text.number? 10 whole).any (· ≤ 60) && (Text.number? 10 fraction).isSome
  | _ => false

/-- Whether a text is the distance of a time zone. -/
def isOffset (cs : List Char) : Bool :=
  match (Text.fields (· == ':') cs) with
  | [hour, minute] =>
    hour.length == 2 && minute.length == 2 &&
      (Text.number? 10 hour).any (· ≤ 23) && (Text.number? 10 minute).any (· ≤ 59)
  | _ => false

/-- Whether a text is a time of day with or without a time zone. -/
def isZonedTime (cs : List Char) : Bool :=
  match cs.getLast? with
  | some 'Z' | some 'z' => isTime cs.dropLast
  | _ =>
    match (Text.cut? '+' cs).or (Text.cut? '-' cs) with
    | some (time, offset) => isTime time && isOffset offset
    | none => isTime cs

/-- Whether a text is a date, a time, or both. -/
def isDateTime (cs : List Char) : Bool :=
  let date := cs.take 10
  match cs.drop 10 with
  | [] => isDate cs || isTime cs
  | c :: time =>
    ((c == 'T' || c == 't' || c == ' ') && isDate date && isZonedTime time) || isTime cs

/-- What a text stands for as a numeral. -/
def ofChars? (cs : List Char) : Option Numeral :=
  if isDateTime cs then some .dateTime
  else if isFloat cs then (if fits cs then some .float else none)
  else (integer? cs).map .integer

end Numeral

end SegmentRouter.Toml
