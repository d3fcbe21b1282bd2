import SegmentRouter.Text.Numeral

/-!
# Toml/Quoted — strings in quotes

TOML has four forms of strings: with or without escapes, on one line or on several. One reader takes
a string character by character; `Form` says which form it reads. A string on several lines may
hold one or two of its quotes in a row, also before the three that end it.
-/

namespace SegmentRouter.Toml.Quoted

/-- A form of strings. -/
structure Form where
  quote : Char
  escapes : Bool
  lines : Bool
deriving DecidableEq, Repr

/-- Where a reader stands in a string. -/
inductive Cursor where
  | plain
  /-- After some quotes in a row. -/
  | quotes (count : Nat)
  /-- After a carriage return, which only a line feed may follow. -/
  | carriageReturn
  | escape
  /-- In the digits of an escaped code point. -/
  | code (left value : Nat)
  /-- After an escaped line end, or still before it. -/
  | continued (ended : Bool)
  | continuedReturn
deriving DecidableEq, Repr

/-- What a character makes of a cursor. -/
inductive Step where
  | refuse
  /-- More text, and where the reader stands then. -/
  | next (text : List Char) (cursor : Cursor)
  /-- The string ended, at this character or before it. -/
  | done (text : List Char) (consumed : Bool)
deriving DecidableEq, Repr

/-- Whether a character may stand for itself: no control character but the tab. -/
def isText (c : Char) : Bool :=
  c == '\t' || (' ' ≤ c && c ≤ '~') || '\x80' ≤ c

/-- The character with a code point. -/
def scalar? (n : Nat) : Option Char :=
  if h : n.isValidChar then some (Char.ofNatAux n h) else none

/-- A character outside of escapes and runs of quotes. -/
def plainStep (f : Form) (c : Char) : Step :=
  if c = f.quote then (if f.lines then .next [] (.quotes 1) else .done [] true)
  else if f.escapes ∧ c = '\\' then .next [] .escape
  else if f.lines ∧ c = '\n' then .next ['\n'] .plain
  else if f.lines ∧ c = '\r' then .next [] .carriageReturn
  else if isText c then .next [c] .plain
  else .refuse

/-- The character after a backslash. -/
def escapeStep (f : Form) (c : Char) : Step :=
  match c with
  | 'b' => .next ['\x08'] .plain
  | 't' => .next ['\t'] .plain
  | 'n' => .next ['\n'] .plain
  | 'f' => .next ['\x0c'] .plain
  | 'r' => .next ['\r'] .plain
  | '"' => .next ['"'] .plain
  | '\\' => .next ['\\'] .plain
  | 'u' => .next [] (.code 4 0)
  | 'U' => .next [] (.code 8 0)
  | _ =>
    if f.lines then
      match c with
      | ' ' | '\t' => .next [] (.continued false)
      | '\n' => .next [] (.continued true)
      | '\r' => .next [] .continuedReturn
      | _ => .refuse
    else .refuse

/-- A digit of an escaped code point. -/
def codeStep (left value : Nat) (c : Char) : Step :=
  match Text.digit? 16 c with
  | none => .refuse
  | some d =>
    if left ≤ 1 then
      match scalar? (value * 16 + d) with
      | some ch => .next [ch] .plain
      | none => .refuse
    else .next [] (.code (left - 1) (value * 16 + d))

/-- A step with text in front of it. -/
def Step.after (front : List Char) : Step → Step
  | .refuse => .refuse
  | .next text cursor => .next (front ++ text) cursor
  | .done text consumed => .done (front ++ text) consumed

/-- What the next character of a string does. -/
def step (f : Form) : Cursor → Char → Step
  | .plain, c => plainStep f c
  | .quotes n, c =>
    if c = f.quote then
      (if n = 5 then .done (List.replicate 2 f.quote) false else .next [] (.quotes (n + 1)))
    else if n ≥ 3 then .done (List.replicate (n - 3) f.quote) false
    else (plainStep f c).after (List.replicate n f.quote)
  | .carriageReturn, c => if c = '\n' then .next ['\n'] .plain else .refuse
  | .escape, c => escapeStep f c
  | .code left value, c => codeStep left value c
  | .continued false, c =>
    match c with
    | ' ' | '\t' => .next [] (.continued false)
    | '\n' => .next [] (.continued true)
    | '\r' => .next [] .continuedReturn
    | _ => .refuse
  | .continued true, c =>
    match c with
    | ' ' | '\t' | '\n' => .next [] (.continued true)
    | '\r' => .next [] .continuedReturn
    | _ => plainStep f c
  | .continuedReturn, c => if c = '\n' then .next [] (.continued true) else .refuse

/-- The text that a string ends with if nothing follows. -/
def atEnd? (f : Form) : Cursor → Option (List Char)
  | .quotes n => if n ≥ 3 then some (List.replicate (n - 3) f.quote) else none
  | _ => none

/-- The rest of a string and what follows it. -/
def body (f : Form) : Cursor → List Char → Option (List Char × List Char)
  | cursor, [] => (atEnd? f cursor).map fun text => (text, [])
  | cursor, c :: cs =>
    match step f cursor c with
    | .refuse => none
    | .next text cursor => (body f cursor cs).map fun p => (text ++ p.1, p.2)
    | .done text true => some (text, cs)
    | .done text false => some (text, c :: cs)

/-- A line end right after the opening quotes does not belong to the string. -/
def dropLineEnd : List Char → List Char
  | '\n' :: cs => cs
  | '\r' :: '\n' :: cs => cs
  | cs => cs

/-- The string on one line at the start of a text, and what follows it. -/
def line? : List Char → Option (List Char × List Char)
  | '"' :: cs => body ⟨'"', true, false⟩ .plain cs
  | '\'' :: cs => body ⟨'\'', false, false⟩ .plain cs
  | _ => none

/-- The string of any form at the start of a text, and what follows it. -/
def read? : List Char → Option (List Char × List Char)
  | '"' :: '"' :: '"' :: cs => body ⟨'"', true, true⟩ .plain (dropLineEnd cs)
  | '\'' :: '\'' :: '\'' :: cs => body ⟨'\'', false, true⟩ .plain (dropLineEnd cs)
  | cs => line? cs

example : read? "\"\"\"\na\\  \n  b\"\"\"\" #".toList = some ("ab\"".toList, " #".toList) := by
  decide

end SegmentRouter.Toml.Quoted
