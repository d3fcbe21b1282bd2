import SegmentRouter.Toml.Number
import SegmentRouter.Toml.Quoted
import SegmentRouter.Toml.Value

/-!
# Toml/Statement — the lines of a TOML document

A document is a list of statements: headers of tables and entries with a key and a value. Values can
stand in each other, up to a limit; the readers of values count down from the number of characters
there are, of which each step takes at least one.
-/

namespace SegmentRouter.Toml

/-- Keys have fewer parts than this, and fewer arrays and inline tables stand in each other. -/
def depthLimit : Nat := 80

/-- A reader of the characters to come. -/
abbrev Scan := StateT (List Char) Option

namespace Scan

/-- The characters to come. -/
def ahead : Scan (List Char) := get

/-- Skips spaces and tabs. -/
def skipBlanks : Scan Unit :=
  modify fun cs => cs.dropWhile fun c => c == ' ' || c == '\t'

/-- Takes a certain character. -/
def expect (c : Char) : Scan Unit := do
  match ← ahead with
  | d :: cs => if d = c then set cs else failure
  | [] => failure

/-- Takes a line end, if one comes next. -/
def newline : Scan Unit := do
  match ← ahead with
  | '\n' :: cs => set cs
  | '\r' :: '\n' :: cs => set cs
  | _ => failure

/-- Takes a comment, up to the line end or whatever may not stand in one. -/
def comment : Scan Unit := do
  expect '#'
  modify fun cs => cs.dropWhile Quoted.isText

/-- Takes a line end or finds nothing more to come. -/
def lineEnd : Scan Unit := do
  match ← ahead with
  | [] => pure ()
  | _ => newline

/-- Takes blanks, a comment if there is one, and the line end. -/
def restOfLine : Scan Unit := do
  skipBlanks
  match ← ahead with
  | '#' :: _ => comment; lineEnd
  | _ => lineEnd

/-- Skips blanks, comments and line ends; `n` bounds the number of lines. -/
def skipLines : (n : Nat) → Scan Unit
  | 0 => skipBlanks
  | n + 1 => do
    skipBlanks
    match ← ahead with
    | '#' :: _ => comment; newline; skipLines n
    | '\n' :: _ => newline; skipLines n
    | '\r' :: _ => newline; skipLines n
    | _ => pure ()

/-! ## Keys -/

/-- Whether a character may stand in a key without quotes. -/
def isBare (c : Char) : Bool :=
  c.isAlphanum || c == '-' || c == '_'

/-- A key without dots. -/
def simpleKey : Scan String := do
  match ← ahead with
  | '"' :: _ | '\'' :: _ =>
    match Quoted.line? (← ahead) with
    | some (text, cs) => set cs; return String.ofList text
    | none => failure
  | cs =>
    match cs.takeWhile isBare with
    | [] => failure
    | bare => set (cs.dropWhile isBare); return String.ofList bare

/-- The parts of a key between its dots; `n` bounds their number. -/
def keyParts : (n : Nat) → Scan (List String)
  | 0 => failure
  | n + 1 => do
    skipBlanks
    let part ← simpleKey
    skipBlanks
    match ← ahead with
    | '.' :: cs => set cs; return part :: (← keyParts n)
    | _ => return [part]

/-- A key: the parts before its last one, and that. -/
def key : Scan (List String × String) := do
  let parts ← keyParts (← ahead).length
  guard (parts.length < depthLimit)
  match parts.getLast? with
  | some last => return (parts.dropLast, last)
  | none => failure

/-! ## Values -/

/-- Whether a character may stand in a numeral. -/
def isNumeral (c : Char) : Bool :=
  c.isAlphanum || c == '+' || c == '-' || c == '_' || c == '.' || c == ':'

/-- A number or a date; a date and a time may have a space between them. -/
def numeral : Scan Value := do
  let cs ← ahead
  let first := cs.takeWhile isNumeral
  let rest := cs.dropWhile isNumeral
  let (text, rest) := match rest with
    | ' ' :: d :: more =>
      if Numeral.isDate first ∧ d.isDigit then
        (first ++ ' ' :: (d :: more).takeWhile isNumeral, (d :: more).dropWhile isNumeral)
      else (first, rest)
    | _ => (first, rest)
  set rest
  match Numeral.ofChars? text with
  | some (.integer n) => return .integer n
  | some .float => return .float (String.ofList text)
  | some .dateTime => return .dateTime (String.ofList text)
  | none => failure

mutual

/-- A value that is an array or an inline table only if `room` is left for it. -/
def value : (n : Nat) → (room : Nat) → Scan Value
  | 0, _ => failure
  | n + 1, room => do
    match ← ahead with
    | '"' :: _ | '\'' :: _ =>
      match Quoted.read? (← ahead) with
      | some (text, cs) => set cs; return .string (String.ofList text)
      | none => failure
    | '[' :: cs =>
      guard (0 < room)
      set cs
      return .array false (← elements n (room - 1))
    | '{' :: cs =>
      guard (0 < room)
      set cs
      skipBlanks
      match ← ahead with
      | '}' :: cs => set cs; return .table .inline []
      | _ =>
        match Value.ofPairs? (← pairs n (room - 1)) with
        | some t => return t
        | none => failure
    | 't' :: 'r' :: 'u' :: 'e' :: cs => set cs; return .boolean true
    | 'f' :: 'a' :: 'l' :: 's' :: 'e' :: cs => set cs; return .boolean false
    | _ => numeral

/-- The elements of an array up to its closing bracket. -/
def elements : (n : Nat) → (room : Nat) → Scan (List Value)
  | 0, _ => failure
  | n + 1, room => do
    skipLines (← ahead).length
    match ← ahead with
    | ']' :: cs => set cs; return []
    | _ =>
      let v ← value n room
      skipLines (← ahead).length
      match ← ahead with
      | ',' :: cs => set cs; return v :: (← elements n room)
      | ']' :: cs => set cs; return [v]
      | _ => failure

/-- The entries of an inline table up to its closing brace. -/
def pairs : (n : Nat) → (room : Nat) → Scan (List (List String × String × Value))
  | 0, _ => failure
  | n + 1, room => do
    let (path, name) ← key
    expect '='
    skipBlanks
    let v ← value n room
    skipBlanks
    match ← ahead with
    | ',' :: cs => set cs; return (path, name, v) :: (← pairs n room)
    | '}' :: cs => set cs; return [(path, name, v)]
    | _ => failure

end

end Scan

/-- A line of a document that says something. -/
inductive Statement where
  /-- What follows belongs to a table. -/
  | table (path : List String) (name : String)
  /-- What follows belongs to a new element of an array of tables. -/
  | element (path : List String) (name : String)
  /-- An entry of the current table. -/
  | entry (path : List String) (name : String) (value : Value)
deriving Repr

namespace Statement

open Scan

/-- An entry with its line end. -/
def readEntry : Scan Statement := do
  let (path, name) ← key
  expect '='
  skipBlanks
  let v ← value (2 * (← ahead).length) (depthLimit - 1)
  restOfLine
  return .entry path name v

/-- A header with its line end. -/
def readHeader : Scan Statement := do
  expect '['
  match ← ahead with
  | '[' :: cs =>
    set cs
    let (path, name) ← key
    expect ']'
    expect ']'
    restOfLine
    return .element path name
  | _ =>
    let (path, name) ← key
    expect ']'
    restOfLine
    return .table path name

/-- The statements of a text of at most `n` lines. -/
def readAll : (n : Nat) → Scan (List Statement)
  | 0 => failure
  | n + 1 => do
    skipBlanks
    match ← ahead with
    | [] => return []
    | '#' :: _ => comment; lineEnd; readAll n
    | '\n' :: _ => newline; readAll n
    | '\r' :: _ => newline; readAll n
    | '[' :: _ => return (← readHeader) :: (← readAll n)
    | _ => return (← readEntry) :: (← readAll n)

end Statement

/-- The statements of a document; a byte order mark in front of it is skipped. -/
def statements? (cs : List Char) : Option (List Statement) :=
  let text := match cs with
    | '\ufeff' :: rest => rest
    | _ => cs
  ((Statement.readAll (text.length + 1)).run text).map (·.1)

end SegmentRouter.Toml
