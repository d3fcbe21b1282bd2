import SegmentRouter.Text.Numeral

/-!
# Report/Json — JSON documents as text

A document is written over several lines, two blanks deeper at each level, with the entries of an
object in the order in which they were put together.
-/

namespace SegmentRouter

/-- A JSON document. -/
inductive Json where
  | null
  | boolean (b : Bool)
  | number (n : Nat)
  | string (s : String)
  | array (elements : List Json)
  | object (entries : List (String × Json))
deriving Repr, Inhabited

namespace Json

/-- A character as it stands in a string. -/
def escape (c : Char) : List Char :=
  match c with
  | '"' => ['\\', '"']
  | '\\' => ['\\', '\\']
  | '\x08' => ['\\', 'b']
  | '\x0c' => ['\\', 'f']
  | '\n' => ['\\', 'n']
  | '\r' => ['\\', 'r']
  | '\t' => ['\\', 't']
  | _ => if c < ' ' then '\\' :: 'u' :: Text.hexPadded 4 c.toNat else [c]

/-- A string with its quotes. -/
def quoted (s : String) : String :=
  String.ofList ('"' :: s.toList.flatMap escape ++ ['"'])

/-- The start of a line at a level. -/
def indent (level : Nat) : String :=
  String.ofList (List.replicate (2 * level) ' ')

/-- Parts between brackets, each on a line of its own. -/
def block (opening closing : String) (level : Nat) (parts : List String) : String :=
  if parts.isEmpty then opening ++ closing
  else
    let separator := ",\n" ++ indent (level + 1)
    opening ++ "\n" ++ indent (level + 1) ++ separator.intercalate parts ++ "\n" ++ indent level ++
      closing

mutual

/-- The text of a document that stands at a level. -/
def textAt (level : Nat) : Json → String
  | null => "null"
  | boolean b => if b then "true" else "false"
  | number n => toString n
  | string s => quoted s
  | array elements => block "[" "]" level (elementTexts (level + 1) elements)
  | object entries => block "\x7b" "\x7d" level (entryTexts (level + 1) entries)

/-- The texts of the elements of an array. -/
def elementTexts (level : Nat) : List Json → List String
  | [] => []
  | j :: rest => textAt level j :: elementTexts level rest

/-- The texts of the entries of an object. -/
def entryTexts (level : Nat) : List (String × Json) → List String
  | [] => []
  | (key, j) :: rest => (quoted key ++ ": " ++ textAt level j) :: entryTexts level rest

end

/-- The text of a document. -/
def text (j : Json) : String :=
  textAt 0 j

end Json

end SegmentRouter
