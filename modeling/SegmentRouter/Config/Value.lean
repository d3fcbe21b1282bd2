import SegmentRouter.Toml.Value

/-!
# Config/Value — the values a configuration is read from

A configuration is written in TOML or as a tree of JSON, and both become the values here. Lists and
tables keep the language they were written in, because the two differ in what may be superfluous: a
list that stands for a part may go on after the part's last value in TOML only, and where nothing is
expected, JSON has `null` and TOML a list or a table without content.
-/

namespace SegmentRouter.Config

/-- The languages for configurations. -/
inductive Language where
  | toml
  | json
deriving DecidableEq, Repr

/-- A value. -/
inductive Value where
  | null
  | boolean (b : Bool)
  | integer (n : Int)
  | string (text : String)
  | list (language : Language) (elements : List Value)
  | table (language : Language) (entries : List (String × Value))
  /-- A value of a kind that no part of a configuration has. -/
  | other
deriving Repr, Inhabited

namespace Value

mutual

/-- The value that a value of TOML is. -/
def ofToml : Toml.Value → Value
  | .string text => string text
  | .integer n => integer n
  | .boolean b => boolean b
  | .array _ elements => list .toml (listOfToml elements)
  | .table _ entries => table .toml (entriesOfToml entries)
  | .float _ => other
  | .dateTime _ => other

/-- The values that values of TOML are. -/
def listOfToml : List Toml.Value → List Value
  | [] => []
  | v :: rest => ofToml v :: listOfToml rest

/-- The entries that entries of TOML are. -/
def entriesOfToml : List (String × Toml.Value) → List (String × Value)
  | [] => []
  | (key, v) :: rest => (key, ofToml v) :: entriesOfToml rest

end

/-- Whether a value is how a language says that there is nothing. -/
def isNothing : Language → Value → Bool
  | .json, null => true
  | .toml, list _ elements => elements.isEmpty
  | .toml, table _ entries => entries.isEmpty
  | _, _ => false

end Value

end SegmentRouter.Config
