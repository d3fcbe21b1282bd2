/-!
# Toml/Value — values of a TOML document

Tables remember how they came about, because that decides whether a later line may add to them: a
table that was only named on the way to another may still get its header, one made by a dotted key
may only get more dotted keys, and an inline table is complete.
-/

namespace SegmentRouter.Toml

/-- How a table came about. -/
inductive Origin where
  /-- By a header of its own, or as the document itself. -/
  | header
  /-- By the header of a table below it. -/
  | path
  /-- By a dotted key. -/
  | dotted
  /-- Between braces. -/
  | inline
deriving DecidableEq, Repr

/-- A value. Floats and dates keep their text. -/
inductive Value where
  | string (text : String)
  | integer (n : Int)
  | float (text : String)
  | boolean (b : Bool)
  | dateTime (text : String)
  /-- A list of values, either in brackets or, if `open_`, made by one header for each element. -/
  | array (open_ : Bool) (elements : List Value)
  | table (origin : Origin) (entries : List (String × Value))
deriving Repr, Inhabited

namespace Value

/-- The value of a key in a list of entries. -/
def find? (key : String) (entries : List (String × Value)) : Option Value :=
  (entries.find? (·.1 == key)).map (·.2)

/-- The entries with the value of a key replaced, or added at the end. -/
def place (key : String) (v : Value) : List (String × Value) → List (String × Value)
  | [] => [(key, v)]
  | (k, w) :: rest => if k == key then (k, v) :: rest else (k, w) :: place key v rest

/-- A table's entries changed at the end of a path of keys. Tables that the path names and that do
not exist are made; `dotted` says whether the path belongs to a dotted key, which may only pass
through tables without a header. A path goes through the last element of an open array. -/
def changeAt (dotted : Bool) (change : Origin → List (String × Value) → Option Value) :
    List String → Value → Option Value
  | [], .table origin entries => change origin entries
  | [], _ => none
  | key :: path, .table origin entries =>
    match find? key entries with
    | none =>
      (changeAt dotted change path (.table (if dotted then .dotted else .path) [])).map fun v =>
        .table origin (place key v entries)
    | some (.table inner below) =>
      if inner = .inline ∨ (dotted ∧ inner = .header) then none
      else (changeAt dotted change path (.table inner below)).map fun v =>
        .table origin (place key v entries)
    | some (.array true elements) =>
      match elements.getLast? with
      | none => none
      | some last => (changeAt dotted change path last).map fun v =>
        .table origin (place key (.array true (elements.dropLast ++ [v])) entries)
    | some _ => none
  | _ :: _, _ => none

/-- The table with a value at a dotted key; no key may be given twice, and a dotted key may not add
to a table that has another origin. -/
def addEntry (path : List String) (key : String) (v : Value) (t : Value) : Option Value :=
  changeAt true
    (fun origin entries =>
      if (origin = .dotted) = (path = []) then none
      else if (find? key entries).isSome then none
      else some (.table origin (entries ++ [(key, v)])))
    path t

/-- The inline table of a list of entries with dotted keys. -/
def ofPairs? (pairs : List (List String × String × Value)) : Option Value :=
  pairs.foldlM (fun t (path, key, v) => addEntry path key v t) (.table .inline [])

end Value

end SegmentRouter.Toml
