import SegmentRouter.Toml.Statement

/-!
# Toml/Document — the table that statements describe

The statements are taken one by one; an entry goes to the table of the last header before it. A
header may complete a table that was only named on the way to another, and no other.
-/

namespace SegmentRouter.Toml

/-- A document that is being put together. -/
structure Draft where
  root : Value := .table .header []
  /-- Where the table of the last header is. -/
  current : List String := []

namespace Draft

/-- The table with the header of one of its tables. -/
def openTable (name : String) (origin : Origin) (entries : List (String × Value)) :
    Option Value :=
  match Value.find? name entries with
  | none => some (.table origin (entries ++ [(name, .table .header [])]))
  | some (.table .path below) => some (.table origin (Value.place name (.table .header below) entries))
  | some _ => none

/-- The table with the header of a new element of one of its arrays. -/
def openElement (name : String) (origin : Origin) (entries : List (String × Value)) :
    Option Value :=
  match Value.find? name entries with
  | none => some (.table origin (entries ++ [(name, .array true [.table .header []])]))
  | some (.array true elements) =>
    some (.table origin
      (Value.place name (.array true (elements ++ [.table .header []])) entries))
  | some _ => none

/-- The document after one more statement. -/
def add (d : Draft) : Statement → Option Draft
  | .table path name => do
    let root ← Value.changeAt false (openTable name) path d.root
    return { root, current := path ++ [name] }
  | .element path name => do
    let root ← Value.changeAt false (openElement name) path d.root
    return { root, current := path ++ [name] }
  | .entry path name v => do
    let root ← Value.changeAt false
      (fun origin entries => Value.addEntry path name v (.table origin entries)) d.current d.root
    return { d with root }

end Draft

/-- The table that a text describes. -/
def read? (text : String) : Option Value := do
  let statements ← statements? text.toList
  let draft ← statements.foldlM Draft.add {}
  return draft.root

end SegmentRouter.Toml
