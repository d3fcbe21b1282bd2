import SegmentRouter.Malformed
import SegmentRouter.Text.Field
import SegmentRouter.Text.Numeral

/-!
# Port/Range — ranges of ports

An inclusive range of ports and its text: a single port or two ports with a hyphen between them.
-/

namespace SegmentRouter.Port

/-- The ports from `first` to `last`. -/
structure Range where
  first : UInt16
  last : UInt16
deriving DecidableEq, Repr

namespace Range

/-- Whether a port is in the range. -/
def contains (r : Range) (port : UInt16) : Bool :=
  r.first.toNat ≤ port.toNat && port.toNat ≤ r.last.toNat

/-- The port that a text writes in decimal, blanks around it allowed; port 0 is none. -/
def port (cs : List Char) : Except Malformed UInt16 :=
  match Text.unsigned? 65535 (Text.trim cs) with
  | some 0 | none => .error (.port (String.ofList cs))
  | some n => .ok (UInt16.ofNat n)

/-- The ends of the range that a text writes. -/
def ends (s : String) : Except Malformed Range :=
  match Text.cut? '-' s.toList with
  | some (first, last) =>
    match port first, port last with
    | .ok first, .ok last => .ok ⟨first, last⟩
    | .error cause, _ => .error cause
    | .ok _, .error cause => .error cause
  | none =>
    match port s.toList with
    | .ok p => .ok ⟨p, p⟩
    | .error cause => .error cause

/-- The range that a text writes; a range that ends before it starts is refused. -/
def ofText (s : String) : Except Malformed Range :=
  match ends s with
  | .ok r => if r.last.toNat < r.first.toNat then .error (.emptyPortRange s) else .ok r
  | .error cause => .error cause

/-- The range in decimal, as one port if it holds only one. -/
def text (r : Range) : String :=
  if r.first = r.last then s!"{r.first}" else s!"{r.first}-{r.last}"

instance : ToString Range := ⟨text⟩

end Range

end SegmentRouter.Port
