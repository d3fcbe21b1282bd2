import SegmentRouter.SortedMap
import SegmentRouter.Text.Field
import SegmentRouter.Text.Numeral

/-!
# Address/Mac — hardware addresses

The six octets of an Ethernet address, and the text that writes each octet with two characters,
separated by colons or hyphens. A plus sign may stand for the first digit of an octet.
-/

namespace SegmentRouter

/-- A hardware address of six octets. -/
structure Mac where
  a : UInt8
  b : UInt8
  c : UInt8
  d : UInt8
  e : UInt8
  f : UInt8
deriving DecidableEq, Repr, Inhabited

namespace Mac

/-- The address as a number below 2⁴⁸. -/
def toNat (m : Mac) : Nat :=
  ((((m.a.toNat * 256 + m.b.toNat) * 256 + m.c.toNat) * 256 + m.d.toNat) * 256 + m.e.toNat) * 256
    + m.f.toNat

theorem toNat_inj {m n : Mac} : m.toNat = n.toNat ↔ m = n := by
  refine ⟨fun h => ?_, fun h => h ▸ rfl⟩
  obtain ⟨a, b, c, d, e, f⟩ := m
  obtain ⟨a', b', c', d', e', f'⟩ := n
  have := a.toNat_lt; have := b.toNat_lt; have := c.toNat_lt
  have := d.toNat_lt; have := e.toNat_lt; have := f.toNat_lt
  have := a'.toNat_lt; have := b'.toNat_lt; have := c'.toNat_lt
  have := d'.toNat_lt; have := e'.toNat_lt; have := f'.toNat_lt
  simp only [toNat] at h
  simp only [mk.injEq, ← UInt8.toNat_inj]
  omega

/-- Hardware addresses are ordered octet by octet. -/
instance : SortKey Mac := SortKey.ofRank toNat fun _ _ => toNat_inj.1

/-- The address that reaches every station. -/
def broadcast : Mac := ⟨0xff, 0xff, 0xff, 0xff, 0xff, 0xff⟩

/-- The address of no station. -/
def zero : Mac := ⟨0, 0, 0, 0, 0, 0⟩

/-- Whether the address reaches every station. -/
def isBroadcast (m : Mac) : Bool :=
  m == broadcast

/-- Whether the address reaches a group of stations: its first octet is odd. -/
def isMulticast (m : Mac) : Bool :=
  m.a.toNat % 2 == 1

/-- The six octets in the order of transmission. -/
def octets (m : Mac) : List UInt8 :=
  [m.a, m.b, m.c, m.d, m.e, m.f]

@[simp] theorem length_octets (m : Mac) : m.octets.length = 6 := rfl

/-- The address in the first six bytes of a list that has as many. -/
def ofBytes? : List UInt8 → Option Mac
  | a :: b :: c :: d :: e :: f :: _ => some ⟨a, b, c, d, e, f⟩
  | _ => none

@[simp] theorem ofBytes?_octets_append (m : Mac) (rest : List UInt8) :
    ofBytes? (m.octets ++ rest) = some m := rfl

/-- The octets in hexadecimal, separated by colons. -/
def text (m : Mac) : String :=
  ":".intercalate (m.octets.map fun o => String.ofList (Text.hexByte o))

instance : ToString Mac := ⟨text⟩

/-- An octet written with two characters: two digits, or a plus sign and one digit. -/
def octet? : List Char → Option UInt8
  | ['+', y] => (Text.digit? 16 y).map UInt8.ofNat
  | [x, y] =>
    match Text.digit? 16 x, Text.digit? 16 y with
    | some h, some l => some (UInt8.ofNat (h * 16 + l))
    | _, _ => none
  | _ => none

/-- The address that a text writes. -/
def ofText? (s : String) : Option Mac :=
  match Text.fields (fun c => c == ':' || c == '-') s.toList with
  | [a, b, c, d, e, f] =>
    match octet? a, octet? b, octet? c, octet? d, octet? e, octet? f with
    | some a, some b, some c, some d, some e, some f => some ⟨a, b, c, d, e, f⟩
    | _, _, _, _, _, _ => none
  | _ => none

end Mac

end SegmentRouter
