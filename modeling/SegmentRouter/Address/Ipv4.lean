import SegmentRouter.SortedMap
import SegmentRouter.Text.Field
import SegmentRouter.Text.Numeral

/-!
# Address/Ipv4 — IPv4 addresses

An address is a 32-bit number with two written forms: four octets, most significant first, and the
dotted decimal text in which no octet has a leading zero.
-/

namespace SegmentRouter

/-- An IPv4 address. -/
structure Ipv4Addr where
  bits : UInt32
deriving DecidableEq, Repr, Inhabited

namespace Ipv4Addr

/-- The address as a number below 2³². -/
def toNat (ip : Ipv4Addr) : Nat :=
  ip.bits.toNat

theorem toNat_lt (ip : Ipv4Addr) : ip.toNat < 4294967296 :=
  ip.bits.toNat_lt

theorem toNat_inj {a b : Ipv4Addr} : a.toNat = b.toNat ↔ a = b :=
  ⟨fun h => by
    cases a
    cases b
    exact congrArg mk (UInt32.toNat_inj.1 h), fun h => h ▸ rfl⟩

/-- The address with a number, taken modulo 2³². -/
def ofNat (n : Nat) : Ipv4Addr :=
  ⟨UInt32.ofNat n⟩

@[simp] theorem toNat_ofNat (n : Nat) : (ofNat n).toNat = n % 4294967296 := by
  simp [ofNat, toNat]

@[simp] theorem ofNat_toNat (ip : Ipv4Addr) : ofNat ip.toNat = ip := by
  rw [← toNat_inj, toNat_ofNat, Nat.mod_eq_of_lt ip.toNat_lt]

/-- Addresses are ordered as numbers. -/
instance : SortKey Ipv4Addr := SortKey.ofRank toNat fun _ _ => toNat_inj.1

/-- The address 0.0.0.0, which stands for no address. -/
def unspecified : Ipv4Addr := ⟨0⟩

/-- The address 255.255.255.255, which reaches every host of the local network. -/
def broadcast : Ipv4Addr := ⟨0xffffffff⟩

/-! ## Octets -/

/-- The address of four octets, most significant first. -/
def ofOctets (a b c d : UInt8) : Ipv4Addr :=
  ofNat (((a.toNat * 256 + b.toNat) * 256 + c.toNat) * 256 + d.toNat)

/-- The four octets of an address, most significant first. -/
def octets (ip : Ipv4Addr) : List UInt8 :=
  [UInt8.ofNat (ip.toNat >>> 24), UInt8.ofNat (ip.toNat >>> 16),
    UInt8.ofNat (ip.toNat >>> 8), UInt8.ofNat ip.toNat]

@[simp] theorem length_octets (ip : Ipv4Addr) : ip.octets.length = 4 := rfl

theorem ofOctets_octets (ip : Ipv4Addr) :
    ofOctets (UInt8.ofNat (ip.toNat >>> 24)) (UInt8.ofNat (ip.toNat >>> 16))
      (UInt8.ofNat (ip.toNat >>> 8)) (UInt8.ofNat ip.toNat) = ip := by
  have h := ip.toNat_lt
  rw [← toNat_inj, ofOctets, toNat_ofNat]
  simp only [UInt8.toNat_ofNat']
  omega

theorem octets_ofOctets (a b c d : UInt8) : (ofOctets a b c d).octets = [a, b, c, d] := by
  have ha := a.toNat_lt
  have hb := b.toNat_lt
  have hc := c.toNat_lt
  have hd := d.toNat_lt
  simp only [octets, ofOctets, toNat_ofNat, List.cons.injEq, ← UInt8.toNat_inj,
    UInt8.toNat_ofNat', and_true]
  omega

/-! ## Text -/

/-- The dotted decimal text of an address. -/
def text (ip : Ipv4Addr) : String :=
  ".".intercalate (ip.octets.map fun o => toString o.toNat)

instance : ToString Ipv4Addr := ⟨text⟩

/-- An octet in decimal: one to three digits, no leading zero, at most 255. -/
def octet? (cs : List Char) : Option UInt8 :=
  if cs.length > 3 ∨ (cs.length > 1 ∧ cs.head? = some '0') then none
  else match Text.number? 10 cs with
    | some n => if n ≤ 255 then some (UInt8.ofNat n) else none
    | none => none

/-- The address written as four decimal octets separated by dots. -/
def ofChars? (cs : List Char) : Option Ipv4Addr :=
  match Text.fields (· == '.') cs with
  | [a, b, c, d] =>
    match octet? a, octet? b, octet? c, octet? d with
    | some a, some b, some c, some d => some (ofOctets a b c d)
    | _, _, _, _ => none
  | _ => none

/-- The address that a text writes. -/
def ofText? (s : String) : Option Ipv4Addr :=
  ofChars? s.toList

end Ipv4Addr

end SegmentRouter
