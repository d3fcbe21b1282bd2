import SegmentRouter.Address.Ipv4
import SegmentRouter.Malformed

/-!
# Address/Cidr — an address in its subnet

An address with a prefix length, such as 10.0.1.1/24. The host bits are kept, so one type describes
both a router's own address and a destination prefix. The subnet is the block of `size` addresses
that starts at a multiple of its size and holds the address.
-/

namespace SegmentRouter

/-- An address and the length of its network prefix. -/
structure Cidr where
  addr : Ipv4Addr
  length : Nat
  length_le : length ≤ 32
deriving DecidableEq, Repr

namespace Cidr

/-- The pair of an address and a prefix length, which is at most 32. -/
def make (addr : Ipv4Addr) (length : Nat) : Except Malformed Cidr :=
  if h : length ≤ 32 then .ok ⟨addr, length, h⟩ else .error (.cidrLengthTooLarge length)

/-- The number of addresses in the subnet. -/
def size (c : Cidr) : Nat :=
  1 <<< (32 - c.length)

theorem size_pos (c : Cidr) : 0 < c.size := by
  rw [size, Nat.one_shiftLeft]
  exact Nat.two_pow_pos _

/-- The number of the subnet among the subnets of its size. -/
def block (c : Cidr) : Nat :=
  c.addr.toNat / c.size

/-- The mask with a one for each bit of the prefix. -/
def netmask (c : Cidr) : Ipv4Addr :=
  .ofNat (4294967296 - c.size)

/-- The first address of the subnet. -/
def network (c : Cidr) : Ipv4Addr :=
  .ofNat (c.block * c.size)

/-- The last address of the subnet. -/
def broadcast (c : Cidr) : Ipv4Addr :=
  .ofNat (c.block * c.size + (c.size - 1))

/-- Whether an address lies in the subnet. -/
def contains (c : Cidr) (ip : Ipv4Addr) : Bool :=
  ip.toNat / c.size == c.block

/-- The address, a slash and the prefix length. -/
def text (c : Cidr) : String :=
  s!"{c.addr}/{c.length}"

instance : ToString Cidr := ⟨text⟩

/-- The address and prefix length that a text writes; a fault in the address is reported before one
in the length. -/
def ofText (s : String) : Except Malformed Cidr :=
  match Text.cut? '/' s.toList with
  | none => .error (.cidrWithoutLength s)
  | some (addr, length) =>
    match Ipv4Addr.ofChars? addr with
    | none => .error (.cidrAddress s)
    | some addr =>
      match Text.unsigned? 255 length with
      | none => .error (.cidrLength s)
      | some length => make addr length

end Cidr

end SegmentRouter
