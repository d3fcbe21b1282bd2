import Mathlib.Algebra.Group.Nat.Defs
import SegmentRouter.Proofs.Address.Subnet

/-!
# Proofs/Address/Mask — subnets told by masks

A subnet is told here by the number of an address among the blocks of its size.  A machine word
tells it by a mask, which keeps the bits of the prefix and clears the others: the masked address is
the first one of the block that the address lies in (`Ipv4Addr.toNat_masked`).  So an address lies
in a subnet exactly if it has the same masked address as the subnet's own
(`Cidr.contains_iff_masked`).  With the bits beyond the prefix set instead of cleared it is the last
one; so the netmask tells all there is to a subnet (`Cidr.toldBy_netmask`).

The mask is shifted out of a word with all bits set.  For the empty prefix that would be a shift by
the width of the word, which a machine does not make; the mask is then zero.
-/

namespace SegmentRouter

/-- A word shifted to the left by fewer bits than it has. -/
def shiftWithin (w : UInt32) (n : Nat) : Option UInt32 :=
  if n < 32 then some (w <<< UInt32.ofNat n) else none

/-- The mask of the prefix of a length. -/
def maskOf (length : Nat) : UInt32 :=
  (shiftWithin 0xffffffff (32 - length)).getD 0

/-- The bits of a mask are those of the prefix. -/
theorem testBit_maskOf {length : Nat} (h : length ≤ 32) (i : Nat) :
    (maskOf length).toNat.testBit i = (decide (32 - length ≤ i) && decide (i < 32)) := by
  have hones : (0xffffffff : UInt32).toNat = 2 ^ 32 - 1 := rfl
  unfold maskOf shiftWithin
  split
  · rename_i hlt
    have hshift : (32 - length) % 4294967296 % 32 = 32 - length := by omega
    rw [Option.getD_some, UInt32.toNat_shiftLeft, UInt32.toNat_ofNat', hones, hshift,
      Nat.testBit_mod_two_pow, Nat.testBit_shiftLeft, Nat.testBit_two_pow_sub_one]
    by_cases hi : i < 32
    · simp [hi]
      omega
    · simp [hi]
  · rename_i hge
    have hempty : 32 - length = 32 := by omega
    rw [Option.getD_none, hempty, UInt32.toNat_zero, Nat.zero_testBit]
    by_cases hi : i < 32 <;> simp [hi]

/-- A mask clears the bits beyond the prefix, which are the lowest ones. -/
theorem toNat_not_maskOf {length : Nat} (h : length ≤ 32) :
    (~~~maskOf length).toNat = 2 ^ (32 - length) - 1 := by
  have hwidth : UInt32.size = 2 ^ 32 := rfl
  have hnot : (~~~maskOf length).toNat = 2 ^ 32 - ((maskOf length).toNat + 1) := by
    rw [UInt32.toNat_not, hwidth, Nat.add_comm, Nat.sub_add_eq]
  refine Nat.eq_of_testBit_eq fun i => ?_
  rw [hnot, Nat.testBit_two_pow_sub_succ (UInt32.toNat_lt _), testBit_maskOf h,
    Nat.testBit_two_pow_sub_one]
  grind

namespace Ipv4Addr

/-- An address with the bits beyond a prefix cleared. -/
def masked (ip : Ipv4Addr) (length : Nat) : Ipv4Addr :=
  ⟨ip.bits &&& maskOf length⟩

/-- **The masked address is the first one of its block.** -/
theorem toNat_masked (ip : Ipv4Addr) {length : Nat} (h : length ≤ 32) :
    (ip.masked length).toNat = ip.toNat / (1 <<< (32 - length)) * (1 <<< (32 - length)) := by
  have hip := ip.toNat_lt
  have hword : (ip.masked length).toNat = ip.toNat &&& (maskOf length).toNat := UInt32.toNat_and ..
  rw [hword, Nat.one_shiftLeft, ← Nat.shiftRight_eq_div_pow, ← Nat.shiftLeft_eq]
  refine Nat.eq_of_testBit_eq fun i => ?_
  rw [Nat.testBit_and, testBit_maskOf h, Nat.testBit_shiftLeft, Nat.testBit_shiftRight]
  by_cases hlow : 32 - length ≤ i
  · rw [Nat.add_sub_cancel' hlow]
    by_cases hi : i < 32
    · simp [hi, hlow]
    · have hhigh : ip.toNat.testBit i = false := Nat.testBit_lt_two_pow
        (Nat.lt_of_lt_of_le hip (Nat.pow_le_pow_right (by decide : 0 < 2) (by omega : 32 ≤ i)))
      simp [hhigh]
  · simp [hlow]

end Ipv4Addr

namespace Cidr

variable {c : Cidr} {ip : Ipv4Addr}

theorem toNat_masked_length (c : Cidr) (ip : Ipv4Addr) :
    (ip.masked c.length).toNat = ip.toNat / c.size * c.size :=
  ip.toNat_masked c.length_le

/-- The first address of a subnet is its own address, masked. -/
theorem network_eq_masked (c : Cidr) : c.network = c.addr.masked c.length := by
  rw [← Ipv4Addr.toNat_inj, toNat_network, toNat_masked_length, block]

/-- **An address lies in a subnet exactly if its masked address is that of the subnet's own.** -/
theorem contains_iff_masked :
    c.contains ip = true ↔ ip.masked c.length = c.addr.masked c.length := by
  rw [← Ipv4Addr.toNat_inj, toNat_masked_length, toNat_masked_length,
    Nat.mul_left_inj (Nat.ne_of_gt c.size_pos), contains, beq_iff_eq, block]

/-- **A mask tells a subnet**: of the subnet's own address it keeps the first one, what it clears
leads from there to the last one, and the addresses of the subnet are those of which it keeps the
same. -/
structure ToldBy (c : Cidr) (mask : UInt32) : Prop where
  network : c.network.bits = c.addr.bits &&& mask
  broadcast : c.broadcast.bits = c.network.bits ||| ~~~mask
  contains : ∀ ip : Ipv4Addr, c.contains ip = true ↔ ip.bits &&& mask = c.addr.bits &&& mask

/-- The netmask is the mask of the prefix. -/
theorem bits_netmask (c : Cidr) : c.netmask.bits = maskOf c.length := by
  have hsize : c.size = 2 ^ (32 - c.length) := Nat.one_shiftLeft _
  have hpos := c.size_pos
  have hnetmask : c.netmask.bits.toNat = (4294967296 - c.size) % 4294967296 :=
    Ipv4Addr.toNat_ofNat _
  have hbound : UInt32.size = 4294967296 := rfl
  have hmask := (maskOf c.length).toNat_lt
  have hnot := toNat_not_maskOf c.length_le
  rw [UInt32.toNat_not, ← hsize] at hnot
  rw [← UInt32.toNat_inj, hnetmask]
  omega

theorem toldBy_netmask (c : Cidr) : c.ToldBy c.netmask.bits := by
  rw [bits_netmask]
  refine ⟨congrArg Ipv4Addr.bits c.network_eq_masked, ?_, fun ip => ?_⟩
  · have hsize : c.size = 2 ^ (32 - c.length) := Nat.one_shiftLeft _
    have hbroadcast : c.broadcast.bits.toNat = c.block * c.size + (c.size - 1) := c.toNat_broadcast
    have hnetwork : c.network.bits.toNat = c.block * c.size := c.toNat_network
    rw [← UInt32.toNat_inj, UInt32.toNat_or, toNat_not_maskOf c.length_le, hbroadcast, hnetwork,
      hsize, ← Nat.shiftLeft_eq]
    exact Nat.shiftLeft_add_eq_or_of_lt (Nat.sub_lt (Nat.two_pow_pos _) Nat.one_pos) _
  · rw [contains_iff_masked, Ipv4Addr.masked, Ipv4Addr.masked, Ipv4Addr.mk.injEq]

end Cidr

end SegmentRouter
