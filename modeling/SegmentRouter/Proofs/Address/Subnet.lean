import SegmentRouter.Address.Cidr

/-!
# Proofs/Address/Subnet — a subnet is an interval of addresses

The size of a subnet divides the number of all addresses, so its last address is no larger than
255.255.255.255, and an address lies in the subnet exactly if it lies between the first and the last
address of it (`Cidr.contains_iff`).  Those two are no hosts' addresses (`Cidr.IsHost`), except in a
subnet that has no others.
-/

namespace SegmentRouter.Cidr

variable {c : Cidr} {ip first last : Ipv4Addr}

theorem size_dvd (c : Cidr) : c.size ∣ 4294967296 := by
  rw [size, Nat.one_shiftLeft]
  exact Nat.pow_dvd_pow 2 (Nat.sub_le 32 c.length)

/-- **A subnet ends before the addresses do.** -/
theorem block_mul_size_add_size_le (c : Cidr) : c.block * c.size + c.size ≤ 4294967296 := by
  obtain ⟨count, hcount⟩ := c.size_dvd
  have hblock : c.block < count := by
    rw [block, Nat.div_lt_iff_lt_mul c.size_pos, Nat.mul_comm, ← hcount]
    exact c.addr.toNat_lt
  calc c.block * c.size + c.size = (c.block + 1) * c.size := (Nat.succ_mul ..).symm
    _ ≤ count * c.size := Nat.mul_le_mul_right _ hblock
    _ = 4294967296 := by rw [Nat.mul_comm, ← hcount]

theorem toNat_network (c : Cidr) : c.network.toNat = c.block * c.size := by
  have hend := c.block_mul_size_add_size_le
  have hpos := c.size_pos
  rw [network, Ipv4Addr.toNat_ofNat, Nat.mod_eq_of_lt (by omega)]

theorem toNat_broadcast (c : Cidr) :
    c.broadcast.toNat = c.block * c.size + (c.size - 1) := by
  have hend := c.block_mul_size_add_size_le
  have hpos := c.size_pos
  rw [broadcast, Ipv4Addr.toNat_ofNat, Nat.mod_eq_of_lt (by omega)]

/-- **A subnet holds the addresses from its first to its last one.** -/
theorem contains_iff : c.contains ip = true ↔
    c.network.toNat ≤ ip.toNat ∧ ip.toNat ≤ c.broadcast.toNat := by
  have hpos := c.size_pos
  rw [contains, beq_iff_eq, Nat.div_eq_iff hpos, toNat_network, toNat_broadcast]
  omega

/-- What lies between two addresses of a subnet lies in it. -/
theorem contains_of_between (hfirst : c.contains first = true) (hlast : c.contains last = true)
    (hfrom : first.toNat ≤ ip.toNat) (hto : ip.toNat ≤ last.toNat) : c.contains ip = true := by
  rw [contains_iff] at hfirst hlast ⊢
  exact ⟨Nat.le_trans hfirst.1 hfrom, Nat.le_trans hto hlast.2⟩

@[simp] theorem contains_addr (c : Cidr) : c.contains c.addr = true :=
  beq_self_eq_true _

/-- **The address of a host**: it lies in the subnet and is neither its first nor its last address,
unless these are all that the subnet has. -/
structure IsHost (c : Cidr) (ip : Ipv4Addr) : Prop where
  inSubnet : c.contains ip = true
  inside : c.length < 31 → ip ≠ c.network ∧ ip ≠ c.broadcast

end SegmentRouter.Cidr
