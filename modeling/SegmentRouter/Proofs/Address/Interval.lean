import Mathlib.Data.Set.Card
import Mathlib.Order.CompletePartialOrder
import Mathlib.Order.Interval.Finset.Nat
import SegmentRouter.Proofs.Address.Subnet

/-!
# Proofs/Address/Interval — subnets as sets of addresses

The addresses of a subnet are those from its first to its last one (`Cidr.interval`), and their
number is a power of two (`Cidr.ncard_interval`).  The subnets of one size cut up all addresses, and
those of half the size cut each of them in two; so two subnets that have an address in common are
one inside the other (`Cidr.not_disjoint_interval_iff`).
-/

namespace SegmentRouter

namespace Ipv4Addr

variable {ip first last : Ipv4Addr}

/-- The addresses from one to another. -/
def between (first last : Ipv4Addr) : Set Ipv4Addr :=
  {ip | first.toNat ≤ ip.toNat ∧ ip.toNat ≤ last.toNat}

theorem mem_between :
    ip ∈ between first last ↔ first.toNat ≤ ip.toNat ∧ ip.toNat ≤ last.toNat :=
  Iff.rfl

theorem toNat_injective : Function.Injective toNat := fun _ _ => toNat_inj.1

/-- Every number from that of one address to that of another is an address's. -/
theorem image_toNat_between (first last : Ipv4Addr) :
    toNat '' between first last = Set.Icc first.toNat last.toNat := by
  ext n
  constructor
  · rintro ⟨ip, hip, rfl⟩
    exact hip
  · intro hn
    have hlt : n < 4294967296 := Nat.lt_of_le_of_lt hn.2 last.toNat_lt
    have htoNat : (ofNat n).toNat = n := by rw [toNat_ofNat, Nat.mod_eq_of_lt hlt]
    refine ⟨ofNat n, ?_, htoNat⟩
    rwa [mem_between, htoNat]

theorem ncard_between (first last : Ipv4Addr) :
    (between first last).ncard = last.toNat + 1 - first.toNat := by
  rw [← Set.ncard_image_of_injective _ toNat_injective, image_toNat_between, ← Finset.coe_Icc,
    Set.ncard_coe_finset, Nat.card_Icc]

end Ipv4Addr

namespace Cidr

variable {c other : Cidr} {ip first last : Ipv4Addr}

/-- **The addresses of a subnet**, from its first to its last one. -/
def interval (c : Cidr) : Set Ipv4Addr :=
  Ipv4Addr.between c.network c.broadcast

theorem mem_interval : ip ∈ c.interval ↔ c.contains ip = true :=
  contains_iff.symm

theorem addr_mem_interval (c : Cidr) : c.addr ∈ c.interval :=
  mem_interval.2 c.contains_addr

/-- **A subnet has an address for every value of the bits beyond its prefix.** -/
theorem ncard_interval (c : Cidr) : c.interval.ncard = 2 ^ (32 - c.length) := by
  have hsize : c.size = 2 ^ (32 - c.length) := Nat.one_shiftLeft _
  have hpos := c.size_pos
  rw [interval, Ipv4Addr.ncard_between, toNat_network, toNat_broadcast, ← hsize]
  omega

/-- A subnet with a shorter prefix is made of subnets with a longer one. -/
theorem div_size (hlength : c.length ≤ other.length) (n : Nat) :
    n / c.size = n / other.size / 2 ^ (other.length - c.length) := by
  have hother := other.length_le
  have hbits : 32 - other.length + (other.length - c.length) = 32 - c.length := by omega
  rw [Nat.div_div_eq_div_mul, size, size, Nat.one_shiftLeft, Nat.one_shiftLeft, ← Nat.pow_add,
    hbits]

/-- **A subnet lies inside each one with a shorter prefix that it meets.** -/
theorem interval_subset_of_mem (hlength : c.length ≤ other.length) (hip : ip ∈ c.interval)
    (hother : ip ∈ other.interval) : other.interval ⊆ c.interval := by
  intro neighbour hneighbour
  rw [mem_interval, contains, beq_iff_eq] at hip hother hneighbour ⊢
  calc neighbour.toNat / c.size
      = neighbour.toNat / other.size / 2 ^ (other.length - c.length) := div_size hlength _
    _ = ip.toNat / other.size / 2 ^ (other.length - c.length) := by rw [hneighbour, hother]
    _ = c.block := by rw [← div_size hlength, hip]

/-- **Two subnets are nested or apart.** -/
theorem not_disjoint_interval_iff : ¬ Disjoint c.interval other.interval ↔
    c.interval ⊆ other.interval ∨ other.interval ⊆ c.interval := by
  rw [Set.not_disjoint_iff]
  constructor
  · rintro ⟨ip, hip, hother⟩
    rcases Nat.le_total c.length other.length with hlength | hlength
    · exact .inr (interval_subset_of_mem hlength hip hother)
    · exact .inl (interval_subset_of_mem hlength hother hip)
  · rintro (hsubset | hsubset)
    · exact ⟨c.addr, c.addr_mem_interval, hsubset c.addr_mem_interval⟩
    · exact ⟨other.addr, hsubset other.addr_mem_interval, other.addr_mem_interval⟩

/-- What lies between two addresses of a subnet lies in it. -/
theorem between_subset_interval (hfirst : c.contains first = true)
    (hlast : c.contains last = true) : Ipv4Addr.between first last ⊆ c.interval := by
  intro ip hip
  exact mem_interval.2 (contains_of_between hfirst hlast hip.1 hip.2)

end Cidr

end SegmentRouter
