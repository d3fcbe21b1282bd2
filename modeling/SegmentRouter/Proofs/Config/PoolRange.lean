import SegmentRouter.Proofs.Address.Interval
import SegmentRouter.Proofs.Address.Mask
import SegmentRouter.Proofs.Config.Checks

/-!
# Proofs/Config/PoolRange — a pool is checked by its ends

Of a pool only the two ends are looked at, and the report that it leaves the subnet is made exactly
if one of them does (`outside_mem_checkPool`); no other finding reads like it.  That is enough since
a subnet is an interval (`Cidr.subnet_isInterval`).
-/

namespace SegmentRouter

namespace Config

open Finding

variable {d : Domain} {pool : DhcpPool} {interface : Cidr} {condition : Bool} {f g : Finding}

theorem mem_findIf : f ∈ findIf condition g ↔ condition = true ∧ f = g := by
  cases condition <;> simp [findIf]

theorem domainError_inj {name a b : String} :
    domainError name a = domainError name b ↔ a = b := by
  rw [domainError, domainError, Finding.error.injEq]
  exact String.append_right_inj _

theorem getElem?_toList_append {a b : String} {i : Nat} (h : i < a.toList.length) :
    (a ++ b).toList[i]? = a.toList[i]? := by
  rw [String.toList_append, List.getElem?_append_left h]

/-- **The report that a pool leaves the subnet.** -/
def outside (d : Domain) (interface : Cidr) : Finding :=
  domainError d.name s!"DHCP range outside of {interface}"

/-- The report is made if an end of the pool is outside, and for nothing else. -/
theorem outside_mem_checkPool : outside d interface ∈ checkPool d pool interface ↔
    ¬ (interface.contains pool.first = true ∧ interface.contains pool.last = true) := by
  -- the messages on the order of the ends and on the lease time part from this one at a letter
  have hletter : (s!"DHCP range outside of {interface}").toList[11]? = some 'o' :=
    getElem?_toList_append (by decide)
  have hstart : outside d interface ≠
      domainError d.name s!"DHCP range start {pool.first} > end {pool.last}" := by
    intro h
    have hother : (s!"DHCP range start {pool.first} > end {pool.last}").toList[11]? = some 's' := by
      rw [String.append_assoc, String.append_assoc]
      exact getElem?_toList_append (by decide)
    rw [domainError_inj.1 h, hother] at hletter
    cases hletter
  have hlease : outside d interface ≠ domainError d.name "DHCP lease time must be > 0" := by
    intro h
    rw [domainError_inj.1 h] at hletter
    cases hletter
  have hwarning (message : String) : outside d interface ≠ domainWarning d.name message := nofun
  simp only [checkPool, List.mem_append, mem_findIf, hstart, hlease, hwarning, and_false, false_or,
    or_false]
  rw [outside, eq_self, and_true, not_and_or, Bool.or_eq_true, Bool.not_eq_true',
    Bool.not_eq_true', Bool.not_eq_true, Bool.not_eq_true]

theorem outside_mem_checkDhcpServer (hinterface : d.interface = some interface)
    (hpool : d.dhcpServer = some pool) : outside d interface ∈ checkDhcpServer d ↔
      ¬ (interface.contains pool.first = true ∧ interface.contains pool.last = true) := by
  rw [checkDhcpServer, hpool, hinterface]
  exact outside_mem_checkPool

end Config

open Config in
/-- **A subnet is an interval of addresses.**  It is told by its netmask, whose bits are those of the
prefix; an address lies in it exactly if it is at least the first and at most the last address of
it; and there are as many as there are values of the other bits.  Two subnets are apart unless one
has all addresses of the other.  So a pool whose ends are not reported as outside of the subnet lies
in it as a whole, and of a pool that lies in it, with its ends in order, there is no such report. -/
theorem Cidr.subnet_isInterval (c : Cidr) :
    c.netmask.bits = maskOf c.length ∧ c.ToldBy c.netmask.bits ∧
    (∀ ip : Ipv4Addr, c.contains ip = true ↔
      c.network.toNat ≤ ip.toNat ∧ ip.toNat ≤ c.broadcast.toNat) ∧
    c.interval.ncard = 2 ^ (32 - c.length) ∧
    (∀ other : Cidr, ¬ Disjoint c.interval other.interval ↔
      c.interval ⊆ other.interval ∨ other.interval ⊆ c.interval) ∧
    ∀ (d : Domain) (pool : DhcpPool), d.interface = some c → d.dhcpServer = some pool →
      (outside d c ∉ checkDhcpServer d → Ipv4Addr.between pool.first pool.last ⊆ c.interval) ∧
      (pool.first.toNat ≤ pool.last.toNat →
        Ipv4Addr.between pool.first pool.last ⊆ c.interval → outside d c ∉ checkDhcpServer d) := by
  refine ⟨c.bits_netmask, c.toldBy_netmask, fun ip => contains_iff, c.ncard_interval,
    fun other => not_disjoint_interval_iff, ?_⟩
  intro d pool hinterface hpool
  rw [outside_mem_checkDhcpServer hinterface hpool, not_not]
  constructor
  · rintro ⟨hfirst, hlast⟩
    exact between_subset_interval hfirst hlast
  · intro hle hsubset
    exact ⟨mem_interval.1 (hsubset ⟨Nat.le_refl _, hle⟩),
      mem_interval.1 (hsubset ⟨hle, Nat.le_refl _⟩)⟩

/-! ## The empty prefix -/

namespace EmptyPrefix

theorem prefixLength_le : 0 ≤ 32 := by
  decide

/-- An interface in the subnet of all addresses. -/
def interface : Cidr := ⟨.ofOctets 10 0 0 1, 0, prefixLength_le⟩

/-- A pool with all addresses in it. -/
def pool : Config.DhcpPool where
  first := .unspecified
  last := .broadcast

/-- A domain with the interface and the pool. -/
def domain : Config.Domain where
  name := "lan"
  interface := some interface
  dhcpServer := some pool

end EmptyPrefix

/-- The mask of the empty prefix is zero, and all pools lie in its subnet. -/
theorem Cidr.subnet_isInterval_emptyPrefix :
    EmptyPrefix.domain.interface = some EmptyPrefix.interface ∧
    EmptyPrefix.domain.dhcpServer = some EmptyPrefix.pool ∧
    Config.outside EmptyPrefix.domain EmptyPrefix.interface ∉
      Config.checkDhcpServer EmptyPrefix.domain ∧
    Ipv4Addr.between EmptyPrefix.pool.first EmptyPrefix.pool.last ⊆
      EmptyPrefix.interface.interval ∧
    EmptyPrefix.interface.netmask.bits = 0 ∧
    EmptyPrefix.interface.interval.ncard = 4294967296 := by
  obtain ⟨hnetmask, -, -, hcard, -, hpools⟩ := subnet_isInterval EmptyPrefix.interface
  have hunreported : Config.outside EmptyPrefix.domain EmptyPrefix.interface ∉
      Config.checkDhcpServer EmptyPrefix.domain := by decide +kernel
  have hinside := (hpools EmptyPrefix.domain EmptyPrefix.pool rfl rfl).1 hunreported
  exact ⟨rfl, rfl, hunreported, hinside, hnetmask.trans (by decide), hcard.trans (by decide)⟩

end SegmentRouter
