import SegmentRouter.Domain.Basic
import SegmentRouter.Proofs.Port.Pool
import SegmentRouter.Proofs.SortedMap.Entries

/-!
# Proofs/Port/Share — the ports of a domain and the shares in them

A port is taken from a domain's pool and counted in one client's share at once (`Domain.Grants`).
The shares of the other clients stay, and the sum of all shares moves by what the one share does
(`usedPorts_withShare`).
-/

namespace SegmentRouter

open Wire (Protocol)

namespace Rule.PerProtocol

variable {α β : Type}

theorem set_get (v : PerProtocol α) (p : Protocol) : v.set p (v.get p) = v := by
  cases p <;> rfl

theorem set_set (v : PerProtocol α) (p : Protocol) (a b : α) : (v.set p a).set p b = v.set p b := by
  cases p <;> rfl

/-- The values of all protocols changed. -/
def map (f : α → β) (v : PerProtocol α) : PerProtocol β :=
  { icmp := f v.icmp, tcp := f v.tcp, udp := f v.udp }

@[simp] theorem get_map (f : α → β) (v : PerProtocol α) (p : Protocol) :
    (v.map f).get p = f (v.get p) := by
  cases p <;> rfl

theorem map_set (f : α → β) (v : PerProtocol α) (p : Protocol) (a : α) :
    (v.set p a).map f = (v.map f).set p (f a) := by
  cases p <;> rfl

theorem ext_get {v v' : PerProtocol α} (h : ∀ p, v.get p = v'.get p) : v = v' := by
  cases v
  cases v'
  exact mk.injEq .. ▸ ⟨h .icmp, h .tcp, h .udp⟩

end Rule.PerProtocol

namespace Port.Quota

/-- The quota with another count of used ports. -/
def counting (quota : Quota) (used : Nat) : Quota :=
  { quota with used }

@[simp] theorem used_counting (quota : Quota) (n : Nat) : (quota.counting n).used = n := rfl

end Port.Quota

namespace Domain

variable {d taken : Domain} {client c : String} {p q : Protocol} {port : UInt16}
  {rule : Rule.Masquerade} {quota : Port.Quota} {pool : Port.Pool}

/-- The ports of a protocol that are counted in the shares of all clients. -/
def usedPorts (d : Domain) (p : Protocol) : Nat :=
  (d.nat.values.map fun rule => (rule.quotas.get p).used).sum

/-! ## Replacing a share -/

@[simp] theorem name_withShare : (d.withShare client rule p quota pool).name = d.name := rfl

theorem get?_nat_withShare (d : Domain) (client : String) (rule : Rule.Masquerade) (p : Protocol)
    (quota : Port.Quota) (pool : Port.Pool) (c : String) :
    (d.withShare client rule p quota pool).nat.get? c =
      if c = client then some { rule with quotas := rule.quotas.set p quota } else d.nat.get? c :=
  SortedMap.get?_insert ..

theorem pool_withShare (q : Protocol) : (d.withShare client rule p quota pool).pools.get q =
    if q = p then pool else d.pools.get q :=
  Rule.PerProtocol.get_set ..

theorem withShare_withShare (q' : Port.Quota) (pool' : Port.Pool) :
    (d.withShare client rule p quota pool).withShare client
        { rule with quotas := rule.quotas.set p quota } p q' pool' =
      d.withShare client rule p q' pool' := by
  unfold withShare
  simp only [SortedMap.insert_insert, Rule.PerProtocol.set_set]

/-- **The sum of the shares moves by what the one share does.** -/
theorem usedPorts_withShare (quota : Port.Quota) (pool : Port.Pool)
    (h : d.nat.get? client = some rule) (q : Protocol) :
    (d.withShare client rule p quota pool).usedPorts q + (rule.quotas.get q).used =
      d.usedPorts q + (if q = p then quota else rule.quotas.get q).used := by
  obtain ⟨rest, hold, hnew⟩ :=
    SortedMap.values_insert_of_some { rule with quotas := rule.quotas.set p quota } h
  have h₁ : d.usedPorts q = (rule.quotas.get q).used +
      (rest.map fun rule => (rule.quotas.get q).used).sum :=
    (hold.map _).sum_nat
  have h₂ : (d.withShare client rule p quota pool).usedPorts q =
      ((rule.quotas.set p quota).get q).used +
        (rest.map fun rule => (rule.quotas.get q).used).sum :=
    (hnew.map _).sum_nat
  rw [h₁, h₂, Rule.PerProtocol.get_set]
  omega

theorem used_le_usedPorts (h : d.nat.get? client = some rule) (q : Protocol) :
    (rule.quotas.get q).used ≤ d.usedPorts q := by
  obtain ⟨rest, hold, -⟩ := SortedMap.values_insert_of_some rule h
  have hsum : d.usedPorts q = (rule.quotas.get q).used +
      (rest.map fun rule => (rule.quotas.get q).used).sum :=
    (hold.map _).sum_nat
  omega

/-! ## Taking a port -/

/-- A free port is taken and counted in the share of a client, which had one left. -/
def Grants (d : Domain) (client : String) (p : Protocol) (port : UInt16) (taken : Domain) : Prop :=
  ∃ rule pool, d.nat.get? client = some rule ∧
    (rule.quotas.get p).used < (rule.quotas.get p).max ∧ (d.pools.get p).Takes port pool ∧
    taken = d.withShare client rule p
      ((rule.quotas.get p).counting ((rule.quotas.get p).used + 1)) pool

theorem allocPort_eq_ok (h : d.allocPort client p = .ok (port, taken)) :
    ∃ rule pool, d.nat.get? client = some rule ∧
      (rule.quotas.get p).used < (rule.quotas.get p).max ∧
      (d.pools.get p).alloc? = some (port, pool) ∧
      taken = d.withShare client rule p
        ((rule.quotas.get p).counting ((rule.quotas.get p).used + 1)) pool := by
  unfold allocPort Port.Quota.alloc? at h
  split at h
  · cases h
  · rename_i rule hrule
    by_cases hq : (rule.quotas.get p).max ≤ (rule.quotas.get p).used
    · rw [if_pos hq] at h
      cases h
    · rw [if_neg hq] at h
      cases ha : (d.pools.get p).alloc? with
      | none =>
        rw [ha] at h
        cases h
      | some found =>
        rw [ha] at h
        obtain ⟨rfl, rfl⟩ := Prod.mk.inj (Except.ok.inj h)
        exact ⟨rule, found.2, hrule, Nat.lt_of_not_le hq, rfl, rfl⟩

/-- The port that a client is given is one that was free. -/
theorem grants_allocPort (hnext : (d.pools.get p).next < Port.portCount)
    (h : d.allocPort client p = .ok (port, taken)) : d.Grants client p port taken := by
  obtain ⟨rule, pool, hrule, hq, ha, rfl⟩ := allocPort_eq_ok h
  exact ⟨rule, pool, hrule, hq, Port.Pool.takes_alloc? hnext ha, rfl⟩

/-- **A given port is taken exactly if it is free, of the range, and the share is not used up.** -/
theorem reservePort_eq_ok : d.reservePort client p port = .ok taken ↔
    ∃ rule pool, d.nat.get? client = some rule ∧
      (rule.quotas.get p).used < (rule.quotas.get p).max ∧
      (d.pools.get p).reserve? port = some pool ∧
      taken = d.withShare client rule p
        ((rule.quotas.get p).counting ((rule.quotas.get p).used + 1)) pool := by
  unfold reservePort Port.Quota.reserve?
  constructor
  · intro h
    split at h
    · cases h
    · rename_i rule hrule
      by_cases hq : (rule.quotas.get p).max ≤ (rule.quotas.get p).used
      · rw [if_pos hq] at h
        cases h
      · rw [if_neg hq] at h
        cases hr : (d.pools.get p).reserve? port with
        | none =>
          rw [hr] at h
          cases h
        | some pool =>
          rw [hr] at h
          exact ⟨rule, pool, hrule, Nat.lt_of_not_le hq, rfl, (Except.ok.inj h).symm⟩
  · rintro ⟨rule, pool, hrule, hq, hr, rfl⟩
    simp only [hrule, if_neg (Nat.not_le.2 hq), hr]
    rfl

theorem grants_reservePort (h : d.reservePort client p port = .ok taken) :
    d.Grants client p port taken := by
  obtain ⟨rule, pool, hrule, hq, hr, rfl⟩ := reservePort_eq_ok.1 h
  exact ⟨rule, pool, hrule, hq, Port.Pool.takes_reserve? hr, rfl⟩

theorem Grants.name_eq (h : d.Grants client p port taken) : taken.name = d.name := by
  obtain ⟨rule, pool, -, -, -, rfl⟩ := h
  rfl

theorem Grants.links_eq (h : d.Grants client p port taken) : taken.links = d.links := by
  obtain ⟨rule, pool, -, -, -, rfl⟩ := h
  rfl

/-! ## Giving a port back -/

theorem freePort_of_rule (hrule : d.nat.get? client = some rule) (port : UInt16) :
    d.freePort client p port = d.withShare client rule p
      ((rule.quotas.get p).counting ((rule.quotas.get p).used -
        if (d.pools.get p).isTaken port then 1 else 0)) ((d.pools.get p).free port) := by
  unfold freePort Port.Quota.free
  simp only [hrule]
  split
  · rfl
  · rename_i hfree
    rw [Port.Pool.free_of_not_isTaken hfree]
    rfl

theorem freePort_of_isTaken (hrule : d.nat.get? client = some rule)
    (h : (d.pools.get p).isTaken port = true) : d.freePort client p port =
      d.withShare client rule p
        ((rule.quotas.get p).counting ((rule.quotas.get p).used - 1))
        ((d.pools.get p).free port) := by
  rw [freePort_of_rule hrule, if_pos h]

/-- A port that was taken and is given back leaves the share as it was. -/
theorem freePort_withShare (htaken : pool.isTaken port = true) :
    (d.withShare client rule p
        ((rule.quotas.get p).counting ((rule.quotas.get p).used + 1)) pool).freePort client p port =
      d.withShare client rule p (rule.quotas.get p) (pool.free port) := by
  have hpool : ∀ quota, (d.withShare client rule p quota pool).pools.get p = pool := fun quota => by
    rw [pool_withShare, if_pos rfl]
  have hrule := (get?_nat_withShare d client rule p
    ((rule.quotas.get p).counting ((rule.quotas.get p).used + 1)) pool client).trans (if_pos rfl)
  rw [freePort_of_isTaken hrule (by rw [hpool]; exact htaken), hpool, withShare_withShare]
  simp only [Rule.PerProtocol.get_set, if_true, Port.Quota.used_counting, Nat.add_sub_cancel]
  rfl

end Domain

end SegmentRouter
