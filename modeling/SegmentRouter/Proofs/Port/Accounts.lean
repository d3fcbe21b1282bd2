import SegmentRouter.Proofs.Port.Share

/-!
# Proofs/Port/Accounts — the ports of a domain are those that links hold

`Domain.Accounts d live` relates a domain's pools and shares to a list of links: a port is taken
exactly if one of the links holds it there, and a share counts the links of its client.  A granted
port goes with a new link (`Accounts.grant`), a freed one with a link that ends
(`Accounts.release`).
-/

namespace SegmentRouter

open Wire (Protocol)

namespace Link

variable {link : Link} {name client : String} {p : Protocol} {port : UInt16}

/-- The link holds a port of a domain. -/
def Holds (link : Link) (name : String) (p : Protocol) (port : UInt16) : Prop :=
  link.server.domain = name ∧ link.protocol = p ∧ link.natPort = some port

/-- The link is counted in a client's share of the ports of a domain. -/
def InShare (link : Link) (name : String) (p : Protocol) (client : String) : Prop :=
  link.server.domain = name ∧ link.protocol = p ∧ link.client.domain = client ∧
    link.natPort.isSome

instance (link : Link) (name : String) (p : Protocol) (port : UInt16) :
    Decidable (link.Holds name p port) :=
  inferInstanceAs (Decidable (_ ∧ _))

instance (link : Link) (name : String) (p : Protocol) (client : String) :
    Decidable (link.InShare name p client) :=
  inferInstanceAs (Decidable (_ ∧ _))

theorem InShare.exists_holds (h : link.InShare name p client) :
    ∃ port, link.Holds name p port := by
  obtain ⟨hs, hp, -, hn⟩ := h
  obtain ⟨port, hport⟩ := Option.isSome_iff_exists.1 hn
  exact ⟨port, hs, hp, hport⟩

end Link

namespace Domain

/-- The ports of a domain are those that links hold, and its shares count these links. -/
structure Accounts (d : Domain) (live : List Link) : Prop where
  next : ∀ p, (d.pools.get p).next < Port.portCount
  taken : ∀ p port, (d.pools.get p).isTaken port = true ↔ ∃ link ∈ live, link.Holds d.name p port
  used : ∀ p client rule, d.nat.get? client = some rule →
    (rule.quotas.get p).used = live.countP (·.InShare d.name p client)
  bounded : ∀ p client rule, d.nat.get? client = some rule →
    (rule.quotas.get p).used ≤ (rule.quotas.get p).max
  inUse : ∀ p, (d.pools.get p).inUse = d.usedPorts p

namespace Accounts

variable {d taken : Domain} {live live' : List Link} {link : Link} {port : UInt16}
  {rule : Rule.Masquerade}

theorem perm (h : d.Accounts live) (hl : live.Perm live') : d.Accounts live' where
  next := h.next
  taken p port := by
    rw [h.taken]
    exact ⟨fun ⟨l, hm, hh⟩ => ⟨l, hl.mem_iff.1 hm, hh⟩, fun ⟨l, hm, hh⟩ => ⟨l, hl.mem_iff.2 hm, hh⟩⟩
  used p client rule hr := by rw [h.used p client rule hr, hl.countP_eq]
  bounded := h.bounded
  inUse := h.inUse

/-- A link that holds no port of the domain does not matter. -/
theorem cons_iff (hfree : ∀ p port, ¬ link.Holds d.name p port) :
    d.Accounts (link :: live) ↔ d.Accounts live := by
  have htaken : ∀ p port, (∃ l ∈ link :: live, l.Holds d.name p port) ↔
      ∃ l ∈ live, l.Holds d.name p port := fun p port => by simp [hfree]
  have hused : ∀ p client, (link :: live).countP (·.InShare d.name p client) =
      live.countP (·.InShare d.name p client) := fun p client => by
    refine List.countP_cons_of_neg ?_
    rw [decide_eq_true_eq]
    exact fun hs => let ⟨port, hh⟩ := hs.exists_holds; hfree p port hh
  refine ⟨fun h => ⟨h.next, fun p port => ?_, fun p client rule hr => ?_, h.bounded, h.inUse⟩,
    fun h => ⟨h.next, fun p port => ?_, fun p client rule hr => ?_, h.bounded, h.inUse⟩⟩
  · rw [h.taken, htaken]
  · rw [h.used p client rule hr, hused]
  · rw [h.taken, htaken]
  · rw [h.used p client rule hr, hused]

section

variable {client : String} {p : Protocol} {pool : Port.Pool} {n : Nat}

/-- A share and the pool behind it may be replaced by what fits the links that there are then, if
the other shares and pools see no difference. -/
theorem withShare (h : d.Accounts live) (hrule : d.nat.get? client = some rule)
    (hnext : pool.next < Port.portCount)
    (htaken : ∀ q, pool.isTaken q = true ↔ ∃ l ∈ live', l.Holds d.name p q)
    (hused : n = live'.countP (·.InShare d.name p client)) (hmax : n ≤ (rule.quotas.get p).max)
    (hinUse : pool.inUse + (rule.quotas.get p).used = (d.pools.get p).inUse + n)
    (hpools : ∀ p' ≠ p, ∀ q,
      (∃ l ∈ live', l.Holds d.name p' q) ↔ ∃ l ∈ live, l.Holds d.name p' q)
    (hshares : ∀ p' c, ¬ (p' = p ∧ c = client) →
      live'.countP (·.InShare d.name p' c) = live.countP (·.InShare d.name p' c)) :
    (d.withShare client rule p ((rule.quotas.get p).counting n) pool).Accounts live' := by
  refine ⟨fun p' => ?_, fun p' q => ?_, fun p' c rule' hr => ?_, fun p' c rule' hr => ?_,
    fun p' => ?_⟩
  · rw [pool_withShare]
    split
    · exact hnext
    · exact h.next p'
  · rw [pool_withShare, name_withShare]
    split
    · rename_i hp
      rw [hp, htaken]
    · rename_i hp
      rw [h.taken, hpools p' hp]
  · rw [name_withShare]
    rw [get?_nat_withShare] at hr
    split at hr
    · rename_i hc
      obtain rfl := Option.some.inj hr
      rw [Rule.PerProtocol.get_set]
      split
      · rename_i hp
        rw [Port.Quota.used_counting, hp, hc, hused]
      · rename_i hp
        rw [hshares p' c fun he => hp he.1, hc]
        exact h.used p' client rule hrule
    · rename_i hc
      rw [hshares p' c fun he => hc he.2]
      exact h.used p' c rule' hr
  · rw [get?_nat_withShare] at hr
    split at hr
    · obtain rfl := Option.some.inj hr
      rw [Rule.PerProtocol.get_set]
      split
      · exact hmax
      · exact h.bounded p' client rule hrule
    · exact h.bounded p' c rule' hr
  · have hsum := usedPorts_withShare (p := p) ((rule.quotas.get p).counting n) pool hrule p'
    have hold := h.inUse p'
    rw [pool_withShare]
    by_cases hp : p' = p
    · rw [if_pos hp, Port.Quota.used_counting] at hsum
      rw [if_pos hp]
      subst hp
      omega
    · rw [if_neg hp] at hsum ⊢
      omega

end

section

variable (hserver : link.server.domain = d.name) (hport : link.natPort = some port)

include hserver hport

theorem holds_iff (p : Protocol) (q : UInt16) :
    link.Holds d.name p q ↔ p = link.protocol ∧ q = port := by
  rw [Link.Holds, hport, Option.some.injEq]
  exact ⟨fun h => ⟨h.2.1.symm, h.2.2.symm⟩, fun h => ⟨hserver, h.1.symm, h.2.symm⟩⟩

/-- A link with a port counts in one share. -/
theorem countP_cons_inShare (live : List Link) (p : Protocol) (c : String) :
    (link :: live).countP (·.InShare d.name p c) = live.countP (·.InShare d.name p c) +
      if p = link.protocol ∧ c = link.client.domain then 1 else 0 := by
  have hshare : link.InShare d.name p c ↔ p = link.protocol ∧ c = link.client.domain := by
    rw [Link.InShare, hport]
    exact ⟨fun h => ⟨h.2.1.symm, h.2.2.1.symm⟩, fun h => ⟨hserver, h.1.symm, h.2.symm, rfl⟩⟩
  rw [List.countP_cons]
  simp only [decide_eq_true_eq, hshare]

/-- **A granted port goes with the link that holds it.** -/
theorem grant (h : d.Accounts live)
    (hg : d.Grants link.client.domain link.protocol port taken) :
    taken.Accounts (link :: live) := by
  obtain ⟨rule, pool, hrule, hq, htakes, rfl⟩ := hg
  have hholds := holds_iff hserver hport
  have hcount := countP_cons_inShare hserver hport live
  refine h.withShare hrule (htakes.next (h.next _)) (fun q => ?_) ?_ hq ?_ (fun p hp q => ?_)
    fun p c hpc => ?_
  · simp only [List.mem_cons, exists_eq_or_imp]
    rw [htakes.isTaken, hholds, ← h.taken]
    simp
  · rw [hcount, if_pos ⟨rfl, rfl⟩, h.used _ _ rule hrule]
  · have := htakes.inUse
    omega
  · simp only [List.mem_cons, exists_eq_or_imp, hholds, hp, false_and, false_or]
  · rw [hcount, if_neg hpc, Nat.add_zero]

/-- **A port that is given back goes with the link that held it**, if no other link holds it. -/
theorem release (h : d.Accounts (link :: live)) (hrule : d.nat.get? link.client.domain = some rule)
    (hone : ∀ l ∈ live, ¬ l.Holds d.name link.protocol port) :
    (d.freePort link.client.domain link.protocol port).Accounts live := by
  have hholds := holds_iff hserver hport
  have hcount := countP_cons_inShare hserver hport live
  have htaken : (d.pools.get link.protocol).isTaken port = true :=
    (h.taken _ _).2 ⟨link, List.mem_cons_self, (hholds _ _).2 ⟨rfl, rfl⟩⟩
  have hused := h.used link.protocol _ rule hrule
  have hmax := h.bounded link.protocol _ rule hrule
  rw [hcount, if_pos ⟨rfl, rfl⟩] at hused
  rw [freePort_of_isTaken hrule htaken]
  refine h.withShare hrule ?_ (fun q => ?_) ?_ ?_ ?_ (fun p hp q => ?_) fun p c hpc => ?_
  · rw [Port.Pool.next_free]
    exact h.next _
  · have hq := h.taken link.protocol q
    simp only [List.mem_cons, exists_eq_or_imp, hholds] at hq
    rw [Port.Pool.isTaken_free htaken, Bool.and_eq_true, hq]
    by_cases hqp : q = port
    · subst hqp
      simpa using hone
    · simp [hqp]
  · omega
  · omega
  · have := Port.Pool.inUse_free htaken
    have := h.inUse link.protocol
    have := used_le_usedPorts hrule link.protocol
    omega
  · simp only [List.mem_cons, exists_eq_or_imp, hholds, hp, false_and, false_or]
  · rw [hcount, if_neg hpc, Nat.add_zero]

end

end Accounts

end Domain

end SegmentRouter
