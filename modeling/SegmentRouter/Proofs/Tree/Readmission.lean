import SegmentRouter.Domain.Reload
import SegmentRouter.Proofs.Tree.Admission

/-!
# Proofs/Tree/Readmission — which links a new configuration takes over

A link is taken over if the new rules lead it as it was opened and its client's share has a port
left.  Nothing else is in its way (`readmit_eq_ok`): the links that are taken over before it were
live together with it, so they have other seats and other ports.
-/

namespace SegmentRouter

open Wire (Protocol)

namespace Domain

variable {server taken : Domain} {link : Link}

/-- The server's domain of a link with the port that the link held taken again. -/
def retakePort (server : Domain) (link : Link) : Except Dismissal Domain :=
  match link.natPort with
  | some port =>
    match server.reservePort link.client.domain link.protocol port with
    | .ok taken => .ok taken
    | .error _ => .error .portUnavailable
  | none => .ok server

theorem takesPort_retakePort (h : server.retakePort link = .ok taken) :
    server.TakesPort link taken := by
  unfold retakePort at h
  unfold TakesPort
  cases hport : link.natPort with
  | some port =>
    rw [hport] at h
    dsimp only at h ⊢
    split at h
    · rename_i hreserve
      obtain rfl := Except.ok.inj h
      exact grants_reservePort hreserve
    · cases h
  | none =>
    rw [hport] at h
    exact (Except.ok.inj h).symm

/-- **The port is taken again if it is free and the share is not used up.** -/
theorem retakePort_eq_ok
    (hport : ∀ port, link.natPort = some port → ∃ rule,
      server.nat.get? link.client.domain = some rule ∧
        (rule.quotas.get link.protocol).used < (rule.quotas.get link.protocol).max ∧
        (Port.index? port).isSome ∧ (server.pools.get link.protocol).isTaken port = false) :
    ∃ taken, server.retakePort link = .ok taken := by
  unfold retakePort
  split
  · rename_i port hnat
    obtain ⟨rule, hrule, hq, hrange, hfree⟩ := hport port hnat
    obtain ⟨pool, hpool⟩ := Option.isSome_iff_exists.1 (Port.Pool.isSome_reserve? hrange hfree)
    rw [reservePort_eq_ok.2 ⟨rule, pool, hrule, hq, hpool, rfl⟩]
    exact ⟨_, rfl⟩
  · exact ⟨server, rfl⟩

/-- Where the port is not taken again it is for want of a port. -/
theorem retakePort_eq_error {reason : Dismissal} (h : server.retakePort link = .error reason) :
    reason = .portUnavailable := by
  unfold retakePort at h
  split at h
  · split at h
    · cases h
    · exact (Except.error.inj h).symm
  · cases h

theorem keepPort_eq {routerIp : Ipv4Addr} (hip : server.routerIp? = some routerIp) :
    (server.Receives link → DomainTree.keepPort link server routerIp = server.retakePort link) ∧
    (¬ server.Receives link → ∃ reason, DomainTree.keepPort link server routerIp = .error reason ∧
      reason ≠ .sideTaken ∧ reason ≠ .portUnavailable) := by
  have hreceives : server.Receives link ↔ server.Translates link routerIp :=
    ⟨fun ⟨_, hip', hm⟩ => Option.some.inj (hip'.symm.trans hip) ▸ hm, fun hm => ⟨routerIp, hip, hm⟩⟩
  rw [hreceives]
  unfold Translates DomainTree.keepPort retakePort
  cases link.natPort with
  | some port =>
    cases htr : server.translatesFor link.client.domain with
    | true =>
      by_cases hdst : link.server.flow.dstIp = routerIp
      · exact ⟨fun _ => if_pos hdst, fun hn => absurd ⟨rfl, fun _ => hdst⟩ hn⟩
      · exact ⟨fun h => absurd (h.2 rfl) hdst,
          fun _ => ⟨.addressChanged, if_neg hdst, nofun, nofun⟩⟩
    | false => exact ⟨nofun, fun _ => ⟨.translationChanged, rfl, nofun, nofun⟩⟩
  | none =>
    cases htr : server.translatesFor link.client.domain with
    | true => exact ⟨nofun, fun _ => ⟨.translationChanged, rfl, nofun, nofun⟩⟩
    | false => exact ⟨fun _ => rfl, fun hn => absurd ⟨rfl, nofun⟩ hn⟩

end Domain

namespace DomainTree

variable {tree tree' previous : DomainTree} {link : Link} {server : Domain}

/-! ## The rules -/

theorem checkTarget_eq (link : Link) (target : LinkTarget) : checkTarget link target =
    if target.Serves link then .ok () else .error .otherDestination := rfl

/-- **A link that the rules uphold only needs its port.** -/
theorem conforming_of_upholds (h : tree.Upholds link) :
    ∃ server, tree.byName? link.server.domain = some server ∧
      tree.conforming link = server.retakePort link := by
  obtain ⟨⟨client, hclient, target, hdec, hserves⟩, server, hserver, hreceives⟩ := h
  obtain ⟨routerIp, hip, -⟩ := id hreceives
  refine ⟨server, hserver, ?_⟩
  unfold conforming
  simp only [hclient, hdec, checkTarget_eq, if_pos hserves, hserver, hip]
  exact (Domain.keepPort_eq hip).1 hreceives

/-- A link that the rules do not uphold is refused, and not for want of a port or a seat. -/
theorem conforming_of_not_upholds (h : ¬ tree.Upholds link) :
    ∃ reason, tree.conforming link = .error reason ∧
      reason ≠ .sideTaken ∧ reason ≠ .portUnavailable := by
  unfold conforming
  cases hclient : tree.byName? link.client.domain with
  | none => exact ⟨.clientRemoved, rfl, nofun, nofun⟩
  | some client =>
    cases hdec : client.decision (link.key .client) with
    | noRule => exact ⟨.notPermitted, by simp only [hdec], nofun, nofun⟩
    | denied => exact ⟨.notPermitted, by simp only [hdec], nofun, nofun⟩
    | permitted target =>
      by_cases hserves : target.Serves link
      · simp only [hdec, checkTarget_eq, if_pos hserves]
        cases hserver : tree.byName? link.server.domain with
        | none => exact ⟨.serverRemoved, rfl, nofun, nofun⟩
        | some server =>
          cases hip : server.routerIp? with
          | none => exact ⟨.serverUnconfigured, by simp only [hip]; rfl, nofun, nofun⟩
          | some routerIp =>
            have hnot : ¬ server.Receives link := fun hr =>
              h ⟨⟨client, hclient, target, hdec, hserves⟩, server, hserver, hr⟩
            simp only [hip]
            exact (Domain.keepPort_eq hip).2 hnot
      · simp only [hdec, checkTarget_eq, if_neg hserves]
        exact ⟨.otherDestination, rfl, nofun, nofun⟩

/-- A link that is taken over shows in links and ports only. -/
theorem unlinked_of_readmitted {changed : List String} (h : tree.readmit changed link = .ok tree') :
    tree'.unlinked = tree.unlinked := by
  unfold readmit at h
  split at h
  · cases h
  · by_cases hup : tree.Upholds link
    · obtain ⟨server, hserver, hconforming⟩ := conforming_of_upholds hup
      rw [hconforming] at h
      cases hretake : server.retakePort link with
      | error reason =>
        rw [hretake] at h
        cases h
      | ok taken =>
        rw [hretake] at h
        simp only [bind, Except.bind] at h
        split at h
        · rename_i admitted hins
          obtain rfl := Except.ok.inj h
          exact (unlinked_insertLink? hins).trans
            (unlinked_taken hserver (Domain.takesPort_retakePort hretake))
        · cases h
    · obtain ⟨reason, hconforming, -⟩ := conforming_of_not_upholds hup
      rw [hconforming] at h
      cases h

theorem unlinked_readmitAll (changed : List String) (links : List Link) (tree : DomainTree) :
    (readmitAll changed links tree).value.2.unlinked = tree.unlinked := by
  induction links generalizing tree with
  | nil => rfl
  | cons link rest ih =>
    unfold readmitAll
    split
    · rename_i admitted h
      exact (ih admitted).trans (unlinked_of_readmitted h)
    · exact ih tree

/-! ## The shares -/

/-- The rules of a tree lead a link as it was opened, between domains that did not become static or
dynamic. -/
def Conforms (tree : DomainTree) (switched : String → Bool) (link : Link) : Prop :=
  switched link.client.domain = false ∧ switched link.server.domain = false ∧ tree.Upholds link

instance (tree : DomainTree) (switched : String → Bool) (link : Link) :
    Decidable (tree.Conforms switched link) :=
  inferInstanceAs (Decidable (_ ∧ _))

/-- How many ports of a domain's pool for a protocol a client's links may hold. -/
def quota (tree : DomainTree) (server client : String) (p : Protocol) : Nat :=
  ((tree.byName? server).bind (·.nat.get? client)).elim 0 fun rule => (rule.quotas.get p).max

theorem quota_of_policies (h : tree'.policies = tree.policies) (name client : String)
    (p : Protocol) : tree'.quota name client p = tree.quota name client p := by
  have hpolicy : ∀ t : DomainTree, t.quota name client p =
      ((t.policy? name).bind (·.nat.get? client)).elim 0 fun rule => (rule.quotas.get p).max := by
    intro t
    rw [quota, policy?]
    cases t.byName? name with
    | none => rfl
    | some d =>
      have hget : d.policy.nat.get? client = (d.nat.get? client).map Domain.unused :=
        SortedMap.get?_mapValues ..
      rw [Option.map_some, Option.bind_some, Option.bind_some, hget]
      cases d.nat.get? client with
      | none => rfl
      | some rule => cases p <;> rfl
  rw [hpolicy, hpolicy, policy?_of_policies h]

/-- A link without a port needs none; one with a port needs a share that more than `n` ports
fit in. -/
def Fits (tree : DomainTree) (link : Link) (n : Nat) : Prop :=
  link.natPort.isSome → n < tree.quota link.server.domain link.client.domain link.protocol

instance (tree : DomainTree) (link : Link) (n : Nat) : Decidable (tree.Fits link n) :=
  inferInstanceAs (Decidable (_ → _))

/-- The links of a list that count in the share that a link would count in. -/
def shareCount (links : List Link) (link : Link) : Nat :=
  links.countP (·.InShare link.server.domain link.protocol link.client.domain)

namespace Sound

/-- **The share of a client has a port left if its links are fewer than its quota.** -/
theorem exists_rule (h : tree.Sound) (hserver : tree.byName? link.server.domain = some server)
    (hreceives : server.Receives link) (hport : link.natPort.isSome) :
    ∃ rule, server.nat.get? link.client.domain = some rule ∧
      ((rule.quotas.get link.protocol).used < (rule.quotas.get link.protocol).max ↔
        tree.Fits link (shareCount tree.liveLinks link)) := by
  obtain ⟨-, -, htr, -⟩ := hreceives
  rw [hport] at htr
  obtain ⟨rule, hrule⟩ := Option.isSome_iff_exists.1 htr.symm
  have hused := (h.accounts hserver).used link.protocol _ rule hrule
  rw [name_of_byName? hserver] at hused
  have hmax : tree.quota link.server.domain link.client.domain link.protocol =
      (rule.quotas.get link.protocol).max := by
    rw [quota, hserver, Option.bind_some, hrule, Option.elim_some]
  refine ⟨rule, hrule, ?_⟩
  rw [Fits, hmax, shareCount, ← hused]
  exact ⟨fun hlt _ => hlt, fun hlt => hlt hport⟩

end Sound

/-! ## One link -/

section

variable {switched : String → Bool} {changed : List String}
  (hchanged : ∀ name, switched name = true ↔ name ∈ changed) (h : tree.Sound)

include hchanged h

/-- **A link that does not conform, or finds its share used up, is refused** — for no other reason,
and never for a seat or a port that another link has. -/
theorem readmit_eq_error
    (hno : ¬ (tree.Conforms switched link ∧ tree.Fits link (shareCount tree.liveLinks link))) :
    ∃ reason, tree.readmit changed link = .error reason ∧ reason ≠ .sideTaken ∧
      (reason = .portUnavailable → tree.Conforms switched link) := by
  unfold readmit
  split
  · exact ⟨.kindChanged, rfl, nofun, nofun⟩
  · rename_i hkinds
    by_cases hup : tree.Upholds link
    · have hconf : tree.Conforms switched link :=
        ⟨Bool.eq_false_iff.2 fun hc => hkinds (.inl ((hchanged _).1 hc)),
          Bool.eq_false_iff.2 fun hs => hkinds (.inr ((hchanged _).1 hs)), hup⟩
      obtain ⟨server, hserver, hconforming⟩ := conforming_of_upholds hup
      obtain ⟨s, hs, hreceives⟩ := hup.server
      obtain rfl : server = s := Option.some.inj (hserver.symm.trans hs)
      rw [hconforming]
      cases hretake : server.retakePort link with
      | error reason =>
        have hreason := Domain.retakePort_eq_error hretake
        exact ⟨reason, rfl, hreason ▸ nofun, fun _ => hconf⟩
      | ok taken =>
        refine absurd ⟨hconf, fun hport => ?_⟩ hno
        obtain ⟨rule, hrule, hfits⟩ := h.exists_rule hserver hreceives hport
        obtain ⟨port, hnat⟩ := Option.isSome_iff_exists.1 hport
        have htakes := Domain.takesPort_retakePort hretake
        rw [Domain.TakesPort, hnat] at htakes
        obtain ⟨rule', -, hrule', hlt, -⟩ := htakes
        obtain rfl : rule = rule' := Option.some.inj (hrule.symm.trans hrule')
        exact hfits.1 hlt hport
    · obtain ⟨reason, hconforming, hside, hport⟩ := conforming_of_not_upholds hup
      rw [hconforming]
      exact ⟨reason, rfl, hside, fun hr => absurd hr hport⟩

/-- **A link that conforms and has a port left in its share is taken over**, because the links that
are there already lived together with it. -/
theorem readmit_eq_ok (hprev : previous.Sound) (hm : link ∈ previous.liveLinks)
    (hsub : ∀ l ∈ tree.liveLinks, l ∈ previous.liveLinks) (hnew : link ∉ tree.liveLinks)
    (hconf : tree.Conforms switched link)
    (hfits : tree.Fits link (shareCount tree.liveLinks link)) :
    ∃ tree', tree.readmit changed link = .ok tree' ∧ tree.Admits link tree' := by
  obtain ⟨hclient, hserverKind, hup⟩ := hconf
  obtain ⟨server, hserver, hconforming⟩ := conforming_of_upholds hup
  obtain ⟨s, hs, hreceives⟩ := hup.server
  obtain rfl : server = s := Option.some.inj (hserver.symm.trans hs)
  have hne : ∀ l ∈ tree.liveLinks, l ≠ link := fun l hl he => hnew (he ▸ hl)
  have hretake : ∃ taken, server.retakePort link = .ok taken := by
    refine Domain.retakePort_eq_ok fun port hnat => ?_
    obtain ⟨rule, hrule, hlt⟩ := h.exists_rule hserver hreceives (Option.isSome_of_eq_some hnat)
    have hholds : link.Holds link.server.domain link.protocol port := ⟨rfl, rfl, hnat⟩
    refine ⟨rule, hrule, hlt.2 hfits, ?_, ?_⟩
    · obtain ⟨d, hd⟩ := hprev.exists_byName? hm .server
      have htaken := ((hprev.accounts hd).taken link.protocol port).2
        ⟨link, hm, (name_of_byName? hd).symm, rfl, hnat⟩
      exact Port.Pool.isSome_index?_of_isTaken htaken
    · refine Bool.eq_false_iff.2 fun htaken => ?_
      obtain ⟨l, hl, hh⟩ := ((h.accounts hserver).taken _ _).1 htaken
      rw [name_of_byName? hserver] at hh
      exact hne l hl (hprev.apart (hsub l hl) hm hh hholds)
  obtain ⟨taken, hretake⟩ := hretake
  have htakes := Domain.takesPort_retakePort hretake
  have hfree : ∀ s, tree.lookup? (link.seat s) = none := fun s =>
    h.lookup?_eq_none.2 fun l hl hsit =>
      hne l hl (hprev.eq_of_sitsAt (hsub l hl) hm hsit (link.sitsAt_seat s))
  have hins : ∃ tree', (tree.update link.server.domain fun _ => taken).insertLink? link =
      some tree' := by
    refine ⟨_, insertLink?_eq_some.2 ⟨fun s => ⟨?_, ?_⟩, rfl⟩⟩
    · rw [isSome_byName?_update fun _ _ => name_taken hserver htakes]
      obtain ⟨d, hd, -⟩ := hup.isSome_ipConfig s
      exact Option.isSome_of_eq_some hd
    · rw [lookup?_taken hserver htakes, hfree]
  obtain ⟨tree', hins⟩ := hins
  refine ⟨tree', ?_, h.admits hserver htakes hins (fun l hl hid => ?_) hup (hprev.formed link hm)⟩
  · have hkinds : ¬ (link.client.domain ∈ changed ∨ link.server.domain ∈ changed) := by
      rw [← hchanged, ← hchanged, hclient, hserverKind]
      exact not_or.2 ⟨nofun, nofun⟩
    unfold readmit
    rw [if_neg hkinds, hconforming, hretake]
    simp only [bind, Except.bind, hins]
  · exact hne l hl (hprev.eq_of_id (hsub l hl) hm hid)

end

end DomainTree

end SegmentRouter
