import SegmentRouter.Proofs.Router.Reachable

/-!
# Proofs/Router/Consistency — links, their index and their ports tell the same story

A link stands in three tables of up to two domains and may hold a port in one of them.  In every
state of a router the tables agree: no look-up leads nowhere, no link is out of reach
(`Reachable.consistentLinks`), and a port is in use exactly as long as one link holds it
(`Reachable.ports_exact`).
-/

namespace SegmentRouter.Router

open Wire (Protocol)

variable {r : Router}

/-! ## Tables -/

/-- The tables of links agree with each other in all domains. -/
structure ConsistentLinks (r : Router) : Prop where
  /-- A domain holds links of its own clients, under their ids, which were given out. -/
  held : ∀ {d id link}, d ∈ r.tree.domains → d.links.owned.get? id = some link →
    link.id = id ∧ id < r.nextLink ∧ link.client.domain = d.name
  /-- No two domains hold links with one id. -/
  once : ∀ {d e id}, d ∈ r.tree.domains → e ∈ r.tree.domains →
    d.links.owned.contains id = true → e.links.owned.contains id = true → d = e
  /-- Each end of a link is entered in its domain; if both ends are the same, once for both. -/
  entered : ∀ {d id link} (s : Side), d ∈ r.tree.domains → d.links.owned.get? id = some link →
    ∃ e ref, r.tree.byName? (link.side s).domain = some e ∧
      e.links.lookup? (link.key s) = some ref ∧ ref.link = link.id ∧
      ref.owner = link.client.domain ∧ (link.client ≠ link.server → ref.side = s)
  /-- An entry leads to a link, with the end that it names where the entry stands. -/
  refers : ∀ {d key ref}, d ∈ r.tree.domains → d.links.lookup? key = some ref →
    ∃ link, r.tree.ownedLink? ref.owner ref.link = some link ∧ link.protocol = key.protocol ∧
      link.side ref.side = { domain := d.name, flow := key.flow }

namespace Good

variable {d : Domain} {id : Nat} {link : Link}

theorem ownedLink?_of_get? (h : r.Good) (hd : d ∈ r.tree.domains)
    (hget : d.links.owned.get? id = some link) : r.tree.ownedLink? d.name id = some link := by
  rw [DomainTree.ownedLink?, h.sound.distinct.byName?_of_mem hd]
  exact hget

theorem mem_of_get? (h : r.Good) (hd : d ∈ r.tree.domains)
    (hget : d.links.owned.get? id = some link) : link ∈ r.tree.liveLinks :=
  (h.sound.ownedLink?_eq_some.1 (h.ownedLink?_of_get? hd hget)).1

end Good

/-- **Links and their index agree in every state of a router.** -/
theorem Reachable.consistentLinks (h : r.Reachable) : r.ConsistentLinks := by
  have hgood := h.good
  constructor
  case held =>
    intro d id link hd hget
    obtain ⟨hm, hclient, rfl⟩ :=
      hgood.sound.ownedLink?_eq_some.1 (hgood.ownedLink?_of_get? hd hget)
    exact ⟨rfl, hgood.fresh link hm, hclient⟩
  case once =>
    intro d e id hd he hdid heid
    obtain ⟨a, ha⟩ := Option.isSome_iff_exists.1 hdid
    obtain ⟨b, hb⟩ := Option.isSome_iff_exists.1 heid
    obtain ⟨ham, had, haid⟩ := hgood.sound.ownedLink?_eq_some.1 (hgood.ownedLink?_of_get? hd ha)
    obtain ⟨hbm, hbe, hbid⟩ := hgood.sound.ownedLink?_eq_some.1 (hgood.ownedLink?_of_get? he hb)
    obtain rfl : a = b := hgood.sound.eq_of_id ham hbm (haid.trans hbid.symm)
    have hname : d.name = e.name := had.symm.trans hbe
    have hfind := hgood.sound.distinct.byName?_of_mem hd
    rw [hname, hgood.sound.distinct.byName?_of_mem he] at hfind
    exact (Option.some.inj hfind).symm
  case entered =>
    intro d id link s hd hget
    have hm := hgood.mem_of_get? hd hget
    obtain ⟨e, he, hlookup⟩ := Option.bind_eq_some_iff.1
      (hgood.sound.lookup?_of_sitsAt hm (link.sitsAt_seat s))
    refine ⟨e, _, he, hlookup, rfl, rfl, fun hends => ?_⟩
    cases s with
    | server => rw [link.refAt_server]; rfl
    | client =>
      have hseats : link.seat .client ≠ link.seat .server := fun hs => by
        obtain ⟨hdomain, hkey⟩ := Seat.mk.inj hs
        obtain ⟨-, hflow⟩ := FlowKey.mk.inj hkey
        exact hends (by cases link; rw [Endpoint.mk.injEq]; exact ⟨hdomain, hflow⟩)
      rw [Link.refAt_of_ne hseats]
      rfl
  case refers =>
    intro d key ref hd hlookup
    have hseat : r.tree.lookup? ⟨d.name, key⟩ = some ref := by
      rw [DomainTree.lookup?, hgood.sound.distinct.byName?_of_mem hd]
      exact hlookup
    obtain ⟨link, hm, hsits, rfl⟩ := (hgood.sound.index ..).1 hseat
    obtain ⟨hdomain, hkey⟩ := Seat.mk.inj (Link.seat_side_refAt hsits)
    have hend : ∀ s, (link.side s).domain = d.name → link.key s = key →
        link.side s = { domain := d.name, flow := key.flow } := by
      rintro s hs rfl
      rw [← hs]
      rfl
    exact ⟨link, hgood.sound.ownedLink?_of_mem hm, congrArg FlowKey.protocol hkey,
      hend _ hdomain hkey⟩

/-- The link of a ping is where both of its domains look for it. -/
theorem consistentLinks_ping : Ping.router.Reachable ∧ Ping.router.tree.liveLinks = [Ping.link] ∧
    Ping.router.ConsistentLinks :=
  ⟨Ping.reachable_router, Ping.liveLinks_router, Ping.reachable_router.consistentLinks⟩

/-! ## Ports -/

/-- **In every state of a router the ports in use are those that live links hold.**  No two links
hold the same one, each share counts its client's links within its bound, and the pool counts what
the shares do. -/
theorem Reachable.ports_exact (h : r.Reachable) {d : Domain} (hd : d ∈ r.tree.domains)
    (p : Protocol) :
    (∀ port, (d.pools.get p).isTaken port = true ↔
      ∃ link ∈ r.tree.liveLinks, link.Holds d.name p port) ∧
    (∀ port, ∀ a ∈ r.tree.liveLinks, ∀ b ∈ r.tree.liveLinks,
      a.Holds d.name p port → b.Holds d.name p port → a = b) ∧
    (∀ client rule, d.nat.get? client = some rule →
      (rule.quotas.get p).used = r.tree.liveLinks.countP (·.InShare d.name p client) ∧
        (rule.quotas.get p).used ≤ (rule.quotas.get p).max) ∧
    (d.pools.get p).inUse = (d.nat.values.map fun rule => (rule.quotas.get p).used).sum := by
  have hsound := h.good.sound
  have hacc := hsound.accounts (hsound.distinct.byName?_of_mem hd)
  refine ⟨hacc.taken p, fun port a ha b hb => hsound.apart ha hb, fun client rule hrule => ?_,
    hacc.inUse p⟩
  exact ⟨hacc.used p client rule hrule, hacc.bounded p client rule hrule⟩

/-- The identifier that a ping was given is in use because its link holds it. -/
theorem ports_exact_ping : (Ping.wan.pools.get .icmp).isTaken 49152 = true ∧
    ∃ link ∈ Ping.router.tree.liveLinks, link.Holds Ping.wan.name .icmp 49152 := by
  have htaken : (Ping.wan.pools.get .icmp).isTaken 49152 = true := by decide +kernel
  exact ⟨htaken, ((Ping.reachable_router.ports_exact Ping.wan_mem .icmp).1 49152).1 htaken⟩

end SegmentRouter.Router
