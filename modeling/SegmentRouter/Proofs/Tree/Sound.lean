import SegmentRouter.Proofs.Domain.Core
import SegmentRouter.Proofs.Port.Accounts

/-!
# Proofs/Tree/Sound — what holds of the links of a tree at any time

`DomainTree.Sound` says that a tree's links, its index and its ports tell the same story: each link
is held under its id by its client's domain, the index has the two seats of each link and nothing
else, and the ports in use are those that links hold.  It also says that every link is one that the
rules still lead to (`DomainTree.Upholds`), with the ends that it was opened with
(`Link.Formed`).

All of it is about the core of the tree only (`Sound.of_core`).
-/

namespace SegmentRouter

open Wire (Protocol)

/-! ## Links and rules -/

/-- What a link's ends have in common from the beginning. -/
structure Link.Formed (link : Link) : Prop where
  translated : ∀ port, link.natPort = some port → link.server.flow.dstPort = port
  plain : link.natPort = none → link.server.flow.dstIp = link.client.flow.srcIp ∧
    link.server.flow.dstPort = link.client.flow.srcPort
  echo : link.protocol = .icmp → link.server.flow.srcPort = link.server.flow.dstPort

/-- A target of the rules is the server of a link. -/
def LinkTarget.Serves (target : LinkTarget) (link : Link) : Prop :=
  target.domain = link.server.domain ∧ target.ip = link.server.flow.srcIp ∧
    (link.protocol = .icmp ∨ target.port = link.server.flow.srcPort)

instance (target : LinkTarget) (link : Link) : Decidable (target.Serves link) :=
  inferInstanceAs (Decidable (_ ∧ _))

namespace Domain

/-- The rules of a client's domain lead a link to its server. -/
def LeadsTo (client : Domain) (link : Link) : Prop :=
  ∃ target, client.decision (link.key .client) = .permitted target ∧ target.Serves link

/-- A domain translates a link exactly if the link is, to the domain's own address. -/
def Translates (server : Domain) (link : Link) (routerIp : Ipv4Addr) : Prop :=
  link.natPort.isSome = server.translatesFor link.client.domain ∧
    (link.natPort.isSome → link.server.flow.dstIp = routerIp)

/-- A server's domain has addresses and translates a link exactly if the link is. -/
def Receives (server : Domain) (link : Link) : Prop :=
  ∃ routerIp, server.routerIp? = some routerIp ∧ server.Translates link routerIp

instance (client : Domain) (link : Link) : Decidable (client.LeadsTo link) :=
  match h : client.decision (link.key .client) with
  | .permitted target => decidable_of_iff (target.Serves link)
      ⟨fun hs => ⟨target, h, hs⟩, fun ⟨_, ht, hs⟩ =>
        LinkDecision.permitted.inj (h.symm.trans ht) ▸ hs⟩
  | .noRule | .denied => isFalse fun ⟨_, ht, _⟩ => nomatch h.symm.trans ht

instance (server : Domain) (link : Link) (routerIp : Ipv4Addr) :
    Decidable (server.Translates link routerIp) :=
  inferInstanceAs (Decidable (_ ∧ (_ → _)))

instance (server : Domain) (link : Link) : Decidable (server.Receives link) :=
  decidable_of_iff (∃ routerIp ∈ server.routerIp?, server.Translates link routerIp) .rfl

theorem leadsTo_policy (client : Domain) (link : Link) :
    client.policy.LeadsTo link ↔ client.LeadsTo link := .rfl

theorem receives_policy (server : Domain) (link : Link) :
    server.policy.Receives link ↔ server.Receives link := by
  have htr : server.policy.translatesFor link.client.domain =
      server.translatesFor link.client.domain :=
    SortedMap.contains_mapValues ..
  unfold Receives Translates
  rw [htr]
  rfl

end Domain

namespace DomainTree

variable {tree tree' : DomainTree} {link : Link}

/-- The rules lead a link to its server in the way in which it was opened. -/
structure Upholds (tree : DomainTree) (link : Link) : Prop where
  client : ∃ d, tree.byName? link.client.domain = some d ∧ d.LeadsTo link
  server : ∃ d, tree.byName? link.server.domain = some d ∧ d.Receives link

instance (tree : DomainTree) (link : Link) : Decidable (tree.Upholds link) :=
  decidable_of_iff
    ((∃ d ∈ tree.byName? link.client.domain, d.LeadsTo link) ∧
      ∃ d ∈ tree.byName? link.server.domain, d.Receives link)
    ⟨fun ⟨hc, hs⟩ => ⟨hc, hs⟩, fun ⟨hc, hs⟩ => ⟨hc, hs⟩⟩

/-- **Only the policies of the two domains decide what is upheld.** -/
theorem Upholds.of_policy? (h : tree.Upholds link)
    (hc : tree'.policy? link.client.domain = tree.policy? link.client.domain)
    (hs : tree'.policy? link.server.domain = tree.policy? link.server.domain) :
    tree'.Upholds link := by
  obtain ⟨⟨c, hbc, hleads⟩, s, hbs, hreceives⟩ := h
  rw [policy?, policy?, hbc, Option.map_some, Option.map_eq_some_iff] at hc
  rw [policy?, policy?, hbs, Option.map_some, Option.map_eq_some_iff] at hs
  obtain ⟨c', hbc', hc⟩ := hc
  obtain ⟨s', hbs', hs⟩ := hs
  refine ⟨⟨c', hbc', ?_⟩, s', hbs', ?_⟩
  · rw [← Domain.leadsTo_policy, hc, Domain.leadsTo_policy]
    exact hleads
  · rw [← Domain.receives_policy, hs, Domain.receives_policy]
    exact hreceives

theorem Upholds.of_policies (h : tree.Upholds link) (hp : tree'.policies = tree.policies) :
    tree'.Upholds link :=
  h.of_policy? (policy?_of_policies hp _) (policy?_of_policies hp _)

theorem upholds_core_link : tree.Upholds link.core ↔ tree.Upholds link :=
  ⟨fun ⟨hc, hs⟩ => ⟨hc, hs⟩, fun ⟨hc, hs⟩ => ⟨hc, hs⟩⟩

/-- Both domains of a link that is upheld have addresses. -/
theorem Upholds.isSome_ipConfig (h : tree.Upholds link) (s : Side) :
    ∃ d, tree.byName? (link.side s).domain = some d ∧ d.ipConfig.isSome := by
  obtain ⟨⟨c, hbc, target, hdec, -⟩, d, hbd, routerIp, hip, -⟩ := h
  cases s with
  | client =>
    refine ⟨c, hbc, ?_⟩
    cases hcfg : c.ipConfig with
    | some _ => rfl
    | none =>
      rw [Domain.decision, Domain.routerIp?, hcfg] at hdec
      cases hdec
  | server =>
    refine ⟨d, hbd, ?_⟩
    cases hcfg : d.ipConfig with
    | some _ => rfl
    | none =>
      rw [Domain.routerIp?, hcfg] at hip
      cases hip

/-! ## Sound trees -/

/-- The links, the index and the ports of a tree agree, and its rules uphold every link. -/
structure Sound (tree : DomainTree) : Prop where
  distinct : tree.Distinct
  held : ∀ {owner id link}, tree.ownedLink? owner id = some link →
    link.id = id ∧ link.client.domain = owner
  ids : (tree.liveLinks.map Link.id).Nodup
  index : ∀ seat ref, tree.lookup? seat = some ref ↔
    ∃ link ∈ tree.liveLinks, link.SitsAt seat ∧ link.refAt seat = ref
  accounts : ∀ {name d}, tree.byName? name = some d → d.Accounts tree.liveLinks
  apart : ∀ {a b name p port}, a ∈ tree.liveLinks → b ∈ tree.liveLinks →
    a.Holds name p port → b.Holds name p port → a = b
  upholds : ∀ link ∈ tree.liveLinks, tree.Upholds link
  formed : ∀ link ∈ tree.liveLinks, link.Formed

namespace Sound

variable {owner : String} {id : Nat} {seat : Seat} {a b : Link}

/-- **A domain holds exactly the live links of its clients**, each under its id. -/
theorem ownedLink?_eq_some (h : tree.Sound) : tree.ownedLink? owner id = some link ↔
    link ∈ tree.liveLinks ∧ link.client.domain = owner ∧ link.id = id := by
  constructor
  · intro ho
    obtain ⟨hid, hc⟩ := h.held ho
    exact ⟨h.distinct.mem_liveLinks.2 ⟨owner, id, ho⟩, hc, hid⟩
  · rintro ⟨hm, rfl, rfl⟩
    obtain ⟨o, i, ho⟩ := h.distinct.mem_liveLinks.1 hm
    obtain ⟨rfl, rfl⟩ := h.held ho
    exact ho

theorem ownedLink?_of_mem (h : tree.Sound) (hm : link ∈ tree.liveLinks) :
    tree.ownedLink? link.client.domain link.id = some link :=
  h.ownedLink?_eq_some.2 ⟨hm, rfl, rfl⟩

theorem nodup_liveLinks (h : tree.Sound) : tree.liveLinks.Nodup :=
  .of_map _ h.ids

/-- A live link is known by its id. -/
theorem eq_of_id (h : tree.Sound) (ha : a ∈ tree.liveLinks) (hb : b ∈ tree.liveLinks)
    (hid : a.id = b.id) : a = b :=
  List.inj_on_of_nodup_map h.ids ha hb hid

theorem lookup?_of_sitsAt (h : tree.Sound) (hm : link ∈ tree.liveLinks) (hs : link.SitsAt seat) :
    tree.lookup? seat = some (link.refAt seat) :=
  (h.index ..).2 ⟨link, hm, hs, rfl⟩

/-- A seat has at most one live link. -/
theorem eq_of_sitsAt (h : tree.Sound) (ha : a ∈ tree.liveLinks) (hb : b ∈ tree.liveLinks)
    (hsa : a.SitsAt seat) (hsb : b.SitsAt seat) : a = b := by
  have href : a.refAt seat = b.refAt seat :=
    Option.some.inj ((h.lookup?_of_sitsAt ha hsa).symm.trans (h.lookup?_of_sitsAt hb hsb))
  exact h.eq_of_id ha hb (congrArg LinkRef.link href)

theorem lookup?_eq_none (h : tree.Sound) :
    tree.lookup? seat = none ↔ ∀ link ∈ tree.liveLinks, ¬ link.SitsAt seat := by
  refine ⟨fun hn link hm hs => ?_, fun hall => ?_⟩
  · rw [h.lookup?_of_sitsAt hm hs] at hn
    cases hn
  · refine Option.eq_none_iff_forall_ne_some.2 fun ref href => ?_
    obtain ⟨link, hm, hs, -⟩ := (h.index ..).1 href
    exact hall link hm hs

theorem exists_byName? (h : tree.Sound) (hm : link ∈ tree.liveLinks) (s : Side) :
    ∃ d, tree.byName? (link.side s).domain = some d :=
  let ⟨d, hd, _⟩ := (h.upholds link hm).isSome_ipConfig s
  ⟨d, hd⟩

/-! ### Soundness is about cores -/

section

variable {live live' : List Link} (hlive : live'.map Link.core = live.map Link.core)

include hlive

theorem exists_of_core {P : Link → Prop} (hP : ∀ link, P link.core ↔ P link) :
    (∃ link ∈ live', P link) ↔ ∃ link ∈ live, P link := by
  have hmap : ∀ ls : List Link, (∃ link ∈ ls, P link) ↔ ∃ link ∈ ls.map Link.core, P link :=
    fun ls => by simp [hP]
  rw [hmap live', hlive, ← hmap]

theorem exists_mem_of_core (hm : link ∈ live') : ∃ l ∈ live, l.core = link.core := by
  have hm' := List.mem_map_of_mem (f := Link.core) hm
  rwa [hlive, List.mem_map] at hm'

theorem accounts_of_core {d d' : Domain} (hd : d'.core = d.core) (h : d.Accounts live) :
    d'.Accounts live' := by
  have hname : d'.name = d.name := (congrArg Domain.name hd :)
  have hnat : d'.nat = d.nat := (congrArg Domain.nat hd :)
  have hpool : ∀ p, (d'.pools.get p).core = (d.pools.get p).core := fun p => by
    have hget := congrArg (fun e : Domain => e.pools.get p) hd
    exact (Rule.PerProtocol.get_map ..).symm.trans (hget.trans (Rule.PerProtocol.get_map ..))
  have hcount : ∀ p c, live'.countP (·.InShare d.name p c) =
      live.countP (·.InShare d.name p c) := fun p c => by
    have hmap := congrArg (List.countP (·.InShare d.name p c)) hlive
    rwa [List.countP_map, List.countP_map] at hmap
  refine ⟨fun p => ?_, fun p port => ?_, fun p c rule hr => ?_, fun p c rule hr => ?_, fun p => ?_⟩
  · rw [← Port.Pool.next_core, hpool, Port.Pool.next_core]
    exact h.next p
  · rw [← Port.Pool.isTaken_core, hpool, Port.Pool.isTaken_core, h.taken, hname]
    exact (exists_of_core hlive fun _ => .rfl).symm
  · rw [hname, hcount]
    exact h.used p c rule (hnat ▸ hr)
  · exact h.bounded p c rule (hnat ▸ hr)
  · have hin : (d'.pools.get p).inUse = (d.pools.get p).inUse :=
      (congrArg Port.Pool.inUse (hpool p) :)
    rw [hin, h.inUse, Domain.usedPorts, Domain.usedPorts, hnat]

end

/-- **A tree with the core of a sound one is sound.** -/
theorem of_core (h : tree.Sound) (hc : tree'.core = tree.core) : tree'.Sound := by
  have hlive := liveLinks_of_core hc
  have hids : tree'.liveLinks.map Link.id = tree.liveLinks.map Link.id := by
    have hmap := congrArg (List.map Link.id) hlive
    rwa [List.map_map, List.map_map] at hmap
  have hn : (tree'.liveLinks.map Link.id).Nodup := hids ▸ h.ids
  constructor
  case distinct =>
    rw [Distinct, names_of_bases (bases_of_policies (policies_of_core hc))]
    exact h.distinct
  case held =>
    intro owner id link ho
    have hmap := ownedLink?_core tree' owner id
    rw [hc, ownedLink?_core, ho, Option.map_some, Option.map_eq_some_iff] at hmap
    obtain ⟨l, hl, hcore⟩ := hmap
    obtain ⟨hid, howner⟩ := h.held hl
    have hid' : l.id = link.id := (congrArg Link.id hcore :)
    have hclient : l.client = link.client := (congrArg Link.client hcore :)
    exact ⟨hid' ▸ hid, hclient ▸ howner⟩
  case ids => exact hn
  case index =>
    intro seat ref
    rw [← lookup?_core, hc, lookup?_core, h.index]
    refine (exists_of_core hlive fun link => ?_).symm
    rw [Link.sitsAt_core, Link.refAt_core]
  case accounts =>
    intro name d' hd'
    have hmap := byName?_core tree' name
    rw [hc, byName?_core, hd', Option.map_some, Option.map_eq_some_iff] at hmap
    obtain ⟨d, hd, hcore⟩ := hmap
    exact accounts_of_core hlive hcore.symm (h.accounts hd)
  case apart =>
    intro a b name p port ha hb hha hhb
    obtain ⟨a', ha', hac⟩ := exists_mem_of_core hlive ha
    obtain ⟨b', hb', hbc⟩ := exists_mem_of_core hlive hb
    have hholds : ∀ {l l' : Link}, l'.core = l.core → l.Holds name p port →
        l'.Holds name p port := fun {l l'} he hl => by
      have : l'.core.Holds name p port ↔ l.core.Holds name p port := by rw [he]
      exact this.2 hl
    have hab : a' = b' := h.apart ha' hb' (hholds hac hha) (hholds hbc hhb)
    have hid : a.id = b.id := (congrArg Link.id (hac.symm.trans ((congrArg _ hab).trans hbc)) :)
    exact List.inj_on_of_nodup_map hn ha hb hid
  case upholds =>
    intro link hm
    obtain ⟨l, hl, hcore⟩ := exists_mem_of_core hlive hm
    rw [← upholds_core_link, ← hcore, upholds_core_link]
    exact (h.upholds l hl).of_policies (policies_of_core hc)
  case formed =>
    intro link hm
    obtain ⟨l, hl, hcore⟩ := exists_mem_of_core hlive hm
    have hformed : l.core.Formed := ⟨(h.formed l hl).translated, (h.formed l hl).plain,
      (h.formed l hl).echo⟩
    rw [hcore] at hformed
    exact ⟨hformed.translated, hformed.plain, hformed.echo⟩

end Sound

end DomainTree

end SegmentRouter
