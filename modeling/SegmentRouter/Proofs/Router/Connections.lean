import SegmentRouter.Proofs.Router.Hosts

/-!
# Proofs/Router/Connections — nothing refers to something that is gone

Interfaces and domains know each other by handles, a link and a frame that waits know the interface
on which they began, and a domain knows through which interface a host was heard.  All of these are
there at any time (`Router.Connected`, `Reachable.connected`): what goes takes with it whatever
refers to it.
-/

namespace SegmentRouter

namespace Router

variable {r : Router}

/-- **Interfaces, links and what is known of hosts refer only to what is there.** -/
structure Connected (r : Router) : Prop where
  /-- An interface is in a domain exactly if there is the one that it is meant for. -/
  attached : ∀ {id i}, r.interfaces.get? id = some i →
    (i.domain.isSome = true ↔ ∃ d ∈ r.tree.domains, d.name = i.policy)
  /-- Its handle finds that domain. -/
  handle : ∀ {id i domain}, r.interfaces.get? id = some i → i.domain = some domain →
    ∃ d ∈ r.tree.domains, r.tree.get? domain = some d ∧ d.name = i.policy
  /-- The interfaces of a domain are those that are in it. -/
  members : ∀ d ∈ r.tree.domains, ∀ id, d.interfaces.contains id = true ↔ r.domainOf? id = some d
  /-- An interface has a client exactly in a domain whose addresses are leased. -/
  client : ∀ {id i}, r.interfaces.get? id = some i →
    (i.client.isSome = true ↔ ∃ d, r.domainOf? id = some d ∧ d.source = .dhcp)
  /-- A link began on an interface of its client's domain. -/
  origin : ∀ link ∈ r.tree.liveLinks, ∃ d, r.domainOf? link.origin = some d ∧
    link.client.domain = d.name
  /-- A frame that waits came on an interface of some domain. -/
  waiting : ∀ d ∈ r.tree.domains, ∀ {ip entry w}, d.arp.get? ip = some entry →
    w ∈ entry.waiters → ∃ e, r.domainOf? w.src = some e
  /-- A domain has the interface through which a host was heard. -/
  via : ∀ d ∈ r.tree.domains, ∀ {ip mac interface refreshed},
    d.arp.get? ip = some (.resolved mac interface refreshed) →
      d.interfaces.contains interface = true
  /-- What is known of hosts lies in the subnet. -/
  inside : ∀ d ∈ r.tree.domains, ∀ {config ip entry}, d.ipConfig = some config →
    d.arp.get? ip = some entry → config.interface.contains ip = true
  /-- A domain without addresses knows of no host. -/
  unconfigured : ∀ d ∈ r.tree.domains, d.ipConfig = none → d.arp = ∅

section

variable (h : r.Arises)

include h

/-- An interface that is meant for a domain is in it. -/
theorem Arises.domainOf?_of_policy? {id : InterfaceId} {d : Domain}
    (hpolicy : r.interfaces.policy? id = some d.name) (hd : d ∈ r.tree.domains) :
    r.domainOf? id = some d := by
  obtain ⟨i, hi, hname⟩ := Option.map_eq_some_iff.1 hpolicy
  rw [h.good.domainOf?_eq hi, hname]
  exact h.good.sound.distinct.byName?_of_mem hd

/-- **The interfaces of a domain are those that are in it.** -/
theorem Arises.contains_iff {d : Domain} (hd : d ∈ r.tree.domains) (id : InterfaceId) :
    d.interfaces.contains id = true ↔ r.domainOf? id = some d := by
  have hby := h.good.sound.distinct.byName?_of_mem hd
  rw [h.housed (DomainTree.members?_of_byName? hby), and_iff_right trivial]
  exact ⟨fun hpolicy => h.domainOf?_of_policy? hpolicy hd,
    fun hdomain => (h.good.policy?_of_domainOf? hdomain).2⟩

theorem Arises.host?_eq {d : Domain} (hd : d ∈ r.tree.domains) (ip : Ipv4Addr) :
    r.tree.host? d.name ip = d.arp.get? ip := by
  rw [DomainTree.host?, h.good.sound.distinct.byName?_of_mem hd, Option.bind_some]

/-- What is known of hosts lies in the subnet, so there is one. -/
theorem Arises.contains_of_host {d : Domain} (hd : d ∈ r.tree.domains) {ip : Ipv4Addr}
    {entry : ArpEntry} (hentry : d.arp.get? ip = some entry) :
    ∃ config, d.ipConfig = some config ∧ config.interface.contains ip = true := by
  obtain ⟨config, hconfig, hinside⟩ := h.hosts.1 ((h.host?_eq hd ip).trans hentry)
  rw [DomainTree.ipConfig?, h.good.sound.distinct.byName?_of_mem hd, Option.bind_some] at hconfig
  exact ⟨config, hconfig, hinside⟩

end

/-- **In every state of a router nothing refers to something that is gone.** -/
theorem Reachable.connected (h : r.Reachable) : r.Connected := by
  have harises := h.arises
  have hgood := harises.good
  have hplace {id : InterfaceId} {i : Interface} (hi : r.interfaces.get? id = some i) :
      i.domain = r.tree.id? i.policy :=
    hgood.settled (InterfaceTable.place?_eq_some.2 ⟨i, hi, rfl, rfl⟩)
  constructor
  case attached =>
    intro id i hi
    rw [hplace hi, DomainTree.isSome_id?, Option.isSome_iff_exists]
    constructor
    · rintro ⟨d, hd⟩
      exact ⟨d, DomainTree.mem_of_byName? hd, DomainTree.name_of_byName? hd⟩
    · rintro ⟨d, hd, hname⟩
      exact ⟨d, hname ▸ hgood.sound.distinct.byName?_of_mem hd⟩
  case handle =>
    intro id i domain hi hdomain
    rw [hplace hi] at hdomain
    have hsome := r.tree.isSome_id? i.policy
    rw [hdomain] at hsome
    obtain ⟨d, hd⟩ := Option.isSome_iff_exists.1 hsome.symm
    exact ⟨d, DomainTree.mem_of_byName? hd, (DomainTree.get?_of_id? hdomain).trans hd,
      DomainTree.name_of_byName? hd⟩
  case members => exact fun d hd id => harises.contains_iff hd id
  case client =>
    intro id i hi
    rw [harises.attended hi trivial, DomainTree.source?, Option.map_eq_some_iff,
      hgood.domainOf?_eq hi]
  case origin =>
    intro link hm
    obtain ⟨domain, hplaced⟩ := hgood.anchored link hm
    obtain ⟨i, hi, hpolicy, -⟩ := InterfaceTable.place?_eq_some.1 hplaced
    obtain ⟨d, hd⟩ := hgood.sound.exists_byName? hm .client
    have hd : r.tree.byName? link.client.domain = some d := hd
    refine ⟨d, ?_, (DomainTree.name_of_byName? hd).symm⟩
    rw [hgood.domainOf?_eq hi, hpolicy, hd]
  case waiting =>
    intro d hd ip entry w hentry hw
    obtain ⟨policy, hpolicy, hthere⟩ :=
      harises.hosts.2.waiting ((harises.host?_eq hd ip).trans hentry) hw
    obtain ⟨e, he⟩ := Option.isSome_iff_exists.1 (hthere trivial)
    obtain rfl := DomainTree.name_of_byName? he
    exact ⟨e, harises.domainOf?_of_policy? hpolicy (DomainTree.mem_of_byName? he)⟩
  case via =>
    intro d hd ip mac interface refreshed hentry
    have hpolicy := harises.hosts.2.via ((harises.host?_eq hd ip).trans hentry)
      (beq_self_eq_true interface)
    exact (harises.contains_iff hd interface).2 (harises.domainOf?_of_policy? hpolicy hd)
  case inside =>
    intro d hd config ip entry hconfig hentry
    obtain ⟨config', hconfig', hinside⟩ := harises.contains_of_host hd hentry
    rwa [Option.some.inj (hconfig.symm.trans hconfig')]
  case unconfigured =>
    intro d hd hnone
    refine SortedMap.ext_get? fun ip => ?_
    rw [SortedMap.get?_empty]
    refine Option.eq_none_iff_forall_ne_some.2 fun entry hentry => ?_
    obtain ⟨config, hconfig, -⟩ := harises.contains_of_host hd hentry
    rw [hnone] at hconfig
    cases hconfig

/-- After a ping there are a link, two interfaces and a host that was heard. -/
theorem connected_ping : Ping.router.Reachable ∧ Ping.router.Connected ∧
    Ping.router.interfaces.ids = [⟨0, 0⟩, ⟨1, 0⟩] ∧ Ping.router.tree.liveLinks = [Ping.link] ∧
    Ping.wan.arp.get? (.ofOctets 10 0 1 2) = some (.resolved Ping.host ⟨1, 0⟩ 0) :=
  ⟨Ping.reachable_router, Ping.reachable_router.connected, by decide +kernel,
    Ping.liveLinks_router, by decide +kernel⟩

end Router

end SegmentRouter
