import SegmentRouter.Proofs.Router.Hosts
import SegmentRouter.Proofs.Tree.Renewal

/-!
# Proofs/Router/Renewal — a router that takes the configuration that it has

The configuration in use is accepted again, and the domains that are made of it are those that there
are (`DomainTree.Sound.renews`).  Interfaces are put into them once more, each into the domain with
the same name and with the client that it has (`Ready.seats_bindAll`), so after all only the handles
on domains are new (`Reachable.renewal_apply`).
-/

namespace SegmentRouter

/-- The interface in the next generation's domain at the same place. -/
def Interface.renewed (i : Interface) : Interface :=
  { i with domain := i.domain.map DomainId.next }

/-- Without anything that has to do with an interface all stays when the interface goes. -/
theorem ArpCache.cancelInterface_of_free {cache : ArpCache} {interface : InterfaceId}
    (h : ∀ ip e, cache.get? ip = some e → e.Free interface) :
    (cache.cancelInterface interface).2 = cache := by
  refine SortedMap.ext_get? fun ip => (SortedMap.get?_mapValues ..).trans ?_
  rw [SortedMap.get?_filter]
  cases he : cache.get? ip with
  | none => rfl
  | some e =>
    have hfree := h ip e he
    simp [hfree.via, hfree.dropWaitersFrom_eq]

namespace Router

variable {r r' r'' : Router} {interface : InterfaceId} {bound bound' : List InterfaceId}

/-! ## Putting interfaces into their domains -/

/-- An interface that nothing has to do with is released without a trace. -/
theorem unattached_release (h : r.tree.Sound) (hunheard : r.Unheard interface) :
    (r.release interface).value.tree.domains.map Domain.unattached =
      r.tree.domains.map Domain.unattached := by
  obtain ⟨dismissed, hdismissed⟩ :
    ∃ dismissed, dismissed = (r.tree.dismissLinksOfInterface interface).value.2 := ⟨_, rfl⟩
  have hunlinked : dismissed.unlinked = r.tree.unlinked := by
    rw [hdismissed]
    exact DomainTree.unlinked_dismissAll ..
  have hdistinct : dismissed.Distinct := by
    rw [hdismissed]
    exact (h.dismisses_dismissLinksOfInterface interface).sound.distinct
  have hfree : ∀ d ∈ dismissed.domains, ∀ ip e, d.arp.get? ip = some e → e.Free interface := by
    intro d hm ip e he
    have hhost : r.tree.host? d.name ip = some e := by
      rw [← DomainTree.host?_of_unlinked hunlinked, DomainTree.host?, hdistinct.byName?_of_mem hm]
      exact he
    exact hunheard hhost
  have hcancel : ∀ domains : List Domain, (∀ d ∈ domains, ∀ ip e, d.arp.get? ip = some e →
      e.Free interface) → (cancelArp interface domains).2 = domains := by
    intro domains hfree
    induction domains with
    | nil => rfl
    | cons d rest ih =>
      have harp := ArpCache.cancelInterface_of_free (hfree d List.mem_cons_self)
      have hrest := ih fun d hm => hfree d (List.mem_cons_of_mem _ hm)
      exact List.cons_eq_cons.2 ⟨congrArg d.withArp harp, hrest⟩
  have hvalue : (r.release interface).value.tree.domains = dismissed.domains := by
    refine Eq.trans ?_ (hcancel _ hfree)
    rw [hdismissed]
    rfl
  rw [hvalue]
  exact DomainTree.map_congr_of_map (f := Domain.unlinked) (g := Domain.unattached)
    (k := fun d => { d with interfaces := ∅ }) (fun _ => rfl)
    (congrArg DomainTree.domains hunlinked)

/-- The interface in the domain that it is meant for, with the client that it has. -/
def seated (r : Router) (i : Interface) : Interface :=
  i.inDomain (r.tree.id? i.policy) i.client

/-- A later router in which the interfaces of a list are in the domains that they are meant for,
with the clients that they had. -/
structure Seats (r : Router) (bound : List InterfaceId) (r' : Router) : Prop where
  unattached : r'.tree.domains.map Domain.unattached = r.tree.domains.map Domain.unattached
  configError : r'.configError = r.configError
  generations : r'.interfaces.generations = r.interfaces.generations
  interface : ∀ id, r'.interfaces.get? id =
    if id ∈ bound then (r.interfaces.get? id).map r.seated else r.interfaces.get? id

theorem Seats.refl (r : Router) : r.Seats [] r :=
  ⟨rfl, rfl, rfl, fun id => by simp⟩

theorem Seats.trans (h : r.Seats bound r') (hid : ∀ name, r'.tree.id? name = r.tree.id? name)
    (h' : r'.Seats bound' r'') : r.Seats (bound ++ bound') r'' := by
  have hseated : r'.seated = r.seated := funext fun i => by rw [seated, hid, seated]
  refine ⟨h'.unattached.trans h.unattached, h'.configError.trans h.configError,
    h'.generations.trans h.generations, fun id => ?_⟩
  have htwice : r.seated ∘ r.seated = r.seated := rfl
  rw [h'.interface, h.interface, hseated]
  by_cases hb : id ∈ bound
  · by_cases hb' : id ∈ bound' <;> simp [hb, hb', htwice]
  · by_cases hb' : id ∈ bound' <;> simp [hb, hb']

/-- A router whose interfaces need no more than to be put into their domains: each has the client
that it needs there, and those without a domain left nothing behind. -/
structure Ready (r : Router) : Prop where
  sound : r.tree.Sound
  anchored : r.Anchored
  known : r.Known
  attended : r.Attended

namespace Ready

variable (h : r.Ready)

include h

theorem clientFor_eq {i : Interface} {d : Domain} (hi : r.interfaces.get? interface = some i)
    (hd : r.tree.byName? i.policy = some d) : r.clientFor i d = i.client := by
  have hneeds : i.client.isSome = true ↔ d.source = .dhcp := by
    have hneeds := h.attended hi trivial
    rwa [DomainTree.source?, hd, Option.map_some, Option.some.injEq] at hneeds
  unfold clientFor
  split
  · rename_i hdhcp
    obtain ⟨client, hclient⟩ := Option.isSome_iff_exists.1 (hneeds.2 hdhcp)
    rw [hclient, Option.getD_some]
  · rename_i hother
    exact (Option.not_isSome_iff_eq_none.1 fun hsome => hother (hneeds.1 hsome)).symm

theorem client_eq_none {i : Interface} (hi : r.interfaces.get? interface = some i)
    (hd : r.tree.byName? i.policy = none) : i.client = none := by
  refine Option.not_isSome_iff_eq_none.1 fun hsome => ?_
  have hsource := (h.attended hi trivial).1 hsome
  rw [DomainTree.source?, hd] at hsource
  cases hsource

/-- **Binding an interface puts it into its domain and leaves all else.** -/
theorem seats_bind (interface : InterfaceId) : r.Seats [interface] (r.bind interface).value := by
  have hbinding := r.binding_bind interface
  generalize (r.bind interface).value = r' at hbinding ⊢
  have hseated {i : Interface} (hi : r.interfaces.get? interface = some i)
      {domain : Option DomainId} {client : Option DhcpClient}
      (hdomain : r.tree.id? i.policy = domain) (hclient : client = i.client) (id : InterfaceId) :
      (r.interfaces.modify interface (·.inDomain domain client)).get? id =
        if id ∈ [interface] then (r.interfaces.get? id).map r.seated else r.interfaces.get? id := by
    rw [InterfaceTable.get?_modify]
    simp only [List.mem_singleton]
    by_cases hid : id = interface
    · rw [if_pos hid, if_pos hid, hid, hi, hclient, ← hdomain]
      rfl
    · rw [if_neg hid, if_neg hid]
  cases hbinding with
  | absent hi =>
    refine ⟨rfl, rfl, rfl, fun id => ?_⟩
    by_cases hid : id = interface
    · simp [hid, hi]
    · simp [hid]
  | placed hi hid hd =>
    refine ⟨DomainTree.map_changeByName fun _ _ => rfl, rfl,
      InterfaceTable.generations_modify .., ?_⟩
    exact hseated hi hid (h.clientFor_eq hi hd)
  | @homeless i hi hid hd =>
    refine ⟨unattached_release (r := r.cleared interface) h.sound ?_, rfl,
      InterfaceTable.generations_modify .., ?_⟩
    · refine h.known.unheard fun policy hpolicy => ?_
      rw [InterfaceTable.policy?_of_get? hi] at hpolicy
      rwa [← Option.some.inj hpolicy]
    · exact hseated hi hid (h.client_eq_none hi hd).symm

theorem bind (interface : InterfaceId) : (r.bind interface).value.Ready := by
  have hbinds := binds_bind h.sound h.anchored interface
  have hknown := h.known.bind interface
  refine ⟨hbinds.tree.sound, hbinds.anchored h.anchored, ⟨hknown.via, fun he hw => ?_⟩,
    fun id i hi _ => h.attended.bind interface hi (.inl trivial)⟩
  obtain ⟨policy, hpolicy, hin⟩ := hknown.waiting he hw
  exact ⟨policy, hpolicy, fun _ => hin (.inl trivial)⟩

/-- **Binding a list of interfaces puts them into their domains and leaves all else.** -/
theorem seats_bindAll (interfaces : List InterfaceId) :
    r.Seats interfaces (bindAll interfaces r).value := by
  induction interfaces generalizing r with
  | nil => exact .refl r
  | cons interface rest ih =>
    have hbinds := binds_bind h.sound h.anchored interface
    exact (h.seats_bind interface).trans hbinds.id?_eq (ih (h.bind interface))

end Ready

/-! ## The configuration in use -/

/-- A router that took the configuration that it had.  Nothing differs but the generation of the
domains and of the handles on them, the order in which free ports are handed out, the number of the
next DHCP transaction, and that no configuration is faulty now. -/
structure Renewal (r r' : Router) : Prop where
  config : r'.config = r.config
  generation : r'.tree.generation = r.tree.generation + 1
  verbose : r'.tree.verbose = r.tree.verbose
  domains : List.Forall₂ Domain.Rotated r.tree.domains r'.tree.domains
  interfaces : r'.interfaces = r.interfaces.map Interface.renewed
  attached : ∀ id, (r'.domainOf? id).map Domain.name = (r.domainOf? id).map Domain.name
  nextLink : r'.nextLink = r.nextLink
  configError : r'.configError = none

namespace Arises

variable (h : r.Arises)

include h

/-- The new domains are those that there are. -/
theorem renews : r.tree.Renews (r.renewed r.config).tree :=
  h.good.sound.renews h.planned.plans h.planned.verbose h.planned.valid h.addressed.supplied
    h.hosts.1

theorem ready_renewed : (r.renewed r.config).Ready where
  sound := h.renews.sound
  anchored := h.good.anchored_renewed h.planned.valid
  known := by
    refine h.hosts.2.forgets (.of_host? ?_) (fun _ => rfl) fun name => ?_
    · exact DomainTree.host?_next h.planned.plans h.planned.valid h.addressed.supplied
        h.good.sound.distinct h.hosts.1
    · rw [← DomainTree.isSome_id?, h.renews.id?_eq, Option.isSome_map, DomainTree.isSome_id?]
  attended id i hi _ := by
    have hplans : (r.renewed r.config).tree.plans = r.tree.plans :=
      (r.tree.plans_next r.config).1.trans h.planned.plans.symm
    rw [DomainTree.source?_of_plans hplans]
    exact h.attended hi trivial

/-- **Every interface is put into the domain with the name that it was in.** -/
theorem seats_adopt : (r.renewed r.config).Seats r.interfaces.ids (r.adopt r.config).value :=
  h.ready_renewed.seats_bindAll r.interfaces.ids

theorem renews_adopt : r.tree.Renews (r.adopt r.config).value.tree := by
  have hbinds := h.good.binds_adopt h.planned.valid
  have hdesign := r.design_adopt r.config
  refine ⟨hbinds.tree.sound, hbinds.tree.generation.trans h.renews.generation, ?_,
    h.seats_adopt.unattached.trans h.renews.unattached, fun link => ?_⟩
  · exact (congrArg (·.2.1) hdesign : _ = (r.renewed r.config).tree.verbose).trans h.renews.verbose
  · rw [hbinds.mem_liveLinks, h.renews.live]

theorem interfaces_adopt :
    (r.adopt r.config).value.interfaces = r.interfaces.map Interface.renewed := by
  have hseats := h.seats_adopt
  refine InterfaceTable.ext_get? ?_ fun id => ?_
  · exact hseats.generations.trans (InterfaceTable.generations_map ..).symm
  · rw [hseats.interface, InterfaceTable.get?_map]
    change (if _ then (r.interfaces.get? id).map _ else r.interfaces.get? id) = _
    cases hi : r.interfaces.get? id with
    | none => exact ite_self _
    | some i =>
      have hsettled := h.good.settled (InterfaceTable.place?_eq_some.2 ⟨i, hi, rfl, rfl⟩)
      rw [if_pos (InterfaceTable.mem_ids hi), Option.map_some, Option.map_some, seated,
        h.renews.id?_eq, ← hsettled]
      rfl

/-- **The domains have the links, ports and interfaces that they had.** -/
theorem rotated_adopt : List.Forall₂ Domain.Rotated r.tree.domains
    (r.adopt r.config).value.tree.domains := by
  have hrenews := h.renews_adopt
  refine h.good.sound.distinct.forall₂_domains (DomainTree.names_of_unattached hrenews.unattached)
    fun {name d d'} hby hby' => ?_
  refine hrenews.rotated h.good.sound hby hby' (SortedMap.ext_contains fun id => ?_)
  have hmembers := DomainTree.members?_of_byName? hby
  have hmembers' := DomainTree.members?_of_byName? hby'
  rw [Housed.adopt r r.config hmembers', policy?_adopt, h.housed hmembers]

theorem domainOf?_adopt (id : InterfaceId) :
    ((r.adopt r.config).value.domainOf? id).map Domain.name =
      (r.domainOf? id).map Domain.name := by
  have hgood := h.good.adopt h.planned.valid
  have hget : (r.adopt r.config).value.interfaces.get? id =
      (r.interfaces.get? id).map Interface.renewed := by
    rw [h.interfaces_adopt, InterfaceTable.get?_map]
  cases hi : r.interfaces.get? id with
  | none =>
    rw [hi, Option.map_none] at hget
    rw [domainOf?, domainId?, hget, domainOf?, domainId?, hi]
    rfl
  | some i =>
    rw [hi, Option.map_some] at hget
    rw [hgood.domainOf?_eq hget, h.good.domainOf?_eq hi]
    exact DomainTree.map_byName?_congr (f := Domain.unattached) (g := Domain.name)
      (k := Domain.name) (fun _ => rfl) (fun _ => rfl) h.renews_adopt.unattached i.policy

end Arises

/-- **A reload with the configuration in use is accepted and changes nothing**: all domains with
their links, ports, hosts, leases and addresses stay, and all interfaces stay in them with their
clients. -/
theorem Reachable.renewal_apply (h : r.Reachable) :
    ∃ r', (r.apply r.config).value = (none, r') ∧ r.Renewal r' := by
  have ha := h.arises
  have hdesign := r.design_adopt r.config
  refine ⟨(r.adopt r.config).value, r.apply_of_valid ha.planned.valid, ?_⟩
  exact {
    config := (congrArg (·.1) hdesign :)
    generation := ha.renews_adopt.generation
    verbose := ha.renews_adopt.verbose
    domains := ha.rotated_adopt
    interfaces := ha.interfaces_adopt
    attached := ha.domainOf?_adopt
    nextLink := (ha.good.binds_adopt ha.planned.valid).nextLink
    configError := ha.seats_adopt.configError }

/-- A router with a link and a host in use is reloaded without a trace. -/
theorem renewal_ping : Ping.router.Reachable ∧
    ∃ r', (Ping.router.apply Ping.router.config).value = (none, r') ∧ Ping.router.Renewal r' :=
  ⟨Ping.reachable_router, Ping.reachable_router.renewal_apply⟩

end Router

end SegmentRouter
