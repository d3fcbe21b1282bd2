import SegmentRouter.Proofs.Dhcp.Phases
import SegmentRouter.Proofs.Router.Clients

/-!
# Proofs/Router/Addresses — where the addresses of domains come from, at any time

Fixed addresses are as they are configured, followers have what their suppliers have
(`DomainTree.Supplied`), and a gateway lies in the subnet, whoever named it (`Arises.gated`).  The
configuration sees to it that fixed addresses are so, clients that leased ones are.
-/

namespace SegmentRouter

/-! ## Leased addresses -/

namespace DhcpClient

variable {c after : DhcpClient} {msg : Wire.Dhcp.Message} {fresh : UInt32} {now : Nat}
  {action : DhcpAction} {config : IpConfig}

/-- **A client asks only for addresses whose gateway lies in the subnet.** -/
theorem Acts.gated (h : c.Acts fresh action after) (hask : action.asksFor? = some (some config)) :
    config.Gated := by
  obtain ⟨now, htick | ⟨msg, hhandle⟩⟩ := h
  · have hnone : (c.tick fresh now).value.1.asksFor? ≠ some (some config) :=
      c.asksFor?_tick fresh now
    rw [htick] at hnone
    exact absurd hask hnone
  · have haction : (c.handle msg fresh now).value.1.asksFor? = some (some config) := by
      rw [hhandle]
      exact hask
    exact (grants_of_handle haction).2.2.2

end DhcpClient

namespace DomainTree

variable {tree tree' : DomainTree} {config : Config}

/-- Gateways lie in their subnets, if those of leased addresses do. -/
theorem Supplied.gated (h : tree.Supplied) (hplans : tree.plans = config.plans)
    (hvalid : config.validate.hasErrors = false)
    (hleased : ∀ {name c}, tree.source? name = some .dhcp → tree.ipConfig? name = some c → c.Gated)
    {name : String} {c : IpConfig} (hc : tree.ipConfig? name = some c) : c.Gated := by
  obtain ⟨rank, hr⟩ := ranked_of_plans hplans hvalid
  refine hr.induction (P := fun name => ∀ c, tree.ipConfig? name = some c → c.Gated)
    (fun name hroot c hc => ?_) (fun s f hf hs c hc => ?_) name c hc
  · obtain ⟨d, hd, -⟩ := Option.bind_eq_some_iff.1 hc
    have hsource : tree.source? name = some d.source := by rw [source?, hd, Option.map_some]
    cases hfrom : d.source with
    | static =>
      rw [h.fixed name (hfrom ▸ hsource), fixed?, hd, Option.bind_some] at hc
      obtain ⟨interface, hinterface, rfl⟩ := Option.map_eq_some_iff.1 hc
      have hmem := (plan_of_plans hplans (mem_of_byName? hd)).1
      exact (Config.interface_valid hvalid hmem hinterface).2.1
    | derived s => exact absurd (hfrom ▸ hsource) (hroot s)
    | dhcp => exact hleased (hfrom ▸ hsource) hc
  · rw [(h.agrees s f hf).config] at hc
    exact hs c hc

theorem supply?_of_still (h : tree'.still = tree.still) (name : String) :
    tree'.supply? name = tree.supply? name :=
  map_byName?_congr (f := Domain.still)
    (g := fun d => (d.config, d.source, d.ipConfig, d.dependents))
    (k := fun d => (d.config, d.source, d.ipConfig, d.dependents)) Domain.name_still
    (fun _ => rfl) (congrArg DomainTree.domains h) name

end DomainTree

namespace Router

variable {r r' : Router} {interface : InterfaceId} {name : String}

/-! ## What leaves addresses as they are -/

theorem supply?_release (r : Router) (interface : InterfaceId) (name : String) :
    (r.release interface).value.tree.supply? name = r.tree.supply? name :=
  (DomainTree.supply?_of_hosts (map_cancelArp (fun _ _ => rfl) interface _) name).trans
    (DomainTree.supply?_of_unlinked (DomainTree.unlinked_dismissAll ..) name)

theorem supply?_bind (r : Router) (interface : InterfaceId) (name : String) :
    (r.bind interface).value.tree.supply? name = r.tree.supply? name := by
  have hbinding := r.binding_bind interface
  generalize (r.bind interface).value = r' at hbinding ⊢
  cases hbinding with
  | absent hi => rfl
  | placed hi hid hd =>
    exact DomainTree.supply?_update (f := (·.addInterface interface)) (fun _ => rfl)
      (fun _ => rfl) name
  | homeless hi hid hd => exact (r.cleared interface).supply?_release interface name

theorem supply?_bindAll (interfaces : List InterfaceId) (r : Router) (name : String) :
    (bindAll interfaces r).value.tree.supply? name = r.tree.supply? name := by
  induction interfaces generalizing r with
  | nil => rfl
  | cons interface rest ih => exact (ih _).trans (r.supply?_bind interface name)

theorem supply?_left {id : DomainId} {policy : String} (hid : r.tree.id? policy = some id)
    (name : String) : (r.left interface id).tree.supply? name = r.tree.supply? name := by
  rw [tree_left hid]
  exact (DomainTree.supply?_update (f := (·.removeInterface interface)) (fun _ => rfl)
    (fun _ => rfl) name).trans ((r.cleared interface).supply?_release interface name)

theorem id?_left {id : DomainId} {policy : String} (hid : r.tree.id? policy = some id) :
    (r.left interface id).tree.id? policy = some id := by
  rw [tree_left hid]
  refine Eq.trans (DomainTree.id?_congr ?_ ?_ policy) hid
  · exact (congrArg DomainTree.generation (shell_release (r.cleared interface) interface) :)
  · exact (DomainTree.names_update (f := (·.removeInterface interface)) fun _ hd => hd).trans
      (DomainTree.names_of_shell (shell_release ..))

theorem supply?_ageArp (r : Router) (now : Nat) (name : String) :
    (r.ageArp now).value.tree.supply? name = r.tree.supply? name := by
  refine DomainTree.supply?_of_hosts ?_ name
  have hmap : ∀ requestTimeout entryLifetime domains, (expireArp now requestTimeout entryLifetime
      domains).value.map Domain.forgetHosts = domains.map Domain.forgetHosts := by
    intro requestTimeout entryLifetime domains
    induction domains with
    | nil => rfl
    | cons d rest ih => exact congrArg (d.forgetHosts :: ·) ih
  exact hmap ..

/-! ## Addresses at any time -/

/-- The domains have their addresses as they should, and leased ones come with a gateway in the
subnet or with none. -/
structure Addressed (r : Router) : Prop where
  supplied : r.tree.Supplied
  leased : ∀ {name c}, r.tree.source? name = some .dhcp → r.tree.ipConfig? name = some c → c.Gated

namespace Addressed

theorem of_supply? (h : r.Addressed) (hs : ∀ name, r'.tree.supply? name = r.tree.supply? name) :
    r'.Addressed := by
  refine ⟨h.supplied.of_supply? hs, fun {name c} hsource hc => ?_⟩
  rw [DomainTree.source?_of_supply? (hs name)] at hsource
  rw [DomainTree.ipConfig?_of_supply? (hs name)] at hc
  exact h.leased hsource hc

/-- **Addresses that are leased, or end, keep the others as they should be.** -/
theorem setIpConfig (h : r.Addressed) (hplanned : r.Planned) {id : DomainId} {d : Domain}
    {c : Option IpConfig} {tree : DomainTree} (hd : r.tree.get? id = some d)
    (hby : r.tree.byName? d.name = some d) (hdhcp : d.source = .dhcp)
    (hc : ∀ config, c = some config → config.Gated)
    (hset : (r.tree.setIpConfig id c).value = .ok tree) : (r.withTree tree).Addressed := by
  obtain ⟨rank, hr⟩ := DomainTree.ranked_of_plans hplanned.plans hplanned.valid
  obtain ⟨hsupplied, hspreads⟩ := h.supplied.setIpConfig hr hd hby hdhcp hset
  refine ⟨hsupplied, fun {name config} hsource hconfig => ?_⟩
  rw [tree_withTree, DomainTree.source?_of_shell hspreads.shell] at hsource
  have hnew := hspreads.root name (fun s hs => nomatch hsource.symm.trans hs)
    (DomainTree.isSome_byName?_of_source? hsource)
  rw [tree_withTree, hnew] at hconfig
  split at hconfig
  · exact hc config hconfig
  · exact h.leased hsource hconfig

theorem instructed (h : r.Addressed) (hr : r.Arises) {i : Interface} {client after : DhcpClient}
    {action : DhcpAction} (hi : r.interfaces.get? interface = some i)
    (hclient : i.client = some client) (hacts : client.Acts r.nextXid action after) :
    ((r.withClient interface after).carryOut interface action).value.router.Addressed := by
  have hself : (r.withClient interface after).Addressed := ⟨h.supplied, h.leased⟩
  rcases (r.withClient interface after).carryOut_cases interface action with
    hkept | ⟨id, c, tree, hid, hask, hset, hvalue⟩
  · rw [hkept]
    exact hself
  · have hid : r.domainId? interface = some id := by
      rw [domainId?, withClient, InterfaceTable.get?_modify, if_pos rfl, hi] at hid
      rw [domainId?, hi]
      exact hid
    obtain ⟨d, hd, -, -⟩ := DomainTree.setIpConfig_eq_ok hset
    obtain ⟨hby, hplace⟩ := hr.good.byName?_of_domainId? hid hd
    obtain ⟨i', hi', hpolicy, -⟩ := InterfaceTable.place?_eq_some.1 hplace
    obtain rfl : i = i' := Option.some.inj (hi.symm.trans hi')
    have hdhcp := (hr.attended hi trivial).1 (by rw [hclient]; rfl)
    rw [hpolicy, DomainTree.source?, hby, Option.map_some, Option.some.injEq] at hdhcp
    rw [hvalue]
    exact hself.setIpConfig (hr.planned.of_design rfl) hd hby hdhcp
      (fun config he => hacts.gated (he ▸ hask)) hset

theorem unbind (h : r.Addressed) (hr : r.Arises) (interface : InterfaceId) :
    (r.unbind interface).value.Addressed := by
  have hunbinding := r.unbinding_unbind interface
  generalize (r.unbind interface).value = r' at hunbinding ⊢
  have hpolicy {id : DomainId} (hid : r.domainId? interface = some id) :
      ∃ policy, r.tree.id? policy = some id := by
    obtain ⟨i, hi, -⟩ := Option.bind_eq_some_iff.1 hid
    exact ⟨i.policy, by rw [← hr.good.domainId?_eq hi, hid]⟩
  cases hunbinding with
  | outside hid => exact ⟨h.supplied, h.leased⟩
  | inside hid =>
    obtain ⟨policy, hpolicy⟩ := hpolicy hid
    exact h.of_supply? (supply?_left hpolicy)
  | @orphaned id d tree hid hd hdhcp hset =>
    obtain ⟨policy, hpolicy⟩ := hpolicy hid
    have hleft : (r.left interface id).Addressed := h.of_supply? (supply?_left hpolicy)
    have hby : (r.left interface id).tree.byName? policy = some d := by
      rw [← DomainTree.get?_of_id? (id?_left hpolicy), hd]
    rw [← DomainTree.name_of_byName? hby] at hby
    have hnone : ∀ config, (none : Option IpConfig) = some config → config.Gated := fun _ he => by
      cases he
    exact hleft.setIpConfig (hr.planned.of_design (design_left ..)) hd hby hdhcp hnone hset

end Addressed

/-- **In every state domains have their addresses as they should.** -/
theorem Arises.addressed (h : r.Arises) : r.Addressed := by
  have hempty : ∀ xid, ({ nextXid := xid } : Router).Addressed := by
    refine fun xid =>
      ⟨⟨fun name hs => ?_, fun s f hs => ?_, fun s f hn => ?_⟩, fun {name c} hs => ?_⟩
    · cases hs
    · cases hs
    · cases hn
    · cases hs
  refine h.course_induction hempty fun {r r'} hr ih hcourse => ?_
  cases hcourse with
  | calm hcalm => exact ih.of_supply? (DomainTree.supply?_of_still hcalm.tree)
  | @learned name d config ip entry hd hconfig hentry =>
    exact ih.of_supply? (DomainTree.supply?_update (f := (·.withArp (d.arp.insert ip entry)))
      (fun _ => rfl) fun _ => rfl)
  | agedArp now => exact ih.of_supply? (r.supply?_ageArp now)
  | instructed hi hclient hacts => exact ih.instructed hr hi hclient hacts
  | attached domain => exact ih.of_supply? fun name => supply?_bind _ _ name
  | @detached r' interface hr' =>
    obtain ⟨interfaces, rfl, -⟩ := detach_eq_ok hr'
    obtain ⟨hsupplied, hleased⟩ := ih.unbind hr interface
    exact ⟨hsupplied, hleased⟩
  | @adopted config hvalid =>
    obtain ⟨rank, hrank⟩ := r.tree.ranked_raw hvalid
    obtain ⟨hsupplied, hlease⟩ := DomainTree.supplied_next hrank
    have hrenewed : (r.renewed config).Addressed := by
      refine ⟨hsupplied, fun {name c} hsource hc => ?_⟩
      rw [show (r.renewed config).tree = (r.tree.next config).value from rfl,
        hlease name hsource] at hc
      split at hc
      · rename_i hprev
        exact ih.leased hprev hc
      · cases hc
    exact hrenewed.of_supply? (supply?_bindAll r.interfaces.ids (r.renewed config))

/-- **In every state a gateway lies in the subnet.** -/
theorem Arises.gated (h : r.Arises) {c : IpConfig} (hc : r.tree.ipConfig? name = some c) :
    c.Gated :=
  h.addressed.supplied.gated h.planned.plans h.planned.valid h.addressed.leased hc

end Router

end SegmentRouter
