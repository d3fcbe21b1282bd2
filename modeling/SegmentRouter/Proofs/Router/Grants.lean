import SegmentRouter.Proofs.Router.Addresses
import SegmentRouter.Proofs.Router.Members

/-!
# Proofs/Router/Grants — the leases of clients, and leased addresses

Clients have leases, and domains have addresses.  This is what becomes of both: what a client asks
for is done in its domain and nowhere else (`Arises.ipConfig?_instructed`), an interface that goes
takes the addresses of its domain with it only if it was the last there (`Arises.ipConfig?_detach`),
and a new configuration leaves both as they are where addresses are still leased
(`grant?_adopt`, `ipConfig?_adopt`).
-/

namespace SegmentRouter

open Wire.Dhcp (Message)

namespace DhcpClient

variable {c after : DhcpClient} {fresh : UInt32} {action : DhcpAction}

/-! ## What a client asks for -/

theorem isSome_lease_of_tick {now : Nat}
    (h : (c.tick fresh now).value.1.asksFor? = some none) : c.lease.isSome = true := by
  have hwaits := c.waits_tick fresh now
  generalize (c.tick fresh now).value = result at hwaits h
  cases hwaits with
  | expired hlease => exact Option.isSome_of_eq_some hlease
  | repeated | renewing =>
    rw [asksFor?_sendRequest] at h
    cases h
  | idle | restarted | searched => cases h

theorem isSome_lease_of_handle {msg : Message} {now : Nat}
    (h : (c.handle msg fresh now).value.1.asksFor? = some none) : c.lease.isSome = true := by
  have hheeds := c.heeds_handle msg fresh now
  generalize (c.handle msg fresh now).value = result at hheeds h
  cases hheeds with
  | refused =>
    dsimp only at h
    split at h
    · assumption
    · cases h
  | requested =>
    rw [asksFor?_sendRequest] at h
    cases h
  | ignored | renewed | configured | spoiled => cases h

/-- **Only a client that has a lease gives up its addresses.** -/
theorem Acts.isSome_lease (h : c.Acts fresh action after) (hask : action.asksFor? = some none) :
    c.lease.isSome = true := by
  obtain ⟨now, htick | ⟨msg, hhandle⟩⟩ := h
  · exact isSome_lease_of_tick (by rw [htick]; exact hask)
  · exact isSome_lease_of_handle (by rw [hhandle]; exact hask)

/-- What a client does that is not a spoiled renewal. -/
theorem Acts.conducts (h : c.Acts fresh action after) (hphased : c.Phased)
    (hspared : ∀ msg now, (c.handle msg fresh now).value = (action, after) →
      ¬ c.Spoiled (.handle msg fresh now)) : c.Conducts (action, after) := by
  obtain ⟨now, htick | ⟨msg, hhandle⟩⟩ := h
  · exact htick ▸ conducts_tick hphased fresh now
  · exact hhandle ▸ conducts_handle hphased (hspared msg now hhandle)

theorem Acts.phased (h : c.Acts fresh action after) (hphased : c.Phased) : after.Phased := by
  obtain ⟨now, htick | ⟨msg, hhandle⟩⟩ := h
  · have hafter : (c.answer (.tick fresh now)).2.Phased := phased_answer hphased _
    rwa [answer, htick] at hafter
  · have hafter : (c.answer (.handle msg fresh now)).2.Phased := phased_answer hphased _
    rwa [answer, hhandle] at hafter

end DhcpClient

namespace DomainTree

variable {tree : DomainTree} {rank : String → Nat}

/-- **Leased addresses can be set**, and other leased ones are left. -/
theorem Supplied.exists_setIpConfig (h : tree.Supplied) (hr : tree.Ranked rank) {id : DomainId}
    {d : Domain} (hd : tree.get? id = some d) (hby : tree.byName? d.name = some d)
    (hdhcp : d.source = .dhcp) (c : Option IpConfig) :
    ∃ tree', (tree.setIpConfig id c).value = .ok tree' ∧
      ∀ name, tree.source? name = some .dhcp →
        tree'.ipConfig? name = if name = d.name then c else tree.ipConfig? name := by
  have hstatic : ¬ d.isStatic = true := by
    rw [Domain.isStatic, hdhcp]
    decide
  have hset : (tree.setIpConfig id c).value = .ok (tree.installIpConfig d.name c).value := by
    unfold DomainTree.setIpConfig
    rw [hd]
    dsimp only
    rw [if_neg hstatic]
    rfl
  obtain ⟨-, hspreads⟩ := h.setIpConfig hr hd hby hdhcp hset
  refine ⟨_, hset, fun name hname => ?_⟩
  exact hspreads.root name (fun s hs => nomatch hname.symm.trans hs)
    (isSome_byName?_of_source? hname)

end DomainTree

namespace Router

variable {r r' : Router} {interface id : InterfaceId} {name : String} {config : Config}

/-- The client of an interface. -/
def client? (r : Router) (id : InterfaceId) : Option DhcpClient :=
  (r.interfaces.get? id).bind (·.client)

/-- The addresses of which the client of an interface has a lease. -/
def grant? (r : Router) (id : InterfaceId) : Option IpConfig :=
  (r.client? id).bind fun client => client.lease.map (·.config)

/-- Every client has a lease exactly while it is bound or renewing. -/
def Phased (r : Router) : Prop :=
  ∀ ⦃id client⦄, r.client? id = some client → client.Phased

theorem grant?_congr (h : r'.client? id = r.client? id) : r'.grant? id = r.grant? id := by
  rw [grant?, h, grant?]

/-- A lease is that of an interface, which is meant for some domain. -/
theorem isSome_policy?_of_grant? {c : IpConfig} (h : r.grant? id = some c) :
    ∃ policy, r.interfaces.policy? id = some policy := by
  obtain ⟨client, hclient, -⟩ := Option.bind_eq_some_iff.1 h
  obtain ⟨i, hi, -⟩ := Option.bind_eq_some_iff.1 hclient
  exact ⟨i.policy, InterfaceTable.policy?_of_get? hi⟩

/-- **A client has a lease only where addresses are leased.** -/
theorem Arises.source?_of_grant? (h : r.Arises) {c : IpConfig} (hgrant : r.grant? id = some c)
    (hpolicy : r.interfaces.policy? id = some name) : r.tree.source? name = some .dhcp := by
  obtain ⟨client, hclient, -⟩ := Option.bind_eq_some_iff.1 hgrant
  obtain ⟨i, hi, hclient⟩ := Option.bind_eq_some_iff.1 hclient
  rw [InterfaceTable.policy?_of_get? hi, Option.some.injEq] at hpolicy
  rw [← hpolicy]
  exact (h.attended hi trivial).1 (by rw [hclient]; rfl)

/-! ## Clients -/

theorem Calm.client?_eq (h : r.Calm r') (id : InterfaceId) : r'.client? id = r.client? id := by
  have hstill := congrArg (Option.bind · (·.client)) (h.interfaces id)
  rwa [Option.bind_map, Option.bind_map] at hstill

/-- **An interface that is bound keeps its client where addresses are leased**, or gets one. -/
theorem client?_bind (r : Router) (interface id : InterfaceId) :
    (r.bind interface).value.client? id =
      if id = interface then
        if (r.interfaces.policy? id).bind r.tree.source? = some .dhcp then
          some ((r.client? id).getD r.newClient)
        else none
      else r.client? id := by
  have hmodified (domain : Option DomainId) (client : Option DhcpClient) :
      ((r.interfaces.modify interface (·.inDomain domain client)).get? id).bind (·.client) =
        if id = interface then (r.interfaces.get? id).bind fun _ => client else r.client? id := by
    rw [InterfaceTable.get?_modify]
    split
    · rename_i hid
      rw [Option.bind_map, hid]
      rfl
    · rfl
  have hbinding := r.binding_bind interface
  generalize (r.bind interface).value = r' at hbinding ⊢
  cases hbinding with
  | absent hi =>
    split
    · rename_i hid
      rw [hid, client?, InterfaceTable.policy?, hi]
      rfl
    · rfl
  | @placed i domain d hi hid hd =>
    refine (hmodified ..).trans ?_
    split
    · rename_i hself
      rw [hself, client?, InterfaceTable.policy?_of_get? hi, hi, Option.bind_some,
        Option.bind_some, DomainTree.source?, hd, Option.map_some]
      simp only [Option.some.injEq]
      rfl
    · rfl
  | @homeless i hi hid hd =>
    refine (hmodified none none).trans ?_
    split
    · rename_i hself
      rw [hself, InterfaceTable.policy?_of_get? hi, hi, Option.bind_some, Option.bind_some,
        DomainTree.source?, hd]
      rfl
    · rfl

theorem Phased.bind (h : r.Phased) (interface : InterfaceId) : (r.bind interface).value.Phased := by
  intro id client hclient
  rw [client?_bind] at hclient
  split at hclient
  · split at hclient
    · obtain rfl := Option.some.inj hclient
      cases hold : r.client? id with
      | some old => exact h hold
      | none => rfl
    · cases hclient
  · exact h hclient

theorem Phased.bindAll (h : r.Phased) (interfaces : List InterfaceId) :
    (bindAll interfaces r).value.Phased := by
  induction interfaces generalizing r with
  | nil => exact h
  | cons interface rest ih => exact ih (h.bind interface)

/-- **Binding leaves leases where addresses are leased.** -/
theorem grant?_bind (interface : InterfaceId)
    (hdhcp : (r.interfaces.policy? id).bind r.tree.source? = some .dhcp) :
    (r.bind interface).value.grant? id = r.grant? id := by
  rw [grant?, client?_bind, if_pos hdhcp, grant?]
  split
  · cases r.client? id <;> rfl
  · rfl

theorem grant?_bindAll (interfaces : List InterfaceId)
    (hdhcp : (r.interfaces.policy? id).bind r.tree.source? = some .dhcp) :
    (bindAll interfaces r).value.grant? id = r.grant? id := by
  induction interfaces generalizing r with
  | nil => rfl
  | cons interface rest ih =>
    refine (ih ?_).trans (grant?_bind interface hdhcp)
    rw [policy?_bind, ← hdhcp]
    exact congrArg _ (funext (source?_of_design (r.design_bind interface)))

theorem client?_instructed (r : Router) (interface : InterfaceId) (client : DhcpClient)
    (action : DhcpAction) (id : InterfaceId) :
    ((r.withClient interface client).carryOut interface action).value.router.client? id =
      if id = interface then (r.interfaces.get? id).map fun _ => client else r.client? id := by
  rw [client?, (shell_carryOut ..).2, withClient, InterfaceTable.get?_modify]
  split
  · rename_i hid
    rw [Option.bind_map, hid, Option.map_eq_bind]
    rfl
  · rfl

theorem client?_detach (hr : (r.detach interface).value = .ok r') (id : InterfaceId) :
    r'.client? id = if id = interface then none else r.client? id := by
  obtain ⟨interfaces, rfl, hget⟩ := detach_eq_ok hr
  rw [client?, hget]
  split <;> rfl

theorem client?_withNewInterface (r : Router) (domain : String) (id : InterfaceId) :
    (r.withNewInterface domain).client? id = r.client? id := by
  rw [client?, get?_withNewInterface]
  split
  · rename_i hid
    rw [client?, hid, get?_nextInterface]
    rfl
  · rfl

/-- **In every state a client has a lease exactly while it is bound or renewing.** -/
theorem Arises.phased (h : r.Arises) : r.Phased := by
  refine h.course_induction (fun _ _ _ hno => nomatch hno) fun {r r'} hr ih hcourse => ?_
  cases hcourse with
  | calm hcalm => exact fun id client hclient => ih ((hcalm.client?_eq id).symm.trans hclient)
  | learned hd hconfig hentry => exact ih
  | agedArp now => exact ih
  | @instructed interface i client after action hi hclient hacts =>
    have hold : r.client? interface = some client := by
      rw [client?, hi]
      exact hclient
    intro id client' hclient'
    rw [client?_instructed] at hclient'
    split at hclient'
    · obtain ⟨-, -, rfl⟩ := Option.map_eq_some_iff.1 hclient'
      exact hacts.phased (ih hold)
    · exact ih hclient'
  | attached domain =>
    have hnew : (r.withNewInterface domain).Phased := fun id client hclient =>
      ih ((r.client?_withNewInterface domain id).symm.trans hclient)
    exact hnew.bind _
  | detached hr' =>
    intro id client hclient
    rw [client?_detach hr'] at hclient
    split at hclient
    · cases hclient
    · exact ih hclient
  | @adopted config hvalid =>
    have hrenewed : (r.renewed config).Phased := ih
    exact hrenewed.bindAll r.interfaces.ids

/-! ## Leases that are left as they are -/

/-- An interface that is attached has no lease yet. -/
theorem grant?_attach (r : Router) (domain : String) (id : InterfaceId) :
    (r.attach domain).value.2.grant? id = r.grant? id := by
  have hbound : (r.attach domain).value.2.client? id =
      ((r.withNewInterface domain).bind (r.nextInterface domain)).value.client? id := rfl
  rw [grant?, hbound, client?_bind]
  split
  · rename_i hid
    have hnone : r.client? id = none := by
      rw [client?, hid, get?_nextInterface]
      rfl
    rw [client?_withNewInterface, grant?, hnone]
    split <;> rfl
  · rw [client?_withNewInterface]
    rfl

/-- **A new configuration leaves leases where addresses are leased.** -/
theorem grant?_adopt (hpolicy : r.interfaces.policy? id = some name)
    (hdhcp : (r.adopt config).value.tree.source? name = some .dhcp) :
    (r.adopt config).value.grant? id = r.grant? id := by
  refine grant?_bindAll (r := r.renewed config) r.interfaces.ids ?_
  rw [source?_of_design (r.design_adopt config)] at hdhcp
  exact Option.bind_eq_some_iff.2 ⟨name, hpolicy, hdhcp⟩

/-! ## Leased addresses -/

/-- What a client asks for is done, if it asks for anything. -/
theorem router_carryOut (r : Router) {id : DomainId} (hid : r.domainId? interface = some id)
    (action : DhcpAction) : (r.carryOut interface action).value.router =
      match action.asksFor? with
      | none => r
      | some config => (r.configure interface id config).value.router := by
  unfold carryOut
  rw [hid]
  cases action <;> rfl

theorem router_configure {id : DomainId} {c : Option IpConfig} {tree : DomainTree}
    (hset : (r.tree.setIpConfig id c).value = .ok tree) :
    (r.configure interface id c).value.router = r.withTree tree := by
  unfold configure
  rw [Logged.value_bind, hset]
  rfl

/-- **What a client asks for is done in its domain**, and in no other one whose addresses are
leased. -/
theorem Arises.ipConfig?_instructed (h : r.Arises) {i : Interface} {client : DhcpClient}
    (hi : r.interfaces.get? interface = some i) (hclient : i.client = some client)
    (after : DhcpClient) (action : DhcpAction) (hname : r.tree.source? name = some .dhcp) :
    ((r.withClient interface after).carryOut interface action).value.router.tree.ipConfig? name =
      if name = i.policy then action.asksFor?.getD (r.tree.ipConfig? name)
      else r.tree.ipConfig? name := by
  obtain ⟨d, hby, hdhcp⟩ :=
    Option.map_eq_some_iff.1 ((h.attended hi trivial).1 (by rw [hclient]; rfl))
  obtain ⟨id, hid⟩ : ∃ id, r.tree.id? i.policy = some id := by
    rw [← Option.isSome_iff_exists, DomainTree.isSome_id?, hby]
    rfl
  have hdomain : (r.withClient interface after).domainId? interface = some id := by
    rw [← hid, ← h.good.domainId?_eq hi, domainId?, withClient, InterfaceTable.get?_modify,
      if_pos rfl, domainId?, hi]
    rfl
  rw [router_carryOut _ hdomain]
  cases hask : action.asksFor? with
  | none => exact (ite_self _).symm
  | some c =>
    obtain ⟨rank, hr⟩ := DomainTree.ranked_of_plans h.planned.plans h.planned.valid
    have hself : d.name = i.policy := DomainTree.name_of_byName? hby
    obtain ⟨tree, hset, hip⟩ := h.addressed.supplied.exists_setIpConfig hr
      ((DomainTree.get?_of_id? hid).trans hby) (hself ▸ hby) hdhcp c
    dsimp only
    rw [router_configure (r := r.withClient interface after) hset, tree_withTree, hip name hname,
      hself]
    rfl

theorem ipConfig?_discardOrphaned {rank : String → Nat} (h : r.tree.Supplied)
    (hr : r.tree.Ranked rank) {id : DomainId} {d : Domain} (hd : r.tree.get? id = some d)
    (hby : r.tree.byName? d.name = some d) (hname : r.tree.source? name = some .dhcp) :
    (r.discardOrphaned id d).value.tree.ipConfig? name =
      if name = d.name ∧ d.interfaces.isEmpty = true then none else r.tree.ipConfig? name := by
  unfold discardOrphaned
  split
  · rename_i horphaned
    obtain ⟨tree, hset, hip⟩ := h.exists_setIpConfig hr hd hby horphaned.2.1 none
    have hdiscard : (r.tree.discardIpConfig id).value = .ok tree := hset
    rw [Logged.value_bind, Logged.value_bind, hdiscard]
    refine (hip name hname).trans ?_
    simp only [horphaned.1, and_true]
  · rename_i hkept
    split
    · rename_i hself
      rw [hself.1, DomainTree.source?, hby, Option.map_some, Option.some.injEq] at hname
      have hnone : ¬ d.ipConfig.isSome = true := fun hsome => hkept ⟨hself.2, hname, hsome⟩
      rw [hself.1, Logged.value_pure, DomainTree.ipConfig?, hby, Option.bind_some]
      exact Option.not_isSome_iff_eq_none.1 hnone
    · rfl

theorem members?_discardOrphaned (r : Router) (id : DomainId) (d : Domain) (name : String) :
    (r.discardOrphaned id d).value.tree.members? name = r.tree.members? name := by
  rcases r.discardOrphaned_cases id d with hkept | ⟨tree, -, hset, hvalue⟩
  · rw [hkept]
  · rw [hvalue]
    exact DomainTree.members?_of_shell (DomainTree.shell_setIpConfig hset) name

/-- What is left of the domain of an interface may lose its addresses. -/
theorem unbind_eq {id : DomainId} {d : Domain} (hid : r.domainId? interface = some id)
    (hd : (r.left interface id).tree.get? id = some d) :
    (r.unbind interface).value = ((r.left interface id).discardOrphaned id d).value := by
  unfold unbind
  rw [hid]
  dsimp only
  rw [Logged.value_bind]
  split
  · rename_i d' hd'
    obtain rfl : d = d' := Option.some.inj (hd.symm.trans hd')
    rfl
  · rename_i hnone
    cases hd.symm.trans hnone

/-- **An interface that is detached takes the addresses of its domain with it if it was the last
there.** -/
theorem Arises.ipConfig?_detach (h : r.Arises) (hr : (r.detach interface).value = .ok r')
    (hname : r.tree.source? name = some .dhcp) : r'.tree.ipConfig? name =
      if r.interfaces.policy? interface = some name ∧
          (r'.tree.members? name).map (·.isEmpty) = some true then none
      else r.tree.ipConfig? name := by
  obtain ⟨interfaces, rfl, -⟩ := detach_eq_ok hr
  dsimp only
  cases hid : r.domainId? interface with
  | none =>
    have hkept : (r.unbind interface).value.tree = r.tree := by
      unfold unbind
      rw [hid]
      rfl
    rw [hkept, if_neg fun hlast => ?_]
    obtain ⟨i, hi, rfl⟩ := Option.map_eq_some_iff.1 hlast.1
    have hsome := DomainTree.isSome_byName?_of_source? hname
    rw [← DomainTree.isSome_id?, ← h.good.domainId?_eq hi, hid] at hsome
    cases hsome
  | some id =>
    obtain ⟨i, hi, -⟩ := Option.bind_eq_some_iff.1 hid
    have hplace : r.tree.id? i.policy = some id := (h.good.domainId?_eq hi).symm.trans hid
    have hleft : (r.left interface id).tree.id? i.policy = some id := id?_left hplace
    have hsupply (name : String) : (r.left interface id).tree.supply? name = r.tree.supply? name :=
      supply?_left hplace name
    obtain ⟨d, hby⟩ : ∃ d, (r.left interface id).tree.byName? i.policy = some d := by
      rw [← Option.isSome_iff_exists, ← DomainTree.isSome_id?, hleft]
      rfl
    have hget := (DomainTree.get?_of_id? hleft).trans hby
    have hself : d.name = i.policy := DomainTree.name_of_byName? hby
    have hplanned := h.planned.of_design (r.design_left interface id)
    obtain ⟨rank, hrank⟩ := DomainTree.ranked_of_plans hplanned.plans hplanned.valid
    rw [unbind_eq hid hget, members?_discardOrphaned,
      ipConfig?_discardOrphaned (h.addressed.supplied.of_supply? hsupply) hrank hget (hself ▸ hby)
        ((DomainTree.source?_of_supply? (hsupply name)).trans hname),
      DomainTree.ipConfig?_of_supply? (hsupply name), InterfaceTable.policy?_of_get? hi, hself]
    by_cases hpolicy : name = i.policy
    · rw [hpolicy, DomainTree.members?, hby]
      simp
    · rw [if_neg fun hlast => hpolicy hlast.1, if_neg fun hlast => hpolicy ?_]
      exact (Option.some.inj hlast.1).symm

/-- **A new configuration leaves addresses that were leased and still are.** -/
theorem ipConfig?_adopt (r : Router) (hvalid : config.validate.hasErrors = false)
    (hdhcp : (r.adopt config).value.tree.source? name = some .dhcp) :
    (r.adopt config).value.tree.ipConfig? name =
      if r.tree.source? name = some .dhcp then r.tree.ipConfig? name else none := by
  obtain ⟨rank, hrank⟩ := r.tree.ranked_raw hvalid
  rw [source?_of_design (r.design_adopt config)] at hdhcp
  exact (DomainTree.ipConfig?_of_supply?
    (supply?_bindAll r.interfaces.ids (r.renewed config) name)).trans
      ((DomainTree.supplied_next hrank).2 name hdhcp)

end Router

end SegmentRouter
