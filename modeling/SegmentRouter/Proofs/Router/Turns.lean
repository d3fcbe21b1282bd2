import SegmentRouter.Proofs.Router.Grants

/-!
# Proofs/Router/Turns — what a change does to a domain whose addresses are leased

Each interface of such a domain has a client, and the domain has one set of addresses.  A change
leaves them and all leases as they are, or one client is granted a lease and its addresses are
installed, or one loses its lease and the addresses go, or an interface goes (`Turn`,
`Arises.turn`).  One change is left out, about which a client says nothing to the domain: a spoiled
renewal (`Spoils`).
-/

namespace SegmentRouter

namespace Router

variable {r r' : Router} {name : String}

/-- An interface is attached to the domain with a name. -/
def Joins (r : Router) (name : String) (id : InterfaceId) : Prop :=
  ∃ d, r.tree.byName? name = some d ∧ d.interfaces.contains id = true

/-- The client of an interface of the domain with a name has a lease of addresses. -/
def Rents (r : Router) (name : String) (id : InterfaceId) (c : IpConfig) : Prop :=
  r.Joins name id ∧ r.grant? id = some c

theorem joins_iff_contains {d : Domain} (hd : r.tree.byName? name = some d) (id : InterfaceId) :
    r.Joins name id ↔ d.interfaces.contains id = true := by
  rw [Joins, hd]
  simp only [Option.some.injEq, exists_eq_left']

/-- A renewal is spoiled by which a client of a domain asked for its addresses to go on. -/
def Spoils (r : Router) (name : String) (r' : Router) : Prop :=
  ∃ interface i client msg now, r.interfaces.get? interface = some i ∧ i.policy = name ∧
    i.client = some client ∧ client.Spoiled (.handle msg r.nextXid now) ∧
    r' = ((r.withClient interface (client.handle msg r.nextXid now).value.2).carryOut interface
      (client.handle msg r.nextXid now).value.1).value.router

/-- **What a change does to a domain whose addresses are leased**, before it and after it. -/
inductive Turn (r : Router) (name : String) (r' : Router) : Prop
  | kept (hconfig : r'.tree.ipConfig? name = r.tree.ipConfig? name)
      (hrents : ∀ id c, r'.Rents name id c ↔ r.Rents name id c)
      (hjoins : ∀ id, r.Joins name id → r'.Joins name id)
  | granted {id : InterfaceId} {c : IpConfig} (hthere : r.Joins name id)
      (hconfig : r'.tree.ipConfig? name = some c)
      (hself : ∀ c', r'.Rents name id c' ↔ c' = c)
      (hrents : ∀ other ≠ id, ∀ c', r'.Rents name other c' ↔ r.Rents name other c')
      (hjoins : ∀ id, r.Joins name id → r'.Joins name id)
  | ended {id : InterfaceId} {c : IpConfig} (hconfig : r'.tree.ipConfig? name = none)
      (hold : r.Rents name id c)
      (hrents : ∀ id' c', r'.Rents name id' c' ↔ id' ≠ id ∧ r.Rents name id' c')
      (hjoins : ∀ id, r.Joins name id → r'.Joins name id)
  /-- An interface goes, and the addresses with it if it was the last one. -/
  | parted {id : InterfaceId} (hlast : (∀ other, ¬ r'.Joins name other) →
        r'.tree.ipConfig? name = none)
      (hothers : ∀ other, r'.Joins name other → r'.tree.ipConfig? name = r.tree.ipConfig? name)
      (hrents : ∀ id' c', r'.Rents name id' c' ↔ id' ≠ id ∧ r.Rents name id' c')
      (hjoins : ∀ id', r'.Joins name id' ↔ id' ≠ id ∧ r.Joins name id')

/-! ## What changes do -/

namespace Arises

variable {id : InterfaceId} {c : IpConfig}

/-- Where addresses are leased, an interface is attached to the domain that it is meant for. -/
theorem joins_iff (h : r.Arises) (hsource : r.tree.source? name = some .dhcp) (id : InterfaceId) :
    r.Joins name id ↔ r.interfaces.policy? id = some name := by
  obtain ⟨d, hd, -⟩ := Option.map_eq_some_iff.1 hsource
  have hmembers := DomainTree.members?_of_byName? hd
  exact (joins_iff_contains hd id).trans ((h.housed hmembers id).trans (and_iff_right trivial))

theorem policy?_of_joins (h : r.Arises) (hid : r.Joins name id) :
    r.interfaces.policy? id = some name := by
  obtain ⟨d, hd, hid⟩ := hid
  exact ((h.housed (DomainTree.members?_of_byName? hd) id).1 hid).2

theorem rents_iff (h : r.Arises) (id : InterfaceId) (c : IpConfig) :
    r.Rents name id c ↔ r.interfaces.policy? id = some name ∧ r.grant? id = some c :=
  ⟨fun ⟨hid, hgrant⟩ => ⟨h.policy?_of_joins hid, hgrant⟩, fun ⟨hpolicy, hgrant⟩ =>
    ⟨(h.joins_iff (h.source?_of_grant? hgrant hpolicy) id).2 hpolicy, hgrant⟩⟩

theorem source?_of_rents (h : r.Arises) (hrents : r.Rents name id c) :
    r.tree.source? name = some .dhcp :=
  h.source?_of_grant? hrents.2 (h.policy?_of_joins hrents.1)

section

variable (h : r.Arises) (h' : r'.Arises) (hbefore : r.tree.source? name = some .dhcp)
  (hafter : r'.tree.source? name = some .dhcp)

include h h' hbefore hafter

/-- What leaves addresses, interfaces and their leases, and adds no lease. -/
theorem turn_kept (hconfig : r'.tree.ipConfig? name = r.tree.ipConfig? name)
    (hold : ∀ {id}, r.interfaces.policy? id = some name →
      r'.interfaces.policy? id = some name ∧ r'.grant? id = r.grant? id)
    (hnew : ∀ {id}, r'.interfaces.policy? id = some name →
      r.interfaces.policy? id = some name ∨ r'.grant? id = none) : r.Turn name r' := by
  refine .kept hconfig (fun id c => ?_) fun id hid => ?_
  · rw [h.rents_iff, h'.rents_iff]
    constructor
    · rintro ⟨hpolicy, hc⟩
      rcases hnew hpolicy with hbefore | hnone
      · exact ⟨hbefore, (hold hbefore).2 ▸ hc⟩
      · cases hnone.symm.trans hc
    · rintro ⟨hpolicy, hc⟩
      exact ⟨(hold hpolicy).1, (hold hpolicy).2.trans hc⟩
  · exact (h'.joins_iff hafter id).2 (hold ((h.joins_iff hbefore id).1 hid)).1

/-- **What a client does to the domain of its interface.** -/
theorem turn_conducts {interface : InterfaceId} {client after : DhcpClient} {action : DhcpAction}
    (hpolicy : ∀ id, r'.interfaces.policy? id = r.interfaces.policy? id)
    (hmeant : r.interfaces.policy? interface = some name)
    (hold : r.client? interface = some client) (hnew : r'.client? interface = some after)
    (hother : ∀ id ≠ interface, r'.client? id = r.client? id)
    (hconfig : r'.tree.ipConfig? name = action.asksFor?.getD (r.tree.ipConfig? name))
    (hconducts : client.Conducts (action, after))
    (hended : action.asksFor? = some none → client.lease.isSome = true) : r.Turn name r' := by
  have hgrantOld : r.grant? interface = client.lease.map (·.config) := by
    rw [grant?, hold, Option.bind_some]
  have hgrantNew : r'.grant? interface = after.lease.map (·.config) := by
    rw [grant?, hnew, Option.bind_some]
  have hjoins (id : InterfaceId) (hid : r.Joins name id) : r'.Joins name id := by
    rw [h'.joins_iff hafter, hpolicy]
    exact h.policy?_of_joins hid
  have hkept (hconfig : r'.tree.ipConfig? name = r.tree.ipConfig? name)
      (hgrant : r'.grant? interface = r.grant? interface) : r.Turn name r' := by
    refine h.turn_kept h' hbefore hafter hconfig (fun {id} hp => ⟨(hpolicy id).trans hp, ?_⟩)
      fun {id} hp => .inl ((hpolicy id).symm.trans hp)
    by_cases hid : id = interface
    · exact hid ▸ hgrant
    · exact grant?_congr (hother id hid)
  have hrents (other : InterfaceId) (hne : other ≠ interface) (c : IpConfig) :
      r'.Rents name other c ↔ r.Rents name other c := by
    rw [h'.rents_iff, h.rents_iff, hpolicy, grant?_congr (hother other hne)]
  cases hconducts with
  | kept hlease _ hask =>
    rw [hask] at hconfig
    exact hkept hconfig (by rw [hgrantNew, hgrantOld, hlease])
  | renewed hlease _ hsame =>
    exact hkept hconfig (by rw [hgrantNew, hgrantOld, hlease, hsame, Option.map_some])
  | bound hlease =>
    have hthere : r.Joins name interface := (h.joins_iff hbefore interface).2 hmeant
    refine .granted hthere hconfig (fun c => ?_) hrents hjoins
    rw [h'.rents_iff, hpolicy, and_iff_right hmeant, hgrantNew, hlease, Option.map_some,
      Option.some.injEq]
    exact eq_comm
  | ended hlease =>
    obtain ⟨lease, hsome⟩ := Option.isSome_iff_exists.1 (hended rfl)
    have hheld : r.Rents name interface lease.config := by
      rw [h.rents_iff, hgrantOld, hsome, Option.map_some]
      exact ⟨hmeant, rfl⟩
    refine .ended hconfig hheld (fun id c => ?_) hjoins
    by_cases hid : id = interface
    · rw [hid, h'.rents_iff, hgrantNew, hlease]
      simp
    · rw [hrents id hid, and_iff_right hid]

end

/-- **What a client does, but for spoiled renewals.** -/
theorem turn_instructed (h : r.Arises) {interface : InterfaceId} {i : Interface}
    {client after : DhcpClient} {action : DhcpAction} (hi : r.interfaces.get? interface = some i)
    (hclient : i.client = some client) (hacts : client.Acts r.nextXid action after)
    (h' : ((r.withClient interface after).carryOut interface action).value.router.Arises)
    (hbefore : r.tree.source? name = some .dhcp)
    (hafter : ((r.withClient interface after).carryOut interface
      action).value.router.tree.source? name = some .dhcp)
    (hspared : ¬ r.Spoils name
      ((r.withClient interface after).carryOut interface action).value.router) :
    r.Turn name ((r.withClient interface after).carryOut interface action).value.router := by
  have hpolicy := r.policy?_instructed interface after action
  have hclients := r.client?_instructed interface after action
  have hconfig := h.ipConfig?_instructed hi hclient after action hbefore
  have hmeant := InterfaceTable.policy?_of_get? hi
  have hold : r.client? interface = some client := by
    rw [client?, hi]
    exact hclient
  by_cases hname : i.policy = name
  · have hconducts : client.Conducts (action, after) :=
      hacts.conducts (h.phased hold) fun msg now hvalue hspoiled => hspared
        ⟨interface, i, client, msg, now, hi, hname, hclient, hspoiled, by rw [hvalue]⟩
    refine h.turn_conducts h' hbefore hafter hpolicy (hname ▸ hmeant) hold ?_
      (fun id hid => (hclients id).trans (if_neg hid)) (hconfig.trans (if_pos hname.symm)) hconducts
      hacts.isSome_lease
    rw [hclients, if_pos rfl, hi, Option.map_some]
  · refine h.turn_kept h' hbefore hafter (hconfig.trans (if_neg (Ne.symm hname)))
      (fun {id} hp => ⟨(hpolicy id).trans hp, grant?_congr ?_⟩)
      fun {id} hp => .inl ((hpolicy id).symm.trans hp)
    rw [hclients, if_neg]
    rintro rfl
    exact hname (Option.some.inj (hmeant.symm.trans hp))

theorem turn_detach (h : r.Arises) {interface : InterfaceId}
    (hr : (r.detach interface).value = .ok r') (h' : r'.Arises)
    (hbefore : r.tree.source? name = some .dhcp) (hafter : r'.tree.source? name = some .dhcp) :
    r.Turn name r' := by
  have hconfig := h.ipConfig?_detach hr hbefore
  have hclients := client?_detach hr
  have hpolicy := policy?_detach hr
  by_cases hname : r.interfaces.policy? interface = some name
  · have hjoins (id : InterfaceId) : r'.Joins name id ↔ id ≠ interface ∧ r.Joins name id := by
      rw [h'.joins_iff hafter, h.joins_iff hbefore, hpolicy]
      split
      · rename_i hid
        exact iff_of_false nofun fun hno => hno.1 hid
      · rename_i hid
        exact (and_iff_right hid).symm
    obtain ⟨d, hd, -⟩ := Option.map_eq_some_iff.1 hafter
    have hempty : (r'.tree.members? name).map (·.isEmpty) = some true ↔
        ∀ other, ¬ r'.Joins name other := by
      rw [DomainTree.members?_of_byName? hd, Option.map_some, Option.some.injEq,
        SortedMap.isEmpty_iff]
      simp only [joins_iff_contains hd, Bool.not_eq_true]
    refine .parted (fun hlast => ?_) (fun other hother => ?_) (fun id c => ?_) hjoins
    · rw [hconfig, if_pos ⟨hname, hempty.2 hlast⟩]
    · rw [hconfig, if_neg fun hlast => hempty.1 hlast.2 other hother]
    · rw [Rents, Rents, hjoins, and_assoc]
      refine and_congr_right fun hid => ?_
      rw [grant?_congr ((hclients id).trans (if_neg hid))]
  · rw [if_neg fun hlast => hname hlast.1] at hconfig
    refine h.turn_kept h' hbefore hafter hconfig (fun {id} hp => ?_) fun {id} hp => ?_
    · have hid : id ≠ interface := fun hid => hname (hid ▸ hp)
      exact ⟨(hpolicy id).trans ((if_neg hid).trans hp),
        grant?_congr ((hclients id).trans (if_neg hid))⟩
    · rw [hpolicy] at hp
      split at hp
      · cases hp
      · exact .inl hp

theorem turn_attach (h : r.Arises) (domain : String) (h' : (r.attach domain).value.2.Arises)
    (hbefore : r.tree.source? name = some .dhcp)
    (hafter : (r.attach domain).value.2.tree.source? name = some .dhcp) :
    r.Turn name (r.attach domain).value.2 := by
  have hpolicy (id : InterfaceId) : (r.attach domain).value.2.interfaces.policy? id =
      if id = r.nextInterface domain then some domain else r.interfaces.policy? id :=
    (policy?_bind (r.withNewInterface domain) (r.nextInterface domain) id).trans
      (r.policy?_withNewInterface domain id)
  have hfree : r.interfaces.get? (r.nextInterface domain) = none := r.get?_nextInterface domain
  refine h.turn_kept h' hbefore hafter ?_ (fun {id} hp => ⟨?_, r.grant?_attach domain id⟩)
    fun {id} hp => ?_
  · exact DomainTree.ipConfig?_of_supply?
      (supply?_bind (r.withNewInterface domain) (r.nextInterface domain) name)
  · rw [hpolicy, if_neg, hp]
    rintro rfl
    rw [InterfaceTable.policy?, hfree] at hp
    cases hp
  · rw [hpolicy] at hp
    split at hp
    · rename_i hid
      rw [grant?_attach, grant?, client?, hid, hfree]
      exact .inr rfl
    · exact .inl hp

/-- **What changes do to a domain whose addresses are leased**, but for spoiled renewals. -/
theorem turn (h : r.Arises) (hmove : r.Move r') (hbefore : r.tree.source? name = some .dhcp)
    (hafter : r'.tree.source? name = some .dhcp) (hspared : ¬ r.Spoils name r') :
    r.Turn name r' := by
  have h' := h.move hmove
  have hsame (hsupply : ∀ name, r'.tree.supply? name = r.tree.supply? name)
      (hpolicy : ∀ id, r'.interfaces.policy? id = r.interfaces.policy? id)
      (hclients : ∀ id, r'.client? id = r.client? id) : r.Turn name r' :=
    h.turn_kept h' hbefore hafter (DomainTree.ipConfig?_of_supply? (hsupply name))
      (fun {id} hp => ⟨(hpolicy id).trans hp, grant?_congr (hclients id)⟩)
      fun {id} hp => .inl ((hpolicy id).symm.trans hp)
  cases hmove.course h.good with
  | calm hcalm =>
    exact hsame (DomainTree.supply?_of_still hcalm.tree) hcalm.policy?_eq hcalm.client?_eq
  | @learned name d config ip entry hd hconfig hentry =>
    exact hsame (DomainTree.supply?_update (f := (·.withArp (d.arp.insert ip entry)))
      (fun _ => rfl) fun _ => rfl) (fun _ => rfl) fun _ => rfl
  | agedArp now => exact hsame (r.supply?_ageArp now) (fun _ => rfl) fun _ => rfl
  | instructed hi hclient hacts =>
    exact h.turn_instructed hi hclient hacts h' hbefore hafter hspared
  | attached domain => exact h.turn_attach domain h' hbefore hafter
  | detached hr => exact h.turn_detach hr h' hbefore hafter
  | adopted hvalid =>
    refine h.turn_kept h' hbefore hafter ?_ (fun {id} hp => ?_) fun {id} hp => ?_
    · exact (r.ipConfig?_adopt hvalid hafter).trans (if_pos hbefore)
    · exact ⟨(r.policy?_adopt _ id).trans hp, grant?_adopt hp hafter⟩
    · exact .inl ((r.policy?_adopt _ id).symm.trans hp)

end Arises

end Router

end SegmentRouter
