import SegmentRouter.Proofs.Router.Plan

/-!
# Proofs/Router/Clients — which interfaces have a DHCP client

An interface has a client exactly if the domain that it is meant for leases its addresses
(`Arises.attended`), so a client never acts on addresses that are configured or that come from
another domain.
-/

namespace SegmentRouter

namespace Router

variable {r r' : Router} {interface : InterfaceId} {bound : InterfaceId → Prop}

/-- The interfaces of some have a client exactly if their domain leases its addresses. -/
def Attends (r : Router) (bound : InterfaceId → Prop) : Prop :=
  ∀ ⦃id i⦄, r.interfaces.get? id = some i → bound id →
    (i.client.isSome = true ↔ r.tree.source? i.policy = some .dhcp)

/-- All interfaces have a client exactly if their domain leases its addresses. -/
def Attended (r : Router) : Prop :=
  r.Attends fun _ => True

theorem source?_of_design (h : r'.design = r.design) (name : String) :
    r'.tree.source? name = r.tree.source? name :=
  DomainTree.source?_of_plans (Prod.mk.inj (Prod.mk.inj h).2).2 name

theorem isSome_clientFor (r : Router) (i : Interface) (d : Domain) :
    (r.clientFor i d).isSome = true ↔ d.source = .dhcp := by
  unfold clientFor
  split
  · rename_i hdhcp
    exact iff_of_true rfl hdhcp
  · rename_i hdhcp
    exact iff_of_false nofun hdhcp

namespace Attends

/-- **An interface that is bound has the client that it needs.** -/
theorem bind (h : r.Attends bound) (interface : InterfaceId) :
    (r.bind interface).value.Attends fun id => bound id ∨ id = interface := by
  have hsource := source?_of_design (r.design_bind interface)
  have hbinding := r.binding_bind interface
  generalize (r.bind interface).value = r' at hsource hbinding ⊢
  intro id i' hi' hbound
  rw [hsource]
  cases hbinding with
  | absent hi =>
    refine h hi' (hbound.resolve_right fun hid => ?_)
    rw [← hid, hi'] at hi
    cases hi
  | @placed i domain d hi hid hd =>
    rw [InterfaceTable.get?_modify] at hi'
    split at hi'
    · rw [hi, Option.map_some] at hi'
      obtain rfl := Option.some.inj hi'
      have hpolicy : r.tree.source? i.policy = some d.source := by
        rw [DomainTree.source?, hd, Option.map_some]
      change (r.clientFor i d).isSome = true ↔ r.tree.source? i.policy = some .dhcp
      rw [isSome_clientFor, hpolicy, Option.some.injEq]
    · rename_i hne
      exact h hi' (hbound.resolve_right hne)
  | @homeless i hi hid hd =>
    rw [show ((r.cleared interface).release interface).value.interfaces.get? id =
      (r.cleared interface).interfaces.get? id from rfl, cleared, InterfaceTable.get?_modify] at hi'
    split at hi'
    · rw [hi, Option.map_some] at hi'
      obtain rfl := Option.some.inj hi'
      have hpolicy : r.tree.source? i.policy = none := by
        rw [DomainTree.source?, hd, Option.map_none]
      refine iff_of_false Bool.false_ne_true fun hsource => ?_
      cases hpolicy.symm.trans hsource
    · rename_i hne
      exact h hi' (hbound.resolve_right hne)

theorem bindAll (h : r.Attends bound) (interfaces : List InterfaceId) :
    (bindAll interfaces r).value.Attends fun id => bound id ∨ id ∈ interfaces := by
  induction interfaces generalizing r bound with
  | nil => exact fun id i hi hbound => h hi (hbound.resolve_right List.not_mem_nil)
  | cons interface rest ih =>
    intro id i hi hbound
    rw [List.mem_cons, ← or_assoc] at hbound
    exact ih (h.bind interface) hi hbound

end Attends

/-- **A new configuration gives every interface the client that it needs.** -/
theorem attended_adopt (r : Router) (config : Config) : (r.adopt config).value.Attended := by
  have hnew : (r.renewed config).Attends fun _ => False := fun _ _ _ hno => hno.elim
  intro id i hi _
  refine hnew.bindAll r.interfaces.ids hi (.inr (InterfaceTable.mem_ids_of_policy? ?_))
  rw [← r.policy?_adopt config, InterfaceTable.policy?_of_get? hi]
  rfl

/-- **In every state an interface has a client exactly if its domain leases its addresses.** -/
theorem Arises.attended (h : r.Arises) : r.Attended := by
  refine h.course_induction (fun _ id i hi => nomatch hi) fun {r r'} hr ih hcourse => ?_
  rcases hcourse.design with hdesign | ⟨config, hvalid, rfl⟩
  · have hkept (hget : ∀ id i', r'.interfaces.get? id = some i' →
        ∃ i, r.interfaces.get? id = some i ∧ i'.policy = i.policy ∧
          i'.client.isSome = i.client.isSome) : r'.Attended := by
      intro id i' hi' _
      obtain ⟨i, hi, hpolicy, hclient⟩ := hget id i' hi'
      rw [source?_of_design hdesign, hpolicy, hclient]
      exact ih hi trivial
    cases hcourse with
    | calm hcalm =>
      refine hkept fun id i' hi' => ?_
      have hstill := hcalm.interfaces id
      rw [hi', Option.map_some, eq_comm, Option.map_eq_some_iff] at hstill
      obtain ⟨i, hi, hstill⟩ := hstill
      exact ⟨i, hi, (congrArg Interface.policy hstill :).symm,
        (congrArg (·.client.isSome) hstill :).symm⟩
    | learned hd hconfig hentry => exact hkept fun id i hi => ⟨i, hi, rfl, rfl⟩
    | agedArp now => exact hkept fun id i hi => ⟨i, hi, rfl, rfl⟩
    | @instructed interface i client after action hi hclient hacts =>
      refine hkept fun id i' hi' => ?_
      rw [(shell_carryOut ..).2, withClient, InterfaceTable.get?_modify, hi] at hi'
      split at hi'
      · rename_i hid
        obtain rfl := Option.some.inj hi'
        exact ⟨i, hid ▸ hi, rfl, hclient ▸ rfl⟩
      · exact ⟨i', hi', rfl, rfl⟩
    | attached domain =>
      have hnew : (r.withNewInterface domain).Attends (· ≠ r.nextInterface domain) := by
        intro id i hi hne
        rw [get?_withNewInterface, if_neg hne] at hi
        exact ih hi trivial
      exact fun id i hi _ => hnew.bind _ hi (ne_or_eq ..)
    | @detached r' interface hr' =>
      obtain ⟨interfaces, rfl, hget⟩ := detach_eq_ok hr'
      refine hkept fun id i hi => ?_
      rw [hget] at hi
      split at hi
      · cases hi
      · exact ⟨i, hi, rfl, rfl⟩
    | adopted hvalid => exact r.attended_adopt _
  · exact r.attended_adopt config

end Router

end SegmentRouter
