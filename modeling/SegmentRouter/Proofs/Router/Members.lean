import SegmentRouter.Proofs.Router.Course

/-!
# Proofs/Router/Members — the interfaces of a domain are those that are meant for it

A domain lists its interfaces, and an interface names the domain that it is meant for; the two agree
(`Arises.housed`), so frames that leave through the interfaces of a domain leave through interfaces
that are attached to it now (`Arises.domainOf?_of_contains`).  Only interfaces that come and go, and
new configurations, change either.
-/

namespace SegmentRouter

namespace DomainTree

variable {tree tree' : DomainTree}

/-- The interfaces of the domain with a name. -/
def members? (tree : DomainTree) (name : String) : Option (SortedSet InterfaceId) :=
  (tree.byName? name).map (·.interfaces)

theorem members?_of_byName? {name : String} {d : Domain} (hd : tree.byName? name = some d) :
    tree.members? name = some d.interfaces := by
  rw [members?, hd, Option.map_some]

theorem members?_of_still (h : tree'.still = tree.still) (name : String) :
    tree'.members? name = tree.members? name :=
  map_byName?_congr (f := Domain.still) (g := (·.interfaces)) (k := (·.interfaces))
    Domain.name_still (fun _ => rfl) (congrArg DomainTree.domains h) name

theorem members?_of_shell (h : tree'.shell = tree.shell) (name : String) :
    tree'.members? name = tree.members? name :=
  map_byName?_congr (f := Domain.shell) (g := (·.interfaces)) (k := (·.interfaces))
    Domain.name_shell (fun _ => rfl) (congrArg DomainTree.domains h) name

/-- Putting interfaces into a domain, or taking them out, shows there only. -/
theorem members?_update {name : String} {f : Domain → Domain}
    {g : SortedSet InterfaceId → SortedSet InterfaceId} (hname : ∀ d, (f d).name = d.name)
    (hf : ∀ d, (f d).interfaces = g d.interfaces) (other : String) :
    (tree.update name f).members? other =
      if other = name then (tree.members? name).map g else tree.members? other := by
  rw [members?, byName?_update _ _ _ fun d hd => (hname d).trans hd]
  split
  · rw [members?, Option.map_map, Option.map_map]
    exact congrArg (Option.map · (tree.byName? name)) (funext hf)
  · rfl

/-- New domains have no interfaces yet. -/
theorem members?_next {previous : DomainTree} {config : Config} {name : String}
    {members : SortedSet InterfaceId}
    (h : (previous.next config).value.members? name = some members) : members = ∅ := by
  rw [members?_of_shell (previous.shell_next config)] at h
  obtain ⟨d, hd, rfl⟩ := Option.map_eq_some_iff.1 h
  obtain ⟨c, -, rfl⟩ := List.mem_map.1 (mem_of_byName? hd)
  unfold succeed
  dsimp only
  split <;> rfl

end DomainTree

namespace Router

variable {r r' : Router} {interface : InterfaceId} {bound : InterfaceId → Prop}

/-- The interfaces of a domain are those, of some, that are meant for it. -/
def Houses (r : Router) (bound : InterfaceId → Prop) : Prop :=
  ∀ ⦃name members⦄, r.tree.members? name = some members → ∀ id,
    members.contains id = true ↔ bound id ∧ r.interfaces.policy? id = some name

/-- The interfaces of a domain are those that are meant for it. -/
def Housed (r : Router) : Prop :=
  r.Houses fun _ => True

namespace Houses

theorem congr (h : r.Houses bound) (hm : ∀ name, r'.tree.members? name = r.tree.members? name)
    (hp : ∀ id, r'.interfaces.policy? id = r.interfaces.policy? id) : r'.Houses bound := by
  intro name members hmembers id
  rw [hm] at hmembers
  rw [hp]
  exact h hmembers id

theorem imp {bound' : InterfaceId → Prop} (h : r.Houses bound)
    (hb : ∀ id, (r.interfaces.policy? id).isSome → (bound id ↔ bound' id)) : r.Houses bound' := by
  intro name members hmembers id
  rw [h hmembers]
  refine and_congr_left fun hp => hb id ?_
  rw [hp]
  rfl

/-- **Binding an interface puts it into the domain that it is meant for.** -/
theorem bind (h : r.Houses bound) (interface : InterfaceId) :
    (r.bind interface).value.Houses fun id => bound id ∨ id = interface := by
  have hbinding := r.binding_bind interface
  have hpolicies := r.policy?_bind interface
  generalize (r.bind interface).value = r' at hbinding hpolicies ⊢
  cases hbinding with
  | absent hi =>
    refine h.imp fun id hsome => (or_iff_left fun hid => ?_).symm
    rw [hid, InterfaceTable.policy?, hi] at hsome
    cases hsome
  | @placed i id d hi hid hd =>
    have hpolicy := InterfaceTable.policy?_of_get? hi
    intro name members hmembers id'
    have hadded : (r.tree.update i.policy (·.addInterface interface)).members? name =
        if name = i.policy then (r.tree.members? i.policy).map (·.insert interface ())
        else r.tree.members? name :=
      DomainTree.members?_update (f := (·.addInterface interface)) (g := (·.insert interface ()))
        (fun _ => rfl) (fun _ => rfl) name
    rw [hadded] at hmembers
    rw [hpolicies]
    dsimp only
    split at hmembers
    · rename_i hname
      obtain ⟨old, hold, rfl⟩ := Option.map_eq_some_iff.1 hmembers
      rw [SortedMap.contains, SortedMap.get?_insert]
      by_cases hi' : id' = interface
      · simp [hi', hpolicy, hname]
      · rw [if_neg hi', or_iff_left hi', hname]
        exact h hold id'
    · rename_i hname
      rw [h hmembers]
      refine and_congr_left fun hp => (or_iff_left fun hi' => hname ?_).symm
      rw [hi', hpolicy] at hp
      exact (Option.some.inj hp).symm
  | @homeless i hi hid hd =>
    have hpolicy := InterfaceTable.policy?_of_get? hi
    have hreleased : r.Houses fun id => bound id ∨ id = interface := by
      intro name members hmembers id
      rw [h hmembers]
      refine and_congr_left fun hp => (or_iff_left fun hid => ?_).symm
      rw [hid, hpolicy] at hp
      rw [← Option.some.inj hp, DomainTree.members?, hd] at hmembers
      cases hmembers
    exact hreleased.congr (DomainTree.members?_of_shell (shell_release _ _)) hpolicies

theorem bindAll (h : r.Houses bound) (interfaces : List InterfaceId) :
    (bindAll interfaces r).value.Houses fun id => bound id ∨ id ∈ interfaces := by
  induction interfaces generalizing r bound with
  | nil => exact h.imp fun id _ => by simp
  | cons interface rest ih =>
    exact (ih (h.bind interface)).imp fun id _ => by rw [List.mem_cons, or_assoc]

end Houses

namespace Housed

variable (h : r.Housed)

include h

theorem attach (domain : String) : (r.attach domain).value.2.Housed := by
  have hnew : (r.withNewInterface domain).Houses (· ≠ r.nextInterface domain) := by
    intro name members hmembers id
    rw [h hmembers, policy?_withNewInterface]
    by_cases hid : id = r.nextInterface domain
    · rw [hid, InterfaceTable.policy?, get?_nextInterface]
      simp
    · rw [if_neg hid, and_iff_right trivial, and_iff_right hid]
  exact (hnew.bind _).imp fun id _ => iff_true_intro (ne_or_eq ..)

/-- Unbinding an interface takes it out of the domain that it is in, if it is in one. -/
theorem members?_unbind (hgood : r.Good) (interface : InterfaceId) (name : String) :
    (r.unbind interface).value.tree.members? name =
      (r.tree.members? name).map (·.erase interface) := by
  have hself (hne : (r.tree.members? name).isSome → r.interfaces.policy? interface ≠ some name) :
      (r.tree.members? name).map (·.erase interface) = r.tree.members? name := by
    cases hmembers : r.tree.members? name with
    | none => rfl
    | some members =>
      rw [Option.map_some, SortedMap.erase_eq_self]
      rw [← Option.not_isSome_iff_eq_none]
      exact fun hm => hne (by rw [hmembers]; rfl) ((h hmembers interface).1 hm).2
  have hunbinding := r.unbinding_unbind interface
  generalize (r.unbind interface).value = r' at hunbinding ⊢
  have hleft {id : DomainId} (hid : r.domainId? interface = some id) :
      (r.left interface id).tree.members? name =
        (r.tree.members? name).map (·.erase interface) := by
    obtain ⟨i, hi, -⟩ := Option.bind_eq_some_iff.1 hid
    rw [hgood.domainId?_eq hi] at hid
    rw [tree_left hid, DomainTree.members?_update (f := (·.removeInterface interface))
      (g := (·.erase interface)) (fun _ => rfl) fun _ => rfl,
      DomainTree.members?_of_shell (shell_release ..),
      DomainTree.members?_of_shell (shell_release ..)]
    split
    · rename_i hname
      rw [hname]
      rfl
    · rename_i hname
      refine (hself fun _ hpolicy => hname ?_).symm
      rw [InterfaceTable.policy?_of_get? hi] at hpolicy
      exact (Option.some.inj hpolicy).symm
  cases hunbinding with
  | outside hid =>
    refine (hself fun hmembers hpolicy => ?_).symm
    obtain ⟨i, hi, rfl⟩ := Option.map_eq_some_iff.1 hpolicy
    have hsome := r.tree.isSome_id? i.policy
    rw [← hgood.domainId?_eq hi, hid] at hsome
    rw [DomainTree.members?, Option.isSome_map, ← hsome] at hmembers
    cases hmembers
  | inside hid => exact hleft hid
  | orphaned hid hd hdhcp hset =>
    exact (DomainTree.members?_of_shell (DomainTree.shell_setIpConfig hset) name).trans (hleft hid)

/-- **The domain of an interface that is detached has the others left.** -/
theorem detach (hgood : r.Good) (hr : (r.detach interface).value = .ok r') : r'.Housed := by
  have hpolicy := policy?_detach hr
  obtain ⟨interfaces, rfl, -⟩ := detach_eq_ok hr
  intro name members hmembers id
  obtain ⟨old, hold, rfl⟩ :=
    Option.map_eq_some_iff.1 ((h.members?_unbind hgood interface name).symm.trans hmembers)
  rw [SortedMap.contains, SortedMap.get?_erase, hpolicy]
  by_cases hid : id = interface
  · simp [hid]
  · rw [if_neg hid, if_neg hid]
    exact h hold id

omit h in
/-- **A new configuration puts every interface into the domain that it is meant for.** -/
theorem adopt (r : Router) (config : Config) : (r.adopt config).value.Housed := by
  have hnew : (r.renewed config).Houses fun _ => False := by
    intro name members hmembers id
    rw [DomainTree.members?_next hmembers]
    simp [SortedMap.contains]
  have hadopted : (r.adopt config).value.Houses fun id => False ∨ id ∈ r.interfaces.ids :=
    hnew.bindAll r.interfaces.ids
  refine hadopted.imp fun id hsome => ?_
  rw [policy?_adopt] at hsome
  exact iff_true_intro (.inr (InterfaceTable.mem_ids_of_policy? hsome))

end Housed

/-- **In every state the interfaces of a domain are those that are meant for it.** -/
theorem Arises.housed (h : r.Arises) : r.Housed := by
  refine h.course_induction (fun _ _ _ hnone => nomatch hnone) fun hr ih hcourse => ?_
  cases hcourse with
  | calm hcalm => exact ih.congr (DomainTree.members?_of_still hcalm.tree) hcalm.policy?_eq
  | learned hd hconfig hentry =>
    exact ih.congr (DomainTree.members?_of_shell (DomainTree.shell_update fun _ => rfl))
      fun _ => rfl
  | agedArp now => exact ih.congr (DomainTree.members?_of_shell (shell_ageArp ..)) fun _ => rfl
  | @instructed interface i client after action hi hclient hacts =>
    exact ih.congr (DomainTree.members?_of_shell (shell_carryOut ..).1)
      (policy?_instructed _ interface after action)
  | attached domain => exact ih.attach domain
  | detached hr' => exact ih.detach hr.good hr'
  | adopted hvalid => exact .adopt _ _

/-- **The interfaces of a domain are attached to it now.** -/
theorem Arises.domainOf?_of_contains (h : r.Arises) {name : String} {d : Domain} {id : InterfaceId}
    (hd : r.tree.byName? name = some d) (hid : d.interfaces.contains id = true) :
    r.domainOf? id = some d := by
  have hmembers := DomainTree.members?_of_byName? hd
  obtain ⟨i, hi, rfl⟩ := Option.map_eq_some_iff.1 ((h.housed hmembers id).1 hid).2
  exact (h.good.domainOf?_eq hi).trans hd

end Router

end SegmentRouter
