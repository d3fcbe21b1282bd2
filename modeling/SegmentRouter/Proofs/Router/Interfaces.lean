import SegmentRouter.Proofs.Router.Good
import SegmentRouter.Router.Attach

/-!
# Proofs/Router/Interfaces — interfaces that come and go keep a router good

Binding an interface puts it where it is meant to be and ends no link: where it cannot be put no
link has its origin (`binds_bind`).  Detaching it ends exactly the links that it opened, so what is
left is still anchored in interfaces that are there (`Good.detach`).
-/

namespace SegmentRouter

namespace InterfaceTable

/-- An interface put into a domain is still meant for the one that it was meant for. -/
theorem place?_inDomain (t : InterfaceTable) (id j : InterfaceId) (domain : Option DomainId)
    (client : Option DhcpClient) : (t.modify id (·.inDomain domain client)).place? j =
      (t.place? j).map fun place => (place.1, if j = id then domain else place.2) := by
  rw [place?, get?_modify, place?]
  by_cases hj : j = id
  · subst hj
    simp only [if_true, Option.map_map]
    rfl
  · simp only [if_neg hj, Option.map_map]
    rfl

end InterfaceTable

namespace Router

variable {r r' r'' : Router} {interface : InterfaceId}

/-! ## Releasing what belongs to an interface -/

theorem map_cancelArp {β : Type} {g : Domain → β} (hg : ∀ d arp, g (d.withArp arp) = g d)
    (interface : InterfaceId) (domains : List Domain) :
    (cancelArp interface domains).2.map g = domains.map g := by
  induction domains with
  | nil => rfl
  | cons d rest ih => exact List.cons_eq_cons.2 ⟨hg .., ih⟩

/-- **Releasing an interface ends exactly the links that it opened.** -/
theorem release_spec (h : r.tree.Sound) (interface : InterfaceId) :
    ∃ tree, (r.release interface).value = r.withTree tree ∧
      r.tree.Dismisses (·.origin = interface) tree := by
  have hdis := h.dismisses_dismissLinksOfInterface interface
  refine ⟨{ (r.tree.dismissLinksOfInterface interface).value.2 with domains := (cancelArp interface
    (r.tree.dismissLinksOfInterface interface).value.2.domains).2 }, rfl, ?_⟩
  refine (hdis.trans (.of_core hdis.sound ?_ ?_)).congr
    fun _ _ => iff_of_eq (or_false _)
  · rw [DomainTree.core, DomainTree.core, map_cancelArp fun _ _ => rfl]
  · have hmap := map_cancelArp (g := fun d => d.links.owned.values) (fun _ _ => rfl) interface
      (r.tree.dismissLinksOfInterface interface).value.2.domains
    rw [DomainTree.liveLinks, DomainTree.liveLinks, List.flatMap_def, List.flatMap_def, hmap]

/-- The router with an interface in no domain. -/
def cleared (r : Router) (interface : InterfaceId) : Router :=
  { r with interfaces := r.interfaces.modify interface (·.inDomain none none) }

/-! ## Binding -/

/-- What becomes of an interface that is bound: it is put into the domain that it is meant for, or
released if there is no such domain. -/
inductive Binding (r : Router) (interface : InterfaceId) : Router → Prop
  | absent (hi : r.interfaces.get? interface = none) : Binding r interface r
  | placed {i : Interface} {id : DomainId} {d : Domain}
      (hi : r.interfaces.get? interface = some i) (hid : r.tree.id? i.policy = some id)
      (hd : r.tree.byName? i.policy = some d) :
      Binding r interface { r with
        tree := r.tree.update i.policy (·.addInterface interface)
        interfaces := r.interfaces.modify interface (·.inDomain (some id) (r.clientFor i d))
        nextXid := Xid.next r.nextXid }
  | homeless {i : Interface} (hi : r.interfaces.get? interface = some i)
      (hid : r.tree.id? i.policy = none) (hd : r.tree.byName? i.policy = none) :
      Binding r interface ((r.cleared interface).release interface).value

theorem binding_bind (r : Router) (interface : InterfaceId) :
    r.Binding interface (r.bind interface).value := by
  unfold bind
  split
  · rename_i hi
    exact .absent hi
  · rename_i i hi
    have hsome := r.tree.isSome_id? i.policy
    cases hid : r.tree.id? i.policy with
    | some id =>
      cases hd : r.tree.byName? i.policy with
      | some d =>
        dsimp only [Logged.value_bind, Logged.value_pure]
        rw [DomainTree.updateAt_of_id? hid]
        exact .placed hi hid hd
      | none =>
        rw [hid, hd] at hsome
        cases hsome
    | none =>
      refine .homeless hi hid ?_
      rw [hid] at hsome
      simpa using hsome.symm

/-- Binding changes what an interface is in, not what it is meant for. -/
theorem policy?_bind (r : Router) (interface id : InterfaceId) :
    (r.bind interface).value.interfaces.policy? id = r.interfaces.policy? id := by
  have hkept : ∀ domain client, (r.interfaces.modify interface
      (·.inDomain domain client)).policy? id = r.interfaces.policy? id := fun domain client =>
    r.interfaces.policy?_modify interface (f := (·.inDomain domain client)) (fun _ => rfl) id
  have hbinding := r.binding_bind interface
  generalize (r.bind interface).value = r' at hbinding ⊢
  cases hbinding with
  | absent hi => rfl
  | placed hi hid hd => exact hkept ..
  | homeless hi hid hd => exact hkept ..

theorem policy?_bindAll (interfaces : List InterfaceId) (r : Router) (id : InterfaceId) :
    (bindAll interfaces r).value.interfaces.policy? id = r.interfaces.policy? id := by
  induction interfaces generalizing r with
  | nil => rfl
  | cons interface rest ih => exact (ih _).trans (r.policy?_bind interface id)

/-- A later router with the same links, in which the interfaces of a list are where they are meant
to be. -/
structure Binds (r : Router) (bound : List InterfaceId) (r' : Router) : Prop where
  tree : r.tree.Dismisses (fun _ => False) r'.tree
  nextLink : r'.nextLink = r.nextLink
  place : ∀ id, r'.interfaces.place? id = (r.interfaces.place? id).map fun place =>
    (place.1, if id ∈ bound then r.tree.id? place.1 else place.2)

namespace Binds

variable {bound bound' : List InterfaceId}

theorem mem_liveLinks (h : r.Binds bound r') (link : Link) :
    link ∈ r'.tree.liveLinks ↔ link ∈ r.tree.liveLinks := by
  rw [h.tree.mem]
  exact ⟨And.left, fun hm => ⟨hm, id⟩⟩

theorem id?_eq (h : r.Binds bound r') (name : String) : r'.tree.id? name = r.tree.id? name :=
  DomainTree.id?_congr h.tree.generation
    (DomainTree.names_of_bases (DomainTree.bases_of_policies h.tree.policies)) name

theorem refl (h : r.tree.Sound) : r.Binds [] r where
  tree := .refl h fun _ _ => id
  nextLink := rfl
  place id := by simp

theorem trans (h : r.Binds bound r') (h' : r'.Binds bound' r'') :
    r.Binds (bound ++ bound') r'' where
  tree := (h.tree.trans h'.tree).congr fun _ _ => or_self_iff
  nextLink := h'.nextLink.trans h.nextLink
  place id := by
    rw [h'.place, h.place, Option.map_map]
    refine congrArg (Option.map · _) (funext fun place => Prod.ext rfl ?_)
    simp only [Function.comp_apply, h.id?_eq, List.mem_append]
    by_cases hb' : id ∈ bound'
    · rw [if_pos hb', if_pos (.inr hb')]
    · by_cases hb : id ∈ bound
      · rw [if_neg hb', if_pos hb, if_pos (.inl hb)]
      · rw [if_neg hb', if_neg hb, if_neg fun h => h.elim hb hb']

theorem anchored (h : r.Binds bound r') (ha : r.Anchored) : r'.Anchored := by
  intro link hm
  obtain ⟨domain, hp⟩ := ha link ((h.mem_liveLinks link).1 hm)
  rw [h.place, hp]
  exact ⟨_, rfl⟩

/-- **A router is good once all interfaces that were not in their domains are bound.** -/
theorem good (h : r.Binds bound r') (ha : r.Anchored)
    (hfresh : ∀ link ∈ r.tree.liveLinks, link.id < r.nextLink)
    (hother : ∀ {id policy domain}, r.interfaces.place? id = some (policy, domain) →
      id ∉ bound → domain = r.tree.id? policy) : r'.Good where
  sound := h.tree.sound
  fresh link hm := by
    rw [h.nextLink]
    exact hfresh link ((h.mem_liveLinks link).1 hm)
  settled {id policy domain} hp := by
    rw [h.place] at hp
    obtain ⟨place, hold, he⟩ := Option.map_eq_some_iff.1 hp
    obtain ⟨rfl, rfl⟩ := Prod.mk.inj he
    rw [h.id?_eq]
    split
    · rfl
    · rename_i hb
      exact hother hold hb
  anchored := h.anchored ha

end Binds

/-- An interface put into the domain that it is meant for is where it is meant to be. -/
theorem place?_bound {i : Interface} (hi : r.interfaces.get? interface = some i)
    {domain : Option DomainId} (hdomain : domain = r.tree.id? i.policy)
    (client : Option DhcpClient) (id : InterfaceId) :
    (r.interfaces.modify interface (·.inDomain domain client)).place? id =
      (r.interfaces.place? id).map fun place =>
        (place.1, if id ∈ [interface] then r.tree.id? place.1 else place.2) := by
  rw [InterfaceTable.place?_inDomain]
  simp only [List.mem_singleton]
  by_cases hid : id = interface
  · subst hid
    rw [InterfaceTable.place?, hi, hdomain]
    simp
  · simp only [if_neg hid]

/-- An interface that is meant for a domain that is not there has opened no live link. -/
theorem Anchored.origin_ne (ha : r.Anchored) (h : r.tree.Sound) {i : Interface}
    (hi : r.interfaces.get? interface = some i) (hnone : r.tree.byName? i.policy = none) :
    ∀ link ∈ r.tree.liveLinks, link.origin ≠ interface := by
  rintro link hm rfl
  obtain ⟨domain, hp⟩ := ha link hm
  obtain ⟨i', hi', hpolicy, -⟩ := InterfaceTable.place?_eq_some.1 hp
  obtain rfl : i = i' := Option.some.inj (hi.symm.trans hi')
  obtain ⟨d, hd⟩ := h.exists_byName? hm .client
  rw [show (link.side .client).domain = i.policy from hpolicy.symm, hnone] at hd
  cases hd

/-- **Binding an interface ends no link.** -/
theorem binds_bind (h : r.tree.Sound) (ha : r.Anchored) (interface : InterfaceId) :
    r.Binds [interface] (r.bind interface).value := by
  have hbinding := r.binding_bind interface
  generalize (r.bind interface).value = r' at hbinding ⊢
  cases hbinding with
  | absent hi =>
    refine ⟨.refl h fun _ _ => id, rfl, fun id => ?_⟩
    simp only [List.mem_singleton]
    by_cases hid : id = interface
    · have hgone : r.interfaces.place? interface = none := by
        rw [InterfaceTable.place?, hi]
        rfl
      rw [hid, hgone]
      rfl
    · simp [hid]
  | placed hi hid hd =>
    refine ⟨?_, rfl, place?_bound hi hid.symm _⟩
    exact .of_core h (DomainTree.core_update fun _ _ => rfl)
      (DomainTree.liveLinks_update_eq fun _ _ => rfl)
  | homeless hi hid hd =>
    have hfree := ha.origin_ne h hi hd
    obtain ⟨tree, hvalue, hdis⟩ := release_spec (r := r.cleared interface) h interface
    rw [hvalue]
    refine ⟨hdis.congr fun l hl => iff_false_intro (hfree l hl), rfl, ?_⟩
    exact place?_bound hi hid.symm none

/-- **Binding a list of interfaces ends no link.** -/
theorem binds_bindAll (h : r.tree.Sound) (ha : r.Anchored) (interfaces : List InterfaceId) :
    r.Binds interfaces (bindAll interfaces r).value := by
  induction interfaces generalizing r with
  | nil => exact .refl h
  | cons interface rest ih =>
    have hfirst := binds_bind h ha interface
    exact hfirst.trans (ih hfirst.tree.sound (hfirst.anchored ha))

/-! ## Attaching -/

section

variable (r : Router) (domain : String)

/-- The id of the interface that is attached next. -/
def nextInterface : InterfaceId :=
  (r.interfaces.insert { policy := domain }).1

/-- The router with a new interface that is in no domain yet. -/
def withNewInterface : Router :=
  { r with interfaces := (r.interfaces.insert { policy := domain }).2 }

theorem get?_withNewInterface (id : InterfaceId) :
    (r.withNewInterface domain).interfaces.get? id =
      if id = r.nextInterface domain then some { policy := domain } else r.interfaces.get? id :=
  (r.interfaces.get?_insert { policy := domain }).2 id

theorem get?_nextInterface : r.interfaces.get? (r.nextInterface domain) = none :=
  (r.interfaces.get?_insert { policy := domain }).1

theorem place?_withNewInterface (id : InterfaceId) :
    (r.withNewInterface domain).interfaces.place? id =
      if id = r.nextInterface domain then some (domain, none) else r.interfaces.place? id := by
  rw [InterfaceTable.place?, get?_withNewInterface]
  split <;> rfl

theorem policy?_withNewInterface (id : InterfaceId) :
    (r.withNewInterface domain).interfaces.policy? id =
      if id = r.nextInterface domain then some domain else r.interfaces.policy? id := by
  rw [InterfaceTable.policy?, get?_withNewInterface]
  split <;> rfl

end

theorem Anchored.withNewInterface (h : r.Anchored) (domain : String) :
    (r.withNewInterface domain).Anchored := by
  intro link hm
  obtain ⟨d, hp⟩ := h link hm
  refine ⟨d, ?_⟩
  rw [place?_withNewInterface, if_neg fun he => ?_]
  · exact hp
  · rw [he, InterfaceTable.place?, get?_nextInterface] at hp
    cases hp

theorem Good.binds_attach (h : r.Good) (domain : String) :
    (r.withNewInterface domain).Binds [r.nextInterface domain] (r.attach domain).value.2 :=
  binds_bind (r := r.withNewInterface domain) h.sound (h.anchored.withNewInterface domain)
    (r.nextInterface domain)

/-- **A router with one interface more is good.** -/
theorem Good.attach (h : r.Good) (domain : String) : (r.attach domain).value.2.Good := by
  refine (h.binds_attach domain).good (h.anchored.withNewInterface domain) h.fresh
    fun {id policy d} hp hid => ?_
  rw [List.mem_singleton] at hid
  rw [place?_withNewInterface, if_neg hid] at hp
  exact h.settled hp

/-! ## Detaching -/

/-- A later router that has lost the links of an interface, which is in no domain any more. -/
structure Unbinds (r : Router) (interface : InterfaceId) (r' : Router) : Prop where
  tree : r.tree.Sheds r'.tree
  nextLink : r'.nextLink = r.nextLink
  origin : ∀ link ∈ r'.tree.liveLinks, link.origin ≠ interface
  place : ∀ id, r'.interfaces.place? id = (r.interfaces.place? id).map fun place =>
    (place.1, if id = interface then none else place.2)

theorem discardOrphaned_cases (r : Router) (id : DomainId) (d : Domain) :
    (r.discardOrphaned id d).value = r ∨ ∃ tree, d.source = .dhcp ∧
      (r.tree.setIpConfig id none).value = .ok tree ∧
      (r.discardOrphaned id d).value = r.withTree tree := by
  unfold discardOrphaned
  split
  · rename_i horphaned
    rw [Logged.value_bind, Logged.value_bind]
    cases hset : (r.tree.discardIpConfig id).value with
    | ok tree => exact .inr ⟨tree, horphaned.2.1, hset, rfl⟩
    | error e => exact .inl rfl
  · exact .inl rfl

/-- The router after an interface left its domain and what belonged to it was released. -/
def left (r : Router) (interface : InterfaceId) (id : DomainId) : Router :=
  let released := ((r.cleared interface).release interface).value
  released.withTree (released.tree.updateAt id (·.removeInterface interface))

/-- What becomes of an interface that is taken out of its domain, which loses addresses that were
leased through it if it was the last. -/
inductive Unbinding (r : Router) (interface : InterfaceId) : Router → Prop
  | outside (hid : r.domainId? interface = none) : Unbinding r interface (r.cleared interface)
  | inside {id : DomainId} (hid : r.domainId? interface = some id) :
      Unbinding r interface (r.left interface id)
  | orphaned {id : DomainId} {d : Domain} {tree : DomainTree}
      (hid : r.domainId? interface = some id)
      (hd : (r.left interface id).tree.get? id = some d) (hdhcp : d.source = .dhcp)
      (hset : ((r.left interface id).tree.setIpConfig id none).value = .ok tree) :
      Unbinding r interface ((r.left interface id).withTree tree)

theorem unbinding_unbind (r : Router) (interface : InterfaceId) :
    r.Unbinding interface (r.unbind interface).value := by
  unfold unbind
  cases hid : r.domainId? interface with
  | none => exact .outside hid
  | some id =>
    rw [Logged.value_bind]
    have hleft : ∀ d, (r.left interface id).tree.get? id = some d →
        r.Unbinding interface ((r.left interface id).discardOrphaned id d).value := by
      intro d hd
      rcases (r.left interface id).discardOrphaned_cases id d with
        hkept | ⟨tree, hdhcp, hset, hvalue⟩
      · rw [hkept]
        exact .inside hid
      · rw [hvalue]
        exact .orphaned hid hd hdhcp hset
    dsimp only
    split
    · rename_i d hd
      exact hleft d hd
    · exact .inside hid

/-- Unbinding an interface changes it in the table, and no other. -/
theorem interfaces_unbind (r : Router) (interface : InterfaceId) :
    (r.unbind interface).value.interfaces = (r.cleared interface).interfaces := by
  have hunbinding := r.unbinding_unbind interface
  generalize (r.unbind interface).value = r' at hunbinding ⊢
  cases hunbinding <;> rfl

theorem Good.unbinds_unbind (h : r.Good) (interface : InterfaceId) :
    r.Unbinds interface (r.unbind interface).value := by
  have hplace := r.interfaces.place?_inDomain interface
  have hunbinding := r.unbinding_unbind interface
  generalize (r.unbind interface).value = r' at hunbinding ⊢
  have hleft (id : DomainId) : r.tree.Sheds (r.left interface id).tree ∧
      ∀ link ∈ (r.left interface id).tree.liveLinks, link.origin ≠ interface := by
    obtain ⟨tree, hvalue, hdis⟩ := release_spec (r := r.cleared interface) h.sound interface
    have hremoved : tree.Sheds (tree.updateAt id (·.removeInterface interface)) :=
      .of_core hdis.sound (DomainTree.core_updateAt fun _ => rfl)
    unfold left
    rw [hvalue]
    refine ⟨(DomainTree.Sheds.of_dismisses hdis).trans hremoved, fun link hm => ?_⟩
    obtain ⟨l, hl, -, -, -, horigin⟩ := hremoved.exists_of_mem hm
    rw [← horigin]
    exact ((hdis.mem l).1 hl).2
  cases hunbinding with
  | outside hid =>
    refine ⟨.refl h.sound, rfl, ?_, fun id => hplace id none none⟩
    rintro link hm rfl
    obtain ⟨domain, hp⟩ := h.anchored link hm
    obtain ⟨i, hi, hpolicy, -⟩ := InterfaceTable.place?_eq_some.1 hp
    rw [h.domainId?_eq hi, hpolicy] at hid
    have hsome := r.tree.isSome_id? link.client.domain
    obtain ⟨d, hd⟩ := h.sound.exists_byName? hm .client
    rw [hid, show r.tree.byName? link.client.domain = some d from hd] at hsome
    cases hsome
  | @inside id hid =>
    exact ⟨(hleft id).1, rfl, (hleft id).2, fun id => hplace id none none⟩
  | @orphaned id d tree hid hd hdhcp hset =>
    have hsheds := (hleft id).1.sound.sheds_setIpConfig hset
    refine ⟨(hleft id).1.trans hsheds, rfl, fun link hm => ?_, fun id => hplace id none none⟩
    obtain ⟨l, hl, -, -, -, horigin⟩ := hsheds.exists_of_mem hm
    rw [← horigin]
    exact (hleft id).2 l hl

/-- A detached interface is out of its domain first and then out of the table. -/
theorem detach_eq_ok (hr : (r.detach interface).value = .ok r') :
    ∃ interfaces, r' = { (r.unbind interface).value with interfaces } ∧
      ∀ id, interfaces.get? id = if id = interface then none else r.interfaces.get? id := by
  have hinterfaces := r.interfaces_unbind interface
  unfold Router.detach at hr
  cases hi : r.interfaces.get? interface with
  | none =>
    rw [hi] at hr
    cases hr
  | some i =>
    rw [hi] at hr
    obtain ⟨unbound, hunbound⟩ : ∃ unbound, unbound = (r.unbind interface).value := ⟨_, rfl⟩
    rw [← hunbound] at hinterfaces
    have hget : ∀ id, unbound.interfaces.get? id =
        if id = interface then some (i.inDomain none none) else r.interfaces.get? id := by
      intro id
      rw [hinterfaces, cleared, InterfaceTable.get?_modify, hi, Option.map_some]
    obtain ⟨⟨i', interfaces⟩, hremove⟩ := Option.isSome_iff_exists.1
      (InterfaceTable.isSome_remove? ((hget interface).trans (if_pos rfl)))
    rw [Logged.value_bind, Logged.value_bind, ← hunbound, hremove] at hr
    refine ⟨interfaces, hunbound ▸ (Except.ok.inj hr).symm, fun id => ?_⟩
    rw [InterfaceTable.get?_remove? hremove]
    split
    · rfl
    · rename_i hid
      rw [hget, if_neg hid]

theorem policy?_detach (hr : (r.detach interface).value = .ok r') (id : InterfaceId) :
    r'.interfaces.policy? id = if id = interface then none else r.interfaces.policy? id := by
  obtain ⟨interfaces, rfl, hget⟩ := detach_eq_ok hr
  rw [InterfaceTable.policy?, hget]
  split <;> rfl

/-- **A router without one of its interfaces is good.** -/
theorem Good.detach (h : r.Good) (hr : (r.detach interface).value = .ok r') : r'.Good := by
  have hun := h.unbinds_unbind interface
  obtain ⟨interfaces, rfl, hget⟩ := detach_eq_ok hr
  have hplace : ∀ id, interfaces.place? id =
      if id = interface then none else r.interfaces.place? id := fun id => by
    rw [InterfaceTable.place?, hget]
    split <;> rfl
  constructor
  case sound => exact hun.tree.sound
  case fresh =>
    intro link hm
    obtain ⟨l, hl, hid, -⟩ := hun.tree.exists_of_mem hm
    refine Nat.lt_of_lt_of_eq ?_ hun.nextLink.symm
    rw [← hid]
    exact h.fresh l hl
  case settled =>
    intro id policy domain hp
    rw [hplace] at hp
    split at hp
    · cases hp
    · exact (h.settled hp).trans (DomainTree.id?_congr hun.tree.generation hun.tree.names _).symm
  case anchored =>
    intro link hm
    obtain ⟨l, hl, -, hclient, -, horigin⟩ := hun.tree.exists_of_mem hm
    obtain ⟨domain, hp⟩ := h.anchored l hl
    refine ⟨domain, (hplace _).trans ?_⟩
    rw [if_neg (hun.origin link hm), ← horigin, ← hclient]
    exact hp

end Router

end SegmentRouter
