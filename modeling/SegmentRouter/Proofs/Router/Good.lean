import SegmentRouter.Proofs.Interface.Handles
import SegmentRouter.Proofs.Tree.Supply
import SegmentRouter.Router.Basic

/-!
# Proofs/Router/Good — what holds of a router at any time

A router is good if its tree is sound, link ids are still ahead, every interface is in the domain
that it is meant for, and every link came from an interface that is meant for the link's client
domain.  The last is what makes the end of an interface the end of its links, and only of these.
-/

namespace SegmentRouter

/-! ## Places of interfaces -/

namespace InterfaceTable

/-- What an interface is meant for and the handle of the domain that it is in. -/
def place? (t : InterfaceTable) (id : InterfaceId) : Option (String × Option DomainId) :=
  (t.get? id).map fun i => (i.policy, i.domain)

theorem place?_eq_some {t : InterfaceTable} {id : InterfaceId} {policy : String}
    {domain : Option DomainId} : t.place? id = some (policy, domain) ↔
      ∃ i, t.get? id = some i ∧ i.policy = policy ∧ i.domain = domain := by
  rw [place?, Option.map_eq_some_iff]
  simp only [Prod.mk.injEq]

/-- What an interface is meant for. -/
def policy? (t : InterfaceTable) (id : InterfaceId) : Option String :=
  (t.get? id).map (·.policy)

theorem policy?_of_place? {t t' : InterfaceTable} {id : InterfaceId}
    (h : t'.place? id = t.place? id) : t'.policy? id = t.policy? id := by
  have hmap : ∀ t : InterfaceTable, t.policy? id = (t.place? id).map (·.1) := fun t => by
    rw [place?, Option.map_map]
    rfl
  rw [hmap, h, hmap]

theorem policy?_of_get? {t : InterfaceTable} {id : InterfaceId} {i : Interface}
    (h : t.get? id = some i) : t.policy? id = some i.policy := by
  rw [policy?, h, Option.map_some]

theorem mem_ids_of_policy? {t : InterfaceTable} {id : InterfaceId} (h : (t.policy? id).isSome) :
    id ∈ t.ids := by
  rw [policy?, Option.isSome_map] at h
  obtain ⟨i, hi⟩ := Option.isSome_iff_exists.1 h
  exact mem_ids hi

/-- A change of an interface that is still meant for the same domain. -/
theorem policy?_modify (t : InterfaceTable) (id : InterfaceId) {f : Interface → Interface}
    (hf : ∀ i, (f i).policy = i.policy) (j : InterfaceId) :
    (t.modify id f).policy? j = t.policy? j := by
  rw [policy?, get?_modify, policy?]
  split
  · rename_i hj
    rw [hj, Option.map_map]
    exact congrArg (Option.map · (t.get? id)) (funext hf)
  · rfl

/-- A change that keeps each interface in its place. -/
theorem place?_modify (t : InterfaceTable) (id : InterfaceId) {f : Interface → Interface}
    (hp : ∀ i, (f i).policy = i.policy) (hd : ∀ i, (f i).domain = i.domain) (j : InterfaceId) :
    (t.modify id f).place? j = t.place? j := by
  rw [place?, get?_modify, place?]
  split
  · rename_i hj
    rw [hj, Option.map_map]
    exact congrArg (Option.map · (t.get? id)) (funext fun i => Prod.ext (hp i) (hd i))
  · rfl

end InterfaceTable

namespace Router

variable {r r' r'' : Router}

@[simp] theorem tree_withTree (r : Router) (tree : DomainTree) :
    (r.withTree tree).tree = tree := rfl

/-- Every link came from an interface that is meant for the link's client domain. -/
def Anchored (r : Router) : Prop :=
  ∀ link ∈ r.tree.liveLinks,
    ∃ domain, r.interfaces.place? link.origin = some (link.client.domain, domain)

/-- The tree is sound, and links and interfaces are where they belong. -/
structure Good (r : Router) : Prop where
  sound : r.tree.Sound
  fresh : ∀ link ∈ r.tree.liveLinks, link.id < r.nextLink
  settled : ∀ {id policy domain}, r.interfaces.place? id = some (policy, domain) →
    domain = r.tree.id? policy
  anchored : r.Anchored

/-- A later router with the same interfaces, sound too, with no link that was not there before. -/
structure Sheds (r r' : Router) : Prop where
  tree : r.tree.Sheds r'.tree
  nextLink : r'.nextLink = r.nextLink
  places : ∀ id, r'.interfaces.place? id = r.interfaces.place? id

namespace Sheds

theorem trans (h : r.Sheds r') (h' : r'.Sheds r'') : r.Sheds r'' where
  tree := h.tree.trans h'.tree
  nextLink := h'.nextLink.trans h.nextLink
  places id := (h'.places id).trans (h.places id)

theorem withTree {tree : DomainTree} (ht : r.tree.Sheds tree) : r.Sheds (r.withTree tree) :=
  ⟨ht, rfl, fun _ => rfl⟩

/-- **A router that only sheds links stays good.** -/
theorem good (hs : r.Sheds r') (h : r.Good) : r'.Good where
  sound := hs.tree.sound
  fresh link hm := by
    obtain ⟨l, hl, hid, -⟩ := hs.tree.exists_of_mem hm
    rw [hs.nextLink, ← hid]
    exact h.fresh l hl
  settled {id policy domain} hp := by
    rw [hs.places] at hp
    rw [DomainTree.id?_congr hs.tree.generation hs.tree.names]
    exact h.settled hp
  anchored link hm := by
    obtain ⟨l, hl, -, hclient, -, horigin⟩ := hs.tree.exists_of_mem hm
    rw [hs.places, ← horigin, ← hclient]
    exact h.anchored l hl

end Sheds

namespace Good

variable (h : r.Good)

include h

theorem sheds_refl : r.Sheds r :=
  ⟨.refl h.sound, rfl, fun _ => rfl⟩

theorem sheds_of_core {tree : DomainTree} (ht : tree.core = r.tree.core) :
    r.Sheds (r.withTree tree) :=
  .withTree (.of_core h.sound ht)

theorem domainId?_eq {id : InterfaceId} {i : Interface} (hi : r.interfaces.get? id = some i) :
    r.domainId? id = r.tree.id? i.policy := by
  rw [domainId?, hi, Option.bind_some]
  exact h.settled (InterfaceTable.place?_eq_some.2 ⟨i, hi, rfl, rfl⟩)

/-- An interface is in the domain that it is meant for. -/
theorem domainOf?_eq {id : InterfaceId} {i : Interface} (hi : r.interfaces.get? id = some i) :
    r.domainOf? id = r.tree.byName? i.policy := by
  have hsome := r.tree.isSome_id? i.policy
  rw [domainOf?, h.domainId?_eq hi]
  cases hid : r.tree.id? i.policy with
  | some domain => exact DomainTree.get?_of_id? hid
  | none =>
    rw [hid] at hsome
    exact (Option.not_isSome_iff_eq_none.1 (hsome ▸ Bool.false_ne_true)).symm

/-- The domain that an interface is in is the one that it is meant for. -/
theorem byName?_of_domainId? {id : InterfaceId} {domain : DomainId} {d : Domain}
    (hid : r.domainId? id = some domain) (hd : r.tree.get? domain = some d) :
    r.tree.byName? d.name = some d ∧ r.interfaces.place? id = some (d.name, some domain) := by
  obtain ⟨i, hi, hdom⟩ := Option.bind_eq_some_iff.1 hid
  have hplace : r.interfaces.place? id = some (i.policy, some domain) :=
    InterfaceTable.place?_eq_some.2 ⟨i, hi, rfl, hdom⟩
  have hby : r.tree.byName? i.policy = some d := by
    rw [← DomainTree.get?_of_id? (h.settled hplace).symm]
    exact hd
  rw [DomainTree.name_of_byName? hby]
  exact ⟨hby, hplace⟩

/-! ## Counters -/

theorem sheds_change (id : InterfaceId) {f : Interface → Interface} {g : Domain → Domain}
    (hp : ∀ i, (f i).policy = i.policy) (hd : ∀ i, (f i).domain = i.domain)
    (hg : ∀ d, (g d).core = d.core) : r.Sheds (r.change id f g) := by
  unfold change
  split
  · exact h.sheds_refl
  · refine ⟨?_, rfl, r.interfaces.place?_modify id hp hd⟩
    split
    · exact .of_core h.sound (DomainTree.core_updateAt hg)
    · exact .refl h.sound

theorem sheds_countReceived (id : InterfaceId) (n : Nat) : r.Sheds (r.countReceived id n) :=
  h.sheds_change id (fun _ => rfl) (fun _ => rfl) fun _ => rfl

theorem sheds_countSent (t : Transmit) : r.Sheds (r.countSent t) :=
  h.sheds_change t.interface (fun _ => rfl) (fun _ => rfl) fun _ => rfl

theorem countAllSent (sent : List Transmit) : (r.countAllSent sent).Good := by
  induction sent generalizing r with
  | nil => exact h
  | cons t rest ih => exact ih ((h.sheds_countSent t).good h)

end Good

end Router

end SegmentRouter
