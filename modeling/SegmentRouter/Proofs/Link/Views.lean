import SegmentRouter.Link.Registry
import SegmentRouter.Proofs.Domain.Names
import SegmentRouter.Proofs.SortedMap.Entries

/-!
# Proofs/Link/Views — the links of a tree, seen in three ways

The links of a tree are its live links as one list, the link that a domain holds under an id
(`DomainTree.ownedLink?`), and the index, asked at a *seat* — a domain and the flow of packets that
arrive there.  A change of one domain moves each view in one place: at one seat
(`lookup?_update_at`), under one id (`ownedLink?_update_at`), and in the list by what that domain's
own links gain or lose (`liveLinks_update_perm`).
-/

namespace SegmentRouter

/-- A place in the index of links. -/
structure Seat where
  domain : String
  key : FlowKey
deriving DecidableEq

namespace Link

/-- The seat of an end. -/
def seat (link : Link) (s : Side) : Seat :=
  ⟨(link.side s).domain, link.key s⟩

/-- Whether one of the ends has a seat. -/
def SitsAt (link : Link) (seat : Seat) : Prop :=
  seat = link.seat .server ∨ seat = link.seat .client

instance (link : Link) (seat : Seat) : Decidable (link.SitsAt seat) :=
  inferInstanceAs (Decidable (_ ∨ _))

/-- What is entered at the seat of an end; the server's end is entered first. -/
def refAt (link : Link) (seat : Seat) : LinkRef :=
  DomainTree.refOf link (if seat = link.seat .server then .server else .client)

@[simp] theorem link_refAt (link : Link) (seat : Seat) : (link.refAt seat).link = link.id := rfl

theorem sitsAt_seat (link : Link) (s : Side) : link.SitsAt (link.seat s) := by
  cases s
  · exact .inr rfl
  · exact .inl rfl

theorem refAt_server (link : Link) :
    link.refAt (link.seat .server) = DomainTree.refOf link .server := by
  rw [refAt, if_pos rfl]

theorem refAt_of_ne {link : Link} {seat : Seat} (h : seat ≠ link.seat .server) :
    link.refAt seat = DomainTree.refOf link .client := by
  rw [refAt, if_neg h]

/-- The entry at a seat names the end that sits there. -/
theorem seat_side_refAt {link : Link} {seat : Seat} (h : link.SitsAt seat) :
    link.seat (link.refAt seat).side = seat := by
  by_cases hs : seat = link.seat .server
  · rw [hs, refAt_server]
    rfl
  · rw [refAt_of_ne hs, h.resolve_left hs]
    rfl

end Link

/-! ## One table -/

namespace LinkTable

variable (table : LinkTable) (key k : FlowKey) (ref : LinkRef) (id : Nat)

theorem lookup?_enter : (table.enter key ref).lookup? k =
    if k = key then some ((table.lookup? key).getD ref) else table.lookup? k := by
  unfold enter
  split
  · rename_i h
    obtain ⟨r, hr⟩ := Option.isSome_iff_exists.1 h
    by_cases hk : k = key <;> simp [hk, lookup?, hr]
  · rename_i h
    have hn : table.index.get? key = none := by simpa [SortedMap.contains] using h
    by_cases hk : k = key <;> simp [hk, lookup?, hn]

theorem owned_enter : (table.enter key ref).owned = table.owned := by
  unfold enter
  split <;> rfl

theorem lookup?_leave : (table.leave key id).lookup? k =
    if k = key then (table.lookup? key).filter (·.link ≠ id) else table.lookup? k := by
  unfold leave
  cases h : table.index.get? key with
  | none => by_cases hk : k = key <;> simp [hk, lookup?, h]
  | some r =>
    by_cases hid : r.link = id
    · by_cases hk : k = key <;> simp [hk, hid, lookup?, h, Option.filter]
    · by_cases hk : k = key <;> simp [hk, hid, lookup?, h, Option.filter]

theorem owned_leave : (table.leave key id).owned = table.owned := by
  unfold leave
  split
  · split <;> rfl
  · rfl

end LinkTable

/-! ## One domain -/

namespace Domain

variable (d : Domain) (key : FlowKey) (ref : LinkRef) (id : Nat) (link : Link) (client : String)
  (p : Wire.Protocol) (port : UInt16)

theorem owned_enterLink : (d.enterLink key ref).links.owned = d.links.owned :=
  d.links.owned_enter key ref

theorem owned_ownLink : (d.ownLink link).links.owned = d.links.owned.insert link.id link := rfl

theorem owned_disownLink : (d.disownLink link).links.owned = d.links.owned.erase link.id :=
  (d.links.disown link.id).owned_leave ..

@[simp] theorem name_freePort : (d.freePort client p port).name = d.name := by
  unfold freePort
  split <;> rfl

@[simp] theorem links_freePort : (d.freePort client p port).links = d.links := by
  unfold freePort
  split <;> rfl

@[simp] theorem name_releaseLink : (d.releaseLink link).name = d.name := by
  unfold releaseLink
  split
  · exact name_freePort ..
  · rfl

@[simp] theorem links_releaseLink :
    (d.releaseLink link).links = d.links.leave (link.key .server) link.id := by
  unfold releaseLink
  split
  · exact links_freePort ..
  · rfl

theorem owned_releaseLink : (d.releaseLink link).links.owned = d.links.owned := by
  rw [links_releaseLink, LinkTable.owned_leave]

end Domain

/-! ## Views of a tree -/

namespace DomainTree

variable {tree tree' : DomainTree} {name owner : String} {d : Domain} {f : Domain → Domain}
  {link : Link} {id : Nat} {seat : Seat}

/-- The links of all domains. -/
def liveLinks (tree : DomainTree) : List Link :=
  tree.domains.flatMap (·.links.owned.values)

/-- What the index has at a seat. -/
def lookup? (tree : DomainTree) (seat : Seat) : Option LinkRef :=
  (tree.byName? seat.domain).bind (·.links.lookup? seat.key)

theorem mem_liveLinks : link ∈ tree.liveLinks ↔
    ∃ d ∈ tree.domains, ∃ id, d.links.owned.get? id = some link := by
  simp [liveLinks, SortedMap.mem_values_iff]

theorem Distinct.mem_liveLinks (hd : tree.Distinct) : link ∈ tree.liveLinks ↔
    ∃ owner id, tree.ownedLink? owner id = some link := by
  simp only [DomainTree.mem_liveLinks, ownedLink?, Option.bind_eq_some_iff]
  constructor
  · rintro ⟨d, hmem, id, h⟩
    exact ⟨d.name, id, d, hd.byName?_of_mem hmem, h⟩
  · rintro ⟨_, id, d, hby, h⟩
    exact ⟨d, mem_of_byName? hby, id, h⟩

section

variable (hf : ∀ d, d.name = name → (f d).name = name)

include hf

theorem ownedLink?_update (owner : String) (id : Nat) : (tree.update name f).ownedLink? owner id =
    if owner = name then (tree.byName? name).bind (fun d => (f d).links.owned.get? id)
    else tree.ownedLink? owner id := by
  rw [ownedLink?, byName?_update _ _ _ hf]
  split
  · rw [Option.bind_map]
    rfl
  · rfl

theorem lookup?_update (seat : Seat) : (tree.update name f).lookup? seat =
    if seat.domain = name then (tree.byName? name).bind (fun d => (f d).links.lookup? seat.key)
    else tree.lookup? seat := by
  rw [lookup?, byName?_update _ _ _ hf]
  split
  · rw [Option.bind_map]
    rfl
  · rfl

/-- A change of what one table has for one flow is a change at one seat. -/
theorem lookup?_update_at {key : FlowKey} {g : Option LinkRef → Option LinkRef}
    (hlinks : ∀ d k, (f d).links.lookup? k =
      if k = key then g (d.links.lookup? key) else d.links.lookup? k)
    (hd : (tree.byName? name).isSome) (seat : Seat) :
    (tree.update name f).lookup? seat =
      if seat = ⟨name, key⟩ then g (tree.lookup? ⟨name, key⟩) else tree.lookup? seat := by
  obtain ⟨d, hd⟩ := Option.isSome_iff_exists.1 hd
  obtain ⟨domain, k⟩ := seat
  rw [lookup?_update hf]
  by_cases hn : domain = name
  · subst hn
    by_cases hk : k = key <;> simp [lookup?, hd, hlinks, hk]
  · simp [hn]

/-- A change of what one domain holds under one id. -/
theorem ownedLink?_update_at {key : Nat} {g : Option Link}
    (howned : ∀ d k, (f d).links.owned.get? k = if k = key then g else d.links.owned.get? k)
    (hd : (tree.byName? name).isSome) (owner : String) (id : Nat) :
    (tree.update name f).ownedLink? owner id =
      if owner = name ∧ id = key then g else tree.ownedLink? owner id := by
  obtain ⟨d, hd⟩ := Option.isSome_iff_exists.1 hd
  rw [ownedLink?_update hf]
  by_cases hn : owner = name
  · subst hn
    by_cases hk : id = key <;> simp [ownedLink?, hd, howned, hk]
  · simp [hn]

theorem ownedLink?_update_eq
    (howned : ∀ d, tree.byName? name = some d → (f d).links.owned = d.links.owned)
    (owner : String) (id : Nat) :
    (tree.update name f).ownedLink? owner id = tree.ownedLink? owner id := by
  rw [ownedLink?_update hf]
  split
  · rename_i h
    rw [ownedLink?, h]
    exact Option.bind_congr fun d hd => by rw [howned d hd]
  · rfl

theorem lookup?_update_eq (hlinks : ∀ d, tree.byName? name = some d → (f d).links = d.links)
    (seat : Seat) : (tree.update name f).lookup? seat = tree.lookup? seat := by
  rw [lookup?_update hf]
  split
  · rename_i h
    rw [lookup?, h]
    exact Option.bind_congr fun d hd => by rw [hlinks d hd]
  · rfl

theorem isSome_byName?_update (other : String) :
    ((tree.update name f).byName? other).isSome = (tree.byName? other).isSome := by
  rw [byName?_update _ _ _ hf]
  split
  · rename_i h
    rw [h, Option.isSome_map]
  · rfl

end

/-- **What one domain's links gain or lose, the tree's do.** -/
theorem liveLinks_update_perm (xs ys : List Link) (hd : tree.byName? name = some d)
    (h : (xs ++ (f d).links.owned.values).Perm (ys ++ d.links.owned.values)) :
    (xs ++ (tree.update name f).liveLinks).Perm (ys ++ tree.liveLinks) := by
  obtain ⟨pre, post, hds, hc⟩ := changeByName_eq_append hd
  have hsplit : ∀ (zs : List Link) (e : Domain),
      (zs ++ (pre ++ e :: post).flatMap (·.links.owned.values)).Perm
        ((zs ++ e.links.owned.values) ++
          (pre.flatMap (·.links.owned.values) ++ post.flatMap (·.links.owned.values))) := by
    intro zs e
    rw [List.flatMap_append, List.flatMap_cons, List.append_assoc zs]
    refine List.Perm.append_left zs ?_
    rw [← List.append_assoc, ← List.append_assoc]
    exact List.perm_append_comm.append_right _
  rw [liveLinks, liveLinks, update, hc, hds]
  exact (hsplit xs (f d)).trans ((h.append_right _).trans (hsplit ys d).symm)

theorem liveLinks_update_eq
    (howned : ∀ d, tree.byName? name = some d → (f d).links.owned = d.links.owned) :
    (tree.update name f).liveLinks = tree.liveLinks := by
  cases hd : tree.byName? name with
  | none => rw [update_of_none hd]
  | some d =>
    obtain ⟨pre, post, hds, hc⟩ := changeByName_eq_append hd
    rw [liveLinks, liveLinks, update, hc, hds, List.flatMap_append, List.flatMap_append,
      List.flatMap_cons, List.flatMap_cons, howned d hd]

end DomainTree

end SegmentRouter
