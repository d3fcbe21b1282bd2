import SegmentRouter.Proofs.Link.Views

/-!
# Proofs/Link/Turnover — what entering and dismissing a link does to a tree

A new link takes its two seats and nothing else (`lookup?_insertLink?`); a dismissed one leaves them
(`lookup?_dismissed`).  Both ends may share one seat, which then is the server's, since that end is
entered first; so the two changes cannot be told one after the other without a case for it.
-/

namespace SegmentRouter

namespace DomainTree

variable {tree tree' : DomainTree} {link : Link} {owner : String} {id : Nat}

/-! ## Entering a link -/

theorem hasRoom_eq_true {s : Side} : tree.hasRoom link s = true ↔
    (tree.byName? (link.side s).domain).isSome ∧ tree.lookup? (link.seat s) = none := by
  unfold hasRoom lookup? Link.seat
  cases tree.byName? (link.side s).domain <;> simp

/-- The tree with the server's end of a link entered. -/
def withServerEnd (tree : DomainTree) (link : Link) : DomainTree :=
  tree.update link.server.domain (·.enterLink (link.key .server) (refOf link .server))

/-- The tree with a client's end of a link entered and the link held there. -/
def withClientEnd (tree : DomainTree) (link : Link) : DomainTree :=
  tree.update link.client.domain
    fun d => (d.enterLink (link.key .client) (refOf link .client)).ownLink link

/-- **A link is entered exactly if both of its seats exist and are free.** -/
theorem insertLink?_eq_some : tree.insertLink? link = some tree' ↔
    (∀ s, (tree.byName? (link.side s).domain).isSome ∧ tree.lookup? (link.seat s) = none) ∧
      tree' = (tree.withServerEnd link).withClientEnd link := by
  have hsides : (tree.hasRoom link .server && tree.hasRoom link .client) = true ↔
      ∀ s, (tree.byName? (link.side s).domain).isSome ∧ tree.lookup? (link.seat s) = none := by
    rw [Bool.and_eq_true, hasRoom_eq_true, hasRoom_eq_true]
    refine ⟨fun h s => ?_, fun h => ⟨h .server, h .client⟩⟩
    cases s
    · exact h.2
    · exact h.1
  rw [← hsides]
  unfold insertLink?
  split
  · rename_i h
    exact ⟨fun he => ⟨h, (Option.some.inj he).symm⟩, fun he => congrArg some he.2.symm⟩
  · rename_i h
    exact ⟨nofun, fun he => absurd he.1 h⟩

theorem isSome_byName?_withServerEnd (other : String) :
    ((tree.withServerEnd link).byName? other).isSome = (tree.byName? other).isSome :=
  isSome_byName?_update (f := (·.enterLink (link.key .server) (refOf link .server)))
    (fun _ h => h) other

theorem liveLinks_withServerEnd : (tree.withServerEnd link).liveLinks = tree.liveLinks :=
  liveLinks_update_eq (f := (·.enterLink (link.key .server) (refOf link .server)))
    fun d _ => d.owned_enterLink ..

theorem ownedLink?_withServerEnd (owner : String) (id : Nat) :
    (tree.withServerEnd link).ownedLink? owner id = tree.ownedLink? owner id :=
  ownedLink?_update_eq (f := (·.enterLink (link.key .server) (refOf link .server)))
    (fun _ h => h) (fun d _ => d.owned_enterLink ..) owner id

theorem lookup?_withServerEnd (hs : (tree.byName? link.server.domain).isSome)
    (hfree : tree.lookup? (link.seat .server) = none) (seat : Seat) :
    (tree.withServerEnd link).lookup? seat =
      if seat = link.seat .server then some (refOf link .server) else tree.lookup? seat := by
  have h := lookup?_update_at (f := (·.enterLink (link.key .server) (refOf link .server)))
    (g := fun r => some (r.getD (refOf link .server))) (fun _ h => h)
    (fun _ _ => LinkTable.lookup?_enter ..) hs seat
  rwa [show tree.lookup? ⟨link.server.domain, link.key .server⟩ = none from hfree] at h

theorem lookup?_withClientEnd (hc : (tree.byName? link.client.domain).isSome) (seat : Seat) :
    (tree.withClientEnd link).lookup? seat =
      if seat = link.seat .client then
        some ((tree.lookup? (link.seat .client)).getD (refOf link .client))
      else tree.lookup? seat :=
  lookup?_update_at (f := fun d => (d.enterLink (link.key .client) (refOf link .client)).ownLink
    link) (g := fun r => some (r.getD (refOf link .client))) (fun _ h => h)
    (fun _ _ => LinkTable.lookup?_enter ..) hc seat

section

variable (h : tree.insertLink? link = some tree')

include h

/-- **A new link takes its two seats and nothing else.** -/
theorem lookup?_insertLink? (seat : Seat) : tree'.lookup? seat =
    if link.SitsAt seat then some (link.refAt seat) else tree.lookup? seat := by
  obtain ⟨hroom, rfl⟩ := insertLink?_eq_some.1 h
  have hc : ((tree.withServerEnd link).byName? link.client.domain).isSome := by
    rw [isSome_byName?_withServerEnd]
    exact (hroom .client).1
  have hs := lookup?_withServerEnd (hroom .server).1 (hroom .server).2
  rw [lookup?_withClientEnd hc, hs, hs, (hroom .client).2]
  by_cases hss : seat = link.seat .server
  · have hsit : link.SitsAt seat := .inl hss
    rw [if_pos hsit, hss, link.refAt_server]
    split
    · rename_i hsc
      rw [if_pos hsc.symm]
      rfl
    · rw [if_pos rfl]
  · by_cases hsc : seat = link.seat .client
    · have hsit : link.SitsAt seat := .inr hsc
      rw [if_pos hsit, if_pos hsc, ← hsc, if_neg hss, Link.refAt_of_ne hss]
      rfl
    · have hsit : ¬ link.SitsAt seat := not_or.2 ⟨hss, hsc⟩
      rw [if_neg hsit, if_neg hsc, if_neg hss]

/-- A new link is held by its client's domain. -/
theorem ownedLink?_insertLink? (owner : String) (id : Nat) : tree'.ownedLink? owner id =
    if owner = link.client.domain ∧ id = link.id then some link
    else tree.ownedLink? owner id := by
  obtain ⟨hroom, rfl⟩ := insertLink?_eq_some.1 h
  have hc : ((tree.withServerEnd link).byName? link.client.domain).isSome := by
    rw [isSome_byName?_withServerEnd]
    exact (hroom .client).1
  have hs : (tree.withServerEnd link).ownedLink? owner id = tree.ownedLink? owner id :=
    ownedLink?_withServerEnd owner id
  rw [← hs]
  refine ownedLink?_update_at (f := fun d => (d.enterLink (link.key .client)
    (refOf link .client)).ownLink link) (fun _ h => h) (fun d k => ?_) hc owner id
  rw [Domain.owned_ownLink, SortedMap.get?_insert, Domain.owned_enterLink]

/-- **The live links are those before and the new one**, whose id must be free. -/
theorem liveLinks_insertLink? (hid : tree.ownedLink? link.client.domain link.id = none) :
    tree'.liveLinks.Perm (link :: tree.liveLinks) := by
  obtain ⟨hroom, rfl⟩ := insertLink?_eq_some.1 h
  have hc : ((tree.withServerEnd link).byName? link.client.domain).isSome := by
    rw [isSome_byName?_withServerEnd]
    exact (hroom .client).1
  obtain ⟨d, hd⟩ := Option.isSome_iff_exists.1 hc
  have hnone : d.links.owned.get? link.id = none := by
    have hget : (tree.withServerEnd link).ownedLink? link.client.domain link.id = none :=
      (ownedLink?_withServerEnd ..).trans hid
    rwa [ownedLink?, hd] at hget
  have hperm := SortedMap.values_insert_of_none link hnone
  have hs : (tree.withServerEnd link).liveLinks = tree.liveLinks := liveLinks_withServerEnd
  rw [← hs]
  refine liveLinks_update_perm (f := fun d => (d.enterLink (link.key .client)
    (refOf link .client)).ownLink link) [] [link] hd ?_
  rwa [Domain.owned_ownLink, Domain.owned_enterLink]

end

/-! ## Dismissing a link -/

/-- The tree without a link's end in the domain that holds it. -/
def withoutClientEnd (tree : DomainTree) (link : Link) : DomainTree :=
  tree.update link.client.domain (·.disownLink link)

/-- The tree without a link's end, and its port, in the server's domain. -/
def withoutServerEnd (tree : DomainTree) (link : Link) : DomainTree :=
  tree.update link.server.domain (·.releaseLink link)

/-- The tree without a link that its client's domain holds. -/
def dismissed (tree : DomainTree) (link : Link) : DomainTree :=
  (tree.withoutClientEnd link).withoutServerEnd link

theorem dismissLink_of_none (h : tree.ownedLink? owner id = none) :
    (tree.dismissLink owner id).value = (none, tree) := by
  rw [dismissLink, h]
  rfl

theorem dismissLink_of_some (h : tree.ownedLink? owner id = some link)
    (howner : link.client.domain = owner) :
    (tree.dismissLink owner id).value = (some link, tree.dismissed link) := by
  rw [dismissLink, h, ← howner]
  rfl

theorem isSome_byName?_of_ownedLink? (h : tree.ownedLink? owner id = some link) :
    (tree.byName? owner).isSome := by
  obtain ⟨d, hd, -⟩ := Option.bind_eq_some_iff.1 h
  rw [hd]
  rfl

theorem isSome_byName?_withoutClientEnd (other : String) :
    ((tree.withoutClientEnd link).byName? other).isSome = (tree.byName? other).isSome :=
  isSome_byName?_update (f := (·.disownLink link)) (fun _ h => h) other

section

variable (h : tree.ownedLink? link.client.domain link.id = some link)

include h

/-- **A dismissed link leaves its two seats**, provided it has them. -/
theorem lookup?_dismissed (hs : (tree.byName? link.server.domain).isSome)
    (hseat : ∀ seat, link.SitsAt seat → tree.lookup? seat = some (link.refAt seat))
    (seat : Seat) :
    (tree.dismissed link).lookup? seat = if link.SitsAt seat then none else tree.lookup? seat := by
  have hleave : ∀ s, (tree.lookup? (link.seat s)).filter (·.link ≠ link.id) = none := fun s => by
    rw [hseat _ (link.sitsAt_seat s), Option.filter_eq_none_iff]
    exact fun r hr => by simp [← Option.some.inj hr]
  have hc : ∀ seat, (tree.withoutClientEnd link).lookup? seat =
      if seat = link.seat .client then none else tree.lookup? seat := fun seat =>
    (lookup?_update_at (f := (·.disownLink link)) (g := Option.filter (·.link ≠ link.id))
      (fun _ h => h) (fun d k => LinkTable.lookup?_leave (d.links.disown link.id) ..)
      (isSome_byName?_of_ownedLink? h) seat).trans (by rw [← hleave .client]; rfl)
  have hsc : ((tree.withoutClientEnd link).byName? link.server.domain).isSome := by
    rwa [isSome_byName?_withoutClientEnd]
  have hgone : ((tree.withoutClientEnd link).lookup? (link.seat .server)).filter
      (·.link ≠ link.id) = none := by
    rw [hc]
    split
    · rfl
    · exact hleave .server
  have hss : (tree.dismissed link).lookup? seat =
      if seat = link.seat .server then none else (tree.withoutClientEnd link).lookup? seat :=
    (lookup?_update_at (f := (·.releaseLink link)) (g := Option.filter (·.link ≠ link.id))
      (fun d h => (d.name_releaseLink link).trans h)
      (fun d k => by rw [Domain.links_releaseLink]; exact LinkTable.lookup?_leave ..)
      hsc seat).trans (by rw [← hgone]; rfl)
  rw [hss, hc]
  by_cases h₁ : seat = link.seat .server
  · have hsit : link.SitsAt seat := .inl h₁
    rw [if_pos h₁, if_pos hsit]
  · by_cases h₂ : seat = link.seat .client
    · have hsit : link.SitsAt seat := .inr h₂
      rw [if_neg h₁, if_pos h₂, if_pos hsit]
    · have hsit : ¬ link.SitsAt seat := not_or.2 ⟨h₁, h₂⟩
      rw [if_neg h₁, if_neg h₂, if_neg hsit]

theorem ownedLink?_dismissed (owner : String) (id : Nat) :
    (tree.dismissed link).ownedLink? owner id =
      if owner = link.client.domain ∧ id = link.id then none else tree.ownedLink? owner id := by
  have hs : (tree.dismissed link).ownedLink? owner id
      = (tree.withoutClientEnd link).ownedLink? owner id :=
    ownedLink?_update_eq (f := (·.releaseLink link))
      (fun d h => (d.name_releaseLink link).trans h) (fun d _ => d.owned_releaseLink link) owner id
  refine hs.trans (ownedLink?_update_at (f := (·.disownLink link)) (fun _ h => h)
    (fun d k => ?_) (isSome_byName?_of_ownedLink? h) owner id)
  rw [Domain.owned_disownLink, SortedMap.get?_erase]

/-- **The live links before are those after and the dismissed one.** -/
theorem liveLinks_dismissed : tree.liveLinks.Perm (link :: (tree.dismissed link).liveLinks) := by
  have hs : (tree.dismissed link).liveLinks = (tree.withoutClientEnd link).liveLinks :=
    liveLinks_update_eq (f := (·.releaseLink link)) fun d _ => d.owned_releaseLink link
  obtain ⟨d, hd, hget⟩ := Option.bind_eq_some_iff.1 h
  have hperm : (link :: (d.disownLink link).links.owned.values).Perm d.links.owned.values := by
    rw [Domain.owned_disownLink]
    exact (SortedMap.values_erase hget).symm
  rw [hs]
  exact (liveLinks_update_perm (f := (·.disownLink link)) [link] [] hd hperm).symm

end

end DomainTree

end SegmentRouter
