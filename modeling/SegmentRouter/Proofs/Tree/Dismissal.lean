import SegmentRouter.Proofs.Link.Turnover
import SegmentRouter.Proofs.Tree.Sound

/-!
# Proofs/Tree/Dismissal — links that end

A link that ends leaves its seats and gives its port back, so the tree is sound without it
(`Sound.dismisses_dismissed`).  Every way to end links dismisses a list of them one after the other;
what is left is told by which links are gone (`DomainTree.Dismisses`): those with an end in a
domain, those that an interface opened, those without traffic for too long.
-/

namespace SegmentRouter

open Wire (Protocol)

namespace Domain.Accounts

variable {d d' : Domain} {live : List Link}

/-- Only pools and shares count. -/
theorem congr (h : d.Accounts live) (hname : d'.name = d.name) (hpools : d'.pools = d.pools)
    (hnat : d'.nat = d.nat) : d'.Accounts live := by
  refine ⟨hpools ▸ h.next, ?_, ?_, hnat ▸ h.bounded, ?_⟩
  · rw [hpools, hname]
    exact h.taken
  · rw [hnat, hname]
    exact h.used
  · rw [hpools]
    unfold Domain.usedPorts
    rw [hnat]
    exact h.inUse

theorem of_bare (h : d.Accounts live) (hd : d'.bare = d.bare) : d'.Accounts live :=
  h.congr (congrArg Domain.name hd :) (congrArg Domain.pools hd :) (congrArg Domain.nat hd :)

end Domain.Accounts

namespace DomainTree

variable {tree tree' tree'' : DomainTree} {link : Link} {name : String}

/-- A later tree of the same domains has lost exactly the links of a kind. -/
structure Dismisses (tree : DomainTree) (gone : Link → Prop) (tree' : DomainTree) : Prop where
  sound : tree'.Sound
  generation : tree'.generation = tree.generation
  policies : tree'.policies = tree.policies
  mem : ∀ link, link ∈ tree'.liveLinks ↔ link ∈ tree.liveLinks ∧ ¬ gone link

namespace Dismisses

variable {gone gone' : Link → Prop}

theorem refl (h : tree.Sound) (hgone : ∀ link ∈ tree.liveLinks, ¬ gone link) :
    tree.Dismisses gone tree where
  sound := h
  generation := rfl
  policies := rfl
  mem link := ⟨fun hm => ⟨hm, hgone link hm⟩, And.left⟩

theorem trans (h : tree.Dismisses gone tree') (h' : tree'.Dismisses gone' tree'') :
    tree.Dismisses (fun link => gone link ∨ gone' link) tree'' where
  sound := h'.sound
  generation := h'.generation.trans h.generation
  policies := h'.policies.trans h.policies
  mem link := by rw [h'.mem, h.mem, not_or, and_assoc]

/-- Nothing happens to links when the core and the links themselves stay. -/
theorem of_core (h : tree.Sound) (hc : tree'.core = tree.core)
    (hlive : tree'.liveLinks = tree.liveLinks) : tree.Dismisses (fun _ => False) tree' where
  sound := h.of_core hc
  generation := generation_of_core hc
  policies := policies_of_core hc
  mem link := by
    rw [hlive]
    exact ⟨fun hm => ⟨hm, id⟩, And.left⟩

/-- Only the links that there were matter. -/
theorem congr (h : tree.Dismisses gone tree')
    (hgone : ∀ link ∈ tree.liveLinks, gone link ↔ gone' link) : tree.Dismisses gone' tree' where
  sound := h.sound
  generation := h.generation
  policies := h.policies
  mem link := by
    rw [h.mem]
    exact and_congr_right fun hm => not_congr (hgone link hm)

end Dismisses

/-! ## One link -/

theorem unlinked_dismissed (tree : DomainTree) (link : Link) :
    (tree.dismissed link).unlinked = tree.unlinked :=
  (unlinked_update (f := (·.releaseLink link)) fun d _ => d.unlinked_releaseLink link).trans
    (unlinked_update (f := (·.disownLink link)) fun _ _ => rfl)

namespace Sound

variable (h : tree.Sound) (hm : link ∈ tree.liveLinks)

include h hm

theorem mem_dismissed (l : Link) :
    l ∈ (tree.dismissed link).liveLinks ↔ l ∈ tree.liveLinks ∧ l ≠ link := by
  have hperm := liveLinks_dismissed (h.ownedLink?_of_mem hm)
  have hnd : (link :: (tree.dismissed link).liveLinks).Nodup :=
    hperm.nodup_iff.1 h.nodup_liveLinks
  rw [hperm.mem_iff, List.mem_cons]
  refine ⟨fun hl => ⟨.inr hl, ?_⟩, fun ⟨hl, hne⟩ => hl.resolve_left hne⟩
  rintro rfl
  exact (List.nodup_cons.1 hnd).1 hl

omit h hm in
theorem policies_dismissed : (tree.dismissed link).policies = tree.policies :=
  policies_of_unlinked (unlinked_dismissed ..)

/-- The port of a dismissed link is given back, and no other. -/
theorem accounts_dismissed {d' : Domain} (hd' : (tree.dismissed link).byName? name = some d') :
    d'.Accounts (tree.dismissed link).liveLinks := by
  have hperm := liveLinks_dismissed (h.ownedLink?_of_mem hm)
  have hone : ∀ {n : String} {port : UInt16}, link.Holds n link.protocol port →
      ∀ l ∈ (tree.dismissed link).liveLinks, ¬ l.Holds n link.protocol port := by
    intro n port hh l hl hhl
    obtain ⟨hlive, hne⟩ := (h.mem_dismissed hm l).1 hl
    exact hne (h.apart hlive hm hhl hh)
  have hbare : ∀ {other d'}, (tree.withoutClientEnd link).byName? other = some d' →
      ∃ d, tree.byName? other = some d ∧ d'.bare = d.bare :=
    exists_byName?_of_update fun _ => rfl
  rw [dismissed, withoutServerEnd,
    byName?_update _ _ _ fun d hd => (d.name_releaseLink link).trans hd] at hd'
  split at hd'
  · rename_i hname
    obtain ⟨d₁, hd₁, rfl⟩ := Option.map_eq_some_iff.1 hd'
    obtain ⟨d, hd, hb⟩ := hbare hd₁
    have hserver : link.server.domain = d.name := (name_of_byName? hd).symm
    have hacc := (h.accounts hd).perm hperm
    unfold Domain.releaseLink
    cases hport : link.natPort with
    | none =>
      refine ((Domain.Accounts.cons_iff fun p port hh => ?_).1 hacc).of_bare hb
      rw [Link.Holds, hport] at hh
      cases hh.2.2
    | some port =>
      obtain ⟨s, hs, routerIp, -, htr, -⟩ := (h.upholds link hm).server
      obtain rfl : s = d := Option.some.inj (hs.symm.trans hd)
      rw [hport] at htr
      obtain ⟨rule, hrule⟩ := Option.isSome_iff_exists.1 htr.symm
      refine (hacc.release hserver hport hrule (hone ⟨hserver, rfl, hport⟩)).of_bare ?_
      rw [Domain.bare_freePort, Domain.bare_freePort]
      exact congrArg (·.freePort link.client.domain link.protocol port) hb
  · rename_i hname
    obtain ⟨d, hd, hb⟩ := hbare hd'
    refine ((Domain.Accounts.cons_iff fun p port hh => ?_).1
      ((h.accounts hd).perm hperm)).of_bare hb
    exact hname ((name_of_byName? hd).symm.trans hh.1.symm)

/-- **A tree without one of its links is sound.** -/
theorem sound_dismissed : (tree.dismissed link).Sound := by
  have hown := h.ownedLink?_of_mem hm
  have hmem := h.mem_dismissed hm
  have hnames : (tree.dismissed link).names = tree.names :=
    names_of_bases (bases_of_policies policies_dismissed)
  have hserver : (tree.byName? link.server.domain).isSome :=
    Option.isSome_iff_exists.2 (h.exists_byName? hm .server)
  have hlookup := lookup?_dismissed hown hserver fun seat hs => h.lookup?_of_sitsAt hm hs
  constructor
  case distinct =>
    rw [Distinct, hnames]
    exact h.distinct
  case held =>
    intro owner id l hl
    rw [ownedLink?_dismissed hown] at hl
    split at hl
    · cases hl
    · exact h.held hl
  case ids =>
    have hids := ((liveLinks_dismissed hown).map Link.id).nodup_iff.1 h.ids
    exact (List.nodup_cons.1 hids).2
  case index =>
    intro seat ref
    rw [hlookup]
    constructor
    · intro href
      split at href
      · cases href
      · rename_i hsit
        obtain ⟨l, hl, hs, hr⟩ := (h.index ..).1 href
        exact ⟨l, (hmem l).2 ⟨hl, fun he => hsit (he ▸ hs)⟩, hs, hr⟩
    · rintro ⟨l, hl, hs, rfl⟩
      obtain ⟨hlive, hne⟩ := (hmem l).1 hl
      rw [if_neg fun hsit => hne (h.eq_of_sitsAt hlive hm hs hsit)]
      exact h.lookup?_of_sitsAt hlive hs
  case accounts => exact fun hd' => h.accounts_dismissed hm hd'
  case apart =>
    intro a b name p port ha hb
    exact h.apart ((hmem a).1 ha).1 ((hmem b).1 hb).1
  case upholds =>
    intro l hl
    exact (h.upholds l ((hmem l).1 hl).1).of_policies policies_dismissed
  case formed => exact fun l hl => h.formed l ((hmem l).1 hl).1

theorem dismisses_dismissed : tree.Dismisses (· = link) (tree.dismissed link) where
  sound := h.sound_dismissed hm
  generation := rfl
  policies := policies_dismissed
  mem := h.mem_dismissed hm

end Sound

/-! ## Lists of links -/

theorem unlinked_dismissLink (tree : DomainTree) (owner : String) (id : Nat) :
    (tree.dismissLink owner id).value.2.unlinked = tree.unlinked := by
  unfold dismissLink
  split
  · rfl
  · rename_i link ho
    exact (unlinked_update (f := (·.releaseLink link)) fun d _ => d.unlinked_releaseLink link).trans
      (unlinked_update (f := (·.disownLink link)) fun _ _ => rfl)

/-- **Only links and ports go with links that end.** -/
theorem unlinked_dismissAll (victims : List (String × Nat)) (tree : DomainTree) :
    (dismissAll victims tree).value.2.unlinked = tree.unlinked := by
  induction victims generalizing tree with
  | nil => rfl
  | cons victim rest ih => exact (ih _).trans (tree.unlinked_dismissLink victim.1 victim.2)

theorem unlinked_dismissLinksOfDomain (tree : DomainTree) (name : String) :
    (tree.dismissLinksOfDomain name).value.2.unlinked = tree.unlinked := by
  unfold dismissLinksOfDomain
  split
  · exact unlinked_dismissAll ..
  · rfl

namespace Sound

variable (h : tree.Sound)

include h

theorem dismisses_dismissLink (owner : String) (id : Nat) :
    tree.Dismisses (fun l => (l.client.domain, l.id) = (owner, id))
      (tree.dismissLink owner id).value.2 := by
  cases ho : tree.ownedLink? owner id with
  | none =>
    rw [dismissLink_of_none ho]
    refine .refl h fun l hl he => ?_
    obtain ⟨rfl, rfl⟩ := Prod.mk.inj he
    rw [h.ownedLink?_of_mem hl] at ho
    cases ho
  | some link =>
    obtain ⟨hm, hc, hid⟩ := h.ownedLink?_eq_some.1 ho
    rw [dismissLink_of_some ho hc]
    refine (h.dismisses_dismissed hm).congr fun l hl => ?_
    rw [← hc, ← hid, Prod.mk.injEq]
    exact ⟨fun he => he ▸ ⟨rfl, rfl⟩, fun he => h.eq_of_id hl hm he.2⟩

/-- **Dismissing a list of links leaves exactly the others.** -/
theorem dismisses_dismissAll (victims : List (String × Nat)) :
    tree.Dismisses (fun l => (l.client.domain, l.id) ∈ victims)
      (dismissAll victims tree).value.2 := by
  induction victims generalizing tree with
  | nil => exact .refl h fun _ _ => List.not_mem_nil
  | cons victim rest ih =>
    have hfirst := h.dismisses_dismissLink victim.1 victim.2
    refine (hfirst.trans (ih hfirst.sound)).congr fun l _ => ?_
    rw [List.mem_cons]

theorem mem_linksWhere {test : Link → Bool} {l : Link} (hl : l ∈ tree.liveLinks) :
    (l.client.domain, l.id) ∈ tree.linksWhere test ↔ test l = true := by
  simp only [linksWhere, List.mem_flatMap, List.mem_map, List.mem_filter]
  constructor
  · rintro ⟨d, hd, l', ⟨hl', htest⟩, he⟩
    obtain ⟨-, hid⟩ := Prod.mk.inj he
    have hlive : l' ∈ tree.liveLinks := List.mem_flatMap.2 ⟨d, hd, hl'⟩
    rwa [h.eq_of_id hl hlive hid.symm]
  · intro htest
    obtain ⟨d, hd, hl'⟩ := List.mem_flatMap.1 hl
    exact ⟨d, hd, l, ⟨hl', htest⟩, rfl⟩

/-- **Without the links of an interface exactly those with another origin are left.** -/
theorem dismisses_dismissLinksOfInterface (id : InterfaceId) :
    tree.Dismisses (·.origin = id) (tree.dismissLinksOfInterface id).value.2 :=
  (h.dismisses_dismissAll _).congr fun l hl => by
    rw [h.mem_linksWhere hl, decide_eq_true_eq]

theorem dismisses_ageLinks (now : Nat) (limits : LinkTimeouts) :
    tree.Dismisses (·.isExpired now limits = true) (tree.ageLinks now limits).value.2 :=
  (h.dismisses_dismissAll _).congr fun _ hl => h.mem_linksWhere hl

/-- The links with an end in a domain are those that it holds and those whose servers' ends its
index has. -/
theorem mem_linksOf {d : Domain} (hd : tree.byName? name = some d) {l : Link}
    (hl : l ∈ tree.liveLinks) : (l.client.domain, l.id) ∈ linksOf name d ↔
      l.client.domain = name ∨ l.server.domain = name := by
  simp only [linksOf, List.mem_append, List.mem_map, LinkTable.foreign, List.mem_filter,
    SortedMap.mem_values_iff, decide_eq_true_eq]
  constructor
  · rintro (⟨l', ⟨id, hget⟩, he⟩ | ⟨ref, ⟨⟨key, hget⟩, hside⟩, he⟩)
    · exact .inl (Prod.mk.inj he).1.symm
    · have href : tree.lookup? ⟨name, key⟩ = some ref := by
        rw [lookup?, hd]
        exact hget
      obtain ⟨l', hl', hs, rfl⟩ := (h.index ..).1 href
      obtain rfl : l' = l := h.eq_of_id hl' hl (Prod.mk.inj he).2
      refine .inr ?_
      have hseat := Link.seat_side_refAt hs
      rw [hside] at hseat
      exact congrArg Seat.domain hseat
  · rintro (hc | hs)
    · have hown := h.ownedLink?_of_mem hl
      rw [hc, ownedLink?, hd] at hown
      exact .inl ⟨l, ⟨l.id, hown⟩, Prod.ext hc.symm rfl⟩
    · have href := h.lookup?_of_sitsAt hl (l.sitsAt_seat .server)
      rw [l.refAt_server, lookup?, show (l.seat .server).domain = name from hs, hd] at href
      exact .inr ⟨refOf l .server, ⟨⟨_, href⟩, rfl⟩, rfl⟩

/-- **Without the links of a domain exactly those with both ends elsewhere are left.** -/
theorem dismisses_dismissLinksOfDomain (name : String) :
    tree.Dismisses (fun l => l.client.domain = name ∨ l.server.domain = name)
      (tree.dismissLinksOfDomain name).value.2 := by
  unfold dismissLinksOfDomain
  cases hd : tree.byName? name with
  | none =>
    refine .refl h fun l hl hend => ?_
    rcases hend with hc | hs
    · obtain ⟨d, hd'⟩ := h.exists_byName? hl .client
      rw [show (l.side .client).domain = name from hc, hd] at hd'
      cases hd'
    · obtain ⟨d, hd'⟩ := h.exists_byName? hl .server
      rw [show (l.side .server).domain = name from hs, hd] at hd'
      cases hd'
  | some d => exact (h.dismisses_dismissAll _).congr fun l hl => h.mem_linksOf hd hl

end Sound

end DomainTree

end SegmentRouter
