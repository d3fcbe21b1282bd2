import Mathlib.Data.Finset.Card
import SegmentRouter.Proofs.Tree.Shell

/-!
# Proofs/Tree/Removal — what links that end take with them

Of a sound tree that lost some of its links it is known what is left everywhere: in the domains that
hold links, in the index, and in the pools and shares of ports (`Sound.loses`).  Dismissing links
also tells how many they were, and finds nothing more to do a second time (`Sound.clears`).
-/

namespace SegmentRouter

open Wire (Protocol)

/-- A domain has back what some links had of its ports, and has kept all others taken. -/
structure Domain.GivesBack (d : Domain) (lost : List Link) (d' : Domain) : Prop where
  taken : ∀ p port, (d'.pools.get p).isTaken port = true ↔
    (d.pools.get p).isTaken port = true ∧ ∀ link ∈ lost, ¬ link.Holds d.name p port
  /-- Shares are as large as they were. -/
  shares : d'.nat.mapValues (fun _ => unused) = d.nat.mapValues fun _ => unused
  used : ∀ p client rule rule', d.nat.get? client = some rule → d'.nat.get? client = some rule' →
    (rule'.quotas.get p).used + lost.countP (·.InShare d.name p client) = (rule.quotas.get p).used
  inUse : ∀ p, (d'.pools.get p).inUse = d'.usedPorts p

namespace DomainTree

variable {tree tree' : DomainTree} {gone : Link → Prop} [DecidablePred gone]

/-- A later tree of the same domains has lost exactly the links of a kind: their domains do not hold
them, the index does not lead to them, and their ports are free.  Other links, entries and ports
are as they were. -/
structure Loses (tree : DomainTree) (gone : Link → Prop) [DecidablePred gone]
    (tree' : DomainTree) : Prop where
  live : tree'.liveLinks.Perm (tree.liveLinks.filter fun link => ¬ gone link)
  owned : ∀ owner id, tree'.ownedLink? owner id =
    (tree.ownedLink? owner id).filter fun link => ¬ gone link
  index : ∀ seat ref, tree'.lookup? seat = some ref ↔
    tree.lookup? seat = some ref ∧ ∀ link ∈ tree.liveLinks, gone link → link.id ≠ ref.link
  ports : ∀ name d, tree.byName? name = some d →
    ∃ d', tree'.byName? name = some d' ∧ d.GivesBack (tree.liveLinks.filter (gone ·)) d'
  /-- The links that are left still have their ports. -/
  held : ∀ link ∈ tree'.liveLinks, ∀ name p port, link.Holds name p port →
    ∃ d', tree'.byName? name = some d' ∧ (d'.pools.get p).isTaken port = true

/-- What dismissing links gives: a tree without them that is otherwise the same, and their
number. -/
structure Removes (tree : DomainTree) (gone : Link → Prop) [DecidablePred gone]
    (result : Nat × DomainTree) : Prop where
  loses : tree.Loses gone result.2
  /-- Nothing is different but links and ports. -/
  rest : result.2.unlinked = tree.unlinked
  /-- No link counts twice. -/
  count : result.1 = (tree.liveLinks.toFinset.filter gone).card

/-- Links of a kind are removed, and removing them again does nothing. -/
structure Clears (tree : DomainTree) (dismiss : DomainTree → Logged (Nat × DomainTree))
    (gone : Link → Prop) [DecidablePred gone] : Prop where
  removes : tree.Removes gone (dismiss tree).value
  again : (dismiss (dismiss tree).value.2).value = (0, (dismiss tree).value.2)

/-! ## What is left -/

namespace Sound

variable (h : tree.Sound)

include h

section

variable (h' : tree'.Sound)
  (hmem : ∀ link, link ∈ tree'.liveLinks ↔ link ∈ tree.liveLinks ∧ ¬ gone link)

include h' hmem

theorem liveLinks_perm :
    tree'.liveLinks.Perm (tree.liveLinks.filter fun link => ¬ gone link) := by
  refine (List.perm_ext_iff_of_nodup h'.nodup_liveLinks (h.nodup_liveLinks.filter _)).2 fun l => ?_
  rw [hmem, List.mem_filter, decide_eq_true_eq]

/-- Links of any kind are either left or lost. -/
theorem countP_add_countP (test : Link → Bool) :
    tree'.liveLinks.countP test + (tree.liveLinks.filter (gone ·)).countP test =
      tree.liveLinks.countP test := by
  rw [(h.liveLinks_perm h' hmem).countP_eq, Nat.add_comm,
    List.countP_eq_countP_filter_add tree.liveLinks test (gone ·)]
  simp only [decide_not]

/-- **The ports of lost links are given back.** -/
theorem givesBack (hshell : tree'.shell = tree.shell) {name : String} {d : Domain}
    (hd : tree.byName? name = some d) : ∃ d', tree'.byName? name = some d' ∧
      d.GivesBack (tree.liveLinks.filter (gone ·)) d' := by
  have hshares := map_byName?_congr (f := Domain.shell) (k := (·.nat))
    (g := fun d => d.nat.mapValues fun _ => Domain.unused) Domain.name_shell (fun _ => rfl)
    (congrArg DomainTree.domains hshell) name
  rw [hd, Option.map_some, Option.map_eq_some_iff] at hshares
  obtain ⟨d', hd', hshares⟩ := hshares
  have hname : d'.name = d.name := (name_of_byName? hd').trans (name_of_byName? hd).symm
  have hacc := h.accounts hd
  have hacc' := h'.accounts hd'
  refine ⟨d', hd', fun p port => ?_, hshares, fun p client rule rule' hr hr' => ?_, hacc'.inUse⟩
  · rw [hacc'.taken, hacc.taken, hname]
    constructor
    · rintro ⟨l, hl, hholds⟩
      obtain ⟨hlive, hkept⟩ := (hmem l).1 hl
      refine ⟨⟨l, hlive, hholds⟩, fun lost hlost hholds' => hkept ?_⟩
      obtain ⟨hm, hgone⟩ := List.mem_filter.1 hlost
      rw [h.apart hlive hm hholds hholds']
      exact of_decide_eq_true hgone
    · rintro ⟨⟨l, hl, hholds⟩, hnone⟩
      refine ⟨l, (hmem l).2 ⟨hl, fun hgone => hnone l ?_ hholds⟩, hholds⟩
      exact List.mem_filter.2 ⟨hl, decide_eq_true hgone⟩
  · rw [hacc.used p client rule hr, hacc'.used p client rule' hr', hname]
    exact h.countP_add_countP h' hmem _

/-- **Of a sound tree that lost links it is known what is left.** -/
theorem loses (hshell : tree'.shell = tree.shell) : tree.Loses gone tree' where
  live := h.liveLinks_perm h' hmem
  owned owner id := by
    refine Option.ext fun link => ?_
    rw [Option.filter_eq_some_iff, decide_eq_true_eq, h'.ownedLink?_eq_some, h.ownedLink?_eq_some,
      hmem]
    exact ⟨fun ⟨⟨hl, hkept⟩, hc⟩ => ⟨⟨hl, hc⟩, hkept⟩, fun ⟨⟨hl, hc⟩, hkept⟩ => ⟨⟨hl, hkept⟩, hc⟩⟩
  index seat ref := by
    rw [h.index, h'.index]
    constructor
    · rintro ⟨l, hl, hsits, rfl⟩
      obtain ⟨hlive, hkept⟩ := (hmem l).1 hl
      refine ⟨⟨l, hlive, hsits, rfl⟩, fun lost hlost hgone hid => hkept ?_⟩
      exact h.eq_of_id hlost hlive hid ▸ hgone
    · rintro ⟨⟨l, hl, hsits, rfl⟩, hkept⟩
      exact ⟨l, (hmem l).2 ⟨hl, fun hgone => hkept l hl hgone rfl⟩, hsits, rfl⟩
  ports _ _ hd := h.givesBack h' hmem hshell hd
  held link hl name p port hholds := by
    obtain ⟨d', hd'⟩ := h'.exists_byName? hl .server
    rw [show (link.side .server).domain = name from hholds.1] at hd'
    refine ⟨d', hd', ((h'.accounts hd').taken p port).2 ⟨link, hl, ?_⟩⟩
    rwa [name_of_byName? hd']

end

/-! ## How many there were -/

/-- Each dismissed link counts. -/
theorem count_dismissAll (victims : List (String × Nat)) :
    (dismissAll victims tree).value.1 + (dismissAll victims tree).value.2.liveLinks.length =
      tree.liveLinks.length := by
  induction victims generalizing tree with
  | nil => exact Nat.zero_add _
  | cons victim rest ih =>
    obtain ⟨owner, id⟩ := victim
    have hfirst := h.dismisses_dismissLink owner id
    have hrest := ih hfirst.sound
    have hlength : (tree.dismissLink owner id).value.1.toList.length +
        (tree.dismissLink owner id).value.2.liveLinks.length = tree.liveLinks.length := by
      cases ho : tree.ownedLink? owner id with
      | none =>
        rw [dismissLink_of_none ho]
        exact Nat.zero_add _
      | some link =>
        obtain ⟨hm, hc, -⟩ := h.ownedLink?_eq_some.1 ho
        rw [dismissLink_of_some ho hc, (liveLinks_dismissed (h.ownedLink?_of_mem hm)).length_eq,
          List.length_cons, Nat.add_comm]
        rfl
    have hvalue : (dismissAll ((owner, id) :: rest) tree).value =
        ((dismissAll rest (tree.dismissLink owner id).value.2).value.1 +
          (tree.dismissLink owner id).value.1.toList.length,
          (dismissAll rest (tree.dismissLink owner id).value.2).value.2) := rfl
    rw [hvalue]
    dsimp only
    omega

omit h in
/-- Where none of them is, no link is dismissed. -/
theorem dismissAll_of_none {victims : List (String × Nat)}
    (hnone : ∀ victim ∈ victims, tree.ownedLink? victim.1 victim.2 = none) :
    (dismissAll victims tree).value = (0, tree) := by
  induction victims with
  | nil => rfl
  | cons victim rest ih =>
    obtain ⟨hfirst, hrest⟩ := List.forall_mem_cons.1 hnone
    rw [dismissAll, Logged.value_bind, dismissLink_of_none hfirst, Logged.value_bind, ih hrest]
    rfl

/-- **Dismissing all links of a kind clears the tree of them**, wherever the list of them comes
from. -/
theorem clears (victims : DomainTree → List (String × Nat))
    (hvictims : ∀ {tree : DomainTree}, tree.Sound → ∀ link ∈ tree.liveLinks,
      (link.client.domain, link.id) ∈ victims tree ↔ gone link) :
    tree.Clears (fun tree => dismissAll (victims tree) tree) gone := by
  have hdis := (h.dismisses_dismissAll (victims tree)).congr (hvictims h)
  have hloses := h.loses hdis.sound hdis.mem
    (shell_of_unlinked (unlinked_dismissAll (victims tree) tree))
  refine ⟨⟨hloses, unlinked_dismissAll .., ?_⟩, dismissAll_of_none fun victim hvictim => ?_⟩
  · have hcount := h.count_dismissAll (victims tree)
    have hcard : (tree.liveLinks.toFinset.filter gone).card =
        tree.liveLinks.countP (gone ·) := by
      rw [List.countP_eq_length_filter,
        ← List.toFinset_card_of_nodup (h.nodup_liveLinks.filter _), List.toFinset_filter]
      simp only [decide_eq_true_eq]
    have hsplit := List.length_eq_countP_add_countP (gone ·) (l := tree.liveLinks)
    rw [hloses.live.length_eq, ← List.countP_eq_length_filter] at hcount
    simp only [decide_eq_true_eq] at hsplit
    omega
  · refine Option.eq_none_iff_forall_ne_some.2 fun link howned => ?_
    obtain ⟨hlive, hc, hid⟩ := hdis.sound.ownedLink?_eq_some.1 howned
    have hgone := (hvictims hdis.sound link hlive).1 (by rw [hc, hid]; exact hvictim)
    exact ((hdis.mem link).1 hlive).2 hgone

/-! ## Three ways to dismiss links -/

/-- **Dismissing the links of a domain clears the tree of those with an end in it.** -/
theorem clears_dismissLinksOfDomain (name : String) :
    tree.Clears (·.dismissLinksOfDomain name)
      fun link => link.client.domain = name ∨ link.server.domain = name := by
  have hvalue : (·.dismissLinksOfDomain name) = fun tree : DomainTree =>
      dismissAll ((tree.byName? name).elim [] (linksOf name)) tree := by
    funext tree
    unfold dismissLinksOfDomain
    cases tree.byName? name <;> rfl
  rw [hvalue]
  refine h.clears _ fun {tree} ht link hl => ?_
  cases hd : tree.byName? name with
  | some d => exact ht.mem_linksOf hd hl
  | none =>
    refine iff_of_false List.not_mem_nil fun hend => ?_
    have hside : ∀ s, (link.side s).domain ≠ name := by
      rintro s rfl
      obtain ⟨d, hd'⟩ := ht.exists_byName? hl s
      cases hd.symm.trans hd'
    exact hend.elim (hside .client) (hside .server)

/-- **Dismissing the links of an interface clears the tree of those with that origin.** -/
theorem clears_dismissLinksOfInterface (id : InterfaceId) :
    tree.Clears (·.dismissLinksOfInterface id) (·.origin = id) :=
  h.clears (·.linksWhere (·.origin = id)) fun ht link hl => by
    rw [ht.mem_linksWhere hl, decide_eq_true_eq]

/-- **Aging links clears the tree of those that had no traffic for as long as they may.** -/
theorem clears_ageLinks (now : Nat) (limits : LinkTimeouts) :
    tree.Clears (·.ageLinks now limits)
      fun link => link.limit limits ≤ now - link.lastActivity :=
  h.clears (·.linksWhere (·.isExpired now limits)) fun ht link hl => by
    rw [ht.mem_linksWhere hl, Link.isExpired, decide_eq_true_eq]

end Sound

end DomainTree

end SegmentRouter
