import SegmentRouter.Proofs.Link.Turnover
import SegmentRouter.Proofs.Tree.Dismissal

/-!
# Proofs/Tree/Admission — links that begin

A link is admitted in two moves: the server's domain takes the link's port, and the link takes its
two seats.  Opened links and links that are taken over by a new configuration are admitted alike,
so one theorem (`Sound.admits`) keeps the tree sound in both.
-/

namespace SegmentRouter

open Wire (Protocol)

/-- The server's domain of a link with the link's port taken, if it holds one. -/
def Domain.TakesPort (server : Domain) (link : Link) (taken : Domain) : Prop :=
  match link.natPort with
  | some port => server.Grants link.client.domain link.protocol port taken
  | none => taken = server

namespace Domain.TakesPort

variable {server taken : Domain} {link : Link}

theorem links_eq (h : server.TakesPort link taken) : taken.links = server.links := by
  unfold TakesPort at h
  split at h
  · exact h.links_eq
  · rw [h]

theorem unlinked_eq (h : server.TakesPort link taken) : taken.unlinked = server.unlinked := by
  unfold TakesPort at h
  split at h
  · exact h.unlinked_eq
  · rw [h]

/-- **The ports are exact again once the link that took one is there.** -/
theorem accounts {live : List Link} (h : server.TakesPort link taken)
    (hserver : link.server.domain = server.name) (hacc : server.Accounts live) :
    taken.Accounts (link :: live) := by
  unfold TakesPort at h
  cases hport : link.natPort with
  | some port =>
    rw [hport] at h
    exact hacc.grant hserver hport h
  | none =>
    rw [hport] at h
    subst h
    refine (Domain.Accounts.cons_iff fun p port hh => ?_).2 hacc
    rw [Link.Holds, hport] at hh
    cases hh.2.2

/-- No link had the port that is taken. -/
theorem not_holds {live : List Link} (h : server.TakesPort link taken)
    (hacc : server.Accounts live) {p : Protocol} {port : UInt16} {l : Link} (hl : l ∈ live)
    (hh : link.Holds server.name p port) : ¬ l.Holds server.name p port := by
  obtain ⟨-, rfl, hport⟩ := hh
  unfold TakesPort at h
  rw [hport] at h
  obtain ⟨rule, pool, -, -, htakes, -⟩ := h
  intro hhl
  have htaken := (hacc.taken _ port).2 ⟨l, hl, hhl⟩
  rw [htakes.free] at htaken
  cases htaken

end Domain.TakesPort

namespace DomainTree

variable {tree tree' : DomainTree} {link : Link} {server taken : Domain}

/-- A later tree of the same domains has one link more. -/
structure Admits (tree : DomainTree) (link : Link) (tree' : DomainTree) : Prop where
  sound : tree'.Sound
  generation : tree'.generation = tree.generation
  policies : tree'.policies = tree.policies
  live : tree'.liveLinks.Perm (link :: tree.liveLinks)

theorem unlinked_insertLink? (h : tree.insertLink? link = some tree') :
    tree'.unlinked = tree.unlinked := by
  obtain ⟨-, rfl⟩ := insertLink?_eq_some.1 h
  exact (unlinked_update (f := fun d => (d.enterLink (link.key .client)
    (refOf link .client)).ownLink link) fun _ _ => rfl).trans
      (unlinked_update (f := (·.enterLink (link.key .server) (refOf link .server))) fun _ _ => rfl)

theorem generation_insertLink? (h : tree.insertLink? link = some tree') :
    tree'.generation = tree.generation := by
  obtain ⟨-, rfl⟩ := insertLink?_eq_some.1 h
  rfl

/-- Entering a link shows in tables of links only. -/
theorem exists_byName?_of_insertLink? (h : tree.insertLink? link = some tree') {name : String}
    {d' : Domain} (hd' : tree'.byName? name = some d') :
    ∃ d, tree.byName? name = some d ∧ d'.bare = d.bare := by
  obtain ⟨-, rfl⟩ := insertLink?_eq_some.1 h
  obtain ⟨d₁, hd₁, hb₁⟩ := exists_byName?_of_update (f := fun d =>
    (d.enterLink (link.key .client) (refOf link .client)).ownLink link) (fun _ => rfl) hd'
  obtain ⟨d, hd, hb⟩ := exists_byName?_of_update
    (f := (·.enterLink (link.key .server) (refOf link .server))) (fun _ => rfl) hd₁
  exact ⟨d, hd, hb₁.trans hb⟩

/-! ## Taking the port -/

section

variable (hserver : tree.byName? link.server.domain = some server)
  (htakes : server.TakesPort link taken)

include hserver htakes

theorem name_taken : taken.name = link.server.domain :=
  (Domain.name_of_unlinked htakes.unlinked_eq).trans (name_of_byName? hserver)

theorem links_taken (d : Domain) (hd : tree.byName? link.server.domain = some d) :
    taken.links = d.links := by
  obtain rfl : server = d := Option.some.inj (hserver.symm.trans hd)
  exact htakes.links_eq

theorem liveLinks_taken :
    (tree.update link.server.domain fun _ => taken).liveLinks = tree.liveLinks :=
  liveLinks_update_eq fun d hd =>
    congrArg LinkTable.owned (links_taken hserver htakes d hd)

theorem lookup?_taken (seat : Seat) :
    (tree.update link.server.domain fun _ => taken).lookup? seat = tree.lookup? seat :=
  lookup?_update_eq (fun _ _ => name_taken hserver htakes) (links_taken hserver htakes) seat

theorem ownedLink?_taken (owner : String) (id : Nat) :
    (tree.update link.server.domain fun _ => taken).ownedLink? owner id =
      tree.ownedLink? owner id :=
  ownedLink?_update_eq (fun _ _ => name_taken hserver htakes)
    (fun d hd => congrArg LinkTable.owned (links_taken hserver htakes d hd)) owner id

theorem unlinked_taken :
    (tree.update link.server.domain fun _ => taken).unlinked = tree.unlinked :=
  unlinked_update fun d hd => by
    obtain rfl : server = d := Option.some.inj (hserver.symm.trans hd)
    exact htakes.unlinked_eq

theorem lookup?_admitted
    (hins : (tree.update link.server.domain fun _ => taken).insertLink? link = some tree')
    (seat : Seat) : tree'.lookup? seat =
      if link.SitsAt seat then some (link.refAt seat) else tree.lookup? seat := by
  rw [lookup?_insertLink? hins, lookup?_taken hserver htakes]

theorem ownedLink?_admitted
    (hins : (tree.update link.server.domain fun _ => taken).insertLink? link = some tree')
    (owner : String) (id : Nat) : tree'.ownedLink? owner id =
      if owner = link.client.domain ∧ id = link.id then some link
      else tree.ownedLink? owner id := by
  rw [ownedLink?_insertLink? hins, ownedLink?_taken hserver htakes]

end

/-! ## Taking the seats -/

namespace Sound

variable (h : tree.Sound) (hserver : tree.byName? link.server.domain = some server)
  (htakes : server.TakesPort link taken)
  (hins : (tree.update link.server.domain fun _ => taken).insertLink? link = some tree')

include h hserver htakes hins

/-- No link was at the seats of the new one. -/
theorem not_sitsAt_admitted {l : Link} (hl : l ∈ tree.liveLinks) {seat : Seat}
    (hs : link.SitsAt seat) : ¬ l.SitsAt seat := by
  have hroom := (insertLink?_eq_some.1 hins).1
  simp only [lookup?_taken hserver htakes] at hroom
  refine h.lookup?_eq_none.1 ?_ l hl
  rcases hs with rfl | rfl
  · exact (hroom .server).2
  · exact (hroom .client).2

section

variable (hid : ∀ l ∈ tree.liveLinks, l.id ≠ link.id)

include hid

theorem liveLinks_admitted : tree'.liveLinks.Perm (link :: tree.liveLinks) := by
  have hnone : tree.ownedLink? link.client.domain link.id = none := by
    refine Option.eq_none_iff_forall_ne_some.2 fun l hl => ?_
    obtain ⟨hm, -, he⟩ := h.ownedLink?_eq_some.1 hl
    exact hid l hm he
  have hperm := liveLinks_insertLink? hins ((ownedLink?_taken hserver htakes ..).trans hnone)
  rwa [liveLinks_taken hserver htakes] at hperm

theorem mem_admitted {l : Link} : l ∈ tree'.liveLinks ↔ l = link ∨ l ∈ tree.liveLinks := by
  rw [(h.liveLinks_admitted hserver htakes hins hid).mem_iff, List.mem_cons]

theorem index_admitted (seat : Seat) (ref : LinkRef) : tree'.lookup? seat = some ref ↔
    ∃ l ∈ tree'.liveLinks, l.SitsAt seat ∧ l.refAt seat = ref := by
  rw [lookup?_admitted hserver htakes hins]
  constructor
  · intro href
    split at href
    · rename_i hs
      exact ⟨link, (h.mem_admitted hserver htakes hins hid).2 (.inl rfl), hs,
        Option.some.inj href⟩
    · obtain ⟨l, hl, hs, hr⟩ := (h.index ..).1 href
      exact ⟨l, (h.mem_admitted hserver htakes hins hid).2 (.inr hl), hs, hr⟩
  · rintro ⟨l, hl, hs, rfl⟩
    rcases (h.mem_admitted hserver htakes hins hid).1 hl with rfl | hl
    · rw [if_pos hs]
    · rw [if_neg fun hsit => h.not_sitsAt_admitted hserver htakes hins hl hsit hs]
      exact h.lookup?_of_sitsAt hl hs

theorem accounts_admitted {name : String} {d' : Domain} (hd' : tree'.byName? name = some d') :
    d'.Accounts tree'.liveLinks := by
  have hlive := h.liveLinks_admitted hserver htakes hins hid
  obtain ⟨d, hd, hb⟩ := exists_byName?_of_insertLink? hins hd'
  refine Domain.Accounts.of_bare (.perm ?_ hlive.symm) hb
  rw [byName?_update _ _ _ fun _ _ => name_taken hserver htakes] at hd
  split at hd
  · rw [hserver, Option.map_some] at hd
    obtain rfl := Option.some.inj hd
    exact htakes.accounts (name_of_byName? hserver).symm (h.accounts hserver)
  · rename_i hname
    refine (Domain.Accounts.cons_iff fun p port hh => ?_).2 (h.accounts hd)
    exact hname ((name_of_byName? hd).symm.trans hh.1.symm)

theorem apart_admitted {a b : Link} {name : String} {p : Protocol} {port : UInt16}
    (ha : a ∈ tree'.liveLinks) (hb : b ∈ tree'.liveLinks) (hha : a.Holds name p port)
    (hhb : b.Holds name p port) : a = b := by
  have hone : ∀ {l}, l ∈ tree.liveLinks → link.Holds name p port → ¬ l.Holds name p port := by
    intro l hl hh
    have hname : server.name = name := (name_of_byName? hserver).trans hh.1
    subst hname
    exact htakes.not_holds (h.accounts hserver) hl hh
  rcases (h.mem_admitted hserver htakes hins hid).1 ha with rfl | ha
  · rcases (h.mem_admitted hserver htakes hins hid).1 hb with rfl | hb
    · rfl
    · exact absurd hhb (hone hb hha)
  · rcases (h.mem_admitted hserver htakes hins hid).1 hb with rfl | hb
    · exact absurd hha (hone ha hhb)
    · exact h.apart ha hb hha hhb

/-- **A link that the rules uphold, with an id of its own, is admitted to a sound tree** if its port
and its seats are free. -/
theorem admits (hup : tree.Upholds link) (hformed : link.Formed) : tree.Admits link tree' := by
  have hpol : tree'.policies = tree.policies :=
    policies_of_unlinked ((unlinked_insertLink? hins).trans (unlinked_taken hserver htakes))
  have hlive := h.liveLinks_admitted hserver htakes hins hid
  refine ⟨?_, (generation_insertLink? hins :), hpol, hlive⟩
  constructor
  case distinct =>
    rw [Distinct, names_of_bases (bases_of_policies hpol)]
    exact h.distinct
  case held =>
    intro owner id l hl
    rw [ownedLink?_admitted hserver htakes hins] at hl
    split at hl
    · rename_i he
      obtain rfl := Option.some.inj hl
      exact ⟨he.2.symm, he.1.symm⟩
    · exact h.held hl
  case ids =>
    rw [(hlive.map Link.id).nodup_iff]
    refine List.nodup_cons.2 ⟨fun hm => ?_, h.ids⟩
    obtain ⟨l, hl, he⟩ := List.mem_map.1 hm
    exact hid l hl he
  case index => exact h.index_admitted hserver htakes hins hid
  case accounts => exact fun hd' => h.accounts_admitted hserver htakes hins hid hd'
  case apart => exact fun ha hb => h.apart_admitted hserver htakes hins hid ha hb
  case upholds =>
    intro l hl
    rcases (h.mem_admitted hserver htakes hins hid).1 hl with rfl | hl
    · exact hup.of_policies hpol
    · exact (h.upholds l hl).of_policies hpol
  case formed =>
    intro l hl
    rcases (h.mem_admitted hserver htakes hins hid).1 hl with rfl | hl
    · exact hformed
    · exact h.formed l hl

end

end Sound

end DomainTree

end SegmentRouter
