import Mathlib.Data.List.Induction
import SegmentRouter.Proofs.Tree.Readmission

/-!
# Proofs/Tree/Survivors — the links that a new configuration keeps

The links of the previous domains are taken over one after the other, those of one client's domain
by their ids.  What is there after each (`Readmits`) says it for all: a link survives if it conforms
and its share is not used up by older links that conform too.
-/

namespace SegmentRouter

namespace DomainTree

variable {tree start previous : DomainTree} {switched : String → Bool} {changed : List String}
  {links : List Link} {link : Link}

/-- The links of a list that conform and count in the share that a link would count in. -/
def claimants (tree : DomainTree) (switched : String → Bool) (links : List Link)
    (link : Link) : Nat :=
  links.countP fun l => tree.Conforms switched l ∧
    l.InShare link.server.domain link.protocol link.client.domain

/-- The claimants that are older than the link itself. -/
def olderClaimants (tree : DomainTree) (switched : String → Bool) (links : List Link)
    (link : Link) : Nat :=
  links.countP fun l => (tree.Conforms switched l ∧
    l.InShare link.server.domain link.protocol link.client.domain) ∧ l.id < link.id

/-- A link conforms, and older ones leave it its port. -/
def Survives (tree : DomainTree) (switched : String → Bool) (links : List Link) (link : Link) :
    Prop :=
  tree.Conforms switched link ∧ tree.Fits link (tree.olderClaimants switched links link)

instance (tree : DomainTree) (switched : String → Bool) (links : List Link) (link : Link) :
    Decidable (tree.Survives switched links link) :=
  inferInstanceAs (Decidable (_ ∧ _))

/-- Another link is not what keeps a link from being taken over: its seats and its port are free,
and where it is refused a port its share is used up. -/
structure Unobstructed (tree : DomainTree) (changed : List String) (link : Link) : Prop where
  seats : tree.readmit changed link ≠ .error .sideTaken
  port : ∀ {server port}, tree.byName? link.server.domain = some server →
    link.natPort = some port → (server.pools.get link.protocol).isTaken port = false
  share : tree.readmit changed link = .error .portUnavailable →
    tree.quota link.server.domain link.client.domain link.protocol ≤ shareCount tree.liveLinks link

/-- The tree after a link was taken over, or refused. -/
def afterReadmission (changed : List String) (tree : DomainTree) (link : Link) : DomainTree :=
  match tree.readmit changed link with
  | .ok tree => tree
  | .error _ => tree

theorem tree_readmitAll (changed : List String) (links : List Link) (tree : DomainTree) :
    (readmitAll changed links tree).value.2 = links.foldl (afterReadmission changed) tree := by
  induction links generalizing tree with
  | nil => rfl
  | cons link rest ih =>
    rw [List.foldl_cons, ← ih, readmitAll, afterReadmission]
    rcases tree.readmit changed link with _ | _ <;> rfl

/-! ## Counting claimants -/

section

variable (tree switched)

theorem claimants_concat (links : List Link) (last link : Link) :
    tree.claimants switched (links ++ [last]) link = tree.claimants switched links link +
      if tree.Conforms switched last ∧
        last.InShare link.server.domain link.protocol link.client.domain then 1 else 0 := by
  rw [claimants, List.countP_append, List.countP_singleton, claimants]
  simp only [decide_eq_true_eq]

theorem shareCount_cons (links : List Link) (last link : Link) :
    shareCount (last :: links) link = shareCount links link +
      if last.InShare link.server.domain link.protocol link.client.domain then 1 else 0 := by
  rw [shareCount, List.countP_cons, shareCount]
  simp only [decide_eq_true_eq]

variable {last : Link}
  (hlast : ∀ l ∈ links, l.client.domain = last.client.domain → l.id < last.id)

include hlast

/-- For the youngest link every claimant is older. -/
theorem olderClaimants_concat_self :
    tree.olderClaimants switched (links ++ [last]) last = tree.claimants switched links last := by
  rw [olderClaimants, List.countP_append, List.countP_singleton, if_neg (by simp), Nat.add_zero]
  refine List.countP_congr fun l hl => ?_
  rw [decide_eq_true_eq, decide_eq_true_eq, and_iff_left_iff_imp]
  exact fun ⟨_, hshare⟩ => hlast l hl hshare.2.2.1

/-- A younger link is no older claimant. -/
theorem olderClaimants_concat_of_mem (hm : link ∈ links) :
    tree.olderClaimants switched (links ++ [last]) link =
      tree.olderClaimants switched links link := by
  rw [olderClaimants, List.countP_append, List.countP_singleton, if_neg ?_, Nat.add_zero,
    olderClaimants]
  rw [decide_eq_true_eq]
  rintro ⟨⟨-, hshare⟩, hid⟩
  exact absurd (hlast link hm hshare.2.2.1.symm) (Nat.lt_asymm hid)

end

/-! ## One link after the other -/

/-- A tree after the links of a list were taken over as far as they survive. -/
structure Readmits (start : DomainTree) (switched : String → Bool) (links : List Link)
    (tree : DomainTree) : Prop where
  sound : tree.Sound
  generation : tree.generation = start.generation
  policies : tree.policies = start.policies
  mem : ∀ link, link ∈ tree.liveLinks ↔ link ∈ links ∧ start.Survives switched links link
  count : ∀ link, shareCount tree.liveLinks link =
    min (start.quota link.server.domain link.client.domain link.protocol)
      (start.claimants switched links link)

namespace Readmits

theorem nil (h : start.Sound) (hlive : start.liveLinks = []) :
    start.Readmits switched [] start where
  sound := h
  generation := rfl
  policies := rfl
  mem link := by simp [hlive]
  count link := by simp [hlive, shareCount, claimants]

theorem conforms_iff (h : start.Readmits switched links tree) (link : Link) :
    tree.Conforms switched link ↔ start.Conforms switched link := by
  have hup : tree.Upholds link ↔ start.Upholds link :=
    ⟨fun hu => hu.of_policies h.policies.symm, fun hu => hu.of_policies h.policies⟩
  rw [Conforms, Conforms, hup]

/-- A link fits beside the survivors exactly if it fits beside the claimants. -/
theorem fits_iff (h : start.Readmits switched links tree) (link : Link) :
    tree.Fits link (shareCount tree.liveLinks link) ↔
      start.Fits link (start.claimants switched links link) := by
  rw [Fits, Fits, quota_of_policies h.policies, h.count]
  exact imp_congr_right fun _ => by omega

theorem subset (h : start.Readmits switched links tree) {l : Link} (hl : l ∈ tree.liveLinks) :
    l ∈ links :=
  ((h.mem l).1 hl).1

section

variable (h : start.Readmits switched links tree) (hprev : previous.Sound)
  (hsub : ∀ l ∈ links, l ∈ previous.liveLinks) (hm : link ∈ previous.liveLinks)

include h hprev hsub hm

variable (hchanged : ∀ name, switched name = true ↔ name ∈ changed)

include hchanged

/-- **The survivors are not in the way of a link that is still to come.** -/
theorem unobstructed (hnew : link ∉ links) : tree.Unobstructed changed link := by
  have hrefused : ∀ {reason}, tree.readmit changed link = .error reason → reason ≠ .sideTaken ∧
      (reason = .portUnavailable → ¬ tree.Fits link (shareCount tree.liveLinks link)) := by
    intro reason hr
    have hno : ¬ (tree.Conforms switched link ∧
        tree.Fits link (shareCount tree.liveLinks link)) := by
      rintro ⟨hconf, hfits⟩
      obtain ⟨tree', hok, -⟩ := readmit_eq_ok hchanged h.sound hprev hm
        (fun l hl => hsub l (h.subset hl)) (fun hl => hnew (h.subset hl)) hconf hfits
      rw [hok] at hr
      cases hr
    obtain ⟨reason', hr', hside, hport⟩ := readmit_eq_error hchanged h.sound hno
    obtain rfl : reason' = reason := Except.error.inj (hr'.symm.trans hr)
    exact ⟨hside, fun hunavailable => not_and.1 hno (hport hunavailable)⟩
  constructor
  case seats => exact fun hr => (hrefused hr).1 rfl
  case port =>
    intro server port hserver hport
    refine Bool.eq_false_iff.2 fun htaken => ?_
    obtain ⟨l, hl, hh⟩ := ((h.sound.accounts hserver).taken _ _).1 htaken
    rw [name_of_byName? hserver] at hh
    have hsame : l = link := hprev.apart (hsub l (h.subset hl)) hm hh ⟨rfl, rfl, hport⟩
    exact hnew (hsame ▸ h.subset hl)
  case share =>
    intro hr
    have hfits := (hrefused hr).2 rfl
    rw [Fits, Classical.not_imp, Nat.not_lt] at hfits
    exact hfits.2

/-- **One more link**: it survives or not, and what was decided before stays. -/
theorem concat (hlast : ∀ l ∈ links, l.client.domain = link.client.domain → l.id < link.id) :
    start.Readmits switched (links ++ [link]) (tree.afterReadmission changed link) := by
  have hnew : link ∉ links := fun hl => Nat.lt_irrefl _ (hlast link hl rfl)
  have hself : start.Survives switched (links ++ [link]) link ↔
      tree.Conforms switched link ∧ tree.Fits link (shareCount tree.liveLinks link) := by
    rw [Survives, start.olderClaimants_concat_self switched hlast, h.conforms_iff, h.fits_iff]
  have hmem : ∀ l, l ∈ links ++ [link] ∧ start.Survives switched (links ++ [link]) l ↔
      l ∈ tree.liveLinks ∨ l = link ∧ start.Survives switched (links ++ [link]) link := by
    intro l
    rw [List.mem_append, List.mem_singleton, or_and_right, h.mem]
    refine or_congr (and_congr_right fun hl => ?_) (and_congr_right fun he => by rw [he])
    rw [Survives, Survives, start.olderClaimants_concat_of_mem switched hlast hl]
  have hcount := h.count
  unfold afterReadmission
  by_cases hkeep : tree.Conforms switched link ∧ tree.Fits link (shareCount tree.liveLinks link)
  · obtain ⟨tree', hok, hadm⟩ := readmit_eq_ok hchanged h.sound hprev hm
      (fun l hl => hsub l (h.subset hl)) (fun hl => hnew (h.subset hl)) hkeep.1 hkeep.2
    rw [hok]
    refine ⟨hadm.sound, hadm.generation.trans h.generation, hadm.policies.trans h.policies,
      fun l => ?_, fun l => ?_⟩
    · rw [hmem, hadm.live.mem_iff, List.mem_cons, or_comm, and_iff_left (hself.2 hkeep)]
    · have hperm : shareCount tree'.liveLinks l = shareCount (link :: tree.liveLinks) l :=
        hadm.live.countP_eq _
      rw [hperm, shareCount_cons, claimants_concat, hcount]
      by_cases hshare : link.InShare l.server.domain l.protocol l.client.domain
      · rw [if_pos hshare, if_pos ⟨(h.conforms_iff link).1 hkeep.1, hshare⟩]
        have hfits := (h.fits_iff link).1 hkeep.2 hshare.2.2.2
        rw [claimants, hshare.1, hshare.2.1, hshare.2.2.1] at hfits
        rw [claimants]
        omega
      · rw [if_neg hshare, if_neg fun hc => hshare hc.2]
        omega
  · obtain ⟨reason, herror, -⟩ := readmit_eq_error hchanged h.sound hkeep
    rw [herror]
    refine ⟨h.sound, h.generation, h.policies, fun l => ?_, fun l => ?_⟩
    · rw [hmem, or_iff_left fun hl => hkeep (hself.1 hl.2)]
    · rw [claimants_concat, hcount]
      split
      · rename_i hclaim
        obtain ⟨hconf, hshare⟩ := hclaim
        have hfits := not_and.1 hkeep ((h.conforms_iff link).2 hconf)
        rw [h.fits_iff, Fits, Classical.not_imp, Nat.not_lt, claimants, hshare.1, hshare.2.1,
          hshare.2.2.1] at hfits
        have hfull := hfits.2
        rw [claimants]
        omega
      · rw [Nat.add_zero]

end

end Readmits

/-- **All links that survive are taken over, and no others.** -/
theorem readmits_foldl (h : start.Sound) (hlive : start.liveLinks = []) (hprev : previous.Sound)
    (hchanged : ∀ name, switched name = true ↔ name ∈ changed)
    (hsub : ∀ l ∈ links, l ∈ previous.liveLinks)
    (hids : links.Pairwise fun a b => a.client.domain = b.client.domain → a.id < b.id) :
    start.Readmits switched links (links.foldl (afterReadmission changed) start) := by
  induction links using List.reverseRecOn with
  | nil => exact .nil h hlive
  | append_singleton links last ih =>
    rw [List.pairwise_append] at hids
    have hearlier := ih (fun l hl => hsub l (List.mem_append_left _ hl)) hids.1
    rw [List.foldl_concat]
    exact hearlier.concat hprev (fun l hl => hsub l (List.mem_append_left _ hl))
      (hsub last (List.mem_append_right _ (List.mem_singleton_self last))) hchanged
      fun l hl => hids.2.2 l hl last (List.mem_singleton_self last)

end DomainTree

end SegmentRouter
