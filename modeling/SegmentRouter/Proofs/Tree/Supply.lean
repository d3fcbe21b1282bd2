import SegmentRouter.Domain.Supply
import SegmentRouter.Proofs.Tree.Dismissal

/-!
# Proofs/Tree/Supply — addresses that come and go keep a tree sound

A domain's addresses change only while no link has an end in it: a domain without addresses has no
link, and the links of one with addresses are dismissed first.  So replacing the addresses of a
domain, and of all that have theirs from it, loses links but breaks none (`Sound.sheds_install`).
-/

namespace SegmentRouter

namespace DomainTree

variable {tree tree' tree'' : DomainTree} {name : String} {d : Domain}

/-- A later tree of the same domains, sound too, with no link that was not there before. -/
structure Sheds (tree tree' : DomainTree) : Prop where
  sound : tree'.Sound
  generation : tree'.generation = tree.generation
  bases : tree'.bases = tree.bases
  live : ∀ link ∈ tree'.liveLinks, ∃ l ∈ tree.liveLinks, l.core = link.core

namespace Sheds

theorem refl (h : tree.Sound) : tree.Sheds tree :=
  ⟨h, rfl, rfl, fun link hm => ⟨link, hm, rfl⟩⟩

theorem trans (h : tree.Sheds tree') (h' : tree'.Sheds tree'') : tree.Sheds tree'' where
  sound := h'.sound
  generation := h'.generation.trans h.generation
  bases := h'.bases.trans h.bases
  live link hm := by
    obtain ⟨l', hl', hc'⟩ := h'.live link hm
    obtain ⟨l, hl, hc⟩ := h.live l' hl'
    exact ⟨l, hl, hc.trans hc'⟩

/-- **A change that the core does not see breaks nothing.** -/
theorem of_core (h : tree.Sound) (hc : tree'.core = tree.core) : tree.Sheds tree' where
  sound := h.of_core hc
  generation := generation_of_core hc
  bases := bases_of_policies (policies_of_core hc)
  live _ hm := Sound.exists_mem_of_core (liveLinks_of_core hc) hm

theorem of_dismisses {gone : Link → Prop} (h : tree.Dismisses gone tree') : tree.Sheds tree' where
  sound := h.sound
  generation := h.generation
  bases := bases_of_policies h.policies
  live link hm := ⟨link, ((h.mem link).1 hm).1, rfl⟩

/-- What is left of a link that was there before. -/
theorem exists_of_mem (h : tree.Sheds tree') {link : Link} (hm : link ∈ tree'.liveLinks) :
    ∃ l ∈ tree.liveLinks, l.id = link.id ∧ l.client = link.client ∧ l.server = link.server ∧
      l.origin = link.origin := by
  obtain ⟨l, hl, hc⟩ := h.live link hm
  exact ⟨l, hl, (congrArg Link.id hc :), (congrArg Link.client hc :), (congrArg Link.server hc :),
    (congrArg Link.origin hc :)⟩

/-- Where there was no link there is none. -/
theorem liveLinks_eq_nil (h : tree.Sheds tree') (hnil : tree.liveLinks = []) :
    tree'.liveLinks = [] := by
  refine List.eq_nil_iff_forall_not_mem.2 fun link hm => ?_
  obtain ⟨l, hl, -⟩ := h.live link hm
  rw [hnil] at hl
  cases hl

theorem names (h : tree.Sheds tree') : tree'.names = tree.names :=
  names_of_bases h.bases

end Sheds

/-! ## Addresses that are given on -/

section

variable {P : DomainTree → Prop} {Q : String → Prop} {config : Option IpConfig}

theorem supplyWith_induction {follow : DomainTree → String → Logged DomainTree} {supplier : String}
    {followers : List String}
    (hfollow : ∀ {t name}, P t → name ∈ followers → P (follow t name).value)
    (hnote : ∀ {t name}, P t → name ∈ followers → P (t.noteDependent supplier name)) (h : P tree) :
    P (supplyWith follow supplier followers tree).value := by
  induction followers generalizing tree with
  | nil => exact h
  | cons name rest ih =>
    have hfirst := hnote (hfollow h List.mem_cons_self) List.mem_cons_self
    exact ih (fun ht hn => hfollow ht (List.mem_cons_of_mem _ hn))
      (fun ht hn => hnote ht (List.mem_cons_of_mem _ hn)) hfirst

/-- **What replacing the addresses of one domain keeps, and noting this for its supplier, giving
addresses on keeps**, however often they are given on. -/
theorem install_induction
    (hreplace : ∀ {t name d}, P t → Q name → t.byName? name = some d → d.ipConfig ≠ config →
      P (t.replaceIpConfig name d.ipConfig config).value)
    (hfollow : ∀ {t name follower}, P t → Q name → follower ∈ t.derivedFrom name → Q follower)
    (hnote : ∀ {t supplier name}, P t → P (t.noteDependent supplier name)) (changes : Nat)
    (h : P tree) (hname : Q name) : P (install config changes tree name).value := by
  induction changes generalizing tree name with
  | zero =>
    unfold install
    split
    · exact h
    · split <;> exact h
  | succ changes ih =>
    unfold install
    split
    · exact h
    · rename_i d hd
      split
      · exact h
      · rename_i hconfig
        have hfirst := hreplace h hname hd hconfig
        exact supplyWith_induction (fun ht hn => ih ht (hfollow hfirst hname hn))
          (fun ht _ => hnote ht) hfirst

/-- What installing addresses keeps, giving those of all suppliers on keeps. -/
theorem supplyAll_induction {Q : Option IpConfig → String → Prop} {suppliers : List String}
    (hinstall : ∀ {t config name} changes, P t → Q config name →
      P (install config changes t name).value)
    (hsupply : ∀ {t supplier name}, P t → supplier ∈ suppliers → name ∈ t.derivedFrom supplier →
      Q ((t.byName? supplier).bind (·.ipConfig)) name)
    (hnote : ∀ {t supplier name}, P t → P (t.noteDependent supplier name)) (h : P tree) :
    P (supplyAll suppliers tree).value := by
  induction suppliers generalizing tree with
  | nil => exact h
  | cons supplier rest ih =>
    refine ih (fun ht hs => hsupply ht (List.mem_cons_of_mem _ hs)) ?_
    exact supplyWith_induction (fun ht hn => hinstall _ ht (hsupply h List.mem_cons_self hn))
      (fun ht _ => hnote ht) h

/-- **Addresses are set in a domain whose addresses are not configured.** -/
theorem setIpConfig_eq_ok {id : DomainId} (hset : (tree.setIpConfig id config).value = .ok tree') :
    ∃ d, tree.get? id = some d ∧ d.isStatic = false ∧
      tree' = (tree.installIpConfig d.name config).value := by
  unfold setIpConfig at hset
  split at hset
  · cases hset
  · split at hset
    · cases hset
    · rename_i d hd hstatic
      exact ⟨d, hd, Bool.not_eq_true _ ▸ hstatic, (Except.ok.inj hset).symm⟩

/-- There they can be set. -/
theorem setIpConfig_of_get? {id : DomainId} (hd : tree.get? id = some d)
    (hstatic : d.isStatic = false) (config : Option IpConfig) :
    (tree.setIpConfig id config).value = .ok (tree.installIpConfig d.name config).value := by
  rw [setIpConfig, hd]
  simp only [hstatic]
  rfl

end

/-! ## One domain -/

/-- A domain's addresses are replaced after what belonged to those before was removed. -/
theorem value_replaceIpConfig (tree : DomainTree) (name : String)
    (current config : Option IpConfig) :
    (tree.replaceIpConfig name current config).value =
      (if current.isSome then (tree.dropState name).value else tree).update name
        (·.withIpConfig config) := by
  unfold replaceIpConfig
  split <;> rfl

/-- No live link has an end in a domain. -/
def Unlinked (tree : DomainTree) (name : String) : Prop :=
  ∀ link ∈ tree.liveLinks, link.client.domain ≠ name ∧ link.server.domain ≠ name

namespace Sound

variable (h : tree.Sound)

include h

/-- A domain without addresses has no links. -/
theorem unlinked_of_ipConfig (hd : tree.byName? name = some d) (hnone : d.ipConfig = none) :
    tree.Unlinked name := by
  have hside : ∀ link ∈ tree.liveLinks, ∀ s, (link.side s).domain ≠ name := by
    rintro link hm s rfl
    obtain ⟨e, he, hsome⟩ := (h.upholds link hm).isSome_ipConfig s
    obtain rfl : d = e := Option.some.inj (hd.symm.trans he)
    rw [hnone] at hsome
    cases hsome
  exact fun link hm => ⟨hside link hm .client, hside link hm .server⟩

/-- **Addresses may change where no link has an end.** -/
theorem sheds_withIpConfig (hfree : tree.Unlinked name) (config : Option IpConfig) :
    tree.Sheds (tree.update name (·.withIpConfig config)) := by
  have hlive : (tree.update name (·.withIpConfig config)).liveLinks = tree.liveLinks :=
    liveLinks_update_eq fun _ _ => rfl
  have hlookup : ∀ seat, (tree.update name (·.withIpConfig config)).lookup? seat =
      tree.lookup? seat :=
    lookup?_update_eq (fun _ hd => hd) fun _ _ => rfl
  have hby : ∀ other, (tree.update name (·.withIpConfig config)).byName? other =
      if other = name then (tree.byName? name).map (·.withIpConfig config)
      else tree.byName? other := fun other => byName?_update _ _ _ fun _ hd => hd
  have hpolicy : ∀ {other}, other ≠ name →
      (tree.update name (·.withIpConfig config)).policy? other = tree.policy? other := by
    intro other hne
    rw [policy?, hby, if_neg hne, policy?]
  refine ⟨?_, rfl, bases_update fun _ _ => rfl, fun link hm => ⟨link, hlive ▸ hm, rfl⟩⟩
  constructor
  case distinct =>
    have hnames : (tree.update name (·.withIpConfig config)).names = tree.names :=
      names_update fun _ hd => hd
    rw [Distinct, hnames]
    exact h.distinct
  case held =>
    intro owner id link ho
    have hown : (tree.update name (·.withIpConfig config)).ownedLink? owner id =
        tree.ownedLink? owner id :=
      ownedLink?_update_eq (f := (·.withIpConfig config)) (fun _ hd => hd) (fun _ _ => rfl) ..
    exact h.held (hown.symm.trans ho)
  case ids => exact hlive.symm ▸ h.ids
  case index =>
    intro seat ref
    rw [hlookup, hlive]
    exact h.index seat ref
  case accounts =>
    intro other d' hd'
    rw [hlive]
    rw [hby] at hd'
    split at hd'
    · obtain ⟨d, hd, rfl⟩ := Option.map_eq_some_iff.1 hd'
      exact (h.accounts hd).congr rfl rfl rfl
    · exact h.accounts hd'
  case apart =>
    rw [hlive]
    exact h.apart
  case upholds =>
    intro link hm
    rw [hlive] at hm
    obtain ⟨hc, hs⟩ := hfree link hm
    exact (h.upholds link hm).of_policy? (hpolicy hc) (hpolicy hs)
  case formed =>
    rw [hlive]
    exact h.formed

theorem sheds_dropState (name : String) : tree.Sheds (tree.dropState name).value ∧
    (tree.dropState name).value.Unlinked name := by
  have hdis := h.dismisses_dismissLinksOfDomain name
  have hquiet : (tree.dismissLinksOfDomain name).value.2.Sheds (tree.dropState name).value :=
    .of_core hdis.sound (core_update (f := Domain.forgetHosts) fun _ _ => rfl)
  refine ⟨(Sheds.of_dismisses hdis).trans hquiet, fun link hm => ?_⟩
  obtain ⟨l, hl, -, hclient, hserver, -⟩ := hquiet.exists_of_mem hm
  have hends := not_or.1 ((hdis.mem l).1 hl).2
  rwa [hclient, hserver] at hends

/-- **Replacing a domain's addresses loses the domain's links and no others are broken.** -/
theorem sheds_replaceIpConfig (hd : tree.byName? name = some d) (config : Option IpConfig) :
    tree.Sheds (tree.replaceIpConfig name d.ipConfig config).value := by
  rw [value_replaceIpConfig]
  split
  · obtain ⟨hsheds, hfree⟩ := h.sheds_dropState name
    exact hsheds.trans (hsheds.sound.sheds_withIpConfig hfree config)
  · rename_i hnone
    exact h.sheds_withIpConfig (h.unlinked_of_ipConfig hd (by simpa using hnone)) config

theorem sheds_noteDependent (supplier name : String) :
    tree.Sheds (tree.noteDependent supplier name) :=
  .of_core h (core_update (f := (·.withDependent name (tree.isConfigured name))) fun _ _ => rfl)

/-! ## The domains that follow -/

/-- **A domain's new addresses, given on, lose links and break none.** -/
theorem sheds_install (config : Option IpConfig) (changes : Nat) (name : String) :
    tree.Sheds (install config changes tree name).value :=
  install_induction (P := tree.Sheds) (Q := fun _ => True)
    (fun ht _ hd _ => ht.trans (ht.sound.sheds_replaceIpConfig hd config)) (fun _ _ _ => trivial)
    (fun ht => ht.trans (ht.sound.sheds_noteDependent ..)) changes (.refl h) trivial

theorem sheds_installIpConfig (name : String) (config : Option IpConfig) :
    tree.Sheds (tree.installIpConfig name config).value :=
  h.sheds_install config tree.domains.length name

theorem sheds_setIpConfig {id : DomainId} {config : Option IpConfig}
    (hset : (tree.setIpConfig id config).value = .ok tree') : tree.Sheds tree' := by
  obtain ⟨d, -, -, rfl⟩ := setIpConfig_eq_ok hset
  exact h.sheds_installIpConfig d.name config

end Sound

end DomainTree

end SegmentRouter
