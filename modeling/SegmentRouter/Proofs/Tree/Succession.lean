import SegmentRouter.Proofs.Tree.Rebuild
import SegmentRouter.Proofs.Tree.Survivors

/-!
# Proofs/Tree/Succession — from one generation of domains to the next

The loop over the previous links says which survive in terms of the list that it goes through and of
the names that it is given.  Here this is said of the two generations alone (`Sound.next`): of all
links that conform to the later rules, those that older ones leave a port are kept.
-/

namespace SegmentRouter

namespace DomainTree

variable {tree before after previous : DomainTree} {config : Config} {link : Link} {name : String}

/-! ## The order of the links -/

theorem Distinct.values_perm (hd : tree.Distinct) :
    (SortedMap.ofList (tree.domains.map fun d => (d.name, d))).values.Perm tree.domains := by
  have hkeys : ((tree.domains.map fun d => (d.name, d)).map (·.1)).Nodup := by
    rw [List.map_map]
    exact hd
  have hperm := (SortedMap.toList_ofList hkeys).map (·.2)
  rw [List.map_map] at hperm
  exact hperm.trans (List.Perm.of_eq (List.map_id _))

theorem Distinct.allLinks_perm (hd : tree.Distinct) : tree.allLinks.Perm tree.liveLinks :=
  hd.values_perm.flatMap_right _

/-- **The links of one client's domain stand in the order of their ids.** -/
theorem Sound.pairwise_allLinks (h : tree.Sound) : tree.allLinks.Pairwise fun a b =>
    a.client.domain = b.client.domain → a.id < b.id := by
  have hheld : ∀ {d id l}, d ∈ tree.domains → d.links.owned.get? id = some l →
      l.id = id ∧ l.client.domain = d.name := by
    intro d id l hd hl
    refine h.held ?_
    rw [ownedLink?, h.distinct.byName?_of_mem hd]
    exact hl
  have hmem : ∀ {d}, d ∈ (SortedMap.ofList (tree.domains.map fun d => (d.name, d))).values →
      d ∈ tree.domains := h.distinct.values_perm.mem_iff.1
  refine List.pairwise_flatMap.2 ⟨fun d hd => ?_, ?_⟩
  · refine SortedMap.pairwise_values fun {k j a b} ha hb hlt _ => ?_
    obtain ⟨rfl, -⟩ := hheld (hmem hd) ha
    obtain ⟨rfl, -⟩ := hheld (hmem hd) hb
    exact of_decide_eq_true hlt
  · have hnames : (SortedMap.ofList (tree.domains.map fun d => (d.name, d))).values.Pairwise
        fun a b => a.name ≠ b.name :=
      (h.distinct.values_perm.map Domain.name).nodup_iff.2 h.distinct |> List.pairwise_map.1
    refine hnames.imp_of_mem fun hd he hne a ha b hb hclient => ?_
    obtain ⟨i, hi⟩ := SortedMap.mem_values_iff.1 ha
    obtain ⟨j, hj⟩ := SortedMap.mem_values_iff.1 hb
    exact absurd ((hheld (hmem hd) hi).2.symm.trans (hclient.trans (hheld (hmem he) hj).2)) hne

/-! ## Domains that change their kind -/

/-- Whether the domain with a name became static, or ceased to be. -/
def switched (before after : DomainTree) (name : String) : Bool :=
  match before.byName? name, after.byName? name with
  | some old, some new => new.isStatic != old.isStatic
  | _, _ => false

theorem mem_changedKinds (previous : DomainTree) (domains : List Domain) :
    name ∈ (previous.changedKinds domains).value ↔
      ∃ d ∈ domains, previous.changesKind d = true ∧ d.name = name := by
  induction domains with
  | nil => simp [changedKinds]
  | cons d rest ih =>
    have hvalue : (previous.changedKinds (d :: rest)).value =
        if previous.changesKind d then d.name :: (previous.changedKinds rest).value
        else (previous.changedKinds rest).value := rfl
    rw [hvalue]
    simp only [List.mem_cons, exists_eq_or_imp, ← ih]
    split
    · rename_i hc
      rw [List.mem_cons, and_iff_right hc, eq_comm]
    · rename_i hc
      rw [or_iff_right fun h => hc h.1]

theorem switched_eq_of_bases {tree' : DomainTree} (h : tree'.bases = tree.bases) (name : String) :
    before.switched tree' name = before.switched tree name := by
  have hkind : ∀ t : DomainTree, (t.byName? name).map Domain.isStatic =
      (findByName? name t.bases).map Domain.isStatic := by
    intro t
    rw [bases, findByName?_map Domain.name_base, Option.map_map]
    rfl
  have hsame : (tree'.byName? name).map Domain.isStatic =
      (tree.byName? name).map Domain.isStatic := by
    rw [hkind, h, hkind]
  have hswitched : ∀ t : DomainTree, before.switched t name =
      ((before.byName? name).bind fun old => ((t.byName? name).map Domain.isStatic).map
        (· != old.isStatic)).getD false := by
    intro t
    rw [switched]
    cases before.byName? name with
    | none => rfl
    | some old => cases t.byName? name <;> rfl
  rw [hswitched, hsame, hswitched]

/-- **The names that a new configuration is given are those that changed their kind.** -/
theorem mem_changed_rebuild (hnames : (config.domains.map (·.name)).Nodup) :
    previous.switched (previous.rebuild config).value.2 name = true ↔
      name ∈ (previous.rebuild config).value.1 := by
  have hraw : (previous.raw config).Distinct := by
    rw [Distinct, names_raw]
    exact hnames
  rw [switched_eq_of_bases (previous.sheds_rebuild hnames).bases]
  refine .trans ?_ (mem_changedKinds previous (previous.raw config).domains).symm
  constructor
  · intro hs
    rw [switched] at hs
    split at hs
    · rename_i old d hold hd
      obtain rfl := name_of_byName? hd
      refine ⟨d, mem_of_byName? hd, ?_, rfl⟩
      rw [changesKind, hold]
      exact hs
    · cases hs
  · rintro ⟨d, hd, hchanges, rfl⟩
    rw [switched, hraw.byName?_of_mem hd]
    rw [changesKind] at hchanges
    cases hold : previous.byName? d.name with
    | none =>
      rw [hold] at hchanges
      cases hchanges
    | some old =>
      rw [hold] at hchanges
      exact hchanges

/-! ## What is kept -/

/-- Only policies count. -/
theorem survives_of_policies {tree' : DomainTree} (h : tree'.policies = tree.policies)
    (links : List Link) (link : Link) :
    tree'.Survives (before.switched tree') links link ↔
      tree.Survives (before.switched tree) links link := by
  have hswitched : before.switched tree' = before.switched tree :=
    funext fun name => switched_eq_of_bases (bases_of_policies h) name
  have hconf : ∀ l, tree'.Conforms (before.switched tree) l ↔
      tree.Conforms (before.switched tree) l := by
    intro l
    have hup : tree'.Upholds l ↔ tree.Upholds l :=
      ⟨fun hu => hu.of_policies h.symm, fun hu => hu.of_policies h⟩
    rw [Conforms, Conforms, hup]
  have holder : tree'.olderClaimants (before.switched tree) links link =
      tree.olderClaimants (before.switched tree) links link :=
    List.countP_congr fun l _ => by simp only [hconf]
  rw [hswitched, Survives, Survives, hconf, Fits, Fits, holder, quota_of_policies h]

/-- The next domains with those links of a list taken over that the rules allow. -/
def readmitted (previous : DomainTree) (config : Config) (links : List Link) : DomainTree :=
  (readmitAll (previous.rebuild config).value.1 links (previous.rebuild config).value.2).value.2

theorem next_eq (previous : DomainTree) (config : Config) :
    (previous.next config).value = previous.readmitted config previous.allLinks := rfl

/-- The first of the links are taken over as far as they survive. -/
theorem Sound.readmits (h : previous.Sound) (hnames : (config.domains.map (·.name)).Nodup)
    {earlier later : List Link} (hall : previous.allLinks = earlier ++ later) :
    (previous.rebuild config).value.2.Readmits
      (previous.switched (previous.rebuild config).value.2) earlier
      (previous.readmitted config earlier) := by
  have hrebuild := previous.sheds_rebuild hnames
  have hids := h.pairwise_allLinks
  rw [hall] at hids
  rw [readmitted, tree_readmitAll]
  refine readmits_foldl hrebuild.sound
    (hrebuild.liveLinks_eq_nil (liveLinks_of_idle (previous.idle_raw config))) h
    (fun name => mem_changed_rebuild hnames) (fun l hl => ?_) (List.pairwise_append.1 hids).1
  exact h.distinct.allLinks_perm.mem_iff.1 (hall ▸ List.mem_append_left _ hl)

/-- **The next generation is sound and keeps exactly the links that it should.** -/
theorem Sound.next (h : previous.Sound) (hnames : (config.domains.map (·.name)).Nodup) :
    (previous.next config).value.Sound ∧ ∀ link, link ∈ (previous.next config).value.liveLinks ↔
      link ∈ previous.liveLinks ∧ (previous.next config).value.Survives
        (previous.switched (previous.next config).value) previous.liveLinks link := by
  have hreadmits := h.readmits hnames (List.append_nil previous.allLinks).symm
  have hperm := h.distinct.allLinks_perm
  rw [next_eq]
  refine ⟨hreadmits.sound, fun link => ?_⟩
  rw [survives_of_policies hreadmits.policies, hreadmits.mem, hperm.mem_iff, Survives, Survives,
    olderClaimants, olderClaimants, hperm.countP_eq]

end DomainTree

end SegmentRouter
