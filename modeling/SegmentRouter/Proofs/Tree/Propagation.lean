import Mathlib.Data.Finset.Card
import Mathlib.Logic.Relation
import SegmentRouter.Proofs.Tree.Following

/-!
# Proofs/Tree/Propagation — addresses that are given on come to an end

Whoever follows whom, even in circles or under one name, addresses that are given on change each
name at most once: a change takes a name out of those that have other addresses
(`DomainTree.unlike`), and nothing brings it back.  `DomainTree.Completes` is giving addresses on
for as long as there is something to do; the bounded number of changes that `install` is given is
never used up (`completes_installIpConfig`).
-/

namespace SegmentRouter

namespace DomainTree

variable {tree tree' tree'' : DomainTree} {config : Option IpConfig} {name supplier : String}
  {changed changed' followers : List String}

/-- What there is to do while addresses are given on. -/
inductive SupplyTask where
  /-- They are to be installed in a domain. -/
  | install (name : String)
  /-- Those of a supplier's followers that are left are to take them over. -/
  | supply (supplier : String) (followers : List String)

/-- A task is done, however much follows from it.  The list has the names of the domains whose
addresses were changed, in that order. -/
inductive Completes (config : Option IpConfig) :
    SupplyTask → DomainTree → List String → DomainTree → Prop
  | absent {tree : DomainTree} {name : String} (hd : tree.byName? name = none) :
      Completes config (.install name) tree [] tree
  | same {tree : DomainTree} {name : String} {d : Domain} (hd : tree.byName? name = some d)
      (hsame : d.ipConfig = config) : Completes config (.install name) tree [] tree
  | change {tree tree' : DomainTree} {name : String} {d : Domain} {changed : List String}
      (hd : tree.byName? name = some d) (hother : d.ipConfig ≠ config)
      (hrest : Completes config
        (.supply name ((tree.replaceIpConfig name d.ipConfig config).value.derivedFrom name))
        (tree.replaceIpConfig name d.ipConfig config).value changed tree') :
      Completes config (.install name) tree (name :: changed) tree'
  | done {tree : DomainTree} {supplier : String} :
      Completes config (.supply supplier []) tree [] tree
  | next {tree tree' tree'' : DomainTree} {supplier name : String}
      {followers changed changed' : List String}
      (hfirst : Completes config (.install name) tree changed tree')
      (hrest : Completes config (.supply supplier followers) (tree'.noteDependent supplier name)
        changed' tree'') :
      Completes config (.supply supplier (name :: followers)) tree (changed ++ changed') tree''

/-- **A task that can be done is done in one way.** -/
theorem Completes.unique {task : SupplyTask} (h : Completes config task tree changed tree')
    (h' : Completes config task tree changed' tree'') : changed' = changed ∧ tree'' = tree' := by
  induction h generalizing changed' tree'' with
  | absent hd =>
    cases h' with
    | absent => exact ⟨rfl, rfl⟩
    | same hd' => cases hd.symm.trans hd'
    | change hd' => cases hd.symm.trans hd'
  | same hd hsame =>
    cases h' with
    | absent => exact ⟨rfl, rfl⟩
    | same => exact ⟨rfl, rfl⟩
    | change hd' hother =>
      obtain rfl := Option.some.inj (hd.symm.trans hd')
      exact absurd hsame hother
  | change hd hother _ ih =>
    cases h' with
    | absent hd' => cases hd.symm.trans hd'
    | same hd' hsame =>
      obtain rfl := Option.some.inj (hd.symm.trans hd')
      exact absurd hsame hother
    | change hd' _ hrest =>
      obtain rfl := Option.some.inj (hd.symm.trans hd')
      obtain ⟨rfl, rfl⟩ := ih hrest
      exact ⟨rfl, rfl⟩
  | done =>
    cases h' with
    | done => exact ⟨rfl, rfl⟩
  | next _ _ ihfirst ihrest =>
    cases h' with
    | next hfirst hrest =>
      obtain ⟨rfl, rfl⟩ := ihfirst hfirst
      obtain ⟨rfl, rfl⟩ := ihrest hrest
      exact ⟨rfl, rfl⟩

/-- **What holds of one change and of one note, and of what is done one after the other, holds of
whatever is given on.** -/
theorem Completes.of_steps {R : DomainTree → List String → DomainTree → Prop}
    (hrefl : ∀ tree, R tree [] tree)
    (htrans : ∀ {tree tree' tree'' changed changed'}, R tree changed tree' →
      R tree' changed' tree'' → R tree (changed ++ changed') tree'')
    (hchange : ∀ {tree name d}, tree.byName? name = some d → d.ipConfig ≠ config →
      R tree [name] (tree.replaceIpConfig name d.ipConfig config).value)
    (hnote : ∀ tree supplier name, R tree [] (tree.noteDependent supplier name))
    {task : SupplyTask} (h : Completes config task tree changed tree') : R tree changed tree' := by
  induction h with
  | absent | same | done => exact hrefl _
  | change hd hother _ ih => exact htrans (hchange hd hother) ih
  | next _ _ ihfirst ihrest => exact htrans ihfirst (htrans (hnote ..) ihrest)

/-! ## What changes -/

/-- Exactly the addresses of some domains were changed, each once and to what was to be installed,
and nothing that does not belong to addresses. -/
structure Alters (tree : DomainTree) (config : Option IpConfig) (changed : List String)
    (tree' : DomainTree) : Prop where
  shell : tree'.shell = tree.shell
  nodup : changed.Nodup
  exists_byName? : ∀ name ∈ changed, (tree.byName? name).isSome
  other : ∀ name ∈ changed, tree.ipConfig? name ≠ config
  ipConfig? : ∀ name,
    tree'.ipConfig? name = if name ∈ changed then config else tree.ipConfig? name

namespace Alters

theorem refl (tree : DomainTree) : tree.Alters config [] tree where
  shell := rfl
  nodup := List.nodup_nil
  exists_byName? _ := nofun
  other _ := nofun
  ipConfig? _ := rfl

theorem trans (h : tree.Alters config changed tree') (h' : tree'.Alters config changed' tree'') :
    tree.Alters config (changed ++ changed') tree'' where
  shell := h'.shell.trans h.shell
  nodup := by
    refine List.nodup_append'.2 ⟨h.nodup, h'.nodup, fun name hm hm' => h'.other name hm' ?_⟩
    rw [h.ipConfig?, if_pos hm]
  exists_byName? name hm := by
    refine (List.mem_append.1 hm).elim (h.exists_byName? name) fun hm' => ?_
    rw [← isSome_byName?_of_shell h.shell]
    exact h'.exists_byName? name hm'
  other name hm := by
    by_cases hfirst : name ∈ changed
    · exact h.other name hfirst
    · have hother := h'.other name ((List.mem_append.1 hm).resolve_left hfirst)
      rwa [h.ipConfig?, if_neg hfirst] at hother
  ipConfig? name := by
    rw [h'.ipConfig?, h.ipConfig?]
    by_cases hfirst : name ∈ changed <;> simp [hfirst]

theorem replaceIpConfig {d : Domain} (hd : tree.byName? name = some d)
    (hother : d.ipConfig ≠ config) :
    tree.Alters config [name] (tree.replaceIpConfig name d.ipConfig config).value where
  shell := shell_replaceIpConfig ..
  nodup := List.nodup_singleton name
  exists_byName? other hm := by
    rw [List.mem_singleton.1 hm, hd]
    rfl
  other other hm := by
    rw [List.mem_singleton.1 hm, DomainTree.ipConfig?, hd]
    exact hother
  ipConfig? other := by
    rw [ipConfig?_replaceIpConfig (by rw [hd]; rfl)]
    simp only [List.mem_singleton]

theorem noteDependent (tree : DomainTree) (supplier name : String) :
    tree.Alters config [] (tree.noteDependent supplier name) where
  shell := shell_noteDependent ..
  nodup := List.nodup_nil
  exists_byName? _ := nofun
  other _ := nofun
  ipConfig? _ := ipConfig?_noteDependent ..

end Alters

/-- **Giving addresses on alters the domains that it changes.** -/
theorem Completes.alters {task : SupplyTask} (h : Completes config task tree changed tree') :
    tree.Alters config changed tree' :=
  h.of_steps (R := fun tree changed tree' => tree.Alters config changed tree') .refl
    .trans .replaceIpConfig .noteDependent

/-- A domain in which addresses were installed has them. -/
theorem Completes.ipConfig?_eq (h : Completes config (.install name) tree changed tree')
    (hd : (tree.byName? name).isSome) : tree'.ipConfig? name = config := by
  cases h with
  | absent hnone =>
    rw [hnone] at hd
    cases hd
  | same hd hsame => rw [ipConfig?, hd, Option.bind_some, hsame]
  | change hd hother hrest =>
    rw [hrest.alters.ipConfig?, ipConfig?_replaceIpConfig (by rw [hd]; rfl), if_pos rfl, ite_self]

/-! ## Where changes come from -/

/-- A domain has its addresses from another one, directly or through others, or is that one. -/
def Descends (tree : DomainTree) : String → String → Prop :=
  Relation.ReflTransGen fun supplier follower => follower ∈ tree.derivedFrom supplier

theorem descends_of_shell (h : tree'.shell = tree.shell) :
    tree'.Descends supplier name ↔ tree.Descends supplier name := by
  simp only [Descends, derivedFrom_of_shell h]

/-- The domains in which a task begins. -/
def SupplyTask.starts : SupplyTask → List String
  | install name => [name]
  | supply _ followers => followers

/-- **A change goes from supplier to follower**, from where it began to wherever it comes. -/
theorem Completes.chain {task : SupplyTask} {other : String}
    (h : Completes config task tree changed tree') (hm : other ∈ changed) :
    ∃ start ∈ task.starts, Relation.ReflTransGen
      (fun supplier follower => supplier ∈ changed ∧ follower ∈ tree.derivedFrom supplier)
      start other := by
  induction h with
  | absent | same | done => cases hm
  | @change tree _ name d changed _ _ _ ih =>
    have hshell := tree.shell_replaceIpConfig name d.ipConfig config
    refine ⟨name, List.mem_singleton_self name, ?_⟩
    obtain rfl | hm := List.mem_cons.1 hm
    · exact .refl
    · obtain ⟨start, hstart, hchain⟩ := ih hm
      rw [SupplyTask.starts, derivedFrom_of_shell hshell] at hstart
      simp only [derivedFrom_of_shell hshell] at hchain
      exact .head ⟨List.mem_cons_self, hstart⟩
        (Relation.ReflTransGen.mono (fun _ _ hstep => ⟨List.mem_cons_of_mem _ hstep.1, hstep.2⟩)
          _ _ hchain)
  | @next _ _ _ supplier name _ _ _ hfirst _ ihfirst ihrest =>
    have hshell := (shell_noteDependent _ supplier name).trans hfirst.alters.shell
    rcases List.mem_append.1 hm with hm | hm
    · obtain ⟨start, hstart, hchain⟩ := ihfirst hm
      refine ⟨start, List.mem_cons.2 (.inl (List.mem_singleton.1 hstart)), ?_⟩
      exact Relation.ReflTransGen.mono
        (fun _ _ hstep => ⟨List.mem_append_left _ hstep.1, hstep.2⟩) _ _ hchain
    · obtain ⟨start, hstart, hchain⟩ := ihrest hm
      refine ⟨start, List.mem_cons_of_mem _ hstart, ?_⟩
      simp only [derivedFrom_of_shell hshell] at hchain
      exact Relation.ReflTransGen.mono
        (fun _ _ hstep => ⟨List.mem_append_right _ hstep.1, hstep.2⟩) _ _ hchain

/-- So whatever is changed has its addresses from where the change began. -/
theorem Completes.descends {other : String}
    (h : Completes config (.install name) tree changed tree') (hm : other ∈ changed) :
    tree.Descends name other := by
  obtain ⟨start, hstart, hchain⟩ := h.chain hm
  rw [← List.mem_singleton.1 hstart]
  exact Relation.ReflTransGen.mono (fun _ _ hstep => hstep.2) _ _ hchain

/-! ## The end -/

/-- The names of the domains that have other addresses. -/
def unlike (tree : DomainTree) (config : Option IpConfig) : Finset String :=
  tree.names.toFinset.filter (tree.ipConfig? · ≠ config)

theorem mem_unlike : name ∈ tree.unlike config ↔
    (tree.byName? name).isSome ∧ tree.ipConfig? name ≠ config := by
  rw [unlike, Finset.mem_filter, List.mem_toFinset, isSome_byName?_iff]

/-- There are no more of them than domains. -/
theorem card_unlike_le (tree : DomainTree) (config : Option IpConfig) :
    (tree.unlike config).card ≤ tree.domains.length :=
  calc (tree.unlike config).card ≤ tree.names.toFinset.card := Finset.card_filter_le ..
    _ ≤ tree.names.length := List.toFinset_card_le _
    _ = tree.domains.length := List.length_map _

/-- **A name that was changed is none of them any more**, and no other name becomes one. -/
theorem Alters.unlike (h : tree.Alters config changed tree') :
    tree'.unlike config = tree.unlike config \ changed.toFinset := by
  ext name
  rw [mem_unlike, isSome_byName?_of_shell h.shell, h.ipConfig?, Finset.mem_sdiff, mem_unlike,
    List.mem_toFinset]
  by_cases hm : name ∈ changed <;> simp [hm]

theorem Alters.card_unlike_le (h : tree.Alters config changed tree') :
    (tree'.unlike config).card ≤ (tree.unlike config).card := by
  rw [h.unlike]
  exact Finset.card_le_card Finset.sdiff_subset

/-- A change leaves one name less to change. -/
theorem card_unlike_replaceIpConfig {d : Domain} (hd : tree.byName? name = some d)
    (hother : d.ipConfig ≠ config) :
    ((tree.replaceIpConfig name d.ipConfig config).value.unlike config).card <
      (tree.unlike config).card := by
  have halters := Alters.replaceIpConfig hd hother
  have hmem := List.mem_singleton_self name
  rw [halters.unlike]
  refine Finset.card_lt_card ((Finset.ssubset_iff_of_subset Finset.sdiff_subset).2 ⟨name, ?_, ?_⟩)
  · exact mem_unlike.2 ⟨halters.exists_byName? name hmem, halters.other name hmem⟩
  · rw [Finset.mem_sdiff, List.mem_toFinset]
    exact fun h => h.2 hmem

/-- Followers take addresses over one after the other, if each can. -/
theorem completes_supplyWith {follow : DomainTree → String → Logged DomainTree} {bound : Nat}
    (supplier : String) (hfollow : ∀ tree name, (tree.unlike config).card ≤ bound →
      ∃ changed, Completes config (.install name) tree changed (follow tree name).value)
    (followers : List String) (htree : (tree.unlike config).card ≤ bound) :
    ∃ changed, Completes config (.supply supplier followers) tree changed
      (supplyWith follow supplier followers tree).value := by
  induction followers generalizing tree with
  | nil => exact ⟨[], .done⟩
  | cons name rest ih =>
    obtain ⟨changed, hfirst⟩ := hfollow tree name htree
    have halters := hfirst.alters.trans (.noteDependent _ supplier name)
    obtain ⟨changed', hrest⟩ := ih (halters.card_unlike_le.trans htree)
    exact ⟨changed ++ changed', .next hfirst hrest⟩

/-- **As many changes as there are names to change are enough.** -/
theorem completes_install (changes : Nat) (tree : DomainTree) (name : String)
    (hchanges : (tree.unlike config).card ≤ changes) :
    ∃ changed, Completes config (.install name) tree changed
      (install config changes tree name).value := by
  induction changes generalizing tree name with
  | zero =>
    unfold install
    split
    · rename_i hd
      exact ⟨[], .absent hd⟩
    · rename_i d hd
      refine ⟨[], ?_⟩
      have hsame : d.ipConfig = config := by
        by_contra hother
        exact absurd (card_unlike_replaceIpConfig hd hother) (by omega)
      rw [if_pos hsame]
      exact .same hd hsame
  | succ changes ih =>
    unfold install
    split
    · rename_i hd
      exact ⟨[], .absent hd⟩
    · rename_i d hd
      split
      · rename_i hsame
        exact ⟨[], .same hd hsame⟩
      · rename_i hother
        have hless := card_unlike_replaceIpConfig hd hother
        obtain ⟨changed, hrest⟩ := completes_supplyWith name ih
          ((tree.replaceIpConfig name d.ipConfig config).value.derivedFrom name)
          (Nat.le_of_lt_succ (hless.trans_le hchanges))
        exact ⟨name :: changed, .change hd hother hrest⟩

/-- There are as many changes as domains, so they are enough. -/
theorem exists_completes (tree : DomainTree) (name : String) (config : Option IpConfig) :
    ∃ changed, Completes config (.install name) tree changed
      (tree.installIpConfig name config).value :=
  completes_install tree.domains.length tree name (tree.card_unlike_le config)

/-- **Addresses that are given on come to an end in every tree**, whatever its domains are called
and wherever they have their addresses from.  There is one way in which it is done, and it ends in
the tree that `installIpConfig` gives; no name is changed twice, the changes are those that are seen
in the end, and the domain in which the addresses were installed has them then. -/
theorem completes_installIpConfig (tree : DomainTree) (name : String) (config : Option IpConfig) :
    ∃ changed : List String,
      (∀ changed' tree', Completes config (.install name) tree changed' tree' ↔
        changed' = changed ∧ tree' = (tree.installIpConfig name config).value) ∧
      changed.Nodup ∧
      (∀ other ∈ changed, (tree.byName? other).isSome ∧ tree.ipConfig? other ≠ config) ∧
      (∀ other, (tree.installIpConfig name config).value.ipConfig? other =
        if other ∈ changed then config else tree.ipConfig? other) ∧
      ((tree.byName? name).isSome →
        (tree.installIpConfig name config).value.ipConfig? name = config) := by
  obtain ⟨changed, h⟩ := tree.exists_completes name config
  refine ⟨changed, fun changed' tree' => ⟨h.unique, ?_⟩, h.alters.nodup, fun other hm => ?_,
    h.alters.ipConfig?, h.ipConfig?_eq⟩
  · rintro ⟨rfl, rfl⟩
    exact h
  · exact ⟨h.alters.exists_byName? other hm, h.alters.other other hm⟩

end DomainTree

end SegmentRouter
