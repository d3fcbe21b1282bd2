import Mathlib.Data.List.Nodup
import SegmentRouter.Domain.Tree

/-!
# Proofs/Domain/Names — domains known by their names

A change of one domain replaces it in its place (`changeByName_eq_append`), so what a tree says of
the others stays.  In a tree whose domains have different names the name, the place and the handle
of a domain name the same one.
-/

namespace SegmentRouter

namespace DomainTree

variable {tree : DomainTree} {ds : List Domain} {d : Domain} {name : String} {id : DomainId}

/-! ## Lists of domains -/

theorem findByName?_eq_none_iff : findByName? name ds = none ↔ ∀ d ∈ ds, d.name ≠ name := by
  induction ds with
  | nil => simp [findByName?]
  | cons e ds ih =>
    rw [findByName?]
    cases h : findByName? name ds with
    | some f =>
      have hf : ¬ ∀ d ∈ ds, d.name ≠ name := fun hall => by
        rw [ih.2 hall] at h
        cases h
      simp only [reduceCtorEq, false_iff]
      exact fun hall => hf fun d hd => hall d (List.mem_cons_of_mem _ hd)
    | none =>
      have hall := ih.1 h
      by_cases he : e.name = name
      · simp [he]
      · simpa [he] using hall

/-- **A change by name replaces one domain in its place.** -/
theorem changeByName_eq_append (h : findByName? name ds = some d) :
    ∃ pre post, ds = pre ++ d :: post ∧
      ∀ f, changeByName name f ds = pre ++ f d :: post := by
  induction ds with
  | nil => simp [findByName?] at h
  | cons e ds ih =>
    have hs := isSome_indexOf? name ds
    rw [findByName?] at h
    cases hf : findByName? name ds with
    | some f =>
      rw [hf] at h hs
      obtain ⟨i, hi⟩ := Option.isSome_iff_exists.1 hs
      obtain ⟨pre, post, rfl, hpost⟩ := ih (hf.trans h)
      exact ⟨e :: pre, post, rfl, fun g => by rw [changeByName, hi, hpost]; rfl⟩
    | none =>
      rw [hf] at h hs
      have hi : indexOf? name ds = none := by simpa using hs
      by_cases he : e.name = name
      · obtain rfl : e = d := by simpa [he] using h
        exact ⟨[], ds, rfl, fun g => by simp [changeByName, hi, he]⟩
      · simp [he] at h

theorem changeByName_of_none (h : findByName? name ds = none) (f : Domain → Domain) :
    changeByName name f ds = ds := by
  induction ds with
  | nil => rfl
  | cons e ds ih =>
    have hall := findByName?_eq_none_iff.1 h
    have hn : findByName? name ds = none :=
      findByName?_eq_none_iff.2 fun d hd => hall d (List.mem_cons_of_mem _ hd)
    have hi : indexOf? name ds = none := by simpa [hn] using isSome_indexOf? name ds
    simp [changeByName, hi, hall e List.mem_cons_self]

/-- A change that a view of the domains does not see leaves the view of the list. -/
theorem map_changeByName {β : Type} {g : Domain → β} {f : Domain → Domain}
    (h : ∀ d, findByName? name ds = some d → g (f d) = g d) :
    (changeByName name f ds).map g = ds.map g := by
  cases hf : findByName? name ds with
  | none => rw [changeByName_of_none hf]
  | some d =>
    obtain ⟨pre, post, hds, hc⟩ := changeByName_eq_append hf
    rw [hc, hds, List.map_append, List.map_append, List.map_cons, List.map_cons, h d hf]

theorem map_modify {β : Type} {g : Domain → β} {f : Domain → Domain} (h : ∀ d, g (f d) = g d)
    (ds : List Domain) (i : Nat) : (ds.modify i f).map g = ds.map g := by
  refine List.ext_getElem? fun j => ?_
  rw [List.getElem?_map, List.getElem?_map, List.getElem?_modify]
  by_cases hj : i = j
  · cases ds[j]? <;> simp [hj, h]
  · simp [hj]

theorem findByName?_map {g : Domain → Domain} (h : ∀ d, (g d).name = d.name) (name : String)
    (ds : List Domain) : findByName? name (ds.map g) = (findByName? name ds).map g := by
  induction ds with
  | nil => rfl
  | cons d ds ih =>
    rw [List.map_cons, findByName?, findByName?, ih, h]
    cases findByName? name ds with
    | some e => rfl
    | none => by_cases hd : d.name = name <;> simp [hd]

theorem indexOf?_congr {ds ds' : List Domain} (name : String)
    (h : ds'.map Domain.name = ds.map Domain.name) :
    indexOf? name ds' = indexOf? name ds := by
  induction ds generalizing ds' with
  | nil => rw [List.map_eq_nil_iff.1 h]
  | cons d ds ih =>
    obtain ⟨d', ds', rfl, hd, hds⟩ := List.map_eq_cons_iff.1 h
    rw [indexOf?, indexOf?, ih hds, hd]

/-- Of a list whose domains were all changed one may be changed as it would have been before. -/
theorem modify_map {g f f' : Domain → Domain} (h : ∀ d, f (g d) = g (f' d)) (ds : List Domain)
    (i : Nat) : (ds.map g).modify i f = (ds.modify i f').map g := by
  refine List.ext_getElem? fun j => ?_
  rw [List.getElem?_map, List.getElem?_modify, List.getElem?_modify, List.getElem?_map]
  cases ds[j]? with
  | none => simp
  | some d => by_cases hj : i = j <;> simp [hj, h]

theorem changeByName_map {g f f' : Domain → Domain} (hname : ∀ d, (g d).name = d.name)
    (h : ∀ d, findByName? name ds = some d → f (g d) = g (f' d)) :
    changeByName name f (ds.map g) = (changeByName name f' ds).map g := by
  induction ds with
  | nil => rfl
  | cons e ds ih =>
    have hnames : (ds.map g).map Domain.name = ds.map Domain.name := by
      rw [List.map_map]
      exact List.map_congr_left fun d _ => hname d
    have hindex : indexOf? name (ds.map g) = indexOf? name ds := indexOf?_congr name hnames
    rw [List.map_cons, changeByName, changeByName, hindex, hname]
    cases hi : indexOf? name ds with
    | some i =>
      refine congrArg (g e :: ·) (ih fun d hd => h d ?_)
      rw [findByName?, hd]
    | none =>
      have hs := isSome_indexOf? name ds
      rw [hi] at hs
      have hnone : findByName? name ds = none := by simpa using hs.symm
      by_cases he : e.name = name
      · simp [he, h e (by rw [findByName?, hnone]; simp [he])]
      · simp [he]

/-- What can be seen of what is left of the domains. -/
theorem map_congr_of_map {β γ : Type} {f : Domain → γ} {g : Domain → β} {k : γ → β}
    (hk : ∀ d, k (f d) = g d) {ds ds' : List Domain} (h : ds'.map f = ds.map f) :
    ds'.map g = ds.map g := by
  have hmap : ∀ l : List Domain, l.map g = (l.map f).map k := fun l => by
    rw [List.map_map]
    exact List.map_congr_left fun d _ => (hk d).symm
  rw [hmap, h, ← hmap]

theorem mem_of_findByName? (h : findByName? name ds = some d) : d ∈ ds := by
  obtain ⟨pre, post, rfl, -⟩ := changeByName_eq_append h
  simp

theorem findByName?_of_mem (hn : (ds.map Domain.name).Nodup) (hd : d ∈ ds) :
    findByName? d.name ds = some d := by
  induction ds with
  | nil => simp at hd
  | cons e ds ih =>
    obtain ⟨he, hds⟩ := List.nodup_cons.1 hn
    rw [findByName?]
    rcases List.mem_cons.1 hd with rfl | hd
    · have : findByName? d.name ds = none :=
        findByName?_eq_none_iff.2 fun x hx hxd => he (List.mem_map.2 ⟨x, hx, hxd⟩)
      simp [this]
    · rw [ih hds hd]

theorem changeByName_changeByName {f g : Domain → Domain}
    (hf : ∀ d, d.name = name → (f d).name = name) (ds : List Domain) :
    changeByName name g (changeByName name f ds) = changeByName name (g ∘ f) ds := by
  have hname : ∀ d, d.name = name → (f d).name = d.name := fun d hd => (hf d hd).trans hd.symm
  induction ds with
  | nil => rfl
  | cons d ds ih =>
    have hi := indexOf?_congr name
      (map_changeByName fun d hd => hname d (name_of_findByName? hd) :
        (changeByName name f ds).map Domain.name = ds.map Domain.name)
    cases h : indexOf? name ds with
    | some i => simp only [changeByName, h, hi, ih]
    | none =>
      by_cases hd : d.name = name
      · simp only [changeByName, h, if_pos hd, if_pos (hf d hd), Function.comp_apply]
      · simp only [changeByName, h, if_neg hd]

theorem getElem?_of_indexOf? {i : Nat} (h : indexOf? name ds = some i) :
    ds[i]? = findByName? name ds := by
  induction ds generalizing i with
  | nil => simp [indexOf?] at h
  | cons d ds ih =>
    have hs := isSome_indexOf? name ds
    rw [indexOf?] at h
    rw [findByName?]
    cases hi : indexOf? name ds with
    | some j =>
      rw [hi] at h hs
      obtain ⟨e, he⟩ := Option.isSome_iff_exists.1 hs.symm
      obtain rfl : j + 1 = i := Option.some.inj h
      rw [List.getElem?_cons_succ, ih hi, he]
    | none =>
      rw [hi] at h hs
      have hn : findByName? name ds = none := by simpa using hs.symm
      by_cases hd : d.name = name
      · obtain rfl : 0 = i := by simpa [hd] using h
        simp [hn, hd]
      · simp [hd] at h

/-- The place of a name is where the domain of that name is changed. -/
theorem modify_of_indexOf? {i : Nat} (h : indexOf? name ds = some i) (f : Domain → Domain) :
    ds.modify i f = changeByName name f ds := by
  induction ds generalizing i with
  | nil => cases h
  | cons d ds ih =>
    rw [indexOf?] at h
    rw [changeByName]
    cases hi : indexOf? name ds with
    | some j =>
      rw [hi] at h
      obtain rfl : j + 1 = i := Option.some.inj h
      rw [List.modify_succ_cons, ih hi]
    | none =>
      rw [hi] at h
      by_cases hd : d.name = name
      · obtain rfl : 0 = i := by simpa [hd] using h
        simp [hd]
      · simp [hd] at h

/-! ## Trees -/

/-- The names of the domains, in their order. -/
def names (tree : DomainTree) : List String :=
  tree.domains.map Domain.name

/-- No two domains have the same name. -/
def Distinct (tree : DomainTree) : Prop :=
  tree.names.Nodup

theorem name_of_byName? (h : tree.byName? name = some d) : d.name = name :=
  name_of_findByName? h

theorem mem_of_byName? (h : tree.byName? name = some d) : d ∈ tree.domains :=
  mem_of_findByName? h

theorem isSome_byName?_iff : (tree.byName? name).isSome ↔ name ∈ tree.names := by
  rw [Option.isSome_iff_ne_none, Ne, byName?, findByName?_eq_none_iff, names, List.mem_map]
  simp only [not_forall, not_not, exists_prop]

/-- **A domain is found by its name.** -/
theorem Distinct.byName?_of_mem (hd : tree.Distinct) (h : d ∈ tree.domains) :
    tree.byName? d.name = some d :=
  findByName?_of_mem hd h

theorem isSome_id? (tree : DomainTree) (name : String) :
    (tree.id? name).isSome = (tree.byName? name).isSome := by
  rw [id?, Option.isSome_map, isSome_indexOf?]
  rfl

theorem mem_of_get? (h : tree.get? id = some d) : d ∈ tree.domains := by
  unfold get? at h
  split at h
  · exact List.mem_of_getElem? h
  · cases h

/-- The handle of a name is one of the domain with that name. -/
theorem get?_of_id? (h : tree.id? name = some id) : tree.get? id = tree.byName? name := by
  obtain ⟨i, hi, rfl⟩ := Option.map_eq_some_iff.1 h
  rw [get?, if_pos rfl, getElem?_of_indexOf? hi, byName?]

/-- Changing the domain of a good handle is changing the one with that name. -/
theorem updateAt_of_id? (h : tree.id? name = some id) (f : Domain → Domain) :
    tree.updateAt id f = tree.update name f := by
  obtain ⟨i, hi, rfl⟩ := Option.map_eq_some_iff.1 h
  rw [updateAt, if_pos rfl, modify_of_indexOf? hi, update]

/-- A domain may be changed after all were changed as it would have been before. -/
theorem updateAt_map (tree : DomainTree) (id : DomainId) {g f f' : Domain → Domain}
    (h : ∀ d, f (g d) = g (f' d)) :
    ({ tree with domains := tree.domains.map g } : DomainTree).updateAt id f =
      { tree.updateAt id f' with domains := (tree.updateAt id f').domains.map g } := by
  unfold updateAt
  split
  · exact congrArg (fun domains => ({ tree with domains } : DomainTree))
      (modify_map h tree.domains id.index)
  · rfl

theorem update_map (tree : DomainTree) {g f f' : Domain → Domain}
    (hname : ∀ d, (g d).name = d.name)
    (h : ∀ d, tree.byName? name = some d → f (g d) = g (f' d)) :
    ({ tree with domains := tree.domains.map g } : DomainTree).update name f =
      { tree.update name f' with domains := (tree.update name f').domains.map g } :=
  congrArg (fun domains => ({ tree with domains } : DomainTree)) (changeByName_map hname h)

theorem id?_congr {tree' : DomainTree} (hg : tree'.generation = tree.generation)
    (hn : tree'.names = tree.names) (name : String) : tree'.id? name = tree.id? name := by
  rw [id?, id?, indexOf?_congr name hn, hg]

/-- What can be seen by a name of what is left of the domains. -/
theorem map_byName?_congr {β : Type} {f : Domain → Domain} {g : Domain → β} {tree' : DomainTree}
    {k : Domain → β} (hname : ∀ d, (f d).name = d.name) (hk : ∀ d, k (f d) = g d)
    (h : tree'.domains.map f = tree.domains.map f) (name : String) :
    (tree'.byName? name).map g = (tree.byName? name).map g := by
  have hmap : ∀ t : DomainTree,
      (t.byName? name).map g = (findByName? name (t.domains.map f)).map k := fun t => by
    rw [findByName?_map hname, Option.map_map]
    exact congrArg (Option.map · (t.byName? name)) (funext fun d => (hk d).symm)
  rw [hmap, h, ← hmap]

theorem map_byName?_update {β : Type} {g : Domain → β} {f : Domain → Domain}
    (hname : ∀ d, (f d).name = d.name) (other : String) :
    ((tree.update name f).byName? other).map g =
      if other = name then (tree.byName? name).map fun d => g (f d)
      else (tree.byName? other).map g := by
  rw [byName?_update _ _ _ fun d hd => (hname d).trans hd]
  split
  · rw [Option.map_map]
    rfl
  · rfl

theorem update_of_none (h : tree.byName? name = none) (f : Domain → Domain) :
    tree.update name f = tree := by
  rw [update, changeByName_of_none h]

theorem update_eq_self {f : Domain → Domain} (h : tree.byName? name = some d) (hf : f d = d) :
    tree.update name f = tree := by
  obtain ⟨pre, post, hds, hchange⟩ := changeByName_eq_append h
  rw [update, hchange, hf, ← hds]

theorem update_update {f g : Domain → Domain} (hf : ∀ d, d.name = name → (f d).name = name) :
    (tree.update name f).update name g = tree.update name (g ∘ f) := by
  rw [update, update, update, changeByName_changeByName hf]

theorem names_update {f : Domain → Domain} (hf : ∀ d, d.name = name → (f d).name = name) :
    (tree.update name f).names = tree.names :=
  map_changeByName fun d hd => by rw [hf d (name_of_findByName? hd), name_of_findByName? hd]

end DomainTree

end SegmentRouter
