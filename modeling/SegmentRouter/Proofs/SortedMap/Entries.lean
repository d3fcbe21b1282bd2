import Mathlib.Data.List.Induction
import Mathlib.Data.List.Nodup
import SegmentRouter.SortedMap

/-!
# Proofs/SortedMap/Entries — the entries of a map, up to their order

A sum or a count over the values of a map does not see the order of the keys.  Two facts reduce
such a sum to a look-up: taking an entry out splits its value off (`values_erase`), and a map made
of a list with distinct keys has that list's entries (`toList_ofList`).
-/

namespace SegmentRouter

open SortKey (before)

namespace SortedMap

variable {κ α β : Type} [SortKey κ]

/-! ## Keys -/

theorem nodup_toList (m : SortedMap κ α) : m.toList.Nodup :=
  m.sorted.imp fun {a b} h he => by
    rw [he, SortKey.irrefl] at h
    exact Bool.noConfusion h

theorem nodup_keys (m : SortedMap κ α) : m.keys.Nodup :=
  List.pairwise_map.2 (m.sorted.imp SortKey.ne_of_before)

theorem contains_eq_isSome (m : SortedMap κ α) (k : κ) : m.contains k = (m.get? k).isSome := rfl

/-- Entries that are made of those of a map and keep their keys have distinct keys. -/
theorem nodup_filterMap_keys (m : SortedMap κ α) {f : κ × α → Option (κ × β)}
    (hkey : ∀ e q, f e = some q → q.1 = e.1) : ((m.toList.filterMap f).map (·.1)).Nodup := by
  rw [List.Nodup, List.pairwise_map, List.pairwise_filterMap]
  refine m.sorted.imp fun {e e'} hlt q hq q' hq' => ?_
  rw [hkey e q hq, hkey e' q' hq']
  exact SortKey.ne_of_before hlt

theorem contains_of_mem_keys {m : SortedMap κ α} {k : κ} (h : k ∈ m.keys) :
    m.contains k = true := by
  obtain ⟨a, ha⟩ := mem_keys_iff.1 h
  rw [contains_eq_isSome, ha]
  rfl

theorem isEmpty_iff {m : SortedMap κ α} : m.isEmpty = true ↔ ∀ k, m.contains k = false := by
  rw [isEmpty, List.isEmpty_iff, List.eq_nil_iff_forall_not_mem]
  simp only [contains_eq_isSome, Option.isSome_eq_false_iff, Option.isNone_iff_eq_none,
    Option.eq_none_iff_forall_ne_some, ne_eq, get?_eq_some_iff, Prod.forall]

@[simp] theorem contains_mapValues (f : κ → α → β) (m : SortedMap κ α) (k : κ) :
    (m.mapValues f).contains k = m.contains k := by
  simp [contains_eq_isSome]

theorem values_mapValues (f : α → β) (m : SortedMap κ α) :
    (m.mapValues fun _ => f).values = m.values.map f := by
  simp [values, mapValues]

/-- Two maps with the same image have values at the same keys. -/
theorem mapValues_insert [DecidableEq κ] (f : α → β) (m : SortedMap κ α) (k : κ) (a : α) :
    (m.insert k a).mapValues (fun _ => f) = (m.mapValues fun _ => f).insert k (f a) := by
  refine ext_get? fun j => ?_
  by_cases h : j = k <;> simp [h]

/-- A value put where an equal one is changes nothing. -/
theorem insert_eq_self [DecidableEq κ] {m : SortedMap κ α} {k : κ} {a : α}
    (h : m.get? k = some a) : m.insert k a = m := by
  refine ext_get? fun j => ?_
  by_cases hj : j = k
  · rw [get?_insert, if_pos hj, hj, h]
  · rw [get?_insert, if_neg hj]

/-- Taking nothing out changes nothing. -/
theorem erase_eq_self [DecidableEq κ] {m : SortedMap κ α} {k : κ} (h : m.get? k = none) :
    m.erase k = m := by
  refine ext_get? fun j => ?_
  by_cases hj : j = k
  · rw [get?_erase, if_pos hj, hj, h]
  · rw [get?_erase, if_neg hj]

theorem insert_insert [DecidableEq κ] (m : SortedMap κ α) (k : κ) (a b : α) :
    (m.insert k a).insert k b = m.insert k b := by
  refine ext_get? fun j => ?_
  by_cases hj : j = k <;> simp [hj]

/-- Changing a value in a way that `f` does not see leaves the image under `f`. -/
theorem mapValues_modify [DecidableEq κ] {f : α → β} {g : α → α} (h : ∀ a, f (g a) = f a)
    (m : SortedMap κ α) (k : κ) :
    (m.modify k g).mapValues (fun _ => f) = m.mapValues fun _ => f := by
  refine ext_get? fun j => ?_
  rw [get?_mapValues, get?_mapValues, get?_modify]
  split
  · rw [Option.map_map]
    exact congrArg (fun φ => Option.map φ (m.get? j)) (funext h)
  · rfl

/-- Sets with the same members are the same. -/
theorem ext_contains {m n : SortedSet κ} (h : ∀ k, m.contains k = true ↔ n.contains k = true) :
    m = n := by
  refine ext_get? fun k => Option.ext fun u => ?_
  have hsome : ∀ m : SortedSet κ, m.get? k = some u ↔ m.contains k = true := fun m => by
    rw [contains_eq_isSome, Option.isSome_iff_exists]
    exact ⟨fun hm => ⟨u, hm⟩, fun ⟨_, hm⟩ => hm⟩
  rw [hsome, hsome]
  exact h k

/-! ## Values -/

/-- Taking an entry out leaves the others. -/
theorem toList_erase [DecidableEq κ] {m : SortedMap κ α} {k : κ} {a : α}
    (h : m.get? k = some a) : m.toList.Perm ((k, a) :: (m.erase k).toList) := by
  have hne : (k, a) ∉ (m.erase k).toList := fun hm => by
    have := get?_eq_some_iff.2 hm
    simp at this
  refine (List.perm_ext_iff_of_nodup m.nodup_toList
    (List.nodup_cons.2 ⟨hne, (m.erase k).nodup_toList⟩)).2 fun ⟨j, b⟩ => ?_
  rw [← get?_eq_some_iff, List.mem_cons, ← get?_eq_some_iff, get?_erase, Prod.mk.injEq]
  by_cases hj : j = k
  · subst hj
    simp [h, eq_comm]
  · simp [hj]

/-- **Taking an entry out splits its value off.** -/
theorem values_erase [DecidableEq κ] {m : SortedMap κ α} {k : κ} {a : α}
    (h : m.get? k = some a) : m.values.Perm (a :: (m.erase k).values) :=
  (toList_erase h).map Prod.snd

/-- A new entry adds its value. -/
theorem values_insert_of_none [DecidableEq κ] {m : SortedMap κ α} {k : κ} (a : α)
    (h : m.get? k = none) : (m.insert k a).values.Perm (a :: m.values) := by
  have he : (m.insert k a).erase k = m := ext_get? fun j => by
    by_cases hj : j = k <;> simp [hj, h]
  have := values_erase (m := m.insert k a) (k := k) (a := a) (by simp)
  rwa [he] at this

/-- **A new value takes the place of the old one.** -/
theorem values_insert_of_some [DecidableEq κ] {m : SortedMap κ α} {k : κ} {a : α} (b : α)
    (h : m.get? k = some a) :
    ∃ rest, m.values.Perm (a :: rest) ∧ (m.insert k b).values.Perm (b :: rest) := by
  have he : (m.insert k b).erase k = m.erase k := ext_get? fun j => by
    by_cases hj : j = k <;> simp [hj]
  have hb := values_erase (m := m.insert k b) (k := k) (a := b) (by simp)
  rw [he] at hb
  exact ⟨(m.erase k).values, values_erase h, hb⟩

/-! ## Searches from the last key on -/

section

variable {m : SortedMap κ α} {f : κ × α → Option β}

/-- **A search from the last key on ends at the last entry that answers.** -/
theorem findSome?_reverse_eq_some_iff {b : β} : m.toList.reverse.findSome? f = some b ↔
    ∃ k, ((m.get? k).bind fun a => f (k, a)) = some b ∧
      ∀ j, before k j = true → ((m.get? j).bind fun a => f (j, a)) = none := by
  have hsorted := List.pairwise_reverse.2 m.sorted
  rw [List.findSome?_eq_some_iff]
  constructor
  · rintro ⟨larger, ⟨k, a⟩, smaller, hsplit, hf, hnone⟩
    have hk : m.get? k = some a :=
      get?_eq_some_iff.2 (List.mem_reverse.1 (hsplit ▸ List.mem_append_right _ List.mem_cons_self))
    refine ⟨k, by rw [hk, Option.bind_some, hf], fun j hlt => ?_⟩
    rw [Option.bind_eq_none_iff]
    intro c hc
    refine hnone (j, c) ?_
    -- the entries after that of `k` have smaller keys
    have hmem := List.mem_reverse.2 (get?_eq_some_iff.1 hc)
    rw [hsplit, List.mem_append, List.mem_cons] at hmem
    rw [hsplit, List.pairwise_append, List.pairwise_cons] at hsorted
    rcases hmem with hmem | heq | hmem
    · exact hmem
    · cases heq
      rw [SortKey.irrefl] at hlt
      cases hlt
    · have hgt := hsorted.2.1.1 _ hmem
      rw [SortKey.asymm hlt] at hgt
      cases hgt
  · rintro ⟨k, hk, hnone⟩
    obtain ⟨a, ha, hf⟩ := Option.bind_eq_some_iff.1 hk
    obtain ⟨larger, smaller, hsplit⟩ :=
      List.append_of_mem (List.mem_reverse.2 (get?_eq_some_iff.1 ha))
    refine ⟨larger, (k, a), smaller, hsplit, hf, fun ⟨j, c⟩ hmem => ?_⟩
    have hc : m.get? j = some c :=
      get?_eq_some_iff.2 (List.mem_reverse.1 (hsplit ▸ List.mem_append_left _ hmem))
    rw [hsplit, List.pairwise_append] at hsorted
    have hj := hnone j (hsorted.2.2 _ hmem _ List.mem_cons_self)
    rwa [hc] at hj

theorem findSome?_reverse_eq_none_iff : m.toList.reverse.findSome? f = none ↔
    ∀ k, ((m.get? k).bind fun a => f (k, a)) = none := by
  simp only [List.findSome?_eq_none_iff, List.mem_reverse, Prod.forall, Option.bind_eq_none_iff,
    get?_eq_some_iff]

end

/-! ## Maps made of lists -/

theorem toList_insert_of_none [DecidableEq κ] {m : SortedMap κ α} {k : κ} (a : α)
    (h : m.get? k = none) : (m.insert k a).toList.Perm ((k, a) :: m.toList) := by
  refine (List.perm_ext_iff_of_nodup (m.insert k a).nodup_toList (List.nodup_cons.2
    ⟨fun hm => ?_, m.nodup_toList⟩)).2 fun ⟨j, b⟩ => ?_
  · rw [← get?_eq_some_iff, h] at hm
    cases hm
  · rw [← get?_eq_some_iff, List.mem_cons, ← get?_eq_some_iff, get?_insert, Prod.mk.injEq]
    by_cases hj : j = k
    · subst hj
      simp [h, eq_comm]
    · simp [hj]

theorem toList_foldl_insert [DecidableEq κ] (l : List (κ × α)) :
    ∀ m : SortedMap κ α, (l.map (·.1)).Nodup → (∀ e ∈ l, m.get? e.1 = none) →
      (l.foldl (fun m e => m.insert e.1 e.2) m).toList.Perm (l ++ m.toList) := by
  induction l with
  | nil => exact fun _ _ _ => .rfl
  | cons e l ih =>
    intro m hn hm
    obtain ⟨he, hl⟩ := List.nodup_cons.1 hn
    refine (ih (m.insert e.1 e.2) hl fun x hx => ?_).trans ?_
    · have : x.1 ≠ e.1 := fun h => he (List.mem_map.2 ⟨x, hx, h⟩)
      rw [get?_insert, if_neg this]
      exact hm x (List.mem_cons_of_mem _ hx)
    · refine ((toList_insert_of_none e.2 (hm e List.mem_cons_self)).append_left l).trans ?_
      exact List.perm_middle

/-- **A map made of a list with distinct keys has the entries of the list.** -/
theorem toList_ofList [DecidableEq κ] {l : List (κ × α)} (h : (l.map (·.1)).Nodup) :
    (ofList l).toList.Perm l := by
  have := toList_foldl_insert l ∅ h fun _ _ => rfl
  rwa [show (∅ : SortedMap κ α).toList = [] from rfl, List.append_nil] at this

/-- Each entry of such a list is found under its key. -/
theorem get?_ofList_of_mem [DecidableEq κ] {l : List (κ × α)} (h : (l.map (·.1)).Nodup)
    {e : κ × α} (he : e ∈ l) : (ofList l).get? e.1 = some e.2 :=
  get?_eq_some_iff.2 ((toList_ofList h).mem_iff.2 he)

/-- Values in the order of their keys. -/
theorem pairwise_values {m : SortedMap κ α} {r : α → α → Prop}
    (h : ∀ {k j a b}, m.get? k = some a → m.get? j = some b → SortKey.before k j = true → r a b) :
    m.values.Pairwise r := by
  rw [values, List.pairwise_map]
  refine m.sorted.imp_of_mem fun ha hb hlt => ?_
  exact h (get?_eq_some_iff.2 ha) (get?_eq_some_iff.2 hb) hlt

theorem get?_foldl_insert [DecidableEq κ] (l : List (κ × α)) :
    ∀ (m : SortedMap κ α) (k : κ) (a : α),
      (l.foldl (fun m e => m.insert e.1 e.2) m).get? k = some a →
        (k, a) ∈ l ∨ m.get? k = some a := by
  induction l with
  | nil => exact fun _ _ _ h => .inr h
  | cons e l ih =>
    intro m k a h
    rcases ih _ k a h with hl | hm
    · exact .inl (List.mem_cons_of_mem _ hl)
    · rw [get?_insert] at hm
      split at hm
      · rename_i hk
        exact .inl (List.mem_cons.2 (.inl (Prod.ext hk (Option.some.inj hm).symm)))
      · exact .inr hm

/-- What a map made of a list holds stands in the list. -/
theorem mem_of_get?_ofList [DecidableEq κ] {l : List (κ × α)} {k : κ} {a : α}
    (h : (ofList l).get? k = some a) : (k, a) ∈ l :=
  (get?_foldl_insert l ∅ k a h).resolve_right (by simp)

/-- A map made of the entries of another is that map. -/
theorem ofList_eq_of_perm [DecidableEq κ] {l : List (κ × α)} {m : SortedMap κ α}
    (h : l.Perm m.toList) : ofList l = m := by
  have hnodup : (l.map (·.1)).Nodup := (h.map _).nodup_iff.2 m.nodup_keys
  refine ext_get? fun k => Option.ext fun a => ?_
  rw [get?_eq_some_iff, get?_eq_some_iff, (toList_ofList hnodup).mem_iff, h.mem_iff]

theorem ofList_concat (l : List (κ × α)) (e : κ × α) :
    ofList (l ++ [e]) = (ofList l).insert e.1 e.2 := by
  rw [ofList, List.foldl_append, List.foldl_cons, List.foldl_nil, ofList]

/-- **The last entry of a list counts** in the map that is made of it. -/
theorem get?_ofList [DecidableEq κ] (l : List (κ × α)) (k : κ) :
    (ofList l).get? k = (l.filter fun e => e.1 = k).getLast?.map (·.2) := by
  induction l using List.reverseRecOn with
  | nil => rfl
  | append_singleton l e ih =>
    rw [ofList_concat, get?_insert, ih]
    by_cases hk : k = e.1
    · simp [hk]
    · simp [hk, Ne.symm hk]

end SortedMap

end SegmentRouter
