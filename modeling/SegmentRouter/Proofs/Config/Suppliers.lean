import Mathlib.Data.Finset.Card
import SegmentRouter.Proofs.Config.Checks
import SegmentRouter.Proofs.SortedMap.Entries

/-!
# Proofs/Config/Suppliers — where addresses come from has an end

A domain may have its addresses from another one, which may have them from a third.  The check for
cycles follows this for as many steps as there are domains, and more are not needed: where it finds
nothing every domain has a rank, and has its addresses from one of a lower rank (`exists_rank`).
-/

namespace SegmentRouter.Config

variable {config : Config} {all : Named} {name start : String} {n : Nat}

/-! ## Following suppliers -/

/-- Where addresses come from, so many suppliers on. -/
def ancestor? (all : Named) : (steps : Nat) → String → Option String
  | 0, name => some name
  | steps + 1, name => (supplierOf? all name).bind (ancestor? all steps)

/-- How many suppliers there are one behind the other, of at most `steps`. -/
def rank (all : Named) : (steps : Nat) → String → Nat
  | 0, _ => 0
  | steps + 1, name =>
    match supplierOf? all name with
    | some supplier => rank all steps supplier + 1
    | none => 0

theorem ancestor?_add (m n : Nat) (name : String) :
    ancestor? all (m + n) name = (ancestor? all m name).bind (ancestor? all n) := by
  induction m generalizing name with
  | zero => rw [Nat.zero_add, ancestor?, Option.bind_some]
  | succ m ih =>
    rw [Nat.succ_add, ancestor?, ancestor?, Option.bind_assoc]
    exact congrArg (Option.bind _) (funext ih)

theorem rank_le (all : Named) (steps : Nat) (name : String) : rank all steps name ≤ steps := by
  induction steps generalizing name with
  | zero => exact Nat.le_refl _
  | succ steps ih =>
    unfold rank
    split
    · exact Nat.succ_le_succ (ih _)
    · exact Nat.zero_le _

/-- Steps that are not used up were enough. -/
theorem rank_succ (h : rank all n name < n) : rank all (n + 1) name = rank all n name := by
  induction n generalizing name with
  | zero => cases h
  | succ n ih =>
    unfold rank at h ⊢
    split at h
    · exact congrArg (· + 1) (ih (Nat.lt_of_succ_lt_succ h))
    · rfl

/-- Steps that are used up lead somewhere. -/
theorem isSome_ancestor?_of_rank (h : rank all n name = n) : (ancestor? all n name).isSome := by
  induction n generalizing name with
  | zero => rfl
  | succ n ih =>
    unfold rank at h
    split at h
    · rename_i supplier hsupplier
      rw [ancestor?, hsupplier, Option.bind_some]
      exact ih (Nat.succ.inj h)
    · cases h

theorem leadsTo_of_ancestor? {steps : Nat} (h : ancestor? all (n + 1) name = some start)
    (hn : n < steps) : leadsTo all start steps name = true := by
  induction steps generalizing n name with
  | zero => cases hn
  | succ steps ih =>
    rw [ancestor?] at h
    rw [leadsTo]
    obtain ⟨supplier, hsupplier, h⟩ := Option.bind_eq_some_iff.1 h
    rw [hsupplier]
    cases n with
    | zero =>
      obtain rfl := Option.some.inj h
      simp
    | succ n => simp [ih h (Nat.lt_of_succ_lt_succ hn)]

/-- **Suppliers come to an end before there are no domains left**, unless a domain is its own in the
end. -/
theorem rank_lt (hmem : ∀ {name supplier}, supplierOf? all name = some supplier →
      supplier ∈ all.keys)
    (hcycle : ∀ name ∈ all.keys, isCyclic all name = false) (hname : name ∈ all.keys) :
    rank all all.size name < all.size := by
  refine Nat.lt_of_le_of_ne (rank_le ..) fun hfull => ?_
  have hpath : ∀ i ≤ all.size, ∃ x ∈ all.keys, ancestor? all i name = some x := by
    intro i hi
    have hsome := isSome_ancestor?_of_rank hfull
    rw [← Nat.add_sub_cancel' hi, ancestor?_add] at hsome
    obtain ⟨x, hx⟩ := Option.isSome_iff_exists.1 (Option.isSome_of_isSome_bind hsome)
    refine ⟨x, ?_, hx⟩
    cases i with
    | zero => exact Option.some.inj hx ▸ hname
    | succ i =>
      rw [ancestor?_add] at hx
      obtain ⟨y, -, hy⟩ := Option.bind_eq_some_iff.1 hx
      obtain ⟨z, hz, hzx⟩ := Option.bind_eq_some_iff.1 hy
      exact Option.some.inj hzx ▸ hmem hz
  have hapart : ∀ i j, i < j → j ≤ all.size → ancestor? all i name ≠ ancestor? all j name := by
    intro i j hij hj he
    obtain ⟨x, hx, hix⟩ := hpath i (Nat.le_trans (Nat.le_of_lt hij) hj)
    obtain ⟨k, rfl⟩ := Nat.exists_eq_add_of_lt hij
    have hback : ancestor? all (k + 1) x = some x := by
      rw [hix, Nat.add_assoc, ancestor?_add, hix, Option.bind_some] at he
      exact he.symm
    have hcyclic : isCyclic all x = true := leadsTo_of_ancestor? hback (by omega)
    rw [hcycle x hx] at hcyclic
    cases hcyclic
  -- one place more than there are domains
  obtain ⟨i, hi, j, hj, hne, he⟩ := Finset.exists_ne_map_eq_of_card_lt_of_maps_to
    (s := Finset.range (all.size + 1)) (t := (all.keys.map some).toFinset)
    (f := fun i => ancestor? all i name)
    (by
      refine Nat.lt_of_le_of_lt (List.toFinset_card_le _) ?_
      rw [Finset.card_range, List.length_map, SortedMap.keys, List.length_map]
      exact Nat.lt_succ_self _)
    fun i hi => by
      obtain ⟨x, hx, hix⟩ := hpath i (Nat.le_of_lt_succ (Finset.mem_range.1 hi))
      exact List.mem_toFinset.2 (List.mem_map.2 ⟨x, hx, hix.symm⟩)
  have hi := Nat.le_of_lt_succ (Finset.mem_range.1 hi)
  have hj := Nat.le_of_lt_succ (Finset.mem_range.1 hj)
  rcases Nat.lt_or_gt_of_ne hne with hij | hij
  · exact hapart i j hij hj he
  · exact hapart j i hij hi he.symm

/-! ## The domains of an accepted configuration -/

section

variable (h : config.validate.hasErrors = false)

include h

theorem toList_named : (named config.domains).toList.Perm
    (config.domains.map fun d => (d.name, d)) := by
  have hkept : (config.domains.filter fun d => !d.name.isEmpty) = config.domains := by
    refine List.filter_eq_self.2 fun d hd => ?_
    rw [((names_of_checkNames [] (checkNames_eq_nil h)).2 d hd).2]
    rfl
  have hkeys : ((config.domains.map fun d => (d.name, d)).map (·.1)).Nodup := by
    rw [List.map_map]
    exact nodup_names h
  rw [named, hkept]
  exact SortedMap.toList_ofList hkeys

theorem get?_named {d : Domain} :
    (named config.domains).get? name = some d ↔ d ∈ config.domains ∧ d.name = name := by
  rw [SortedMap.get?_eq_some_iff, (toList_named h).mem_iff, List.mem_map]
  simp only [Prod.mk.injEq]
  exact ⟨fun ⟨e, he, hname, hed⟩ => hed ▸ ⟨he, hname⟩, fun ⟨hd, hname⟩ => ⟨d, hd, hname, rfl⟩⟩

theorem mem_keys_named : name ∈ (named config.domains).keys ↔
    ∃ d ∈ config.domains, d.name = name := by
  rw [SortedMap.mem_keys_iff]
  exact exists_congr fun d => get?_named h

theorem supplierOf?_named {d : Domain} (hd : d ∈ config.domains) :
    supplierOf? (named config.domains) d.name = d.ipConfigFrom := by
  rw [supplierOf?, (get?_named h).2 ⟨hd, rfl⟩, Option.bind_some]

/-- **A supplier is a domain of the configuration.** -/
theorem supplier_mem {d : Domain} {supplier : String} (hd : d ∈ config.domains)
    (hs : d.ipConfigFrom = some supplier) : supplier ∈ (named config.domains).keys := by
  rw [SortedMap.mem_keys_iff, ← Option.isSome_iff_exists]
  exact contains_reference h hd (by simp [Domain.references, hs])

/-- **The domains of an accepted configuration have ranks**, and each has its addresses from one of
a lower rank, if it has them from another one. -/
theorem exists_rank : ∃ rank : String → Nat, ∀ d ∈ config.domains,
    rank d.name < config.domains.length ∧
      ∀ supplier, d.ipConfigFrom = some supplier → rank supplier < rank d.name := by
  have hsize : (named config.domains).size = config.domains.length := by
    rw [SortedMap.size, (toList_named h).length_eq, List.length_map]
  have hmem : ∀ {name supplier}, supplierOf? (named config.domains) name = some supplier →
      supplier ∈ (named config.domains).keys := by
    intro name supplier hs
    obtain ⟨d, hd, hfrom⟩ := Option.bind_eq_some_iff.1 hs
    exact supplier_mem h ((get?_named h).1 hd).1 hfrom
  refine ⟨rank (named config.domains) (named config.domains).size, fun d hd => ?_⟩
  have hlt : ∀ {name}, name ∈ (named config.domains).keys →
      rank (named config.domains) (named config.domains).size name < (named config.domains).size :=
    rank_lt hmem fun _ => not_isCyclic h
  have hself := hlt ((mem_keys_named h).2 ⟨d, hd, rfl⟩)
  refine ⟨hsize ▸ hself, fun supplier hs => ?_⟩
  have hnext := supplierOf?_named h hd
  rw [hs] at hnext
  cases hn : (named config.domains).size with
  | zero =>
    rw [hn] at hself
    cases hself
  | succ n =>
    rw [hn] at hself
    have hrank : rank (named config.domains) (n + 1) d.name =
        rank (named config.domains) n supplier + 1 := by
      rw [rank, hnext]
    rw [hrank] at hself ⊢
    rw [rank_succ (Nat.lt_of_succ_lt_succ hself)]
    exact Nat.lt_succ_self _

end

end SegmentRouter.Config
