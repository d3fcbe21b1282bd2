import Mathlib.Data.Finset.Card
import Mathlib.Logic.Relation
import SegmentRouter.Proofs.Config.Messages
import SegmentRouter.Proofs.SortedMap.Entries

/-!
# Proofs/Config/Cycles — cycles are found where they are

A domain may name another one that it takes its addresses from (`TakesFrom`), and so on; it is on a
cycle if this comes back to it.  Following by hand stops at the end, at the start, or at a name that
was seen before (`Follows`), and with each step there are fewer names that were not seen
(`exists_follows`).  A way that ends otherwise than at the start never gets there
(`Follows.not_transGen`), so the bounded search answers the same (`isCyclic_iff`).

The report of a cycle is made once for each name on one, and nothing else is told in its words
(`cycles_reported`).
-/

namespace SegmentRouter.Config

open Finding Relation

variable {config : Config} {domains : List Domain} {all : Named} {start current name : String}
  {seen : List String} {answer : Bool}

/-! ## Who takes addresses from whom -/

/-- **A domain takes its addresses from another one.** Of several domains with one name the last
counts, and a domain without a name has no say. -/
def TakesFrom (domains : List Domain) (name supplier : String) : Prop :=
  name ≠ "" ∧ ∃ d, (domains.filter (·.name = name)).getLast? = some d ∧
    d.ipConfigFrom = some supplier

/-- **Following the suppliers of a name leads back to it**, in one or more steps. -/
def OnCycle (domains : List Domain) (name : String) : Prop :=
  TransGen (TakesFrom domains) name name

/-- The last domain of a name is found under it. -/
theorem get?_named_eq (domains : List Domain) (name : String) : (named domains).get? name =
    if name = "" then none else (domains.filter (·.name = name)).getLast? := by
  have hkept : (domains.filter fun d => decide (d.name = name) && !d.name.isEmpty) =
      if name = "" then [] else domains.filter (·.name = name) := by
    split
    · rename_i hempty
      refine List.filter_eq_nil_iff.2 fun d _ => ?_
      rw [hempty, Bool.and_eq_true, decide_eq_true_eq]
      rintro ⟨hd, hnamed⟩
      rw [hd] at hnamed
      cases hnamed
    · rename_i hnamed
      refine List.filter_congr fun d _ => ?_
      by_cases hd : d.name = name <;> simp [hd, hnamed]
  rw [named, SortedMap.get?_ofList, List.filter_map, List.getLast?_map, Option.map_map,
    List.filter_filter]
  change Option.map id
    (domains.filter fun d => decide (d.name = name) && !d.name.isEmpty).getLast? = _
  rw [Option.map_id, hkept]
  split <;> rfl

/-- The name map has this supplier for a name. -/
abbrev SuppliedBy (all : Named) (name supplier : String) : Prop :=
  supplierOf? all name = some supplier

theorem suppliedBy_named : SuppliedBy (named domains) = TakesFrom domains := by
  funext name supplier
  rw [SuppliedBy, supplierOf?, get?_named_eq, TakesFrom, eq_iff_iff]
  split
  · rename_i hempty
    simp [hempty]
  · rename_i hnamed
    rw [Option.bind_eq_some_iff]
    exact (and_iff_right hnamed).symm

/-- A name with a supplier is a domain's. -/
theorem SuppliedBy.mem_keys {supplier : String} (h : SuppliedBy all name supplier) :
    name ∈ all.keys := by
  obtain ⟨d, hd, -⟩ := Option.bind_eq_some_iff.1 h
  exact SortedMap.mem_keys_iff.2 ⟨d, hd⟩

/-! ## Following by hand -/

/-- **Following suppliers from a name until it is clear whether they lead to the start**, with the
names that were seen on the way. -/
inductive Follows (all : Named) (start : String) :
    (seen : List String) → (current : String) → (answer : Bool) → Prop
  | ended {seen : List String} {current : String} (hend : supplierOf? all current = none) :
    Follows all start seen current false
  | returned {seen : List String} {current : String} (hback : SuppliedBy all current start) :
    Follows all start seen current true
  | strayed {seen : List String} {current next : String} (hnext : SuppliedBy all current next)
    (hstart : next ≠ start) (hseen : next ∈ seen) : Follows all start seen current false
  | onward {seen : List String} {current next : String} {answer : Bool}
    (hnext : SuppliedBy all current next) (hstart : next ≠ start) (hnew : next ∉ seen)
    (hrest : Follows all start (next :: seen) next answer) : Follows all start seen current answer

/-- The number of domains that were not seen. -/
def unseen (all : Named) (seen : List String) : Nat :=
  (all.keys.toFinset \ seen.toFinset).card

/-- A step to a domain that was not seen leaves fewer of them. -/
theorem unseen_cons_lt {next : String} (hkey : next ∈ all.keys) (hnew : next ∉ seen) :
    unseen all (next :: seen) < unseen all seen := by
  rw [unseen, unseen, List.toFinset_cons, Finset.sdiff_insert]
  exact Finset.card_erase_lt_of_mem
    (Finset.mem_sdiff.2 ⟨List.mem_toFinset.2 hkey, mt List.mem_toFinset.1 hnew⟩)

/-- **Following suppliers ends**, as there are only so many domains to see. -/
theorem exists_follows (all : Named) (start : String) (seen : List String) (current : String) :
    ∃ answer, Follows all start seen current answer := by
  induction h : unseen all seen using Nat.strong_induction_on generalizing seen current with
  | _ n ih =>
    cases hnext : supplierOf? all current with
    | none => exact ⟨false, .ended hnext⟩
    | some next =>
      by_cases hstart : next = start
      · exact ⟨true, .returned (hstart ▸ hnext)⟩
      by_cases hseen : next ∈ seen
      · exact ⟨false, .strayed hnext hstart hseen⟩
      by_cases hkey : next ∈ all.keys
      · obtain ⟨answer, hrest⟩ := ih _ (h ▸ unseen_cons_lt hkey hseen) (next :: seen) next rfl
        exact ⟨answer, .onward hnext hstart hseen hrest⟩
      · -- an unknown name has no supplier
        have hend : supplierOf? all next = none := by
          by_contra hsome
          obtain ⟨_, hsupplier⟩ := Option.ne_none_iff_exists'.1 hsome
          exact hkey (SuppliedBy.mem_keys hsupplier)
        exact ⟨false, .onward hnext hstart hseen (.ended hend)⟩

/-- The suppliers of some names are among them and not the start, that of the current one apart. -/
def Explored (all : Named) (start : String) (seen : List String) (current : String) : Prop :=
  ∀ x ∈ seen, x ≠ current → ∀ y, SuppliedBy all x y → y ∈ seen ∧ y ≠ start

theorem explored_singleton (all : Named) (start : String) : Explored all start [start] start :=
  fun _ hx hne => absurd (List.mem_singleton.1 hx) hne

/-- Where this holds of the current one too there is no way to the start. -/
theorem Explored.not_transGen (h : Explored all start seen current)
    (hcurrent : ∀ y, SuppliedBy all current y → y ∈ seen ∧ y ≠ start) (hmem : name ∈ seen) :
    ¬ TransGen (SuppliedBy all) name start := by
  have hclosed : ∀ x ∈ seen, ∀ y, SuppliedBy all x y → y ∈ seen ∧ y ≠ start := by
    intro x hx
    by_cases hne : x = current
    · exact hne ▸ hcurrent
    · exact h x hx hne
  intro hway
  induction hway using TransGen.head_induction_on with
  | single hlast => exact (hclosed _ hmem _ hlast).2 rfl
  | head hfirst _ ih => exact ih (hclosed _ hmem _ hfirst).1

/-- **Where following ends elsewhere there is no way to the start.** -/
theorem Follows.not_transGen (h : Follows all start seen current answer)
    (hanswer : answer = false) (hexplored : Explored all start seen current) :
    ∀ x ∈ seen, ¬ TransGen (SuppliedBy all) x start := by
  -- what has been explored stays so, and the last name closes it
  induction h with
  | ended hend =>
    exact fun x => hexplored.not_transGen fun y hy =>
      absurd (hy.symm.trans hend) (Option.some_ne_none y)
  | returned => cases hanswer
  | strayed hnext hstart hseen =>
    refine fun x => hexplored.not_transGen fun y hy => ?_
    obtain rfl := Option.some.inj (hnext.symm.trans hy)
    exact ⟨hseen, hstart⟩
  | @onward seen current next answer hnext hstart hnew hrest ih =>
    refine fun x hx => ih hanswer (fun z hz hne y hy => ?_) x (List.mem_cons_of_mem _ hx)
    by_cases hzc : z = current
    · obtain rfl := Option.some.inj (hnext.symm.trans (hzc ▸ hy))
      exact ⟨List.mem_cons_self, hstart⟩
    · obtain ⟨hw, hwstart⟩ := hexplored z ((List.mem_cons.1 hz).resolve_left hne) hzc y hy
      exact ⟨List.mem_cons_of_mem _ hw, hwstart⟩

/-! ## The bounded search -/

/-- What the search finds is a way. -/
theorem transGen_of_leadsTo {steps : Nat} (h : leadsTo all start steps current = true) :
    TransGen (SuppliedBy all) current start := by
  induction steps generalizing current with
  | zero => cases h
  | succ steps ih =>
    rw [leadsTo] at h
    split at h
    · rename_i next hnext
      rcases Bool.or_eq_true _ _ ▸ h with hback | hrest
      · exact .single (eq_of_beq hback ▸ hnext)
      · exact .head hnext (ih hrest)
    · cases h

/-- Who leads somewhere is a domain. -/
theorem Follows.mem_keys (h : Follows all start seen current answer) (hanswer : answer = true) :
    current ∈ all.keys := by
  cases h with
  | ended => cases hanswer
  | returned hback => exact hback.mem_keys
  | strayed hnext => exact hnext.mem_keys
  | onward hnext => exact hnext.mem_keys

/-- As many steps are enough as there are domains that were not seen, and one more. -/
theorem Follows.leadsTo (h : Follows all start seen current answer) (hanswer : answer = true)
    {steps : Nat} (hsteps : unseen all seen < steps) : leadsTo all start steps current = true := by
  induction h generalizing steps with
  | ended => cases hanswer
  | returned hback =>
    obtain ⟨steps, rfl⟩ := Nat.exists_eq_succ_of_ne_zero (Nat.ne_zero_of_lt hsteps)
    simp [Config.leadsTo, hback]
  | strayed => cases hanswer
  | onward hnext _ hnew hrest ih =>
    obtain ⟨steps, rfl⟩ := Nat.exists_eq_succ_of_ne_zero (Nat.ne_zero_of_lt hsteps)
    have hkey := hrest.mem_keys hanswer
    have hfewer := Nat.lt_of_lt_of_le (unseen_cons_lt hkey hnew) (Nat.le_of_lt_succ hsteps)
    simp [Config.leadsTo, hnext, ih hanswer hfewer]

/-- **The search answers as following by hand does.** -/
theorem follows_isCyclic (all : Named) (name : String) :
    Follows all name [name] name (isCyclic all name) := by
  obtain ⟨answer, hfollows⟩ := exists_follows all name [name] name
  suffices hsame : isCyclic all name = answer by rwa [hsame]
  cases answer with
  | true =>
    -- the start is a domain and has been seen, so the steps are one more than those left
    have hfewer : unseen all [name] < unseen all [] :=
      unseen_cons_lt (hfollows.mem_keys rfl) List.not_mem_nil
    have hall : unseen all [] ≤ all.size := by
      rw [unseen, List.toFinset_nil, Finset.sdiff_empty, SortedMap.size, ← List.length_map]
      exact List.toFinset_card_le _
    exact hfollows.leadsTo rfl (Nat.lt_of_lt_of_le hfewer hall)
  | false =>
    by_contra hcyclic
    exact hfollows.not_transGen rfl (explored_singleton _ _) name (List.mem_singleton_self _)
      (transGen_of_leadsTo (Bool.not_eq_false _ ▸ hcyclic))

/-- **The search is exact.** -/
theorem isCyclic_iff : isCyclic all name = true ↔ TransGen (SuppliedBy all) name name := by
  refine ⟨transGen_of_leadsTo, fun hway => ?_⟩
  by_contra hcyclic
  exact (follows_isCyclic all name).not_transGen (Bool.not_eq_true _ ▸ hcyclic)
    (explored_singleton _ _) name (List.mem_singleton_self _) hway

/-! ## The reports -/

theorem errors_checkCycles (all : Named) : (checkCycles all).filterMap Finding.error? =
    (all.keys.filter (isCyclic all)).map cycleMessage := by
  rw [checkCycles, List.filterMap_map, ← List.filterMap_eq_map]
  refine List.filterMap_congr fun name _ => ?_
  rw [Function.comp_apply, domainError_cycle]
  rfl

/-- **A name is reported as often as it stands among those on a cycle.** -/
theorem count_errors (config : Config) (name : String) :
    config.validate.errors.count (cycleMessage name) =
      ((named config.domains).keys.filter (isCyclic (named config.domains))).count name := by
  have hinterval : AllErrors Foreign (findIf (config.report.intervalSec == 0)
      (.error "report.interval_sec must be greater than 0")) :=
    allErrors_findIf.2 fun _ => allErrors_error.2 (by decide)
  have hdomains : AllErrors Foreign
      (config.domains.flatMap (checkDomain (named config.domains))) :=
    allErrors_flatMap.2 fun _ _ => foreign_checkDomain
  have hattachments : AllErrors Foreign
      (checkAttachments (named config.domains) config.attachments) := by
    intro message hm
    obtain ⟨_, -, he⟩ := List.mem_map.1 hm
    cases he
  simp only [Diagnosis.errors, validate, List.filterMap_append, List.count_append,
    count_cycleMessage hinterval, count_cycleMessage (foreign_checkNames _),
    count_cycleMessage hdomains, count_cycleMessage hattachments, errors_checkCycles,
    Nat.zero_add, Nat.add_zero]
  exact List.count_map_of_injective _ _ cycleMessage_injective _

/-- **Cycles are reported exactly.** Following where addresses come from ends, and whether it came
back to the name is what the check reports: a name on a cycle is reported once, and any other not
at all, also if it leads into a cycle or to an unknown name. -/
theorem cycles_reported (config : Config) (name : String) :
    Follows (named config.domains) name [name] name (isCyclic (named config.domains) name) ∧
      (OnCycle config.domains name → config.validate.errors.count (cycleMessage name) = 1) ∧
      (¬ OnCycle config.domains name → cycleMessage name ∉ config.validate.errors) := by
  have hexact : isCyclic (named config.domains) name = true ↔ OnCycle config.domains name := by
    rw [isCyclic_iff, suppliedBy_named, OnCycle]
  refine ⟨follows_isCyclic _ name, fun hcycle => ?_, fun hcycle => ?_⟩
  · have hcyclic := hexact.2 hcycle
    obtain ⟨_, hsupplier, -⟩ := TransGen.head'_iff.1 (isCyclic_iff.1 hcyclic)
    rw [count_errors, List.count_filter hcyclic]
    exact List.count_eq_one_of_mem (SortedMap.nodup_keys _) hsupplier.mem_keys
  · refine List.count_eq_zero.1 ?_
    rw [count_errors]
    exact List.count_eq_zero.2 fun hm => hcycle (hexact.1 (List.mem_filter.1 hm).2)

end SegmentRouter.Config
