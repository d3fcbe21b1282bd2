import SegmentRouter.Proofs.Address.Mask
import SegmentRouter.Proofs.SortedMap.Entries
import SegmentRouter.Rule.Basic

/-!
# Proofs/Rule/LongestPrefix — the rule that counts for an address

Of the rules that cover an address those with the longest prefix come before the others, and of
these the first one counts (`Prevails`).  A table finds it (`longestMatch?_prevails`): under a
length and a subnet stands the first rule that has them (`lookup?_foldl_enter`), so a look-up with
the subnet of an address gives the first rule of that length that covers it, and the lengths are
tried from the longest one on (`findSome?_eq_some_iff_prevails`).

How subnets are told apart does not matter for this.  A table that keeps the rules' places by the
first address of their subnet, and finds them by masking the address, gives the same
(`maskedMatch?`).
-/

namespace SegmentRouter.Rule.PrefixTable

variable {ρ α β κ : Type} [SortKey κ] [DecidableEq κ]

/-! ## Indexes -/

/-- The index with a value under a length and a subnet, unless it has one there. -/
def enter (index : SortedMap Nat (SortedMap κ α)) (length : Nat) (subnet : κ) (a : α) :
    SortedMap Nat (SortedMap κ α) :=
  let subnets := (index.get? length).getD ∅
  if subnets.contains subnet then index else index.insert length (subnets.insert subnet a)

/-- What an index has under a length and a subnet. -/
def lookup? (index : SortedMap Nat (SortedMap κ α)) (length : Nat) (subnet : κ) : Option α :=
  (index.get? length).bind fun subnets => subnets.get? subnet

variable {index : SortedMap Nat (SortedMap κ α)} {length n : Nat} {subnet k : κ} {a : α}

/-- **A value is only entered where there is none.** -/
theorem lookup?_enter : lookup? (enter index length subnet a) n k =
    (lookup? index n k).or (if length = n ∧ subnet = k then some a else none) := by
  have hfound (subnet : κ) :
      ((index.get? length).getD ∅).get? subnet = lookup? index length subnet := by
    unfold lookup?
    cases index.get? length <;> rfl
  unfold enter
  dsimp only
  split
  · rename_i hold
    rw [SortedMap.contains_eq_isSome, hfound] at hold
    obtain ⟨old, hold⟩ := Option.isSome_iff_exists.1 hold
    by_cases hhere : length = n ∧ subnet = k
    · obtain ⟨rfl, rfl⟩ := hhere
      rw [hold, Option.some_or]
    · rw [if_neg hhere, Option.or_none]
  · rename_i hnew
    rw [SortedMap.contains_eq_isSome, hfound, Option.not_isSome_iff_eq_none] at hnew
    by_cases hn : n = length
    · subst hn
      by_cases hk : k = subnet
      · subst hk
        rw [hnew, Option.none_or, if_pos ⟨rfl, rfl⟩, lookup?, SortedMap.get?_insert, if_pos rfl,
          Option.bind_some, SortedMap.get?_insert, if_pos rfl]
      · rw [if_neg fun h => hk h.2.symm, Option.or_none, lookup?, SortedMap.get?_insert, if_pos rfl,
          Option.bind_some, SortedMap.get?_insert, if_neg hk, hfound]
    · rw [if_neg fun h => hn h.1.symm, Option.or_none, lookup?, SortedMap.get?_insert, if_neg hn,
        lookup?]

/-- **Of the values that are entered one after another the first one stays.** -/
theorem lookup?_foldl_enter (length : β → Nat) (subnet : β → κ) (value : β → α) (l : List β)
    (index : SortedMap Nat (SortedMap κ α)) (n : Nat) (k : κ) :
    lookup? (l.foldl (fun index b => enter index (length b) (subnet b) (value b)) index) n k =
      (lookup? index n k).or ((l.find? fun b => length b == n && subnet b == k).map value) := by
  induction l generalizing index with
  | nil => rw [List.foldl_nil, List.find?_nil, Option.map_none, Option.or_none]
  | cons b l ih =>
    rw [List.foldl_cons, ih, lookup?_enter, Option.or_assoc, List.find?_cons]
    by_cases hb : length b = n ∧ subnet b = k
    · rw [if_pos hb, Option.some_or, hb.1, hb.2, beq_self_eq_true, beq_self_eq_true]
      rfl
    · have hfalse : (length b == n && subnet b == k) = false := by
        rw [Bool.and_eq_false_iff, beq_eq_false_iff_ne, beq_eq_false_iff_ne]
        exact not_and_or.1 hb
      rw [if_neg hb, Option.none_or, hfalse]

/-! ## The rule that counts -/

/-- **The rule at a place of a list counts for an address**: it covers the address, no rule that
does has a longer prefix, and none before it has one as long. -/
structure Prevails (dst : ρ → Cidr) (rules : List ρ) (ip : Ipv4Addr) (i : Nat) (rule : ρ) :
    Prop where
  getElem? : rules[i]? = some rule
  contains : (dst rule).contains ip = true
  longest : ∀ r ∈ rules, (dst r).contains ip = true → (dst r).length ≤ (dst rule).length
  first : ∀ j < i, ∀ r, rules[j]? = some r → (dst r).contains ip = true →
    (dst r).length < (dst rule).length

variable {dst : ρ → Cidr} {rules : List ρ} {ip : Ipv4Addr} {rule : ρ}

/-- The first rule with a prefix of a length that covers an address. -/
def firstOf? (dst : ρ → Cidr) (rules : List ρ) (ip : Ipv4Addr) (length : Nat) : Option ρ :=
  rules.find? fun rule => (dst rule).length == length && (dst rule).contains ip

theorem firstOf?_eq_none_iff : firstOf? dst rules ip length = none ↔
    ∀ rule ∈ rules, (dst rule).contains ip = true → (dst rule).length ≠ length := by
  simp only [firstOf?, List.find?_eq_none, Bool.and_eq_true, beq_iff_eq, not_and']

/-- **The rule that counts is the first one of its length, and there is none of a longer one.** -/
theorem exists_prevails_iff : (∃ i, Prevails dst rules ip i rule) ↔
    ∃ n, firstOf? dst rules ip n = some rule ∧ ∀ k, n < k → firstOf? dst rules ip k = none := by
  constructor
  · rintro ⟨i, hi, hcontains, hlongest, hfirst⟩
    obtain ⟨hlt, hi⟩ := List.getElem?_eq_some_iff.1 hi
    refine ⟨(dst rule).length, ?_, fun k hk => firstOf?_eq_none_iff.2 fun r hr hcovers heq => ?_⟩
    · refine List.find?_eq_some_iff_getElem.2 ⟨?_, i, hlt, hi, fun j hj => ?_⟩
      · rw [hcontains, beq_self_eq_true]
        rfl
      · have hbefore := hfirst j hj _ (List.getElem?_eq_getElem (Nat.lt_trans hj hlt))
        rw [Bool.not_eq_true', Bool.and_eq_false_imp, beq_iff_eq]
        exact fun heq => Bool.eq_false_iff.2 fun hcovers =>
          Nat.ne_of_lt (hbefore hcovers) heq
    · have := hlongest r hr hcovers
      omega
  · rintro ⟨n, hsome, hnone⟩
    obtain ⟨hrule, i, hlt, hi, hfirst⟩ := List.find?_eq_some_iff_getElem.1 hsome
    rw [Bool.and_eq_true, beq_iff_eq] at hrule
    obtain ⟨rfl, hcontains⟩ := hrule
    have hlongest : ∀ r ∈ rules, (dst r).contains ip = true →
        (dst r).length ≤ (dst rule).length := fun r hr hcovers => Nat.le_of_not_lt fun hlonger =>
      firstOf?_eq_none_iff.1 (hnone _ hlonger) r hr hcovers rfl
    refine ⟨i, List.getElem?_eq_some_iff.2 ⟨hlt, hi⟩, hcontains, hlongest, fun j hj r hr hcovers =>
      Nat.lt_of_le_of_ne (hlongest r (List.mem_of_getElem? hr) hcovers) fun heq => ?_⟩
    obtain ⟨hjlt, rfl⟩ := List.getElem?_eq_some_iff.1 hr
    have hbefore := hfirst j hj
    rw [hcovers, heq, beq_self_eq_true] at hbefore
    cases hbefore

/-! ## Look-ups -/

section

variable {m : SortedMap Nat α} {f : Nat × α → Option ρ}
  (hprobe : ∀ n, ((m.get? n).bind fun a => f (n, a)) = firstOf? dst rules ip n)

include hprobe

/-- **A search from the longest prefix on finds the rule that counts**, if a look-up for a length
finds the first rule that has it. -/
theorem findSome?_eq_some_iff_prevails :
    m.toList.reverse.findSome? f = some rule ↔ ∃ i, Prevails dst rules ip i rule := by
  rw [exists_prevails_iff, SortedMap.findSome?_reverse_eq_some_iff]
  simp only [hprobe]
  exact exists_congr fun n => and_congr_right fun _ => forall_congr' fun k =>
    imp_congr_left decide_eq_true_iff

theorem findSome?_eq_none_iff_uncovered : m.toList.reverse.findSome? f = none ↔
    ∀ rule ∈ rules, (dst rule).contains ip = false := by
  rw [SortedMap.findSome?_reverse_eq_none_iff]
  simp only [hprobe, firstOf?_eq_none_iff]
  exact ⟨fun h rule hrule => Bool.eq_false_iff.2 fun hcovers => h _ rule hrule hcovers rfl,
    fun h k rule hrule hcovers => nomatch (h rule hrule).symm.trans hcovers⟩

end

/-- **Under a length stands, for the subnet of an address, what was entered of the first rule that
has the length and covers the address.**  A subnet is told by a key that the address has exactly if
it lies in the subnet. -/
theorem lookup?_foldl_firstOf? {subnet : Cidr → κ} (key : Nat → κ)
    (hkey : ∀ c : Cidr, subnet c = key c.length ↔ c.contains ip = true) (dst : β → Cidr)
    (value : β → α) (l : List β) (n : Nat) :
    lookup? (l.foldl
      (fun index b => enter index (dst b).length (subnet (dst b)) (value b)) ∅) n (key n) =
      (firstOf? dst l ip n).map value := by
  have hempty : lookup? (∅ : SortedMap Nat (SortedMap κ α)) n (key n) = none := rfl
  have hcovers : (fun b => (dst b).length == n && subnet (dst b) == key n) =
      fun b => (dst b).length == n && (dst b).contains ip := by
    refine funext fun b => Bool.eq_iff_iff.2 ?_
    rw [Bool.and_eq_true, Bool.and_eq_true, beq_iff_eq, beq_iff_eq]
    refine and_congr_right fun hlength => ?_
    rw [← hlength, hkey]
  rw [lookup?_foldl_enter, hempty, Option.none_or, hcovers, firstOf?]

/-! ### Subnets by their numbers -/

theorem probe_ofList (dst : ρ → Cidr) (rules : List ρ) (ip : Ipv4Addr) (n : Nat) :
    (((ofList dst rules).index.get? n).bind fun subnets => subnets.get? (ip.toNat >>> (32 - n))) =
      firstOf? dst rules ip n := by
  have hkey (c : Cidr) : c.block = ip.toNat >>> (32 - c.length) ↔ c.contains ip = true := by
    rw [Cidr.contains, beq_iff_eq, Cidr.size, Nat.one_shiftLeft, ← Nat.shiftRight_eq_div_pow,
      eq_comm]
  have hfound := lookup?_foldl_firstOf? (fun n => ip.toNat >>> (32 - n)) hkey dst id rules n
  rwa [Option.map_id, id] at hfound

/-! ### Subnets by their first addresses -/

/-- The places of the rules in a list, by the length of their prefix and by the first address of
their subnet. -/
def places (dst : ρ → Cidr) (rules : List ρ) : SortedMap Nat (SortedMap Ipv4Addr Nat) :=
  rules.zipIdx.foldl (fun index e => enter index (dst e.1).length (dst e.1).network e.2) ∅

/-- The rule at the place that is found for the masked address, with the longest mask for which
there is one. -/
def maskedMatch? (dst : ρ → Cidr) (rules : List ρ) (ip : Ipv4Addr) : Option ρ :=
  (places dst rules).toList.reverse.findSome? fun e =>
    (e.2.get? (ip.masked e.1)).bind fun i => rules[i]?

theorem probe_places (dst : ρ → Cidr) (rules : List ρ) (ip : Ipv4Addr) (n : Nat) :
    (((places dst rules).get? n).bind fun subnets =>
      (subnets.get? (ip.masked n)).bind fun i => rules[i]?) = firstOf? dst rules ip n := by
  have hkey (c : Cidr) : c.network = ip.masked c.length ↔ c.contains ip = true := by
    rw [Cidr.contains_iff_masked, Cidr.network_eq_masked, eq_comm]
  have hfound := lookup?_foldl_firstOf? ip.masked hkey (fun e : ρ × Nat => dst e.1) Prod.snd
    rules.zipIdx n
  have hrule : firstOf? dst rules ip n =
      (firstOf? (fun e : ρ × Nat => dst e.1) rules.zipIdx ip n).map Prod.fst := by
    conv_lhs => rw [← List.zipIdx_map_fst 0 rules]
    exact List.find?_map ..
  rw [← Option.bind_assoc]
  refine (congrArg (fun place => Option.bind place fun i => rules[i]?) hfound).trans ?_
  rw [hrule]
  cases hfirst : firstOf? (fun e : ρ × Nat => dst e.1) rules.zipIdx ip n with
  | none => rfl
  | some e => exact List.mem_zipIdx_iff_getElem?.1 (List.mem_of_find?_eq_some hfirst)

/-- **A table of rules finds the one that counts.**  What it finds for an address is the rule at some
place of its list that counts for the address, and it finds none exactly if no rule covers the
address.  So does a table that looks for the address under its masks. -/
theorem longestMatch?_prevails (dst : ρ → Cidr) (rules : List ρ) (ip : Ipv4Addr) :
    (∀ rule, (ofList dst rules).longestMatch? ip = some rule ↔
      ∃ i, Prevails dst rules ip i rule) ∧
    ((ofList dst rules).longestMatch? ip = none ↔
      ∀ rule ∈ rules, (dst rule).contains ip = false) ∧
    maskedMatch? dst rules ip = (ofList dst rules).longestMatch? ip := by
  have hprobe := probe_ofList dst rules ip
  refine ⟨fun rule => findSome?_eq_some_iff_prevails hprobe,
    findSome?_eq_none_iff_uncovered hprobe, Option.ext fun rule => ?_⟩
  rw [maskedMatch?, findSome?_eq_some_iff_prevails (probe_places dst rules ip), longestMatch?,
    findSome?_eq_some_iff_prevails hprobe]

end SegmentRouter.Rule.PrefixTable
