import SegmentRouter.Proofs.Port.Sharing

/-!
# Proofs/Port/Rotation — a port is handed out again after the others

A port that is handed out goes to the end of the line: a search comes to every other port before it
(`Pool.before_of_alloc?`).  A port that stays free keeps its place before another one, since no search
passes it (`Pool.Before.of_alloc?`), and a call that is not for any port does not move the place where
the next search begins.  So between two times that a port is handed out, each other port is handed
out or found taken (`rotates`).
-/

namespace SegmentRouter.Port

variable {p q r : UInt16}

/-! ## The line -/

/-- The place of a port of the dynamic range. -/
def place (port : UInt16) : Nat :=
  port.toNat - firstPort

theorem index?_eq_place (h : p ∈ dynamic) : index? p = some (place p) :=
  if_pos (mem_dynamic_iff.1 h)

theorem place_lt (h : p ∈ dynamic) : place p < portCount :=
  index?_lt (index?_eq_place h)

theorem place_ofIndex {i : Nat} (h : i < portCount) : place (ofIndex i) = i := by
  have hindex := index?_ofIndex h
  rw [index?_eq_place (mem_dynamic_iff_index?.2 ⟨i, hindex⟩)] at hindex
  exact Option.some.inj hindex

namespace Pool

variable {pool pool' : Pool} {held : Finset UInt16} {c : Call} {taken start count i j k : Nat}

/-- A search comes to `q` before it comes to `p`. -/
def Before (pool : Pool) (q p : UInt16) : Prop :=
  turn pool.next (place q) < turn pool.next (place p)

theorem turn_add_mod_le (start k : Nat) : turn start ((start + k) % portCount) ≤ k := by
  simp only [turn, portCount]
  omega

/-- **A search passes taken places only.** -/
theorem testBit_of_turn_lt (hstart : start < portCount) (hj : j < portCount)
    (h : search? taken start count = some i) (hlt : turn start j < turn start i) :
    taken.testBit j = true := by
  obtain ⟨k, -, rfl, hpassed⟩ := search?_eq_some_first hstart h
  have hseen := hpassed (turn start j) (Nat.lt_of_lt_of_le hlt (turn_add_mod_le start k))
  rwa [add_turn_mod hstart hj] at hseen

theorem turn_inj (hstart : start < portCount) (hi : i < portCount) (hj : j < portCount)
    (h : turn start i = turn start j) : i = j := by
  rw [← add_turn_mod hstart hi, h, add_turn_mod hstart hj]

/-- The place behind which the next search begins is the last one that it comes to. -/
theorem turn_succ_lt_self (hi : i < portCount) (hj : j < portCount) (hne : j ≠ i) :
    turn ((i + 1) % portCount) j < turn ((i + 1) % portCount) i := by
  simp only [turn, portCount] at *
  omega

/-- The places behind it keep their order. -/
theorem turn_succ_lt (hstart : start < portCount) (hi : i < portCount) (hj : j < portCount)
    (hk : k < portCount) (hij : turn start i < turn start j) (hjk : turn start j < turn start k) :
    turn ((i + 1) % portCount) j < turn ((i + 1) % portCount) k := by
  simp only [turn, portCount] at *
  omega

theorem search?_of_alloc? (hnext : pool.next < portCount) (h : pool.alloc? = some (p, pool')) :
    search? pool.taken pool.next portCount = some (place p) ∧
      pool'.next = (place p + 1) % portCount := by
  rw [alloc?] at h
  split at h
  · cases h
  · split at h
    · rename_i i hi
      obtain ⟨rfl, rfl⟩ := Prod.mk.inj (Option.some.inj h)
      rw [place_ofIndex (search?_eq_some hnext hi).2]
      exact ⟨hi, rfl⟩
    · cases h

/-- **Who is handed out goes to the end of the line.** -/
theorem before_of_alloc? (hnext : pool.next < portCount) (h : pool.alloc? = some (p, pool'))
    (hp : p ∈ dynamic) (hq : q ∈ dynamic) (hne : q ≠ p) : pool'.Before q p := by
  have hplace : place q ≠ place p := by
    intro heq
    have hindex := index?_eq_place hq
    rw [heq] at hindex
    exact hne (index?_inj (index?_eq_place hp) hindex)
  rw [Before, (search?_of_alloc? hnext h).2]
  exact turn_succ_lt_self (place_lt hp) (place_lt hq) hplace

/-- **Who comes before a port that is handed out is taken.** -/
theorem Represents.mem_of_before (hpool : pool.Represents held)
    (h : pool.alloc? = some (p, pool')) (hq : q ∈ dynamic) (hbefore : pool.Before q p) :
    q ∈ held := by
  rw [← hpool.isTaken, pool.isTaken_of_index? (index?_eq_place hq)]
  exact testBit_of_turn_lt hpool.next (place_lt hq) (search?_of_alloc? hpool.next h).1 hbefore

/-- **Who is free and is not handed out keeps the place before another port.** -/
theorem Before.of_alloc? (h : pool.Before q p) (hpool : pool.Represents held)
    (halloc : pool.alloc? = some (r, pool')) (hq : q ∈ dynamic) (hp : p ∈ dynamic)
    (hfree : q ∉ held) (hne : r ≠ q) : pool'.Before q p := by
  obtain ⟨hr, -, -⟩ := hpool.of_alloc? halloc
  have hplace : turn pool.next (place r) ≠ turn pool.next (place q) := by
    intro heq
    have hindex := index?_eq_place hr
    rw [turn_inj hpool.next (place_lt hr) (place_lt hq) heq] at hindex
    exact hne (index?_inj (index?_eq_place hq) hindex)
  have hpassed : ¬ turn pool.next (place q) < turn pool.next (place r) := fun hlt =>
    hfree (hpool.mem_of_before halloc hq hlt)
  rw [Before, (search?_of_alloc? hpool.next halloc).2]
  exact turn_succ_lt hpool.next (place_lt hr) (place_lt hq) (place_lt hp)
    (Nat.lt_of_le_of_ne (Nat.not_lt.1 hpassed) hplace) h

theorem alloc?_of_granted (h : (pool.respond c).1 = .granted p) :
    c = .alloc ∧ pool.alloc? = some (p, (pool.respond c).2) := by
  cases c with
  | alloc =>
    rw [respond] at h ⊢
    cases halloc : pool.alloc? with
    | none =>
      rw [halloc] at h
      cases h
    | some grant =>
      rw [halloc] at h
      rw [← Answer.granted.inj h]
      exact ⟨rfl, rfl⟩
  | reserve port =>
    rw [respond] at h
    cases hreserve : pool.reserve? port <;> simp [hreserve, reserved] at h
  | free | isTaken => cases h

/-- **Only to hand out a port moves the place where the next search begins.** -/
theorem next_respond (h : ∀ p, (pool.respond c).1 ≠ .granted p) :
    (pool.respond c).2.next = pool.next := by
  cases c with
  | alloc =>
    revert h
    rw [respond]
    cases pool.alloc? with
    | none => exact fun _ => rfl
    | some grant => exact fun h => absurd rfl (h grant.1)
  | reserve port =>
    rw [respond]
    cases hreserve : pool.reserve? port with
    | none => rfl
    | some after =>
      obtain ⟨i, -, -, rfl⟩ := reserve?_eq_some.1 hreserve
      rfl
  | free port => exact next_free pool port
  | isTaken port => rfl

end Pool

/-! ## Between two times that a port is handed out -/

variable {ι : Type} {events : Events ι} {e : (Option ι × Call) × Answer} {i j k : Nat}

/-- The call with a number asks for any port and is granted this one. -/
def Grants (events : Events ι) (k : Nat) (port : UInt16) : Prop :=
  ∃ who, events[k]? = some ((who, .alloc), .granted port)

/-- The call with a number is granted `q`, or another port while `q` is held. -/
def PassesBy (events : Events ι) (k : Nat) (q : UInt16) : Prop :=
  ∃ r, Grants events k r ∧ (r = q ∨ q ∈ (book (events.take k)).held)

theorem grants_take_iff {n : Nat} (h : k < n) :
    Grants (events.take n) k p ↔ Grants events k p := by
  rw [Grants, List.getElem?_take_of_lt h, Grants]

theorem passesBy_take_iff {n : Nat} (h : k < n) :
    PassesBy (events.take n) k q ↔ PassesBy events k q := by
  rw [PassesBy, List.take_take, Nat.min_eq_left (Nat.le_of_lt h), PassesBy]
  simp only [grants_take_iff h]

theorem Grants.lt_length (h : Grants events k p) : k < events.length :=
  (List.getElem?_eq_some_iff.1 h.choose_spec).1

variable [DecidableEq ι] {max : ι → Nat} {s : Shares ι} {held : Finset UInt16} {who : Option ι}
  {c : Call}

namespace Shares

/-- **A call leaves a port behind another one**, or hands that one out or finds it taken. -/
theorem before_respond (hpool : s.pool.Represents held) (hp : p ∈ dynamic) (hq : q ∈ dynamic)
    (hbefore : s.pool.Before q p) (who : Option ι) (c : Call) :
    (∃ r, c = .alloc ∧ (s.respond (who, c)).1 = .granted r ∧ (r = q ∨ q ∈ held)) ∨
      (s.respond (who, c)).2.pool.Before q p := by
  rcases s.respond_cases who c with ⟨-, -, hrefused⟩ | ⟨-, hanswer, hafter, -⟩
  · rw [hrefused]
    exact .inr hbefore
  · rw [hanswer, hafter]
    by_cases hgranted : ∃ r, (s.pool.respond c).1 = .granted r
    · obtain ⟨r, hr⟩ := hgranted
      obtain ⟨hc, halloc⟩ := Pool.alloc?_of_granted hr
      by_cases hpassed : r = q ∨ q ∈ held
      · exact .inl ⟨r, hc, hr, hpassed⟩
      · rw [not_or] at hpassed
        exact .inr (hbefore.of_alloc? hpool halloc hq hp hpassed.2 hpassed.1)
    · rw [Pool.Before, Pool.next_respond (not_exists.1 hgranted)]
      exact .inr hbefore

/-- A port that was just handed out stands behind every other one. -/
theorem before_of_granted (hpool : s.pool.Represents held)
    (h : (s.respond (who, c)).1 = .granted p) (hq : q ∈ dynamic) (hne : q ≠ p) :
    (s.respond (who, c)).2.pool.Before q p := by
  rcases s.respond_cases who c with ⟨-, -, hrefused⟩ | ⟨-, hanswer, hafter, -⟩
  · rw [hrefused] at h
    cases h
  · obtain ⟨-, halloc⟩ := Pool.alloc?_of_granted (hanswer.symm.trans h)
    rw [hafter]
    exact Pool.before_of_alloc? hpool.next halloc (hpool.of_alloc? halloc).1 hq hne

/-- Every port before one that is handed out is held. -/
theorem mem_of_granted (hpool : s.pool.Represents held)
    (h : (s.respond (who, c)).1 = .granted p) (hq : q ∈ dynamic) (hbefore : s.pool.Before q p) :
    q ∈ held := by
  rcases s.respond_cases who c with ⟨-, -, hrefused⟩ | ⟨-, hanswer, -, -⟩
  · rw [hrefused] at h
    cases h
  · obtain ⟨-, halloc⟩ := Pool.alloc?_of_granted (hanswer.symm.trans h)
    exact hpool.mem_of_before halloc hq hbefore

theorem mem_dynamic_of_grants (h : Transcript respond (fresh max) events s)
    (hi : Grants events i p) : p ∈ dynamic := by
  obtain ⟨who, hcall⟩ := hi
  obtain ⟨before, hbefore, hanswer, -⟩ := h.cut hcall
  have hfits := (respond_fits (represents_of_transcript hbefore) who .alloc).1
  rw [← hanswer] at hfits
  exact hfits.2.1

/-- **A port that was handed out stands behind another one until the search passes that one by.** -/
theorem passesBy_or_before (h : Transcript respond (fresh max) events s)
    (hi : Grants events i p) (hq : q ∈ dynamic) (hne : q ≠ p) :
    (∃ k, i < k ∧ k < events.length ∧ PassesBy events k q) ∨ s.pool.Before q p := by
  induction h with
  | nil =>
    obtain ⟨who, hnone⟩ := hi
    cases hnone
  | @snoc events s h c ih =>
    obtain ⟨who, c⟩ := c
    have hpool := represents_of_transcript h
    have hlt := hi.lt_length
    have hcut : (events ++ [((who, c), (s.respond (who, c)).1)]).take events.length = events :=
      List.take_left
    rw [List.length_append, List.length_singleton] at hlt
    rcases Nat.lt_or_eq_of_le (Nat.le_of_lt_succ hlt) with hearlier | rfl
    · have hi' := (grants_take_iff hearlier).2 hi
      rw [hcut] at hi'
      rcases ih hi' with ⟨k, hik, hk, hpasses⟩ | hbefore
      · rw [← hcut, passesBy_take_iff hk] at hpasses
        exact .inl ⟨k, hik, by simpa using Nat.lt_succ_of_lt hk, hpasses⟩
      · refine (before_respond hpool (mem_dynamic_of_grants h hi') hq hbefore who c).imp_left ?_
        rintro ⟨r, rfl, hgranted, hpassed⟩
        refine ⟨events.length, hearlier, by simp, r, ⟨who, ?_⟩, ?_⟩
        · rw [List.getElem?_concat_length, hgranted]
        · rwa [hcut]
    · obtain ⟨who', hcall⟩ := hi
      rw [List.getElem?_concat_length] at hcall
      obtain ⟨-, hgranted⟩ := Prod.mk.inj (Option.some.inj hcall)
      exact .inr (before_of_granted hpool hgranted hq hne)

/-- **Ports are handed out in rotation.**  Between two times that a port is handed out, whatever else
is called, each other port of the range is passed by: some call for any port, after the first time
and up to the second, is granted it or is made while it is held.  A port that is free at each of
these calls is handed out in between. -/
theorem rotates (h : Transcript respond (fresh max) events s) (hij : i < j)
    (hi : Grants events i p) (hj : Grants events j p) (hq : q ∈ dynamic) (hne : q ≠ p) :
    (∃ k, i < k ∧ k ≤ j ∧ PassesBy events k q) ∧
      ((∀ k r, i < k → k ≤ j → Grants events k r → q ∉ (book (events.take k)).held) →
        ∃ k, i < k ∧ k < j ∧ Grants events k q) := by
  obtain ⟨who, hcall⟩ := hj
  obtain ⟨before, hbefore, hanswer, -⟩ := h.cut hcall
  have hlt : j < events.length := Grants.lt_length ⟨who, hcall⟩
  have hpasses : ∃ k, i < k ∧ k ≤ j ∧ PassesBy events k q := by
    have hi' := (grants_take_iff hij).2 hi
    rcases passesBy_or_before hbefore hi' hq hne with ⟨k, hik, hk, hpasses⟩ | hline
    · rw [List.length_take_of_le (Nat.le_of_lt hlt)] at hk
      exact ⟨k, hik, Nat.le_of_lt hk, (passesBy_take_iff hk).1 hpasses⟩
    · have hheld := mem_of_granted (represents_of_transcript hbefore) hanswer.symm hq hline
      exact ⟨j, hij, Nat.le_refl j, p, ⟨who, hcall⟩, .inr hheld⟩
  refine ⟨hpasses, fun hfree => ?_⟩
  obtain ⟨k, hik, hkj, r, hr, hpassed⟩ := hpasses
  obtain rfl := hpassed.resolve_right (hfree k r hik hkj hr)
  refine ⟨k, hik, Nat.lt_of_le_of_ne hkj ?_, hr⟩
  rintro rfl
  obtain ⟨who', hcall'⟩ := hr
  rw [hcall] at hcall'
  cases hcall'
  exact hne rfl

/-- Whatever was called before, any ports of the range are held after enough calls more. -/
theorem exists_held (h : Transcript respond (fresh max) events s) (ports : Finset UInt16)
    (hports : ports ⊆ dynamic) : ∃ more s', Transcript respond (fresh max) (events ++ more) s' ∧
      ports ⊆ (book (events ++ more)).held := by
  induction ports using Finset.induction_on with
  | empty => exact ⟨[], s, by rwa [List.append_nil], Finset.empty_subset _⟩
  | insert port ports _ ih =>
    rw [Finset.insert_subset_iff] at hports
    obtain ⟨more, s', h', hheld⟩ := ih hports.2
    have hfits := (respond_fits (represents_of_transcript h') none (.reserve port)).1
    have hnext := h'.snoc (none, .reserve port)
    rw [List.append_assoc] at hnext
    refine ⟨_, _, hnext, ?_⟩
    rw [← List.append_assoc, book_concat, Book.held_enter]
    generalize (s'.respond (none, .reserve port)).1 = a at hfits
    cases a with
    | reserved => exact Finset.insert_subset_insert _ hheld
    | refused =>
      have hin := (hfits.resolve_left (not_not.2 trivial)).resolve_left (not_not.2 hports.1)
      exact Finset.insert_subset hin hheld
    | granted | freed | taken => cases hfits

/-- The first port is handed out again when all others are held: the search passes them by. -/
theorem rotates_full : ∃ (events : Events Empty) (s : Shares Empty) (j : Nat),
    Transcript respond (fresh Empty.elim) events s ∧ Grants events 0 49152 ∧ Grants events j 49152 ∧
      0 < j ∧ ∃ k, 0 < k ∧ k ≤ j ∧ PassesBy events k 49153 := by
  have hfirst : Transcript respond (fresh Empty.elim) [((none, .alloc), .granted 49152)] _ :=
    Transcript.nil.snoc (none, Call.alloc)
  obtain ⟨more, s, hall, hheld⟩ := exists_held hfirst dynamic subset_rfl
  have hfull : (book ([((none, .alloc), .granted 49152)] ++ more)).held = dynamic :=
    Finset.Subset.antisymm (represents_of_transcript hall).subset hheld
  have hfreed := hall.snoc (none, .free 49152)
  have hpool := represents_of_transcript hfreed
  rw [book_concat, Book.held_enter, hfull] at hpool
  have hagain := hfreed.snoc (none, .alloc)
  have hgranted : ((s.respond (none, .free 49152)).2.respond (none, .alloc)).1 = .granted 49152 := by
    have hfits := (respond_fits hpool none .alloc).1
    generalize ((s.respond (none, .free 49152)).2.respond (none, .alloc)).1 = a at hfits
    -- all ports but the freed one are held
    cases a with
    | granted port =>
      have hport : port = 49152 := by
        by_contra hother
        exact hfits.2.2 (Finset.mem_erase.2 ⟨hother, hfits.2.1⟩)
      rw [hport]
    | refused =>
      have hin : (49152 : UInt16) ∈ dynamic := mem_dynamic_iff.2 (by decide)
      rw [← hfits.resolve_left (not_not.2 trivial)] at hin
      exact absurd rfl (Finset.mem_erase.1 hin).1
    | reserved | freed | taken => cases hfits
  rw [hgranted] at hagain
  have hother : (49153 : UInt16) ∈ dynamic := mem_dynamic_iff.2 (by decide)
  have hpasses := rotates hagain (Nat.succ_pos _) ⟨none, by simp⟩
    ⟨none, List.getElem?_concat_length⟩ hother (by decide)
  exact ⟨_, _, _, hagain, ⟨none, by simp⟩, ⟨none, List.getElem?_concat_length⟩, by simp, hpasses.1⟩

end Shares

end SegmentRouter.Port
