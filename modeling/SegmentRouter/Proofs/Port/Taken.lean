import Mathlib.Data.Finset.Card
import Mathlib.Data.Finset.Image
import SegmentRouter.Proofs.Port.Pool

/-!
# Proofs/Port/Taken — a pool is a finite set of ports

`Pool.Represents` says that the bits, the count and the place of the next search of a pool are those
of a set of ports of the dynamic range.  To take a port is to insert it, to free one is to erase it,
and no port is handed out exactly if the set is the whole range
(`Pool.Represents.alloc?_eq_none_iff`): each call is answered as the set would (`Fits`) and does to
the pool what it does to the set (`heldAfter`).
-/

namespace SegmentRouter.Port

variable {port : UInt16} {i j : Nat}

/-! ## The dynamic range -/

/-- The ports of the dynamic range. -/
def dynamic : Finset UInt16 :=
  (Finset.range portCount).image ofIndex

theorem ofIndex_of_index? (h : index? port = some i) : ofIndex i = port :=
  index?_inj h (index?_ofIndex (index?_lt h))

theorem mem_dynamic_iff_index? : port ∈ dynamic ↔ ∃ i, index? port = some i := by
  rw [dynamic, Finset.mem_image]
  constructor
  · rintro ⟨i, hi, rfl⟩
    exact ⟨i, index?_ofIndex (Finset.mem_range.1 hi)⟩
  · rintro ⟨i, hi⟩
    exact ⟨i, Finset.mem_range.2 (index?_lt hi), ofIndex_of_index? hi⟩

/-- **The dynamic range begins at the first port** and goes on to the last that there is. -/
theorem mem_dynamic_iff : port ∈ dynamic ↔ firstPort ≤ port.toNat := by
  rw [mem_dynamic_iff_index?, index?]
  split
  · rename_i hle
    exact iff_of_true ⟨_, rfl⟩ hle
  · rename_i hlt
    exact iff_of_false (by simp) hlt

theorem card_dynamic : dynamic.card = portCount := by
  rw [dynamic, Finset.card_image_of_injOn, Finset.card_range]
  intro i hi j hj hij
  have hi' := index?_ofIndex (Finset.mem_range.1 hi)
  have hj' := index?_ofIndex (Finset.mem_range.1 hj)
  rw [hij] at hi'
  exact Option.some.inj (hi'.symm.trans hj')

/-! ## Search -/

namespace Pool

variable {pool pool' : Pool} {held : Finset UInt16} {taken count : Nat}

theorem succ_mod_add (i m : Nat) : ((i + 1) % portCount + m) % portCount =
    (i + (m + 1)) % portCount := by
  rw [Nat.mod_add_mod, Nat.add_assoc, Nat.add_comm 1 m]

/-- The number of places that a search from `start` on comes by before it comes to `i`. -/
def turn (start i : Nat) : Nat :=
  (i + portCount - start) % portCount

theorem turn_lt (start i : Nat) : turn start i < portCount :=
  Nat.mod_lt _ (by decide)

/-- A search comes to each place on its way around. -/
theorem add_turn_mod {start : Nat} (hstart : start < portCount) (hi : i < portCount) :
    (start + turn start i) % portCount = i := by
  rw [turn, Nat.add_mod_mod, Nat.add_sub_cancel' (by omega), Nat.add_mod_right, Nat.mod_eq_of_lt hi]

/-- **A search that finds nothing has seen taken places only.** -/
theorem taken_of_search?_eq_none (hi : i < portCount) (h : search? taken i count = none) :
    ∀ m < count, taken.testBit ((i + m) % portCount) = true := by
  induction count generalizing i with
  | zero => exact fun m hm => absurd hm (Nat.not_lt_zero m)
  | succ count ih =>
    rw [search?] at h
    split at h
    · rename_i hhere
      intro m hm
      cases m with
      | zero => rwa [Nat.add_zero, Nat.mod_eq_of_lt hi]
      | succ m =>
        rw [← succ_mod_add]
        exact ih (Nat.mod_lt _ (by decide)) h m (Nat.lt_of_succ_lt_succ hm)
    · cases h

/-- **A search finds the first free place**: it has passed taken ones only. -/
theorem search?_eq_some_first (hi : i < portCount) (h : search? taken i count = some j) :
    ∃ k < count, (i + k) % portCount = j ∧
      ∀ m < k, taken.testBit ((i + m) % portCount) = true := by
  induction count generalizing i with
  | zero => cases h
  | succ count ih =>
    rw [search?] at h
    split at h
    · rename_i hhere
      obtain ⟨k, hk, hj, hpassed⟩ := ih (Nat.mod_lt _ (by decide)) h
      refine ⟨k + 1, Nat.succ_lt_succ hk, (succ_mod_add i k).symm.trans hj, fun m hm => ?_⟩
      cases m with
      | zero => rwa [Nat.add_zero, Nat.mod_eq_of_lt hi]
      | succ m =>
        rw [← succ_mod_add]
        exact hpassed m (Nat.lt_of_succ_lt_succ hm)
    · obtain rfl := Option.some.inj h
      exact ⟨0, Nat.succ_pos _, Nat.mod_eq_of_lt hi, fun m hm => absurd hm (Nat.not_lt_zero m)⟩

/-! ## The set that a pool stands for -/

/-- **A pool stands for a set of ports**: its bits are those of the ports of the set, its count is the
size of the set, and a search begins at one of its places. -/
structure Represents (pool : Pool) (held : Finset UInt16) : Prop where
  subset : held ⊆ dynamic
  isTaken : ∀ port, pool.isTaken port = true ↔ port ∈ held
  bits : pool.taken < 2 ^ portCount
  inUse : pool.inUse = held.card
  next : pool.next < portCount

theorem represents_empty : ({} : Pool).Represents ∅ where
  subset := Finset.empty_subset _
  isTaken port := by
    rw [isTaken]
    cases index? port <;> simp
  bits := Nat.two_pow_pos _
  inUse := rfl
  next := by decide

theorem bits_take (h : pool.taken < 2 ^ portCount) (hi : i < portCount) :
    (pool.take i).taken < 2 ^ portCount := by
  refine Nat.or_lt_two_pow h ?_
  rw [Nat.one_shiftLeft]
  exact Nat.pow_lt_pow_right Nat.one_lt_two hi

theorem bits_release (h : pool.taken < 2 ^ portCount) (hi : i < portCount) :
    (pool.release i).taken < 2 ^ portCount := by
  refine Nat.xor_lt_two_pow h ?_
  rw [Nat.one_shiftLeft]
  exact Nat.pow_lt_pow_right Nat.one_lt_two hi

namespace Represents

theorem inUse_le (h : pool.Represents held) : pool.inUse ≤ portCount := by
  rw [h.inUse, ← card_dynamic]
  exact Finset.card_le_card h.subset

theorem inUse_pos (h : pool.Represents held) (htaken : pool.isTaken port = true) :
    0 < pool.inUse := by
  rw [h.inUse, Finset.card_pos]
  exact ⟨port, (h.isTaken port).1 htaken⟩

theorem isTaken_eq_false_iff (h : pool.Represents held) :
    pool.isTaken port = false ↔ port ∉ held := by
  rw [← h.isTaken, Bool.not_eq_true]

/-- Who takes a port inserts it. -/
theorem insert (h : pool.Represents held) (htakes : pool.Takes port pool')
    (hbits : pool'.taken < 2 ^ portCount) : pool'.Represents (insert port held) where
  subset := Finset.insert_subset
    (mem_dynamic_iff_index?.2 (Option.isSome_iff_exists.1 htakes.inRange)) h.subset
  isTaken q := by
    rw [htakes.isTaken, Bool.or_eq_true, decide_eq_true_iff, h.isTaken, Finset.mem_insert]
  bits := hbits
  inUse := by
    rw [htakes.inUse, h.inUse, Finset.card_insert_of_notMem (h.isTaken_eq_false_iff.1 htakes.free)]
  next := htakes.next h.next

/-- **The port that is handed out next was not taken, and is then.** -/
theorem of_alloc? (h : pool.Represents held) (halloc : pool.alloc? = some (port, pool')) :
    port ∈ dynamic ∧ port ∉ held ∧ pool'.Represents (Insert.insert port held) := by
  have htakes := takes_alloc? h.next halloc
  obtain ⟨i, hi, -, rfl⟩ := alloc?_eq_some h.next halloc
  exact ⟨mem_dynamic_iff_index?.2 ⟨i, hi⟩, h.isTaken_eq_false_iff.1 htakes.free,
    h.insert htakes (bits_take h.bits (index?_lt hi))⟩

/-- **No port is handed out exactly if all are taken.** -/
theorem alloc?_eq_none_iff (h : pool.Represents held) : pool.alloc? = none ↔ held = dynamic := by
  constructor
  · intro hnone
    refine Finset.Subset.antisymm h.subset fun port hport => ?_
    by_cases hfull : pool.inUse = portCount
    · rw [h.inUse, ← card_dynamic] at hfull
      rwa [Finset.eq_of_subset_of_card_le h.subset hfull.ge]
    · rw [alloc?, if_neg hfull] at hnone
      split at hnone
      · cases hnone
      · rename_i hsearch
        obtain ⟨i, hi⟩ := mem_dynamic_iff_index?.1 hport
        rw [← h.isTaken, pool.isTaken_of_index? hi]
        have hseen := taken_of_search?_eq_none h.next hsearch (turn pool.next i) (turn_lt ..)
        rwa [add_turn_mod h.next (index?_lt hi)] at hseen
  · rintro rfl
    exact if_pos (h.inUse.trans card_dynamic)

theorem of_reserve? (h : pool.Represents held) (hreserve : pool.reserve? port = some pool') :
    port ∈ dynamic ∧ port ∉ held ∧ pool'.Represents (Insert.insert port held) := by
  have htakes := takes_reserve? hreserve
  obtain ⟨i, hi, -, rfl⟩ := reserve?_eq_some.1 hreserve
  exact ⟨mem_dynamic_iff_index?.2 ⟨i, hi⟩, h.isTaken_eq_false_iff.1 htakes.free,
    h.insert htakes (bits_take h.bits (index?_lt hi))⟩

/-- **A port is not reserved exactly if it is none of the range, or taken.** -/
theorem reserve?_eq_none_iff (h : pool.Represents held) :
    pool.reserve? port = none ↔ port ∉ dynamic ∨ port ∈ held := by
  rw [reserve?, mem_dynamic_iff_index?]
  cases hi : index? port with
  | none => simp
  | some i =>
    rw [← h.isTaken, pool.isTaken_of_index? hi]
    cases hbit : pool.taken.testBit i <;> simp [hbit]

/-- **A port that is given back is erased**, if it was in the set. -/
theorem free (h : pool.Represents held) (port : UInt16) :
    (pool.free port).Represents (held.erase port) := by
  by_cases htaken : pool.isTaken port = true
  · obtain ⟨i, hi, -, hfree⟩ := free_of_isTaken htaken
    exact {
      subset := (Finset.erase_subset _ _).trans h.subset
      isTaken := fun q => by
        rw [isTaken_free htaken, Bool.and_eq_true, decide_eq_true_iff, h.isTaken, Finset.mem_erase]
      bits := hfree ▸ bits_release h.bits (index?_lt hi)
      inUse := by
        rw [inUse_free htaken, h.inUse, Finset.card_erase_of_mem ((h.isTaken port).1 htaken)]
      next := (next_free pool port).symm ▸ h.next }
  · rw [free_of_not_isTaken htaken, Finset.erase_eq_of_notMem (mt (h.isTaken port).2 htaken)]
    exact h

end Represents

end Pool

/-! ## Calls and answers -/

/-- What a pool or a share is called for. -/
inductive Call where
  | alloc
  | reserve (port : UInt16)
  | free (port : UInt16)
  | isTaken (port : UInt16)
deriving DecidableEq

/-- What a pool or a share answers. -/
inductive Answer where
  | granted (port : UInt16)
  | reserved
  | refused
  | freed
  | taken (b : Bool)
deriving DecidableEq

section

variable {σ : Type}

/-- The answer to a call for any port, and what there is after it. -/
def granted (before : σ) : Option (UInt16 × σ) → Answer × σ
  | some (port, after) => (.granted port, after)
  | none => (.refused, before)

/-- The answer to a call for a given port, and what there is after it. -/
def reserved (before : σ) : Option σ → Answer × σ
  | some after => (.reserved, after)
  | none => (.refused, before)

end

/-- **What a set of taken ports answers**, to one who has room for another port or not. -/
def Fits (room : Prop) (held : Finset UInt16) : Call → Answer → Prop
  | .alloc, .granted port => room ∧ port ∈ dynamic ∧ port ∉ held
  | .alloc, .refused => ¬ room ∨ held = dynamic
  | .reserve port, .reserved => room ∧ port ∈ dynamic ∧ port ∉ held
  | .reserve port, .refused => ¬ room ∨ port ∉ dynamic ∨ port ∈ held
  | .free _, .freed => True
  | .isTaken port, .taken b => b = decide (port ∈ held)
  | _, _ => False

/-- **What an answered call makes of the set.** -/
def heldAfter (held : Finset UInt16) : Call → Answer → Finset UInt16
  | .alloc, .granted port => insert port held
  | .reserve port, .reserved => insert port held
  | .free port, _ => held.erase port
  | _, _ => held

namespace Pool

variable {pool : Pool} {held : Finset UInt16}

/-- The answer of a pool to a call, and the pool after it. -/
def respond (pool : Pool) : Call → Answer × Pool
  | .alloc => granted pool pool.alloc?
  | .reserve port => reserved pool (pool.reserve? port)
  | .free port => (.freed, pool.free port)
  | .isTaken port => (.taken (pool.isTaken port), pool)

/-- A call that is refused leaves the pool as it was. -/
theorem respond_of_refused {c : Call} (h : (pool.respond c).1 = .refused) :
    (pool.respond c).2 = pool := by
  cases c with
  | alloc =>
    revert h
    rw [respond]
    cases pool.alloc? <;> simp [granted]
  | reserve port =>
    revert h
    rw [respond]
    cases pool.reserve? port <;> simp [reserved]
  | free | isTaken => cases h

/-- **A pool does what the set does that it stands for.** -/
theorem Represents.respond (h : pool.Represents held) (c : Call) :
    Fits True held c (pool.respond c).1 ∧
      (pool.respond c).2.Represents (heldAfter held c (pool.respond c).1) := by
  cases c with
  | alloc =>
    rw [Pool.respond]
    cases halloc : pool.alloc? with
    | none => exact ⟨.inr (h.alloc?_eq_none_iff.1 halloc), h⟩
    | some granted =>
      obtain ⟨hin, hnew, hafter⟩ := h.of_alloc? halloc
      exact ⟨⟨trivial, hin, hnew⟩, hafter⟩
  | reserve port =>
    rw [Pool.respond]
    cases hreserve : pool.reserve? port with
    | none => exact ⟨.inr (h.reserve?_eq_none_iff.1 hreserve), h⟩
    | some after =>
      obtain ⟨hin, hnew, hafter⟩ := h.of_reserve? hreserve
      exact ⟨⟨trivial, hin, hnew⟩, hafter⟩
  | free port => exact ⟨trivial, h.free port⟩
  | isTaken port => exact ⟨Bool.eq_iff_iff.2 ((h.isTaken port).trans decide_eq_true_iff.symm), h⟩

end Pool

end SegmentRouter.Port
