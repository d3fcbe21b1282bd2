import Mathlib.Data.Nat.Bitwise
import SegmentRouter.Port.Pool

/-!
# Proofs/Port/Pool — what taking and freeing a port does to a pool

A pool is seen through `Pool.isTaken` and the number of ports in use.  Both ways to take a port, the
next one in rotation and a given one, do the same to these (`Pool.Takes`), and freeing the port
undoes it.  Only the place where the next search begins is left behind, and it does not matter
beyond being one of the pool's places (`Pool.core`).
-/

namespace SegmentRouter.Port

variable {port q : UInt16} {i : Nat}

theorem index?_inj (h : index? port = some i) (hq : index? q = some i) : q = port := by
  unfold index? at h hq
  split at h
  · split at hq
    · have := Option.some.inj h
      have := Option.some.inj hq
      exact UInt16.toNat_inj.1 (by omega)
    · cases hq
  · cases h

namespace Pool

variable {pool pool' : Pool} {count : Nat}

/-- A free place that is found is one of the pool's. -/
theorem search?_eq_some {taken j : Nat} (hi : i < portCount)
    (h : search? taken i count = some j) : taken.testBit j = false ∧ j < portCount := by
  induction count generalizing i with
  | zero => cases h
  | succ count ih =>
    rw [search?] at h
    split at h
    · exact ih (Nat.mod_lt _ (by decide)) h
    · rename_i hfree
      obtain rfl := Option.some.inj h
      exact ⟨Bool.not_eq_true _ ▸ hfree, hi⟩

theorem isTaken_of_index? (pool : Pool) (h : index? port = some i) :
    pool.isTaken port = pool.taken.testBit i := by
  rw [isTaken, h]

theorem isSome_index?_of_isTaken (h : pool.isTaken port = true) : (index? port).isSome := by
  rw [isTaken] at h
  cases hi : index? port with
  | none => rw [hi] at h; cases h
  | some i => rfl

theorem isTaken_take (pool : Pool) (h : index? port = some i) (q : UInt16) :
    (pool.take i).isTaken q = (decide (q = port) || pool.isTaken q) := by
  cases hq : index? q with
  | none =>
    have hne : q ≠ port := fun he => by
      rw [he, h] at hq
      cases hq
    simp [isTaken, hq, hne]
  | some j =>
    have hj : i = j ↔ q = port :=
      ⟨fun he => index?_inj h (he ▸ hq), fun he => Option.some.inj (h.symm.trans (he ▸ hq))⟩
    simp only [isTaken, hq, take, Nat.one_shiftLeft, Nat.testBit_or, Nat.testBit_two_pow, hj]
    exact Bool.or_comm ..

theorem isTaken_release (pool : Pool) (h : index? port = some i)
    (ht : pool.taken.testBit i = true) (q : UInt16) :
    (pool.release i).isTaken q = (decide (q ≠ port) && pool.isTaken q) := by
  cases hq : index? q with
  | none => simp [isTaken, hq]
  | some j =>
    have hj : i = j ↔ q = port :=
      ⟨fun he => index?_inj h (he ▸ hq), fun he => Option.some.inj (h.symm.trans (he ▸ hq))⟩
    simp only [isTaken, hq, release, Nat.one_shiftLeft, Nat.testBit_xor, Nat.testBit_two_pow]
    by_cases he : i = j
    · have hp := hj.1 he
      subst he
      simp [ht, hp]
    · simp [he, mt hj.2 he]

/-! ## Taking a port -/

/-- A free port of the range is taken, and nothing else. -/
structure Takes (pool : Pool) (port : UInt16) (pool' : Pool) : Prop where
  inRange : (index? port).isSome
  free : pool.isTaken port = false
  isTaken : ∀ q, pool'.isTaken q = (decide (q = port) || pool.isTaken q)
  inUse : pool'.inUse = pool.inUse + 1
  next : pool.next < portCount → pool'.next < portCount

/-- The next port in rotation is one that was free. -/
theorem alloc?_eq_some (hnext : pool.next < portCount) (h : pool.alloc? = some (port, pool')) :
    ∃ i, index? port = some i ∧ pool.taken.testBit i = false ∧
      pool' = { pool.take i with next := (i + 1) % portCount } := by
  unfold alloc? at h
  split at h
  · cases h
  · split at h
    · rename_i i hi
      obtain ⟨hfree, hlt⟩ := search?_eq_some hnext hi
      obtain ⟨rfl, rfl⟩ := Prod.mk.inj (Option.some.inj h)
      exact ⟨i, index?_ofIndex hlt, hfree, rfl⟩
    · cases h

theorem takes_alloc? (hnext : pool.next < portCount) (h : pool.alloc? = some (port, pool')) :
    pool.Takes port pool' := by
  obtain ⟨i, hi, hfree, rfl⟩ := alloc?_eq_some hnext h
  exact {
    inRange := by rw [hi]; rfl
    free := (pool.isTaken_of_index? hi).trans hfree
    isTaken := pool.isTaken_take hi
    inUse := rfl
    next := fun _ => Nat.mod_lt _ (by decide) }

/-- **A given port is taken exactly if it is a free one of the range.** -/
theorem reserve?_eq_some : pool.reserve? port = some pool' ↔
    ∃ i, index? port = some i ∧ pool.taken.testBit i = false ∧ pool' = pool.take i := by
  unfold reserve?
  cases hi : index? port with
  | none => simp
  | some i =>
    have hsome : ∀ j, some i = some j ↔ j = i := fun j => by rw [Option.some.injEq, eq_comm]
    simp only [hsome, exists_eq_left]
    split
    · rename_i ht
      simp [ht]
    · rename_i ht
      simp only [Bool.not_eq_true] at ht
      rw [Option.some.injEq, eq_comm]
      simp [ht]

theorem takes_reserve? (h : pool.reserve? port = some pool') : pool.Takes port pool' := by
  obtain ⟨i, hi, hfree, rfl⟩ := reserve?_eq_some.1 h
  exact {
    inRange := by rw [hi]; rfl
    free := (pool.isTaken_of_index? hi).trans hfree
    isTaken := pool.isTaken_take hi
    inUse := rfl
    next := id }

theorem isSome_reserve? (hr : (index? port).isSome) (hfree : pool.isTaken port = false) :
    (pool.reserve? port).isSome := by
  obtain ⟨i, hi⟩ := Option.isSome_iff_exists.1 hr
  rw [pool.isTaken_of_index? hi] at hfree
  rw [reserve?_eq_some.2 ⟨i, hi, hfree, rfl⟩]
  rfl

/-! ## Freeing a port -/

section

variable (h : pool.isTaken port = true)

include h

theorem free_of_isTaken :
    ∃ i, index? port = some i ∧ pool.taken.testBit i = true ∧ pool.free port = pool.release i := by
  obtain ⟨i, hi⟩ := Option.isSome_iff_exists.1 (isSome_index?_of_isTaken h)
  rw [pool.isTaken_of_index? hi] at h
  refine ⟨i, hi, h, ?_⟩
  simp only [free, hi, h, if_true]

theorem isTaken_free (q : UInt16) :
    (pool.free port).isTaken q = (decide (q ≠ port) && pool.isTaken q) := by
  obtain ⟨i, hi, ht, hfree⟩ := free_of_isTaken h
  rw [hfree, pool.isTaken_release hi ht]

theorem inUse_free : (pool.free port).inUse = pool.inUse - 1 := by
  obtain ⟨i, -, -, hfree⟩ := free_of_isTaken h
  rw [hfree]
  rfl

end

theorem free_of_not_isTaken (h : ¬ pool.isTaken port = true) : pool.free port = pool := by
  unfold free
  cases hi : index? port with
  | none => rfl
  | some i =>
    rw [pool.isTaken_of_index? hi] at h
    exact if_neg h

theorem next_free (pool : Pool) (port : UInt16) : (pool.free port).next = pool.next := by
  unfold free
  split
  · split <;> rfl
  · rfl

/-! ## Rotation -/

/-- The pool without the place of the next search, of which only remains whether it is one of the
pool's. -/
def core (pool : Pool) : Pool :=
  { pool with next := if pool.next < portCount then 0 else portCount }

theorem isTaken_core (pool : Pool) (port : UInt16) : pool.core.isTaken port = pool.isTaken port :=
  rfl

theorem next_core (pool : Pool) : pool.core.next < portCount ↔ pool.next < portCount := by
  unfold core
  split
  · rename_i h
    exact ⟨fun _ => h, fun _ => Nat.zero_lt_succ _⟩
  · rename_i h
    exact ⟨fun he => absurd he (Nat.lt_irrefl _), fun he => absurd he h⟩

theorem or_xor_bit {n i : Nat} (h : n.testBit i = false) : (n ||| 1 <<< i) ^^^ 1 <<< i = n := by
  refine Nat.eq_of_testBit_eq fun j => ?_
  rw [Nat.one_shiftLeft, Nat.testBit_xor, Nat.testBit_or, Nat.testBit_two_pow]
  by_cases hj : i = j
  · subst hj
    simp [h]
  · simp [hj]

/-- **Freeing the port that was handed out undoes all but the rotation.** -/
theorem core_free_alloc? (hnext : pool.next < portCount) (h : pool.alloc? = some (port, pool')) :
    (pool'.free port).core = pool.core := by
  obtain ⟨i, hi, hfree, rfl⟩ := alloc?_eq_some hnext h
  have htaken : ({ pool.take i with next := (i + 1) % portCount } : Pool).isTaken port = true :=
    (pool.isTaken_take hi port).trans (by simp)
  obtain ⟨j, hj, -, hrel⟩ := free_of_isTaken htaken
  obtain rfl : i = j := Option.some.inj (hi.symm.trans hj)
  have hmod : (i + 1) % portCount < portCount := Nat.mod_lt _ (by decide)
  rw [hrel, core, core]
  simp only [release, take, or_xor_bit hfree, if_pos hmod, if_pos hnext, Nat.add_sub_cancel]

end Pool

end SegmentRouter.Port
