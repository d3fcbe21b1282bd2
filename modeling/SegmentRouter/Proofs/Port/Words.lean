import SegmentRouter.Proofs.Domain.Bounds
import SegmentRouter.Proofs.Port.Taken

/-!
# Proofs/Port/Words — the arithmetic of a pool stays within machine words

What a pool computes is told in steps each of which must not leave the words that hold the numbers:
a sum of counts or places is at most `limit`, and a port at most 65535.  As long as the pool stands
for a set of ports, no step fails (`Pool.respondWithin_eq`), and neither does one of a share that is
not exhausted (`Quota.respondWithin_eq`).
-/

namespace SegmentRouter.Port

variable {port : UInt16} {limit i : Nat} {held : Finset UInt16}

/-- The sum of two numbers, which must not be above a limit. -/
def addWithin (limit n k : Nat) : Option Nat :=
  if n + k ≤ limit then some (n + k) else none

theorem addWithin_of_le {n k : Nat} (h : n + k ≤ limit) : addWithin limit n k = some (n + k) :=
  if_pos h

/-! ## Pools -/

namespace Pool

variable {pool : Pool}

/-- `search?` within words: the places are counted from the first one on. -/
def searchWithin (limit taken first : Nat) : (step count : Nat) → Option (Option Nat)
  | _, 0 => some none
  | step, count + 1 => do
    let place := (← addWithin limit first step) % portCount
    if ← bitGuarded taken place then searchWithin limit taken first (step + 1) count
    else return some place

/-- `take` within words. -/
def takeWithin (limit : Nat) (pool : Pool) (i : Nat) : Option Pool := do
  let marked ← pool.takeGuarded i
  return { marked with inUse := ← addWithin limit pool.inUse 1 }

/-- `alloc?` within words. -/
def allocWithin (limit : Nat) (pool : Pool) : Option (Option (UInt16 × Pool)) :=
  if pool.inUse = portCount then return none
  else do
    match ← searchWithin limit pool.taken pool.next 0 portCount with
    | some i =>
      let marked ← pool.takeWithin limit i
      let after ← addWithin limit i 1
      let port ← addWithin 65535 firstPort i
      return some (UInt16.ofNat port, { marked with next := after % portCount })
    | none => return none

/-- `reserve?` within words. -/
def reserveWithin (limit : Nat) (pool : Pool) (port : UInt16) : Option (Option Pool) :=
  match index? port with
  | some i => do
    if ← bitGuarded pool.taken i then return none
    else return some (← pool.takeWithin limit i)
  | none => some none

/-- `respond` within words. -/
def respondWithin (limit : Nat) (pool : Pool) : Call → Option (Answer × Pool)
  | .alloc => (pool.allocWithin limit).map (granted pool)
  | .reserve port => (pool.reserveWithin limit port).map (reserved pool)
  | .free port => (pool.freeGuarded port).map fun pool => (.freed, pool)
  | .isTaken port => (pool.isTakenGuarded port).map fun b => (.taken b, pool)

section

variable (hlimit : 65535 ≤ limit)

include hlimit

theorem searchWithin_eq (taken : Nat) {first step count : Nat} (hfirst : first < portCount)
    (hcount : step + count ≤ portCount) : searchWithin limit taken first step count =
      some (search? taken ((first + step) % portCount) count) := by
  induction count generalizing step with
  | zero => rfl
  | succ count ih =>
    have hsum : first + step ≤ limit := by
      simp only [portCount] at hfirst hcount
      omega
    have hplace : (first + step) % portCount < portCount := Nat.mod_lt _ (by decide)
    have hafter : ((first + step) % portCount + 1) % portCount = (first + (step + 1)) % portCount :=
      Nat.mod_add_mod ..
    rw [searchWithin, search?, addWithin_of_le hsum, Option.bind_eq_bind, Option.bind_some]
    dsimp only
    rw [bitGuarded_of_lt hplace, Option.bind_eq_bind, Option.bind_some]
    split
    · rw [ih (by omega), hafter]
    · rfl

theorem takeWithin_eq (hinUse : pool.inUse < portCount) (hi : i < portCount) :
    pool.takeWithin limit i = some (pool.take i) := by
  have hsum : pool.inUse + 1 ≤ limit := by
    simp only [portCount] at hinUse
    omega
  rw [takeWithin, takeGuarded_of_lt hi, addWithin_of_le hsum]
  rfl

theorem allocWithin_eq (hnext : pool.next < portCount) (hinUse : pool.inUse ≤ portCount) :
    pool.allocWithin limit = some pool.alloc? := by
  unfold allocWithin alloc?
  split
  · rfl
  · rename_i hfull
    have hsearch := searchWithin_eq hlimit pool.taken hnext (Nat.zero_add portCount).le
    rw [Nat.add_zero, Nat.mod_eq_of_lt hnext] at hsearch
    rw [hsearch, Option.bind_eq_bind, Option.bind_some]
    cases hi : search? pool.taken pool.next portCount with
    | none => rfl
    | some i =>
      have hlt := (search?_eq_some hnext hi).2
      have hafter : i + 1 ≤ limit := by
        simp only [portCount] at hlt
        omega
      have hport : firstPort + i ≤ 65535 := by
        simp only [portCount] at hlt
        simp only [firstPort]
        omega
      dsimp only
      rw [takeWithin_eq hlimit (Nat.lt_of_le_of_ne hinUse hfull) hlt, addWithin_of_le hafter,
        addWithin_of_le hport]
      rfl

theorem reserveWithin_eq (h : pool.Represents held) (port : UInt16) :
    pool.reserveWithin limit port = some (pool.reserve? port) := by
  unfold reserveWithin reserve?
  cases hi : index? port with
  | none => rfl
  | some i =>
    have hlt := index?_lt hi
    dsimp only
    rw [bitGuarded_of_lt hlt, Option.bind_eq_bind, Option.bind_some]
    split
    · rfl
    · rename_i hfree
      -- a port of the range is left, so not all of them are counted
      have hnew : port ∉ held := by
        rwa [← h.isTaken, pool.isTaken_of_index? hi]
      have hinUse : pool.inUse < portCount := by
        rw [h.inUse, ← card_dynamic]
        exact Finset.card_lt_card
          ((Finset.ssubset_iff_of_subset h.subset).2 ⟨port, mem_dynamic_iff_index?.2 ⟨i, hi⟩, hnew⟩)
      rw [takeWithin_eq hlimit hinUse hlt]
      rfl

/-- **A pool that stands for a set of ports answers any call within words.** -/
theorem respondWithin_eq (h : pool.Represents held) (c : Call) :
    pool.respondWithin limit c = some (pool.respond c) := by
  cases c with
  | alloc => rw [respondWithin, allocWithin_eq hlimit h.next h.inUse_le]; rfl
  | reserve port => rw [respondWithin, reserveWithin_eq hlimit h]; rfl
  | free port => rw [respondWithin, freeGuarded_eq h.inUse_pos]; rfl
  | isTaken port => rw [respondWithin, isTakenGuarded_eq]; rfl

end

end Pool

/-! ## Shares -/

namespace Quota

variable {quota : Quota} {pool : Pool}

/-- The answer of a share to a call, and share and pool after it.  What is taken is asked of the
pool. -/
def respond (quota : Quota) (pool : Pool) : Call → Answer × Quota × Pool
  | .alloc => granted (quota, pool) (quota.alloc? pool)
  | .reserve port => reserved (quota, pool) (quota.reserve? pool port)
  | .free port => (.freed, quota.free pool port)
  | .isTaken port => (.taken (pool.isTaken port), quota, pool)

/-- `alloc?` within words. -/
def allocWithin (limit : Nat) (quota : Quota) (pool : Pool) :
    Option (Option (UInt16 × Quota × Pool)) :=
  if quota.max ≤ quota.used then return none
  else do
    match ← pool.allocWithin limit with
    | some (port, pool) =>
      return some (port, { quota with used := ← addWithin limit quota.used 1 }, pool)
    | none => return none

/-- `reserve?` within words. -/
def reserveWithin (limit : Nat) (quota : Quota) (pool : Pool) (port : UInt16) :
    Option (Option (Quota × Pool)) :=
  if quota.max ≤ quota.used then return none
  else do
    match ← pool.reserveWithin limit port with
    | some pool => return some ({ quota with used := ← addWithin limit quota.used 1 }, pool)
    | none => return none

/-- `respond` within words. -/
def respondWithin (limit : Nat) (quota : Quota) (pool : Pool) : Call → Option (Answer × Quota × Pool)
  | .alloc => (quota.allocWithin limit pool).map (granted (quota, pool))
  | .reserve port => (quota.reserveWithin limit pool port).map (reserved (quota, pool))
  | .free port => (quota.freeGuarded pool port).map fun after => (.freed, after)
  | .isTaken port => (pool.isTakenGuarded port).map fun b => (.taken b, quota, pool)

/-- **A share answers any call within words**, if its bound is one. -/
theorem respondWithin_eq (hlimit : 65535 ≤ limit) (h : pool.Represents held)
    (hmax : quota.max ≤ limit) (c : Call) :
    quota.respondWithin limit pool c = some (quota.respond pool c) := by
  have hused (hroom : ¬ quota.max ≤ quota.used) : quota.used + 1 ≤ limit :=
    Nat.lt_of_lt_of_le (Nat.not_le.1 hroom) hmax
  cases c with
  | alloc =>
    have halloc : quota.allocWithin limit pool = some (quota.alloc? pool) := by
      unfold allocWithin alloc?
      split
      · rfl
      · rename_i hroom
        rw [Pool.allocWithin_eq hlimit h.next h.inUse_le, addWithin_of_le (hused hroom)]
        cases pool.alloc? <;> rfl
    rw [respondWithin, halloc]
    rfl
  | reserve port =>
    have hreserve : quota.reserveWithin limit pool port = some (quota.reserve? pool port) := by
      unfold reserveWithin reserve?
      split
      · rfl
      · rename_i hroom
        rw [Pool.reserveWithin_eq hlimit h, addWithin_of_le (hused hroom)]
        cases pool.reserve? port <;> rfl
    rw [respondWithin, hreserve]
    rfl
  | free port =>
    rw [respondWithin, freeGuarded_eq h.inUse_pos]
    rfl
  | isTaken port =>
    rw [respondWithin, Pool.isTakenGuarded_eq]
    rfl

end Quota

end SegmentRouter.Port
