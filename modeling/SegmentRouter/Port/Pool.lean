/-!
# Port/Pool — ports handed out for address translation

A pool holds the ports of the dynamic range, those from 49152 up. It hands them out in rotation, so
a freed port is not handed out again before the others that stayed free. The taken ports are the one
bits of a number; `Pool.isTaken` is the view of a pool, and each operation says what it does to it.

A quota bounds how many ports one holder has of a pool that several holders share.
-/

namespace SegmentRouter.Port

/-- The first port of the dynamic range. -/
def firstPort : Nat := 49152

/-- The number of ports in the dynamic range. -/
def portCount : Nat := 16384

/-- The place of a port in the dynamic range. -/
def index? (port : UInt16) : Option Nat :=
  if firstPort ≤ port.toNat then some (port.toNat - firstPort) else none

/-- The port at a place in the dynamic range. -/
def ofIndex (i : Nat) : UInt16 :=
  UInt16.ofNat (firstPort + i)

theorem index?_lt {port : UInt16} {i : Nat} (h : index? port = some i) : i < portCount := by
  have := port.toNat_lt
  unfold index? at h
  split at h
  · have := Option.some.inj h
    simp only [firstPort] at this
    simp only [portCount]
    omega
  · simp at h

theorem index?_ofIndex {i : Nat} (h : i < portCount) : index? (ofIndex i) = some i := by
  simp only [portCount] at h
  have hn : (ofIndex i).toNat = firstPort + i := by
    simp only [ofIndex, firstPort, UInt16.toNat_ofNat']
    omega
  simp [index?, hn]

/-- The ports of the dynamic range, some of them taken. -/
structure Pool where
  /-- The bit of a port's place is set while the port is taken. -/
  taken : Nat := 0
  /-- The place where the search for a free port begins. -/
  next : Nat := 0
  inUse : Nat := 0
deriving DecidableEq, Repr, Inhabited

namespace Pool

/-- The first free place among the next `count`, from `i` on and around. -/
def search? (taken : Nat) (i : Nat) : (count : Nat) → Option Nat
  | 0 => none
  | count + 1 =>
    if taken.testBit i then search? taken ((i + 1) % portCount) count else some i

/-- Whether a port is handed out. -/
def isTaken (pool : Pool) (port : UInt16) : Bool :=
  match index? port with
  | some i => pool.taken.testBit i
  | none => false

/-- The pool with the place `i`, so far free, taken. -/
def take (pool : Pool) (i : Nat) : Pool :=
  { pool with taken := pool.taken ||| 1 <<< i, inUse := pool.inUse + 1 }

/-- The pool with the place `i`, so far taken, free. -/
def release (pool : Pool) (i : Nat) : Pool :=
  { pool with taken := pool.taken ^^^ 1 <<< i, inUse := pool.inUse - 1 }

/-- A free port, the next one in rotation, and the pool with it taken. -/
def alloc? (pool : Pool) : Option (UInt16 × Pool) :=
  if pool.inUse = portCount then none
  else match search? pool.taken pool.next portCount with
    | some i => some (ofIndex i, { pool.take i with next := (i + 1) % portCount })
    | none => none

/-- The pool with a given port taken, if it is free and of the range. -/
def reserve? (pool : Pool) (port : UInt16) : Option Pool :=
  match index? port with
  | some i => if pool.taken.testBit i then none else some (pool.take i)
  | none => none

/-- The pool with a port free, whatever it was. -/
def free (pool : Pool) (port : UInt16) : Pool :=
  match index? port with
  | some i => if pool.taken.testBit i then pool.release i else pool
  | none => pool

end Pool

/-- One holder's share of a pool. -/
structure Quota where
  max : Nat
  used : Nat := 0
deriving DecidableEq, Repr, Inhabited

namespace Quota

/-- A port of the pool, counted against the quota, if neither is exhausted. -/
def alloc? (quota : Quota) (pool : Pool) : Option (UInt16 × Quota × Pool) :=
  if quota.max ≤ quota.used then none
  else match pool.alloc? with
    | some (port, pool) => some (port, { quota with used := quota.used + 1 }, pool)
    | none => none

/-- The pool with a given port taken, counted against the quota. -/
def reserve? (quota : Quota) (pool : Pool) (port : UInt16) : Option (Quota × Pool) :=
  if quota.max ≤ quota.used then none
  else match pool.reserve? port with
    | some pool => some ({ quota with used := quota.used + 1 }, pool)
    | none => none

/-- Quota and pool with a port given back; nothing changes for a port that is free. -/
def free (quota : Quota) (pool : Pool) (port : UInt16) : Quota × Pool :=
  if pool.isTaken port then ({ quota with used := quota.used - 1 }, pool.free port)
  else (quota, pool)

end Quota

end SegmentRouter.Port
