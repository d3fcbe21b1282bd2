import SegmentRouter.Link.Opening
import SegmentRouter.Link.Registry
import SegmentRouter.Proofs.Port.Share

/-!
# Proofs/Domain/Bounds — the counters of a domain do not go below zero

Differences of natural numbers end at zero, and the bits of a number go on forever.  Here what a
domain counts is told in guarded steps: a place of a pool has to be one of the places that there
are, and what is taken off a count has to be there.  For the ports in use the latter holds as long
as no port is taken in a pool that counts none (`Domain.Counts`); for frames that wait and for
leases it holds at any time, since only some of those that there were are kept.
-/

namespace SegmentRouter

open Wire (Protocol)

/-- The difference of two counts, of which the first must not be the smaller one. -/
def subGuarded (n k : Nat) : Option Nat :=
  if k ≤ n then some (n - k) else none

theorem subGuarded_of_le {n k : Nat} (h : k ≤ n) : subGuarded n k = some (n - k) :=
  if_pos h

/-! ## Pools -/

namespace Port

/-- The number of words of 64 bits that hold the bits of all places. -/
def wordCount : Nat :=
  portCount / 64

namespace Pool

variable {pool : Pool} {i : Nat} {port : UInt16}

/-- The bit of a place, whose word has to be there. -/
def bitGuarded (taken i : Nat) : Option Bool :=
  if i / 64 < wordCount then some (taken.testBit i) else none

/-- `search?` in guarded steps. -/
def searchGuarded (taken i : Nat) : (count : Nat) → Option (Option Nat)
  | 0 => some none
  | count + 1 => do
    if ← bitGuarded taken i then searchGuarded taken ((i + 1) % portCount) count
    else return some i

/-- `isTaken` in guarded steps. -/
def isTakenGuarded (pool : Pool) (port : UInt16) : Option Bool :=
  match index? port with
  | some i => bitGuarded pool.taken i
  | none => some false

/-- `take` as a guarded step. -/
def takeGuarded (pool : Pool) (i : Nat) : Option Pool :=
  if i / 64 < wordCount then some (pool.take i) else none

/-- `release` in guarded steps. -/
def releaseGuarded (pool : Pool) (i : Nat) : Option Pool :=
  if i / 64 < wordCount then do
    let inUse ← subGuarded pool.inUse 1
    return { pool with taken := pool.taken ^^^ 1 <<< i, inUse }
  else none

/-- `alloc?` in guarded steps. -/
def allocGuarded (pool : Pool) : Option (Option (UInt16 × Pool)) :=
  if pool.inUse = portCount then return none
  else do
    match ← searchGuarded pool.taken pool.next portCount with
    | some i => return some (ofIndex i, { ← pool.takeGuarded i with next := (i + 1) % portCount })
    | none => return none

/-- `free` in guarded steps. -/
def freeGuarded (pool : Pool) (port : UInt16) : Option Pool :=
  match index? port with
  | some i => do
    if ← bitGuarded pool.taken i then pool.releaseGuarded i else return pool
  | none => some pool

theorem word_lt (h : i < portCount) : i / 64 < wordCount := by
  simp only [portCount] at h
  simp only [wordCount, portCount]
  omega

theorem bitGuarded_of_lt (h : i < portCount) (taken : Nat) :
    bitGuarded taken i = some (taken.testBit i) :=
  if_pos (word_lt h)

theorem searchGuarded_eq (taken : Nat) (h : i < portCount) (count : Nat) :
    searchGuarded taken i count = some (search? taken i count) := by
  induction count generalizing i with
  | zero => rfl
  | succ count ih =>
    rw [searchGuarded, search?, bitGuarded_of_lt h, Option.bind_eq_bind, Option.bind_some]
    split
    · exact ih (Nat.mod_lt _ (by decide))
    · rfl

theorem isTakenGuarded_eq (pool : Pool) (port : UInt16) :
    pool.isTakenGuarded port = some (pool.isTaken port) := by
  unfold isTakenGuarded isTaken
  cases hi : index? port with
  | none => rfl
  | some i => exact bitGuarded_of_lt (index?_lt hi) _

theorem takeGuarded_of_lt (h : i < portCount) (pool : Pool) :
    pool.takeGuarded i = some (pool.take i) :=
  if_pos (word_lt h)

theorem allocGuarded_eq (h : pool.next < portCount) : pool.allocGuarded = some pool.alloc? := by
  unfold allocGuarded alloc?
  split
  · rfl
  · rw [searchGuarded_eq _ h, Option.bind_eq_bind, Option.bind_some]
    cases hi : search? pool.taken pool.next portCount with
    | none => rfl
    | some i =>
      dsimp only
      rw [takeGuarded_of_lt (search?_eq_some h hi).2]
      rfl

/-- **Giving a port back takes one off the ports in use**, if any are whenever a port is taken. -/
theorem freeGuarded_eq (h : pool.isTaken port = true → 0 < pool.inUse) :
    pool.freeGuarded port = some (pool.free port) := by
  unfold freeGuarded free
  cases hi : index? port with
  | none => rfl
  | some i =>
    have hlt := index?_lt hi
    rw [pool.isTaken_of_index? hi] at h
    dsimp only
    rw [bitGuarded_of_lt hlt, Option.bind_eq_bind, Option.bind_some]
    split
    · rename_i ht
      rw [releaseGuarded, if_pos (word_lt hlt), subGuarded_of_le (h ht)]
      rfl
    · rfl

end Pool

/-! ## Shares -/

namespace Quota

variable {quota : Quota} {pool : Pool} {port : UInt16}

/-- `alloc?` in guarded steps. -/
def allocGuarded (quota : Quota) (pool : Pool) : Option (Option (UInt16 × Quota × Pool)) :=
  if quota.max ≤ quota.used then return none
  else do
    match ← pool.allocGuarded with
    | some (port, pool) => return some (port, { quota with used := quota.used + 1 }, pool)
    | none => return none

/-- `free` in guarded steps.  The count of a share is not guarded: it stays at zero. -/
def freeGuarded (quota : Quota) (pool : Pool) (port : UInt16) : Option (Quota × Pool) := do
  if ← pool.isTakenGuarded port then
    return ({ quota with used := quota.used - 1 }, ← pool.freeGuarded port)
  else return (quota, pool)

theorem allocGuarded_eq (h : pool.next < portCount) (quota : Quota) :
    quota.allocGuarded pool = some (quota.alloc? pool) := by
  unfold allocGuarded alloc?
  split
  · rfl
  · rw [Pool.allocGuarded_eq h]
    cases pool.alloc? <;> rfl

theorem freeGuarded_eq (h : pool.isTaken port = true → 0 < pool.inUse) (quota : Quota) :
    quota.freeGuarded pool port = some (quota.free pool port) := by
  unfold freeGuarded free
  rw [Pool.isTakenGuarded_eq, Pool.freeGuarded_eq h]
  simp only [Option.bind_eq_bind, Option.bind_some]
  split <;> rfl

end Quota

end Port

/-! ## Domains -/

namespace Domain

variable {d d' taken : Domain} {client : String} {p : Protocol} {port : UInt16}

/-- A pool with a port taken counts one in use. -/
def Counts (d : Domain) : Prop :=
  ∀ p port, (d.pools.get p).isTaken port = true → 0 < (d.pools.get p).inUse

theorem Counts.congr (h : d.Counts) (hpools : d'.pools = d.pools) : d'.Counts := by
  unfold Counts
  rw [hpools]
  exact h

/-- `allocPort` in guarded steps. -/
def allocPortGuarded (d : Domain) (client : String) (p : Protocol) :
    Option (Except Error (UInt16 × Domain)) :=
  match d.nat.get? client with
  | none => return .error (.unknownDomain client)
  | some rule => do
    match ← (rule.quotas.get p).allocGuarded (d.pools.get p) with
    | some (port, quota, pool) => return .ok (port, d.withShare client rule p quota pool)
    | none => return .error .portExhausted

/-- `freePort` in guarded steps. -/
def freePortGuarded (d : Domain) (client : String) (p : Protocol) (port : UInt16) :
    Option Domain :=
  match d.nat.get? client with
  | some rule => do
    let (quota, pool) ← (rule.quotas.get p).freeGuarded (d.pools.get p) port
    return d.withShare client rule p quota pool
  | none => do
    return { d with pools := d.pools.set p (← (d.pools.get p).freeGuarded port) }

/-- `linkSource` in guarded steps. -/
def linkSourceGuarded (server : Domain) (routerIp : Ipv4Addr) (client : String) (key : FlowKey) :
    Option (Except Error (LinkSource × Domain)) :=
  if server.translatesFor client then do
    match ← server.allocPortGuarded client key.protocol with
    | .ok (port, taken) => return .ok ({ ip := routerIp, port, natPort := some port }, taken)
    | .error e => return .error e
  else return .ok ({ ip := key.flow.srcIp, port := key.flow.srcPort }, server)

/-- `releaseLink` in guarded steps. -/
def releaseLinkGuarded (d : Domain) (link : Link) : Option Domain :=
  let left := d.leaveLink (link.key .server) link.id
  match link.natPort with
  | some port => left.freePortGuarded link.client.domain link.protocol port
  | none => some left

theorem allocPortGuarded_eq (h : (d.pools.get p).next < Port.portCount) (client : String) :
    d.allocPortGuarded client p = some (d.allocPort client p) := by
  unfold allocPortGuarded allocPort
  cases d.nat.get? client with
  | none => rfl
  | some rule =>
    dsimp only
    rw [Port.Quota.allocGuarded_eq h]
    cases (rule.quotas.get p).alloc? (d.pools.get p) <;> rfl

theorem freePortGuarded_eq (h : (d.pools.get p).isTaken port = true → 0 < (d.pools.get p).inUse)
    (client : String) : d.freePortGuarded client p port = some (d.freePort client p port) := by
  unfold freePortGuarded freePort
  cases d.nat.get? client with
  | none =>
    dsimp only
    rw [Port.Pool.freeGuarded_eq h]
    rfl
  | some rule =>
    dsimp only
    rw [Port.Quota.freeGuarded_eq h]
    rfl

theorem linkSourceGuarded_eq (h : ∀ p, (d.pools.get p).next < Port.portCount)
    (routerIp : Ipv4Addr) (client : String) (key : FlowKey) :
    d.linkSourceGuarded routerIp client key = some (d.linkSource routerIp client key) := by
  unfold linkSourceGuarded linkSource
  split
  · rw [allocPortGuarded_eq (h key.protocol)]
    cases d.allocPort client key.protocol <;> rfl
  · rfl

theorem releaseLinkGuarded_eq (h : d.Counts) (link : Link) :
    d.releaseLinkGuarded link = some (d.releaseLink link) := by
  unfold releaseLinkGuarded releaseLink
  cases link.natPort with
  | none => rfl
  | some port =>
    have hleft : (d.leaveLink (link.key .server) link.id).Counts := h.congr rfl
    exact freePortGuarded_eq (hleft link.protocol port) link.client.domain

/-- A port that was just granted is in use. -/
theorem Grants.inUse_pos (h : d.Grants client p port taken) : 0 < (taken.pools.get p).inUse := by
  obtain ⟨rule, pool, -, -, htakes, rfl⟩ := h
  rw [pool_withShare, if_pos rfl, htakes.inUse]
  exact Nat.succ_pos _

end Domain

/-! ## Frames that wait -/

namespace ArpEntry

/-- The frames that wait at a list of entries. -/
def allWaiters (entries : List ArpEntry) : List Waiter :=
  entries.flatMap (·.waiters)

end ArpEntry

namespace ArpCache

open ArpEntry (allWaiters)

/-- What is left of a list of entries without an interface. -/
def withoutInterface (id : InterfaceId) (entries : List ArpEntry) : List ArpEntry :=
  (entries.filter (!isVia id ·)).map (dropWaitersFrom id)

/-- The number of frames at a list of entries that arrived on an interface, in guarded steps: at
each entry, what is left is taken off what there was. -/
def cancelledGuarded (id : InterfaceId) : List ArpEntry → Option Nat
  | [] => some 0
  | e :: rest => do
    let lost ← subGuarded e.waiters.length (dropWaitersFrom id e).waiters.length
    return lost + (← cancelledGuarded id rest)

/-- `cancelInterface` in guarded steps. -/
def cancelInterfaceGuarded (cache : ArpCache) (id : InterfaceId) : Option (Nat × ArpCache) := do
  return (← cancelledGuarded id cache.values, (cache.cancelInterface id).2)

theorem length_dropWaitersFrom_le (id : InterfaceId) (e : ArpEntry) :
    (dropWaitersFrom id e).waiters.length ≤ e.waiters.length := by
  cases e with
  | resolved mac via refreshed => exact Nat.le_refl _
  | pending requested waiters => exact List.length_filter_le ..

/-- What was learned through an interface has nobody waiting. -/
theorem length_withoutInterface_cons (id : InterfaceId) (e : ArpEntry) (rest : List ArpEntry) :
    (allWaiters (withoutInterface id (e :: rest))).length =
      (dropWaitersFrom id e).waiters.length + (allWaiters (withoutInterface id rest)).length := by
  cases e with
  | pending requested waiters => simp [withoutInterface, allWaiters, isVia]
  | resolved mac via refreshed =>
    by_cases hvia : via = id <;>
      simp [withoutInterface, allWaiters, isVia, dropWaitersFrom, ArpEntry.waiters, hvia]

theorem length_withoutInterface_le (id : InterfaceId) (entries : List ArpEntry) :
    (allWaiters (withoutInterface id entries)).length ≤ (allWaiters entries).length := by
  induction entries with
  | nil => exact Nat.le_refl _
  | cons e rest ih =>
    have := length_dropWaitersFrom_le id e
    rw [length_withoutInterface_cons]
    simp only [allWaiters, List.flatMap_cons, List.length_append] at ih ⊢
    omega

theorem cancelledGuarded_eq (id : InterfaceId) (entries : List ArpEntry) :
    cancelledGuarded id entries = some
      ((allWaiters entries).length - (allWaiters (withoutInterface id entries)).length) := by
  induction entries with
  | nil => rfl
  | cons e rest ih =>
    have hle := length_dropWaitersFrom_le id e
    have hrest := length_withoutInterface_le id rest
    rw [cancelledGuarded, subGuarded_of_le hle, ih, length_withoutInterface_cons]
    simp only [Option.bind_eq_bind, Option.bind_some, allWaiters, List.flatMap_cons,
      List.length_append] at hrest ⊢
    refine congrArg some ?_
    omega

/-- **No more frames are taken off than waited.** -/
theorem cancelInterfaceGuarded_eq (cache : ArpCache) (id : InterfaceId) :
    cache.cancelInterfaceGuarded id = some (cache.cancelInterface id) := by
  have hvalues : (cache.cancelInterface id).2.values = withoutInterface id cache.values := by
    simp [cancelInterface, withoutInterface, SortedMap.values, SortedMap.mapValues,
      SortedMap.filter, List.filter_map, Function.comp_def]
  have hcount : (cache.cancelInterface id).1 = (allWaiters cache.values).length -
      (allWaiters (withoutInterface id cache.values)).length := by
    rw [← hvalues]
    rfl
  unfold cancelInterfaceGuarded
  rw [cancelledGuarded_eq, ← hcount]
  rfl

end ArpCache

/-! ## Leases -/

namespace DhcpServer

/-- `maintain` in guarded steps: the leases that are left are taken off those that there were. -/
def maintainGuarded (s : DhcpServer) (now : Nat) : Option (Nat × DhcpServer) := do
  let kept := (s.leases.filter fun _ lease => !decide (lease.expires ≤ now)).mapValues fun _ =>
    age now
  return (← subGuarded s.leases.size kept.size, { s with leases := kept })

/-- **No more leases end than there were.** -/
theorem maintainGuarded_eq (s : DhcpServer) (now : Nat) :
    s.maintainGuarded now = some (s.maintain now).value := by
  have hsplit : s.leases.size =
      (s.leases.toList.filter (·.2.expires ≤ now)).length + ((s.leases.filter fun _ lease =>
        !decide (lease.expires ≤ now)).mapValues fun _ => age now).size := by
    simp only [SortedMap.size, SortedMap.mapValues, SortedMap.filter, List.length_map]
    exact List.length_eq_length_filter_add ..
  unfold maintainGuarded
  dsimp only
  rw [subGuarded_of_le (hsplit ▸ Nat.le_add_left ..), hsplit, Nat.add_sub_cancel]
  rfl

end DhcpServer

end SegmentRouter
