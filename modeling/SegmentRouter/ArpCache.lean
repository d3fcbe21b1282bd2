import SegmentRouter.Address.Cidr
import SegmentRouter.Address.Mac
import SegmentRouter.Interface.Id
import SegmentRouter.Wire.Bytes

/-!
# ArpCache — learned hardware addresses and the frames that wait for them

For each address of a domain's subnet the cache holds what was learned of it, or that it was asked
for and which frames wait for the answer. At most `maxWaiters` frames wait for one address, in the
order in which they came.
-/

namespace SegmentRouter

/-- A frame that is handled again once its next hop is known. -/
structure Waiter where
  /-- The interface on which the frame arrived. -/
  src : InterfaceId
  frame : Wire.Bytes
  /-- When the frame was parked. -/
  queued : Nat
deriving DecidableEq, Repr

/-- What is known of an address. -/
inductive ArpEntry where
  /-- The address is at `mac`, reached through `via`, as of `refreshed`. -/
  | resolved (mac : Mac) (via : InterfaceId) (refreshed : Nat)
  /-- The address was asked for at `requested` and frames wait for the answer. -/
  | pending (requested : Nat) (waiters : List Waiter)
deriving DecidableEq, Repr

namespace ArpEntry

/-- The frames that wait at an entry. -/
def waiters : ArpEntry → List Waiter
  | resolved .. => []
  | pending _ ws => ws

/-- Whether the entry's time is over. -/
def isExpired (now requestTimeout entryLifetime : Nat) : ArpEntry → Bool
  | resolved _ _ refreshed => entryLifetime ≤ now - refreshed
  | pending requested _ => requestTimeout ≤ now - requested

end ArpEntry

/-- What became of a frame that was to be parked. -/
inductive Parked where
  /-- It is the first to wait, so the address has to be asked for. -/
  | requestNeeded
  /-- It waits behind others. -/
  | queued
  /-- The queue is full and the frame is gone. -/
  | dropped
deriving DecidableEq, Repr

/-- What a domain knows of its addresses. -/
abbrev ArpCache := SortedMap Ipv4Addr ArpEntry

namespace ArpCache

/-- The number of frames that may wait for one address. -/
def maxWaiters : Nat := 32

/-- Where an address was learned to be. -/
def lookup? (cache : ArpCache) (ip : Ipv4Addr) : Option (Mac × InterfaceId) :=
  match cache.get? ip with
  | some (.resolved mac via _) => some (mac, via)
  | _ => none

/-- Whether an address was asked for and is not yet known. -/
def isPending (cache : ArpCache) (ip : Ipv4Addr) : Bool :=
  match cache.get? ip with
  | some (.pending ..) => true
  | _ => false

/-- The number of frames that wait for an answer. -/
def waiting (cache : ArpCache) : Nat :=
  (cache.values.flatMap fun e => e.waiters).length

/-- The cache with a frame parked until an address is known. An address that is known is asked for
again. -/
def park (cache : ArpCache) (ip : Ipv4Addr) (waiter : Waiter) (now : Nat) : Parked × ArpCache :=
  match cache.get? ip with
  | some (.pending requested waiters) =>
    if maxWaiters ≤ waiters.length then (.dropped, cache)
    else (.queued, cache.insert ip (.pending requested (waiters ++ [waiter])))
  | _ => (.requestNeeded, cache.insert ip (.pending now [waiter]))

/-- The cache that has learned an address, and the frames that waited for it. -/
def resolve (cache : ArpCache) (ip : Ipv4Addr) (mac : Mac) (via : InterfaceId) (now : Nat) :
    List Waiter × ArpCache :=
  (((cache.get? ip).map (·.waiters)).getD [], cache.insert ip (.resolved mac via now))

/-- The cache with a known address heard of again; an unknown one is not learned. -/
def refresh (cache : ArpCache) (ip : Ipv4Addr) (mac : Mac) (via : InterfaceId) (now : Nat) :
    ArpCache :=
  match cache.get? ip with
  | some (.resolved ..) => cache.insert ip (.resolved mac via now)
  | _ => cache

/-- The cache without the entries whose time is over, and the unanswered ones among them with the
frames that waited. -/
def expire (cache : ArpCache) (now requestTimeout entryLifetime : Nat) :
    List (Ipv4Addr × List Waiter) × ArpCache :=
  (cache.toList.filterMap fun
      | (ip, .pending requested waiters) =>
        if requestTimeout ≤ now - requested then some (ip, waiters) else none
      | (_, .resolved ..) => none,
    cache.filter fun _ e => !e.isExpired now requestTimeout entryLifetime)

/-- An entry without the frames that arrived on an interface. -/
def dropWaitersFrom (id : InterfaceId) : ArpEntry → ArpEntry
  | .pending requested waiters => .pending requested (waiters.filter (·.src ≠ id))
  | e => e

/-- Whether an entry was learned through an interface. -/
def isVia (id : InterfaceId) : ArpEntry → Bool
  | .resolved _ via _ => via == id
  | .pending .. => false

/-- The cache without what was learned through an interface and without the frames that arrived on
it, and the number of those. An unanswered question stays, so that a late answer is learned. -/
def cancelInterface (cache : ArpCache) (id : InterfaceId) : Nat × ArpCache :=
  let kept : ArpCache := (cache.filter fun _ e => !isVia id e).mapValues fun _ => dropWaitersFrom id
  (cache.waiting - kept.waiting, kept)

/-- The cache without the addresses outside a subnet, and the number of frames that waited for
them. -/
def retainSubnet (cache : ArpCache) (subnet : Cidr) : Nat × ArpCache :=
  let kept : ArpCache := cache.filter fun ip _ => subnet.contains ip
  (cache.waiting - kept.waiting, kept)

/-- The cache that knows nothing any more, and the number of frames that waited. -/
def clear (cache : ArpCache) : Nat × ArpCache :=
  (cache.waiting, ∅)

end ArpCache

end SegmentRouter
