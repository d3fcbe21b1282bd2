import SegmentRouter.ArpCache
import SegmentRouter.Proofs.SortedMap.Entries

/-!
# Proofs/Arp/Queue — the frames that wait for an address

A cache is seen through its queues.  Each call does two things to a queue at most: frames leave it,
and the others keep their order, or a frame joins it at its end (`queue_park`, `queue_expire`,
`queue_cancelInterface`).
-/

namespace SegmentRouter.ArpCache

variable {cache : ArpCache} {ip other : Ipv4Addr} {frame : Waiter} {now : Nat} {id : InterfaceId}

/-- The frames that wait for an address, in the order in which they came. -/
def queue (cache : ArpCache) (ip : Ipv4Addr) : List Waiter :=
  ((cache.get? ip).map (·.waiters)).getD []

/-- **A frame joins a queue at its end**, or is dropped because too many wait. -/
theorem park_cases (cache : ArpCache) (ip : Ipv4Addr) (w : Waiter) (now : Nat) :
    cache.park ip w now = (.dropped, cache) ∨
      (cache.queue ip).length < maxWaiters ∧ ∃ outcome requested, outcome ≠ .dropped ∧
        cache.park ip w now =
          (outcome, cache.insert ip (.pending requested (cache.queue ip ++ [w]))) := by
  have hroom : ([] : List Waiter).length < maxWaiters := by decide
  unfold park queue
  cases hentry : cache.get? ip with
  | none => exact .inr ⟨hroom, .requestNeeded, now, nofun, rfl⟩
  | some entry =>
    cases entry with
    | resolved mac via refreshed => exact .inr ⟨hroom, .requestNeeded, now, nofun, rfl⟩
    | pending requested waiters =>
      dsimp only [Option.map_some, Option.getD_some, ArpEntry.waiters]
      split
      · exact .inl rfl
      · rename_i hroom
        exact .inr ⟨Nat.not_le.1 hroom, .queued, requested, nofun, rfl⟩

/-! ## A frame joins -/

theorem queue_insert (cache : ArpCache) (ip other : Ipv4Addr) (entry : ArpEntry) :
    ArpCache.queue (cache.insert ip entry) other =
      if other = ip then entry.waiters else cache.queue other := by
  rw [queue, SortedMap.get?_insert]
  split <;> rfl

/-- A frame that is not dropped stands behind those that wait for its address. -/
theorem queue_park (cache : ArpCache) (ip : Ipv4Addr) (frame : Waiter) (now : Nat)
    (other : Ipv4Addr) : (cache.park ip frame now).2.queue other =
      cache.queue other ++
        if other = ip ∧ (cache.park ip frame now).1 ≠ .dropped then [frame] else [] := by
  rcases cache.park_cases ip frame now with h | ⟨-, outcome, requested, houtcome, h⟩
  · simp [h]
  · rw [h, queue_insert]
    by_cases hother : other = ip
    · simp [hother, houtcome, ArpEntry.waiters]
    · simp [hother]

/-- **A frame is dropped exactly if the queue is full.** -/
theorem park_eq_dropped_iff :
    (cache.park ip frame now).1 = .dropped ↔ maxWaiters ≤ (cache.queue ip).length := by
  have hroom : ¬ maxWaiters ≤ ([] : List Waiter).length := by decide
  rw [park, queue]
  match cache.get? ip with
  | none => exact iff_of_false nofun hroom
  | some (.resolved mac via refreshed) => exact iff_of_false nofun hroom
  | some (.pending requested waiters) =>
    dsimp only
    split
    · rename_i hfull
      exact iff_of_true rfl hfull
    · rename_i hfree
      exact iff_of_false nofun hfree

/-- **An address is asked for exactly if it has not been asked for yet.** -/
theorem park_eq_requestNeeded_iff :
    (cache.park ip frame now).1 = .requestNeeded ↔ cache.isPending ip = false := by
  rw [park, isPending]
  match cache.get? ip with
  | none => exact iff_of_true rfl rfl
  | some (.resolved mac via refreshed) => exact iff_of_true rfl rfl
  | some (.pending requested waiters) =>
    dsimp only
    split <;> exact iff_of_false nofun nofun

/-! ## Frames leave -/

theorem queue_resolve (cache : ArpCache) (ip : Ipv4Addr) (mac : Mac) (via : InterfaceId) (now : Nat)
    (other : Ipv4Addr) : (cache.resolve ip mac via now).2.queue other =
      if other = ip then [] else cache.queue other :=
  cache.queue_insert ip other _

theorem queue_refresh (cache : ArpCache) (ip : Ipv4Addr) (mac : Mac) (via : InterfaceId) (now : Nat)
    (other : Ipv4Addr) : (cache.refresh ip mac via now).queue other = cache.queue other := by
  unfold refresh
  split
  · rename_i hknown
    rw [queue_insert]
    split
    · rename_i hother
      rw [hother, queue, hknown]
      rfl
    · rfl
  · rfl

/-- **What ends are the questions whose time is over**, with those who waited for an answer. -/
theorem mem_expire {requestTimeout entryLifetime : Nat} {waiters : List Waiter} :
    (ip, waiters) ∈ (cache.expire now requestTimeout entryLifetime).1 ↔
      ∃ requested, cache.get? ip = some (.pending requested waiters) ∧
        requestTimeout ≤ now - requested := by
  rw [expire, List.mem_filterMap]
  constructor
  · rintro ⟨⟨other, entry⟩, hentry, hended⟩
    match entry with
    | .resolved mac via refreshed => cases hended
    | .pending requested frames =>
      dsimp only at hended
      split at hended
      · rename_i hover
        obtain ⟨rfl, rfl⟩ := Prod.mk.inj (Option.some.inj hended)
        exact ⟨requested, SortedMap.get?_eq_some_iff.2 hentry, hover⟩
      · cases hended
  · rintro ⟨requested, hentry, hover⟩
    exact ⟨_, SortedMap.get?_eq_some_iff.1 hentry, if_pos hover⟩

/-- No question ends twice. -/
theorem nodup_expire (cache : ArpCache) (now requestTimeout entryLifetime : Nat) :
    ((cache.expire now requestTimeout entryLifetime).1.map (·.1)).Nodup := by
  refine cache.nodup_filterMap_keys fun e q hq => ?_
  obtain ⟨ip, entry⟩ := e
  cases entry with
  | resolved mac via refreshed => cases hq
  | pending requested waiters =>
    dsimp only at hq
    split at hq
    · rw [← Option.some.inj hq]
    · cases hq

/-- Those who waited for an answer to a question that ends wait no more, and all others do. -/
theorem queue_expire (cache : ArpCache) (now requestTimeout entryLifetime : Nat) (ip : Ipv4Addr) :
    (cache.expire now requestTimeout entryLifetime).2.queue ip =
      if ip ∈ (cache.expire now requestTimeout entryLifetime).1.map (·.1) then []
      else cache.queue ip := by
  have hended : ip ∈ (cache.expire now requestTimeout entryLifetime).1.map (·.1) ↔
      ∃ waiters requested, cache.get? ip = some (.pending requested waiters) ∧
        requestTimeout ≤ now - requested := by
    simp only [List.mem_map, Prod.exists, exists_and_right, exists_eq_right, mem_expire]
  have hkept : (cache.expire now requestTimeout entryLifetime).2.get? ip =
      (cache.get? ip).filter fun e => !e.isExpired now requestTimeout entryLifetime :=
    SortedMap.get?_filter ..
  rw [queue, hkept]
  split
  · rename_i hin
    obtain ⟨waiters, requested, hentry, hover⟩ := hended.1 hin
    simp [hentry, Option.filter, ArpEntry.isExpired, hover]
  · rename_i hout
    rw [queue]
    match hentry : cache.get? ip with
    | none => rfl
    | some (.resolved mac via refreshed) =>
      by_cases hover : entryLifetime ≤ now - refreshed <;>
        simp [Option.filter, ArpEntry.isExpired, ArpEntry.waiters, hover]
    | some (.pending requested waiters) =>
      have hover : ¬ requestTimeout ≤ now - requested := fun hover =>
        hout (hended.2 ⟨waiters, requested, hentry, hover⟩)
      simp [Option.filter, ArpEntry.isExpired, ArpEntry.waiters, hover]

/-- **The frames of an interface leave**, from every queue. -/
theorem queue_cancelInterface (cache : ArpCache) (id : InterfaceId) (ip : Ipv4Addr) :
    (cache.cancelInterface id).2.queue ip = (cache.queue ip).filter (·.src ≠ id) := by
  have hkept : (cache.cancelInterface id).2.get? ip =
      ((cache.get? ip).filter fun e => !isVia id e).map (dropWaitersFrom id) := by
    rw [cancelInterface, SortedMap.get?_mapValues, SortedMap.get?_filter]
  rw [queue, hkept, queue]
  match cache.get? ip with
  | none => rfl
  | some (.pending requested waiters) => rfl
  | some (.resolved mac via refreshed) =>
    by_cases hvia : via = id <;> simp [Option.filter, isVia, dropWaitersFrom, ArpEntry.waiters, hvia]

theorem queue_retainSubnet (cache : ArpCache) (subnet : Cidr) (ip : Ipv4Addr) :
    (cache.retainSubnet subnet).2.queue ip = if subnet.contains ip then cache.queue ip else [] := by
  rw [queue, retainSubnet, SortedMap.get?_filter, queue]
  cases subnet.contains ip <;> cases cache.get? ip <;> simp [Option.filter]

theorem queue_clear (cache : ArpCache) (ip : Ipv4Addr) : cache.clear.2.queue ip = [] := rfl

end SegmentRouter.ArpCache
