import Mathlib.Algebra.BigOperators.Group.Finset.Basic
import Mathlib.Algebra.Ring.Nat
import Mathlib.Data.Nat.Find
import SegmentRouter.Proofs.Arp.Queue

/-!
# Proofs/Arp/Ledger — what becomes of the frames that wait

A frame that is let wait gets a ticket with the number of the call that parked it (`issued`).  Which
calls settle a ticket can be told from the calls and their answers alone (`settles`), without a look
into the cache: a ticket is outstanding as long as none has.

The cache keeps these books.  Its queues are the frames of the outstanding tickets in the order in
which they were issued (`queue_eq_framesFor`), each answer gives or counts the frames of the tickets
that its call settles (`tells_respond`), and so a frame that was let wait is in one place at any
time: it waits, or one call released it, or one call counted it as gone (`ledger_balances`).

The calls and the answers stand in a transcript (`Transcript`).  There is one of anything that is
called again and again, answers each call and is changed by it; what an answer says about earlier
calls is a statement about transcripts.
-/

namespace SegmentRouter

variable {σ χ α : Type} {respond : σ → χ → α × σ} {start s : σ} {e : χ × α} {events : List (χ × α)}
  {n : Nat}

/-- **The calls that something was given and the answers to them**, and what it is in the end. -/
inductive Transcript (respond : σ → χ → α × σ) (start : σ) : List (χ × α) → σ → Prop
  | nil : Transcript respond start [] start
  | snoc {events : List (χ × α)} {s : σ} (h : Transcript respond start events s) (c : χ) :
      Transcript respond start (events ++ [(c, (respond s c).1)]) (respond s c).2

namespace Transcript

/-- **A transcript can be cut before each of its calls**: there it stands what was called, and how it
answered. -/
theorem cut (h : Transcript respond start events s) (hn : events[n]? = some e) :
    ∃ before, Transcript respond start (events.take n) before ∧ e.2 = (respond before e.1).1 ∧
      Transcript respond start (events.take (n + 1)) (respond before e.1).2 := by
  induction h with
  | nil => cases hn
  | @snoc events s h c ih =>
    rcases Nat.lt_trichotomy n events.length with hlt | rfl | hgt
    · rw [List.getElem?_append_left hlt] at hn
      rw [List.take_append_of_le_length (Nat.le_of_lt hlt), List.take_append_of_le_length hlt]
      exact ih hn
    · rw [List.getElem?_concat_length] at hn
      obtain rfl := Option.some.inj hn
      rw [List.take_left, List.take_of_length_le (by simp)]
      exact ⟨s, h, rfl, h.snoc c⟩
    · rw [List.getElem?_eq_none (by simpa using Nat.succ_le_of_lt hgt)] at hn
      cases hn

end Transcript

end SegmentRouter

namespace SegmentRouter.ArpCache

/-! ## Calls and answers -/


/-- What a cache is called for. -/
inductive Call where
  | park (ip : Ipv4Addr) (frame : Waiter) (now : Nat)
  | resolve (ip : Ipv4Addr) (mac : Mac) (via : InterfaceId) (now : Nat)
  | refresh (ip : Ipv4Addr) (mac : Mac) (via : InterfaceId) (now : Nat)
  | expire (now requestTimeout entryLifetime : Nat)
  | cancelInterface (interface : InterfaceId)
  | retainSubnet (subnet : Cidr)
  | clear

/-- What a cache answers. -/
inductive Answer where
  | parked (outcome : Parked)
  | released (frames : List Waiter)
  | ended (queues : List (Ipv4Addr × List Waiter))
  | dropped (count : Nat)
  | silent
deriving DecidableEq

/-- The answer to a call, and the cache after it. -/
def respond (cache : ArpCache) : Call → Answer × ArpCache
  | .park ip frame now => (cache.park ip frame now).map .parked id
  | .resolve ip mac via now => (cache.resolve ip mac via now).map .released id
  | .refresh ip mac via now => (.silent, cache.refresh ip mac via now)
  | .expire now requestTimeout entryLifetime =>
    (cache.expire now requestTimeout entryLifetime).map .ended id
  | .cancelInterface interface => (cache.cancelInterface interface).map .dropped id
  | .retainSubnet subnet => (cache.retainSubnet subnet).map .dropped id
  | .clear => cache.clear.map .dropped id

/-- The calls that a cache was given, with its answers. -/
abbrev Events := List (Call × Answer)

/-! ## Tickets -/

/-- A frame that was let wait for an address. -/
structure Ticket where
  /-- The number of the call that parked the frame. -/
  number : Nat
  ip : Ipv4Addr
  frame : Waiter
deriving DecidableEq

/-- The frame that is let wait, if one is, and the address that it waits for. -/
def accepted? : Call × Answer → Option (Ipv4Addr × Waiter)
  | (.park ip frame _, .parked .requestNeeded) => some (ip, frame)
  | (.park ip frame _, .parked .queued) => some (ip, frame)
  | _ => none

/-- Whether a call settles the tickets of a frame that waits for an address. -/
def settles (ip : Ipv4Addr) (frame : Waiter) : Call × Answer → Bool
  | (.resolve known .., _) => ip = known
  | (.expire .., .ended queues) => ip ∈ queues.map (·.1)
  | (.cancelInterface interface, _) => frame.src = interface
  | (.retainSubnet subnet, _) => !subnet.contains ip
  | (.clear, _) => true
  | _ => false

/-- The ticket that the call with a number issues. -/
def issuedAt (n : Nat) (e : Call × Answer) : List Ticket :=
  ((accepted? e).map fun (ip, frame) => ⟨n, ip, frame⟩).toList

/-- **The tickets that were issued**, in order. -/
def issued (events : Events) : List Ticket :=
  events.zipIdx.flatMap fun (e, n) => issuedAt n e

/-- **The tickets that no call has settled**, in the order in which they were issued. -/
def outstanding (events : Events) : List Ticket :=
  (issued events).filter fun t => (events.drop (t.number + 1)).all fun e => !settles t.ip t.frame e

/-- **The tickets that the call with a number settles.** -/
def settledBy (events : Events) (n : Nat) : List Ticket :=
  (outstanding (events.take n)).filter fun t => events[n]?.any (settles t.ip t.frame)

/-- The frames that wait for an address by their tickets. -/
def framesFor (ip : Ipv4Addr) (tickets : List Ticket) : List Waiter :=
  (tickets.filter (·.ip = ip)).map (·.frame)

/-- **An answer gives or counts the frames of the tickets that its call settles**, and says which
frames wait for which address where it tells. -/
def Tells : Answer → List Ticket → Prop
  | .parked _, settled => settled = []
  | .silent, settled => settled = []
  | .released frames, settled => frames = settled.map (·.frame)
  | .ended queues, settled => (queues.map (·.1)).Nodup ∧ (∀ t ∈ settled, t.ip ∈ queues.map (·.1)) ∧
      ∀ q ∈ queues, q.2 = framesFor q.1 settled
  | .dropped count, settled => count = settled.length

variable {cache : ArpCache} {events : Events} {e : Call × Answer} {t : Ticket} {ip : Ipv4Addr}
  {tickets : List Ticket} {n m : Nat}

/-! ## One call more -/

theorem issued_concat (events : Events) (e : Call × Answer) :
    issued (events ++ [e]) = issued events ++ issuedAt events.length e := by
  simp [issued, List.zipIdx_append]

theorem mem_issuedAt_iff :
    t ∈ issuedAt n e ↔ t.number = n ∧ accepted? e = some (t.ip, t.frame) := by
  rw [issuedAt, Option.mem_toList, Option.map_eq_some_iff]
  constructor
  · rintro ⟨⟨ip, frame⟩, haccepted, rfl⟩
    exact ⟨rfl, haccepted⟩
  · rintro ⟨rfl, haccepted⟩
    exact ⟨_, haccepted, rfl⟩

theorem number_lt_of_mem_issued (h : t ∈ issued events) : t.number < events.length := by
  obtain ⟨⟨e, n⟩, he, ht⟩ := List.mem_flatMap.1 h
  rw [(mem_issuedAt_iff.1 ht).1]
  exact List.snd_lt_of_mem_zipIdx he

/-- Tickets are issued in the order of their numbers, one for a call at most. -/
theorem pairwise_issued (events : Events) :
    (issued events).Pairwise fun t t' => t.number < t'.number := by
  induction events using List.reverseRecOn with
  | nil => exact .nil
  | append_singleton events e ih =>
    rw [issued_concat, List.pairwise_append]
    refine ⟨ih, ?_, fun t ht t' ht' => ?_⟩
    · unfold issuedAt
      cases accepted? e <;> simp
    · rw [(mem_issuedAt_iff.1 ht').1]
      exact number_lt_of_mem_issued ht

/-- **A call settles tickets, and may issue one.** -/
theorem outstanding_concat (events : Events) (e : Call × Answer) :
    outstanding (events ++ [e]) =
      ((outstanding events).filter fun t => !settles t.ip t.frame e) ++
        issuedAt events.length e := by
  rw [outstanding, issued_concat, List.filter_append, outstanding, List.filter_filter]
  congr 1
  · refine List.filter_congr fun t ht => ?_
    rw [List.drop_append_of_le_length (number_lt_of_mem_issued ht), List.all_append, Bool.and_comm]
    simp
  · refine List.filter_eq_self.2 fun t ht => ?_
    rw [(mem_issuedAt_iff.1 ht).1, List.drop_of_length_le (by simp)]
    rfl

@[simp] theorem framesFor_append (ip : Ipv4Addr) (l l' : List Ticket) :
    framesFor ip (l ++ l') = framesFor ip l ++ framesFor ip l' := by
  simp [framesFor]

theorem framesFor_filter (ip : Ipv4Addr) (p : Ipv4Addr → Waiter → Bool) (l : List Ticket) :
    framesFor ip (l.filter fun t => p t.ip t.frame) = (framesFor ip l).filter (p ip) := by
  rw [framesFor, framesFor, List.filter_map, List.filter_filter, List.filter_filter]
  refine congrArg _ (List.filter_congr fun t _ => ?_)
  by_cases hip : t.ip = ip
  · simp [hip]
  · simp [hip]

theorem framesFor_issuedAt (ip : Ipv4Addr) (n : Nat) (e : Call × Answer) :
    framesFor ip (issuedAt n e) =
      (((accepted? e).filter fun a => a.1 = ip).map (·.2)).toList := by
  unfold framesFor issuedAt
  cases accepted? e with
  | none => rfl
  | some a => by_cases hip : a.1 = ip <;> simp [Option.filter, hip]

/-- **What a call does to a queue**: the frames that it settles leave, and the one that it accepts
joins at the end. -/
theorem queue_respond (cache : ArpCache) (c : Call) (ip : Ipv4Addr) (n : Nat) :
    (cache.respond c).2.queue ip =
      ((cache.queue ip).filter fun frame => !settles ip frame (c, (cache.respond c).1)) ++
        framesFor ip (issuedAt n (c, (cache.respond c).1)) := by
  rw [framesFor_issuedAt]
  cases c with
  | park known frame now =>
    have hqueue := cache.queue_park known frame now ip
    have hnone : ∀ w outcome, settles ip w (.park known frame now, .parked outcome) = false :=
      fun _ _ => rfl
    simp only [respond, Prod.map, id, hqueue, hnone, Bool.not_false, List.filter_true]
    by_cases hip : ip = known
    · cases (cache.park known frame now).1 <;> simp [accepted?, Option.filter, hip]
    · cases (cache.park known frame now).1 <;> simp [accepted?, Option.filter, hip, Ne.symm hip]
  | resolve known mac via now =>
    have hqueue := cache.queue_resolve known mac via now ip
    simp only [respond, Prod.map, id, hqueue]
    by_cases hip : ip = known <;> simp [accepted?, settles, hip]
  | refresh known mac via now =>
    simp [respond, cache.queue_refresh, accepted?, settles]
  | expire now requestTimeout entryLifetime =>
    have hqueue := cache.queue_expire now requestTimeout entryLifetime ip
    simp only [respond, Prod.map, id, hqueue]
    by_cases hip : ip ∈ (cache.expire now requestTimeout entryLifetime).1.map (·.1)
    · rw [if_pos hip]
      simp [accepted?, settles, decide_eq_true hip]
    · rw [if_neg hip]
      simp [accepted?, settles, decide_eq_false hip]
  | cancelInterface interface =>
    have hqueue := cache.queue_cancelInterface interface ip
    simp [respond, Prod.map, hqueue, accepted?, settles]
  | retainSubnet subnet =>
    have hqueue := cache.queue_retainSubnet subnet ip
    simp only [respond, Prod.map, id, hqueue]
    cases hip : subnet.contains ip <;> simp [accepted?, settles, hip]
  | clear => simp [respond, Prod.map, queue_clear, accepted?, settles]

/-- **The queues of a cache are the frames of the outstanding tickets**, in the order in which these
were issued. -/
theorem queue_eq_framesFor (h : Transcript respond ∅ events cache) (ip : Ipv4Addr) :
    cache.queue ip = framesFor ip (outstanding events) := by
  induction h with
  | nil => rfl
  | @snoc events cache h c ih =>
    rw [queue_respond cache c ip events.length, outstanding_concat, framesFor_append,
      framesFor_filter ip fun ip frame => !settles ip frame (c, (cache.respond c).1), ih]

/-! ## Counting -/

theorem length_framesFor (ip : Ipv4Addr) (tickets : List Ticket) :
    (framesFor ip tickets).length = (tickets.map (·.ip)).count ip := by
  rw [framesFor, List.length_map, ← List.countP_eq_length_filter, List.count, List.countP_map]
  rfl

theorem waiting_eq_sum (cache : ArpCache) :
    cache.waiting = (cache.keys.map fun ip => (cache.queue ip).length).sum := by
  rw [waiting, List.length_flatMap, SortedMap.values, SortedMap.keys, List.map_map, List.map_map]
  refine congrArg _ (List.map_congr_left fun e he => ?_)
  have hentry : SortedMap.get? cache e.1 = some e.2 := SortedMap.get?_eq_some_iff.2 he
  change e.2.waiters.length = (cache.queue e.1).length
  rw [queue, hentry]
  rfl

/-- **As many frames wait as there are tickets**, if the queues are those of the tickets. -/
theorem waiting_eq_length (h : ∀ ip, cache.queue ip = framesFor ip tickets) :
    cache.waiting = tickets.length := by
  have hcovered : ∀ ip ∈ (tickets.map (·.ip) : Multiset Ipv4Addr), ip ∈ cache.keys.toFinset := by
    intro ip hip
    obtain ⟨t, ht, rfl⟩ := List.mem_map.1 (Multiset.mem_coe.1 hip)
    have hframe : t.frame ∈ cache.queue t.ip := by
      rw [h]
      exact List.mem_map.2 ⟨t, List.mem_filter.2 ⟨ht, decide_eq_true rfl⟩, rfl⟩
    rw [List.mem_toFinset, SortedMap.mem_keys_iff]
    cases hentry : SortedMap.get? cache t.ip with
    | none =>
      rw [queue, hentry] at hframe
      cases hframe
    | some entry => exact ⟨entry, rfl⟩
  calc cache.waiting = (cache.keys.map fun ip => (cache.queue ip).length).sum := cache.waiting_eq_sum
    _ = (cache.keys.map fun ip => (tickets.map (·.ip)).count ip).sum := by
      simp only [h, length_framesFor]
    _ = ∑ ip ∈ cache.keys.toFinset, (tickets.map (·.ip) : Multiset Ipv4Addr).count ip := by
      simp only [List.sum_toFinset _ (SortedMap.nodup_keys cache), Multiset.coe_count]
    _ = tickets.length := by
      rw [Multiset.sum_count_eq_card hcovered, Multiset.coe_card, List.length_map]

/-- A call that answers with the number by which the waiting frames became fewer counts the tickets
that it settles, if it issues none. -/
theorem waiting_sub_eq_length (h : Transcript respond ∅ events cache) (c : Call)
    (hnone : accepted? (c, (cache.respond c).1) = none) :
    cache.waiting - (cache.respond c).2.waiting =
      ((outstanding events).filter fun t => settles t.ip t.frame (c, (cache.respond c).1)).length := by
  have hafter := (waiting_eq_length (queue_eq_framesFor (h.snoc c)))
  have hbefore := waiting_eq_length (queue_eq_framesFor h)
  have hsplit := List.length_eq_length_filter_add
    (l := outstanding events) fun t => settles t.ip t.frame (c, (cache.respond c).1)
  rw [outstanding_concat, issuedAt, hnone, Option.map_none, Option.toList_none, List.append_nil]
    at hafter
  omega

/-- **An answer tells of the tickets that its call settles.** -/
theorem tells_respond (h : Transcript respond ∅ events cache) (c : Call) :
    Tells (cache.respond c).1
      ((outstanding events).filter fun t => settles t.ip t.frame (c, (cache.respond c).1)) := by
  have hcount := waiting_sub_eq_length h c
  have hqueue := queue_eq_framesFor h
  cases c with
  | park ip frame now => exact List.filter_eq_nil_iff.2 fun t _ => nofun
  | refresh ip mac via now => exact List.filter_eq_nil_iff.2 fun t _ => nofun
  | resolve ip mac via now => exact hqueue ip
  | cancelInterface interface => exact hcount rfl
  | retainSubnet subnet => exact hcount rfl
  | clear => exact hcount rfl
  | expire now requestTimeout entryLifetime =>
    refine ⟨cache.nodup_expire now requestTimeout entryLifetime, fun t ht => ?_, fun q hq => ?_⟩
    · exact of_decide_eq_true (List.mem_filter.1 ht).2
    · have hin : q.1 ∈ (cache.expire now requestTimeout entryLifetime).1.map (·.1) :=
        List.mem_map_of_mem hq
      have hended : (q.1, q.2) ∈ (cache.expire now requestTimeout entryLifetime).1 := hq
      obtain ⟨requested, hentry, -⟩ := mem_expire.1 hended
      have hframes : cache.queue q.1 = q.2 := by
        rw [queue, hentry]
        rfl
      rw [framesFor_filter q.1 fun ip frame => settles ip frame _, ← hqueue, hframes]
      exact (List.filter_eq_self.2 fun frame _ => decide_eq_true hin).symm

/-- **No queue is longer than it may be.** -/
theorem length_queue_le (h : Transcript respond ∅ events cache) (ip : Ipv4Addr) :
    (cache.queue ip).length ≤ maxWaiters := by
  induction h with
  | nil => exact Nat.zero_le _
  | @snoc events cache h c ih =>
    -- only a call to park a frame makes a queue longer
    have hfewer := List.length_filter_le
      (fun frame => !settles ip frame (c, (cache.respond c).1)) (cache.queue ip)
    have hqueue := cache.queue_respond c ip 0
    rw [hqueue, List.length_append]
    cases c with
    | park known frame now =>
      rw [← List.length_append, ← hqueue]
      change ((cache.park known frame now).2.queue ip).length ≤ maxWaiters
      rw [queue_park, List.length_append]
      split
      · rename_i hjoins
        have hroom := mt park_eq_dropped_iff.2 hjoins.2
        rw [hjoins.1]
        exact Nat.not_le.1 hroom
      · exact ih
    | resolve | refresh | expire | cancelInterface | retainSubnet | clear =>
      exact hfewer.trans ih

/-! ## Which call settles a ticket -/

theorem mem_issued_iff :
    t ∈ issued events ↔ ∃ e, events[t.number]? = some e ∧ accepted? e = some (t.ip, t.frame) := by
  rw [issued, List.mem_flatMap]
  constructor
  · rintro ⟨⟨e, n⟩, he, ht⟩
    obtain ⟨rfl, haccepted⟩ := mem_issuedAt_iff.1 ht
    exact ⟨e, List.mem_zipIdx_iff_getElem?.1 he, haccepted⟩
  · rintro ⟨e, he, haccepted⟩
    exact ⟨(e, t.number), List.mem_zipIdx_iff_getElem?.2 he, mem_issuedAt_iff.2 ⟨rfl, haccepted⟩⟩

/-- Whether the call with a number would settle a ticket. -/
def settlesAt (events : Events) (t : Ticket) (n : Nat) : Bool :=
  events[n]?.any (settles t.ip t.frame)

theorem mem_outstanding_iff : t ∈ outstanding events ↔
    t ∈ issued events ∧ ∀ n, t.number < n → settlesAt events t n = false := by
  rw [outstanding, List.mem_filter, List.all_eq_true]
  refine and_congr_right fun _ => ⟨fun h n hn => ?_, fun h e he => ?_⟩
  · rw [settlesAt]
    cases he : events[n]? with
    | none => rfl
    | some e =>
      have hlater : (events.drop (t.number + 1))[n - (t.number + 1)]? = some e := by
        rw [List.getElem?_drop, Nat.add_sub_cancel' hn, he]
      simpa using h e (List.mem_of_getElem? hlater)
  · obtain ⟨k, hk⟩ := List.mem_iff_getElem?.1 he
    rw [List.getElem?_drop] at hk
    have hunsettled := h (t.number + 1 + k) (by omega)
    rw [settlesAt, hk] at hunsettled
    simpa using hunsettled

/-- **The call that settles a ticket is the first after the one that issued it that would.** -/
theorem mem_settledBy_iff : t ∈ settledBy events n ↔
    t ∈ issued events ∧ t.number < n ∧ settlesAt events t n = true ∧
      ∀ m, t.number < m → m < n → settlesAt events t m = false := by
  have hissued : t ∈ issued (events.take n) ↔ t.number < n ∧ t ∈ issued events := by
    rw [mem_issued_iff, mem_issued_iff, List.getElem?_take]
    by_cases hn : t.number < n <;> simp [hn]
  have hbefore : (∀ m, t.number < m → settlesAt (events.take n) t m = false) ↔
      ∀ m, t.number < m → m < n → settlesAt events t m = false := by
    refine forall_congr' fun m => forall_congr' fun _ => ?_
    rw [settlesAt, List.getElem?_take]
    by_cases hm : m < n <;> simp [hm, settlesAt]
  rw [settledBy, List.mem_filter, mem_outstanding_iff, hissued, hbefore]
  change _ ∧ settlesAt events t n = true ↔ _
  tauto

/-- A call to resolve an address. -/
def Call.resolves : Call → Bool
  | .resolve .. => true
  | _ => false

/-- A call that answers what it made of the frames that it removes. -/
def Call.removes : Call → Bool
  | .expire .. | .cancelInterface .. | .retainSubnet .. | .clear => true
  | _ => false

/-- What became of a frame that was let wait. -/
inductive Fate where
  | waiting
  /-- The call with a number gave it back. -/
  | released (n : Nat)
  /-- The call with a number counted it as gone. -/
  | removed (n : Nat)
deriving DecidableEq

/-- **A frame waits as long as its ticket is outstanding**; it is released or removed by the call that
settles the ticket. -/
def HasFate (events : Events) (t : Ticket) : Fate → Prop
  | .waiting => t ∈ outstanding events
  | .released n => t ∈ settledBy events n ∧ events[n]?.any (·.1.resolves) = true
  | .removed n => t ∈ settledBy events n ∧ events[n]?.any (·.1.removes) = true

/-- What settles a ticket either resolves its address or removes its frame. -/
theorem resolves_or_removes (h : settles ip t.frame e = true) :
    e.1.resolves = true ∧ e.1.removes = false ∨ e.1.resolves = false ∧ e.1.removes = true := by
  obtain ⟨c, a⟩ := e
  cases c with
  | park | refresh => cases h
  | resolve => exact .inl ⟨rfl, rfl⟩
  | expire | cancelInterface | retainSubnet | clear => exact .inr ⟨rfl, rfl⟩

/-- **A ticket is outstanding, or settled by one call.** -/
theorem outstanding_or_settledBy (ht : t ∈ issued events) :
    t ∈ outstanding events ∨ ∃ n, t ∈ settledBy events n := by
  by_cases hsettled : ∃ n, t.number < n ∧ settlesAt events t n = true
  · refine .inr ⟨Nat.find hsettled, mem_settledBy_iff.2
      ⟨ht, (Nat.find_spec hsettled).1, (Nat.find_spec hsettled).2, fun m hm hlt => ?_⟩⟩
    simpa [hm] using Nat.find_min hsettled hlt
  · refine .inl (mem_outstanding_iff.2 ⟨ht, fun n hn => ?_⟩)
    simpa [hn] using (not_exists.1 hsettled) n

theorem exists_of_mem_settledBy (h : t ∈ settledBy events n) :
    ∃ e, events[n]? = some e ∧ settles t.ip t.frame e = true := by
  obtain ⟨-, -, hsettles, -⟩ := mem_settledBy_iff.1 h
  cases he : events[n]? with
  | none => simp [settlesAt, he] at hsettles
  | some e => exact ⟨e, rfl, by simpa [settlesAt, he] using hsettles⟩

theorem not_mem_settledBy (h : t ∈ outstanding events) : t ∉ settledBy events n := by
  intro hn
  obtain ⟨-, hlt, hsettles, -⟩ := mem_settledBy_iff.1 hn
  rw [(mem_outstanding_iff.1 h).2 n hlt] at hsettles
  cases hsettles

theorem settledBy_unique (hn : t ∈ settledBy events n) (hm : t ∈ settledBy events m) : n = m := by
  obtain ⟨-, hlt, hsettles, hfirst⟩ := mem_settledBy_iff.1 hn
  obtain ⟨-, hlt', hsettles', hfirst'⟩ := mem_settledBy_iff.1 hm
  rcases Nat.lt_trichotomy n m with h | h | h
  · rw [hfirst' n hlt h] at hsettles
    cases hsettles
  · exact h
  · rw [hfirst m hlt' h] at hsettles'
    cases hsettles'

/-- The fate of a settled ticket is with the call that settles it. -/
theorem hasFate_cases {fate : Fate} (hn : t ∈ settledBy events n) (he : events[n]? = some e)
    (h : HasFate events t fate) : fate = .released n ∧ e.1.resolves = true ∨
      fate = .removed n ∧ e.1.removes = true := by
  cases fate with
  | waiting => exact absurd hn (not_mem_settledBy h)
  | released m =>
    obtain rfl := settledBy_unique hn h.1
    exact .inl ⟨rfl, by simpa [he] using h.2⟩
  | removed m =>
    obtain rfl := settledBy_unique hn h.1
    exact .inr ⟨rfl, by simpa [he] using h.2⟩

/-- **A frame that was let wait has one fate.** -/
theorem existsUnique_fate (ht : t ∈ issued events) : ∃! fate, HasFate events t fate := by
  rcases outstanding_or_settledBy ht with hout | ⟨n, hn⟩
  · refine ⟨.waiting, hout, fun fate hfate => ?_⟩
    cases fate with
    | waiting => rfl
    | released m => exact absurd hfate.1 (not_mem_settledBy hout)
    | removed m => exact absurd hfate.1 (not_mem_settledBy hout)
  · obtain ⟨e, he, hsettles⟩ := exists_of_mem_settledBy hn
    rcases resolves_or_removes hsettles with ⟨hresolves, hremoves⟩ | ⟨hresolves, hremoves⟩
    · refine ⟨.released n, ⟨hn, by simpa [he] using hresolves⟩, fun fate hfate => ?_⟩
      rcases hasFate_cases hn he hfate with ⟨hreleased, -⟩ | ⟨-, hother⟩
      · exact hreleased
      · exact absurd (hremoves.symm.trans hother) Bool.false_ne_true
    · refine ⟨.removed n, ⟨hn, by simpa [he] using hremoves⟩, fun fate hfate => ?_⟩
      rcases hasFate_cases hn he hfate with ⟨-, hother⟩ | ⟨hremoved, -⟩
      · exact absurd (hresolves.symm.trans hother) Bool.false_ne_true
      · exact hremoved

/-! ## The books balance -/

/-- **A cache neither loses nor doubles a frame, and keeps them in order.**  However it came about:
as many frames wait for an address as may, at most; a frame asks for its address exactly if no
question is pending, and is dropped exactly if the queue is full; who resolves an address gets the
frames of the tickets that are outstanding for it, in the order of their numbers; every answer gives
or counts the frames of the tickets that its call settles; and each ticket that was issued is either
outstanding or settled by one call, which released or removed the frame. -/
theorem ledger_balances (h : Transcript respond ∅ events cache) :
    (∀ ip, (cache.queue ip).length ≤ 32 ∧ cache.queue ip = framesFor ip (outstanding events)) ∧
      (∀ ip frame now,
        ((cache.park ip frame now).1 = .requestNeeded ↔ cache.isPending ip = false) ∧
        ((cache.park ip frame now).1 = .dropped ↔ (cache.queue ip).length = 32)) ∧
      (∀ ip mac via now, (cache.resolve ip mac via now).1 = framesFor ip (outstanding events)) ∧
      (∀ n e, events[n]? = some e → Tells e.2 (settledBy events n)) ∧
      (issued events).Pairwise (·.number < ·.number) ∧
      ∀ t ∈ issued events, ∃! fate, HasFate events t fate := by
  have hqueue := queue_eq_framesFor h
  refine ⟨fun ip => ⟨length_queue_le h ip, hqueue ip⟩, fun ip frame now => ⟨?_, ?_⟩,
    fun ip mac via now => hqueue ip, fun n e he => ?_, pairwise_issued events,
    fun t ht => existsUnique_fate ht⟩
  · exact park_eq_requestNeeded_iff
  · exact park_eq_dropped_iff.trans (length_queue_le h ip).ge_iff_eq
  · obtain ⟨before, hbefore, hanswer, -⟩ := h.cut he
    have htells := tells_respond hbefore e.1
    rw [← hanswer] at htells
    simpa [settledBy, he] using htells

/-- Two frames wait for 10.0.1.7 and the interface of the first is withdrawn: the second is released
and the first is counted. -/
theorem ledger_balances_withdrawn :
    ∃ events cache, Transcript respond ∅ events cache ∧
      outstanding events = [⟨1, ⟨0x0a000107⟩, ⟨⟨1, 0⟩, [2], 5⟩⟩] ∧
      (cache.resolve ⟨0x0a000107⟩ default ⟨2, 0⟩ 9).1 = [⟨⟨1, 0⟩, [2], 5⟩] ∧
      1 = (settledBy events 2).length ∧
      ∃! fate, HasFate events ⟨0, ⟨0x0a000107⟩, ⟨⟨0, 0⟩, [1], 3⟩⟩ fate := by
  have h : Transcript respond ∅ _ _ :=
    ((Transcript.nil.snoc (.park ⟨0x0a000107⟩ ⟨⟨0, 0⟩, [1], 3⟩ 3)).snoc
      (.park ⟨0x0a000107⟩ ⟨⟨1, 0⟩, [2], 5⟩ 5)).snoc (.cancelInterface ⟨0, 0⟩)
  obtain ⟨-, -, hresolve, htells, -, hfates⟩ := ledger_balances h
  refine ⟨_, _, h, by decide, (hresolve ..).trans (by decide), ?_, hfates _ (by decide)⟩
  exact htells 2 (.cancelInterface ⟨0, 0⟩, .dropped 1) rfl

end SegmentRouter.ArpCache
