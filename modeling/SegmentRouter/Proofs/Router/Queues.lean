import SegmentRouter.Proofs.Router.Waiting

/-!
# Proofs/Router/Queues — frames wait in order, and are handled in order

A frame joins a queue at its end, and all that else happens to a queue is that frames leave it
(`Arises.queue_course`).  So no queue is longer than it may be, and what waits are frames that were
parked, in the order in which they were (`Run.sublist_parked`).

Handling a frame may set a queue free.  The first of those that are free is handled, and whom it sets
free joins the end, until nobody is left (`Drains`).  Nothing bounds this loop but what can wait: a
frame with a packet, which sets nobody free.  So the loop ends after those that the frame itself has
set free, one after the other (`Reachable.drains`).
-/

namespace SegmentRouter

open Wire (Bytes)

namespace Router

variable {r r' last last' : Router} {name : String} {ip : Ipv4Addr} {w : Waiter} {now : Nat}
  {waiters : List Waiter} {handled handled' : List (Router × Waiter)}

/-! ## Queues -/

/-- **A frame joins a queue at its end**, if there is room; else frames leave it at most. -/
theorem Arises.queue_course (h : r.Arises) (hcourse : r.Course r') (name : String)
    (ip : Ipv4Addr) :
    (r'.tree.queue name ip).Sublist (r.tree.queue name ip) ∨
      ∃ w, w.Came ∧ (r.tree.queue name ip).length < ArpCache.maxWaiters ∧
        r'.tree.queue name ip = r.tree.queue name ip ++ [w] := by
  rcases h.forgets_or_learns hcourse with hf | ⟨other, d, config, ip', entry, hd, hentry, rfl⟩
  · exact .inl (hf.sublist_queue name ip)
  · have hqueue : (r.tree.update other (·.withArp (d.arp.insert ip' entry))).queue name ip =
        if name = other ∧ ip = ip' then entry.waiters else r.tree.queue name ip := by
      rw [DomainTree.queue, host?_learned hd]
      split <;> rfl
    rw [tree_withTree, hqueue]
    split
    · rename_i hhere
      obtain ⟨rfl, rfl⟩ := hhere
      cases hentry with
      | resolved => exact .inl (List.nil_sublist _)
      | @pending dst _ requested frame id d' f p hroute hframe hroom =>
        rw [DomainTree.queue_of_byName? hd]
        exact .inr ⟨frame, ⟨r, id, d', f, p, h, hframe⟩, hroom, rfl⟩
    · exact .inl (List.Sublist.refl _)

/-- **Every queue has an end.** -/
theorem Arises.length_queue_le (h : r.Arises) :
    (r.tree.queue name ip).length ≤ ArpCache.maxWaiters := by
  refine h.course_induction (P := fun r => (r.tree.queue name ip).length ≤ ArpCache.maxWaiters)
    (fun _ => Nat.zero_le _) fun {r r'} hr ih hcourse => ?_
  rcases hr.queue_course hcourse name ip with hless | ⟨w, -, hroom, hjoined⟩
  · exact hless.length_le.trans ih
  · rw [hjoined, List.length_append]
    exact hroom

/-- **Who waits carries a packet**, in every domain. -/
theorem Arises.came_of_mem_queue (h : r.Arises) {d : Domain} (hd : d ∈ r.tree.domains)
    (hw : w ∈ d.arp.queue ip) : w.Came := by
  rw [← DomainTree.queue_of_byName? (h.good.sound.distinct.byName?_of_mem hd)] at hw
  exact h.came w (waits_of_mem_queue hw)

/-- The frames that join a queue when one state follows another: those that stand behind as many as
waited before. -/
def joining (r r' : Router) (name : String) (ip : Ipv4Addr) : List Waiter :=
  (r'.tree.queue name ip).drop (r.tree.queue name ip).length

/-- **The frames that join a queue in a run**, in the order in which they do. -/
def parked (name : String) (ip : Ipv4Addr) : List Router → List Waiter
  | r :: r' :: rest => r.joining r' name ip ++ parked name ip (r' :: rest)
  | _ => []

theorem Arises.sublist_joining (h : r.Arises) (hmove : r.Move r') (name : String)
    (ip : Ipv4Addr) :
    (r'.tree.queue name ip).Sublist (r.tree.queue name ip ++ r.joining r' name ip) := by
  unfold joining
  rcases h.queue_course (hmove.course h.good) name ip with hless | ⟨w, -, -, hjoined⟩
  · rw [List.drop_eq_nil_of_le hless.length_le, List.append_nil]
    exact hless
  · rw [hjoined, List.drop_left]

/-- From one state on, a queue holds who waited then and who has joined since. -/
theorem Arises.sublist_parked {rest : List Router} (h : r.Arises)
    (hmoves : (r :: rest).IsChain Move) (hlast : (r :: rest).getLast? = some last) :
    (last.tree.queue name ip).Sublist (r.tree.queue name ip ++ parked name ip (r :: rest)) := by
  induction rest generalizing r with
  | nil =>
    obtain rfl : r = last := Option.some.inj hlast
    exact List.sublist_append_left ..
  | cons r' rest ih =>
    obtain ⟨hmove, hmoves⟩ := List.isChain_cons_cons.1 hmoves
    rw [List.getLast?_cons_cons] at hlast
    rw [parked, ← List.append_assoc]
    exact (ih (h.move hmove) hmoves hlast).trans
      ((h.sublist_joining hmove name ip).append_right _)

/-- **Frames wait in the order in which they were parked.** -/
theorem Run.sublist_parked {states : List Router} (h : Run states)
    (hlast : states.getLast? = some r) (name : String) (ip : Ipv4Addr) :
    (r.tree.queue name ip).Sublist (parked name ip states) := by
  obtain ⟨xid, hstart⟩ := h.start
  obtain ⟨rest, rfl⟩ := List.head?_eq_some_iff.1 hstart
  exact (h.arises List.mem_cons_self).sublist_parked h.moves hlast

/-! ## Handling those that are set free -/

/-- **The loop**: while frames are free to be handled again, the first of them is, and those that it
sets free join the end.  The handled frames are listed, each with the router as it then was. -/
inductive Drains (now : Nat) : List Waiter → Router → List (Router × Waiter) → Router → Prop
  | done (r : Router) : Drains now [] r [] r
  | next {w : Waiter} {rest : List Waiter} {r last : Router} {handled : List (Router × Waiter)}
      (h : Drains now (rest ++ (r.process { w with queued := now }).value.released)
        (r.process { w with queued := now }).value.router handled last) :
      Drains now (w :: rest) r ((r, { w with queued := now }) :: handled) last

/-- The loop goes one way only. -/
theorem Drains.unique (h : Drains now waiters r handled last)
    (h' : Drains now waiters r handled' last') : handled' = handled ∧ last' = last := by
  induction h generalizing handled' last' with
  | done r =>
    cases h'
    exact ⟨rfl, rfl⟩
  | next h ih =>
    cases h' with
    | next h' =>
      obtain ⟨rfl, rfl⟩ := ih h'
      exact ⟨rfl, rfl⟩

theorem map_snd_replays (now : Nat) (waiters : List Waiter) (r : Router) :
    (replays now waiters r).map Prod.snd = waiters.map fun w => { w with queued := now } := by
  induction waiters generalizing r with
  | nil => rfl
  | cons w rest ih => exact congrArg (_ :: ·) (ih _)

/-- **Frames with packets are handled one after the other, and that is the end.** -/
theorem Arises.drains_replays (h : r.Arises) (hcame : ∀ w ∈ waiters, w.Came) :
    Drains now waiters r (replays now waiters r) (replay now waiters r).value.router := by
  induction waiters generalizing r with
  | nil => exact .done r
  | cons w rest ih =>
    have hnone : (r.process { w with queued := now }).value.released = [] :=
      released_process_of_isIpv4 h.good (hcame w List.mem_cons_self).isIpv4
    have hrest := ih (h.moves (r.moves_process { w with queued := now })) fun w' hw' =>
      hcame w' (List.mem_cons_of_mem _ hw')
    refine .next ?_
    rw [hnone, List.append_nil]
    exact hrest

/-- Counting a frame leaves all queues. -/
theorem queue_countArrival (r : Router) (interface : InterfaceId) (n : Nat) (name : String)
    (ip : Ipv4Addr) : (r.countArrival interface n).tree.queue name ip = r.tree.queue name ip := by
  rw [DomainTree.queue, DomainTree.queue, host?_of_still (r.calm_countArrival interface n).tree]

/-- **Handling a frame ends.** Who waits in a queue carries an IPv4 packet, so that handling it again
sets nobody free, and a queue holds frames in the order in which they were parked.  Therefore a frame
that arrives is handled, then those that it sets free, a queue of 32 at most, in the order of the
queue, and nobody else. -/
theorem Reachable.drains (h : r.Reachable) :
    (∀ d ∈ r.tree.domains, ∀ ip, ∀ w ∈ d.arp.queue ip, w.IsIpv4 ∧
      ∀ r' : Router, r'.Reachable → ∀ now,
        (r'.process { w with queued := now }).value.released = []) ∧
    (∀ states, Run states → states.getLast? = some r → ∀ name ip,
      (r.tree.queue name ip).Sublist (parked name ip states)) ∧
    ∀ interface bytes now,
      let first := ((r.countArrival interface bytes.length).process ⟨interface, bytes, now⟩).value
      first.released.length ≤ 32 ∧
      (first.released = [] ∨ ∃ name ip, first.released = r.tree.queue name ip) ∧
      ∃ handled last, Drains now first.released first.router handled last ∧
        (∀ handled' last', Drains now first.released first.router handled' last' →
          handled' = handled ∧ last' = last) ∧
        handled.map Prod.snd = first.released.map (fun w => { w with queued := now }) ∧
        (r.receive interface bytes now).value =
          let sent := first.sent ++ handled.flatMap sentFor
          (sent, last.countAllSent sent) := by
  have harises := h.arises
  refine ⟨fun d hd ip w hw => ?_, fun states hrun hlast name ip => hrun.sublist_parked hlast name ip,
    fun interface bytes now => ?_⟩
  · have hcame := harises.came_of_mem_queue hd hw
    exact ⟨hcame.isIpv4, fun r' hr' now => released_process_of_isIpv4 hr'.good hcame.isIpv4⟩
  · have hcounted := harises.moves (r.moves_countArrival interface bytes.length)
    have hreleased := released_process hcounted.good ⟨interface, bytes, now⟩
    have hreceive := harises.value_receive interface bytes now
    have hfirst := hcounted.moves (moves_process _ ⟨interface, bytes, now⟩)
    have hcame : ∀ w ∈ ((r.countArrival interface bytes.length).process
        ⟨interface, bytes, now⟩).value.released, w.Came := fun w hw =>
      hcounted.came w (waits_of_mem_released hcounted.good hw)
    dsimp only at hreceive ⊢
    generalize ((r.countArrival interface bytes.length).process ⟨interface, bytes, now⟩).value =
      first at hreleased hreceive hfirst hcame ⊢
    simp only [queue_countArrival] at hreleased
    have hdrains : Drains now first.released first.router _ _ :=
      hfirst.drains_replays hcame
    refine ⟨?_, hreleased, _, _, hdrains, fun _ _ h' => hdrains.unique h', map_snd_replays ..,
      by rw [hreceive, sent_replay]⟩
    rcases hreleased with hnone | ⟨name, ip, hqueue⟩
    · rw [hnone]
      exact Nat.zero_le _
    · rw [hqueue]
      exact harises.length_queue_le

namespace Ping

/-- The router when two pings wait for the host's hardware address. -/
def asking : Router :=
  ((attached.handle 0 (.frame ⟨0, 0⟩ request)).value.2.handle 1 (.frame ⟨0, 0⟩ request)).value.2

theorem reachable_asking : asking.Reachable :=
  .handle (.handle reachable_attached 0 _) 1 _

/-- What becomes of the host's answer itself. -/
def answered : Reaction :=
  ((asking.countArrival ⟨1, 0⟩ announcement.length).process ⟨⟨1, 0⟩, announcement, 2⟩).value

end Ping

/-- The host's answer sets two pings free, which are sent, and nobody else. -/
theorem drains_asking : Ping.asking.Reachable ∧
    Ping.asking.tree.queue "wan" (.ofOctets 10 0 1 2) =
      [⟨⟨0, 0⟩, Ping.request, 0⟩, ⟨⟨0, 0⟩, Ping.request, 1⟩] ∧
    ∃ handled last, Drains 2 Ping.answered.released Ping.answered.router handled last ∧
      handled.map Prod.snd = [⟨⟨0, 0⟩, Ping.request, 2⟩, ⟨⟨0, 0⟩, Ping.request, 2⟩] ∧
      (Ping.asking.receive ⟨1, 0⟩ Ping.announcement 2).value.1.length = 2 := by
  obtain ⟨-, -, hhandled⟩ := Ping.reachable_asking.drains
  obtain ⟨-, -, handled, last, hdrains, -, hframes, -⟩ := hhandled ⟨1, 0⟩ Ping.announcement 2
  refine ⟨Ping.reachable_asking, by decide +kernel, handled, last, hdrains, ?_, by decide +kernel⟩
  have hreleased : Ping.answered.released =
      [⟨⟨0, 0⟩, Ping.request, 0⟩, ⟨⟨0, 0⟩, Ping.request, 1⟩] := by decide +kernel
  rw [hframes]
  exact congrArg _ hreleased

end Router

end SegmentRouter
