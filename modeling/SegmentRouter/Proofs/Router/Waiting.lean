import SegmentRouter.Proofs.Router.Hosts
import SegmentRouter.Proofs.Router.Isolation

/-!
# Proofs/Router/Waiting — the frames that are handled when one arrives

Only a frame with an IPv4 packet is ever parked, so every frame that waits is one that came with a
packet (`Arises.came`).  Handled again it sets no other frame free, and so the router handles, when a
frame arrives, this one and after it those that it sets free, and no more (`Router.handlings`,
`Arises.sent_receive`).
-/

namespace SegmentRouter

open Wire (Bytes)

/-- A frame with an IPv4 packet came at some time. -/
def Waiter.Came (w : Waiter) : Prop :=
  ∃ (r : Router) (id : DomainId) (d : Domain) (f : Wire.Ethernet.Frame) (p : Wire.Ipv4.Packet),
    r.Arises ∧ r.Arrives w id d f p

/-- A frame claims to carry an IPv4 packet. -/
def Waiter.IsIpv4 (w : Waiter) : Prop :=
  ∃ f, Wire.Ethernet.parse w.frame = .ok f ∧ Wire.EtherType.ofNumber? f.etherType = some .ipv4

theorem Waiter.Came.isIpv4 {w : Waiter} (h : w.Came) : w.IsIpv4 := by
  obtain ⟨r, id, d, f, p, -, ha⟩ := h
  exact ⟨f, ha.ethernet, ha.type⟩

namespace Router

variable {r r' : Router} {w : Waiter} {now : Nat}

/-- A frame waits in a domain for an address. -/
def Waits (r : Router) (w : Waiter) : Prop :=
  ∃ name ip e, r.tree.host? name ip = some e ∧ w ∈ e.waiters

theorem waits_of_mem_queue {name : String} {ip : Ipv4Addr} (h : w ∈ r.tree.queue name ip) :
    r.Waits w := by
  unfold DomainTree.queue at h
  cases he : r.tree.host? name ip with
  | none =>
    rw [he] at h
    exact absurd h List.not_mem_nil
  | some e =>
    rw [he] at h
    exact ⟨name, ip, e, he, h⟩

theorem Waits.of_forgets (hf : r.tree.Forgets r'.tree) (h : r'.Waits w) : r.Waits w := by
  obtain ⟨name, ip, e', he', hw⟩ := h
  obtain ⟨e, he, hwithin⟩ := hf he'
  exact ⟨name, ip, e, he, hwithin.waiters.subset hw⟩

/-- With the addresses of its domain a client may make hosts be forgotten. -/
theorem Arises.forgets_carryOut (h : r.Arises) (interface : InterfaceId) (client : DhcpClient)
    (action : DhcpAction) :
    r.tree.Forgets
      ((r.withClient interface client).carryOut interface action).value.router.tree := by
  rcases (r.withClient interface client).carryOut_cases interface action with
    hkept | ⟨id, c, tree, -, -, hset, hvalue⟩
  · rw [hkept]
    exact .of_host? fun _ _ => rfl
  · rw [hvalue]
    exact (DomainTree.hosts_setIpConfig h.hosts.1 hset).1

/-- **Hosts are forgotten at most, or one domain comes to know of an address.** -/
theorem Arises.forgets_or_learns (h : r.Arises) (hcourse : r.Course r') :
    r.tree.Forgets r'.tree ∨ ∃ name d config ip entry, r.tree.byName? name = some d ∧
      r.Learns d config ip entry ∧
      r' = r.withTree (r.tree.update name (·.withArp (d.arp.insert ip entry))) := by
  cases hcourse with
  | calm hcalm => exact .inl (.of_host? (host?_of_still hcalm.tree))
  | @learned name d config ip entry hd hconfig hentry =>
    exact .inr ⟨name, d, config, ip, entry, hd, hentry, rfl⟩
  | agedArp now => exact .inl (r.forgets_ageArp now)
  | instructed => exact .inl (h.forgets_carryOut ..)
  | attached domain => exact .inl ((r.withNewInterface domain).forgets_bind (r.nextInterface domain))
  | @detached r' interface hr' =>
    obtain ⟨hforgets, -⟩ := h.hosts.2.unbind h.good h.hosts.1 interface
    obtain ⟨interfaces, rfl, -⟩ := detach_eq_ok hr'
    exact .inl hforgets
  | @adopted config hvalid =>
    exact .inl ((r.tree.hosts_next config).1.trans (forgets_bindAll _ (r.renewed config)))

/-- **Who waits came with a packet, at any time.** -/
theorem Arises.came (h : r.Arises) : ∀ w, r.Waits w → w.Came := by
  refine h.course_induction (P := fun r => ∀ w, r.Waits w → w.Came)
    (fun _ w ⟨_, _, _, he, _⟩ => nomatch he) fun {r r'} hr ih hcourse w hw => ?_
  rcases hr.forgets_or_learns hcourse with hf | ⟨name, d, config, ip, entry, hd, hentry, rfl⟩
  · exact ih w (hw.of_forgets hf)
  · obtain ⟨other, ip', e, he, hw⟩ := hw
    rw [tree_withTree, host?_learned hd] at he
    split at he
    · obtain rfl := Option.some.inj he
      rcases hentry.arrives_or_waits hw with ⟨id, d', f, p, ha⟩ | ⟨e, he, hw⟩
      · exact ⟨r, id, d', f, p, hr, ha⟩
      · refine ih w ⟨name, ip, e, ?_, hw⟩
        rw [DomainTree.host?, hd]
        exact he
    · exact ih w ⟨other, ip', e, he, hw⟩

/-! ## Frames that are set free -/

/-- **A frame with an IPv4 packet sets no other free.** -/
theorem released_process_of_isIpv4 (hgood : r.Good) (h : w.IsIpv4) :
    (r.process w).value.released = [] := by
  obtain ⟨f, hf, htype⟩ := h
  rcases r.handles_ipv4 hf htype with hvalue | ⟨id, d, p, ha, hvalue⟩
  · rw [hvalue]
    rfl
  · rw [hvalue]
    exact (confined_carryOutVerdict ha hgood _).released

/-- **Those that are set free are a whole queue**, in its order, or nobody is. -/
theorem released_process (hgood : r.Good) (frame : Waiter) :
    (r.process frame).value.released = [] ∨
      ∃ name ip, (r.process frame).value.released = r.tree.queue name ip := by
  have hhandles := r.handles_process frame
  generalize (r.process frame).value = x at hhandles ⊢
  cases hhandles with
  | ignored => exact .inl rfl
  | carried h => exact .inl (confined_carryOutVerdict h hgood _).released
  | @heard id d f p config h =>
    obtain ⟨hby, -⟩ := hgood.byName?_of_domainId? h.handle h.domain
    dsimp only
    unfold Domain.learn
    split
    · split
      · exact .inr ⟨d.name, p.senderIp, (DomainTree.queue_of_byName? hby p.senderIp).symm⟩
      · exact .inl rfl
    · exact .inl rfl

/-- **A frame that is set free waits.** -/
theorem waits_of_mem_released (hgood : r.Good) {frame : Waiter}
    (hw : w ∈ (r.process frame).value.released) : r.Waits w := by
  rcases released_process hgood frame with hnone | ⟨name, ip, hqueue⟩
  · exact absurd (hnone ▸ hw) List.not_mem_nil
  · exact waits_of_mem_queue (hqueue ▸ hw)

/-! ## One frame after the other -/

/-- The frames that are handled again one after the other, each with the router as it then is. -/
def replays (now : Nat) : List Waiter → Router → List (Router × Waiter)
  | [], _ => []
  | w :: rest, r =>
    (r, { w with queued := now }) ::
      replays now rest (r.process { w with queued := now }).value.router

/-- **The frames that are handled when one arrives**, each with the router as it then is: the frame
itself, and after it those that it sets free. -/
def handlings (r : Router) (interface : InterfaceId) (bytes : Bytes) (now : Nat) :
    List (Router × Waiter) :=
  let counted := r.countArrival interface bytes.length
  let first := (counted.process ⟨interface, bytes, now⟩).value
  (counted, ⟨interface, bytes, now⟩) :: replays now first.released first.router

/-- What leaves for a frame. -/
def sentFor (x : Router × Waiter) : List Transmit :=
  (x.1.process x.2).value.sent

theorem sent_replay (now : Nat) (waiters : List Waiter) (r : Router) :
    (replay now waiters r).value.sent = (replays now waiters r).flatMap sentFor := by
  induction waiters generalizing r with
  | nil => rfl
  | cons w rest ih => exact congrArg (_ ++ ·) (ih _)

theorem mem_replays {waiters : List Waiter} {x : Router × Waiter}
    (h : x ∈ replays now waiters r) :
    r.Moves x.1 ∧ ∃ w ∈ waiters, x.2 = { w with queued := now } := by
  induction waiters generalizing r with
  | nil => exact absurd h List.not_mem_nil
  | cons w rest ih =>
    rcases List.mem_cons.1 h with rfl | h
    · exact ⟨.refl r, w, List.mem_cons_self, rfl⟩
    · obtain ⟨hmoves, w', hw', hx⟩ := ih h
      exact ⟨(r.moves_process _).trans hmoves, w', List.mem_cons_of_mem _ hw', hx⟩

/-- Frames that came with packets set none free, one after the other. -/
theorem released_replay {waiters : List Waiter} (h : r.Arises) (hcame : ∀ w ∈ waiters, w.Came) :
    (replay now waiters r).value.released = [] := by
  induction waiters generalizing r with
  | nil => rfl
  | cons w rest ih =>
    have hfirst : (r.process { w with queued := now }).value.released = [] :=
      released_process_of_isIpv4 h.good (hcame w List.mem_cons_self).isIpv4
    have hothers := ih (h.moves (r.moves_process { w with queued := now }))
      fun w' hw' => hcame w' (List.mem_cons_of_mem _ hw')
    exact List.append_eq_nil_iff.2 ⟨hfirst, hothers⟩

/-- One round is all where nobody is set free. -/
theorem value_replayAll {waiters : List Waiter} (rounds : Nat)
    (h : (replay now waiters r).value.released = []) :
    (replayAll now (rounds + 1) waiters r).value =
      (replay now waiters r).value.router.sending (replay now waiters r).value.sent := by
  have hnone : ∀ rounds (r : Router), (replayAll now rounds [] r).value = r.sending [] :=
    fun rounds r => by cases rounds <;> rfl
  cases waiters with
  | nil => rfl
  | cons w rest =>
    unfold replayAll
    rw [Logged.value_bind, Logged.value_bind, h, hnone]
    exact congrArg (Router.sending _) (List.append_nil _)

theorem moves_countArrival (r : Router) (interface : InterfaceId) (n : Nat) :
    r.Moves (r.countArrival interface n) := by
  unfold countArrival
  split
  · rename_i hsome
    exact .single (.arrived hsome n)
  · exact .refl r

theorem calm_countArrival (r : Router) (interface : InterfaceId) (n : Nat) :
    r.Calm (r.countArrival interface n) := by
  unfold countArrival
  split
  · exact .change _ (fun _ => rfl) fun _ => rfl
  · exact .refl r

/-- **One round is all**: those that a frame sets free set no others free. -/
theorem Arises.value_receive (h : r.Arises) (interface : InterfaceId) (bytes : Bytes) (now : Nat) :
    (r.receive interface bytes now).value =
      let first := ((r.countArrival interface bytes.length).process ⟨interface, bytes, now⟩).value
      let others := (replay now first.released first.router).value
      (first.sent ++ others.sent, others.router.countAllSent (first.sent ++ others.sent)) := by
  have hcounted := h.moves (r.moves_countArrival interface bytes.length)
  have hfirst := hcounted.moves (moves_process _ ⟨interface, bytes, now⟩)
  have hcame : ∀ w ∈ ((r.countArrival interface bytes.length).process
      ⟨interface, bytes, now⟩).value.released, w.Came := fun w hw =>
    hcounted.came w (waits_of_mem_released hcounted.good hw)
  have hreleased : (replay now _ _).value.released = [] := released_replay hfirst hcame
  unfold receive
  rw [Logged.value_bind, Logged.value_bind, value_replayAll r.waiting hreleased]
  rfl

/-- **What leaves when a frame arrives leaves for this frame or for one that it sets free.** -/
theorem Arises.sent_receive (h : r.Arises) (interface : InterfaceId) (bytes : Bytes) (now : Nat) :
    (r.receive interface bytes now).value.1 =
      (r.handlings interface bytes now).flatMap sentFor := by
  rw [h.value_receive, handlings, List.flatMap_cons, ← sent_replay]
  rfl

/-- **A frame that is handled has just arrived, or waited until then.** -/
theorem Arises.mem_handlings (h : r.Arises) {interface : InterfaceId} {bytes : Bytes}
    {x : Router × Waiter} (hx : x ∈ r.handlings interface bytes now) :
    x.1.Arises ∧ (x.2 = ⟨interface, bytes, now⟩ ∨
      ∃ w, r.Waits w ∧ w.Came ∧ x.2 = { w with queued := now }) := by
  have hcounted := h.moves (r.moves_countArrival interface bytes.length)
  rcases List.mem_cons.1 hx with rfl | hx
  · exact ⟨hcounted, .inl rfl⟩
  · obtain ⟨hmoves, w, hw, hagain⟩ := mem_replays hx
    have hwaits := waits_of_mem_released hcounted.good hw
    have hforgets : r.tree.Forgets (r.countArrival interface bytes.length).tree :=
      .of_host? (host?_of_still (r.calm_countArrival interface bytes.length).tree)
    exact ⟨(hcounted.moves (moves_process _ _)).moves hmoves,
      .inr ⟨w, hwaits.of_forgets hforgets, hcounted.came w hwaits, hagain⟩⟩

end Router

end SegmentRouter
