import SegmentRouter.Proofs.Router.Queues
import SegmentRouter.Proofs.Router.Tallies

/-!
# Proofs/Router/Parking — waiting does not change what becomes of a frame

A frame that has to wait leaves nothing behind but itself, at the end of a queue
(`Arises.process_of_parks`), and the answer for which it waits wipes out even that.  So the router is
in the same state whether the frame came before the answer or after it, but for what was counted; and
since nothing depends on that, the frame comes to the same (`Reachable.parking`).
-/

namespace SegmentRouter

open Wire (Bytes)

namespace Router

variable {r r' : Router} {w : Waiter} {x : Reaction} {name : String} {hop : Ipv4Addr}
  {interface interface' : InterfaceId} {bytes : Bytes} {now : Nat}

/-! ## All that a frame comes to -/

/-- What a frame and those that it sets free come to, if nothing is counted. -/
def upshot (r : Router) (frame : Waiter) : Reaction :=
  let first := (r.process frame).value
  let others := (replay frame.queued first.released first.router).value
  others.router.sending (first.sent ++ others.sent)

theorem upshot_counted (t : Tally) (r : Router) (frame : Waiter) :
    (r.counted t).upshot frame = (r.upshot frame).counted t := by
  unfold upshot
  rw [process_counted]
  dsimp only [Reaction.counted]
  rw [replay_counted]
  rfl

theorem Good.upshot (h : r.Good) (frame : Waiter) : (r.upshot frame).router.Good :=
  (h.process frame).replay ..

theorem Good.keeps_upshot (h : r.Good) (frame : Waiter) : r.Keeps (r.upshot frame).router :=
  (h.keeps_process frame).trans ((h.process frame).keeps_replay ..)

/-- A frame that sets none free comes to what it comes to itself. -/
theorem upshot_of_released (h : (r.process w).value.released = []) :
    r.upshot w = (r.process w).value := by
  rcases hx : (r.process w).value with ⟨router, sent, released⟩
  rw [hx] at h
  obtain rfl : released = [] := h
  unfold upshot
  rw [hx]
  exact congrArg (Router.sending _) (List.append_nil sent)

/-- **What is counted when a frame arrives may be counted at the end.** -/
theorem Arises.receive_eq_upshot (h : r.Arises) (hd : (r.domainOf? interface).isSome) (bytes : Bytes)
    (now : Nat) : (r.receive interface bytes now).value =
      let x := r.upshot ⟨interface, bytes, now⟩
      (x.sent, x.router.counted (arrival r.interfaces.policy? interface bytes.length +
        departure r.interfaces.policy? x.sent)) := by
  have hvalue : (r.receive interface bytes now).value =
      let x := (r.countArrival interface bytes.length).upshot ⟨interface, bytes, now⟩
      (x.sent, x.router.countAllSent x.sent) := h.value_receive interface bytes now
  have hgood := (h.moves (r.moves_countArrival interface bytes.length)).good.upshot
    ⟨interface, bytes, now⟩
  rw [h.good.countArrival_eq_counted hd, upshot_counted] at hvalue hgood
  have hpolicies (t : Tally) :
      ((r.upshot ⟨interface, bytes, now⟩).router.counted t).interfaces.policy? =
        r.interfaces.policy? :=
    (funext fun id => policy?_counted t _ id).trans
      (h.good.keeps_upshot ⟨interface, bytes, now⟩).policies
  dsimp only [Reaction.counted] at hvalue hgood
  rw [hvalue, hgood.countAllSent_eq_counted, hpolicies, counted_counted]

/-- A frame arrives at a router that has counted some bytes more. -/
theorem Arises.receive_counted {t : Tally} (h : (r.counted t).Arises)
    (hd : (r.domainOf? interface).isSome) (bytes : Bytes) (now : Nat) :
    ((r.counted t).receive interface bytes now).value =
      let x := r.upshot ⟨interface, bytes, now⟩
      (x.sent, x.router.counted (t + (arrival r.interfaces.policy? interface bytes.length +
        departure r.interfaces.policy? x.sent))) := by
  have hsome : ((r.counted t).domainOf? interface).isSome := isSome_domainOf?_counted t r _ ▸ hd
  have hpolicies : (r.counted t).interfaces.policy? = r.interfaces.policy? :=
    funext fun id => policy?_counted t r id
  rw [h.receive_eq_upshot hsome, upshot_counted, hpolicies]
  dsimp only [Reaction.counted]
  rw [counted_counted]

/-- A frame that arrives leaves every interface in its domain. -/
theorem Arises.keeps_receive (h : r.Arises) (hd : (r.domainOf? interface).isSome) (bytes : Bytes)
    (now : Nat) : r.Keeps (r.receive interface bytes now).value.2 := by
  rw [h.receive_eq_upshot hd]
  exact (h.good.keeps_upshot ⟨interface, bytes, now⟩).trans (.counted _ _)

/-- **Two frames, one after the other**: what is counted may be counted after both. -/
theorem Arises.receive_receive (h : r.Arises) (hd : (r.domainOf? interface).isSome)
    (hd' : (r.domainOf? interface').isSome) (bytes bytes' : Bytes) (now now' : Nat) :
    ((r.receive interface bytes now).value.2.receive interface' bytes' now').value =
      let x := r.upshot ⟨interface, bytes, now⟩
      let y := x.router.upshot ⟨interface', bytes', now'⟩
      (y.sent, y.router.counted
        (arrival r.interfaces.policy? interface bytes.length +
            departure r.interfaces.policy? x.sent +
          (arrival r.interfaces.policy? interface' bytes'.length +
            departure r.interfaces.policy? y.sent))) := by
  have hfirst := h.receive_eq_upshot hd bytes now
  have hnext := h.moves (moves_receive r interface bytes now)
  have hkeeps := h.good.keeps_upshot ⟨interface, bytes, now⟩
  dsimp only at hfirst ⊢
  rw [hfirst] at hnext ⊢
  rw [hnext.receive_counted (hkeeps.isSome_domainOf? h.good (h.good.upshot _) hd'), hkeeps.policies]

/-- Whom a frame sets free does not depend on what was counted. -/
theorem Arises.map_snd_handlings {t : Tally} (h : (r.counted t).Arises)
    (hd : (r.domainOf? interface).isSome) (bytes : Bytes) (now : Nat) :
    ((r.counted t).handlings interface bytes now).map Prod.snd = ⟨interface, bytes, now⟩ ::
      (r.process ⟨interface, bytes, now⟩).value.released.map fun w => { w with queued := now } := by
  have hsome : ((r.counted t).domainOf? interface).isSome := isSome_domainOf?_counted t r _ ▸ hd
  rw [handlings, List.map_cons, map_snd_replays, h.good.countArrival_eq_counted hsome,
    process_counted, process_counted]
  rfl

/-- Whom a frame sets free that arrives after another one. -/
theorem Arises.map_snd_handlings_receive (h : r.Arises) (hd : (r.domainOf? interface).isSome)
    (hd' : (r.domainOf? interface').isSome) (bytes bytes' : Bytes) (now now' : Nat) :
    ((r.receive interface bytes now).value.2.handlings interface' bytes' now').map Prod.snd =
      ⟨interface', bytes', now'⟩ ::
        ((r.upshot ⟨interface, bytes, now⟩).router.process
          ⟨interface', bytes', now'⟩).value.released.map fun w => { w with queued := now' } := by
  have hfirst := h.receive_eq_upshot hd bytes now
  have hnext := h.moves (moves_receive r interface bytes now)
  have hkeeps := h.good.keeps_upshot ⟨interface, bytes, now⟩
  rw [hfirst] at hnext ⊢
  exact hnext.map_snd_handlings (hkeeps.isSome_domainOf? h.good (h.good.upshot _) hd') bytes' now'

/-! ## Frames that are parked -/

/-- The router with other knowledge of the hosts of a domain. -/
def knowing (r : Router) (name : String) (arp : ArpCache) : Router :=
  r.withTree (r.tree.update name (·.withArp arp))

theorem knowing_knowing (r : Router) (name : String) (arp arp' : ArpCache) :
    (r.knowing name arp).knowing name arp' = r.knowing name arp' := by
  have hname (d : Domain) (hd : d.name = name) : (d.withArp arp).name = name := hd
  unfold knowing
  rw [tree_withTree, DomainTree.update_update hname]
  rfl

theorem Good.knowing (h : r.Good) (name : String) (arp : ArpCache) : (r.knowing name arp).Good :=
  (h.sheds_of_core (DomainTree.core_update fun d _ => d.core_withArp arp)).good h

/-- Hosts are forgotten at most, or a frame is parked. -/
def ForgetsOrParks (r : Router) (w : Waiter) (x : Reaction) : Prop :=
  r.tree.Forgets x.router.tree ∨
    ∃ e hop, r.tree.byName? e.name = some e ∧ x = (r.park e hop w).value

namespace ForgetsOrParks

theorem of_router (h : x.router = r) : r.ForgetsOrParks w x :=
  .inl (h ▸ .of_host? fun _ _ => rfl)

theorem of_calm (h : r.Calm x.router) : r.ForgetsOrParks w x :=
  .inl (.of_host? (host?_of_still h.tree))

theorem parked {e : Domain} (he : r.tree.byName? name = some e) (hop : Ipv4Addr) :
    r.ForgetsOrParks w (r.park e hop w).value :=
  .inr ⟨e, hop, (DomainTree.name_of_byName? he).symm ▸ he, rfl⟩

/-- What is done once the next hop is known decides: until it is, the frame is parked at most. -/
theorem of_resolve {ip : Ipv4Addr} {k : Option NextHop × Reaction → Logged Reaction}
    (hk : ∀ x, k (none, x) = pure x)
    (hknown : ∀ hop, r.ForgetsOrParks w (k (some hop, r.sending [])).value) :
    r.ForgetsOrParks w (r.resolve name ip w >>= k).value :=
  resolve_bind hk (.of_router rfl) (fun _ hop he _ => .parked he hop) hknown

theorem pass (r : Router) (w : Waiter) (domain : String) (packet : Wire.Ipv4.Packet) :
    r.ForgetsOrParks w (r.pass w domain packet).value := by
  unfold Router.pass
  exact of_resolve (fun _ => rfl) fun hop => .of_router (router_forward ..)

theorem follow (r : Router) (w : Waiter) (ref : LinkRef) (flow : PacketFlow)
    (packet : Wire.Ipv4.Packet) : r.ForgetsOrParks w (r.follow w ref flow packet).value := by
  unfold Router.follow
  split
  · exact .of_router rfl
  · rename_i link hlink
    refine of_resolve (fun _ => rfl) fun hop => ?_
    refine .of_calm ((congrArg r.Calm (router_forward ..)).mpr ?_)
    exact .withTree (DomainTree.still_of_unlinked (DomainTree.unlinked_update fun _ _ => rfl))

theorem consumeDhcp (h : r.Arises) (w : Waiter) (interface : InterfaceId) (payload : Bytes)
    (now : Nat) : r.ForgetsOrParks w (r.consumeDhcp interface payload now).value := by
  unfold Router.consumeDhcp
  split
  · exact .of_router rfl
  · split
    · exact .of_router rfl
    · exact .inl (h.forgets_carryOut ..)

theorem serveDhcp (w : Waiter) (interface : InterfaceId) {id : DomainId} {d : Domain}
    (hd : r.tree.get? id = some d) (payload : Bytes) (now : Nat) :
    r.ForgetsOrParks w (r.serveDhcp interface id d payload now).value := by
  unfold Router.serveDhcp
  split
  · exact .of_router rfl
  · rename_i request hparse
    split
    · rename_i server params hserver hparams
      have hserved := calm_served hd hserver params request now
      rcases hvalue : (server.handle request params now).value with ⟨answer, server'⟩
      rw [hvalue] at hserved
      rw [Logged.value_bind, hvalue]
      cases answer with
      | none => exact .of_calm hserved
      | some answer => exact .of_calm hserved
    · exact .of_router rfl

theorem openLink (r : Router) (w : Waiter) (client : String) (target : LinkTarget)
    (flow : PacketFlow) (packet : Wire.Ipv4.Packet) :
    r.ForgetsOrParks w (r.openLink w client target flow packet).value := by
  unfold Router.openLink
  split
  · exact .of_router rfl
  · rename_i server hserver
    split
    · exact .of_router rfl
    · rename_i routerIp hip
      unfold openTowards
      refine of_resolve (fun _ => rfl) fun hop => ?_
      dsimp only
      cases hsource : server.linkSource routerIp client flow.key with
      | error e => exact .of_router rfl
      | ok found => exact .of_calm (calm_entered hserver hsource ..)

end ForgetsOrParks

/-- **A packet that comes in makes its frame wait, or tells nothing of hosts.** -/
theorem Arises.forgets_or_parks (h : r.Arises) (hw : w.IsIpv4) :
    r.ForgetsOrParks w (r.process w).value := by
  obtain ⟨f, hf, htype⟩ := hw
  rcases r.handles_ipv4 hf htype with hvalue | ⟨id, d, p, ha, hvalue⟩
  · rw [hvalue]
    exact .of_router rfl
  · rw [hvalue]
    cases d.verdict p with
    | drop reason => cases reason <;> exact .of_router rfl
    | toDhcpClient message => exact .consumeDhcp h ..
    | toDhcpServer message => exact .serveDhcp w w.src ha.domain ..
    | echo => exact .of_router (router_echo ..)
    | follow ref flow packet => exact .follow ..
    | openLink target flow packet => exact .openLink ..
    | pass domain packet => exact .pass ..
    | refuse reason packet => exact .of_router (router_refuse ..)

/-- A frame is parked when it arrives: it waits in a domain for an address, behind all others. -/
def Parks (r : Router) (frame : Waiter) (name : String) (hop : Ipv4Addr) : Prop :=
  (r.receive frame.src frame.frame frame.queued).value.2.tree.queue name hop =
    r.tree.queue name hop ++ [frame]

theorem queue_counted (t : Tally) (r : Router) (name : String) (ip : Ipv4Addr) :
    (r.counted t).tree.queue name ip = r.tree.queue name ip := by
  have hhost : (r.counted t).tree.host? name ip = r.tree.host? name ip :=
    DomainTree.host?_map r.tree (Domain.name_counted t.1) name ip
  rw [DomainTree.queue, hhost, DomainTree.queue]

theorem Parks.isIpv4 (h : r.Parks w name hop) (harises : r.Arises) : w.IsIpv4 := by
  have hw : w ∈ (r.receive w.src w.frame w.queued).value.2.tree.queue name hop :=
    h ▸ List.mem_append_right _ List.mem_cons_self
  exact ((harises.moves (moves_receive ..)).came w (waits_of_mem_queue hw)).isIpv4

/-- Where a frame is parked it arrived in a domain. -/
theorem Parks.isSome_domainOf? (h : r.Parks w name hop) (hw : w.IsIpv4) :
    (r.domainOf? w.src).isSome := by
  obtain ⟨f, hf, htype⟩ := hw
  rcases r.handles_ipv4 hf htype with hvalue | ⟨id, d, p, ha, -⟩
  · by_contra hnone
    have hcounted : r.countArrival w.src w.frame.length = r := if_neg hnone
    have hreceive : (r.receive w.src w.frame w.queued).value = ([], r) := by
      rw [receive_eq (by rw [hcounted, hvalue]; rfl), hcounted, hvalue]
      rfl
    rw [Parks, hreceive] at h
    exact List.cons_ne_nil w [] (List.self_eq_append_right.1 h)
  · exact Option.isSome_of_eq_some ha.domainOf?_eq

/-- What is left of a frame that is parked, and what is asked for it. -/
theorem value_park {e : Domain} {outcome : Parked} {arp : ArpCache}
    (h : e.arp.park hop w w.queued = (outcome, arp)) (hne : outcome ≠ .dropped) :
    ∃ sent, (sent = [] ∨ sent = r.askFor e hop) ∧
      (r.park e hop w).value = (r.knowing e.name arp).sending sent := by
  unfold park
  rw [h]
  cases outcome with
  | requestNeeded => exact ⟨r.askFor e hop, .inr rfl, rfl⟩
  | queued => exact ⟨[], .inl rfl, rfl⟩
  | dropped => exact absurd rfl hne

/-- **A frame that is parked leaves itself behind**, and nothing else: a question is sent at most. -/
theorem Arises.process_of_parks (h : r.Arises) (hp : r.Parks w name hop) :
    ∃ d requested sent, r.tree.byName? name = some d ∧ (sent = [] ∨ sent = r.askFor d hop) ∧
      (r.process w).value = (r.knowing name
        (d.arp.insert hop (.pending requested (d.arp.queue hop ++ [w])))).sending sent := by
  have hipv4 := hp.isIpv4 h
  have hqueue : (r.process w).value.router.tree.queue name hop = r.tree.queue name hop ++ [w] := by
    have hsome := hp.isSome_domainOf? hipv4
    rw [Parks, h.receive_eq_upshot hsome,
      upshot_of_released (released_process_of_isIpv4 h.good hipv4)] at hp
    rwa [queue_counted] at hp
  have hjoins : ¬ (r.process w).value.router.tree.queue name hop = r.tree.queue name hop := by
    rw [hqueue]
    exact fun hsame => List.cons_ne_nil w [] (List.append_right_eq_self.1 hsame)
  rcases h.forgets_or_parks hipv4 with hforgets | ⟨e, ip, he, hpark⟩
  · have hlength := (hforgets.sublist_queue name hop).length_le
    rw [hqueue, List.length_append] at hlength
    exact absurd hlength (Nat.not_succ_le_self _)
  · rcases e.arp.park_cases ip w w.queued with hdropped | ⟨-, outcome, requested, hne, hparked⟩
    · refine absurd ?_ hjoins
      rw [hpark, router_park, hdropped, DomainTree.update_eq_self he rfl]
      rfl
    · obtain ⟨sent, hsent, hvalue⟩ := value_park (r := r) hparked hne
      by_cases hhere : name = e.name ∧ hop = ip
      · obtain ⟨rfl, rfl⟩ := hhere
        exact ⟨e, requested, sent, he, hsent, hpark.trans hvalue⟩
      · refine absurd ?_ hjoins
        rw [hpark, hvalue]
        dsimp only [sending, knowing, tree_withTree]
        rw [DomainTree.queue, host?_learned he, if_neg hhere, DomainTree.queue]

/-! ## Answers -/

/-- **An answer is heard and believed**: a reply with the hardware address of a host in the subnet of
the domain in which it arrives. -/
structure Teaches (r : Router) (frame : Waiter) (d : Domain) (p : Wire.Arp.Packet) : Prop where
  heard : ∃ id f config, r.Hears frame id d f p config ∧ Domain.believes config p = true
  reply : p.operation = .reply

theorem Hears.process_eq {id : DomainId} {d : Domain} {f : Wire.Ethernet.Frame}
    {p : Wire.Arp.Packet} {config : IpConfig} (h : r.Hears w id d f p config) :
    (r.process w).value = {
      router := r.withTree (r.tree.updateAt id (·.withArp (d.learn config p w.src w.queued).2))
      sent := r.answerArp w.src d p
      released := (d.learn config p w.src w.queued).1 } := by
  unfold process
  rw [h.handle]
  dsimp only
  rw [h.domain]
  dsimp only
  unfold handleFrame
  rw [h.ethernet]
  dsimp only
  rw [if_pos h.addressed, h.type]
  dsimp only
  unfold handleArp
  rw [h.packet]
  dsimp only
  rw [h.configured]
  rfl

section

variable {d : Domain} {p : Wire.Arp.Packet}

theorem Teaches.byName? (ht : r.Teaches w d p) (h : r.Good) : r.tree.byName? d.name = some d := by
  obtain ⟨⟨id, f, config, hears, -⟩, -⟩ := ht
  exact (h.byName?_of_domainId? hears.handle hears.domain).1

theorem Teaches.isSome_domainOf? (ht : r.Teaches w d p) : (r.domainOf? w.src).isSome := by
  obtain ⟨⟨id, f, config, hears, -⟩, -⟩ := ht
  exact Option.isSome_of_eq_some (Option.bind_eq_some_iff.2 ⟨id, hears.handle, hears.domain⟩)

/-- **Who waits for the sender of an answer is set free**, and no trace of the queue is left. -/
theorem Teaches.process_eq (ht : r.Teaches w d p) (h : r.Good) : (r.process w).value = {
    router := r.knowing d.name (d.arp.insert p.senderIp (.resolved p.senderMac w.src w.queued))
    sent := []
    released := d.arp.queue p.senderIp } := by
  obtain ⟨⟨id, f, config, hears, hbelieved⟩, hreply⟩ := ht
  obtain ⟨-, hplace⟩ := h.byName?_of_domainId? hears.handle hears.domain
  have hlearn : d.learn config p w.src w.queued =
      d.arp.resolve p.senderIp p.senderMac w.src w.queued := by
    rw [Domain.learn, if_pos hbelieved, if_pos (.inr hreply)]
  have hanswer : r.answerArp w.src d p = [] := by
    rw [answerArp, hreply, if_neg nofun]
  rw [hears.process_eq, hlearn, hanswer, DomainTree.updateAt_of_id? (h.settled hplace).symm]
  rfl

/-- An answer is believed whatever else is known of hosts. -/
theorem Teaches.knowing (ht : r.Teaches w d p) (h : r.Good) (arp : ArpCache) :
    (r.knowing d.name arp).Teaches w (d.withArp arp) p := by
  obtain ⟨⟨id, f, config, hears, hbelieved⟩, hreply⟩ := ht
  obtain ⟨hby, hplace⟩ := h.byName?_of_domainId? hears.handle hears.domain
  have hname (e : Domain) (he : e.name = d.name) : (e.withArp arp).name = d.name := he
  have hdomain : (r.tree.update d.name (·.withArp arp)).byName? d.name = some (d.withArp arp) := by
    rw [DomainTree.byName?_update _ _ _ hname, if_pos rfl, hby, Option.map_some]
  have hgeneration : (r.tree.update d.name (·.withArp arp)).generation = r.tree.generation := rfl
  have hid : (r.tree.update d.name (·.withArp arp)).id? d.name = some id := by
    rw [h.settled hplace]
    exact DomainTree.id?_congr hgeneration (DomainTree.names_update hname) d.name
  exact ⟨⟨id, f, config, ⟨hears.handle, (DomainTree.get?_of_id? hid).trans hdomain, hears.ethernet,
    hears.addressed, hears.type, hears.packet, hears.configured⟩, hbelieved⟩, hreply⟩

/-- **An answer wipes the queue out**, and who joined it last is set free last. -/
theorem Teaches.process_of_parked (ht : r.Teaches w d p) (h : r.Good) (requested : Nat)
    (frame : Waiter) :
    ((r.knowing d.name (d.arp.insert p.senderIp
      (.pending requested (d.arp.queue p.senderIp ++ [frame])))).process w).value = {
        router := r.knowing d.name
          (d.arp.insert p.senderIp (.resolved p.senderMac w.src w.queued))
        sent := []
        released := d.arp.queue p.senderIp ++ [frame] } := by
  generalize hentry : ArpEntry.pending requested (d.arp.queue p.senderIp ++ [frame]) = entry
  have hqueue : ArpCache.queue (d.arp.insert p.senderIp entry) p.senderIp =
      d.arp.queue p.senderIp ++ [frame] := by
    rw [ArpCache.queue, SortedMap.get?_insert, if_pos rfl, ← hentry]
    rfl
  have hprocess := (ht.knowing h (d.arp.insert p.senderIp entry)).process_eq (h.knowing ..)
  dsimp only [Domain.withArp, Domain.name] at hprocess ⊢
  rw [hprocess, hqueue, SortedMap.insert_insert, knowing_knowing]

end

/-! ## Either order -/

theorem replay_concat (now : Nat) (waiters : List Waiter) (w : Waiter) (r : Router) :
    let others := (replay now waiters r).value
    let last := (others.router.process { w with queued := now }).value
    (replay now (waiters ++ [w]) r).value = {
      router := last.router
      sent := others.sent ++ last.sent
      released := others.released ++ last.released } := by
  induction waiters generalizing r with
  | nil =>
    dsimp only [List.nil_append, replay, Logged.value_bind, Logged.value_pure, sending]
    rw [List.append_nil, List.append_nil]
  | cons v rest ih =>
    dsimp only [List.cons_append, replay, Logged.value_bind, Logged.value_pure]
    rw [ih]
    dsimp only
    rw [List.append_assoc, List.append_assoc]

/-- **It does not matter whether a frame comes before the answer or waits for it**, but for
counting. -/
theorem Arises.upshot_of_parks (h : r.Arises) {d : Domain} {p : Wire.Arp.Packet}
    {answer : Waiter} (hp : r.Parks w d.name p.senderIp) (ht : r.Teaches answer d p)
    (hnow : answer.queued = w.queued) :
    let told := r.upshot answer
    (r.upshot w).router.upshot answer =
      (told.router.upshot w).router.sending (told.sent ++ (told.router.upshot w).sent) := by
  have hipv4 := hp.isIpv4 h
  obtain ⟨e, requested, sent, he, -, hparked⟩ := h.process_of_parks hp
  obtain rfl : d = e := Option.some.inj ((ht.byName? h.good).symm.trans he)
  have hagain : { w with queued := answer.queued } = w := by rw [hnow]
  have hlast := released_process_of_isIpv4 (h.good.upshot answer) hipv4
  dsimp only
  rw [upshot_of_released hlast, upshot_of_released (released_process_of_isIpv4 h.good hipv4), hparked]
  unfold upshot
  dsimp only [sending]
  rw [ht.process_eq h.good, ht.process_of_parked h.good requested w]
  dsimp only
  rw [replay_concat, hagain]
  rfl

/-- **Parking a frame does not change what happens to it.** A frame that would be parked and the
answer for which it would wait come to the same in either order: the same frames leave, those for
the frames that waited before first, and the state is the same — but that a question may be sent for
the frame, and is counted then. -/
theorem Reachable.parking (h : r.Reachable) {d : Domain} {p : Wire.Arp.Packet}
    {interface answering : InterfaceId} {bytes answer : Bytes} {now : Nat}
    (hp : r.Parks ⟨interface, bytes, now⟩ d.name p.senderIp)
    (ht : r.Teaches ⟨answering, answer, now⟩ d p) :
    let parked := (r.receive interface bytes now).value
    let released := (parked.2.receive answering answer now).value
    let told := (r.receive answering answer now).value
    let sent := (told.2.receive interface bytes now).value
    released.1 = told.1 ++ sent.1 ∧
      released.2 = sent.2.countAllSent parked.1 ∧
      (parked.1 = [] ∨ parked.1 = r.askFor d p.senderIp) ∧
      released.1 = (parked.2.handlings answering answer now).flatMap sentFor ∧
      (parked.2.handlings answering answer now).map Prod.snd =
        ⟨answering, answer, now⟩ ::
          ((r.tree.queue d.name p.senderIp).map (fun w => { w with queued := now }) ++
            [⟨interface, bytes, now⟩]) := by
  have harises := h.arises
  have hgood := h.good
  have hipv4 := hp.isIpv4 harises
  have hframe := hp.isSome_domainOf? hipv4
  have hanswer := ht.isSome_domainOf?
  have hnext := harises.moves (moves_receive r interface bytes now)
  have hnext' := harises.moves (moves_receive r answering answer now)
  have hparked := harises.receive_eq_upshot hframe bytes now
  have htold := harises.receive_eq_upshot hanswer answer now
  have hreleased := harises.receive_receive hframe hanswer bytes answer now now
  have hsent := harises.receive_receive hanswer hframe answer bytes now now
  have hkeeps := harises.keeps_receive hanswer answer now
  have hframe' := hkeeps.isSome_domainOf? hgood hnext'.good hframe
  have hpolicies := (hkeeps.trans (hnext'.keeps_receive hframe' bytes now)).policies
  have hlast := (hnext'.moves (moves_receive _ interface bytes now)).good
  dsimp only at hparked htold hreleased hsent ⊢
  rw [harises.upshot_of_parks hp ht rfl] at hreleased
  dsimp only [sending] at hreleased
  obtain ⟨e, requested, asked, he, hasked, hprocess⟩ := harises.process_of_parks hp
  obtain rfl : d = e := Option.some.inj ((ht.byName? hgood).symm.trans he)
  have hupshot := upshot_of_released (released_process_of_isIpv4 hgood hipv4)
  rw [hprocess] at hupshot
  refine ⟨?_, ?_, ?_, hnext.sent_receive answering answer now, ?_⟩
  · rw [hreleased, hsent, htold]
  · rw [hlast.countAllSent_eq_counted, hpolicies, hreleased, hsent, hparked, counted_counted,
      departure_append]
    dsimp only
    exact congrArg (counted · _) (by ac_rfl)
  · rw [hparked, hupshot]
    exact hasked
  · rw [harises.map_snd_handlings_receive hframe hanswer, hupshot]
    dsimp only [sending]
    rw [ht.process_of_parked hgood, DomainTree.queue_of_byName? he, List.map_append]
    rfl

namespace Ping

/-- What the host tells. -/
def answer : Wire.Arp.Packet where
  operation := .reply
  senderMac := host
  senderIp := .ofOctets 10 0 1 2
  targetMac := Config.defaultMac
  targetIp := .ofOctets 10 0 1 1

/-- The frame with the answer. -/
def answerFrame : Wire.Ethernet.Frame where
  dst := Config.defaultMac
  src := host
  etherType := Wire.EtherType.arp.number
  payload := answer.build

/-- The domain in which the pings wait. -/
def waited : Domain :=
  asking.tree.domains.getLast (by decide +kernel)

theorem teaches_announcement : asking.Teaches ⟨⟨1, 0⟩, announcement, 2⟩ waited answer := by
  refine ⟨⟨⟨1, 1⟩, answerFrame, { interface := ⟨.ofOctets 10 0 1 1, 24, by decide⟩ }, ?_, ?_⟩, rfl⟩
  · constructor
    case handle => decide +kernel
    case domain => decide +kernel
    case ethernet => exact Wire.Ethernet.parse_build answerFrame
    case addressed => exact .inl (by decide +kernel)
    case type => decide
    case packet => rfl
    case configured => decide +kernel
  · decide +kernel

end Ping

/-- A third ping that is sent just before the host's answer is sent on behind the two that wait, as
if it had come just after it. -/
theorem parking_asking : Ping.asking.Reachable ∧
    Ping.asking.Parks ⟨⟨0, 0⟩, Ping.request, 2⟩ Ping.waited.name Ping.answer.senderIp ∧
    Ping.asking.Teaches ⟨⟨1, 0⟩, Ping.announcement, 2⟩ Ping.waited Ping.answer ∧
    let parked := (Ping.asking.receive ⟨0, 0⟩ Ping.request 2).value
    let told := (Ping.asking.receive ⟨1, 0⟩ Ping.announcement 2).value
    (parked.2.receive ⟨1, 0⟩ Ping.announcement 2).value.1 =
      told.1 ++ (told.2.receive ⟨0, 0⟩ Ping.request 2).value.1 ∧ told.1.length = 2 := by
  have hparks :
      Ping.asking.Parks ⟨⟨0, 0⟩, Ping.request, 2⟩ Ping.waited.name Ping.answer.senderIp := by
    unfold Parks
    decide +kernel
  obtain ⟨hsent, -⟩ := Ping.reachable_asking.parking hparks Ping.teaches_announcement
  exact ⟨Ping.reachable_asking, hparks, Ping.teaches_announcement, hsent, by decide +kernel⟩

end Router

end SegmentRouter
