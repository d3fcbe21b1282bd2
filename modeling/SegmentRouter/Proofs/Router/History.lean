import Mathlib.Algebra.BigOperators.Group.List.Basic
import SegmentRouter.Proofs.Router.Members
import SegmentRouter.Proofs.Router.Meters
import SegmentRouter.Proofs.Router.Sending

/-!
# Proofs/Router/History — every byte is counted once

The history of a router is the list of all that happened to it, each with the state in which it
happened, the latest first.  At an interface there pass, when something happens, the frame that
arrives on it, and the frames that leave through it (`Episode.traffic`); through a domain there
passes what passes through its interfaces.  The meter of an interface shows what has passed since the
interface came, and that of a domain what has passed since the domain came to be, which may be many
configurations ago (`History.metered`).
-/

namespace SegmentRouter

open Wire (Bytes)

/-- What may happen to a router. -/
inductive Happening where
  | event (now : Nat) (event : Event)
  | attached (domain : String)
  | detached (interface : InterfaceId)

/-- The frame that arrives, and the interface on which it does. -/
def Happening.frame? : Happening → Option (InterfaceId × Bytes)
  | .event _ (.frame interface bytes) => some (interface, bytes)
  | .event _ (.timer _) | .event _ (.reload _) | .attached _ | .detached _ => none

namespace Router

/-- The router after something happened to it; an interface that is not there cannot be detached. -/
def after (r : Router) : Happening → Router
  | .event now event => (r.handle now event).value.2
  | .attached domain => (r.attach domain).value.2
  | .detached interface =>
    match (r.detach interface).value with
    | .ok r' => r'
    | .error _ => r

/-- The frames that are sent because something happens to the router. -/
def sentBy (r : Router) : Happening → List Transmit
  | .event now event => (r.handle now event).value.1.sent
  | .attached _ | .detached _ => []

end Router

/-- Something that happened to a router. -/
structure Episode where
  /-- The router before it. -/
  router : Router
  happening : Happening

/-- The frames that leave through an interface. -/
def leaving (sent : List Transmit) (id : InterfaceId) : List Transmit :=
  sent.filter fun t => t.interface = id

namespace Episode

/-- The bytes of the frame that arrived on an interface, if one did while the interface was attached
to a domain. -/
def arrived (e : Episode) (id : InterfaceId) : Nat :=
  match e.happening.frame? with
  | some (interface, bytes) =>
    if interface = id ∧ (e.router.domainId? id).isSome then bytes.length else 0
  | none => 0

/-- The bytes of the frames that were sent through an interface. -/
def left (e : Episode) (id : InterfaceId) : Nat :=
  ((leaving (e.router.sentBy e.happening) id).map fun t => t.frame.length).sum

/-- **What passed through an interface**, in and out. -/
def traffic (e : Episode) (id : InterfaceId) : Nat × Nat :=
  (e.arrived id, e.left id)

theorem traffic_eq (e : Episode) (id : InterfaceId) :
    e.traffic id = (e.arrived id, 0) + (0, e.left id) := by
  rw [traffic, Prod.mk_add_mk, add_zero, zero_add]

/-- **What passed through the interfaces that were attached to a domain**, in and out. -/
def domainTraffic (e : Episode) (name : String) : Nat × Nat :=
  match e.router.tree.members? name with
  | some members => (members.keys.map e.traffic).sum
  | none => 0

/-- What is to be counted: the frame that arrives on an interface in a domain, and the frames that
are sent. -/
def tally (e : Episode) : Tally :=
  let policies := e.router.interfaces.policy?
  let arrived := match e.happening.frame? with
    | some (interface, bytes) =>
      if (e.router.domainOf? interface).isSome then Router.arrival policies interface bytes.length
      else 0
    | none => 0
  arrived + Router.departure policies (e.router.sentBy e.happening)

end Episode

/-- The latest episodes, as long as the interface with an id was there. -/
def sinceAttached (id : InterfaceId) (past : List Episode) : List Episode :=
  past.takeWhile fun e => (e.router.interfaces.get? id).isSome

/-- The latest episodes, as long as there was a domain with a name. -/
def sinceMade (name : String) (past : List Episode) : List Episode :=
  past.takeWhile fun e => (e.router.tree.byName? name).isSome

namespace Router

variable {r r' : Router}

/-- **What happened to a router from its start on**, the latest first. -/
inductive History : List Episode → Router → Prop
  | start {config : Config} {xid : UInt32} {r : Router}
      (hr : (Router.start config xid).value = .ok r) : History [] r
  | next {past : List Episode} {r : Router} (h : History past r) (x : Happening) :
      History (⟨r, x⟩ :: past) (r.after x)

theorem History.reachable {past : List Episode} (h : History past r) : r.Reachable := by
  induction h with
  | start hr => exact .start hr
  | @next past r _ x ih =>
    cases x with
    | event now event => exact ih.handle now event
    | attached domain => exact ih.attach domain
    | detached interface =>
      unfold after
      dsimp only
      split
      · rename_i r' hr
        exact ih.detach hr
      · exact ih

/-- Every state has a history. -/
theorem Reachable.exists_history (h : r.Reachable) : ∃ past, History past r := by
  induction h with
  | start hr => exact ⟨[], .start hr⟩
  | handle _ now event ih =>
    obtain ⟨past, hpast⟩ := ih
    exact ⟨_, hpast.next (.event now event)⟩
  | attach _ domain ih =>
    obtain ⟨past, hpast⟩ := ih
    exact ⟨_, hpast.next (.attached domain)⟩
  | @detach r r' interface _ hr ih =>
    obtain ⟨past, hpast⟩ := ih
    have hnext := hpast.next (.detached interface)
    rw [after, hr] at hnext
    exact ⟨_, hnext⟩

/-! ## What is counted when something happens -/

/-- The meters of what is still there show some bytes more, and those of what is new show none. -/
structure Adds (r : Router) (t : Tally) (r' : Router) : Prop where
  domains : ∀ name n, r'.tree.meter? name = some n →
    n = ((r.tree.meter? name).map (· + t.1 name)).getD 0
  interfaces : ∀ id n, r'.interfaces.meter? id = some n →
    n = ((r.interfaces.meter? id).map (· + t.2 id.index)).getD 0

theorem Silent.adds {r₁ : Router} (h : r.Silent r₁) (t : Tally) : r.Adds t (r₁.counted t) where
  domains name n hn := by
    have hmeter : (r₁.counted t).tree.meter? name = (r.tree.meter? name).map (· + t.1 name) := by
      rw [← DomainTree.meter?_of_meters h.domains]
      exact DomainTree.meter?_counted ..
    rw [← hmeter, hn, Option.getD_some]
  interfaces id n hn := by
    have hmeter : (r₁.counted t).interfaces.meter? id =
        (r.interfaces.meter? id).map (· + t.2 id.index) := by
      rw [← h.interfaces]
      exact InterfaceTable.meter?_counted ..
    rw [← hmeter, hn, Option.getD_some]

theorem Silent.adds_zero (h : r.Silent r') : r.Adds 0 r' := by
  have hadds := h.adds 0
  rwa [counted_zero] at hadds

theorem adds_attach (r : Router) (domain : String) :
    r.Adds 0 (r.attach domain).value.2 := by
  have hbound : (r.withNewInterface domain).Silent (r.attach domain).value.2 :=
    silent_bind (r.withNewInterface domain) (r.nextInterface domain)
  refine ⟨fun name n hn => ?_, fun id n hn => ?_⟩
  · rw [DomainTree.meter?_of_meters hbound.domains] at hn
    have hn : r.tree.meter? name = some n := hn
    rw [hn]
    rfl
  · rw [hbound.interfaces, InterfaceTable.meter?, get?_withNewInterface] at hn
    rw [InterfaceTable.meter?]
    split at hn
    · rename_i hid
      rw [hid, get?_nextInterface]
      exact (Option.some.inj hn).symm
    · obtain ⟨i, hi, rfl⟩ := Option.map_eq_some_iff.1 hn
      rw [hi]
      rfl

theorem adds_detach {interface : InterfaceId} (hr : (r.detach interface).value = .ok r') :
    r.Adds 0 r' := by
  have hunbound := (r.silent_unbind interface).adds_zero
  obtain ⟨interfaces, rfl, hget⟩ := detach_eq_ok hr
  refine ⟨hunbound.domains, fun id n hn => ?_⟩
  rw [InterfaceTable.meter?, hget] at hn
  split at hn
  · cases hn
  · obtain ⟨i, hi, rfl⟩ := Option.map_eq_some_iff.1 hn
    rw [InterfaceTable.meter?, hi]
    rfl

/-- **A new configuration counts nothing**, and domains that it keeps go on where they were. -/
theorem adds_apply (r : Router) (config : Config) : r.Adds 0 (r.apply config).value.2 := by
  cases hvalid : config.validate.hasErrors with
  | true =>
    obtain ⟨e, faults, hvalue⟩ := r.apply_of_invalid hvalid
    rw [hvalue]
    exact Silent.adds_zero ⟨rfl, fun _ => rfl⟩
  | false =>
    rw [r.apply_of_valid hvalid]
    have hbound : (r.renewed config).Silent (r.adopt config).value := silent_bindAll ..
    refine ⟨fun name n hn => ?_, fun id n hn => ?_⟩
    · rw [DomainTree.meter?_of_meters hbound.domains] at hn
      rw [DomainTree.meter?_next hn]
      cases r.tree.meter? name <;> rfl
    · rw [hbound.interfaces] at hn
      have hn : r.interfaces.meter? id = some n := hn
      rw [hn]
      rfl

theorem router_handle_reload (r : Router) (now : Nat) (config : Config) :
    (r.handle now (.reload config)).value.2 = (r.apply config).value.2 := by
  unfold handle
  rcases hvalue : (r.apply config).value with ⟨e, applied⟩
  rw [Logged.value_bind, hvalue]
  cases e <;> rfl

theorem adds_maintainDhcp (h : r.Good) (now : Nat) : r.Adds
    (departure r.interfaces.policy? (r.maintainDhcp now).value.sent)
    ((r.maintainDhcp now).value.router.countAllSent (r.maintainDhcp now).value.sent) := by
  have hsheds := h.sheds_maintainDhcp now
  rw [(hsheds.good h).countAllSent_eq_counted, (Keeps.of_sheds hsheds).policies]
  exact (r.silent_maintainDhcp now).adds _

/-- **Whatever happens, what passes is counted, and nothing else.** -/
theorem Arises.adds (h : r.Arises) (x : Happening) :
    r.Adds (Episode.tally ⟨r, x⟩) (r.after x) := by
  have hquiet {x : Happening} (htally : Episode.tally ⟨r, x⟩ = 0 + 0)
      (hx : r.Adds 0 (r.after x)) : r.Adds (Episode.tally ⟨r, x⟩) (r.after x) := by
    rw [htally]
    exact hx
  cases x with
  | attached domain => exact hquiet rfl (r.adds_attach domain)
  | detached interface =>
    refine hquiet rfl ?_
    unfold after
    dsimp only
    split
    · rename_i r' hr
      exact adds_detach hr
    · exact (Silent.refl r).adds_zero
  | event now event =>
    cases event with
    | frame interface bytes =>
      obtain ⟨r₁, hsilent, hvalue⟩ := h.receive_counts interface bytes now
      have hafter : r.after (.event now (.frame interface bytes)) =
          (r.receive interface bytes now).value.2 := rfl
      rw [hafter, hvalue]
      exact hsilent.adds _
    | timer kind =>
      cases kind with
      | linkAging => exact hquiet rfl (r.silent_ageLinks now).adds_zero
      | arpExpiry => exact hquiet rfl (r.silent_ageArp now).adds_zero
      | report => exact hquiet rfl (Silent.refl r).adds_zero
      | dhcp =>
        have hadds := adds_maintainDhcp h.good now
        rwa [← zero_add (departure ..)] at hadds
    | reload config =>
      have hafter : r.after (.event now (.reload config)) = (r.apply config).value.2 :=
        r.router_handle_reload now config
      have hsent : r.sentBy (.event now (.reload config)) = [] := r.sent_handle_reload now config
      refine hquiet ?_ (hafter ▸ r.adds_apply config)
      rw [Episode.tally, hsent]
      rfl

/-! ## What passes is what is counted -/

section

variable {id j : InterfaceId} {i : Interface} {n : Nat × Nat} {name : String}
  {members : SortedSet InterfaceId}

theorem passing_interface (hid : r.interfaces.get? id = some i) (j : InterfaceId) (n : Nat × Nat) :
    (passing (r.interfaces.policy? j) j n).2 id.index = if j = id then n else 0 := by
  cases hj : r.interfaces.get? j with
  | none =>
    have hne : j ≠ id := fun h => by
      rw [h, hid] at hj
      cases hj
    rw [InterfaceTable.policy?, hj, if_neg hne]
    rfl
  | some i' =>
    rw [InterfaceTable.policy?_of_get? hj]
    by_cases hne : j = id
    · rw [if_pos hne, hne]
      exact Pi.single_eq_same ..
    · rw [if_neg hne]
      exact Pi.single_eq_of_ne (M := fun _ => Nat × Nat)
        (fun h => hne (InterfaceTable.eq_of_index hid hj h.symm)) n

theorem passing_domain (policy : Option String) (j : InterfaceId) (n : Nat × Nat) (name : String) :
    (passing policy j n).1 name = if policy = some name then n else 0 := by
  cases policy with
  | none => rfl
  | some policy =>
    by_cases hname : policy = name
    · rw [if_pos (congrArg some hname), hname]
      exact Pi.single_eq_same ..
    · rw [if_neg fun h => hname (Option.some.inj h)]
      exact Pi.single_eq_of_ne (M := fun _ => Nat × Nat) (Ne.symm hname) n

theorem left_cons (t : Transmit) (sent : List Transmit) (id : InterfaceId) :
    ((0, ((leaving (t :: sent) id).map fun t => t.frame.length).sum) : Nat × Nat) =
      (if t.interface = id then (0, t.frame.length) else 0) +
        (0, ((leaving sent id).map fun t => t.frame.length).sum) := by
  unfold leaving
  rw [List.filter_cons]
  by_cases ht : t.interface = id
  · simp [ht]
  · simp [ht]

/-- What is counted at an interface for the frames that leave is what leaves through it. -/
theorem departure_interface (hid : r.interfaces.get? id = some i) (sent : List Transmit) :
    (departure r.interfaces.policy? sent).2 id.index =
      (0, ((leaving sent id).map fun t => t.frame.length).sum) := by
  induction sent with
  | nil => rfl
  | cons t rest ih =>
    rw [left_cons, ← ih, ← passing_interface hid]
    rfl

/-- One of several different interfaces adds to the sum, if it is among them. -/
theorem sum_map_ite {ids : List InterfaceId} (hids : ids.Nodup) (j : InterfaceId) (n : Nat × Nat) :
    (ids.map fun id => if j = id then n else 0).sum = if j ∈ ids then n else 0 := by
  induction ids with
  | nil => rfl
  | cons id rest ih =>
    obtain ⟨hid, hrest⟩ := List.nodup_cons.1 hids
    rw [List.map_cons, List.sum_cons, ih hrest]
    by_cases hj : j = id
    · subst hj
      simp [hid]
    · simp [hj]

/-- The members of a domain are the interfaces that are meant for it. -/
theorem Housed.mem_keys_iff (h : r.Housed) (hmembers : r.tree.members? name = some members)
    (id : InterfaceId) : id ∈ members.keys ↔ r.interfaces.policy? id = some name := by
  rw [SortedMap.mem_keys_iff, ← Option.isSome_iff_exists]
  exact (h hmembers id).trans (and_iff_right trivial)

/-- Of several interfaces, the bytes of one pass through the members of a domain if it is meant for
the domain. -/
theorem Housed.sum_members (h : r.Housed) (hmembers : r.tree.members? name = some members)
    (j : InterfaceId) (n : Nat × Nat) : (members.keys.map fun id => if j = id then n else 0).sum =
      (passing (r.interfaces.policy? j) j n).1 name := by
  rw [sum_map_ite members.nodup_keys, passing_domain]
  simp only [h.mem_keys_iff hmembers]

/-- What is counted in a domain for the frames that leave is what leaves through its interfaces. -/
theorem departure_domain (h : r.Housed) (hmembers : r.tree.members? name = some members)
    (sent : List Transmit) : (departure r.interfaces.policy? sent).1 name =
      (members.keys.map fun id =>
        ((0, ((leaving sent id).map fun t => t.frame.length).sum) : Nat × Nat)).sum := by
  induction sent with
  | nil => exact (List.sum_map_zero ..).symm
  | cons t rest ih =>
    simp only [left_cons, List.sum_map_add]
    rw [h.sum_members hmembers, ← ih]
    rfl

theorem Good.isSome_domainId? (h : r.Good) (id : InterfaceId) :
    (r.domainId? id).isSome = (r.domainOf? id).isSome := by
  cases hi : r.interfaces.get? id with
  | none =>
    have hid : r.domainId? id = none := by rw [domainId?, hi, Option.bind_none]
    rw [domainOf?, hid]
    rfl
  | some i => rw [h.domainId?_eq hi, h.domainOf?_eq hi, DomainTree.isSome_id?]

/-- The bytes of a frame come in through the interface on which it arrives, if that is in a
domain. -/
theorem Good.arrived_eq (h : r.Good) {x : Happening} {interface : InterfaceId} {bytes : Bytes}
    (hx : x.frame? = some (interface, bytes)) (id : InterfaceId) :
    ((Episode.arrived ⟨r, x⟩ id, 0) : Nat × Nat) = if (r.domainOf? interface).isSome then
      if interface = id then (bytes.length, 0) else 0 else 0 := by
  unfold Episode.arrived
  dsimp only
  rw [hx]
  by_cases hid : interface = id
  · subst hid
    rw [← h.isSome_domainId?]
    by_cases hin : (r.domainId? interface).isSome <;> simp [hin]
  · simp [hid]

/-- **What is counted at an interface is what passes through it.** -/
theorem tally_interface (h : r.Good) (hid : r.interfaces.get? id = some i) (x : Happening) :
    (Episode.tally ⟨r, x⟩).2 id.index = Episode.traffic ⟨r, x⟩ id := by
  rw [Episode.traffic_eq, Episode.left, ← departure_interface hid]
  refine congrArg (· + (departure r.interfaces.policy? (r.sentBy x)).2 id.index) ?_
  dsimp only
  cases hx : x.frame? with
  | none =>
    rw [Episode.arrived, hx]
    rfl
  | some frame =>
    rw [h.arrived_eq hx]
    dsimp only
    split
    · exact passing_interface hid ..
    · rfl

/-- **What is counted in a domain is what passes through its interfaces.** -/
theorem tally_domain (h : r.Arises) (hmembers : r.tree.members? name = some members)
    (x : Happening) : (Episode.tally ⟨r, x⟩).1 name = Episode.domainTraffic ⟨r, x⟩ name := by
  rw [Episode.domainTraffic, hmembers]
  simp only [funext (Episode.traffic_eq ⟨r, x⟩), List.sum_map_add, Episode.left]
  rw [← departure_domain h.housed hmembers]
  refine congrArg (· + (departure r.interfaces.policy? (r.sentBy x)).1 name) ?_
  dsimp only
  cases hx : x.frame? with
  | none =>
    simp only [Episode.arrived, hx]
    exact (List.sum_map_zero ..).symm
  | some frame =>
    simp only [h.good.arrived_eq hx]
    split
    · exact (h.housed.sum_members hmembers ..).symm
    · exact (List.sum_map_zero ..).symm

end

/-! ## Meters -/

/-- What happens adds to the meter of an interface what passes through the interface. -/
theorem Arises.meter?_interface (h : r.Arises) (x : Happening) (id : InterfaceId) (n : Nat × Nat)
    (hn : (r.after x).interfaces.meter? id = some n) :
    n = ((r.interfaces.meter? id).map (· + Episode.traffic ⟨r, x⟩ id)).getD 0 := by
  rw [(h.adds x).interfaces id n hn]
  cases hi : r.interfaces.get? id with
  | none =>
    rw [InterfaceTable.meter?, hi]
    rfl
  | some i => rw [tally_interface h.good hi]

/-- What happens adds to the meter of a domain what passes through the domain's interfaces. -/
theorem Arises.meter?_domain (h : r.Arises) (x : Happening) (name : String) (n : Nat × Nat)
    (hn : (r.after x).tree.meter? name = some n) :
    n = ((r.tree.meter? name).map (· + Episode.domainTraffic ⟨r, x⟩ name)).getD 0 := by
  rw [(h.adds x).domains name n hn]
  cases hd : r.tree.byName? name with
  | none =>
    rw [DomainTree.meter?, hd]
    rfl
  | some d => rw [tally_domain h (DomainTree.members?_of_byName? hd)]

/-- What the meter of something shows is what has passed as long as it was there. -/
theorem History.sum_since {meter : Router → Option (Nat × Nat)} {f : Episode → Nat × Nat}
    (hstart : ∀ {config xid r}, (Router.start config xid).value = .ok r → ∀ n, meter r = some n →
      n = 0)
    (hnext : ∀ {r : Router} (x : Happening), r.Arises → ∀ n, meter (r.after x) = some n →
      n = ((meter r).map (· + f ⟨r, x⟩)).getD 0)
    {past : List Episode} (h : History past r) {n : Nat × Nat} (hn : meter r = some n) :
    n = ((past.takeWhile fun e => (meter e.router).isSome).map f).sum := by
  induction h generalizing n with
  | start hr => exact hstart hr n hn
  | @next past r h x ih =>
    rw [hnext x h.reachable.arises n hn, List.takeWhile_cons]
    cases hbefore : meter r with
    | none => simp
    | some m =>
      rw [ih hbefore]
      simp [add_comm]

/-- **Every byte is counted once.**  The meter of an interface shows the bytes of the frames that
arrived on it, while it was attached to a domain, and of those that were sent through it, since it
came; the meter of a domain shows the same of all interfaces that were attached to it, since the
domain came to be, whatever configurations there were in between.  Nothing is counted while a frame
is handled, so a frame that waited is not counted again. -/
theorem History.metered {past : List Episode} (h : History past r) :
    (∀ id i, r.interfaces.get? id = some i →
      (i.rxBytes, i.txBytes) = ((sinceAttached id past).map (·.traffic id)).sum) ∧
    (∀ name d, r.tree.byName? name = some d →
      (d.rxBytes, d.txBytes) = ((sinceMade name past).map (·.domainTraffic name)).sum) ∧
    ∀ frame, r.Silent (r.process frame).value.router := by
  have hnew {config : Config} {xid : UInt32} {r : Router}
      (hr : (Router.start config xid).value = .ok r) : ({ nextXid := xid } : Router).Adds 0 r := by
    rw [start_eq_ok hr]
    exact adds_apply ..
  refine ⟨fun id i hi => ?_, fun name d hd => ?_, r.silent_process⟩
  · have hmeter : r.interfaces.meter? id = some (i.rxBytes, i.txBytes) := by
      rw [InterfaceTable.meter?, hi]
      rfl
    have hsum := h.sum_since (f := (·.traffic id))
      (fun hr => (hnew hr).interfaces id) (fun x hr => hr.meter?_interface x id) hmeter
    simp only [InterfaceTable.meter?, Option.isSome_map] at hsum
    exact hsum
  · have hmeter : r.tree.meter? name = some (d.rxBytes, d.txBytes) := by
      rw [DomainTree.meter?, hd]
      rfl
    have hsum := h.sum_since (f := (·.domainTraffic name))
      (fun hr => (hnew hr).domains name) (fun x hr => hr.meter?_domain x name) hmeter
    simp only [DomainTree.meter?, Option.isSome_map] at hsum
    exact hsum

/-! ## The history of a ping -/

namespace Ping

/-- The router before interfaces were attached. -/
def started : Router :=
  (({} : Router).adopt config).value

/-- The router that knows where the host is that is pinged. -/
def told : Router :=
  attached.after (.event 0 (.frame ⟨1, 0⟩ announcement))

/-- The router after its configuration was put into use once more. -/
def reloaded : Router :=
  router.after (.event 0 (.reload config))

/-- What happened until then. -/
def past : List Episode := [
  ⟨router, .event 0 (.reload config)⟩,
  ⟨told, .event 0 (.frame ⟨0, 0⟩ request)⟩,
  ⟨attached, .event 0 (.frame ⟨1, 0⟩ announcement)⟩,
  ⟨started.after (.attached "lan"), .attached "wan"⟩,
  ⟨started, .attached "lan"⟩]

theorem history_reloaded : History past reloaded := by
  have hstart : (Router.start config 0).value = .ok started := start_of_valid hasErrors_config 0
  have hattached := ((History.start hstart).next (.attached "lan")).next (.attached "wan")
  exact ((hattached.next (.event 0 (.frame ⟨1, 0⟩ announcement))).next
    (.event 0 (.frame ⟨0, 0⟩ request))).next (.event 0 (.reload config))

/-- The domain of the host that was pinged, as the configuration makes it anew. -/
def reloadedWan : Domain :=
  reloaded.tree.domains.getLast (by decide +kernel)

theorem byName?_reloaded : reloaded.tree.byName? "wan" = some reloadedWan := by
  decide +kernel

end Ping

/-- After a ping and a new configuration the domain of the host that was pinged has counted the
host's announcement and the request. -/
theorem metered_ping : History Ping.past Ping.reloaded ∧
    (Ping.reloadedWan.rxBytes, Ping.reloadedWan.txBytes) =
      ((sinceMade "wan" Ping.past).map (·.domainTraffic "wan")).sum ∧
    Ping.reloadedWan.rxBytes = Ping.announcement.length ∧
    Ping.reloadedWan.txBytes = Ping.request.length :=
  ⟨Ping.history_reloaded, Ping.history_reloaded.metered.2.1 "wan" Ping.reloadedWan
    Ping.byName?_reloaded, by decide +kernel, by decide +kernel⟩

end Router

end SegmentRouter
