import SegmentRouter.Proofs.Dhcp.Answers

/-!
# Proofs/Dhcp/Leases — who holds which address, over a server's life

A server handles messages, ends what has expired, and hands its leases on to the next server of the
same pool.  Over any such run no two clients hold one address (`Run.exclusive`), and a client keeps
its address until it is heard again or its lease ends.

The search for the holder of an address stops at the first client that holds it, so it tells the
whole truth only because there is no second one.
-/

namespace SegmentRouter.DhcpServer

open Wire.Dhcp (Message)

/-! ## Events and runs -/

/-- What happens to a server. -/
inductive Event where
  | message (msg : Message) (params : Params) (now : Nat)
  | maintenance (now : Nat)
  /-- A server with the same pool takes the leases over. -/
  | succession (next : DhcpServer)

/-- What an event makes of a server. -/
inductive Step (s : DhcpServer) : Event → DhcpServer → Prop
  | message (msg : Message) (params : Params) (now : Nat) :
      Step s (.message msg params now) (s.handle msg params now).value.2
  | maintenance (now : Nat) : Step s (.maintenance now) (s.maintain now).value.2
  | succession {next : DhcpServer} (hpool : next.samePool s = true) :
      Step s (.succession next) (next.inherit s)

/-- **What a sequence of events makes of a server.** -/
inductive Run : DhcpServer → List Event → DhcpServer → Prop
  | nil (s : DhcpServer) : Run s [] s
  | cons {s s' s'' : DhcpServer} {e : Event} {events : List Event} (h : s.Step e s')
      (hrun : Run s' events s'') : Run s (e :: events) s''

/-- The event neither is a message of the client nor comes when its lease has expired. -/
def Event.Spares (mac : Mac) (expires : Nat) : Event → Prop
  | .message msg _ _ => msg.chaddr ≠ mac
  | .maintenance now => now < expires
  | .succession _ => True

/-- **No two clients have one address.** -/
def Exclusive (s : DhcpServer) : Prop :=
  ∀ ⦃a b ip⦄, s.Holds a ip → s.Holds b ip → a = b

section

variable {start s s' : DhcpServer} {e : Event} {events : List Event} {msg : Message}
  {params : Params} {now : Nat} {ip : Ipv4Addr} {mac : Mac} {lease : Lease}

/-! ## Time -/

@[simp] theorem ip_age (now : Nat) (lease : Lease) : (age now lease).ip = lease.ip := by
  unfold age
  split <;> rfl

@[simp] theorem expires_age (now : Nat) (lease : Lease) :
    (age now lease).expires = lease.expires := by
  unfold age
  split <;> rfl

/-- **Time ends what has expired** and leaves the other leases with their clients. -/
theorem get?_maintain : (s.maintain now).value.2.leases.get? mac = some lease ↔
    ∃ old, s.leases.get? mac = some old ∧ now < old.expires ∧ age now old = lease := by
  have hmap : (s.maintain now).value.2.leases.get? mac =
      ((s.leases.get? mac).filter fun lease => !decide (lease.expires ≤ now)).map (age now) := by
    unfold maintain
    dsimp only [Logged.value_bind, Logged.value_pure]
    rw [SortedMap.get?_mapValues, SortedMap.get?_filter]
  rw [hmap, Option.map_eq_some_iff]
  simp only [Option.filter_eq_some_iff, Bool.not_eq_true', decide_eq_false_iff_not, Nat.not_le,
    and_assoc]

theorem holds_of_maintain (h : (s.maintain now).value.2.Holds mac ip) : s.Holds mac ip := by
  obtain ⟨lease, hlease, rfl⟩ := h
  obtain ⟨old, hold, -, rfl⟩ := get?_maintain.1 hlease
  exact ⟨old, hold, (ip_age now old).symm⟩

/-! ## Holders -/

theorem holds_of_holder? (h : s.holder? ip = some mac) : s.Holds mac ip := by
  obtain ⟨⟨first, found⟩, hfound, rfl⟩ := Option.map_eq_some_iff.1 h
  exact ⟨found, SortedMap.get?_eq_some_iff.2 (List.mem_of_find?_eq_some hfound),
    of_decide_eq_true (List.find?_some hfound :)⟩

/-- Nobody but the one that has an address is found to have it. -/
theorem holder?_all (h : ∀ other, s.Holds other ip → other = mac) :
    (s.holder? ip).all (· == mac) = true := by
  rw [Option.all_eq_true]
  exact fun other hother => beq_iff_eq.2 (h other (holds_of_holder? hother))

/-- The holder that is found is the only one. -/
theorem Exclusive.eq_of_holder? (h : s.Exclusive) (hmac : (s.holder? ip).all (· == mac) = true)
    {other : Mac} (hholds : s.Holds other ip) : other = mac := by
  obtain ⟨first, hfirst⟩ : ∃ first, s.holder? ip = some first := by
    obtain ⟨lease, hlease, rfl⟩ := hholds
    rw [← Option.isSome_iff_exists, holder?, Option.isSome_map, List.find?_isSome]
    exact ⟨(other, lease), SortedMap.get?_eq_some_iff.1 hlease, decide_eq_true rfl⟩
  rw [hfirst, Option.all_some, beq_iff_eq] at hmac
  exact (h hholds (holds_of_holder? hfirst)).trans hmac

/-- **A message gives its sender an address that nobody else has.** -/
theorem Exclusive.handle (h : s.Exclusive) (msg : Message) (params : Params) (now : Nat) :
    (s.handle msg params now).value.2.Exclusive := by
  have hanswers := s.answers msg params now
  generalize (s.handle msg params now).value.2 = s' at hanswers ⊢
  have hsender {other : Mac} {ip : Ipv4Addr} (hs : s'.Holds msg.chaddr ip)
      (ho : s'.Holds other ip) : other = msg.chaddr := by
    by_cases hne : other = msg.chaddr
    · exact hne
    · rcases hanswers.origin hs with hold | ⟨-, hfree⟩
      · exact h ((hanswers.holds_iff_of_ne hne).1 ho) hold
      · exact h.eq_of_holder? hfree ((hanswers.holds_iff_of_ne hne).1 ho)
  intro a b ip ha hb
  by_cases hsa : a = msg.chaddr
  · subst hsa
    exact (hsender ha hb).symm
  · by_cases hsb : b = msg.chaddr
    · subst hsb
      exact hsender hb ha
    · exact h ((hanswers.holds_iff_of_ne hsa).1 ha) ((hanswers.holds_iff_of_ne hsb).1 hb)

/-- An event leaves addresses with one client each. -/
theorem Exclusive.step (h : s.Exclusive) (hstep : s.Step e s') : s'.Exclusive := by
  cases hstep with
  | message msg params now => exact h.handle msg params now
  | maintenance now => exact fun a b ip ha hb => h (holds_of_maintain ha) (holds_of_maintain hb)
  | succession => exact h

theorem Exclusive.run (h : s.Exclusive) (hrun : Run s events s') : s'.Exclusive := by
  induction hrun with
  | nil => exact h
  | cons hstep _ ih => exact ih (h.step hstep)

theorem exclusive_of_empty (hempty : s.leases = ∅) : s.Exclusive := by
  rintro a b ip ⟨lease, hlease, -⟩
  rw [hempty] at hlease
  cases hlease

/-! ## Leases that last -/

/-- A client that is spared keeps its address and the time that its lease ends. -/
theorem Step.spares (h : s.Step e s') (hspares : e.Spares mac lease.expires)
    (hlease : s.leases.get? mac = some lease) : ∃ kept, s'.leases.get? mac = some kept ∧
      kept.ip = lease.ip ∧ kept.expires = lease.expires := by
  cases h with
  | message msg params now =>
    have hanswers := s.answers msg params now
    exact ⟨lease, (hanswers.get?_of_ne (Ne.symm hspares)).trans hlease, rfl, rfl⟩
  | maintenance now =>
    exact ⟨age now lease, get?_maintain.2 ⟨lease, hlease, hspares, rfl⟩, ip_age now lease,
      expires_age now lease⟩
  | succession => exact ⟨lease, hlease, rfl, rfl⟩

theorem Run.spares (h : Run s events s') (hspares : ∀ e ∈ events, e.Spares mac lease.expires)
    (hlease : s.leases.get? mac = some lease) : ∃ kept, s'.leases.get? mac = some kept ∧
      kept.ip = lease.ip ∧ kept.expires = lease.expires := by
  induction h generalizing lease with
  | nil => exact ⟨lease, hlease, rfl, rfl⟩
  | cons hstep _ ih =>
    obtain ⟨hfirst, hrest⟩ := List.forall_mem_cons.1 hspares
    obtain ⟨next, hnext, hip, hexpires⟩ := hstep.spares hfirst hlease
    obtain ⟨kept, hkept, hkip, hkexpires⟩ := ih (hexpires ▸ hrest) hnext
    exact ⟨kept, hkept, hkip.trans hip, hkexpires.trans hexpires⟩

/-- **No address is leased twice.** Whatever has happened to a server that began without leases, no
two clients hold one address; nobody is assigned an address that another client holds; and a client
that holds one keeps it until it is heard again or its lease ends. -/
theorem Run.exclusive (hempty : start.leases = ∅) (hrun : Run start events s) :
    s.Exclusive ∧
    (∀ msg params now answer s', (s.handle msg params now).value = (some answer, s') →
      Assigns msg answer → ∀ mac, s.Holds mac answer.yiaddr ∨ s'.Holds mac answer.yiaddr →
        mac = msg.chaddr) ∧
    ∀ mac lease, s.leases.get? mac = some lease → ∀ later s', Run s later s' →
      (∀ e ∈ later, e.Spares mac lease.expires) → s'.Holds mac lease.ip := by
  have hexclusive := (exclusive_of_empty hempty).run hrun
  refine ⟨hexclusive, fun msg params now answer s' hhandle hassigns mac hholds => ?_,
    fun mac lease hlease later s' hlater hspares => ?_⟩
  · have hanswers := answers_of_handle hhandle
    have hafter : s'.Exclusive := by
      have hstep := hexclusive.handle msg params now
      rwa [hhandle] at hstep
    have hsender := hanswers.holds_assigned hassigns
    by_cases hmac : mac = msg.chaddr
    · exact hmac
    · exact hafter (hholds.elim (hanswers.holds_iff_of_ne hmac).2 id) hsender
  · obtain ⟨kept, hkept, hip, -⟩ := hlater.spares hspares hlease
    exact ⟨kept, hkept, hip⟩

end

/-! ## A small pool -/

namespace SmallPool

/-- A server with two addresses, which it offers for ten seconds and leases for five. -/
def server : DhcpServer :=
  .ofConfig { first := .ofOctets 10 0 1 100, last := .ofOctets 10 0 1 101, leaseTimeSec := 5 } 10000

/-- The length of the prefix of its domain's addresses. -/
def bits : Nat := 24

/-- The addresses of its domain. -/
def params : Params where
  interface := ⟨.ofOctets 10 0 1 1, bits, by decide⟩

/-- The first address of the pool. -/
def ip : Ipv4Addr := .ofOctets 10 0 1 100

/-- The addresses of its domain once the router has that address. -/
def moved : Params where
  interface := ⟨ip, bits, by decide⟩

/-- The hardware address of a client. -/
def client : Mac := ⟨2, 0, 0, 0, 0, 10⟩

/-- The hardware address of another client. -/
def rival : Mac := ⟨2, 0, 0, 0, 0, 11⟩

/-- A client looks for a server. -/
def discover (mac : Mac) : Message :=
  .make .client .discover 0 mac

/-- The client asks for the first address. -/
def history : List Event :=
  [.message (requestFor client ip params) params 0]

/-- The server after the client was bound to the first address. -/
def bound : DhcpServer :=
  (server.handle (requestFor client ip params) params 0).value.2

theorem run_bound : Run server history bound :=
  .cons (.message ..) (.nil _)

theorem get?_bound : bound.leases.get? client = some (server.boundLease ip 0) := by
  decide +kernel

end SmallPool

/-- The client's address is its own until its lease ends, and the rival is offered another one. -/
theorem exclusive_smallPool : SmallPool.server.leases = ∅ ∧
    Run SmallPool.server SmallPool.history SmallPool.bound ∧
    SmallPool.bound.Exclusive ∧
    ((SmallPool.bound.handle (SmallPool.discover SmallPool.rival) SmallPool.params 1000).value.1.map
      (·.yiaddr)) = some (.ofOctets 10 0 1 101) ∧
    ∀ later s', Run SmallPool.bound later s' → (∀ e ∈ later, e.Spares SmallPool.client 5000) →
      s'.Holds SmallPool.client SmallPool.ip := by
  have h := Run.exclusive rfl SmallPool.run_bound
  exact ⟨rfl, SmallPool.run_bound, h.1, by decide +kernel,
    h.2.2 SmallPool.client _ SmallPool.get?_bound⟩

end SegmentRouter.DhcpServer
