import SegmentRouter.Proofs.Dhcp.Tenancy

/-!
# Proofs/Dhcp/Phases — the phases of a client

Between two calls a client has a lease exactly while it is bound or renewing, and an offer while it
requests one (`DhcpClient.WellFormed`), however it was called before.  So it always has what it
requests (`DhcpClient.HasRequest`), and never falls back from a request to a question for servers.
What a client does in such a state is `Arises.orderly`: it asks for servers only to begin a
transaction or to repeat the question, listens only to answers to its own transaction, takes
addresses only from an acknowledgement that it waits for, and keeps no lease that has ended.
-/

namespace SegmentRouter

open Wire.Dhcp (Message)

/-- The message that a client wants sent. -/
def DhcpAction.message? : DhcpAction → Option Message
  | .broadcast msg | .unicast msg _ => some msg
  | .configure _ | .deconfigure | .none => Option.none

namespace DhcpClient

variable {c : DhcpClient} {call : DhcpCall} {config : IpConfig} {msg : Message} {fresh : UInt32}
  {now : Nat}

/-! ## Requests -/

/-- The client has in its phase what a request is for: an offer, or a lease. -/
def HasRequest (c : DhcpClient) : Prop :=
  c.phase = .requesting ∧ c.offer.isSome = true ∨ c.phase = .renewing ∧ c.lease.isSome = true

/-- **A client that has something to request requests it**, and stays what it is. -/
theorem sendRequest_of_hasRequest (h : c.HasRequest) (now : Nat) :
    (∃ m, (c.sendRequest now).1.message? = some m ∧ m.kind? = some .request) ∧
      (c.sendRequest now).2 = { c with lastSent := some now } := by
  obtain ⟨hphase, hoffer⟩ | ⟨hphase, hlease⟩ := h
  · obtain ⟨⟨ip, server⟩, hoffer⟩ := Option.isSome_iff_exists.1 hoffer
    unfold sendRequest
    rw [hphase, hoffer]
    exact ⟨⟨_, rfl, rfl⟩, rfl⟩
  · obtain ⟨lease, hlease⟩ := Option.isSome_iff_exists.1 hlease
    unfold sendRequest
    rw [hphase, hlease]
    exact ⟨⟨_, rfl, rfl⟩, rfl⟩

/-! ## States between calls -/

/-- **A client has a lease exactly while it is bound or renewing, and an offer while it requests
one.** -/
structure WellFormed (c : DhcpClient) : Prop where
  phased : c.Phased
  offered : c.phase = .requesting → c.offer.isSome = true

theorem WellFormed.hasRequest (h : c.WellFormed)
    (hphase : c.phase = .requesting ∨ c.phase = .renewing) : c.HasRequest := by
  obtain hrequesting | hrenewing := hphase
  · exact .inl ⟨hrequesting, h.offered hrequesting⟩
  · refine .inr ⟨hrenewing, h.phased.trans ?_⟩
    rw [hrenewing]
    rfl

/-- What a client has asked for it can ask for again. -/
theorem WellFormed.hasRequest_again (h : c.WellFormed)
    (hphase : c.phase = .requesting ∨ c.phase = .renewing) :
    ({ c with retries := c.retries + 1 } : DhcpClient).HasRequest :=
  h.hasRequest hphase

theorem hasRequest_renewing {lease : ClientLease} (h : c.lease = some lease) :
    ({ c with phase := .renewing, retries := 0 } : DhcpClient).HasRequest :=
  .inr ⟨rfl, Option.isSome_of_eq_some h⟩

theorem hasRequest_offered (c : DhcpClient) (offer : Ipv4Addr × Ipv4Addr) :
    ({ c with offer := some offer, phase := .requesting, retries := 0 } : DhcpClient).HasRequest :=
  .inl ⟨rfl, rfl⟩

theorem offered_tick (h : c.WellFormed) (fresh : UInt32) (now : Nat)
    (hphase : (c.tick fresh now).value.2.phase = .requesting) :
    (c.tick fresh now).value.2.offer.isSome = true := by
  have hwaits := c.waits_tick fresh now
  generalize (c.tick fresh now).value = result at hwaits hphase ⊢
  cases hwaits with
  | idle => exact h.offered hphase
  | repeated hawaits =>
    rw [(sendRequest_of_hasRequest (h.hasRequest_again hawaits) now).2] at hphase ⊢
    exact h.offered hphase
  | renewing hbound hlease =>
    rw [(sendRequest_of_hasRequest (hasRequest_renewing hlease) now).2] at hphase
    cases hphase
  | expired | restarted | searched => cases hphase

theorem offered_handle (h : c.WellFormed) (msg : Message) (fresh : UInt32) (now : Nat)
    (hphase : (c.handle msg fresh now).value.2.phase = .requesting) :
    (c.handle msg fresh now).value.2.offer.isSome = true := by
  have hheeds := c.heeds_handle msg fresh now
  generalize (c.handle msg fresh now).value = result at hheeds hphase ⊢
  cases hheeds with
  | ignored => exact h.offered hphase
  | requested =>
    rw [(sendRequest_of_hasRequest (c.hasRequest_offered _) now).2]
    rfl
  | renewed | configured | spoiled | refused => cases hphase

/-- **A call leaves a client well-formed.** -/
theorem wellFormed_answer (h : c.WellFormed) (call : DhcpCall) : (c.answer call).2.WellFormed where
  phased := phased_answer h.phased call
  offered := match call with
    | .start _ _ => nofun
    | .tick fresh now => offered_tick h fresh now
    | .handle msg fresh now => offered_handle h msg fresh now

/-- The client after a sequence of calls. -/
def run (c : DhcpClient) (calls : List DhcpCall) : DhcpClient :=
  calls.foldl (fun c call => (c.answer call).2) c

/-- The client was new once, and has been called since. -/
def Arises (c : DhcpClient) : Prop :=
  ∃ mac xid calls, ({ mac, xid } : DhcpClient).run calls = c

theorem wellFormed_run (h : c.WellFormed) (calls : List DhcpCall) : (c.run calls).WellFormed := by
  induction calls generalizing c with
  | nil => exact h
  | cons call rest ih => exact ih (wellFormed_answer h call)

/-- **Every client is well-formed.** -/
theorem Arises.wellFormed (h : c.Arises) : c.WellFormed := by
  obtain ⟨mac, xid, calls, rfl⟩ := h
  have hnew : ({ mac, xid } : DhcpClient).WellFormed := { phased := rfl, offered := nofun }
  exact wellFormed_run hnew calls

/-! ## What a client does -/

/-- A lease is there in the phases that have one. -/
theorem WellFormed.isSome_lease_iff (h : c.WellFormed) :
    c.lease.isSome = true ↔ c.phase = .bound ∨ c.phase = .renewing := by
  rw [h.phased]
  cases c.phase <;> simp [DhcpPhase.isLeased]

/-- What is sent by a client that has something to request is no question for servers. -/
theorem HasRequest.ne_discover (h : c.HasRequest) (now : Nat)
    (hm : (c.sendRequest now).1.message? = some msg) : msg.kind? ≠ some .discover := by
  obtain ⟨⟨request, hrequest, hkind⟩, -⟩ := sendRequest_of_hasRequest h now
  obtain rfl := Option.some.inj (hrequest.symm.trans hm)
  rw [hkind]
  nofun

/-- **A question for servers begins a new transaction or repeats the last question.** -/
theorem WellFormed.discovers (h : c.WellFormed) (hm : (c.answer call).1.message? = some msg)
    (hkind : msg.kind? = some .discover) :
    c.answer call = (c.start call.fresh call.now).value ∨
      c.phase = .selecting ∧ call = .tick call.fresh call.now := by
  cases call with
  | start => exact .inl rfl
  | tick fresh now =>
    have hwaits := c.waits_tick fresh now
    rw [answer] at hm ⊢
    generalize (c.tick fresh now).value = result at hwaits hm ⊢
    cases hwaits with
    | restarted => exact .inl rfl
    | searched hphase => exact .inr ⟨hphase, rfl⟩
    | repeated hawaits => exact absurd hkind ((h.hasRequest_again hawaits).ne_discover now hm)
    | renewing hbound hlease =>
      exact absurd hkind ((hasRequest_renewing hlease).ne_discover now hm)
    | idle | expired => cases hm
  | handle answered fresh now =>
    have hheeds := c.heeds_handle answered fresh now
    rw [answer] at hm ⊢
    generalize (c.handle answered fresh now).value = result at hheeds hm ⊢
    cases hheeds with
    | spoiled => exact .inl rfl
    | refused =>
      -- with a lease the client gives up its addresses first, and asks when time passes
      dsimp only at hm ⊢
      split at hm
      · cases hm
      · rename_i hbound
        rw [if_neg hbound]
        exact .inl rfl
    | requested => exact absurd hkind ((c.hasRequest_offered _).ne_discover now hm)
    | ignored | renewed | configured => cases hm

/-- **Only an answer to the client's own transaction does anything.** -/
theorem isAddressed_of_handle (h : (c.handle msg fresh now).value ≠ (.none, c)) :
    msg.sender = .server ∧ msg.xid = c.xid ∧ msg.chaddr = c.mac := by
  have haddressed : c.isAddressed msg = true := by
    refine Classical.byContradiction fun hnot => h ?_
    rw [handle, if_neg hnot]
    rfl
  simpa [isAddressed, and_assoc] using haddressed

/-- Time takes addresses, it gives none. -/
theorem asksFor?_tick (c : DhcpClient) (fresh : UInt32) (now : Nat) :
    (c.tick fresh now).value.1.asksFor? ≠ some (some config) := by
  have hwaits := c.waits_tick fresh now
  generalize (c.tick fresh now).value = result at hwaits ⊢
  cases hwaits with
  | repeated | renewing =>
    rw [asksFor?_sendRequest]
    nofun
  | idle | expired | restarted | searched => nofun

/-- **Addresses are taken from an acknowledgement that the client waits for.** -/
theorem grants_of_handle
    (h : (c.handle msg fresh now).value.1.asksFor? = some (some config)) :
    msg.kind? = some .ack ∧ (c.phase = .requesting ∨ c.phase = .renewing) ∧
      config.interface.addr = msg.yiaddr ∧ config.Gated := by
  have hheeds := c.heeds_handle msg fresh now
  generalize (c.handle msg fresh now).value = result at hheeds h
  cases hheeds with
  | configured haddressed hkind hphase hgrant =>
    obtain rfl := Option.some.inj (Option.some.inj h)
    exact ⟨hkind, hphase, config_leaseOf? hgrant⟩
  | requested =>
    rw [asksFor?_sendRequest] at h
    cases h
  | refused =>
    dsimp only at h
    split at h <;> cases h
  | ignored | renewed | spoiled => cases h

theorem configure_of_answer (h : (c.answer call).1 = .configure config) :
    ∃ msg fresh now, call = .handle msg fresh now ∧ msg.kind? = some .ack ∧
      (c.phase = .requesting ∨ c.phase = .renewing) ∧ config.interface.addr = msg.yiaddr ∧
      config.Gated := by
  have hask : (c.answer call).1.asksFor? = some (some config) := congrArg DhcpAction.asksFor? h
  cases call with
  | start => cases hask
  | tick fresh now => exact absurd hask (c.asksFor?_tick fresh now)
  | handle msg fresh now => exact ⟨msg, fresh, now, rfl, grants_of_handle hask⟩

/-- **A lease that time leaves has not ended.** -/
theorem isCurrent_tick (c : DhcpClient) (fresh : UInt32) (now : Nat) :
    (c.tick fresh now).value.2.IsCurrent now := by
  have hwaits := c.waits_tick fresh now
  generalize (c.tick fresh now).value = result at hwaits ⊢
  cases hwaits with
  | idle hcurrent | searched hphase hcurrent => exact hcurrent
  | repeated hphase hcurrent | renewing hphase hlease hcurrent =>
    unfold IsCurrent
    rw [lease_sendRequest]
    exact hcurrent
  | expired | restarted => exact nofun

/-- **Clients are in order**, whatever calls have brought them about. -/
theorem Arises.orderly (h : c.Arises) :
    (c.lease.isSome = true ↔ c.phase = .bound ∨ c.phase = .renewing) ∧
    (c.phase = .requesting → c.offer.isSome = true) ∧
    (∀ call m, (c.answer call).1.message? = some m → m.kind? = some .discover →
      c.answer call = (c.start call.fresh call.now).value ∨
        c.phase = .selecting ∧ call = .tick call.fresh call.now) ∧
    (∀ msg fresh now, (c.handle msg fresh now).value ≠ (.none, c) →
      msg.sender = .server ∧ msg.xid = c.xid ∧ msg.chaddr = c.mac) ∧
    (∀ call config, (c.answer call).1 = .configure config →
      ∃ msg fresh now, call = .handle msg fresh now ∧ msg.kind? = some .ack ∧
        (c.phase = .requesting ∨ c.phase = .renewing) ∧ config.interface.addr = msg.yiaddr ∧
        config.Gated) ∧
    ∀ fresh now lease, (c.tick fresh now).value.2.lease = some lease →
      now - lease.obtained < lease.expireAfter :=
  have hwf := h.wellFormed
  ⟨hwf.isSome_lease_iff, hwf.offered, fun _ _ => hwf.discovers,
    fun _ _ _ => isAddressed_of_handle, fun _ _ => configure_of_answer,
    fun fresh now => c.isCurrent_tick fresh now⟩

open Tenant in
/-- A client that requests what it was offered for a hundred seconds. -/
def shortOffered : DhcpClient :=
  run { mac := ShortLease.mac, xid := 0 } [.start 1 0, .handle (ShortLease.reply .offer) 2 0]

open Tenant in
/-- An offer is recorded, the grant is taken up, and halfway the lease is still there. -/
theorem orderly_shortOffered : shortOffered.Arises ∧ shortOffered.phase = .requesting ∧
    shortOffered.offer.isSome = true ∧
    (∃ config, (shortOffered.answer (.handle ShortLease.grant 2 0)).1 = .configure config ∧
      config.interface.addr = .ofOctets 10 0 1 100 ∧ config.Gated) ∧
    ∃ lease, ((shortOffered.run [.handle ShortLease.grant 2 0]).tick 2 50000).value.2.lease =
      some lease ∧ 50000 - lease.obtained < lease.expireAfter := by
  have harises : shortOffered.Arises := ⟨_, _, _, rfl⟩
  have hbound : (shortOffered.run [.handle ShortLease.grant 2 0]).Arises :=
    ⟨_, _, [.start 1 0, .handle (ShortLease.reply .offer) 2 0,
      .handle ShortLease.grant 2 0], rfl⟩
  have hphase : shortOffered.phase = .requesting := by decide +kernel
  have hgrant : (shortOffered.answer (.handle ShortLease.grant 2 0)).1 =
      .configure ⟨⟨.ofOctets 10 0 1 100, 24, by decide⟩, none, none⟩ := by decide +kernel
  obtain ⟨-, hoffered, -, -, hconfigured, -⟩ := Arises.orderly harises
  obtain ⟨-, -, -, -, -, hcurrent⟩ := Arises.orderly hbound
  obtain ⟨_, _, _, -, -, -, -, hgated⟩ := hconfigured _ _ hgrant
  have hlease : ((shortOffered.run [.handle ShortLease.grant 2 0]).tick 2
      50000).value.2.lease.isSome = true := by decide +kernel
  obtain ⟨lease, hlease⟩ := Option.isSome_iff_exists.1 hlease
  exact ⟨harises, hphase, hoffered hphase, ⟨_, hgrant, rfl, hgated⟩, lease, hlease,
    hcurrent 2 50000 lease hlease⟩

end DhcpClient

end SegmentRouter
