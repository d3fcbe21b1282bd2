import SegmentRouter.Dhcp.Client

/-!
# Proofs/Dhcp/Calls — what a client does when it is called

A client is told to begin, time passes for it, or a message comes in.  What it does about time
(`DhcpClient.Waits`) and about messages (`DhcpClient.Heeds`) is listed here once, with what led to
it; all that is true of clients at any time follows from these lists.
-/

namespace SegmentRouter

open Wire.Dhcp (Message)

/-- A client is called: it is to begin, time has passed, or a message has come in. -/
inductive DhcpCall where
  | start (fresh : UInt32) (now : Nat)
  | tick (fresh : UInt32) (now : Nat)
  | handle (msg : Message) (fresh : UInt32) (now : Nat)

/-- The number of a transaction that the call may begin. -/
def DhcpCall.fresh : DhcpCall → UInt32
  | start fresh _ | tick fresh _ | handle _ fresh _ => fresh

/-- The time of a call. -/
def DhcpCall.now : DhcpCall → Nat
  | start _ now | tick _ now | handle _ _ now => now

/-- The gateway, if there is one, lies in the subnet. -/
def IpConfig.Gated (c : IpConfig) : Prop :=
  ∀ gateway, c.gateway = some gateway → c.interface.contains gateway = true

namespace DhcpClient

variable {c : DhcpClient} {msg : Message} {fresh : UInt32} {now : Nat} {lease : ClientLease}

/-- What the client does when it is called, and the client after it. -/
def answer (c : DhcpClient) : DhcpCall → DhcpAction × DhcpClient
  | .start fresh now => (c.start fresh now).value
  | .tick fresh now => (c.tick fresh now).value
  | .handle msg fresh now => (c.handle msg fresh now).value

/-! ## Leases -/

/-- The lease of the client, if it has one, has not ended. -/
def IsCurrent (c : DhcpClient) (now : Nat) : Prop :=
  ∀ lease, c.lease = some lease → now - lease.obtained < lease.expireAfter

theorem leaseOf?_eq_none_iff :
    leaseOf? msg now = none ↔ msg.yiaddr = .unspecified ∨ msg.subnetMask? = none := by
  unfold leaseOf?
  split
  · rename_i hip
    exact iff_of_true rfl (.inl hip)
  · rename_i hip
    split
    · rename_i hmask
      exact iff_of_true rfl (.inr hmask)
    · rename_i mask hmask
      exact iff_of_false nofun fun h => h.elim hip fun hnone => nomatch hmask.symm.trans hnone

/-- **A lease is for the address that is granted**, and its gateway is believed only if it lies in
the subnet. -/
theorem config_leaseOf? (h : leaseOf? msg now = some lease) :
    lease.config.interface.addr = msg.yiaddr ∧ lease.config.Gated := by
  unfold leaseOf? at h
  split at h
  · cases h
  · split at h
    · cases h
    · obtain rfl := Option.some.inj h
      exact ⟨rfl, fun gateway hg => (Option.filter_eq_some_iff.1 hg).2⟩

/-! ## Time -/

/-- **What a client does as time passes.** -/
inductive Waits (c : DhcpClient) (fresh : UInt32) (now : Nat) : DhcpAction × DhcpClient → Prop
  | idle (hcurrent : c.IsCurrent now) : Waits c fresh now (.none, c)
  | expired {lease : ClientLease} (hlease : c.lease = some lease)
      (hended : lease.expireAfter ≤ now - lease.obtained) :
      Waits c fresh now (.deconfigure, (c.start fresh now).value.2)
  | restarted (h : c.phase = .init ∨ c.lease = none) : Waits c fresh now (c.start fresh now).value
  | searched (hphase : c.phase = .selecting) (hcurrent : c.IsCurrent now) :
      Waits c fresh now ({ c with retries := c.retries + 1 }.sendDiscover now)
  | repeated (hphase : c.phase = .requesting ∨ c.phase = .renewing)
      (hcurrent : c.IsCurrent now) :
      Waits c fresh now ({ c with retries := c.retries + 1 }.sendRequest now)
  | renewing {lease : ClientLease} (hphase : c.phase = .bound) (hlease : c.lease = some lease)
      (hcurrent : c.IsCurrent now) (hdue : lease.renewAfter ≤ now - lease.obtained) :
      Waits c fresh now ({ c with phase := .renewing, retries := 0 }.sendRequest now)

theorem waits_repeatOverdue (hcurrent : c.IsCurrent now) (fresh : UInt32) :
    c.Waits fresh now (c.repeatOverdue fresh now).value := by
  have hretry (hphase : c.phase = .requesting ∨ c.phase = .renewing) :
      c.Waits fresh now (if c.isOverdue now then
        if maxRetries ≤ c.retries ∧ c.lease.isNone then c.start fresh now
        else return { c with retries := c.retries + 1 }.sendRequest now
        else return (.none, c) : Logged (DhcpAction × DhcpClient)).value := by
    split
    · split
      · rename_i hgive
        exact .restarted (.inr (Option.isNone_iff_eq_none.1 hgive.2))
      · exact .repeated hphase hcurrent
    · exact .idle hcurrent
  unfold repeatOverdue
  split
  · rename_i hphase
    exact .restarted (.inl hphase)
  · exact .idle hcurrent
  · rename_i hphase
    split
    · exact .searched hphase hcurrent
    · exact .idle hcurrent
  · rename_i hphase
    exact hretry (.inl hphase)
  · rename_i hphase
    exact hretry (.inr hphase)

theorem waits_tick (c : DhcpClient) (fresh : UInt32) (now : Nat) :
    c.Waits fresh now (c.tick fresh now).value := by
  unfold tick
  split
  · rename_i hnone
    exact waits_repeatOverdue (fun lease hlease => nomatch hnone.symm.trans hlease) fresh
  · rename_i lease hlease
    split
    · rename_i hended
      exact .expired hlease hended
    · rename_i hyoung
      have hcurrent : c.IsCurrent now := fun other hother => by
        obtain rfl := Option.some.inj (hlease.symm.trans hother)
        exact Nat.lt_of_not_le hyoung
      split
      · rename_i hdue
        exact .renewing hdue.1 hlease hcurrent hdue.2
      · exact waits_repeatOverdue hcurrent fresh

/-! ## Messages -/

/-- **What a client does about a message**, and when. -/
inductive Heeds (c : DhcpClient) (msg : Message) (fresh : UInt32) (now : Nat) :
    DhcpAction × DhcpClient → Prop
  | ignored : Heeds c msg fresh now (.none, c)
  /-- What is offered is requested. -/
  | requested {server : Ipv4Addr} (haddressed : c.isAddressed msg = true)
      (hkind : msg.kind? = some .offer) (hphase : c.phase = .selecting)
      (hserver : msg.serverId? = some server) :
      Heeds c msg fresh now ({ c with
        offer := some (msg.yiaddr, server), phase := .requesting, retries := 0 }.sendRequest now)
  /-- A lease is renewed, and the addresses stay what they are. -/
  | renewed {lease : ClientLease} (haddressed : c.isAddressed msg = true)
      (hkind : msg.kind? = some .ack) (hphase : c.phase = .renewing)
      (hgrant : leaseOf? msg now = some lease)
      (hsame : c.lease.map (·.config) = some lease.config) :
      Heeds c msg fresh now (.none, { c with lease := some lease, phase := .bound })
  | configured {lease : ClientLease} (haddressed : c.isAddressed msg = true)
      (hkind : msg.kind? = some .ack) (hphase : c.phase = .requesting ∨ c.phase = .renewing)
      (hgrant : leaseOf? msg now = some lease) :
      Heeds c msg fresh now
        (.configure lease.config, { c with lease := some lease, phase := .bound, retries := 0 })
  /-- Nothing usable is granted. -/
  | spoiled (haddressed : c.isAddressed msg = true) (hkind : msg.kind? = some .ack)
      (hphase : c.phase = .requesting ∨ c.phase = .renewing) (hgrant : leaseOf? msg now = none) :
      Heeds c msg fresh now (c.start fresh now).value
  | refused (haddressed : c.isAddressed msg = true) (hkind : msg.kind? = some .nak)
      (hphase : c.phase = .requesting ∨ c.phase = .renewing) :
      Heeds c msg fresh now
        (if c.isBound then .deconfigure else (c.start fresh now).value.1,
          (c.start fresh now).value.2)

theorem heeds_accept (haddressed : c.isAddressed msg = true) (hkind : msg.kind? = some .offer)
    (hphase : c.phase = .selecting) (fresh : UInt32) (now : Nat) :
    c.Heeds msg fresh now (c.accept msg now).value := by
  unfold accept
  split
  · exact .ignored
  · rename_i server hserver
    exact .requested haddressed hkind hphase hserver

theorem heeds_acknowledge (haddressed : c.isAddressed msg = true)
    (hkind : msg.kind? = some .ack) (hphase : c.phase = .requesting ∨ c.phase = .renewing)
    (fresh : UInt32) (now : Nat) :
    c.Heeds msg fresh now (c.acknowledge msg fresh now).value := by
  unfold acknowledge
  split
  · rename_i hgrant
    exact .spoiled haddressed hkind hphase hgrant
  · rename_i lease hgrant
    dsimp only
    split
    · rename_i hsame
      exact .renewed haddressed hkind hsame.1 hgrant hsame.2
    · exact .configured haddressed hkind hphase hgrant

theorem heeds_handle (c : DhcpClient) (msg : Message) (fresh : UInt32) (now : Nat) :
    c.Heeds msg fresh now (c.handle msg fresh now).value := by
  unfold handle
  split
  · rename_i haddressed
    split
    · rename_i hkind hphase
      exact heeds_accept haddressed hkind hphase fresh now
    · rename_i hkind hphase
      exact heeds_acknowledge haddressed hkind (.inl hphase) fresh now
    · rename_i hkind hphase
      exact heeds_acknowledge haddressed hkind (.inr hphase) fresh now
    · rename_i hkind hphase
      exact .refused haddressed hkind (.inl hphase)
    · rename_i hkind hphase
      exact .refused haddressed hkind (.inr hphase)
    · exact .ignored
  · exact .ignored

end DhcpClient

end SegmentRouter
