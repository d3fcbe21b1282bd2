import SegmentRouter.Proofs.Dhcp.Calls

/-!
# Proofs/Dhcp/Tenancy — the addresses in use and the lease behind them

A client keeps its lease to itself; what the domain uses follows from the actions that the client
returns.  The two agree after each call (`Tenant.mirrors_iff`), with one exception: if a renewal is
acknowledged without an address or a mask, the client drops its lease and looks for a server, and
the addresses stay in use.

The proof is by what a call can do (`DhcpClient.Conducts`) to a client that has a lease exactly
while it is bound or renewing (`DhcpClient.Phased`).
-/

namespace SegmentRouter

open Wire.Dhcp (Message)

/-- The addresses that a client asks for, or that it asks for none. -/
def DhcpAction.asksFor? : DhcpAction → Option (Option IpConfig)
  | .configure config => some (some config)
  | .deconfigure => some Option.none
  | .broadcast _ | .unicast .. | .none => Option.none

/-- Whether a client has a lease in a phase. -/
def DhcpPhase.isLeased : DhcpPhase → Bool
  | .bound | .renewing => true
  | .init | .selecting | .requesting => false

namespace DhcpClient

variable {c after : DhcpClient} {msg : Message} {fresh : UInt32} {now : Nat} {call : DhcpCall}
  {action : DhcpAction}

/-- The client has a lease exactly while it is bound or renewing. -/
def Phased (c : DhcpClient) : Prop :=
  c.lease.isSome = c.phase.isLeased

/-- A client is only told to begin when it has no lease. -/
def Admits (c : DhcpClient) : DhcpCall → Prop
  | .start .. => c.lease = none
  | .tick .. | .handle .. => True

/-- **The renewal of a lease is acknowledged without an address or without a mask.** -/
def Spoiled (c : DhcpClient) : DhcpCall → Prop
  | .handle msg _ _ => c.isAddressed msg = true ∧ msg.kind? = some .ack ∧ c.phase = .renewing ∧
      (msg.yiaddr = .unspecified ∨ msg.subnetMask? = none)
  | .start .. | .tick .. => False

instance : Decidable (c.Admits call) :=
  match call with
  | .start .. => inferInstanceAs (Decidable (c.lease = none))
  | .tick .. | .handle .. => .isTrue trivial

instance : Decidable (c.Spoiled call) :=
  match call with
  | .handle msg _ _ => inferInstanceAs (Decidable (c.isAddressed msg = true ∧
      msg.kind? = some .ack ∧ c.phase = .renewing ∧
      (msg.yiaddr = .unspecified ∨ msg.subnetMask? = none)))
  | .start .. | .tick .. => .isFalse id

theorem Spoiled.isLeased (h : c.Spoiled call) : c.phase.isLeased = true := by
  cases call with
  | start | tick => exact h.elim
  | handle => rw [h.2.2.1]; rfl

/-- **What a call does to a lease**, and which addresses the client asks for. -/
inductive Conducts (c : DhcpClient) : DhcpAction × DhcpClient → Prop
  | kept {action : DhcpAction} {after : DhcpClient} (hlease : after.lease = c.lease)
      (hphase : after.phase.isLeased = c.phase.isLeased) (hask : action.asksFor? = none) :
      Conducts c (action, after)
  | renewed {lease : ClientLease} {after : DhcpClient} (hlease : after.lease = some lease)
      (hphase : after.phase = .bound) (hsame : c.lease.map (·.config) = some lease.config) :
      Conducts c (.none, after)
  | bound {lease : ClientLease} {after : DhcpClient} (hlease : after.lease = some lease)
      (hphase : after.phase = .bound) : Conducts c (.configure lease.config, after)
  | ended {after : DhcpClient} (hlease : after.lease = none) (hphase : after.phase = .selecting) :
      Conducts c (.deconfigure, after)

/-! ## The parts of a call -/

theorem Phased.lease_eq_none (h : c.Phased) (hphase : c.phase.isLeased = false) :
    c.lease = none :=
  Option.not_isSome_iff_eq_none.1 (Bool.eq_false_iff.1 (h.trans hphase))

theorem conducts_idle (c : DhcpClient) : c.Conducts (.none, c) :=
  .kept rfl rfl rfl

theorem conducts_start (hphased : c.Phased) (hlease : c.lease = none) (fresh : UInt32)
    (now : Nat) : c.Conducts (c.start fresh now).value := by
  refine .kept hlease.symm ?_ rfl
  rw [← hphased, hlease]
  rfl

theorem asksFor?_sendRequest (c : DhcpClient) (now : Nat) :
    (c.sendRequest now).1.asksFor? = none := by
  unfold sendRequest
  dsimp only
  split
  · rfl
  · split <;> rfl

theorem lease_sendRequest (c : DhcpClient) (now : Nat) :
    (c.sendRequest now).2.lease = c.lease := by
  unfold sendRequest
  dsimp only
  split
  · rfl
  · split <;> rfl

/-- A client that renews, or requests what it was offered, goes on to; one with nothing to request
looks for a server again. -/
theorem isLeased_sendRequest (hphased : c.Phased) (hphase : c.phase ≠ .bound) (now : Nat) :
    (c.sendRequest now).2.phase.isLeased = c.phase.isLeased := by
  unfold sendRequest
  dsimp only
  split
  · rfl
  · rename_i hnot
    split
    · rfl
    · have hlease : c.phase.isLeased = false := by
        cases hp : c.phase with
        | bound => exact absurd hp hphase
        | renewing =>
          rw [Phased, hp] at hphased
          obtain ⟨lease, hlease⟩ := Option.isSome_iff_exists.1 hphased
          exact (hnot lease hp hlease).elim
        | init | selecting | requesting => rfl
      rw [hlease]
      rfl

theorem conducts_sendRequest (sent : DhcpClient) (hphased : c.Phased)
    (hlease : sent.lease = c.lease) (hphase : sent.phase.isLeased = c.phase.isLeased)
    (hbound : sent.phase ≠ .bound) (now : Nat) : c.Conducts (sent.sendRequest now) := by
  have hsent : sent.Phased := by
    rw [Phased, hlease, hphase]
    exact hphased
  exact .kept ((sent.lease_sendRequest now).trans hlease)
    ((isLeased_sendRequest hsent hbound now).trans hphase) (sent.asksFor?_sendRequest now)

theorem conducts_handle (hphased : c.Phased) (hspoiled : ¬ c.Spoiled (.handle msg fresh now)) :
    c.Conducts (c.handle msg fresh now).value := by
  have hheeds := c.heeds_handle msg fresh now
  generalize (c.handle msg fresh now).value = result at hheeds ⊢
  cases hheeds with
  | ignored => exact c.conducts_idle
  | requested haddressed hkind hphase hserver =>
    exact conducts_sendRequest { c with offer := _, phase := .requesting, retries := 0 } hphased rfl
      (hphase ▸ rfl) nofun now
  | renewed haddressed hkind hphase hgrant hsame => exact .renewed rfl rfl hsame
  | configured => exact .bound rfl rfl
  | spoiled haddressed hkind hphase hgrant =>
    have hlease : c.lease = none := by
      obtain hrequesting | hrenewing := hphase
      · exact hphased.lease_eq_none (hrequesting ▸ rfl)
      · exact absurd ⟨haddressed, hkind, hrenewing, leaseOf?_eq_none_iff.1 hgrant⟩ hspoiled
    exact conducts_start hphased hlease fresh now
  | refused =>
    split
    · exact .ended rfl rfl
    · rename_i hbound
      rw [isBound, Option.not_isSome_iff_eq_none] at hbound
      exact conducts_start hphased hbound fresh now

theorem conducts_tick (hphased : c.Phased) (fresh : UInt32) (now : Nat) :
    c.Conducts (c.tick fresh now).value := by
  have hwaits := c.waits_tick fresh now
  generalize (c.tick fresh now).value = result at hwaits ⊢
  cases hwaits with
  | idle => exact c.conducts_idle
  | expired => exact .ended rfl rfl
  | restarted hnone =>
    exact conducts_start hphased
      (hnone.elim (fun hphase => hphased.lease_eq_none (hphase ▸ rfl)) id) fresh now
  | searched hphase => exact .kept rfl (hphase ▸ rfl) rfl
  | repeated hphase =>
    exact conducts_sendRequest { c with retries := c.retries + 1 } hphased rfl rfl
      (hphase.elim (fun h => h ▸ nofun) fun h => h ▸ nofun) now
  | renewing hphase =>
    exact conducts_sendRequest { c with phase := .renewing, retries := 0 } hphased rfl
      (hphase ▸ rfl) nofun now

/-- **What a call does that is not a spoiled renewal.** -/
theorem conducts_answer (hphased : c.Phased) (hadmits : c.Admits call)
    (hspoiled : ¬ c.Spoiled call) : c.Conducts (c.answer call) := by
  cases call with
  | start fresh now => exact conducts_start hphased hadmits fresh now
  | tick fresh now => exact conducts_tick hphased fresh now
  | handle msg fresh now => exact conducts_handle hphased hspoiled

/-- **A spoiled renewal ends the lease in use without a word.** -/
theorem answer_of_spoiled (hspoiled : c.Spoiled call) :
    ∃ discover, (c.answer call).1 = .broadcast discover ∧ (c.answer call).2.lease = none ∧
      (c.answer call).2.phase = .selecting := by
  cases call with
  | start | tick => exact hspoiled.elim
  | handle msg fresh now =>
    obtain ⟨haddressed, hkind, hphase, hnone⟩ := hspoiled
    have hanswer : c.answer (.handle msg fresh now) = (c.start fresh now).value := by
      rw [answer, handle, if_pos haddressed, hkind, hphase]
      dsimp only
      rw [acknowledge, leaseOf?_eq_none_iff.2 hnone]
      rfl
    rw [hanswer]
    exact ⟨_, rfl, rfl, rfl⟩

theorem Conducts.phased {result : DhcpAction × DhcpClient} (h : c.Conducts result)
    (hphased : c.Phased) : result.2.Phased := by
  cases h with
  | kept hlease hphase => rw [Phased, hlease, hphase, hphased]
  | renewed hlease hphase | bound hlease hphase | ended hlease hphase =>
    rw [Phased, hlease, hphase]
    rfl

/-- A call leaves a client with a lease exactly while it is bound or renewing. -/
theorem phased_answer (hphased : c.Phased) (call : DhcpCall) : (c.answer call).2.Phased := by
  by_cases hspoiled : c.Spoiled call
  · obtain ⟨-, -, hlease, hphase⟩ := answer_of_spoiled hspoiled
    rw [Phased, hlease, hphase]
    rfl
  · cases call with
    | start fresh now => rfl
    | tick fresh now => exact (conducts_tick hphased fresh now).phased hphased
    | handle msg fresh now => exact (conducts_handle hphased hspoiled).phased hphased

end DhcpClient

/-! ## The addresses in use -/

/-- A client, and the addresses in use on its account. -/
structure Tenant where
  client : DhcpClient
  config : Option IpConfig := none
deriving DecidableEq

namespace Tenant

/-- A client that has not been called yet. -/
def new (mac : Mac) (xid : UInt32) : Tenant where
  client := { mac, xid }

/-- The addresses in use are those of the lease. -/
def Mirrors (t : Tenant) : Prop :=
  t.config = t.client.lease.map (·.config)

/-- The tenant after a call: what the client asks for is done. -/
def after (t : Tenant) (call : DhcpCall) : Tenant where
  client := (t.client.answer call).2
  config := (t.client.answer call).1.asksFor?.getD t.config

/-- The tenant before the first of a sequence of calls, and after each of them. -/
def visits (t : Tenant) : List DhcpCall → List Tenant
  | [] => [t]
  | call :: rest => t :: (t.after call).visits rest

/-- Each of the calls is one that may be made when it is made. -/
def Admits (t : Tenant) : List DhcpCall → Prop
  | [] => True
  | call :: rest => t.client.Admits call ∧ (t.after call).Admits rest

/-- None of the calls is a spoiled renewal. -/
def Spared (t : Tenant) : List DhcpCall → Prop
  | [] => True
  | call :: rest => ¬ t.client.Spoiled call ∧ (t.after call).Spared rest

instance decidableAdmits : (t : Tenant) → (calls : List DhcpCall) → Decidable (t.Admits calls)
  | _, [] => .isTrue trivial
  | t, call :: rest =>
    have := decidableAdmits (t.after call) rest
    inferInstanceAs (Decidable (t.client.Admits call ∧ (t.after call).Admits rest))

instance decidableSpared : (t : Tenant) → (calls : List DhcpCall) → Decidable (t.Spared calls)
  | _, [] => .isTrue trivial
  | t, call :: rest =>
    have := decidableSpared (t.after call) rest
    inferInstanceAs (Decidable (¬ t.client.Spoiled call ∧ (t.after call).Spared rest))

variable {t u : Tenant} {call : DhcpCall} {calls : List DhcpCall}

/-- A spoiled renewal leaves addresses in use that are no longer the client's. -/
theorem not_mirrors_of_spoiled (hphased : t.client.Phased) (h : t.Mirrors)
    (hspoiled : t.client.Spoiled call) : ¬ (t.after call).Mirrors := by
  intro hafter
  obtain ⟨discover, haction, hlease, -⟩ := DhcpClient.answer_of_spoiled hspoiled
  have hnone : t.config = none := by
    rw [Mirrors, after, haction, hlease] at hafter
    exact hafter
  have hsome : t.client.lease.isSome = true := hphased.trans hspoiled.isLeased
  rw [Mirrors, hnone, eq_comm, Option.map_eq_none_iff] at h
  rw [h] at hsome
  cases hsome

/-- **A call leaves the addresses in use those of the lease, unless it is a spoiled renewal.** -/
theorem mirrors_after (hphased : t.client.Phased) (hadmits : t.client.Admits call)
    (h : t.Mirrors) : (t.after call).Mirrors ↔ ¬ t.client.Spoiled call := by
  refine ⟨fun hafter hspoiled => not_mirrors_of_spoiled hphased h hspoiled hafter, ?_⟩
  intro hspoiled
  have hconducts := DhcpClient.conducts_answer hphased hadmits hspoiled
  unfold after Mirrors
  generalize t.client.answer call = result at hconducts ⊢
  cases hconducts with
  | kept hlease hphase hask =>
    rw [hask, hlease]
    exact h
  | renewed hlease hphase hsame =>
    rw [hlease]
    exact h.trans hsame
  | bound hlease hphase | ended hlease hphase =>
    rw [hlease]
    rfl

/-- **A call that drops a lease gives up its addresses, unless it is a spoiled renewal.** -/
theorem deconfigures_iff (hphased : t.client.Phased) (hadmits : t.client.Admits call)
    (hlease : t.client.lease ≠ none) (hnone : (t.after call).client.lease = none) :
    (t.client.answer call).1 = .deconfigure ↔ ¬ t.client.Spoiled call := by
  constructor
  · intro haction hspoiled
    obtain ⟨discover, hbroadcast, -⟩ := DhcpClient.answer_of_spoiled hspoiled
    rw [haction] at hbroadcast
    cases hbroadcast
  · intro hspoiled
    have hconducts := DhcpClient.conducts_answer hphased hadmits hspoiled
    unfold after at hnone
    generalize t.client.answer call = result at hconducts hnone ⊢
    cases hconducts with
    | kept hkept => exact absurd (hkept.symm.trans hnone) hlease
    | renewed hsome | bound hsome => cases hsome.symm.trans hnone
    | ended => rfl

/-! ## Runs -/

/-- A client has a lease exactly while it is bound or renewing, throughout its calls. -/
theorem phased_visits (hphased : t.client.Phased) (hu : u ∈ t.visits calls) :
    u.client.Phased := by
  induction calls generalizing t with
  | nil =>
    rw [visits, List.mem_singleton] at hu
    exact hu ▸ hphased
  | cons call rest ih =>
    obtain rfl | hrest := List.mem_cons.1 hu
    · exact hphased
    · exact ih (DhcpClient.phased_answer hphased call) hrest

theorem mem_visits (t : Tenant) (calls : List DhcpCall) : t ∈ t.visits calls := by
  cases calls with
  | nil => exact List.mem_singleton.2 rfl
  | cons => exact List.mem_cons_self

theorem mirrors_visits_iff (hphased : t.client.Phased) (hadmits : t.Admits calls)
    (h : t.Mirrors) : (∀ u ∈ t.visits calls, u.Mirrors) ↔ t.Spared calls := by
  induction calls generalizing t with
  | nil => simpa [visits, Spared] using h
  | cons call rest ih =>
    have hstep := mirrors_after hphased hadmits.1 h
    have hrest := ih (DhcpClient.phased_answer hphased call) hadmits.2
    rw [visits, List.forall_mem_cons, Spared]
    constructor
    · rintro ⟨-, hvisits⟩
      have hafter : (t.after call).Mirrors := hvisits _ (mem_visits _ rest)
      exact ⟨hstep.1 hafter, (hrest hafter).1 hvisits⟩
    · rintro ⟨hspoiled, hspared⟩
      exact ⟨h, (hrest (hstep.2 hspoiled)).2 hspared⟩

/-- **The addresses in use are those of the lease, except for spoiled renewals.** They are after
every call of a new client exactly if no call is a spoiled renewal.  Whatever the calls, one that
ends a lease gives up its addresses, again exactly if it is no spoiled renewal. -/
theorem mirrors_iff (mac : Mac) (xid : UInt32) (hadmits : (new mac xid).Admits calls) :
    ((∀ t ∈ (new mac xid).visits calls, t.Mirrors) ↔ (new mac xid).Spared calls) ∧
    ∀ t ∈ (new mac xid).visits calls, ∀ call, t.client.Admits call →
      t.client.lease ≠ none → (t.after call).client.lease = none →
      ((t.client.answer call).1 = .deconfigure ↔ ¬ t.client.Spoiled call) := by
  have hphased : (new mac xid).client.Phased := rfl
  exact ⟨mirrors_visits_iff hphased hadmits rfl, fun t ht call hcall hlease hnone =>
    deconfigures_iff (phased_visits hphased ht) hcall hlease hnone⟩

namespace ShortLease

/-- The hardware address of a client. -/
def mac : Mac := ⟨2, 0, 0, 0, 0, 1⟩

/-- An answer of the server of 10.0.1.0/24 to the client's first question. -/
def reply (kind : Wire.Dhcp.Kind) : Message :=
  { Message.make .server kind 1 mac with yiaddr := .ofOctets 10 0 1 100 }
    |>.withIp Wire.Dhcp.serverIdCode (.ofOctets 10 0 1 1)
    |>.withWord Wire.Dhcp.leaseTimeCode 100

/-- The address is granted for a hundred seconds. -/
def grant : Message :=
  (reply .ack).withIp Wire.Dhcp.subnetMaskCode (.ofOctets 255 255 255 0)

/-- The client is bound, and asks to renew its lease. -/
def renewal : List DhcpCall :=
  [.start 1 0, .handle (reply .offer) 2 0, .handle grant 2 0, .tick 2 50000]

/-- The client after that. -/
def renewing : Tenant :=
  renewal.foldl after (new mac 0)

/-- The renewal is acknowledged, but the mask is missing. -/
def maskless : DhcpCall :=
  .handle (reply .ack) 2 50000

end ShortLease

/-- A lease that is not renewed in time ends with its addresses. -/
theorem mirrors_iff_shortLease : (new ShortLease.mac 0).Admits ShortLease.renewal ∧
    (∀ t ∈ (new ShortLease.mac 0).visits ShortLease.renewal, t.Mirrors) ∧
    ShortLease.renewing.config = some ⟨⟨.ofOctets 10 0 1 100, 24, by decide⟩, none, none⟩ ∧
    (ShortLease.renewing.client.answer (.tick 2 100000)).1 = .deconfigure := by
  have hadmits : (new ShortLease.mac 0).Admits ShortLease.renewal := by decide +kernel
  have h := mirrors_iff ShortLease.mac 0 hadmits
  exact ⟨hadmits, h.1.2 (by decide +kernel), by decide +kernel,
    (h.2 ShortLease.renewing (by decide +kernel) (.tick 2 100000) trivial (by decide +kernel)
      (by decide +kernel)).2 id⟩

/-- **A renewal without a mask ends the lease, and its addresses stay in use.** -/
theorem lease_lost_silently :
    (new ShortLease.mac 0).Admits (ShortLease.renewal ++ [ShortLease.maskless]) ∧
    ShortLease.renewing.client.lease.isSome = true ∧
    (ShortLease.renewing.client.answer ShortLease.maskless).1.asksFor? = none ∧
    (ShortLease.renewing.after ShortLease.maskless).client.lease = none ∧
    (ShortLease.renewing.after ShortLease.maskless).config =
      some ⟨⟨.ofOctets 10 0 1 100, 24, by decide⟩, none, none⟩ := by
  decide +kernel

end Tenant

end SegmentRouter
