import SegmentRouter.Proofs.Dhcp.Leases

/-!
# Proofs/Dhcp/Offers — what an offer is worth

An offer is worth something if the client can have the address when it asks for it.  Two things can
spoil that.  The address may not be usable any more, because a lease outlives the addresses of the
domain that it was granted under (`Run.assigned_usable`); then the client is offered it, refused,
and offered it again.  And the lease may end too early: a client that is bound already is offered
its address without the lease being prolonged, so the offer lasts as long as the lease and no longer
(`Run.offer_kept_iff`).
-/

namespace SegmentRouter.DhcpServer

open Wire.Dhcp (Message)

section

variable {start s s' s'' : DhcpServer} {e : Event} {events : List Event} {msg : Message}
  {params : Params} {now : Nat} {ip : Ipv4Addr} {mac : Mac} {lease : Lease}

/-! ## Which addresses are leased -/

/-- The addresses of the domain, if the event is a message. -/
def Event.params? : Event → Option Params
  | .message _ params _ => some params
  | .maintenance _ | .succession _ => none

theorem samePool_trans (h : s''.samePool s' = true) (h' : s'.samePool s = true) :
    s''.samePool s = true := by
  rw [samePool_iff] at h h' ⊢
  exact ⟨h.1.trans h'.1, h.2.trans h'.2⟩

theorem Step.samePool (h : s.Step e s') : s'.samePool s = true := by
  cases h with
  | message msg params now => exact (s.answers msg params now).samePool
  | maintenance => exact samePool_iff.2 ⟨rfl, rfl⟩
  | succession hpool => exact hpool

/-- The pool stays the same. -/
theorem Run.samePool (h : Run s events s') : s'.samePool s = true := by
  induction h with
  | nil => exact samePool_iff.2 ⟨rfl, rfl⟩
  | cons hstep _ ih => exact samePool_trans ih hstep.samePool

/-- What holds of all addresses that may be leased goes on to hold of those that are. -/
theorem Step.holds {P : Ipv4Addr → Prop} (h : s.Step e s')
    (hnew : ∀ params, e.params? = some params → ∀ ip, s.usable params ip = true → P ip)
    (hold : ∀ ⦃mac ip⦄, s.Holds mac ip → P ip) : ∀ ⦃mac ip⦄, s'.Holds mac ip → P ip := by
  intro mac ip hholds
  cases h with
  | message msg params now =>
    have hanswers := s.answers msg params now
    by_cases hmac : mac = msg.chaddr
    · subst hmac
      rcases hanswers.origin hholds with hkept | ⟨husable, -⟩
      · exact hold hkept
      · exact hnew params rfl ip husable
    · exact hold ((hanswers.holds_iff_of_ne hmac).1 hholds)
  | maintenance now => exact hold (holds_of_maintain hholds)
  | succession => exact hold hholds

theorem Run.holds {P : Ipv4Addr → Prop} (h : Run s events s')
    (hnew : ∀ e ∈ events, ∀ params, e.params? = some params →
      ∀ ip, s.usable params ip = true → P ip)
    (hold : ∀ ⦃mac ip⦄, s.Holds mac ip → P ip) : ∀ ⦃mac ip⦄, s'.Holds mac ip → P ip := by
  induction h with
  | nil => exact hold
  | cons hstep _ ih =>
    obtain ⟨hfirst, hrest⟩ := List.forall_mem_cons.1 hnew
    refine ih (fun e he params hparams ip husable => hrest e he params hparams ip ?_)
      (hstep.holds hfirst hold)
    rwa [usable_of_samePool hstep.samePool] at husable

section

variable (hempty : start.leases = ∅) (hrun : Run start events s)

include hempty hrun

theorem Run.holds_of_usable {P : Ipv4Addr → Prop}
    (hnew : ∀ e ∈ events, ∀ params, e.params? = some params →
      ∀ ip, start.usable params ip = true → P ip) (hholds : s.Holds mac ip) : P ip := by
  refine hrun.holds hnew (fun mac ip hstart => ?_) hholds
  obtain ⟨lease, hlease, -⟩ := hstart
  rw [hempty] at hlease
  cases hlease

/-- **Leased addresses belong to the pool.** -/
theorem Run.inPool (hholds : s.Holds mac ip) : s.inPool ip = true := by
  rw [inPool_of_samePool hrun.samePool]
  exact hrun.holds_of_usable hempty (fun _ _ _ _ _ husable => (usable_iff.1 husable).1) hholds

/-- **As long as the addresses of the domain stay the same, all leased addresses can be used.** -/
theorem Run.usable_of_fixed (hfixed : ∀ e ∈ events, ∀ p, e.params? = some p → p = params)
    (hholds : s.Holds mac ip) : s.usable params ip = true := by
  rw [usable_of_samePool hrun.samePool]
  refine hrun.holds_of_usable (P := fun ip => start.usable params ip = true) hempty
    (fun e he p hp ip husable => ?_) hholds
  rwa [hfixed e he p hp] at husable

/-! ## Offers that are refused -/

/-- **A client that holds no unusable address is assigned a usable one**, and only such a client.
Whatever has happened to a server that began without leases, what it offers, and what it
acknowledges when it is asked, belongs to the pool.  It can be used with the domain's present
addresses, except that a client that looks for a server is offered the address that it holds in any
case.  If that one cannot be used the client is refused when it asks for it, and keeps it.  None of
this happens while the domain's addresses stay the same. -/
theorem Run.assigned_usable {answer : Message}
    (hhandle : (s.handle msg params now).value = (some answer, s'))
    (hassigns : Assigns msg answer) :
    s.inPool answer.yiaddr = true ∧
    (params.interface.contains answer.yiaddr = true ∧ answer.yiaddr ≠ params.interface.addr ↔
      ∀ ip, msg.kind? = some .discover → s.Holds msg.chaddr ip → s.usable params ip = true) ∧
    (s.usable params answer.yiaddr = false → ∀ request later,
      AsksFor request msg.chaddr answer.yiaddr params →
        (s'.handle request params later).value = (some (nak request params), s')) ∧
    ((∀ e ∈ events, ∀ p, e.params? = some p → p = params) →
      s.usable params answer.yiaddr = true) := by
  have hanswers := answers_of_handle hhandle
  have hcases := hanswers.assigned_cases hassigns
  have hpool : s.inPool answer.yiaddr = true := by
    rcases hcases with ⟨-, hholds⟩ | ⟨husable, -⟩
    · exact hrun.inPool hempty hholds
    · exact (usable_iff.1 husable).1
  refine ⟨hpool, ⟨fun ⟨hsubnet, hother⟩ ip hkind hholds => ?_, fun hheld => ?_⟩,
    fun hunusable request later hrequest => ?_, fun hfixed => ?_⟩
  · rcases hcases with ⟨-, hanswer⟩ | ⟨-, hnew⟩
    · obtain rfl := hholds.unique hanswer
      exact usable_iff.2 ⟨hpool, hother, hsubnet⟩
    · obtain ⟨lease, hlease, -⟩ := hholds
      exact nomatch (hnew hkind).symm.trans hlease
  · have husable : s.usable params answer.yiaddr = true := by
      rcases hcases with ⟨hkind, hholds⟩ | ⟨husable, -⟩
      · exact hheld _ hkind hholds
      · exact husable
    obtain ⟨-, hother, hsubnet⟩ := usable_iff.1 husable
    exact ⟨hsubnet, hother⟩
  · have hmay : s'.mayBind params msg.chaddr answer.yiaddr = false := by
      rw [mayBind, usable_of_samePool hanswers.samePool, hunusable, Bool.and_false,
        Bool.false_and]
    have hsame (lease : Lease) (hlease : s'.leases.get? msg.chaddr = some lease) :
        lease.ip = answer.yiaddr :=
      Holds.unique ⟨lease, hlease, rfl⟩ (hanswers.holds_assigned hassigns)
    exact Prod.ext (hrequest.answer_of_not_mayBind hmay later)
      (hrequest.server_of_not_mayBind hmay hsame later)
  · rcases hcases with ⟨-, hholds⟩ | ⟨husable, -⟩
    · exact hrun.usable_of_fixed hempty hfixed hholds
    · exact husable

end

/-- The client is refused the address that the router has now, although it was offered it. -/
theorem assigned_usable_smallPool : SmallPool.server.leases = ∅ ∧
    Run SmallPool.server SmallPool.history SmallPool.bound ∧
    ∃ offer s', (SmallPool.bound.handle (SmallPool.discover SmallPool.client)
        SmallPool.moved 0).value = (some offer, s') ∧
      Assigns (SmallPool.discover SmallPool.client) offer ∧
      ∀ request later, AsksFor request SmallPool.client offer.yiaddr SmallPool.moved →
        (s'.handle request SmallPool.moved later).value =
          (some (nak request SmallPool.moved), s') := by
  obtain ⟨offer, s', hhandle, hkind, hip⟩ : ∃ offer s',
      (SmallPool.bound.handle (SmallPool.discover SmallPool.client) SmallPool.moved 0).value =
        (some offer, s') ∧ offer.kind? = some .offer ∧
        SmallPool.bound.usable SmallPool.moved offer.yiaddr = false :=
    ⟨_, _, rfl, by decide +kernel, by decide +kernel⟩
  have h := Run.assigned_usable rfl SmallPool.run_bound hhandle (.inl hkind)
  exact ⟨rfl, SmallPool.run_bound, offer, s', hhandle, .inl hkind, h.2.2.1 hip⟩

/-- **A client is offered the address of the router itself**, because it has leased it before. -/
theorem offer_of_router : SmallPool.server.leases = ∅ ∧
    Run SmallPool.server SmallPool.history SmallPool.bound ∧
    (SmallPool.bound.handle (SmallPool.discover SmallPool.client) SmallPool.moved 0).value.1.map
      (fun offer => (offer.kind?, offer.yiaddr)) =
        some (some .offer, SmallPool.moved.interface.addr) :=
  ⟨rfl, SmallPool.run_bound, by decide +kernel⟩

/-! ## Offers that last -/

/-- When the event comes, if it depends on that. -/
def Event.time? : Event → Option Nat
  | .message _ _ now | .maintenance now => some now
  | .succession _ => none

/-- The client that the event is a message of. -/
def Event.client? : Event → Option Mac
  | .message msg _ _ => some msg.chaddr
  | .maintenance _ | .succession _ => none

/-- **A span of time in which a client is not heard.** -/
structure Silence (mac : Mac) (begins ends : Nat) (events : List Event) : Prop where
  ordered : (events.filterMap Event.time?).Pairwise (· ≤ ·)
  within : ∀ e ∈ events, ∀ now, e.time? = some now → begins ≤ now ∧ now < ends
  others : ∀ e ∈ events, e.client? ≠ some mac

/-- **An address is kept for a client**: it has it if it asks for it, and nobody else is assigned
it. -/
structure Keeps (s : DhcpServer) (params : Params) (mac : Mac) (ip : Ipv4Addr) : Prop where
  granted : ∀ ⦃request⦄, AsksFor request mac ip params → ∀ now, ∃ ack,
    (s.handle request params now).value.1 = some ack ∧ ack.kind? = some .ack ∧ ack.yiaddr = ip
  withheld : ∀ ⦃msg⦄, msg.chaddr ≠ mac → ∀ params now answer,
    (s.handle msg params now).value.1 = some answer → Assigns msg answer → answer.yiaddr ≠ ip

theorem spares_of_silence {begins ends expires : Nat} (h : Silence mac begins ends events)
    (hends : ∀ now, begins ≤ now → now < ends → now < expires) :
    ∀ e ∈ events, e.Spares mac expires := by
  intro e he
  cases e with
  | message msg params now => exact fun hmac => h.others _ he (congrArg some hmac)
  | maintenance now =>
    obtain ⟨hbegins, hnow⟩ := h.within _ he now rfl
    exact hends now hbegins hnow
  | succession => trivial

/-- A client that has an address is kept it, if the address can be used. -/
theorem Exclusive.keeps (h : s.Exclusive) (hholds : s.Holds mac ip) (hip : ip ≠ .unspecified)
    (husable : s.usable params ip = true) : s.Keeps params mac ip where
  granted request hrequest now := by
    have hmay : s.mayBind params mac ip = true :=
      mayBind_iff.2 ⟨hip, husable, holder?_all fun other hother => h hother hholds⟩
    refine ⟨s.ack request params ip, ?_, s.kind?_ack request params ip, rfl⟩
    rw [hrequest.handle_of_mayBind hmay]
  withheld msg hmac params now answer hanswer hassigns := by
    rintro rfl
    have hanswers := s.answers msg params now
    have hafter := h.handle msg params now
    rw [hanswer] at hanswers
    have hmine := (hanswers.holds_iff_of_ne (Ne.symm hmac)).2 hholds
    exact hmac (hafter (hanswers.holds_assigned hassigns) hmine)

/-- What is kept for a client is an address that can be used. -/
theorem Keeps.usable (h : s.Keeps params mac ip) :
    ip ≠ .unspecified ∧ s.usable params ip = true := by
  have hrequest := asksFor_requestFor mac ip params
  obtain ⟨ack, hack, hkind, -⟩ := h.granted hrequest 0
  cases hmay : s.mayBind params mac ip with
  | true =>
    obtain ⟨hip, husable, -⟩ := mayBind_iff.1 hmay
    exact ⟨hip, husable⟩
  | false =>
    rw [hrequest.answer_of_not_mayBind hmay] at hack
    rw [← Option.some.inj hack, kind?_nak] at hkind
    cases hkind

/-- An address that can be used and that nobody has is kept for nobody. -/
theorem not_keeps_of_free (hfree : ∀ other, ¬ s.Holds other ip) (hip : ip ≠ .unspecified)
    (husable : s.usable params ip = true) : ¬ s.Keeps params mac ip := by
  intro h
  obtain ⟨other, hother⟩ : ∃ other : Mac, other ≠ mac := by
    by_cases hmac : mac = .zero
    · exact ⟨.broadcast, by rw [hmac]; decide⟩
    · exact ⟨.zero, Ne.symm hmac⟩
  have hrequest := asksFor_requestFor other ip params
  have hmay : s.mayBind params other ip = true :=
    mayBind_iff.2 ⟨hip, husable, holder?_all fun mac hmac => absurd hmac (hfree mac)⟩
  have hanswer := congrArg Prod.fst (hrequest.handle_of_mayBind hmay 0)
  exact h.withheld (hrequest.chaddr ▸ hother) params 0 _ hanswer
    (.inr ⟨hrequest.kind, s.kind?_ack _ params ip⟩) rfl

/-- One round of maintenance is enough to lose an address whose lease ends. -/
theorem Exclusive.not_keeps_maintain (h : s.Exclusive) (hlease : s.leases.get? mac = some lease)
    (hended : lease.expires ≤ now) (hip : lease.ip ≠ .unspecified)
    (husable : s.usable params lease.ip = true) :
    ¬ (s.maintain now).value.2.Keeps params mac lease.ip := by
  refine not_keeps_of_free (fun other hother => ?_) hip husable
  obtain rfl := h (holds_of_maintain hother) ⟨lease, hlease, rfl⟩
  obtain ⟨kept, hkept, -⟩ := hother
  obtain ⟨old, hold, hlasts, -⟩ := get?_maintain.1 hkept
  obtain rfl := Option.some.inj (hlease.symm.trans hold)
  omega

/-- **The lease of what is offered ends with the offer**, unless the client is bound to the address
already: then it ends when it would have ended anyway. -/
theorem Answers.lease_offered {offer : Message} (h : s.Answers msg params now (some offer) s')
    (hkind : msg.kind? = some .discover) : offer.kind? = some .offer ∧
    ∃ lease, s'.leases.get? msg.chaddr = some lease ∧ lease.ip = offer.yiaddr ∧
      ((lease.expires = now + s.offerTimeout ∧
          ∀ old, s.leases.get? msg.chaddr = some old → old.state = .offered) ∨
        ∃ old, s.leases.get? msg.chaddr = some old ∧ old.state ≠ .offered ∧
          lease.expires = old.expires) := by
  have hget (lease : Lease) :
      (s.withLease msg.chaddr lease).leases.get? msg.chaddr = some lease := by
    rw [get?_withLease, if_pos rfl]
  cases h with
  | informed hother => exact nomatch hkind.symm.trans hother
  | @reoffered old _ hold =>
    refine ⟨s.kind?_offer msg params old.ip, s.reofferedLease old now, hget _,
      s.ip_reofferedLease old now, ?_⟩
    unfold reofferedLease
    split
    · rename_i hoffered
      refine .inl ⟨rfl, fun lease hlease => ?_⟩
      obtain rfl := Option.some.inj (hold.symm.trans hlease)
      exact hoffered
    · rename_i hbound
      exact .inr ⟨old, hold, hbound, rfl⟩
  | @offered ip _ hnew =>
    exact ⟨s.kind?_offer msg params ip, s.offeredLease ip now, hget _, rfl,
      .inl ⟨rfl, fun old hold => nomatch hnew.symm.trans hold⟩⟩
  | bound hrequest => exact nomatch hkind.symm.trans hrequest.kind
  | refused hrequest => exact nomatch hkind.symm.trans hrequest.kind
  | dismissed hrequest => exact nomatch hkind.symm.trans hrequest.kind

/-- **An offer is kept exactly as long as the lease that it is recorded as.** Whatever has happened
to a server that began without leases, what it answers to a client that looks for a server is an
offer.  Of every span of time that begins then and lies within the time of the offer: the address is
kept for the client, whatever other clients do in that time, exactly if the client can have it at
all, which is so if the domain's addresses have always been the same and it is not 0.0.0.0, and no
lease that the client was already bound by ends in that time. -/
theorem Run.offer_kept_iff {offer : Message} (hempty : start.leases = ∅)
    (hrun : Run start events s) (hkind : msg.kind? = some .discover)
    (hhandle : (s.handle msg params now).value = (some offer, s')) :
    offer.kind? = some .offer ∧
    (∀ ends ≤ now + s.offerTimeout,
      (∀ window s'', Run s' window s'' → Silence msg.chaddr now ends window →
        s''.Keeps params msg.chaddr offer.yiaddr) ↔
      offer.yiaddr ≠ .unspecified ∧ s.usable params offer.yiaddr = true ∧
        ∀ lease, s.leases.get? msg.chaddr = some lease → lease.state ≠ .offered →
          ∀ t, now ≤ t → t < ends → t < lease.expires) ∧
    ((∀ e ∈ events, ∀ p, e.params? = some p → p = params) →
      s.usable params offer.yiaddr = true) := by
  have hanswers := answers_of_handle hhandle
  have hexclusive : s'.Exclusive := by
    have hafter := ((exclusive_of_empty hempty).run hrun).handle msg params now
    rwa [hhandle] at hafter
  obtain ⟨hoffer, lease, hlease, hip, hexpires⟩ := hanswers.lease_offered hkind
  refine ⟨hoffer, fun ends hends => ⟨fun hkept => ?_, ?_⟩, fun hfixed => ?_⟩
  · have hnow : s'.Keeps params msg.chaddr offer.yiaddr :=
      hkept [] s' (.nil s') ⟨.nil, nofun, nofun⟩
    obtain ⟨hspecified, husable⟩ := hnow.usable
    refine ⟨hspecified, ?_, fun old hold hbound t hbegins ht => ?_⟩
    · rwa [usable_of_samePool hanswers.samePool] at husable
    · refine Nat.lt_of_not_le fun hended => ?_
      have hsilence : Silence msg.chaddr now ends [.maintenance t] := by
        refine ⟨List.pairwise_singleton .., fun e he time htime => ?_, fun e he => ?_⟩
        · obtain rfl := List.mem_singleton.1 he
          obtain rfl := Option.some.inj htime
          exact ⟨hbegins, ht⟩
        · obtain rfl := List.mem_singleton.1 he
          nofun
      have hsame : lease.expires = old.expires := by
        rcases hexpires with ⟨-, hoffered⟩ | ⟨other, hother, -, hsame⟩
        · exact absurd (hoffered old hold) hbound
        · rw [hsame, Option.some.inj (hother.symm.trans hold)]
      rw [← hip] at hspecified husable hkept
      exact hexclusive.not_keeps_maintain hlease (hsame ▸ hended) hspecified husable
        (hkept _ _ (.cons (.maintenance t) (.nil _)) hsilence)
  · rintro ⟨hspecified, husable, hbound⟩ window s'' hwindow hsilence
    have hspares : ∀ e ∈ window, e.Spares msg.chaddr lease.expires := by
      refine spares_of_silence hsilence fun t hbegins ht => ?_
      rcases hexpires with ⟨hoffered, -⟩ | ⟨old, hold, hstate, hsame⟩
      · omega
      · rw [hsame]
        exact hbound old hold hstate t hbegins ht
    obtain ⟨kept, hkept, hkip, -⟩ := hwindow.spares hspares hlease
    refine (hexclusive.run hwindow).keeps ⟨kept, hkept, hkip.trans hip⟩ hspecified ?_
    rwa [usable_of_samePool (samePool_trans hwindow.samePool hanswers.samePool)]
  · rcases hanswers.assigned_cases (.inl hoffer) with ⟨-, hholds⟩ | ⟨husable, -⟩
    · exact hrun.usable_of_fixed hempty hfixed hholds
    · exact husable

end

namespace SmallPool

/-- The rival asks for the first address, and time passes. -/
def window : List Event :=
  [.message (requestFor rival ip params) params 1000, .maintenance 9999]

theorem silence_window : Silence client 0 10000 window where
  ordered := by decide
  within e he now hnow := by
    simp only [window, List.mem_cons, List.not_mem_nil, or_false] at he
    rcases he with rfl | rfl
    · obtain rfl := Option.some.inj hnow
      decide
    · obtain rfl := Option.some.inj hnow
      decide
  others := by
    simp only [window, List.forall_mem_cons]
    decide

/-- The server that has offered the client its address again, and has come to the end of its
lease. -/
def expired : DhcpServer :=
  ((bound.handle (discover client) params 4000).value.2.maintain 5000).value.2

/-- The server after it has bound the rival to the address. -/
def taken : DhcpServer :=
  (expired.handle (requestFor rival ip params) params 5000).value.2

end SmallPool

/-- The address that a new client is offered is kept for it. -/
theorem offer_kept_iff_smallPool : SmallPool.server.leases = ∅ ∧
    Silence SmallPool.client 0 (0 + SmallPool.server.offerTimeout) SmallPool.window ∧
    ∃ offer s', (SmallPool.server.handle (SmallPool.discover SmallPool.client)
        SmallPool.params 0).value = (some offer, s') ∧
      ∀ s'', Run s' SmallPool.window s'' →
        s''.Keeps SmallPool.params SmallPool.client offer.yiaddr := by
  obtain ⟨offer, s', hhandle, hip, husable⟩ : ∃ offer s',
      (SmallPool.server.handle (SmallPool.discover SmallPool.client) SmallPool.params 0).value =
        (some offer, s') ∧ offer.yiaddr ≠ .unspecified ∧
        SmallPool.server.usable SmallPool.params offer.yiaddr = true :=
    ⟨_, _, rfl, by decide +kernel, by decide +kernel⟩
  have h := Run.offer_kept_iff rfl (.nil SmallPool.server) (by decide +kernel) hhandle
  have hkept := (h.2.1 _ (Nat.le_refl _)).2 ⟨hip, husable, nofun⟩
  exact ⟨rfl, SmallPool.silence_window, offer, s', hhandle,
    fun s'' hrun => hkept _ s'' hrun SmallPool.silence_window⟩

/-- **An offer is lost while its time runs.** The client is offered its address for ten seconds when
its lease lasts for one; then the rival is bound to the address, and the client is refused it. -/
theorem offer_lost : SmallPool.server.leases = ∅ ∧
    Run SmallPool.server SmallPool.history SmallPool.bound ∧
    (SmallPool.bound.handle (SmallPool.discover SmallPool.client) SmallPool.params 4000).value.1.map
      (fun offer => (offer.kind?, offer.yiaddr)) = some (some .offer, SmallPool.ip) ∧
    5000 < 4000 + SmallPool.bound.offerTimeout ∧
    (SmallPool.expired.handle (requestFor SmallPool.rival SmallPool.ip SmallPool.params)
      SmallPool.params 5000).value.1.map (fun ack => (ack.kind?, ack.yiaddr)) =
        some (some .ack, SmallPool.ip) ∧
    (SmallPool.taken.handle (requestFor SmallPool.client SmallPool.ip SmallPool.params)
      SmallPool.params 6000).value.1.map (·.kind?) = some (some .nak) :=
  ⟨rfl, SmallPool.run_bound, by decide +kernel, by decide, by decide +kernel, by decide +kernel⟩

end SegmentRouter.DhcpServer
