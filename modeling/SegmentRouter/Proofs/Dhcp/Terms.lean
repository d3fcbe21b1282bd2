import SegmentRouter.Config.Validation
import SegmentRouter.Proofs.Dhcp.Leases

/-!
# Proofs/Dhcp/Terms — the times that an acknowledgement announces

An acknowledgement tells the client in whole seconds for how long it has the address, and after which
time it should renew its lease, with this server first and then with any.  The server records the
end of the lease and the time of the renewal for itself, in milliseconds.  The two accounts agree
(`handle_ack`): the end to the millisecond, the renewal but for the half second that an odd number
of seconds leaves.

The second renewal time is seven times an eighth of the lease, and the eighth is rounded down first.
So a lease of two to seven seconds is to be renewed with any server at once, before it is to be
renewed with its own (`rebinding_before_renewal`); all others have their times in order.
-/

namespace SegmentRouter

open Wire.Dhcp (Message)

namespace Wire.Dhcp.Message

theorem word?_eq_map (m : Message) (code : UInt8) : m.word? code = (m.ip? code).map (·.bits) := rfl

@[simp] theorem word?_withWord (m : Message) (code : UInt8) (w : UInt32) :
    (m.withWord code w).word? code = some w := by
  have hip : (m.withWord code w).ip? code = some ⟨w⟩ := m.ip?_withIp code ⟨w⟩
  rw [word?_eq_map, hip]
  rfl

theorem word?_withWord_of_ne {code other : UInt8} (m : Message) (h : other ≠ code) (w : UInt32) :
    (m.withWord code w).word? other = m.word? other := by
  have hip : (m.withWord code w).ip? other = m.ip? other := m.ip?_withIp_of_ne h ⟨w⟩
  rw [word?_eq_map, hip, word?_eq_map]

end Wire.Dhcp.Message

namespace DhcpServer

section

variable {s s' : DhcpServer} {msg answer : Message} {params : Params} {now : Nat}

/-! ## What is announced -/

/-- The times of a lease, in seconds from when it is granted. -/
@[ext] structure Terms where
  lease : UInt32
  /-- When the lease should be renewed with the server that granted it. -/
  renewal : UInt32
  /-- When the lease should be renewed with any server. -/
  rebinding : UInt32
deriving DecidableEq, Repr

/-- The times of the leases that a server grants. -/
def terms (s : DhcpServer) : Terms where
  lease := s.leaseTimeSec
  renewal := s.leaseTimeSec / 2
  rebinding := s.leaseTimeSec / 8 * 7

/-- **A message announces the times of a lease.** -/
structure Announces (m : Message) (t : Terms) : Prop where
  lease : m.leaseTime? = some t.lease
  renewal : m.word? Wire.Dhcp.renewalTimeCode = some t.renewal
  rebinding : m.word? Wire.Dhcp.rebindingTimeCode = some t.rebinding

/-- A message announces one set of times. -/
theorem Announces.unique {t t' : Terms} (h : Announces answer t) (h' : Announces answer t') :
    t = t' := by
  ext1
  · exact Option.some.inj (h.lease.symm.trans h'.lease)
  · exact Option.some.inj (h.renewal.symm.trans h'.renewal)
  · exact Option.some.inj (h.rebinding.symm.trans h'.rebinding)

theorem announces_reply (s : DhcpServer) (msg : Message) (kind : Wire.Dhcp.Kind) (params : Params) :
    Announces (s.reply msg kind params) s.terms where
  lease := by
    rw [reply, Message.leaseTime?, Message.word?_withWord_of_ne _ (by decide),
      Message.word?_withWord_of_ne _ (by decide), Message.word?_withWord]
    rfl
  renewal := by
    rw [reply, Message.word?_withWord_of_ne _ (by decide), Message.word?_withWord]
    rfl
  rebinding := Message.word?_withWord ..

theorem announces_ack (s : DhcpServer) (msg : Message) (params : Params) (ip : Ipv4Addr) :
    Announces (s.ack msg params ip) s.terms :=
  have h := s.announces_reply msg .ack params
  ⟨h.lease, h.renewal, h.rebinding⟩

/-! ## What is recorded -/

/-- **A lease is recorded as it was announced**: it ends on the second, and its renewal is due at the
announced time or at most a second later. -/
structure Honours (lease : Lease) (t : Terms) (now : Nat) : Prop where
  expires : lease.expires = now + t.lease.toNat * 1000
  renewal_le : now + t.renewal.toNat * 1000 ≤ lease.renewAt
  le_renewal : lease.renewAt ≤ now + t.renewal.toNat * 1000 + 1000

theorem honours_boundLease (s : DhcpServer) (ip : Ipv4Addr) (now : Nat) :
    Honours (s.boundLease ip now) s.terms now := by
  have hhalf : s.terms.renewal.toNat = s.leaseTimeSec.toNat / 2 := UInt32.toNat_div ..
  have hrenewAt : (s.boundLease ip now).renewAt = now + s.leaseTimeSec.toNat * 500 := rfl
  refine ⟨rfl, ?_, ?_⟩ <;> omega

/-! ## The order of the times -/

theorem renewal_le_lease (s : DhcpServer) : s.terms.renewal ≤ s.terms.lease := by
  have hhalf : s.terms.renewal.toNat = s.leaseTimeSec.toNat / 2 := UInt32.toNat_div ..
  rw [UInt32.le_iff_toNat_le, hhalf]
  exact Nat.div_le_self ..

/-- Seven eighths of a time are less than the time, so that they fit into the same bits. -/
theorem toNat_rebinding (s : DhcpServer) :
    s.terms.rebinding.toNat = s.leaseTimeSec.toNat / 8 * 7 := by
  have hlt := s.leaseTimeSec.toNat_lt
  have hmul : s.terms.rebinding.toNat = s.leaseTimeSec.toNat / 8 * 7 % 4294967296 := by
    rw [terms, UInt32.toNat_mul, UInt32.toNat_div]
    rfl
  rw [hmul, Nat.mod_eq_of_lt (by omega)]

theorem rebinding_le_lease (s : DhcpServer) : s.terms.rebinding ≤ s.terms.lease := by
  have hlease : s.terms.lease = s.leaseTimeSec := rfl
  rw [UInt32.le_iff_toNat_le, toNat_rebinding, hlease]
  omega

/-- **The two renewal times are in order unless the lease is short.** -/
theorem renewal_le_rebinding_iff (s : DhcpServer) :
    s.terms.renewal ≤ s.terms.rebinding ↔ s.terms.lease < 2 ∨ 8 ≤ s.terms.lease := by
  have hhalf : s.terms.renewal.toNat = s.leaseTimeSec.toNat / 2 := UInt32.toNat_div ..
  have hlease : s.terms.lease = s.leaseTimeSec := rfl
  have htwo : (2 : UInt32).toNat = 2 := rfl
  have height : (8 : UInt32).toNat = 8 := rfl
  rw [UInt32.le_iff_toNat_le, UInt32.lt_iff_toNat_lt, UInt32.le_iff_toNat_le, toNat_rebinding,
    hhalf, hlease, htwo, height]
  omega

/-! ## Acknowledgements -/

/-- **What an acknowledgement announces is what the server records.** Whatever leases there are, and
whatever the lease time: a request that is acknowledged leaves the sender bound to the address, with
a lease that ends and is to be renewed when the answer says.  Neither renewal time comes after the
end of the lease, and they are in order if and only if the lease is for less than two seconds or for
at least eight. -/
theorem handle_ack (hkind : msg.kind? = some .request)
    (h : (s.handle msg params now).value = (some answer, s')) (hack : answer.kind? = some .ack) :
    ∃ lease t, s'.leases.get? msg.chaddr = some lease ∧ lease.ip = answer.yiaddr ∧
      lease.state = .bound ∧ Announces answer t ∧ Honours lease t now ∧
      t.lease = s.leaseTimeSec ∧ t.renewal ≤ t.lease ∧ t.rebinding ≤ t.lease ∧
      (t.renewal ≤ t.rebinding ↔ t.lease < 2 ∨ 8 ≤ t.lease) := by
  have hanswers := answers_of_handle h
  clear h
  cases hanswers with
  | informed hother => exact nomatch hkind.symm.trans hother
  | reoffered hother => exact nomatch hkind.symm.trans hother
  | offered hother => exact nomatch hkind.symm.trans hother
  | refused => exact nomatch hack.symm.trans (kind?_nak msg params)
  | dismissed => exact nomatch hack.symm.trans (kind?_nak msg params)
  | bound =>
    have hlease : (s.withLease msg.chaddr (s.boundLease (requested msg) now)).leases.get?
        msg.chaddr = some (s.boundLease (requested msg) now) := by
      rw [get?_withLease, if_pos rfl]
    exact ⟨_, s.terms, hlease, rfl, rfl, s.announces_ack msg params _, s.honours_boundLease _ now,
      rfl, s.renewal_le_lease, s.rebinding_le_lease, s.renewal_le_rebinding_iff⟩

end

/-! ## A lease of five seconds -/

namespace SmallPool

/-- The pool of the server with two addresses, as it is configured. -/
def pool : Config.DhcpPool where
  first := ip
  last := .ofOctets 10 0 1 101
  leaseTimeSec := 5

/-- A configuration with the pool. -/
def config : Config where
  domains := [{ name := "lan", interface := some params.interface, dhcpServer := some pool }]

/-- The client asks for the first address. -/
def request : Message :=
  requestFor client ip params

theorem handle_request : (server.handle request params 0).value =
    (some (server.ack request params ip), bound) := by
  have hmay : server.mayBind params client ip = true := by decide
  have hhandle := (asksFor_requestFor client ip params).handle_of_mayBind hmay 0
  rw [request, hhandle, bound, hhandle]

end SmallPool

/-- The client is bound for five seconds and should renew after two, as it is told. -/
theorem handle_ack_smallPool : SmallPool.request.kind? = some .request ∧
    (SmallPool.server.handle SmallPool.request SmallPool.params 0).value =
      (some (SmallPool.server.ack SmallPool.request SmallPool.params SmallPool.ip),
        SmallPool.bound) ∧
    (SmallPool.server.ack SmallPool.request SmallPool.params SmallPool.ip).kind? = some .ack ∧
    ∃ lease t, SmallPool.bound.leases.get? SmallPool.client = some lease ∧
      Announces (SmallPool.server.ack SmallPool.request SmallPool.params SmallPool.ip) t ∧
      Honours lease t 0 ∧ t.lease = 5 := by
  have hkind : SmallPool.request.kind? = some .request :=
    (asksFor_requestFor SmallPool.client SmallPool.ip SmallPool.params).kind
  have hack := SmallPool.server.kind?_ack SmallPool.request SmallPool.params SmallPool.ip
  obtain ⟨lease, t, hlease, -, -, hannounces, hhonours, ht, -⟩ :=
    handle_ack hkind SmallPool.handle_request hack
  exact ⟨hkind, SmallPool.handle_request, hack, lease, t, hlease, hannounces, hhonours, ht⟩

/-- **A client is told to turn to any server before it turns to its own**, although the configuration
with a lease time of five seconds is accepted: its request is acknowledged with renewal times of two
seconds and of none. -/
theorem rebinding_before_renewal : SmallPool.config.validate.hasErrors = false ∧
    SmallPool.server = ofConfig SmallPool.pool 10000 ∧
    ∃ answer s', (SmallPool.server.handle SmallPool.request SmallPool.params 0).value =
        (some answer, s') ∧ answer.kind? = some .ack ∧ Announces answer ⟨5, 2, 0⟩ ∧
      ∀ t, Announces answer t → ¬ t.renewal ≤ t.rebinding := by
  have hannounces := SmallPool.server.announces_ack SmallPool.request SmallPool.params SmallPool.ip
  refine ⟨by decide +kernel, rfl, _, _, SmallPool.handle_request, kind?_ack .., hannounces, ?_⟩
  intro t ht horder
  rw [ht.unique hannounces] at horder
  exact absurd horder (by decide)

end DhcpServer

end SegmentRouter
