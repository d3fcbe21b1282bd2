import SegmentRouter.Dhcp.Server

/-!
# Proofs/Dhcp/Answers — what a server does about a message

A message is answered in a few ways only (`DhcpServer.Answers`), and each says which lease is set or
ended.  So nobody but the sender gains or loses a lease (`Answers.get?_of_ne`), and an address that
is assigned was free, the sender's already, or offered to it before.
-/

namespace SegmentRouter

open Wire (Bytes)
open Wire.Dhcp (Message Kind)

namespace Wire.Dhcp.Message

variable {code : UInt8}

theorem kind?_withOption (m : Message) (h : code ≠ kindCode) (value : Bytes) :
    (m.withOption code value).kind? = m.kind? := by
  rw [kind?, withOption, SortedMap.get?_insert, if_neg h.symm]
  rfl

theorem kind?_withIp (m : Message) (h : code ≠ kindCode) (ip : Ipv4Addr) :
    (m.withIp code ip).kind? = m.kind? :=
  m.kind?_withOption h _

theorem kind?_withWord (m : Message) (h : code ≠ kindCode) (w : UInt32) :
    (m.withWord code w).kind? = m.kind? :=
  m.kind?_withOption h _

@[simp] theorem kind?_make (sender : Sender) (kind : Kind) (xid : UInt32) (chaddr : Mac) :
    (make sender kind xid chaddr).kind? = some kind := by
  simp [kind?, make]

@[simp] theorem kind?_replyTo (request : Message) (kind : Kind) :
    (replyTo request kind).kind? = some kind :=
  kind?_make .server kind request.xid request.chaddr

@[simp] theorem ip?_withIp (m : Message) (code : UInt8) (ip : Ipv4Addr) :
    (m.withIp code ip).ip? code = some ip := by
  rw [ip?, withIp, withOption, SortedMap.get?_insert, if_pos rfl]
  exact congrArg some (Ipv4Addr.ofOctets_octets ip)

theorem ip?_withIp_of_ne {other : UInt8} (m : Message) (h : other ≠ code) (ip : Ipv4Addr) :
    (m.withIp code ip).ip? other = m.ip? other := by
  rw [ip?, withIp, withOption, SortedMap.get?_insert, if_neg h]
  rfl

end Wire.Dhcp.Message

namespace DhcpServer

variable {s s' : DhcpServer} {msg : Message} {params : Params} {now : Nat} {ip : Ipv4Addr}
  {mac : Mac} {lease : Lease} {answer : Option Message}

/-! ## Answers and their kinds -/

@[simp] theorem kind?_reply (s : DhcpServer) (msg : Message) (kind : Kind) (params : Params) :
    (s.reply msg kind params).kind? = some kind := by
  have hbase : ({ Message.replyTo msg kind with siaddr := params.interface.addr } : Message).kind? =
      some kind := Message.kind?_replyTo msg kind
  unfold reply
  cases params.dnsServer <;>
    simp (disch := decide) only [Message.kind?_withWord, Message.kind?_withIp, hbase]

@[simp] theorem kind?_nak (msg : Message) (params : Params) :
    (nak msg params).kind? = some .nak :=
  (Message.kind?_withIp _ (by decide) _).trans (Message.kind?_replyTo msg .nak)

@[simp] theorem kind?_informReply (s : DhcpServer) (msg : Message) (params : Params) :
    (s.informReply msg params).kind? = some .ack := by
  rw [← s.kind?_reply msg .ack params, informReply, Message.kind?, Message.kind?,
    SortedMap.get?_erase, SortedMap.get?_erase, SortedMap.get?_erase]
  rfl

/-- The offer of an address. -/
def offer (s : DhcpServer) (msg : Message) (params : Params) (ip : Ipv4Addr) : Message :=
  { s.reply msg .offer params with yiaddr := ip }

/-- The acknowledgement of a request for an address. -/
def ack (s : DhcpServer) (msg : Message) (params : Params) (ip : Ipv4Addr) : Message :=
  { s.reply msg .ack params with yiaddr := ip, ciaddr := msg.ciaddr }

@[simp] theorem kind?_offer (s : DhcpServer) (msg : Message) (params : Params) (ip : Ipv4Addr) :
    (s.offer msg params ip).kind? = some .offer :=
  s.kind?_reply msg .offer params

@[simp] theorem kind?_ack (s : DhcpServer) (msg : Message) (params : Params) (ip : Ipv4Addr) :
    (s.ack msg params ip).kind? = some .ack :=
  s.kind?_reply msg .ack params

/-- An answer that assigns an address to the sender: an offer, or the acknowledgement of a
request. -/
def Assigns (msg answer : Message) : Prop :=
  answer.kind? = some .offer ∨ msg.kind? = some .request ∧ answer.kind? = some .ack

theorem not_assigns_nak (msg : Message) (params : Params) : ¬ Assigns msg (nak msg params) := by
  rintro (h | ⟨-, h⟩) <;> simp at h

theorem not_assigns_informReply (s : DhcpServer) (hkind : msg.kind? = some .inform)
    (params : Params) : ¬ Assigns msg (s.informReply msg params) := by
  rintro (h | ⟨h, -⟩)
  · simp at h
  · exact nomatch hkind.symm.trans h

/-! ## Leases -/

/-- The lease of an address that is offered. -/
def offeredLease (s : DhcpServer) (ip : Ipv4Addr) (now : Nat) : Lease where
  ip := ip
  state := .offered
  expires := now + s.offerTimeout
  renewAt := now + s.offerTimeout

/-- A lease whose address is offered again: an offer is prolonged, and nothing else. -/
def reofferedLease (s : DhcpServer) (lease : Lease) (now : Nat) : Lease :=
  if lease.state = .offered then { lease with expires := now + s.offerTimeout } else lease

/-- The lease of an address that a client is bound to. -/
def boundLease (s : DhcpServer) (ip : Ipv4Addr) (now : Nat) : Lease where
  ip := ip
  state := .bound
  expires := now + s.leaseTimeSec.toNat * 1000
  renewAt := now + s.leaseTimeSec.toNat * 500

@[simp] theorem ip_reofferedLease (s : DhcpServer) (lease : Lease) (now : Nat) :
    (s.reofferedLease lease now).ip = lease.ip := by
  unfold reofferedLease
  split <;> rfl

@[simp] theorem get?_withLease (s : DhcpServer) (mac other : Mac) (lease : Lease) :
    (s.withLease mac lease).leases.get? other =
      if other = mac then some lease else s.leases.get? other :=
  SortedMap.get?_insert ..

@[simp] theorem get?_withoutLease (s : DhcpServer) (mac other : Mac) :
    (s.withoutLease mac).leases.get? other =
      if other = mac then none else s.leases.get? other :=
  SortedMap.get?_erase ..

/-- The client has the address. -/
def Holds (s : DhcpServer) (mac : Mac) (ip : Ipv4Addr) : Prop :=
  ∃ lease, s.leases.get? mac = some lease ∧ lease.ip = ip

theorem Holds.unique {other : Ipv4Addr} (h : s.Holds mac ip) (h' : s.Holds mac other) :
    ip = other := by
  obtain ⟨lease, hlease, rfl⟩ := h
  obtain ⟨lease', hlease', rfl⟩ := h'
  exact congrArg Lease.ip (Option.some.inj (hlease.symm.trans hlease'))

theorem holds_withLease : (s.withLease mac lease).Holds mac ip ↔ lease.ip = ip := by
  simp [Holds]

theorem not_holds_withoutLease : ¬ (s.withoutLease mac).Holds mac ip := by
  simp [Holds]

/-! ## Addresses -/

theorem usable_iff : s.usable params ip = true ↔
    s.inPool ip = true ∧ ip ≠ params.interface.addr ∧ params.interface.contains ip = true := by
  rw [usable, Bool.and_eq_true, Bool.and_eq_true, bne_iff_ne, and_assoc]

theorem mayBind_iff : s.mayBind params mac ip = true ↔ ip ≠ .unspecified ∧
    s.usable params ip = true ∧ (s.holder? ip).all (· == mac) = true := by
  rw [mayBind, Bool.and_eq_true, Bool.and_eq_true, bne_iff_ne, and_assoc]

theorem available_iff : s.available params ip = true ↔
    s.usable params ip = true ∧ s.holder? ip = none := by
  rw [available, Bool.and_eq_true, Option.isNone_iff_eq_none]

theorem samePool_iff : s.samePool s' = true ↔ s.first = s'.first ∧ s.last = s'.last := by
  rw [samePool, Bool.and_eq_true, beq_iff_eq, beq_iff_eq]

theorem inPool_of_samePool (h : s.samePool s' = true) (ip : Ipv4Addr) :
    s.inPool ip = s'.inPool ip := by
  rw [samePool_iff] at h
  rw [inPool, inPool, h.1, h.2]

theorem usable_of_samePool (h : s.samePool s' = true) (params : Params) (ip : Ipv4Addr) :
    s.usable params ip = s'.usable params ip := by
  rw [usable, usable, inPool_of_samePool h]

theorem firstFrom?_eq_some {test : Ipv4Addr → Bool} {start count : Nat}
    (h : firstFrom? test start count = some ip) : test ip = true := by
  induction count generalizing start with
  | zero => cases h
  | succ count ih =>
    rw [firstFrom?] at h
    split at h
    · rename_i htest
      obtain rfl := Option.some.inj h
      exact htest
    · exact ih h

/-- An address for a new client is one that can be leased to it. -/
theorem available_of_choose? {preferred : Option Ipv4Addr}
    (h : s.choose? params preferred = some ip) : s.available params ip = true := by
  unfold choose? at h
  split at h
  · split at h
    · rename_i havailable
      obtain rfl := Option.some.inj h
      exact havailable
    · exact firstFrom?_eq_some h
  · exact firstFrom?_eq_some h

/-! ## What is done about a message -/

/-- A request that names this server or none. -/
structure IsRequest (msg : Message) (params : Params) : Prop where
  kind : msg.kind? = some .request
  server : ∀ id, msg.serverId? = some id → id = params.interface.addr

/-- **What a server does about a message**: how it answers, and what becomes of its leases. -/
inductive Answers (s : DhcpServer) (msg : Message) (params : Params) (now : Nat) :
    Option Message → DhcpServer → Prop
  /-- Nobody is looking for a server, and nothing is to be given back. -/
  | ignored (hkind : msg.sender = .client → msg.kind? ≠ some .discover)
      (hrequest : msg.sender = .client → ¬ IsRequest msg params) : Answers s msg params now none s
  | exhausted (hkind : msg.kind? = some .discover) (hnew : s.leases.get? msg.chaddr = none)
      (hchoose : s.choose? params msg.requestedIp? = none) : Answers s msg params now none s
  | informed (hkind : msg.kind? = some .inform) :
      Answers s msg params now (some (s.informReply msg params)) s
  | reoffered {lease : Lease} (hkind : msg.kind? = some .discover)
      (hlease : s.leases.get? msg.chaddr = some lease) :
      Answers s msg params now (some (s.offer msg params lease.ip))
        (s.withLease msg.chaddr (s.reofferedLease lease now))
  | offered {ip : Ipv4Addr} (hkind : msg.kind? = some .discover)
      (hnew : s.leases.get? msg.chaddr = none)
      (hchoose : s.choose? params msg.requestedIp? = some ip) :
      Answers s msg params now (some (s.offer msg params ip))
        (s.withLease msg.chaddr (s.offeredLease ip now))
  | bound (hrequest : IsRequest msg params)
      (hmay : s.mayBind params msg.chaddr (requested msg) = true) :
      Answers s msg params now (some (s.ack msg params (requested msg)))
        (s.withLease msg.chaddr (s.boundLease (requested msg) now))
  | refused (hrequest : IsRequest msg params)
      (hmay : s.mayBind params msg.chaddr (requested msg) = false)
      (hsame : ∀ lease, s.leases.get? msg.chaddr = some lease → lease.ip = requested msg) :
      Answers s msg params now (some (nak msg params)) s
  /-- A client that asks for another address than its own loses its own too. -/
  | dismissed {lease : Lease} (hrequest : IsRequest msg params)
      (hmay : s.mayBind params msg.chaddr (requested msg) = false)
      (hlease : s.leases.get? msg.chaddr = some lease) (hother : lease.ip ≠ requested msg) :
      Answers s msg params now (some (nak msg params)) (s.withoutLease msg.chaddr)
  /-- A client gives its address back, or accepts the offer of another server. -/
  | released {lease : Lease} (hkind : msg.kind? = some .release ∨ msg.kind? = some .decline ∨
        msg.kind? = some .request ∧ lease.state = .offered)
      (hlease : s.leases.get? msg.chaddr = some lease) :
      Answers s msg params now none (s.withoutLease msg.chaddr)

theorem answers_discover (hkind : msg.kind? = some .discover) :
    s.Answers msg params now (s.discover msg params now).value.1
      (s.discover msg params now).value.2 := by
  unfold discover
  dsimp only
  split
  · rename_i lease hlease
    exact .reoffered hkind hlease
  · rename_i hnew
    split
    · rename_i ip hchoose
      exact .offered hkind hnew hchoose
    · rename_i hchoose
      exact .exhausted hkind hnew hchoose

theorem answers_bind (hrequest : IsRequest msg params) :
    s.Answers msg params now (s.bind msg params now).value.1 (s.bind msg params now).value.2 := by
  unfold bind
  dsimp only
  split
  · rename_i hmay
    split <;> exact .bound hrequest hmay
  · rename_i hmay
    rw [Bool.not_eq_true] at hmay
    dsimp only [Logged.value_bind, Logged.value_pure]
    split
    · rename_i lease hlease
      split
      · rename_i hsame
        refine .refused hrequest hmay fun other hother => ?_
        rwa [← Option.some.inj (hlease.symm.trans hother)]
      · rename_i hother
        exact .dismissed hrequest hmay hlease hother
    · rename_i hnone
      exact .refused hrequest hmay fun lease hlease => nomatch hnone.symm.trans hlease

theorem answers_request (hkind : msg.kind? = some .request) :
    s.Answers msg params now (s.request msg params now).value.1
      (s.request msg params now).value.2 := by
  unfold request
  split
  · rename_i hserver
    exact answers_bind ⟨hkind, fun id hid => nomatch hserver.symm.trans hid⟩
  · rename_i id hserver
    split
    · rename_i hid
      refine answers_bind ⟨hkind, fun other hother => ?_⟩
      rwa [← Option.some.inj (hserver.symm.trans hother)]
    · rename_i hid
      have hignored : s.Answers msg params now none s := by
        refine .ignored (fun _ => ?_) fun _ hrequest => hid (hrequest.server id hserver)
        rw [hkind]
        nofun
      split
      · rename_i lease hlease
        dsimp only [Logged.value_pure]
        split
        · rename_i hoffered
          exact .released (.inr (.inr ⟨hkind, hoffered⟩)) hlease
        · exact hignored
      · exact hignored

/-- A message that is neither a DISCOVER nor a REQUEST and that nothing is done about. -/
theorem Answers.of_kind {kind : Kind} (hkind : msg.kind? = some kind) (hdiscover : kind ≠ .discover)
    (hrequest : kind ≠ .request) : s.Answers msg params now none s := by
  refine .ignored (fun _ h => hdiscover ?_) fun _ h => hrequest ?_
  · exact Option.some.inj (hkind.symm.trans h)
  · exact Option.some.inj (hkind.symm.trans h.kind)

theorem answers_giveUp {kind : Kind} (hkind : msg.kind? = some kind)
    (hgive : kind = .release ∨ kind = .decline) :
    s.Answers msg params now (s.giveUp msg kind).value.1 (s.giveUp msg kind).value.2 := by
  unfold giveUp
  split
  · rename_i lease hlease
    refine .released ?_ hlease
    rcases hgive with rfl | rfl
    · exact .inl hkind
    · exact .inr (.inl hkind)
  · rcases hgive with rfl | rfl <;> exact .of_kind hkind nofun nofun

/-- **A message is answered in one of these ways.** -/
theorem answers (s : DhcpServer) (msg : Message) (params : Params) (now : Nat) :
    s.Answers msg params now (s.handle msg params now).value.1
      (s.handle msg params now).value.2 := by
  unfold handle
  split
  · rename_i hsender
    exact .ignored (fun h => absurd h hsender) fun h => absurd h hsender
  · split
    · rename_i hkind
      refine .ignored (fun _ => ?_) fun _ h => nomatch hkind.symm.trans h.kind
      rw [hkind]
      nofun
    · rename_i kind hkind
      cases kind with
      | discover => exact answers_discover hkind
      | request => exact answers_request hkind
      | release => exact answers_giveUp hkind (.inl rfl)
      | decline => exact answers_giveUp hkind (.inr rfl)
      | inform => exact .informed hkind
      | offer => exact .of_kind hkind nofun nofun
      | ack => exact .of_kind hkind nofun nofun
      | nak => exact .of_kind hkind nofun nofun

theorem answers_of_handle (h : (s.handle msg params now).value = (answer, s')) :
    s.Answers msg params now answer s' := by
  have hanswers := s.answers msg params now
  rwa [h] at hanswers

/-! ## What becomes of the leases -/

namespace Answers

/-- A message leaves the pool as it is. -/
theorem samePool (h : s.Answers msg params now answer s') : s'.samePool s = true := by
  rw [samePool_iff]
  cases h <;> exact ⟨rfl, rfl⟩

/-- **Nobody but the sender gains or loses a lease.** -/
theorem get?_of_ne (h : s.Answers msg params now answer s') (hmac : mac ≠ msg.chaddr) :
    s'.leases.get? mac = s.leases.get? mac := by
  cases h with
  | ignored => rfl
  | exhausted => rfl
  | informed => rfl
  | refused => rfl
  | reoffered | offered | bound => rw [get?_withLease, if_neg hmac]
  | dismissed | released => rw [get?_withoutLease, if_neg hmac]

theorem holds_iff_of_ne (h : s.Answers msg params now answer s') (hmac : mac ≠ msg.chaddr) :
    s'.Holds mac ip ↔ s.Holds mac ip := by
  rw [Holds, Holds, h.get?_of_ne hmac]

/-- **The sender has the address that it had, or one that may be leased to it.** -/
theorem origin (h : s.Answers msg params now answer s') (hholds : s'.Holds msg.chaddr ip) :
    s.Holds msg.chaddr ip ∨
      s.usable params ip = true ∧ (s.holder? ip).all (· == msg.chaddr) = true := by
  cases h with
  | ignored => exact .inl hholds
  | exhausted => exact .inl hholds
  | informed => exact .inl hholds
  | refused => exact .inl hholds
  | @reoffered old hkind hold =>
    obtain rfl := holds_withLease.1 hholds
    exact .inl ⟨old, hold, (s.ip_reofferedLease old now).symm⟩
  | offered hkind hnew hchoose =>
    obtain rfl := holds_withLease.1 hholds
    obtain ⟨husable, hholder⟩ := available_iff.1 (available_of_choose? hchoose)
    refine .inr ⟨husable, ?_⟩
    rw [offeredLease, hholder]
    rfl
  | bound hrequest hmay =>
    obtain rfl := holds_withLease.1 hholds
    exact .inr (mayBind_iff.1 hmay).2
  | dismissed => exact absurd hholds not_holds_withoutLease
  | released => exact absurd hholds not_holds_withoutLease

/-- **What is assigned to the sender is leased to it.** -/
theorem holds_assigned {reply : Message} (h : s.Answers msg params now (some reply) s')
    (hassigns : Assigns msg reply) : s'.Holds msg.chaddr reply.yiaddr := by
  cases h with
  | informed hkind => exact absurd hassigns (s.not_assigns_informReply hkind params)
  | @reoffered old => exact holds_withLease.2 (s.ip_reofferedLease old now)
  | offered => exact holds_withLease.2 rfl
  | bound => exact holds_withLease.2 rfl
  | refused => exact absurd hassigns (not_assigns_nak msg params)
  | dismissed => exact absurd hassigns (not_assigns_nak msg params)

/-- **What is assigned can be used, or is what the sender has already** when it looks for a
server. -/
theorem assigned_cases {reply : Message} (h : s.Answers msg params now (some reply) s')
    (hassigns : Assigns msg reply) :
    (msg.kind? = some .discover ∧ s.Holds msg.chaddr reply.yiaddr) ∨
      s.usable params reply.yiaddr = true ∧
        (msg.kind? = some .discover → s.leases.get? msg.chaddr = none) := by
  cases h with
  | informed hkind => exact absurd hassigns (s.not_assigns_informReply hkind params)
  | reoffered hkind hlease => exact .inl ⟨hkind, _, hlease, rfl⟩
  | offered hkind hnew hchoose =>
    exact .inr ⟨(available_iff.1 (available_of_choose? hchoose)).1, fun _ => hnew⟩
  | bound hrequest hmay =>
    exact .inr ⟨(mayBind_iff.1 hmay).2.1, fun hkind => nomatch hkind.symm.trans hrequest.kind⟩
  | refused => exact absurd hassigns (not_assigns_nak msg params)
  | dismissed => exact absurd hassigns (not_assigns_nak msg params)

end Answers

/-! ## Requests -/

/-- A client asks this server for an address. -/
structure AsksFor (msg : Message) (mac : Mac) (ip : Ipv4Addr) (params : Params) : Prop extends
    IsRequest msg params where
  sender : msg.sender = .client
  chaddr : msg.chaddr = mac
  requested : requested msg = ip

/-- A request for an address that names the server. -/
def requestFor (mac : Mac) (ip : Ipv4Addr) (params : Params) : Message :=
  (Message.make .client .request 0 mac)
    |>.withIp Wire.Dhcp.requestedIpCode ip
    |>.withIp Wire.Dhcp.serverIdCode params.interface.addr

theorem asksFor_requestFor (mac : Mac) (ip : Ipv4Addr) (params : Params) :
    AsksFor (requestFor mac ip params) mac ip params where
  kind := by
    rw [requestFor, Message.kind?_withIp _ (by decide), Message.kind?_withIp _ (by decide)]
    exact Message.kind?_make ..
  server id hid := (Option.some.inj ((Message.ip?_withIp ..).symm.trans hid)).symm
  sender := rfl
  chaddr := rfl
  requested := by
    have hip : (requestFor mac ip params).requestedIp? = some ip :=
      (Message.ip?_withIp_of_ne _ (by decide) _).trans (Message.ip?_withIp ..)
    rw [DhcpServer.requested, hip]
    dsimp only
    split
    · rename_i hunspecified
      exact hunspecified.symm
    · rfl

namespace AsksFor

variable (h : AsksFor msg mac ip params)

include h

/-- A request to this server is answered by binding the client or by refusing it. -/
theorem handle_eq_bind (s : DhcpServer) (now : Nat) :
    (s.handle msg params now).value = (s.bind msg params now).value := by
  have hsender : ¬ msg.sender ≠ .client := fun hne => hne h.sender
  unfold handle
  rw [if_neg hsender, h.kind]
  dsimp only [Logged.value_bind]
  unfold request
  split
  · rfl
  · rename_i id hserver
    rw [if_pos (h.server id hserver)]

/-- A client is bound to what it asks for if that may be. -/
theorem handle_of_mayBind (hmay : s.mayBind params mac ip = true) (now : Nat) :
    (s.handle msg params now).value =
      (some (s.ack msg params ip), s.withLease mac (s.boundLease ip now)) := by
  rw [h.handle_eq_bind]
  unfold bind
  dsimp only
  rw [h.chaddr, h.requested, if_pos hmay]
  split <;> rfl

/-- A client is refused what it may not be bound to. -/
theorem answer_of_not_mayBind (hmay : s.mayBind params mac ip = false) (now : Nat) :
    (s.handle msg params now).value.1 = some (nak msg params) := by
  rw [h.handle_eq_bind]
  unfold bind
  dsimp only
  rw [h.chaddr, h.requested, if_neg (Bool.not_eq_true _ ▸ hmay)]
  rfl

/-- A client that is refused its own address keeps it. -/
theorem server_of_not_mayBind (hmay : s.mayBind params mac ip = false)
    (hsame : ∀ lease, s.leases.get? mac = some lease → lease.ip = ip) (now : Nat) :
    (s.handle msg params now).value.2 = s := by
  rw [h.handle_eq_bind]
  unfold bind
  dsimp only
  rw [h.chaddr, h.requested, if_neg (Bool.not_eq_true _ ▸ hmay)]
  dsimp only [Logged.value_bind, Logged.value_pure]
  split
  · rename_i lease hlease
    rw [if_pos (hsame lease hlease)]
  · rfl

end AsksFor

end DhcpServer

end SegmentRouter
