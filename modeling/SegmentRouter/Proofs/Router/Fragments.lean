import Mathlib.Data.List.Forall2
import SegmentRouter.Proofs.Router.Forwarding
import SegmentRouter.Proofs.Wire.Twins

/-!
# Proofs/Router/Fragments — what the payload of a trailing fragment decides

What follows the header of a fragment other than the first is no transport header.  So two such
fragments that differ in their payloads only should come to the same: the same state, but for the
frames that wait, and the same frames sent, but for bytes copied from the payloads (`Alike`).  They
do unless one of the payloads reads as an echo request and the other one does not, and the router
looks: because it is asked for the echo itself, or because it may tell the sender that its
destination cannot be reached (`Steers`, `Reachable.alike_iff`).
-/

namespace SegmentRouter

open Wire (Bytes byteAt bytes16)
open Wire.Ipv4 (Packet)

/-! ## What leaves -/

/-- **Two frames that leave differ in what they have from two packets only**: they leave through the
same interface, are as long, and have the same headers.  A byte that differs behind these was copied
from the payloads, or is one of the checksum of a message of the router that quotes them. -/
structure Transmit.Twins (p q : Packet) (t u : Transmit) : Prop where
  interface : u.interface = t.interface
  length : u.frame.length = t.frame.length
  headers : Wire.Ipv4.headers u.frame = Wire.Ipv4.headers t.frame
  payload : (∀ i, p.Copied q t.frame u.frame i) ∨
    Wire.Icmp.Twins p q (t.frame.drop (Wire.Ethernet.headerLength + Wire.Ipv4.minHeaderLength))
      (u.frame.drop (Wire.Ethernet.headerLength + Wire.Ipv4.minHeaderLength))

namespace Transmit.Twins

variable {p q : Packet} {t u : Transmit}

theorem refl (p q : Packet) (t : Transmit) : Twins p q t t :=
  ⟨rfl, rfl, rfl, .inl fun i => .refl p q _ i⟩

theorem symm (h : Twins p q t u) : Twins q p u t :=
  ⟨h.interface.symm, h.length.symm, h.headers.symm,
    h.payload.imp (fun hcopied i => (hcopied i).symm) fun hmessage =>
      ⟨hmessage.length.symm, hmessage.valid.symm, fun i h2 h3 => (hmessage.copied i h2 h3).symm⟩⟩

end Transmit.Twins

/-! ## Frames that wait -/

/-- The entry without the bytes of the frames that wait. -/
def ArpEntry.masked : ArpEntry → ArpEntry
  | resolved mac via refreshed => resolved mac via refreshed
  | pending requested waiters =>
    pending requested (waiters.map fun w => { w with frame := [] })

/-- The cache without the bytes of the frames that wait. -/
def ArpCache.masked (cache : ArpCache) : ArpCache :=
  cache.mapValues fun _ => ArpEntry.masked

/-- The domain without the bytes of the frames that wait. -/
def Domain.masked (d : Domain) : Domain :=
  d.withArp d.arp.masked

/-- The domains without the bytes of the frames that wait. -/
def DomainTree.masked (tree : DomainTree) : DomainTree :=
  { tree with domains := tree.domains.map Domain.masked }

/-- The router without the bytes of the frames that wait. -/
def Router.masked (r : Router) : Router :=
  r.withTree r.tree.masked

/-- Of a frame that is parked only its bytes show where it waits. -/
theorem ArpCache.masked_park (cache : ArpCache) (hop : Ipv4Addr) (interface : InterfaceId)
    (a b : Bytes) (queued now : Nat) :
    (cache.park hop ⟨interface, b, queued⟩ now).1 = (cache.park hop ⟨interface, a, queued⟩ now).1 ∧
      ArpCache.masked (cache.park hop ⟨interface, b, queued⟩ now).2 =
        ArpCache.masked (cache.park hop ⟨interface, a, queued⟩ now).2 := by
  have hinserted (requested : Nat) (waiters : List Waiter) :
      ArpCache.masked (cache.insert hop (.pending requested (waiters ++ [⟨interface, b, queued⟩]))) =
        ArpCache.masked
          (cache.insert hop (.pending requested (waiters ++ [⟨interface, a, queued⟩]))) := by
    unfold ArpCache.masked
    rw [SortedMap.mapValues_insert, SortedMap.mapValues_insert]
    simp only [ArpEntry.masked, List.map_append, List.map_cons, List.map_nil]
  unfold park
  split
  · rename_i requested waiters hentry
    split
    · exact ⟨rfl, rfl⟩
    · exact ⟨rfl, hinserted requested waiters⟩
  · exact ⟨rfl, hinserted now []⟩

namespace DomainTree

variable {tree : DomainTree}

/-- Changes between which only the bytes of waiting frames differ. -/
theorem masked_update {name : String} {f g : Domain → Domain}
    (h : ∀ d, tree.byName? name = some d → (f d).masked = (g d).masked) :
    (tree.update name f).masked = (tree.update name g).masked := by
  have hmap : (changeByName name f tree.domains).map Domain.masked =
      (changeByName name g tree.domains).map Domain.masked := by
    cases hd : findByName? name tree.domains with
    | none => rw [changeByName_of_none hd, changeByName_of_none hd]
    | some d =>
      obtain ⟨pre, post, -, hchange⟩ := changeByName_eq_append hd
      rw [hchange, hchange, List.map_append, List.map_append, List.map_cons, List.map_cons, h d hd]
  exact congrArg (fun domains => ({ tree with domains } : DomainTree)) hmap

theorem masked_updateAt (tree : DomainTree) (id : DomainId) {f : Domain → Domain}
    (h : ∀ d, (f d).masked = f d.masked) :
    (tree.updateAt id f).masked = tree.masked.updateAt id f :=
  (tree.updateAt_map id fun d => (h d).symm).symm

end DomainTree

/-- What a reaction comes to, but for those that it sets free. -/
def Reaction.outcome (x : Reaction) : List Transmit × Router :=
  (x.sent, x.router)

namespace Router

variable {r r' : Router} {p q p' q' : Packet} {interface : InterfaceId} {a b : Bytes} {now : Nat}
  {mac : Mac} {d : Domain}

theorem masked_countSent (r : Router) (t : Transmit) :
    (r.countSent t).masked = r.masked.countSent t := by
  unfold countSent change
  dsimp only [masked, withTree]
  split
  · rfl
  · rename_i i hi
    dsimp only
    split
    · rw [DomainTree.masked_updateAt (f := (·.sent t.frame.length)) _ _ fun _ => rfl]
    · rfl

/-- Frames of one length are counted alike. -/
theorem masked_countAllSent {sent sent' : List Transmit}
    (hsent : List.Forall₂ (Transmit.Twins p q) sent sent') (h : r'.masked = r.masked) :
    (r'.countAllSent sent').masked = (r.countAllSent sent).masked := by
  induction hsent generalizing r r' with
  | nil => exact h
  | @cons t u sent sent' htwins _ ih =>
    refine ih ?_
    rw [masked_countSent, masked_countSent, h]
    unfold countSent
    rw [htwins.interface, htwins.length]

/-! ## What comes of twins -/

/-- **What the router sends, and how it changes, differs in what it has from two packets only.** -/
structure Alike (p q : Packet) (x y : List Transmit × Router) : Prop where
  sent : List.Forall₂ (Transmit.Twins p q) x.1 y.1
  router : y.2.masked = x.2.masked

theorem Alike.refl (p q : Packet) (x : List Transmit × Router) : Alike p q x x :=
  ⟨List.forall₂_same.2 fun t _ => .refl p q t, rfl⟩

/-- Frames of the router with twins differ in what is in the twins. -/
theorem twins_frameOf (h : p'.Twins q') (hp : p'.payload = p.payload) (hq : q'.payload = q.payload)
    (r : Router) (mac : Mac) (interface : InterfaceId) :
    Transmit.Twins p q ⟨interface, r.frameOf mac p'.bytes⟩ ⟨interface, r.frameOf mac q'.bytes⟩ := by
  refine ⟨rfl, ?_, ?_, .inl fun i => ?_⟩
  · dsimp only [frameOf]
    rw [Wire.Ethernet.length_build, Wire.Ethernet.length_build, h.length]
  · dsimp only [frameOf]
    rw [Wire.Ipv4.headers_build, Wire.Ipv4.headers_build]
    exact congrArg (_ ++ ·) h.header
  · refine .append_left (fun k => ?_) _
    have hcopied := h.copied k
    unfold Wire.Ipv4.Packet.Copied at hcopied ⊢
    rwa [hp, hq] at hcopied

/-- Frames of the router with messages of its own differ in what is in these. -/
theorem twins_reply {m m' : Bytes} (h : Wire.Icmp.Twins p q m m') (draft : Wire.Ipv4.Draft)
    (r : Router) (mac : Mac) (interface : InterfaceId) :
    Transmit.Twins p q ⟨interface, r.frameOf mac (draft.build m)⟩
      ⟨interface, r.frameOf mac (draft.build m')⟩ := by
  have hheader : draft.header m'.length (Wire.checksum (draft.header m'.length 0)) =
      draft.header m.length (Wire.checksum (draft.header m.length 0)) := by
    rw [h.length]
  have hdrop (m : Bytes) : (r.frameOf mac (draft.build m)).drop
      (Wire.Ethernet.headerLength + Wire.Ipv4.minHeaderLength) = m := by
    rw [← List.drop_drop, frameOf, Wire.Ethernet.drop_build, Wire.Ipv4.Draft.drop_build]
  refine ⟨rfl, ?_, ?_, .inr ?_⟩
  · dsimp only [frameOf]
    rw [Wire.Ethernet.length_build, Wire.Ethernet.length_build]
    dsimp only
    rw [Wire.Ipv4.Draft.build, Wire.Ipv4.Draft.build, List.length_append, List.length_append,
      hheader, h.length]
  · dsimp only [frameOf]
    rw [Wire.Ipv4.headers_build, Wire.Ipv4.headers_build]
    dsimp only
    rw [Wire.Ipv4.Draft.take_build, Wire.Ipv4.Draft.take_build, hheader]
  · dsimp only
    rw [hdrop, hdrop]
    exact h

/-- Where twins wait only their bytes differ, and the same is asked. -/
theorem alike_park (p q : Packet) (r : Router) (e : Domain) (hop : Ipv4Addr)
    (interface : InterfaceId) (a b : Bytes) (now : Nat) :
    Alike p q (r.park e hop ⟨interface, a, now⟩).value.outcome
      (r.park e hop ⟨interface, b, now⟩).value.outcome := by
  obtain ⟨houtcome, hcache⟩ := e.arp.masked_park hop interface a b now now
  refine ⟨?_, ?_⟩
  · have hsent : (r.park e hop ⟨interface, b, now⟩).value.sent =
        (r.park e hop ⟨interface, a, now⟩).value.sent := by
      unfold park
      dsimp only
      rcases hb : e.arp.park hop ⟨interface, b, now⟩ now with ⟨outcome, arp⟩
      rcases ha : e.arp.park hop ⟨interface, a, now⟩ now with ⟨outcome', arp'⟩
      rw [hb, ha] at houtcome
      obtain rfl : outcome = outcome' := houtcome
      cases outcome <;> rfl
    dsimp only [Reaction.outcome]
    rw [hsent]
    exact (Alike.refl p q (_, r)).sent
  · dsimp only [Reaction.outcome]
    rw [router_park, router_park]
    refine congrArg r.withTree (DomainTree.masked_update fun d _ => ?_)
    exact congrArg d.withArp hcache

theorem alike_pass (h : p'.Twins q') (hp : p'.payload = p.payload) (hq : q'.payload = q.payload)
    (r : Router) (domain : String) (interface : InterfaceId) (a b : Bytes) (now : Nat) :
    Alike p q (r.pass ⟨interface, a, now⟩ domain p').value.outcome
      (r.pass ⟨interface, b, now⟩ domain q').value.outcome := by
  unfold pass resolve
  rw [h.dst]
  split
  · exact .refl ..
  · rename_i e he
    split
    · exact .refl ..
    · exact .refl ..
    · exact alike_park ..
    · rename_i hop hroute
      unfold forward
      rw [he]
      refine ⟨?_, rfl⟩
      rw [Logged.value_bind, Logged.value_bind]
      refine List.forall₂_map_left_iff.2 (List.forall₂_map_right_iff.2 ?_)
      exact List.forall₂_same.2 fun id _ => twins_frameOf h hp hq r hop.mac id

theorem alike_reply {m m' : Bytes} (h : Wire.Icmp.Twins p q m m') (draft : Wire.Ipv4.Draft)
    (r : Router) (interface : InterfaceId) (mac : Mac) :
    Alike p q (r.reply interface mac (draft.build m)).outcome
      (r.reply interface mac (draft.build m')).outcome :=
  ⟨.cons (twins_reply h draft r mac interface) .nil, rfl⟩

/-- Twins that both ask for an echo are echoed alike. -/
theorem alike_echo (h : p.Twins q) (hp : Domain.isEchoRequest p = true)
    (hq : Domain.isEchoRequest q = true) (r : Router) (interface : InterfaceId) (mac : Mac) :
    Alike p q (r.echo interface mac p).value.outcome (r.echo interface mac q).value.outcome := by
  unfold echo
  rw [Wire.Icmp.echoReply_of_isEchoRequest hp, Wire.Icmp.echoReply_of_isEchoRequest hq, h.src, h.dst]
  exact alike_reply (Wire.Icmp.twins_echo h hp) ..

/-- Of twins the router tells alike, if they are echo requests both or neither, or if it may not
tell. -/
theorem alike_refuse (h : p'.Twins q') (hp : p'.payload = p.payload) (hq : q'.payload = q.payload)
    {routerIp : Ipv4Addr} (hip : d.routerIp? = some routerIp)
    (hecho : r.config.icmpUnreachable = true →
      Domain.isEchoRequest q' = Domain.isEchoRequest p') (interface : InterfaceId) (mac : Mac)
    (reason : Refusal) :
    Alike p q (r.refuse interface mac d reason p').value.outcome
      (r.refuse interface mac d reason q').value.outcome := by
  rw [value_refuse, value_refuse, hip]
  dsimp only
  unfold answerUnreachable mayAnswer
  rw [h.protocol?, h.src]
  by_cases htold : r.config.icmpUnreachable = true
  · rw [hecho htold]
    split
    · exact alike_reply (Wire.Icmp.twins_unreachable h hp hq _) ..
    · exact .refl ..
  · rw [if_neg fun hboth => htold hboth.1, if_neg fun hboth => htold hboth.1]
    exact .refl ..

/-! ## Verdicts -/

/-- **Of a trailing fragment the payload is read once**: when the router is asked for an echo. -/
theorem verdict_of_trailing (d : Domain) (h : p.isTrailingFragment = true) :
    d.verdict p = match d.routerIp? with
      | none => .drop .unconfigured
      | some routerIp =>
        if p.dst = routerIp ∧ Domain.isEchoRequest p = true then .echo
        else match p.nextHop? with
          | none => .drop .ttlExceeded
          | some p' => d.addressVerdict p' := by
  have hfragment : p.isFragment = true := by
    rw [Packet.isFragment, h, Bool.or_true]
  have hdhcp : d.dhcpVerdict? p = none := by
    rw [Domain.dhcpVerdict?, if_neg fun hlocal => hlocal.2.1 hfragment]
  rw [Domain.verdict, hdhcp, Option.getD_none, Domain.hostVerdict]
  cases d.routerIp? with
  | none => rfl
  | some routerIp =>
    dsimp only
    split
    · rfl
    · cases hnext : p.nextHop? with
      | none => rfl
      | some p' =>
        dsimp only
        have hflow : PacketFlow.ofPacket? p' = none := by
          rw [PacketFlow.ofPacket?_nextHop? hnext, PacketFlow.ofPacket?, if_pos hfragment]
        rw [Domain.transitVerdict, hflow]

theorem isEchoRequest_congr (hprotocol : q.protocol? = p.protocol?)
    (hpayload : q.payload = p.payload) : Domain.isEchoRequest q = Domain.isEchoRequest p := by
  rw [Domain.isEchoRequest, hprotocol, hpayload]
  rfl

/-- **What the payload of a trailing fragment decides**, where two payloads differ in whether they
read as an echo request: whether the router is asked for an echo, and whether the sender is told that
its destination cannot be reached. -/
def Steers (r : Router) (d : Domain) (p q : Packet) : Prop :=
  ∃ routerIp, d.routerIp? = some routerIp ∧ Domain.isEchoRequest q ≠ Domain.isEchoRequest p ∧
    (p.dst = routerIp ∨
      (1 < p.ttl.toNat ∧ d.passedTo? p.dst = none ∧ r.config.icmpUnreachable = true))

section

variable {id : DomainId} {f g : Wire.Ethernet.Frame}

theorem value_drop (r : Router) (frame : Waiter) (id : DomainId) (d : Domain) (mac : Mac)
    (p : Packet) (reason : DropReason) :
    (r.carryOutVerdict frame id d mac p (.drop reason)).value = r.sending [] := by
  cases reason <;> rfl

/-- Twins that are not for the router are sent on alike, or refused alike. -/
theorem alike_transit (h : p.Twins q) {routerIp : Ipv4Addr} (hip : d.routerIp? = some routerIp)
    (hecho : 1 < p.ttl.toNat → d.passedTo? p.dst = none → r.config.icmpUnreachable = true →
      Domain.isEchoRequest q = Domain.isEchoRequest p)
    (id : DomainId) (interface : InterfaceId) (a b : Bytes) (now : Nat) (mac : Mac) :
    Alike p q
      (r.carryOutVerdict ⟨interface, a, now⟩ id d mac p (match p.nextHop? with
        | none => .drop .ttlExceeded
        | some p' => d.addressVerdict p')).value.outcome
      (r.carryOutVerdict ⟨interface, b, now⟩ id d mac q (match q.nextHop? with
        | none => .drop .ttlExceeded
        | some q' => d.addressVerdict q')).value.outcome := by
  rcases h.nextHop? with ⟨hp, hq⟩ | ⟨p', q', hp, hq, htwins, hpp, hqq⟩
  · rw [hp, hq]
    dsimp only
    rw [value_drop, value_drop]
    exact .refl ..
  · rw [hp, hq]
    dsimp only
    rw [Domain.addressVerdict_eq, Domain.addressVerdict_eq, htwins.dst]
    split
    · exact alike_pass htwins hpp hqq ..
    · rename_i hnone
      rw [Packet.dst_nextHop? hp] at hnone
      refine alike_refuse htwins hpp hqq hip (fun htold => ?_) ..
      rw [isEchoRequest_congr (Packet.protocol?_nextHop? hq) hqq,
        isEchoRequest_congr (Packet.protocol?_nextHop? hp) hpp]
      exact hecho (Packet.nextHop?_eq_some.1 hp).1 hnone htold

/-- **Where the payloads do not decide, twins come to the same.** -/
theorem alike_carryOutVerdict (h : p.Twins q) (ht : p.isTrailingFragment = true)
    (hs : ¬ r.Steers d p q) (id : DomainId) (interface : InterfaceId) (a b : Bytes) (now : Nat)
    (mac : Mac) :
    Alike p q (r.carryOutVerdict ⟨interface, a, now⟩ id d mac p (d.verdict p)).value.outcome
      (r.carryOutVerdict ⟨interface, b, now⟩ id d mac q (d.verdict q)).value.outcome := by
  rw [verdict_of_trailing d ht, verdict_of_trailing d (h.isTrailingFragment.trans ht), h.dst]
  cases hip : d.routerIp? with
  | none =>
    dsimp only
    rw [value_drop, value_drop]
    exact .refl ..
  | some routerIp =>
    dsimp only
    by_cases hsame : Domain.isEchoRequest q = Domain.isEchoRequest p
    · rw [hsame]
      split
      · rename_i hlocal
        exact alike_echo h hlocal.2 (hsame.trans hlocal.2) r interface mac
      · exact alike_transit h hip (fun _ _ _ => hsame) ..
    · have hdst : p.dst ≠ routerIp := fun hdst => hs ⟨routerIp, hip, hsame, .inl hdst⟩
      rw [if_neg fun hlocal => hdst hlocal.1, if_neg fun hlocal => hdst hlocal.1]
      refine alike_transit h hip (fun httl hnone htold => ?_) ..
      exact absurd ⟨routerIp, hip, hsame, .inr ⟨httl, hnone, htold⟩⟩ hs

/-- **No frame that is sent for a trailing fragment has the headers of a message of the router.** -/
theorem headers_ne_of_sendsOn (ht : p.isTrailingFragment = true) {frame : Bytes}
    (h : r.SendsOn r' d p frame) (r₀ : Router) (mac : Mac) (draft : Wire.Ipv4.Draft) (m : Bytes) :
    Wire.Ipv4.headers frame ≠ Wire.Ipv4.headers (r₀.frameOf mac (draft.build m)) := by
  have hfragment : p.isFragment = true := by
    rw [Packet.isFragment, ht, Bool.or_true]
  have hflow {flow : PacketFlow} (hflow : PacketFlow.ofPacket? p = some flow) : False := by
    rw [PacketFlow.ofPacket?, if_pos hfragment] at hflow
    cases hflow
  intro hsame
  cases h with
  | asks =>
    -- the type numbers differ
    unfold Wire.Arp.Packet.frame frameOf at hsame
    rw [Wire.Ipv4.headers_build, Wire.Ipv4.headers_build] at hsame
    have htype : bytes16 Wire.EtherType.arp.number = bytes16 Wire.EtherType.ipv4.number :=
      List.append_inj_right (List.append_inj_left hsame rfl) rfl
    exact absurd htype (by decide)
  | @passes domain packet q mac' hverdict hq =>
    -- the offsets of the fragments differ
    unfold frameOf at hsame
    rw [Wire.Ipv4.headers_build, Wire.Ipv4.headers_build] at hsame
    have hheader := List.append_inj_right hsame rfl
    dsimp only at hheader
    rw [Wire.Ipv4.Draft.take_build] at hheader
    have hmin := q.headerLength_ge
    have hbyte (i : Nat) (hi : i < 8) : byteAt p.bytes i =
        byteAt (draft.header m.length (Wire.checksum (draft.header m.length 0))) i := by
      rw [← hheader, Wire.byteAt_take (by unfold Packet.headerLength at hmin; omega),
        hq.bytes i (by omega) (by omega) (by omega)]
    obtain ⟨h6, h7⟩ := draft.fragment_header m.length (Wire.checksum (draft.header m.length 0))
    have hoffset : p.fragmentOffset = 0 := by
      rw [Packet.fragmentOffset, hbyte 6 (by decide), hbyte 7 (by decide), h6, h7]
      rfl
    rw [Packet.isTrailingFragment, hoffset] at ht
    cases ht
  | follows hlink hseat hsome => exact hflow hsome
  | opens hlink hseat hsome => exact hflow hsome

/-- So it is for all that is sent because of an ICMP fragment that does not read as an echo
request. -/
theorem headers_ne_of_mem_sent (ht : p.isTrailingFragment = true)
    (hecho : Domain.isEchoRequest p = false) (hicmp : p.protocol? = some .icmp) (frame : Waiter)
    (id : DomainId) (mac : Mac) {t : Transmit}
    (hmem : t ∈ (r.carryOutVerdict frame id d mac p (d.verdict p)).value.sent) (r₀ : Router)
    (mac' : Mac) (draft : Wire.Ipv4.Draft) (m : Bytes) :
    Wire.Ipv4.headers t.frame ≠ Wire.Ipv4.headers (r₀.frameOf mac' (draft.build m)) := by
  have hverdict := verdict_of_trailing d ht
  cases hip : d.routerIp? with
  | none =>
    rw [hip] at hverdict
    rw [hverdict] at hmem
    exact absurd hmem List.not_mem_nil
  | some routerIp =>
    rw [hip] at hverdict
    dsimp only at hverdict
    rw [if_neg (by rw [hecho]; nofun)] at hverdict
    cases hnext : p.nextHop? with
    | none =>
      rw [hnext] at hverdict
      rw [hverdict] at hmem
      exact absurd hmem List.not_mem_nil
    | some p' =>
      rw [hnext] at hverdict
      dsimp only at hverdict
      rw [Domain.addressVerdict_eq] at hverdict
      rw [hverdict] at hmem
      cases hpassed : d.passedTo? p'.dst with
      | some domain =>
        rw [hpassed] at hverdict hmem
        have hsends : r.SendsOn r d p t.frame := sendsOn_pass hverdict hnext hmem
        exact headers_ne_of_sendsOn ht hsends r₀ mac' draft m
      | none =>
        rw [hpassed] at hmem
        have hquiet : mayAnswer p' = false := by
          have hecho' := isEchoRequest_congr (Packet.protocol?_nextHop? hnext)
            (Packet.payload_nextHop? hnext)
          rw [mayAnswer, hecho', hecho, Packet.protocol?_nextHop? hnext, hicmp]
          rfl
        dsimp only [carryOutVerdict] at hmem
        rw [value_refuse, hip] at hmem
        dsimp only at hmem
        rw [answerUnreachable, hquiet, if_neg fun hboth => Bool.false_ne_true hboth.2] at hmem
        exact absurd hmem List.not_mem_nil

theorem protocol?_of_isEchoRequest (h : Domain.isEchoRequest p = true) :
    p.protocol? = some .icmp := by
  unfold Domain.isEchoRequest at h
  exact eq_of_beq (Bool.and_eq_true_iff.1 h).1

/-- **A trailing fragment that reads as an echo request is answered**, where the payload decides. -/
theorem answered_of_echo (ht : p.isTrailingFragment = true) (hs : r.Steers d p q)
    (hecho : Domain.isEchoRequest p = true) (frame : Waiter) (id : DomainId) (mac : Mac) :
    ∃ draft m, (r.carryOutVerdict frame id d mac p (d.verdict p)).value.sent =
      [⟨frame.src, r.frameOf mac (Wire.Ipv4.Draft.build draft m)⟩] := by
  obtain ⟨routerIp, hip, -, hlooks⟩ := hs
  have hverdict := verdict_of_trailing d ht
  rw [hip] at hverdict
  dsimp only at hverdict
  by_cases hdst : p.dst = routerIp
  · rw [if_pos ⟨hdst, hecho⟩] at hverdict
    rw [hverdict]
    dsimp only [carryOutVerdict]
    rw [echo, Wire.Icmp.echoReply_of_isEchoRequest hecho]
    exact ⟨_, _, rfl⟩
  · obtain ⟨httl, hnone, htold⟩ := hlooks.resolve_left hdst
    obtain ⟨p', hnext⟩ : ∃ p', p.nextHop? = some p' := ⟨_, Packet.nextHop?_eq_some.2 ⟨httl, rfl⟩⟩
    rw [if_neg fun hlocal => hdst hlocal.1, hnext] at hverdict
    dsimp only at hverdict
    rw [Domain.addressVerdict_eq, Packet.dst_nextHop? hnext, hnone] at hverdict
    have hmay : mayAnswer p' = true := by
      rw [mayAnswer, isEchoRequest_congr (Packet.protocol?_nextHop? hnext)
        (Packet.payload_nextHop? hnext), hecho, Bool.or_true]
    rw [hverdict]
    dsimp only [carryOutVerdict]
    rw [value_refuse, hip]
    dsimp only
    rw [answerUnreachable, if_pos ⟨htold, hmay⟩]
    exact ⟨_, _, rfl⟩

theorem Steers.symm (h : p.Twins q) (hs : r.Steers d p q) : r.Steers d q p := by
  obtain ⟨routerIp, hip, hne, hlooks⟩ := hs
  refine ⟨routerIp, hip, hne.symm, ?_⟩
  rwa [h.dst, h.ttl]

/-- **Where the payload decides, twins are not answered alike.** -/
theorem not_twins_of_steers (h : p.Twins q) (ht : p.isTrailingFragment = true)
    (hs : r.Steers d p q) (id : DomainId) (frame frame' : Waiter) (mac : Mac) :
    ¬ List.Forall₂ (Transmit.Twins p q)
      (r.carryOutVerdict frame id d mac p (d.verdict p)).value.sent
      (r.carryOutVerdict frame' id d mac q (d.verdict q)).value.sent := by
  -- the one that asks for an echo may be either
  wlog hecho : Domain.isEchoRequest p = true generalizing p q frame frame'
  · have hother : Domain.isEchoRequest q = true := by
      obtain ⟨-, -, hne, -⟩ := hs
      rw [Bool.eq_false_iff.2 hecho] at hne
      exact eq_true_of_ne_false hne
    intro halike
    exact this h.symm (h.isTrailingFragment.trans ht) (hs.symm h) frame' frame hother
      (halike.imp fun _ _ htwins => htwins.symm).flip
  obtain ⟨draft, m, hsent⟩ := answered_of_echo ht hs hecho frame id mac
  have hother : Domain.isEchoRequest q = false := by
    obtain ⟨-, -, hne, -⟩ := hs
    exact Bool.eq_false_iff.2 fun hq => hne (hq.trans hecho.symm)
  have hicmp := h.protocol?.trans (protocol?_of_isEchoRequest hecho)
  intro halike
  rw [hsent] at halike
  obtain ⟨u, hu, htwins⟩ : ∃ u ∈ (r.carryOutVerdict frame' id d mac q (d.verdict q)).value.sent,
      Transmit.Twins p q ⟨frame.src, r.frameOf mac (draft.build m)⟩ u := by
    generalize (r.carryOutVerdict frame' id d mac q (d.verdict q)).value.sent = sent at halike
    cases halike with
    | cons htwins _ => exact ⟨_, List.mem_cons_self, htwins⟩
  exact headers_ne_of_mem_sent (h.isTrailingFragment.trans ht) hother hicmp frame' id mac hu r mac
    draft m htwins.headers

end

/-! ## Frames -/

section

variable {id : DomainId} {f g : Wire.Ethernet.Frame}

/-- A frame with a packet comes to nothing, unless it arrives in a domain, for the router or for
everyone, with a header that is intact. -/
theorem process_eq_of_not_arrives {frame : Waiter} (hf : Wire.Ethernet.parse frame.frame = .ok f)
    (htype : Wire.EtherType.ofNumber? f.etherType = some .ipv4)
    (hp : Wire.Ipv4.parse f.payload = .ok p) (hno : ∀ id d, ¬ r.Arrives frame id d f p) :
    (r.process frame).value = r.sending [] := by
  rcases r.handles_ipv4 hf htype with hvalue | ⟨id, d, p', ha, -⟩
  · exact hvalue
  · obtain rfl := Except.ok.inj (hp.symm.trans ha.packet)
    exact absurd ha (hno id d)

/-- A twin arrives where its twin does. -/
theorem Arrives.twin (h : r.Arrives ⟨interface, a, now⟩ id d f p) (htwins : p.Twins q)
    (hg : Wire.Ethernet.parse b = .ok g) (hdst : g.dst = f.dst)
    (htype : Wire.EtherType.ofNumber? g.etherType = some .ipv4)
    (hq : Wire.Ipv4.parse g.payload = .ok q) : r.Arrives ⟨interface, b, now⟩ id d g q :=
  ⟨h.handle, h.domain, hg, hdst ▸ h.addressed, htype, hq,
    htwins.headerChecksumValid.trans h.intact⟩

/-- A frame arrives where it arrives once it is counted. -/
theorem Arises.arrives_countArrival (h : r.Arises) (frame : Waiter) (n : Nat) {d' : Domain} :
    (r.countArrival frame.src n).Arrives frame id d' f p ↔
      ∃ d, r.Arrives frame id d f p ∧ d' = d.received n := by
  have hconfig : (r.countArrival frame.src n).config = r.config :=
    (r.calm_countArrival frame.src n).config
  constructor
  · intro ha
    cases hd : r.domainOf? frame.src with
    | none =>
      rw [countArrival, hd] at ha
      cases hd.symm.trans ha.domainOf?_eq
    | some d =>
      obtain ⟨id', hid, hget⟩ := Option.bind_eq_some_iff.1 hd
      obtain ⟨hid', hget'⟩ := h.good.domain_countArrival hid hget n
      obtain rfl := Option.some.inj (hid'.symm.trans ha.handle)
      obtain rfl := Option.some.inj (hget'.symm.trans ha.domain)
      exact ⟨d, ⟨hid, hget, ha.ethernet, hconfig ▸ ha.addressed, ha.type, ha.packet, ha.intact⟩, rfl⟩
  · rintro ⟨d, ha, rfl⟩
    obtain ⟨hid, hget⟩ := h.good.domain_countArrival ha.handle ha.domain n
    exact ⟨hid, hget, ha.ethernet, hconfig ▸ ha.addressed, ha.type, ha.packet, ha.intact⟩

/-- **The payload of a trailing fragment decides nothing, but where it reads as an echo request.**
Two frames that carry such fragments and differ in their payloads only, and arrive on one interface
at one time, come to the same: the same state but for the frames that wait, and the same frames sent
but for bytes copied from the payloads.  They do not exactly if the one payload reads as an echo
request and the other one does not, and the router is asked for the echo or may tell the sender that
no rule covers the packet. -/
theorem Reachable.alike_iff (h : r.Reachable) (htwins : Wire.Ipv4.Twins a b f p)
    (interface : InterfaceId) (now : Nat) :
    ∃ g q, Wire.Ethernet.parse b = .ok g ∧ Wire.Ipv4.parse g.payload = .ok q ∧
      (Alike p q (r.receive interface a now).value (r.receive interface b now).value ↔
        ¬ ∃ id d, r.Arrives ⟨interface, a, now⟩ id d f p ∧ r.Steers d p q) := by
  obtain ⟨g, q, hg, hdst, hsrc, htype, hq, hpq⟩ := htwins.parse
  refine ⟨g, q, hg, hq, ?_⟩
  have hcounted := h.arises.moves (r.moves_countArrival interface a.length)
  have hreleased : ((r.countArrival interface b.length).process
      ⟨interface, b, now⟩).value.released = [] := by
    rw [htwins.length]
    exact released_process_of_isIpv4 hcounted.good ⟨g, hg, htype⟩
  rw [receive_eq (released_process_of_isIpv4 hcounted.good ⟨f, htwins.ethernet, htwins.type⟩),
    receive_eq hreleased, htwins.length]
  dsimp only
  generalize hr₁ : r.countArrival interface a.length = r₁ at hcounted ⊢
  have harrives {id : DomainId} {d' : Domain} : r₁.Arrives ⟨interface, a, now⟩ id d' f p ↔
      ∃ d, r.Arrives ⟨interface, a, now⟩ id d f p ∧ d' = d.received a.length :=
    hr₁ ▸ h.arises.arrives_countArrival ⟨interface, a, now⟩ a.length
  have hconfig : r₁.config = r.config := hr₁ ▸ (r.calm_countArrival interface a.length).config
  by_cases harr : ∃ id d, r.Arrives ⟨interface, a, now⟩ id d f p
  · obtain ⟨id, d, ha⟩ := harr
    have hsteers : (∃ id d, r.Arrives ⟨interface, a, now⟩ id d f p ∧ r.Steers d p q) ↔
        r₁.Steers (d.received a.length) p q := by
      unfold Steers
      rw [hconfig]
      constructor
      · rintro ⟨id', d', ha', hs⟩
        obtain rfl := Option.some.inj (ha.domainOf?_eq.symm.trans ha'.domainOf?_eq)
        exact hs
      · exact fun hs => ⟨id, d, ha, hs⟩
    have ha₁ := harrives.2 ⟨d, ha, rfl⟩
    have hb₁ := ha₁.twin hpq hg hdst htype hq
    rw [hsteers, ha₁.process_eq, hb₁.process_eq, hsrc]
    constructor
    · intro halike hs
      exact not_twins_of_steers hpq htwins.trailing hs id _ _ f.src halike.sent
    · intro hs
      have halike := alike_carryOutVerdict hpq htwins.trailing hs id interface a b now f.src
      exact ⟨halike.sent, masked_countAllSent halike.sent halike.router⟩
  · have hno (id : DomainId) (d' : Domain) : ¬ r₁.Arrives ⟨interface, a, now⟩ id d' f p :=
      fun ha₁ => harr ⟨id, (harrives.1 ha₁).imp fun _ hd => hd.1⟩
    have hno' (id : DomainId) (d' : Domain) : ¬ r₁.Arrives ⟨interface, b, now⟩ id d' g q :=
      fun hb₁ => hno id d' (hb₁.twin hpq.symm htwins.ethernet hdst.symm htwins.type htwins.packet)
    rw [process_eq_of_not_arrives htwins.ethernet htwins.type htwins.packet hno,
      process_eq_of_not_arrives hg htype hq hno']
    exact iff_of_true (.refl ..) fun ⟨id, d, ha, _⟩ => harr ⟨id, d, ha⟩

end

namespace Ping

/-- A fragment to the router, other than the first, with room for an ICMP message. -/
def toRouter : Packet where
  bytes := Wire.overwrite (Wire.Ipv4.Draft.build
    { src := .ofOctets 10 0 0 2, dst := .ofOctets 10 0 0 1, protocolNumber := 1 }
    (List.replicate 8 0)) 6 [0, 1]
  version_eq := by decide +kernel
  minHeaderLength_le := by decide +kernel
  headerLength_le := by decide +kernel
  totalLength_eq := by decide +kernel

/-- The fragment with a payload that starts with a given byte and ends with another one. -/
def trailing (first last : UInt8) : Packet :=
  (toRouter.refreshChecksum.writePayload 0 [first]).writePayload 7 [last]

/-- The frame with the fragment. -/
def trailingFrame (first last : UInt8) : Wire.Ethernet.Frame :=
  { ethernet with payload := (trailing first last).bytes }

theorem twins_trailing (first last first' last' : UInt8) :
    (trailing first last).Twins (trailing first' last') := by
  have hwritten (first last : UInt8) : toRouter.refreshChecksum.Twins (trailing first last) :=
    (Packet.twins_writePayload ..).trans (Packet.twins_writePayload ..)
  exact (hwritten first last).symm.trans (hwritten first' last')

end Ping

/-- Two trailing fragments that read as echo requests are answered alike. -/
theorem alike_trailing : Ping.attached.Reachable ∧
    Wire.Ipv4.Twins (Wire.Ethernet.build (Ping.trailingFrame 8 1))
      (Wire.Ethernet.build (Ping.trailingFrame 8 2)) (Ping.trailingFrame 8 1) (Ping.trailing 8 1) ∧
    Alike (Ping.trailing 8 1) (Ping.trailing 8 2)
      (Ping.attached.receive ⟨0, 0⟩ (Wire.Ethernet.build (Ping.trailingFrame 8 1)) 0).value
      (Ping.attached.receive ⟨0, 0⟩ (Wire.Ethernet.build (Ping.trailingFrame 8 2)) 0).value := by
  have htwins := Wire.Ipv4.twins_build (Ping.twins_trailing 8 1 8 2) (by decide +kernel)
    Ping.ethernet (by decide)
  obtain ⟨g, q, hg, hq, halike⟩ := Ping.reachable_attached.alike_iff htwins ⟨0, 0⟩ 0
  obtain rfl := Except.ok.inj ((Wire.Ethernet.parse_build _).symm.trans hg)
  obtain rfl := Except.ok.inj ((Wire.Ipv4.parse_bytes _).symm.trans hq)
  refine ⟨Ping.reachable_attached, htwins, halike.2 ?_⟩
  rintro ⟨id, d, -, routerIp, -, hne, -⟩
  exact hne (by decide +kernel)

/-- **A trailing fragment is answered as an echo request** if its payload starts like one, and comes
to nothing if it does not. -/
theorem trailing_echoed : Ping.attached.Reachable ∧
    Wire.Ipv4.Twins (Wire.Ethernet.build (Ping.trailingFrame 8 0))
      (Wire.Ethernet.build (Ping.trailingFrame 0 0)) (Ping.trailingFrame 8 0) (Ping.trailing 8 0) ∧
    (Ping.attached.receive ⟨0, 0⟩ (Wire.Ethernet.build (Ping.trailingFrame 8 0)) 0).value.1.length =
      1 ∧
    (Ping.attached.receive ⟨0, 0⟩ (Wire.Ethernet.build (Ping.trailingFrame 0 0)) 0).value.1 = [] ∧
    ¬ Alike (Ping.trailing 8 0) (Ping.trailing 0 0)
      (Ping.attached.receive ⟨0, 0⟩ (Wire.Ethernet.build (Ping.trailingFrame 8 0)) 0).value
      (Ping.attached.receive ⟨0, 0⟩ (Wire.Ethernet.build (Ping.trailingFrame 0 0)) 0).value := by
  have hone : (Ping.attached.receive ⟨0, 0⟩
      (Wire.Ethernet.build (Ping.trailingFrame 8 0)) 0).value.1.length = 1 := by decide +kernel
  have hnone : (Ping.attached.receive ⟨0, 0⟩
      (Wire.Ethernet.build (Ping.trailingFrame 0 0)) 0).value.1 = [] := by decide +kernel
  refine ⟨Ping.reachable_attached, Wire.Ipv4.twins_build (Ping.twins_trailing 8 0 0 0)
    (by decide +kernel) Ping.ethernet (by decide), hone, hnone, fun halike => ?_⟩
  have hlength := halike.sent.length_eq
  rw [hone, hnone] at hlength
  cases hlength

end Router

end SegmentRouter
