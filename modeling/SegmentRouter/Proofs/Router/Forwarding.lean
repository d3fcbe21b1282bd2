import SegmentRouter.Proofs.Router.RoundTrip
import SegmentRouter.Proofs.Router.Waiting
import SegmentRouter.Proofs.Wire.Carriage

/-!
# Proofs/Router/Forwarding — a packet that is sent on is changed only where it must be

For a packet that the rules of its domain send on, a router asks for the next hop or sends a single
packet (`Router.SendsOn`).  A packet that a rule for addresses passes leaves with a hop less and is
otherwise the same; a packet of a link leaves with the addresses and ports of the link's other end
too.  So it is for the frame that arrives and for every frame that waited until then
(`Reachable.sendsOn`), and what the frame holds after the packet's total length is left behind.
-/

namespace SegmentRouter

open Wire (Bytes)
open Wire.Ipv4 (Packet)

/-- What a packet of an echo leaves a link with has one identifier for both ports. -/
theorem Link.Echoes.egress {link : Link} (h : link.Echoes) (s : Side)
    (hicmp : link.protocol = .icmp) :
    (link.egress s).rewrite.srcPort = (link.egress s).rewrite.dstPort := by
  cases s with
  | client => exact (h.server hicmp).symm
  | server => exact (h.client hicmp).symm

namespace Router

variable {r r' : Router}

/-- **What a router sends for a packet that a domain sends on**, while it becomes another one. -/
inductive SendsOn (r r' : Router) (d : Domain) (p : Packet) : Bytes → Prop
  /-- The frame has to wait, and the next hop is asked for. -/
  | asks {src hop : Ipv4Addr} :
      SendsOn r r' d p (Wire.Arp.Packet.request r.config.mac src hop).frame
  | passes {domain : String} {packet q : Packet} {mac : Mac}
      (hverdict : d.verdict p = .pass domain packet) (hq : p.Passed q) :
      SendsOn r r' d p (r.frameOf mac q.bytes)
  /-- The packet is of the flow of an end of a live link. -/
  | follows {link : Link} {side : Side} {flow : PacketFlow} {q : Packet} {mac : Mac}
      (hlink : link ∈ r.tree.liveLinks) (hseat : link.seat side = ⟨d.name, flow.key⟩)
      (hflow : PacketFlow.ofPacket? p = some flow)
      (hq : p.Carried flow (link.egress side).rewrite q) : SendsOn r r' d p (r.frameOf mac q.bytes)
  /-- The packet is the first one of a link. -/
  | opens {link : Link} {flow : PacketFlow} {q : Packet} {mac : Mac}
      (hlink : link ∈ r'.tree.liveLinks) (hseat : link.seat .client = ⟨d.name, flow.key⟩)
      (hflow : PacketFlow.ofPacket? p = some flow)
      (hq : p.Carried flow (link.egress .client).rewrite q) :
      SendsOn r r' d p (r.frameOf mac q.bytes)

/-! ## What is sent on the way -/

section

variable {frame : Waiter} {d : Domain} {p : Packet} {t : Transmit}

theorem frame_of_mem_forward (r : Router) {name : String} {hop : NextHop} {packet : Packet}
    (ht : t ∈ (r.forward name hop packet).value.sent) :
    t.frame = r.frameOf hop.mac packet.bytes := by
  unfold forward at ht
  split at ht
  · exact absurd ht List.not_mem_nil
  · obtain ⟨id, -, rfl⟩ := List.mem_map.1 ht
    rfl

/-- **A frame that is parked causes no more than a question.** -/
theorem asks_of_mem_park {e : Domain} {hop : Ipv4Addr}
    (ht : t ∈ (r.park e hop frame).value.sent) : r.SendsOn r' d p t.frame := by
  have hasked : t ∈ r.askFor e hop := by
    revert ht
    unfold park
    rcases e.arp.park hop frame frame.queued with ⟨outcome, arp⟩
    cases outcome with
    | requestNeeded => exact id
    | queued => exact fun ht => absurd ht List.not_mem_nil
    | dropped => exact fun ht => absurd ht List.not_mem_nil
  unfold askFor at hasked
  split at hasked
  · obtain ⟨id, -, rfl⟩ := List.mem_map.1 hasked
    exact .asks
  · exact absurd hasked List.not_mem_nil

/-- **Looking for a way asks at most, or finds a next hop and leaves the router as it is.** -/
theorem asks_resolve (r r' : Router) (d : Domain) (p : Packet) (name : String) (dst : Ipv4Addr)
    (frame : Waiter) :
    (∃ x, (r.resolve name dst frame).value = (none, x) ∧ ∀ t ∈ x.sent, r.SendsOn r' d p t.frame) ∨
      ∃ hop, (r.resolve name dst frame).value = (some hop, r.sending []) := by
  rcases r.resolve_cases name dst frame with hno | ⟨e, hop, -, -, hparked⟩ | ⟨e, hop, -, -, hknown⟩
  · exact .inl ⟨_, hno, fun _ ht => absurd ht List.not_mem_nil⟩
  · exact .inl ⟨_, hparked, fun _ ht => asks_of_mem_park ht⟩
  · exact .inr ⟨hop, hknown⟩

/-- A packet that leaves for a link that was entered leaves with the addresses of its other end. -/
theorem of_mem_enter {link : Link} {hop : NextHop} {packet : Packet}
    (ht : t ∈ (r.enter link hop packet).value.sent) :
    t.frame = r.frameOf hop.mac
        (packet.translate link.protocol (link.egress .client).rewrite).bytes ∧
      (r.enter link hop packet).value.router.tree.ownedLink? link.client.domain link.id =
        some link := by
  have hrouter := router_enter r link hop packet
  cases hins : r.tree.insertLink? link with
  | some tree =>
    rw [hins] at hrouter
    refine ⟨?_, ?_⟩
    · unfold enter at ht
      rw [hins] at ht
      exact frame_of_mem_forward { r with tree, nextLink := r.nextLink + 1 } ht
    · rw [hrouter]
      exact (DomainTree.ownedLink?_insertLink? hins _ _).trans (if_pos ⟨rfl, rfl⟩)
  | none =>
    unfold enter at ht
    rw [hins] at ht
    cases hport : link.natPort with
    | some port =>
      dsimp only at ht
      rw [Logged.value_bind, hport] at ht
      exact absurd ht List.not_mem_nil
    | none =>
      dsimp only at ht
      rw [Logged.value_bind, hport] at ht
      exact absurd ht List.not_mem_nil

end

/-! ## The three ways on -/

section

variable {frame : Waiter} {id : DomainId} {d : Domain} {f : Wire.Ethernet.Frame} {p q : Packet}
  {flow : PacketFlow} {t : Transmit}

theorem sendsOn_pass {domain : String} (hverdict : d.verdict p = .pass domain q)
    (hq : p.nextHop? = some q) (ht : t ∈ (r.pass frame domain q).value.sent) :
    r.SendsOn r' d p t.frame := by
  unfold pass at ht
  rcases r.asks_resolve r' d p domain q.dst frame with ⟨x, hvalue, hx⟩ | ⟨hop, hvalue⟩
  · rw [Logged.value_bind, hvalue] at ht
    exact hx t ht
  · rw [Logged.value_bind, hvalue] at ht
    rw [r.frame_of_mem_forward ht]
    exact .passes hverdict (Packet.passed_nextHop? hq)

theorem sendsOn_follow (ha : r.Arrives frame id d f p) (h : r.Arises)
    (hflow : PacketFlow.ofPacket? p = some flow) {ref : LinkRef}
    (hlookup : d.links.lookup? flow.key = some ref) (hq : p.nextHop? = some q)
    (ht : t ∈ (r.follow frame ref flow q).value.sent) : r.SendsOn r' d p t.frame := by
  obtain ⟨hby, -⟩ := h.good.byName?_of_domainId? ha.handle ha.domain
  have hindexed : r.tree.lookup? ⟨d.name, flow.key⟩ = some ref := by
    rw [DomainTree.lookup?, hby]
    exact hlookup
  obtain ⟨link, hm, hsits, rfl⟩ := (h.good.sound.index ..).1 hindexed
  have howned := h.good.sound.ownedLink?_of_mem hm
  have hseat := Link.seat_side_refAt hsits
  generalize hside : (link.refAt ⟨d.name, flow.key⟩).side = side at hseat
  have hprotocol : flow.key.protocol = link.protocol :=
    (congrArg (fun seat : Seat => seat.key.protocol) hseat).symm
  unfold follow at ht
  dsimp only [Link.refAt, DomainTree.refOf] at ht hside
  rw [howned] at ht
  dsimp only at ht
  rw [hside] at ht
  rcases r.asks_resolve r' d p (link.egress side).domain (link.egress side).rewrite.dstIp frame with
    ⟨x, hvalue, hx⟩ | ⟨hop, hvalue⟩
  · rw [Logged.value_bind, hvalue] at ht
    exact hx t ht
  · rw [Logged.value_bind, hvalue] at ht
    rw [frame_of_mem_forward _ ht]
    refine .follows hm hseat hflow (Packet.carried_translate hq hflow fun hicmp => ?_)
    exact (h.echoes hm).egress side (hprotocol ▸ hicmp)

theorem sendsOn_openLink (ha : r.Arrives frame id d f p) (h : r.Arises) {target : LinkTarget}
    (hverdict : d.verdict p = .openLink target flow q)
    (hflow : PacketFlow.ofPacket? p = some flow) (hq : p.nextHop? = some q)
    (ht : t ∈ (r.openLink frame d.name target flow q).value.sent) :
    r.SendsOn (r.openLink frame d.name target flow q).value.router d p t.frame := by
  have hgood := (h.moves (moves_openLink ha hverdict)).good
  generalize hafter : (r.openLink frame d.name target flow q).value = after at ht hgood ⊢
  unfold openLink at hafter
  split at hafter
  · exact absurd (hafter ▸ ht) List.not_mem_nil
  · rename_i server hserver
    split at hafter
    · exact absurd (hafter ▸ ht) List.not_mem_nil
    · rename_i routerIp hip
      unfold openTowards at hafter
      rcases r.asks_resolve after.router d p target.domain target.ip frame with
        ⟨x, hvalue, hx⟩ | ⟨hop, hvalue⟩
      · rw [Logged.value_bind, hvalue] at hafter
        obtain rfl : x = after := hafter
        exact hx t ht
      · rw [Logged.value_bind, hvalue] at hafter
        dsimp only at hafter
        cases hsource : server.linkSource routerIp d.name flow.key with
        | error e =>
          rw [hsource] at hafter
          exact absurd (hafter ▸ ht) List.not_mem_nil
        | ok found =>
          rw [hsource] at hafter
          dsimp only at hafter
          subst hafter
          obtain ⟨hframe, howned⟩ := of_mem_enter ht
          rw [hframe]
          have hm := (hgood.sound.ownedLink?_eq_some.1 howned).1
          rw [Link.protocol_opened]
          refine .opens hm ?_ hflow (Packet.carried_translate hq hflow fun hicmp => ?_)
          · rw [Link.seat, Link.key_client_opened, Link.side, Link.client_opened]
          · exact (Link.echoes_opened hflow ..).egress .client
              ((Link.protocol_opened ..).trans hicmp)

/-- **For a packet that its domain sends on a router asks, or sends it on as it must.** -/
theorem sendsOn_carryOutVerdict (ha : r.Arrives frame id d f p) (h : r.Arises)
    (hleaves : (d.verdict p).Leaves) (mac : Mac)
    (ht : t ∈ (r.carryOutVerdict frame id d mac p (d.verdict p)).value.sent) :
    r.SendsOn (r.carryOutVerdict frame id d mac p (d.verdict p)).value.router d p t.frame := by
  have htransit := Domain.transit_verdict hleaves.isTransit
  generalize hverdict : d.verdict p = verdict at htransit ht hleaves ⊢
  cases htransit with
  | follow hflow hlookup hq => exact sendsOn_follow ha h hflow hlookup hq ht
  | openLink hflow hlookup hinit hdec hq => exact sendsOn_openLink ha h hverdict hflow hq ht
  | denied => exact hleaves.elim
  | @addressed q hflow hq =>
    rw [Domain.addressVerdict_eq] at hverdict hleaves ht ⊢
    cases hpassed : d.passedTo? q.dst with
    | some domain =>
      rw [hpassed] at hverdict ht
      exact sendsOn_pass hverdict hq ht
    | none =>
      rw [hpassed] at hleaves
      exact hleaves.elim

/-- Handling a frame with a packet carries the verdict on the packet out. -/
theorem Arrives.process_eq (ha : r.Arrives frame id d f p) :
    r.process frame = r.carryOutVerdict frame id d f.src p (d.verdict p) := by
  unfold process
  rw [ha.handle]
  dsimp only
  rw [ha.domain]
  dsimp only
  unfold handleFrame
  rw [ha.ethernet]
  dsimp only
  rw [if_pos ha.addressed, ha.type]
  dsimp only
  unfold handleIpv4
  rw [ha.packet]
  exact if_pos ha.intact

end

/-- **A packet that is sent on is changed only where it must be.**  What leaves when a frame arrives
leaves for the frame or for one that waited until then; and for each of these that holds a packet
which its domain sends on, all that leaves is a question for the next hop or the packet, a hop
further, of the length that its length field says: passed as it is, or carried over a link with the
addresses and ports of the link's other end. -/
theorem Reachable.sendsOn (h : r.Reachable) (interface : InterfaceId) (bytes : Bytes) (now : Nat) :
    (r.receive interface bytes now).value.1 =
        (r.handlings interface bytes now).flatMap sentFor ∧
      ∀ r₁ frame, (r₁, frame) ∈ r.handlings interface bytes now →
        (frame = ⟨interface, bytes, now⟩ ∨
          ∃ w, r.Waits w ∧ w.Came ∧ frame = { w with queued := now }) ∧
        ∀ {id d f p}, r₁.Arrives frame id d f p →
          p.bytes = f.payload.take (Wire.Ipv4.totalLengthOf f.payload) ∧
          p.bytes.length = Wire.Ipv4.totalLengthOf f.payload ∧
          ((d.verdict p).Leaves → ∀ t ∈ sentFor (r₁, frame),
            r₁.SendsOn (r₁.process frame).value.router d p t.frame) := by
  refine ⟨h.arises.sent_receive .., fun r₁ frame hx => ?_⟩
  obtain ⟨harises, horigin⟩ := h.arises.mem_handlings hx
  refine ⟨horigin, fun {id d f p} ha => ?_⟩
  obtain ⟨hbytes, hlength⟩ := Wire.Ipv4.bytes_of_parse ha.packet
  refine ⟨hbytes, hlength, fun hleaves t ht => ?_⟩
  rw [sentFor, ha.process_eq] at ht
  rw [ha.process_eq]
  exact sendsOn_carryOutVerdict ha harises hleaves f.src ht

/-! ## A ping that was padded -/

namespace Ping

/-- The frame of the echo request, padded. -/
def padded : Wire.Ethernet.Frame :=
  { ethernet with payload := requestPacket.bytes ++ List.replicate 18 0 }

/-- The padded frame as it arrives. -/
def paddedFrame : Waiter :=
  ⟨⟨0, 0⟩, Wire.Ethernet.build padded, 0⟩

/-- The router after the padded frame was counted. -/
def counted : Router :=
  router.countArrival ⟨0, 0⟩ paddedFrame.frame.length

/-- The domain of the host that pings, after the padded frame was counted. -/
def countedLan : Domain :=
  lan.received paddedFrame.frame.length

theorem arrives_padded : counted.Arrives paddedFrame ⟨1, 0⟩ countedLan padded requestPacket where
  handle := by decide +kernel
  domain := by decide +kernel
  ethernet := Wire.Ethernet.parse_build padded
  addressed := .inl (by decide +kernel)
  type := by decide +kernel
  packet := by decide +kernel
  intact := by decide +kernel

theorem leaves_padded : (countedLan.verdict requestPacket).Leaves := by
  obtain ⟨q, hq⟩ : ∃ q, requestPacket.nextHop? = some q :=
    Option.isSome_iff_exists.1 (by decide +kernel)
  have hverdict : (requestPacket.nextHop?.map fun q =>
      Verdict.follow ⟨1, "lan", .client⟩ { key := link.key .client } q) =
        some (countedLan.verdict requestPacket) := by
    decide +kernel
  rw [hq, Option.map_some] at hverdict
  rw [← Option.some.inj hverdict]
  trivial

end Ping

/-- Of a padded ping one frame leaves, with the packet as long as before it was padded. -/
theorem sendsOn_ping : Ping.router.Reachable ∧
    Ping.counted.Arrives Ping.paddedFrame ⟨1, 0⟩ Ping.countedLan Ping.padded Ping.requestPacket ∧
    (Ping.countedLan.verdict Ping.requestPacket).Leaves ∧
    (Ping.router.receive ⟨0, 0⟩ Ping.paddedFrame.frame 0).value.1.length = 1 ∧
    Ping.requestPacket.bytes.length + 18 = Ping.padded.payload.length ∧
    Ping.requestPacket.bytes.length = Wire.Ipv4.totalLengthOf Ping.padded.payload ∧
    ∀ t ∈ sentFor (Ping.counted, Ping.paddedFrame),
      Ping.counted.SendsOn (Ping.counted.process Ping.paddedFrame).value.router Ping.countedLan
        Ping.requestPacket t.frame := by
  have hsends := (Ping.reachable_router.sendsOn ⟨0, 0⟩ Ping.paddedFrame.frame 0).2 Ping.counted
    Ping.paddedFrame List.mem_cons_self
  obtain ⟨-, hlength, hsent⟩ := hsends.2 Ping.arrives_padded
  exact ⟨Ping.reachable_router, Ping.arrives_padded, Ping.leaves_padded, by decide +kernel,
    by decide +kernel, hlength, hsent Ping.leaves_padded⟩

end Router

end SegmentRouter
