import SegmentRouter.Proofs.Dhcp.Terse
import SegmentRouter.Proofs.Router.Traces
import SegmentRouter.Proofs.Wire.Drafts

/-!
# Proofs/Router/Sending — whatever a router sends is well formed

A frame leaves with the router's own hardware address and an ARP packet in it that tells this
address, or an IPv4 packet, whole and without anything behind it, with the right header checksum and
a hop to go.  The messages in packets of the router's own, echoes and refusals and DHCP messages,
have a right checksum too (`Originated`).  This is seen of each thing that a router does with a frame
(`Router.Sends`), and it takes no invariant: what is sent on has just gone a hop further, and what is
written is short enough for its length fields, whatever has been received.
-/

namespace SegmentRouter

open Wire (Bytes Protocol)
open Wire.Ipv4 (Packet)

namespace Wire

/-! ## Frames -/

/-- The packet holds an ICMP message with a right checksum, or a UDP datagram that has a checksum,
and a right one. -/
def Ipv4.Packet.IsSealed (p : Packet) : Prop :=
  match p.protocol? with
  | some .icmp => Icmp.headerLength ≤ p.payload.length ∧ Icmp.checksumValid p.payload = true
  | some .udp => (∃ d, Udp.parse p.payload = .ok d) ∧ Udp.lacksChecksum p.payload = false ∧
      Udp.checksumValid p.payload p.src p.dst = true
  | some .tcp | none => False

/-- A frame from a hardware address holds an ARP packet that tells this address. -/
structure Tells (mac : Mac) (frame : Bytes) (f : Ethernet.Frame) (p : Arp.Packet) : Prop where
  ethernet : Ethernet.parse frame = .ok f
  src : f.src = mac
  type : EtherType.ofNumber? f.etherType = some .arp
  packet : Arp.parse f.payload = .ok p
  sender : p.senderMac = mac

/-- A frame from a hardware address holds a whole packet and nothing behind it, and the packet may
reach a receiver. -/
structure Carries (mac : Mac) (frame : Bytes) (f : Ethernet.Frame) (p : Packet) : Prop where
  ethernet : Ethernet.parse frame = .ok f
  src : f.src = mac
  type : EtherType.ofNumber? f.etherType = some .ipv4
  packet : Ipv4.parse f.payload = .ok p
  whole : Ipv4.totalLengthOf f.payload = f.payload.length
  intact : p.headerChecksumValid = true
  alive : 1 ≤ p.ttl.toNat

/-- **A frame that a station with a hardware address may send.** -/
inductive WellFormed (mac : Mac) (frame : Bytes) : Prop
  | arp {f : Ethernet.Frame} {p : Arp.Packet} (h : Tells mac frame f p)
  | ipv4 {f : Ethernet.Frame} {p : Packet} (h : Carries mac frame f p)

/-- **A frame with something of the station's own**: an ARP packet, or an IPv4 packet whose message
has a right checksum. -/
inductive Originated (mac : Mac) (frame : Bytes) : Prop
  | arp {f : Ethernet.Frame} {p : Arp.Packet} (h : Tells mac frame f p)
  | ipv4 {f : Ethernet.Frame} {p : Packet} (h : Carries mac frame f p) (hsealed : p.IsSealed)

variable {mac : Mac} {frame : Bytes}

theorem Originated.wellFormed (h : Originated mac frame) : WellFormed mac frame := by
  cases h with
  | arp h => exact .arp h
  | ipv4 h => exact .ipv4 h

theorem originated_arp {p : Arp.Packet} (h : p.senderMac = mac) : Originated mac p.frame :=
  .arp ⟨Ethernet.parse_build _, h, EtherType.ofNumber?_number .arp, Arp.parse_build p, h⟩

/-! ## Lengths that fit -/

/-- A header has sixty bytes at most. -/
theorem Ipv4.Packet.headerLength_le_sixty (p : Packet) : p.headerLength ≤ 60 := by
  have := Nat.mod_lt (byteAt p.bytes 0).toNat (show 0 < 16 by decide)
  rw [headerLength, headerLengthOf]
  omega

/-- What a packet carries fits into another one, whose header has no options. -/
theorem Ipv4.Packet.minHeaderLength_add_length_payload_le (p : Packet) :
    minHeaderLength + p.payload.length ≤ 65535 := by
  have hlength := p.length_le
  have hmin := p.headerLength_ge
  have hle : p.headerLength ≤ p.bytes.length := p.headerLength_le
  rw [payload, List.length_drop, minHeaderLength]
  omega

end Wire

open Wire (Originated WellFormed)

namespace Router

variable {r r' : Router} {frame : Waiter} {interface : InterfaceId}

/-- A frame of the router holds the packet that was put into it. -/
theorem carries_frameOf (r : Router) (dst : Mac) {p : Packet} (hintact : p.headerChecksumValid = true)
    (halive : 1 ≤ p.ttl.toNat) : Wire.Carries r.config.mac (r.frameOf dst p.bytes) {
      dst, src := r.config.mac, etherType := Wire.EtherType.ipv4.number, payload := p.bytes } p where
  ethernet := Wire.Ethernet.parse_build _
  src := rfl
  type := Wire.EtherType.ofNumber?_number .ipv4
  packet := Wire.Ipv4.parse_bytes p
  whole := p.totalLength_eq
  intact := hintact
  alive := halive

/-- A drafted packet is one of the router's own if its message has a right checksum. -/
theorem originated_frameOf (r : Router) (dst : Mac) {d : Wire.Ipv4.Draft} {payload : Bytes}
    (hlen : Wire.Ipv4.minHeaderLength + payload.length ≤ 65535) (httl : 1 ≤ d.ttl.toNat)
    (hsealed : (d.packet payload hlen).IsSealed) :
    Originated r.config.mac (r.frameOf dst (d.build payload)) := by
  refine .ipv4 (r.carries_frameOf dst (p := d.packet payload hlen)
    (Wire.Ipv4.Draft.headerChecksumValid_packet hlen) ?_) hsealed
  rw [Wire.Ipv4.Draft.ttl_packet]
  exact httl

theorem originated_icmp (r : Router) (mac : Mac) (src dst : Ipv4Addr) {message : Bytes}
    (hmin : Wire.Icmp.headerLength ≤ message.length)
    (hlen : Wire.Ipv4.minHeaderLength + message.length ≤ 65535)
    (hvalid : Wire.Icmp.checksumValid message = true) :
    Originated r.config.mac (r.frameOf mac ((icmpDraft src dst).build message)) := by
  refine r.originated_frameOf mac hlen (by decide : 1 ≤ Wire.Ipv4.defaultTtl.toNat) ?_
  have hicmp : ((icmpDraft src dst).packet message hlen).protocol? = some .icmp := by
    rw [Packet.protocol?, Wire.Ipv4.Draft.protocolNumber_packet]
    exact Protocol.ofNumber?_number .icmp
  rw [Packet.IsSealed, hicmp]
  dsimp only
  rw [Wire.Ipv4.Draft.payload_packet]
  exact ⟨hmin, hvalid⟩

theorem originated_dhcp (r : Router) (mac : Mac) (src dst : Ipv4Addr) (srcPort dstPort : UInt16)
    {message : Wire.Dhcp.Message} (h : message.IsTerse) :
    Originated r.config.mac (r.frameOf mac (dhcpPacket src dst srcPort dstPort message)) := by
  have hshort := h.length_build_le
  have hfits : Wire.Udp.headerLength + message.build.length ≤ 65535 := by
    simp only [Wire.Udp.headerLength]
    omega
  obtain ⟨hparse, hthere, hvalid⟩ :=
    @Wire.Udp.parse_build src dst { srcPort, dstPort, payload := message.build } hfits
  have hlength := Wire.Udp.length_build src dst { srcPort, dstPort, payload := message.build }
  unfold dhcpPacket
  generalize Wire.Udp.build src dst { srcPort, dstPort, payload := message.build } = datagram
    at hparse hthere hvalid hlength ⊢
  have hlen : Wire.Ipv4.minHeaderLength + datagram.length ≤ 65535 := by
    rw [hlength]
    simp only [Wire.Ipv4.minHeaderLength, Wire.Udp.headerLength]
    omega
  refine r.originated_frameOf mac hlen (by decide : 1 ≤ Wire.Ipv4.defaultTtl.toNat) ?_
  have hudp : (Wire.Ipv4.Draft.packet { src, dst, protocolNumber := Protocol.udp.number } datagram
      hlen).protocol? = some .udp := by
    rw [Packet.protocol?, Wire.Ipv4.Draft.protocolNumber_packet]
    exact Protocol.ofNumber?_number .udp
  rw [Packet.IsSealed, hudp]
  dsimp only
  rw [Wire.Ipv4.Draft.payload_packet, Wire.Ipv4.Draft.src_packet, Wire.Ipv4.Draft.dst_packet]
  exact ⟨⟨_, hparse⟩, hthere, hvalid⟩

/-! ## What is done with a frame -/

/-- A router keeps its configuration, and what it sends is so, from its hardware address. -/
structure Sends (P : Mac → Bytes → Prop) (r : Router) (x : Reaction) : Prop where
  config : x.router.config = r.config
  sent : ∀ t ∈ x.sent, P r.config.mac t.frame

namespace Sends

variable {P : Mac → Bytes → Prop} {x : Reaction}

theorem quiet (h : r'.config = r.config) : r.Sends P (r'.sending []) :=
  ⟨h, fun _ ht => absurd ht List.not_mem_nil⟩

theorem wellFormed (h : r.Sends Originated x) : r.Sends WellFormed x :=
  ⟨h.config, fun t ht => (h.sent t ht).wellFormed⟩

theorem of_config (h : r'.Sends P x) (hconfig : r'.config = r.config) : r.Sends P x :=
  ⟨h.config.trans hconfig, fun t ht => hconfig ▸ h.sent t ht⟩

theorem reply {mac : Mac} {packet : Bytes} (interface : InterfaceId)
    (h : P r.config.mac (r.frameOf mac packet)) : r.Sends P (r.reply interface mac packet) :=
  ⟨rfl, fun _ ht => List.mem_singleton.1 ht ▸ h⟩

end Sends

/-! ### Packets that are sent on -/

theorem sends_park (r : Router) (e : Domain) (hop : Ipv4Addr) (frame : Waiter) :
    r.Sends Originated (r.park e hop frame).value := by
  have hasked : ∀ t ∈ r.askFor e hop, Originated r.config.mac t.frame := by
    intro t ht
    unfold askFor at ht
    split at ht
    · obtain ⟨id, -, rfl⟩ := List.mem_map.1 ht
      exact Wire.originated_arp (p := .request ..) rfl
    · exact absurd ht List.not_mem_nil
  unfold park
  rcases e.arp.park hop frame frame.queued with ⟨outcome, arp⟩
  cases outcome with
  | requestNeeded => exact ⟨rfl, hasked⟩
  | queued => exact .quiet rfl
  | dropped => exact .quiet rfl

section

variable {p q : Packet}

theorem sends_forward (hq : p.Hopped q) (name : String) (hop : NextHop) :
    r.Sends WellFormed (r.forward name hop q).value := by
  refine ⟨congrArg Router.config (router_forward r name hop q), fun t ht => ?_⟩
  rw [r.frame_of_mem_forward ht]
  exact .ipv4 (r.carries_frameOf hop.mac hq.checksum hq.alive)

theorem sends_pass (hq : p.Hopped q) (domain : String) :
    r.Sends WellFormed (r.pass frame domain q).value := by
  unfold pass
  exact resolve_bind (P := r.Sends WellFormed) (fun _ => rfl) (.quiet rfl)
    (fun e hop _ _ => (r.sends_park e hop frame).wellFormed) fun hop => sends_forward hq domain hop

theorem sends_follow (hq : p.Hopped q) (ref : LinkRef) (flow : PacketFlow) :
    r.Sends WellFormed (r.follow frame ref flow q).value := by
  unfold follow
  split
  · exact .quiet rfl
  · refine resolve_bind (P := r.Sends WellFormed) (fun _ => rfl) (.quiet rfl)
      (fun e hop _ _ => (r.sends_park e hop frame).wellFormed) fun hop => ?_
    exact (sends_forward (hq.translate ..) _ hop).of_config rfl

theorem sends_enter (hq : p.Hopped q) (link : Link) (hop : NextHop) :
    r.Sends WellFormed (r.enter link hop q).value := by
  unfold enter
  split
  · exact (sends_forward (hq.translate ..) _ hop).of_config rfl
  · dsimp only
    split <;> exact .quiet rfl

theorem sends_openLink (hq : p.Hopped q) (client : String) (target : LinkTarget)
    (flow : PacketFlow) : r.Sends WellFormed (r.openLink frame client target flow q).value := by
  unfold openLink
  split
  · exact .quiet rfl
  · split
    · exact .quiet rfl
    · refine resolve_bind (P := r.Sends WellFormed) (fun _ => rfl) (.quiet rfl)
        (fun e hop _ _ => (r.sends_park e hop frame).wellFormed) fun hop => ?_
      dsimp only
      split
      · exact .quiet rfl
      · exact (sends_enter hq _ hop).of_config rfl

end

/-! ### Answers -/

/-- **Echoes are in order**, whatever the request carries and however long its header is. -/
theorem sends_echo (r : Router) (interface : InterfaceId) (mac : Mac) (request : Packet) :
    r.Sends Originated (r.echo interface mac request).value := by
  unfold echo
  split
  · rename_i message hreply
    unfold Wire.Icmp.echoReply at hreply
    split at hreply
    · cases hreply
    · rename_i m hm
      split at hreply
      · obtain rfl := Except.ok.inj hreply
        have hmin : Wire.Icmp.headerLength ≤ request.payload.length := by
          unfold Wire.Icmp.parse at hm
          split at hm
          · cases hm
          · omega
        refine .reply interface (r.originated_icmp mac _ _ ?_ ?_
          (Wire.Icmp.checksumValid_refreshChecksum ?_))
        · simpa using hmin
        · simpa using request.minHeaderLength_add_length_payload_le
        · simpa using hmin
      · cases hreply
  · exact .quiet rfl

/-- A refusal quotes no more than a header and eight bytes. -/
theorem sends_answerUnreachable (r : Router) (interface : InterfaceId) (mac : Mac)
    (routerIp : Ipv4Addr) (packet : Packet) :
    r.Sends Originated (r.answerUnreachable interface mac routerIp packet) := by
  unfold answerUnreachable
  split
  · have hquoted := packet.headerLength_le_sixty
    refine .reply interface (r.originated_icmp mac _ _ ?_ ?_
      (Wire.Icmp.checksumValid_refreshChecksum ?_))
    all_goals
      simp only [Wire.Icmp.unreachable, Wire.Icmp.length_refreshChecksum, List.length_append,
        List.length_cons, List.length_nil, List.length_take, Wire.Icmp.headerLength,
        Wire.Ipv4.minHeaderLength]
      omega
  · exact .quiet rfl

theorem sends_refuse (r : Router) (interface : InterfaceId) (mac : Mac) (d : Domain)
    (reason : Refusal) (packet : Packet) :
    r.Sends Originated (r.refuse interface mac d reason packet).value := by
  rw [value_refuse]
  split
  · exact sends_answerUnreachable ..
  · exact .quiet rfl

/-! ### DHCP -/

theorem sends_sendDhcp (r : Router) (interface : InterfaceId) {message : Wire.Dhcp.Message}
    (h : message.IsTerse) (dst : Ipv4Addr) (mac : Mac) :
    r.Sends Originated (r.sendDhcp interface message dst mac) :=
  .reply interface (r.originated_dhcp mac _ _ _ _ h)

theorem sends_serveDhcp (r : Router) (interface : InterfaceId) (id : DomainId) (d : Domain)
    (payload : Bytes) (now : Nat) :
    r.Sends Originated (r.serveDhcp interface id d payload now).value := by
  unfold serveDhcp
  split
  · exact .quiet rfl
  · rename_i request hrequest
    split
    · rename_i server params hserver hparams
      have hanswers := server.answers request params now
      rcases hvalue : (server.handle request params now).value with ⟨answer, server'⟩
      rw [hvalue] at hanswers
      rw [Logged.value_bind, hvalue]
      cases answer with
      | none => exact .quiet rfl
      | some answer =>
        have hterse : answer.IsTerse := DhcpServer.Answers.isTerse hanswers
        exact (Sends.reply interface (originated_dhcp _ _ _ _ _ _ hterse)).of_config rfl
    · exact .quiet rfl

theorem sends_carryOut (r : Router) (interface : InterfaceId) {action : DhcpAction}
    (h : action.IsTerse) : r.Sends Originated (r.carryOut interface action).value := by
  have hconfigure (id : DomainId) (config : Option IpConfig) :
      r.Sends Originated (r.configure interface id config).value := by
    unfold configure
    rw [Logged.value_bind]
    cases (r.tree.setIpConfig id config).value <;> exact .quiet rfl
  unfold carryOut
  split
  · exact .quiet rfl
  · cases action with
    | none => exact .quiet rfl
    | broadcast message => exact r.sends_sendDhcp interface h ..
    | unicast message server => exact r.sends_sendDhcp interface h ..
    | configure config => exact hconfigure ..
    | deconfigure => exact hconfigure ..

theorem sends_consumeDhcp (r : Router) (interface : InterfaceId) (payload : Bytes) (now : Nat) :
    r.Sends Originated (r.consumeDhcp interface payload now).value := by
  unfold consumeDhcp
  split
  · exact .quiet rfl
  · rename_i message hmessage
    split
    · exact .quiet rfl
    · rename_i client hclient
      have hterse := client.isTerse_handle message r.nextXid now
      rcases hvalue : (client.handle message r.nextXid now).value with ⟨action, after⟩
      rw [hvalue] at hterse
      rw [Logged.value_bind, hvalue]
      exact (sends_carryOut _ interface hterse).of_config rfl

theorem sends_tickClient (r : Router) (interface : InterfaceId) (now : Nat) :
    r.Sends Originated (r.tickClient interface now).value := by
  unfold tickClient
  split
  · exact .quiet rfl
  · rename_i client hclient
    have hterse := client.isTerse_tick r.nextXid now
    rcases hvalue : (client.tick r.nextXid now).value with ⟨action, after⟩
    rw [hvalue] at hterse
    rw [Logged.value_bind, hvalue]
    exact (sends_carryOut _ interface hterse).of_config rfl

theorem sends_tickClients (now : Nat) (interfaces : List InterfaceId) (r : Router) :
    r.Sends Originated (tickClients now interfaces r).value := by
  induction interfaces generalizing r with
  | nil => exact .quiet rfl
  | cons interface rest ih =>
    have hfirst := r.sends_tickClient interface now
    have hothers := (ih (r.tickClient interface now).value.router).of_config hfirst.config
    exact ⟨hothers.config, fun t ht => (List.mem_append.1 ht).elim (hfirst.sent t) (hothers.sent t)⟩

theorem sends_maintainDhcp (r : Router) (now : Nat) :
    r.Sends Originated (r.maintainDhcp now).value :=
  (sends_tickClients now _ _).of_config rfl

/-! ### Frames -/

/-- The packet in a frame is sent on. -/
def Transits (x : Router × Waiter) : Prop :=
  ∃ id d f p, x.1.Arrives x.2 id d f p ∧ (d.verdict p).Leaves

section

variable {id : DomainId} {d : Domain} {f : Wire.Ethernet.Frame} {p : Packet}

theorem Arrives.transits_iff (ha : r.Arrives frame id d f p) :
    Transits (r, frame) ↔ (d.verdict p).Leaves := by
  refine ⟨fun ⟨id', d', f', p', ha', hleaves⟩ => ?_, fun hleaves => ⟨id, d, f, p, ha, hleaves⟩⟩
  obtain rfl := Option.some.inj (ha.handle.symm.trans ha'.handle)
  obtain rfl := Option.some.inj (ha.domain.symm.trans ha'.domain)
  obtain rfl := Except.ok.inj (ha.ethernet.symm.trans ha'.ethernet)
  obtain rfl := Except.ok.inj (ha.packet.symm.trans ha'.packet)
  exact hleaves

theorem sends_of_leaves (ha : r.Arrives frame id d f p) (hleaves : (d.verdict p).Leaves) :
    r.Sends WellFormed (r.process frame).value := by
  rw [ha.process_eq]
  have htransit := Domain.transit_verdict hleaves.isTransit
  generalize d.verdict p = verdict at htransit hleaves ⊢
  cases htransit with
  | follow hflow hlookup hq => exact sends_follow (Packet.hopped_nextHop? hq) ..
  | openLink hflow hlookup hinit hdec hq => exact sends_openLink (Packet.hopped_nextHop? hq) ..
  | denied => exact hleaves.elim
  | @addressed q hflow hq =>
    rw [Domain.addressVerdict_eq] at hleaves ⊢
    cases hpassed : d.passedTo? q.dst with
    | some domain => exact sends_pass (Packet.hopped_nextHop? hq) domain
    | none =>
      rw [hpassed] at hleaves
      exact hleaves.elim

theorem sends_of_not_leaves (ha : r.Arrives frame id d f p) (hstays : ¬ (d.verdict p).Leaves) :
    r.Sends Originated (r.process frame).value := by
  rw [ha.process_eq]
  cases hverdict : d.verdict p with
  | drop reason => cases reason <;> exact .quiet rfl
  | toDhcpClient message => exact r.sends_consumeDhcp ..
  | toDhcpServer message => exact r.sends_serveDhcp ..
  | echo => exact r.sends_echo ..
  | refuse reason packet => exact r.sends_refuse ..
  | follow ref flow packet | openLink target flow packet | pass domain packet =>
    exact absurd (by rw [hverdict]; trivial) hstays

end

/-- **A frame with a packet that is not sent on causes nothing but frames of the router's own.** -/
theorem sends_of_not_transits (h : ¬ Transits (r, frame)) :
    r.Sends Originated (r.process frame).value := by
  have hhandles := r.handles_process frame
  generalize hx : (r.process frame).value = x at hhandles
  cases hhandles with
  | ignored => exact .quiet rfl
  | @heard id d f p config hears =>
    refine ⟨rfl, fun t ht => ?_⟩
    unfold answerArp at ht
    split at ht
    · obtain rfl := List.mem_singleton.1 ht
      exact Wire.originated_arp (p := p.replyTo ..) rfl
    · exact absurd ht List.not_mem_nil
  | @carried id d f p ha =>
    rw [← hx]
    exact sends_of_not_leaves ha fun hleaves => h ⟨id, d, f, p, ha, hleaves⟩

/-- **Whatever a frame is, what it causes is well formed.** -/
theorem sends_process (r : Router) (frame : Waiter) :
    r.Sends WellFormed (r.process frame).value := by
  by_cases h : Transits (r, frame)
  · obtain ⟨id, d, f, p, ha, hleaves⟩ := h
    exact sends_of_leaves ha hleaves
  · exact (sends_of_not_transits h).wellFormed

theorem config_of_mem_replays {now : Nat} {waiters : List Waiter} {x : Router × Waiter}
    (hx : x ∈ replays now waiters r) : x.1.config = r.config := by
  induction waiters generalizing r with
  | nil => exact absurd hx List.not_mem_nil
  | cons w rest ih =>
    rcases List.mem_cons.1 hx with rfl | hx
    · rfl
    · exact (ih hx).trans (r.sends_process _).config

theorem config_of_mem_handlings {bytes : Bytes} {now : Nat} {x : Router × Waiter}
    (hx : x ∈ r.handlings interface bytes now) : x.1.config = r.config := by
  have hcounted := (r.calm_countArrival interface bytes.length).config
  rcases List.mem_cons.1 hx with rfl | hx
  · exact hcounted
  · exact ((config_of_mem_replays hx).trans (sends_process ..).config).trans hcounted

/-! ## Events -/

/-- **What leaves because time passes is the router's own.** -/
theorem originated_of_mem_handleTimer {now : Nat} {kind : Timer} {t : Transmit}
    (ht : t ∈ (r.handleTimer now kind).value.1.sent) : Originated r.config.mac t.frame := by
  cases kind with
  | dhcp => exact (r.sends_maintainDhcp now).sent t ht
  | linkAging | arpExpiry | report => exact absurd ht List.not_mem_nil

/-- A new configuration causes nothing. -/
theorem sent_handle_reload (r : Router) (now : Nat) (config : Config) :
    (r.handle now (.reload config)).value.1.sent = [] := by
  unfold handle
  rcases hvalue : (r.apply config).value with ⟨e, applied⟩
  rw [Logged.value_bind, hvalue]
  cases e <;> rfl

/-- **Everything that a router sends is well formed.**  Whatever happens, every frame leaves with the
router's hardware address and an ARP packet that tells it, or a whole IPv4 packet with a right header
checksum and a hop to go.  A frame that leaves because time passes, or for a frame whose packet is
not sent on, is the router's own, and the message in its packet has a right checksum. -/
theorem Reachable.wellFormed_sent (h : r.Reachable) (now : Nat) :
    (∀ event, ∀ t ∈ (r.handle now event).value.1.sent, WellFormed r.config.mac t.frame) ∧
    (∀ kind, ∀ t ∈ (r.handle now (.timer kind)).value.1.sent, Originated r.config.mac t.frame) ∧
    ∀ interface bytes,
      (r.handle now (.frame interface bytes)).value.1.sent =
        (r.handlings interface bytes now).flatMap sentFor ∧
      ∀ x ∈ r.handlings interface bytes now, ¬ Transits x →
        ∀ t ∈ sentFor x, Originated r.config.mac t.frame := by
  have hsent (interface : InterfaceId) (bytes : Bytes) :
      (r.handle now (.frame interface bytes)).value.1.sent =
        (r.handlings interface bytes now).flatMap sentFor :=
    h.arises.sent_receive interface bytes now
  refine ⟨fun event t ht => ?_, fun kind t ht => originated_of_mem_handleTimer ht,
    fun interface bytes => ⟨hsent interface bytes, fun x hx hstays t ht => ?_⟩⟩
  · cases event with
    | frame interface bytes =>
      rw [hsent] at ht
      obtain ⟨x, hx, ht⟩ := List.mem_flatMap.1 ht
      rw [← config_of_mem_handlings hx]
      exact (x.1.sends_process x.2).sent t ht
    | timer kind => exact (originated_of_mem_handleTimer ht).wellFormed
    | reload config =>
      rw [sent_handle_reload] at ht
      exact absurd ht List.not_mem_nil
  · rw [← config_of_mem_handlings hx]
    exact (sends_of_not_transits hstays).sent t ht

/-! ## A ping of the router -/

namespace Ping

/-- An echo request to the router, with an option in its header. -/
def probePacket : Packet :=
  Packet.refreshChecksum {
    bytes := [0x46, 0, 0, 36, 0, 0, 0x40, 0, 64, 1, 0, 0, 10, 0, 0, 2, 10, 0, 0, 1, 1, 1, 1, 0] ++
      Wire.Icmp.echoRequest 9 1 [1, 2, 3, 4]
    version_eq := by decide +kernel
    minHeaderLength_le := by decide +kernel
    headerLength_le := by decide +kernel
    totalLength_eq := by decide +kernel }

/-- The frame with the ping of the router. -/
def probeEthernet : Wire.Ethernet.Frame :=
  { ethernet with payload := probePacket.bytes }

/-- The ping of the router as it arrives. -/
def probe : Waiter :=
  ⟨⟨0, 0⟩, Wire.Ethernet.build probeEthernet, 0⟩

/-- The router after the ping of it was counted. -/
def probeCounted : Router :=
  router.countArrival ⟨0, 0⟩ probe.frame.length

/-- The domain of the host that pings, after the ping of the router was counted. -/
def probeLan : Domain :=
  lan.received probe.frame.length

theorem arrives_probe :
    probeCounted.Arrives probe ⟨1, 0⟩ probeLan probeEthernet probePacket where
  handle := by decide +kernel
  domain := by decide +kernel
  ethernet := Wire.Ethernet.parse_build probeEthernet
  addressed := .inl (by decide +kernel)
  type := by decide +kernel
  packet := Wire.Ipv4.parse_bytes probePacket
  intact := by decide +kernel

theorem not_transits_probe : ¬ Transits (probeCounted, probe) := by
  have hecho : probeLan.verdict probePacket = .echo := by decide +kernel
  rw [arrives_probe.transits_iff, hecho]
  exact id

end Ping

/-- Of a ping of the router one frame leaves, and it is the router's own. -/
theorem wellFormed_sent_ping : Ping.router.Reachable ∧
    Ping.probeCounted.Arrives Ping.probe ⟨1, 0⟩ Ping.probeLan Ping.probeEthernet Ping.probePacket ∧
    Ping.probePacket.headerLength = 24 ∧ (sentFor (Ping.probeCounted, Ping.probe)).length = 1 ∧
    ∀ t ∈ sentFor (Ping.probeCounted, Ping.probe), Originated Ping.router.config.mac t.frame := by
  obtain ⟨-, -, hframes⟩ := Ping.reachable_router.wellFormed_sent 0
  exact ⟨Ping.reachable_router, Ping.arrives_probe, by decide +kernel, by decide +kernel,
    (hframes ⟨0, 0⟩ Ping.probe.frame).2 (Ping.probeCounted, Ping.probe) List.mem_cons_self
      Ping.not_transits_probe⟩

end Router

end SegmentRouter
