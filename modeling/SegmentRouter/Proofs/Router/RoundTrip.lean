import SegmentRouter.Proofs.Router.Moves
import SegmentRouter.Proofs.Router.Verdicts

/-!
# Proofs/Router/RoundTrip — an answer comes back to the client as the client expects it

Both ends of a link are known by what arrives there, so a packet that is sent on has the other end's
flow mirrored.  The answer to it then has that flow itself: the index of the domain where it arrives
leads it to the same link, and it leaves with the client's flow mirrored (`Reachable.roundTrip`).
ICMP echoes have one identifier for both ports at either end; otherwise the mirrored flow could not
be written into a packet.
-/

namespace SegmentRouter

namespace Link

/-- The packets of a link that are sent on have the other end's flow mirrored. -/
structure RoundTrip (link : Link) : Prop where
  forth : ∀ {p flow}, PacketFlow.ofPacket? p = some flow → flow.key = link.key .client →
    PacketFlow.ofPacket? (p.translate link.protocol (link.egress .client).rewrite) =
      some { flow with key := ⟨link.protocol, link.server.flow.mirror⟩ }
  back : ∀ {p flow}, PacketFlow.ofPacket? p = some flow → flow.key = link.key .server →
    PacketFlow.ofPacket? (p.translate link.protocol (link.egress .server).rewrite) =
      some { flow with key := ⟨link.protocol, link.client.flow.mirror⟩ }

/-- Either end of an ICMP link has one identifier for both ports. -/
structure Echoes (link : Link) : Prop where
  client : link.protocol = .icmp → link.client.flow.srcPort = link.client.flow.dstPort
  server : link.protocol = .icmp → link.server.flow.srcPort = link.server.flow.dstPort

variable {link : Link}

theorem Echoes.trip (h : link.Echoes) : link.RoundTrip where
  forth {p flow} hp hkey := by
    have hprotocol : flow.key.protocol = link.protocol := congrArg FlowKey.protocol hkey
    rw [← hprotocol]
    exact PacketFlow.ofPacket?_translate hp fun hicmp => (h.server (hprotocol ▸ hicmp)).symm
  back {p flow} hp hkey := by
    have hprotocol : flow.key.protocol = link.protocol := congrArg FlowKey.protocol hkey
    rw [← hprotocol]
    exact PacketFlow.ofPacket?_translate hp fun hicmp => (h.client (hprotocol ▸ hicmp)).symm

/-- **A link that a packet opens has one identifier at either end of an echo.** -/
theorem echoes_opened {first : Wire.Ipv4.Packet} {flow : PacketFlow}
    (hfirst : PacketFlow.ofPacket? first = some flow) (id : Nat) (client : String)
    (target : LinkTarget) (source : LinkSource) (origin : InterfaceId) (now : Nat) :
    (opened id client flow target source origin now).Echoes where
  client hicmp := by
    rw [protocol_opened] at hicmp
    rw [client_opened]
    exact (PacketFlow.tells_of_ofPacket? hfirst).echo hicmp
  server hicmp := by
    rw [protocol_opened] at hicmp
    rw [server_opened, hicmp]
    rfl

theorem echoes_core : link.core.Echoes ↔ link.Echoes :=
  ⟨fun ⟨hc, hs⟩ => ⟨hc, hs⟩, fun ⟨hc, hs⟩ => ⟨hc, hs⟩⟩

/-- **An answer to what a client's packet was sent on as comes back to the client.** -/
def Answered (link : Link) (tree : DomainTree) : Prop :=
  ∀ {p q : Wire.Ipv4.Packet} {flow sent answer : PacketFlow},
    PacketFlow.ofPacket? p = some flow → flow.key = link.key .client →
    PacketFlow.ofPacket? (p.translate link.protocol (link.egress .client).rewrite) = some sent →
    PacketFlow.ofPacket? q = some answer →
    answer.key = ⟨sent.key.protocol, sent.key.flow.mirror⟩ →
    ∃ server ref, tree.byName? (link.egress .client).domain = some server ∧
      server.links.lookup? answer.key = some ref ∧ ref.side = .server ∧
      tree.ownedLink? ref.owner ref.link = some link ∧
      (link.egress ref.side).domain = link.client.domain ∧
      PacketFlow.ofPacket? (q.translate answer.key.protocol (link.egress ref.side).rewrite) =
        some { answer with key := ⟨flow.key.protocol, flow.key.flow.mirror⟩ }

end Link

namespace DomainTree.Sound

/-- The index of the server's domain leads an answer back. -/
theorem answered {tree : DomainTree} {link : Link} (h : tree.Sound)
    (hm : link ∈ tree.liveLinks) (htrip : link.RoundTrip) : link.Answered tree := by
  intro p q flow sent answer hp hkey hsent hq hanswer
  obtain rfl := Option.some.inj ((htrip.forth hp hkey).symm.trans hsent)
  have hserver : answer.key = link.key .server := hanswer
  have hprotocol : flow.key.protocol = link.protocol := congrArg FlowKey.protocol hkey
  have hclient : flow.key.flow = link.client.flow := congrArg FlowKey.flow hkey
  obtain ⟨server, hbyName, hlookup⟩ := Option.bind_eq_some_iff.1
    (h.lookup?_of_sitsAt hm (link.sitsAt_seat .server))
  rw [link.refAt_server] at hlookup
  refine ⟨server, _, hbyName, (congrArg _ hserver).trans hlookup, rfl, h.ownedLink?_of_mem hm, rfl,
    ?_⟩
  have hback := htrip.back hq hserver
  rw [show answer.key.protocol = link.protocol from congrArg FlowKey.protocol hserver, hprotocol,
    hclient]
  exact hback

end DomainTree.Sound

namespace Router

variable {r : Router} {link : Link}

theorem Arises.echoes (h : r.Arises) (hm : link ∈ r.tree.liveLinks) : link.Echoes := by
  refine h.live_induction (fun _ => Link.echoes_core) (fun _ hopens => ?_) link hm
  obtain ⟨frame, id, d, f, p, packet, target, flow, source, -, hverdict, rfl⟩ := hopens
  exact Link.echoes_opened (Domain.ofPacket?_of_verdict hverdict) ..

/-- **Packets make the round trip over every link that a packet opens**, and in every state of a
router answers find their way back over every live link. -/
theorem Reachable.roundTrip (h : r.Reachable) :
    (∀ {first : Wire.Ipv4.Packet} {flow : PacketFlow}, PacketFlow.ofPacket? first = some flow →
      ∀ id client target source origin now,
        (Link.opened id client flow target source origin now).RoundTrip) ∧
    ∀ link ∈ r.tree.liveLinks, link.RoundTrip ∧ link.Answered r.tree := by
  refine ⟨fun hfirst _ _ _ _ _ _ => (Link.echoes_opened hfirst ..).trip, fun link hm => ?_⟩
  have htrip := (h.arises.echoes hm).trip
  exact ⟨htrip, h.good.sound.answered hm htrip⟩

/-! ## A ping and its answer -/

namespace Ping

/-- The echo request as a packet. -/
def requestPacket : Wire.Ipv4.Packet where
  bytes := Wire.Ipv4.Draft.build
    { src := .ofOctets 10 0 0 2, dst := .ofOctets 10 0 1 2, protocolNumber := 1 }
    (Wire.Icmp.echoRequest 7 1 [])
  version_eq := by decide +kernel
  minHeaderLength_le := by decide +kernel
  headerLength_le := by decide +kernel
  totalLength_eq := by decide +kernel

/-- The answer of the host, to the router's address and the identifier that the router drew. -/
def replyPacket : Wire.Ipv4.Packet where
  bytes := Wire.Ipv4.Draft.build
    { src := .ofOctets 10 0 1 2, dst := .ofOctets 10 0 1 1, protocolNumber := 1 }
    (Wire.Icmp.refreshChecksum (Wire.overwrite (Wire.Icmp.echoRequest 49152 1 []) 0
      [Wire.Icmp.echoReplyType]))
  version_eq := by decide +kernel
  minHeaderLength_le := by decide +kernel
  headerLength_le := by decide +kernel
  totalLength_eq := by decide +kernel

end Ping

/-- The answer to a ping comes back with the identifier that the client chose. -/
theorem roundTrip_ping : Ping.router.Reachable ∧ Ping.link ∈ Ping.router.tree.liveLinks ∧
    ∃ server ref answer, Ping.router.tree.byName? "wan" = some server ∧
      PacketFlow.ofPacket? Ping.replyPacket = some answer ∧
      server.links.lookup? answer.key = some ref ∧ ref.side = .server ∧
      Ping.router.tree.ownedLink? ref.owner ref.link = some Ping.link ∧
      PacketFlow.ofPacket?
        (Ping.replyPacket.translate .icmp (Ping.link.egress ref.side).rewrite) =
          some { answer with key := ⟨.icmp, Ping.link.client.flow.mirror⟩ } := by
  have htrip := Ping.reachable_router.roundTrip.2 Ping.link Ping.mem_router
  have hrequest : PacketFlow.ofPacket? Ping.requestPacket =
      some { key := Ping.link.key .client, initiates := true } := by decide +kernel
  have hreply : PacketFlow.ofPacket? Ping.replyPacket =
      some { key := Ping.link.key .server, initiates := false } := by decide +kernel
  obtain ⟨server, ref, hserver, hlookup, hside, howned, -, hback⟩ :=
    htrip.2 hrequest rfl (htrip.1.forth hrequest rfl) hreply rfl
  exact ⟨Ping.reachable_router, Ping.mem_router, server, ref, _, hserver, hreply, hlookup, hside,
    howned, hback⟩

end Router

end SegmentRouter
