import SegmentRouter.Proofs.Router.Moves
import SegmentRouter.Proofs.Router.Verdicts

/-!
# Proofs/Router/PortRules — how far the rules for ports reach

Where a rule for ports speaks for a TCP or UDP packet, a packet whose flow can be read leaves over a
link only, and no rule for addresses is asked (`Reachable.leaves_over_link`).  A packet whose flow
cannot be read is not seen by these rules at all: a fragment, or one with a transport header that is
cut short or states a wrong length, is passed unchanged if a rule for addresses covers it.
-/

namespace SegmentRouter

open Wire (Protocol)
open Wire.Ipv4 (Packet)

namespace Domain

variable {d : Domain} {p q : Packet} {protocol : Protocol} {flow : PacketFlow} {domain : String}

/-- **A rule for ports speaks for the packets of a protocol to a destination**: the forward rules
for those to the router's own address, and a transport rule for those to its subnet. -/
def SpeaksFor (d : Domain) (protocol : Protocol) (dst : Ipv4Addr) : Prop :=
  protocol ≠ .icmp ∧ ∃ routerIp, d.routerIp? = some routerIp ∧
    (dst = routerIp ∨ ∃ table rule, d.rules.transport? protocol = some table ∧
      table.longestMatch? dst = some rule)

/-- Where a rule for ports speaks for a packet it permits or denies the flow. -/
theorem decision_ne_noRule (h : d.SpeaksFor flow.key.protocol flow.key.flow.dstIp) :
    d.decision flow.key ≠ .noRule := by
  obtain ⟨hports, routerIp, hip, hcovers⟩ := h
  have hspeaks : ∀ forwards table, d.rules.transport? flow.key.protocol = some table →
      (if flow.key.flow.dstIp = routerIp
        then RuleSet.decideForward forwards flow.key.flow.dstPort
        else RuleSet.decideTransport table flow.key.flow.dstIp flow.key.flow.dstPort) ≠
          .noRule := by
    intro forwards table htable
    split
    · unfold RuleSet.decideForward
      split <;> nofun
    · rename_i hdst
      obtain ⟨table', rule, htable', hrule⟩ := hcovers.resolve_left hdst
      obtain rfl : table = table' := Option.some.inj (htable.symm.trans htable')
      unfold RuleSet.decideTransport
      rw [hrule]
      dsimp only
      split <;> nofun
  rw [decision, hip]
  unfold RuleSet.decision
  cases hp : flow.key.protocol with
  | icmp => exact absurd hp hports
  | tcp => exact hspeaks d.rules.tcpForward d.rules.tcp (hp ▸ rfl)
  | udp => exact hspeaks d.rules.udpForward d.rules.udp (hp ▸ rfl)

section

variable (hprotocol : p.protocol? = some protocol) (hspeaks : d.SpeaksFor protocol p.dst)

include hprotocol hspeaks

/-- A flow that can be read is decided about. -/
theorem decided_of_speaksFor (hflow : PacketFlow.ofPacket? p = some flow) :
    flow.initiates = true ∧ d.decision flow.key ≠ .noRule := by
  have htells := PacketFlow.tells_of_ofPacket? hflow
  obtain rfl : protocol = flow.key.protocol :=
    Option.some.inj (hprotocol.symm.trans (PacketFlow.ofPacket?_eq_some.1 hflow).2.1)
  exact ⟨htells.initiates hspeaks.1, decision_ne_noRule (htells.dstIp ▸ hspeaks)⟩

/-- **Where a rule for ports speaks for a packet, a rule for addresses passes it exactly if its flow
cannot be read.** -/
theorem verdict_eq_pass : d.verdict p = .pass domain q ↔
    PacketFlow.ofPacket? p = none ∧ p.nextHop? = some q ∧ d.passedTo? p.dst = some domain := by
  constructor
  · intro hverdict
    have htransit : d.Transit p (.pass domain q) := hverdict ▸ transit_verdict (hverdict ▸ trivial)
    generalize hv : Verdict.pass domain q = v at htransit
    cases htransit with
    | follow => cases hv
    | openLink => cases hv
    | denied => cases hv
    | addressed hflow hq =>
      refine ⟨Option.eq_none_iff_forall_ne_some.2 fun flow hsome => ?_, ?_⟩
      · obtain ⟨hinit, hdecided⟩ := decided_of_speaksFor hprotocol hspeaks hsome
        exact hdecided ((hflow flow hsome).2 hinit)
      · rw [addressVerdict_eq, Packet.dst_nextHop? hq] at hv
        split at hv
        · rename_i other hpassed
          obtain ⟨rfl, rfl⟩ := Verdict.pass.inj hv
          exact ⟨hq, hpassed⟩
        · cases hv
  · rintro ⟨hflow, hq, hpassed⟩
    have hdhcp : d.dhcpVerdict? p = none := by
      refine Option.eq_none_iff_forall_ne_some.2 fun v hv => ?_
      obtain ⟨flow, hsome, -⟩ := (dhcpVerdict?_eq_some hv).1
      rw [hflow] at hsome
      cases hsome
    have hecho : isEchoRequest p = false := by
      unfold isEchoRequest
      rw [hprotocol]
      simp [hspeaks.1]
    obtain ⟨-, routerIp, hip, -⟩ := hspeaks
    unfold verdict
    rw [hdhcp, Option.getD_none, hostVerdict, hip]
    dsimp only
    rw [if_neg fun h => Bool.eq_false_iff.1 hecho h.2, hq]
    dsimp only
    rw [transitVerdict, PacketFlow.ofPacket?_nextHop? hq, hflow]
    dsimp only
    rw [addressVerdict_eq, Packet.dst_nextHop? hq, hpassed]

end

end Domain

namespace Router

section

variable {r : Router} {frame : Waiter} {id : DomainId} {d : Domain} {f : Wire.Ethernet.Frame}
  {p : Packet} {protocol : Protocol}

/-- How a packet leaves a domain over a link: over a live one that has its flow where it arrived, or
over one that the rules for ports permit. -/
inductive LeavesOverLink (r : Router) (d : Domain) (flow : PacketFlow) : Verdict → Prop
  | live {ref : LinkRef} {packet : Packet} {link : Link} (hm : link ∈ r.tree.liveLinks)
      (howned : r.tree.ownedLink? ref.owner ref.link = some link)
      (hend : link.seat ref.side = ⟨d.name, flow.key⟩) :
      LeavesOverLink r d flow (.follow ref flow packet)
  | permitted {target : LinkTarget} {packet : Packet}
      (hdecision : d.decision flow.key = .permitted target) :
      LeavesOverLink r d flow (.openLink target flow packet)

/-- **Where a rule for ports speaks for a packet that arrives, it leaves over a link if its flow can
be read**; if not, a rule for addresses passes it on as it is. -/
theorem Reachable.leaves_over_link (h : r.Reachable) (ha : r.Arrives frame id d f p)
    (hprotocol : p.protocol? = some protocol) (hspeaks : d.SpeaksFor protocol p.dst) :
    (∀ flow, PacketFlow.ofPacket? p = some flow → (d.verdict p).Leaves →
      r.LeavesOverLink d flow (d.verdict p)) ∧
    ∀ domain packet, d.verdict p = .pass domain packet ↔ PacketFlow.ofPacket? p = none ∧
      p.nextHop? = some packet ∧ d.passedTo? p.dst = some domain := by
  refine ⟨fun flow hflow hleaves => ?_, fun domain packet =>
    Domain.verdict_eq_pass hprotocol hspeaks⟩
  have hsound := h.good.sound
  obtain ⟨hby, -⟩ := h.good.byName?_of_domainId? ha.handle ha.domain
  have htransit := Domain.transit_verdict hleaves.isTransit
  generalize d.verdict p = v at htransit hleaves
  cases htransit with
  | @follow flow' ref q hflow' hlink hq =>
    obtain rfl : flow = flow' := Option.some.inj (hflow.symm.trans hflow')
    have hlookup : r.tree.lookup? ⟨d.name, flow.key⟩ = some ref := by
      rw [DomainTree.lookup?, hby]
      exact hlink
    obtain ⟨link, hm, hsits, rfl⟩ := (hsound.index ..).1 hlookup
    exact .live hm (hsound.ownedLink?_of_mem hm) (Link.seat_side_refAt hsits)
  | @openLink flow' target q hflow' hlink hinit hdec hq =>
    obtain rfl : flow = flow' := Option.some.inj (hflow.symm.trans hflow')
    exact .permitted hdec
  | denied => exact hleaves.elim
  | addressed hno hq =>
    obtain ⟨hinit, hdecided⟩ := Domain.decided_of_speaksFor hprotocol hspeaks hflow
    exact absurd ((hno flow hflow).2 hinit) hdecided

end

/-! ## A fragment that the rules for ports do not see -/

namespace Fragment

theorem prefixLength_le : 24 ≤ 32 := by
  decide

/-- Two domains, of which the first may send TCP segments to port 80 of the second only, but all
other packets to any host there. -/
def config : Config :=
  let lan : Cidr := ⟨.ofOctets 10 0 0 1, 24, prefixLength_le⟩
  let wan : Cidr := ⟨.ofOctets 10 0 1 1, 24, prefixLength_le⟩
  { icmpUnreachable := false
    domains := [
      { name := "lan", interface := some lan, ip := [{ dst := wan, domain := "wan" }]
        tcp := [{ dst := wan, permit := [{ ports := "80", domain := "wan" }] }] },
      { name := "wan", interface := some wan, nat := [{ domain := "lan", tcpPorts := 1 }] }] }

theorem hasErrors_config : config.validate.hasErrors = false := by
  decide +kernel

/-- The router with an interface in each domain, which knows where the second domain's host is. -/
def router : Router :=
  let started := (({} : Router).adopt config).value
  let attached := ((started.attach "lan").value.2.attach "wan").value.2
  (attached.handle 0 (.frame ⟨1, 0⟩ Ping.announcement)).value.2

theorem reachable_router : router.Reachable :=
  .handle (.attach (.attach (.adopted hasErrors_config 0) "lan") "wan") 0 _

/-- A segment to port 22. -/
def segment : Wire.Bytes :=
  Wire.Tcp.Draft.build { srcPort := 40000, dstPort := 22, flags := 2 } (.ofOctets 10 0 0 2)
    (.ofOctets 10 0 1 2) []

/-- The packet with the segment. -/
def whole : Packet where
  bytes := Wire.Ipv4.Draft.build
    { src := .ofOctets 10 0 0 2, dst := .ofOctets 10 0 1 2, protocolNumber := 6 } segment
  version_eq := by decide +kernel
  minHeaderLength_le := by decide +kernel
  headerLength_le := by decide +kernel
  totalLength_eq := by decide +kernel

/-- The same packet, as a fragment after which more follow. -/
def packet : Packet :=
  (whole.edit 6 [0x20, 0] (by decide)).refreshChecksum

/-- The frame with the packet. -/
def ethernet : Wire.Ethernet.Frame where
  dst := Config.defaultMac
  src := Ping.host
  etherType := Wire.EtherType.ipv4.number
  payload := packet.bytes

/-- The frame as it arrives in the first domain. -/
def frame : Waiter where
  src := ⟨0, 0⟩
  frame := Wire.Ethernet.build ethernet
  queued := 0

/-- The domain in which the frame arrives. -/
def lan : Domain :=
  router.tree.domains.head (by decide +kernel)

theorem arrives : router.Arrives frame ⟨1, 0⟩ lan ethernet packet where
  handle := by decide +kernel
  domain := by decide +kernel
  ethernet := Wire.Ethernet.parse_build ethernet
  addressed := .inl (by decide +kernel)
  type := by decide +kernel
  packet := by decide +kernel
  intact := by decide +kernel

theorem speaksFor : lan.SpeaksFor .tcp packet.dst := by
  obtain ⟨rule, hrule⟩ : ∃ rule, lan.rules.tcp.longestMatch? packet.dst = some rule :=
    Option.isSome_iff_exists.1 (by decide +kernel)
  exact ⟨nofun, .ofOctets 10 0 0 1, by decide +kernel, .inr ⟨lan.rules.tcp, rule, rfl, hrule⟩⟩

end Fragment

/-- The rule for ports denies the segment, and the rule for addresses passes its fragment. -/
theorem leaves_over_link_fragment : Fragment.router.Reachable ∧
    Fragment.lan.SpeaksFor .tcp Fragment.packet.dst ∧
    ∃ q, Fragment.packet.nextHop? = some q ∧
      Fragment.lan.verdict Fragment.packet = .pass "wan" q := by
  have hrules := Fragment.reachable_router.leaves_over_link Fragment.arrives
    (by decide +kernel) Fragment.speaksFor
  obtain ⟨q, hq⟩ : ∃ q, Fragment.packet.nextHop? = some q :=
    Option.isSome_iff_exists.1 (by decide +kernel)
  exact ⟨Fragment.reachable_router, Fragment.speaksFor, q, hq,
    (hrules.2 "wan" q).2 ⟨by decide +kernel, hq, by decide +kernel⟩⟩

/-- **A fragment of a segment that the rules for ports deny reaches the other domain**, with the
addresses that it came with, although the domain translates, and without any link. -/
theorem fragment_passes : Fragment.router.Reachable ∧
    Fragment.router.Arrives Fragment.frame ⟨1, 0⟩ Fragment.lan Fragment.ethernet Fragment.packet ∧
    Fragment.lan.SpeaksFor .tcp Fragment.packet.dst ∧
    (PacketFlow.ofPacket? Fragment.whole).map (Fragment.lan.decision ·.key) = some .denied ∧
    (Fragment.packet.nextHop?.map fun q =>
      through [⟨1, 0⟩] (Fragment.router.frameOf Ping.host q.bytes)) =
        some (Fragment.router.receive ⟨0, 0⟩ Fragment.frame.frame 0).value.1 ∧
    (Fragment.router.receive ⟨0, 0⟩ Fragment.frame.frame 0).value.2.tree.liveLinks = [] :=
  ⟨Fragment.reachable_router, Fragment.arrives, Fragment.speaksFor, by decide +kernel,
    by decide +kernel, by decide +kernel⟩

end Router

end SegmentRouter
