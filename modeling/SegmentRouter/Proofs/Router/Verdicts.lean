import SegmentRouter.Proofs.Wire.Translation
import SegmentRouter.Router.Verdict

/-!
# Proofs/Router/Verdicts — what a verdict tells of its packet

A verdict that sends a packet on tells which way the packet took through the order of the rules: a
packet that belongs to a link has a flow that the index knows, one that opens a link has a flow that
the index does not know and the rules for ports permit, and one that is passed has no flow, or none
that either of them knows.  A hop less changes none of this, so all is said of the packet as it
arrived.
-/

namespace SegmentRouter

open Wire.Ipv4 (Packet)

namespace Wire.Ipv4.Packet

variable {p q : Packet}

/-! ## A hop less -/

theorem nextHop?_eq_some : p.nextHop? = some q ↔
    1 < p.ttl.toNat ∧ (p.edit 8 [p.ttl - 1] (by decide)).refreshChecksum = q := by
  unfold nextHop?
  split
  · rename_i h
    refine ⟨fun hno => absurd hno (Option.some_ne_none q).symm, fun hq => ?_⟩
    exact absurd hq.1 (Nat.not_lt.2 h)
  · rename_i h
    rw [Option.some.injEq, iff_and_self]
    exact fun _ => Nat.not_le.1 h

/-- One hop less shows in the header only where the hops and the checksum stand. -/
theorem byteAt_nextHop? (h : p.nextHop? = some q) {i : Nat} (hi : i < 8 ∨ i = 9 ∨ 12 ≤ i) :
    byteAt q.bytes i = byteAt p.bytes i := by
  obtain ⟨-, rfl⟩ := nextHop?_eq_some.1 h
  rw [byteAt_refreshChecksum _ (by omega), bytes_edit,
    byteAt_overwrite_of_disjoint (by simp; omega)]

theorem payload_nextHop? (h : p.nextHop? = some q) : q.payload = p.payload := by
  obtain ⟨-, rfl⟩ := nextHop?_eq_some.1 h
  rw [payload_refreshChecksum, payload_edit _ _ (by simp)]

theorem src_nextHop? (h : p.nextHop? = some q) : q.src = p.src :=
  ipAt_congr fun _ _ => byteAt_nextHop? h (by omega)

theorem dst_nextHop? (h : p.nextHop? = some q) : q.dst = p.dst :=
  ipAt_congr fun _ _ => byteAt_nextHop? h (by omega)

theorem isFragment_nextHop? (h : p.nextHop? = some q) : q.isFragment = p.isFragment := by
  unfold isFragment isTrailingFragment fragmentOffset moreFragments
  rw [byteAt_nextHop? h (.inl (by decide)), byteAt_nextHop? h (.inl (by decide))]

theorem protocol?_nextHop? (h : p.nextHop? = some q) : q.protocol? = p.protocol? :=
  congrArg Protocol.ofNumber? (byteAt_nextHop? h (.inr (.inl rfl)))

end Wire.Ipv4.Packet

/-- A packet that is one hop further is of the same flow. -/
theorem PacketFlow.ofPacket?_nextHop? {p q : Packet} (h : p.nextHop? = some q) :
    ofPacket? q = ofPacket? p := by
  unfold ofPacket?
  rw [Packet.isFragment_nextHop? h, Packet.protocol?_nextHop? h, Packet.src_nextHop? h,
    Packet.dst_nextHop? h, Packet.payload_nextHop? h]

/-! ## Packets that are sent on -/

/-- Whether a packet is sent on or refused, and not meant for the router itself. -/
def Verdict.IsTransit : Verdict → Prop
  | .follow .. | .openLink .. | .pass .. | .refuse .. => True
  | .drop _ | .toDhcpClient _ | .toDhcpServer _ | .echo => False

/-- Whether a packet leaves the domain in which it arrived. -/
def Verdict.Leaves : Verdict → Prop
  | .follow .. | .openLink .. | .pass .. => True
  | .drop _ | .toDhcpClient _ | .toDhcpServer _ | .echo | .refuse .. => False

theorem Verdict.Leaves.isTransit {v : Verdict} (h : v.Leaves) : v.IsTransit := by
  cases v <;> trivial

namespace Domain

variable {d : Domain} {p q packet : Packet} {flow : PacketFlow} {target : LinkTarget}
  {ref : LinkRef} {domain : String} {verdict : Verdict}

/-- **The router's own packets are told apart before any rule is asked**, by the destination and
what the packet carries. -/
theorem dhcpVerdict?_eq_some (h : d.dhcpVerdict? p = some verdict) :
    (∃ flow, PacketFlow.ofPacket? p = some flow ∧ flow.key.protocol = .udp) ∧
      d.isLocal p.dst = true ∧
      ((∃ message, verdict = .toDhcpClient message ∧ d.source = .dhcp) ∨
        ∃ message, verdict = .toDhcpServer message) := by
  unfold dhcpVerdict? at h
  split at h
  · rename_i hlocal
    obtain ⟨hudp, hwhole, hdst⟩ := hlocal
    split at h
    · cases h
    · rename_i datagram hparse
      have hflow : PacketFlow.ofPacket? p = some { key := ⟨.udp, {
          srcIp := p.src, srcPort := datagram.srcPort, dstIp := p.dst,
          dstPort := datagram.dstPort }⟩ } := by
        refine PacketFlow.ofPacket?_eq_some.2 ⟨by simpa using hwhole, hudp, ?_⟩
        dsimp only [PacketFlow.ofPayload?]
        rw [hparse]
      refine ⟨⟨_, hflow, rfl⟩, hdst, ?_⟩
      split at h
      · rename_i hclient
        exact .inl ⟨_, (Option.some.inj h).symm, hclient.2⟩
      · split at h
        · exact .inr ⟨_, (Option.some.inj h).symm⟩
        · cases h
  · cases h

/-- **A verdict that sends a packet on is one on the packet with a hop less.** -/
theorem transit_of_verdict (h : (d.verdict p).IsTransit) :
    ∃ q, p.nextHop? = some q ∧ d.verdict p = d.transitVerdict q := by
  unfold verdict at h ⊢
  cases hdhcp : d.dhcpVerdict? p with
  | some verdict =>
    rw [hdhcp] at h
    rcases (dhcpVerdict?_eq_some hdhcp).2.2 with ⟨message, rfl, -⟩ | ⟨message, rfl⟩ <;> exact h.elim
  | none =>
    rw [hdhcp, Option.getD_none, hostVerdict] at h
    rw [Option.getD_none, hostVerdict]
    split at h
    · exact h.elim
    · split at h
      · exact h.elim
      · rename_i hecho
        rw [if_neg hecho]
        split at h
        · exact h.elim
        · rename_i q hnext
          exact ⟨q, hnext, rfl⟩

theorem portVerdict_cases (d : Domain) (flow : PacketFlow) (q : Packet) :
    (∃ target, flow.initiates = true ∧ d.decision flow.key = .permitted target ∧
      d.portVerdict flow q = .openLink target flow q) ∨
    (flow.initiates = true ∧ d.decision flow.key = .denied ∧
      d.portVerdict flow q = .refuse (.denied flow.key) q) ∨
    ((flow.initiates = true → d.decision flow.key = .noRule) ∧
      d.portVerdict flow q = d.addressVerdict q) := by
  unfold portVerdict
  split
  · rename_i hinit
    split
    · rename_i target hdec
      exact .inl ⟨target, hinit, hdec, rfl⟩
    · rename_i hdec
      exact .inr (.inl ⟨hinit, hdec, rfl⟩)
    · rename_i hdec
      exact .inr (.inr ⟨fun _ => hdec, rfl⟩)
  · rename_i hinit
    exact .inr (.inr ⟨fun h => absurd h hinit, rfl⟩)

/-- The domain that a rule for addresses passes packets to a destination into. -/
def passedTo? (d : Domain) (dst : Ipv4Addr) : Option String :=
  (d.rules.ip.longestMatch? dst).map (·.domain)

theorem addressVerdict_eq (d : Domain) (q : Packet) : d.addressVerdict q =
    match d.passedTo? q.dst with
    | some domain => .pass domain q
    | none => .refuse .noRule q := by
  unfold addressVerdict passedTo?
  cases d.rules.ip.longestMatch? q.dst <;> rfl

theorem isTransit_addressVerdict (d : Domain) (q : Packet) : (d.addressVerdict q).IsTransit := by
  rw [addressVerdict_eq]
  split <;> trivial

theorem isTransit_transitVerdict (d : Domain) (q : Packet) : (d.transitVerdict q).IsTransit := by
  unfold transitVerdict
  split
  · exact d.isTransit_addressVerdict q
  · rename_i flow hflow
    split
    · trivial
    · rcases d.portVerdict_cases flow q with ⟨target, -, -, hv⟩ | ⟨-, -, hv⟩ | ⟨-, hv⟩
      · exact hv ▸ trivial
      · exact hv ▸ trivial
      · exact hv ▸ d.isTransit_addressVerdict q

/-- The DHCP client is given packets only where addresses are leased. -/
theorem source_of_verdict {message : Wire.Bytes} (h : d.verdict p = .toDhcpClient message) :
    d.source = .dhcp := by
  unfold verdict at h
  cases hdhcp : d.dhcpVerdict? p with
  | some verdict =>
    rw [hdhcp, Option.getD_some] at h
    rcases (dhcpVerdict?_eq_some hdhcp).2.2 with ⟨_, -, hsource⟩ | ⟨_, hserver⟩
    · exact hsource
    · cases h.symm.trans hserver
  | none =>
    rw [hdhcp, Option.getD_none, hostVerdict] at h
    split at h
    · cases h
    · split at h
      · cases h
      · split at h
        · cases h
        · rename_i q hnext
          have htransit := d.isTransit_transitVerdict q
          rw [h] at htransit
          exact htransit.elim

/-! ## The three ways on -/

/-- What decides about a packet that is sent on: its flow, the link that it belongs to, the rules
for ports, and then those for addresses. -/
inductive Transit (d : Domain) (p : Packet) : Verdict → Prop
  | follow {flow : PacketFlow} {ref : LinkRef} {q : Packet}
      (hflow : PacketFlow.ofPacket? p = some flow) (hlink : d.links.lookup? flow.key = some ref)
      (hq : p.nextHop? = some q) : Transit d p (.follow ref flow q)
  | openLink {flow : PacketFlow} {target : LinkTarget} {q : Packet}
      (hflow : PacketFlow.ofPacket? p = some flow) (hlink : d.links.lookup? flow.key = none)
      (hinit : flow.initiates = true) (hdec : d.decision flow.key = .permitted target)
      (hq : p.nextHop? = some q) : Transit d p (.openLink target flow q)
  | denied {flow : PacketFlow} {q : Packet} (hflow : PacketFlow.ofPacket? p = some flow)
      (hlink : d.links.lookup? flow.key = none) (hinit : flow.initiates = true)
      (hdec : d.decision flow.key = .denied) (hq : p.nextHop? = some q) :
      Transit d p (.refuse (.denied flow.key) q)
  | addressed {q : Packet} (hflow : ∀ flow, PacketFlow.ofPacket? p = some flow →
        d.links.lookup? flow.key = none ∧ (flow.initiates = true → d.decision flow.key = .noRule))
      (hq : p.nextHop? = some q) : Transit d p (d.addressVerdict q)

/-- **A verdict that sends a packet on, or refuses it, has taken one of four ways.** -/
theorem transit_verdict (h : (d.verdict p).IsTransit) : d.Transit p (d.verdict p) := by
  obtain ⟨q, hq, hverdict⟩ := transit_of_verdict h
  rw [hverdict, transitVerdict, PacketFlow.ofPacket?_nextHop? hq]
  cases hflow : PacketFlow.ofPacket? p with
  | none => exact .addressed (fun flow hsome => absurd (hflow.symm.trans hsome) nofun) hq
  | some flow =>
    dsimp only
    cases hlink : d.links.lookup? flow.key with
    | some ref => exact .follow hflow hlink hq
    | none =>
      rcases d.portVerdict_cases flow q with ⟨target, hinit, hdec, hv⟩ | ⟨hinit, hdec, hv⟩ |
        ⟨hdec, hv⟩
      · exact hv ▸ .openLink hflow hlink hinit hdec hq
      · exact hv ▸ .denied hflow hlink hinit hdec hq
      · refine hv ▸ .addressed (fun flow' hsome => ?_) hq
        obtain rfl : flow = flow' := Option.some.inj (hflow.symm.trans hsome)
        exact ⟨hlink, hdec⟩

/-- The flow of a packet that opens a link is one that its bytes tell. -/
theorem ofPacket?_of_verdict (h : d.verdict p = .openLink target flow packet) :
    PacketFlow.ofPacket? p = some flow := by
  have htransit : d.Transit p (.openLink target flow packet) :=
    h ▸ transit_verdict (h ▸ trivial)
  generalize hv : Verdict.openLink target flow packet = v at htransit
  cases htransit with
  | follow => cases hv
  | openLink hflow =>
    obtain ⟨-, rfl, -⟩ := Verdict.openLink.inj hv
    exact hflow
  | denied => cases hv
  | addressed =>
    rw [addressVerdict_eq] at hv
    split at hv <;> cases hv

end Domain

end SegmentRouter
