import SegmentRouter.Proofs.Router.Opening
import SegmentRouter.Proofs.Router.Verdicts
import SegmentRouter.Proofs.Tree.Bounds
import SegmentRouter.Proofs.Wire.Bounds

/-!
# Proofs/Router/Guards — packets are judged and sent on within bounds

What becomes of a packet is told once more in guarded steps, from the verdict on it to the frames in
which it leaves.  The bytes alone do not show that no step fails: a packet is translated for a link
far from where its lengths were compared with each other.  Yet a verdict that gives a packet to a
link has read its flow (`Domain.ofPacket?_of_linked`), and then there is room for another.
-/

namespace SegmentRouter

open Wire (Bytes)
open Wire.Ipv4 (Packet)

/-! ## Verdicts -/

namespace Domain

variable (d : Domain) (p : Packet)

/-- `isEchoRequest` in guarded steps. -/
def isEchoRequestGuarded (p : Packet) : Option Bool := do
  if (← p.protocolGuarded) = some .icmp then
    match ← Wire.Icmp.parseGuarded (← p.payloadGuarded) with
    | .ok message => return message.isEchoRequest
    | .error _ => return false
  else return false

/-- Whether a packet is an echo request to an address, in guarded steps. -/
def isEchoToGuarded (p : Packet) (ip : Ipv4Addr) : Option Bool := do
  if (← p.dstGuarded) = ip then isEchoRequestGuarded p else return false

/-- `dhcpVerdict?` in guarded steps.  Every datagram is read, whether it is for the router or not. -/
def dhcpVerdictGuarded : Option (Option Verdict) := do
  let protocol ← p.protocolGuarded
  let fragment ← p.isFragmentGuarded
  if protocol = some .udp ∧ ¬ fragment then
    let here := d.isLocal (← p.dstGuarded)
    match ← Wire.Udp.parseGuarded (← p.payloadGuarded) with
    | .error _ => return none
    | .ok datagram =>
      if datagram.dstPort = Wire.Dhcp.clientPort ∧ d.source = .dhcp ∧ here then
        return some (.toDhcpClient datagram.payload)
      else if datagram.dstPort = Wire.Dhcp.serverPort ∧ d.dhcpServer.isSome ∧ d.ipConfig.isSome ∧
          here then
        return some (.toDhcpServer datagram.payload)
      else return none
  else return none

/-- `addressVerdict` in guarded steps. -/
def addressVerdictGuarded : Option Verdict := do
  match d.rules.ip.longestMatch? (← p.dstGuarded) with
  | some rule => return .pass rule.domain p
  | none => return .refuse .noRule p

/-- `portVerdict` in guarded steps. -/
def portVerdictGuarded (flow : PacketFlow) : Option Verdict :=
  if flow.initiates then
    match d.decision flow.key with
    | .permitted target => return .openLink target flow p
    | .denied => return .refuse (.denied flow.key) p
    | .noRule => d.addressVerdictGuarded p
  else d.addressVerdictGuarded p

/-- `transitVerdict` in guarded steps. -/
def transitVerdictGuarded : Option Verdict := do
  match ← PacketFlow.ofPacketGuarded p with
  | none => d.addressVerdictGuarded p
  | some flow =>
    match d.links.lookup? flow.key with
    | some ref => return .follow ref flow p
    | none => d.portVerdictGuarded p flow

/-- `hostVerdict` in guarded steps. -/
def hostVerdictGuarded : Option Verdict :=
  match d.routerIp? with
  | none => return .drop .unconfigured
  | some routerIp => do
    if ← isEchoToGuarded p routerIp then return .echo
    else match ← p.nextHopGuarded with
      | none => return .drop .ttlExceeded
      | some p => d.transitVerdictGuarded p

/-- `verdict` in guarded steps. -/
def verdictGuarded : Option Verdict := do
  match ← d.dhcpVerdictGuarded p with
  | some verdict => return verdict
  | none => d.hostVerdictGuarded p

theorem isEchoRequestGuarded_eq : isEchoRequestGuarded p = some (isEchoRequest p) := by
  unfold isEchoRequestGuarded isEchoRequest
  rw [p.protocolGuarded_eq, p.payloadGuarded_eq]
  simp only [Option.bind_eq_bind, Option.bind_some, Wire.Icmp.parseGuarded_eq]
  split
  · rename_i hicmp
    rw [hicmp]
    cases Wire.Icmp.parse p.payload <;> rfl
  · rename_i hother
    rw [beq_eq_false_iff_ne.2 hother]
    rfl

theorem isEchoToGuarded_eq (ip : Ipv4Addr) :
    isEchoToGuarded p ip = some (decide (p.dst = ip ∧ isEchoRequest p)) := by
  unfold isEchoToGuarded
  rw [p.dstGuarded_eq, isEchoRequestGuarded_eq, Option.bind_eq_bind, Option.bind_some]
  split <;> simp [*]

theorem dhcpVerdictGuarded_eq : d.dhcpVerdictGuarded p = some (d.dhcpVerdict? p) := by
  unfold dhcpVerdictGuarded dhcpVerdict?
  rw [p.protocolGuarded_eq, p.isFragmentGuarded_eq, p.dstGuarded_eq, p.payloadGuarded_eq]
  simp only [Option.bind_eq_bind, Option.bind_some, Wire.Udp.parseGuarded_eq]
  by_cases hudp : p.protocol? = some .udp ∧ ¬ p.isFragment = true
  · rw [if_pos hudp]
    cases hparse : Wire.Udp.parse p.payload with
    | error cause => simp
    | ok datagram =>
      dsimp only
      by_cases hlocal : d.isLocal p.dst = true
      · simp only [hlocal, and_true, if_pos hudp]
        split
        · rfl
        · split <;> rfl
      · simp [hlocal]
  · rw [if_neg hudp, if_neg fun h => hudp ⟨h.1, h.2.1⟩]
    rfl

theorem addressVerdictGuarded_eq : d.addressVerdictGuarded p = some (d.addressVerdict p) := by
  unfold addressVerdictGuarded addressVerdict
  rw [p.dstGuarded_eq, Option.bind_eq_bind, Option.bind_some]
  cases d.rules.ip.longestMatch? p.dst <;> rfl

theorem portVerdictGuarded_eq (flow : PacketFlow) :
    d.portVerdictGuarded p flow = some (d.portVerdict flow p) := by
  unfold portVerdictGuarded portVerdict
  rw [addressVerdictGuarded_eq]
  split
  · cases d.decision flow.key <;> rfl
  · rfl

theorem transitVerdictGuarded_eq : d.transitVerdictGuarded p = some (d.transitVerdict p) := by
  unfold transitVerdictGuarded transitVerdict
  rw [PacketFlow.ofPacketGuarded_eq, Option.bind_eq_bind, Option.bind_some]
  cases PacketFlow.ofPacket? p with
  | none => exact d.addressVerdictGuarded_eq p
  | some flow =>
    dsimp only
    cases d.links.lookup? flow.key with
    | some ref => rfl
    | none => exact d.portVerdictGuarded_eq p flow

theorem hostVerdictGuarded_eq : d.hostVerdictGuarded p = some (d.hostVerdict p) := by
  unfold hostVerdictGuarded hostVerdict
  cases d.routerIp? with
  | none => rfl
  | some routerIp =>
    dsimp only
    rw [isEchoToGuarded_eq, p.nextHopGuarded_eq]
    simp only [Option.bind_eq_bind, Option.bind_some, decide_eq_true_eq]
    split
    · rfl
    · cases p.nextHop? with
      | none => rfl
      | some q => exact d.transitVerdictGuarded_eq q

/-- **A verdict is given within the packet**, whatever the packet is. -/
theorem verdictGuarded_eq : d.verdictGuarded p = some (d.verdict p) := by
  unfold verdictGuarded verdict
  rw [dhcpVerdictGuarded_eq, Option.bind_eq_bind, Option.bind_some]
  cases d.dhcpVerdict? p with
  | some verdict => rfl
  | none => exact d.hostVerdictGuarded_eq p

end Domain

/-- The flow and the packet that a verdict gives to a link. -/
def Verdict.linked? : Verdict → Option (PacketFlow × Packet)
  | .follow _ flow packet => some (flow, packet)
  | .openLink _ flow packet => some (flow, packet)
  | _ => none

/-- **A packet that is given to a link has a flow that its bytes tell.** -/
theorem Domain.ofPacket?_of_linked {d : Domain} {p packet : Packet} {flow : PacketFlow}
    (h : (d.verdict p).linked? = some (flow, packet)) : PacketFlow.ofPacket? packet = some flow := by
  have htransit : (d.verdict p).IsTransit := by
    cases hverdict : d.verdict p <;> rw [hverdict] at h <;> trivial
  have hkind := transit_verdict htransit
  generalize d.verdict p = verdict at h hkind
  cases hkind with
  | follow hflow hlink hq =>
    obtain ⟨rfl, rfl⟩ := Prod.mk.inj (Option.some.inj h)
    exact (PacketFlow.ofPacket?_nextHop? hq).trans hflow
  | openLink hflow hlink hinit hdec hq =>
    obtain ⟨rfl, rfl⟩ := Prod.mk.inj (Option.some.inj h)
    exact (PacketFlow.ofPacket?_nextHop? hq).trans hflow
  | denied => cases h
  | addressed =>
    rw [addressVerdict_eq] at h
    split at h <;> cases h

/-- A port that was taken for a new link is counted where it was taken. -/
theorem DomainTree.Sound.inUse_pos_of_linkSource {tree : DomainTree} (h : tree.Sound)
    {name client : String} {server taken d : Domain} {routerIp : Ipv4Addr} {key : FlowKey}
    {source : LinkSource} (hserver : tree.byName? name = some server)
    (hsource : server.linkSource routerIp client key = .ok (source, taken))
    (hport : source.natPort.isSome)
    (hd : (tree.update name fun _ => taken).byName? name = some d) :
    0 < (d.pools.get key.protocol).inUse := by
  have hnext := (h.accounts hserver).next key.protocol
  rcases Domain.linkSource_eq_ok hsource with ⟨-, rfl, rfl⟩ | ⟨-, port, halloc, rfl⟩
  · cases hport
  · have hgrants := Domain.grants_allocPort hnext halloc
    have hname : taken.name = name := hgrants.name_eq.trans (name_of_byName? hserver)
    rw [byName?_update _ _ _ fun _ _ => hname, if_pos rfl, hserver] at hd
    obtain rfl : taken = d := Option.some.inj hd
    exact hgrants.inUse_pos

/-! ## Sending on -/

namespace Router

variable {r : Router}

/-- `askFor` in guarded steps. -/
def askForGuarded (r : Router) (d : Domain) (hop : Ipv4Addr) : Option (List Transmit) :=
  match d.routerIp? with
  | some routerIp => do
    let question ← (Wire.Arp.Packet.request r.config.mac routerIp hop).frameGuarded
    return through d.interfaces.keys question
  | none => return []

/-- `park` in guarded steps. -/
def parkGuarded (r : Router) (d : Domain) (hop : Ipv4Addr) (waiter : Waiter) : Option Reaction :=
  let (outcome, arp) := d.arp.park hop waiter waiter.queued
  let parked := r.withTree (r.tree.update d.name (·.withArp arp))
  match outcome with
  | .requestNeeded => do return parked.sending (← r.askForGuarded d hop)
  | .queued | .dropped => return parked.sending []

/-- `resolve` in guarded steps. -/
def resolveGuarded (r : Router) (name : String) (dst : Ipv4Addr) (waiter : Waiter) :
    Option (Option NextHop × Reaction) :=
  match r.tree.byName? name with
  | none => return (none, r.sending [])
  | some d =>
    match d.route dst with
    | .unconfigured | .noGateway => return (none, r.sending [])
    | .unresolved hop => do return (none, ← r.parkGuarded d hop waiter)
    | .known hop => return (some hop, r.sending [])

/-- `pass` in guarded steps. -/
def passGuarded (r : Router) (frame : Waiter) (domain : String) (packet : Packet) :
    Option Reaction := do
  let dst ← packet.dstGuarded
  match ← r.resolveGuarded domain dst frame with
  | (none, reaction) => return reaction
  | (some hop, _) => return (r.forward domain hop packet).value

/-- `follow` in guarded steps. -/
def followGuarded (r : Router) (frame : Waiter) (ref : LinkRef) (flow : PacketFlow)
    (packet : Packet) : Option Reaction :=
  match r.tree.ownedLink? ref.owner ref.link with
  | none => return r.sending []
  | some link => do
    let out := link.egress ref.side
    match ← r.resolveGuarded out.domain out.rewrite.dstIp frame with
    | (none, reaction) => return reaction
    | (some hop, _) =>
      let followed := r.tree.update ref.owner
        (Domain.changeLink ref.link (·.followed ref.side flow frame.queued))
      let translated ← packet.translateGuarded flow.key.protocol out.rewrite
      return ((r.withTree followed).forward out.domain hop translated).value

/-- `enter` in guarded steps. -/
def enterGuarded (r : Router) (link : Link) (hop : NextHop) (packet : Packet) : Option Reaction :=
  match r.tree.insertLink? link with
  | some tree => do
    let entered := { r with tree, nextLink := r.nextLink + 1 }
    let translated ← packet.translateGuarded link.protocol (link.egress .client).rewrite
    return (entered.forward link.server.domain hop translated).value
  | none =>
    match link.natPort with
    | some port => do
      let tree ← r.tree.updateGuarded link.server.domain
        (·.freePortGuarded link.client.domain link.protocol port)
      return (r.withTree tree).sending []
    | none => return r.sending []

/-- `openTowards` in guarded steps. -/
def openTowardsGuarded (r : Router) (frame : Waiter) (client : String) (target : LinkTarget)
    (server : Domain) (routerIp : Ipv4Addr) (flow : PacketFlow) (packet : Packet) :
    Option Reaction := do
  match ← r.resolveGuarded target.domain target.ip frame with
  | (none, reaction) => return reaction
  | (some hop, _) =>
    match ← server.linkSourceGuarded routerIp client flow.key with
    | .error _ => return r.sending []
    | .ok (source, taken) =>
      (r.withTree (r.tree.update target.domain fun _ => taken)).enterGuarded
        (.opened r.nextLink client flow target source frame.src frame.queued) hop packet

/-- `openLink` in guarded steps. -/
def openLinkGuarded (r : Router) (frame : Waiter) (client : String) (target : LinkTarget)
    (flow : PacketFlow) (packet : Packet) : Option Reaction :=
  match r.tree.byName? target.domain with
  | none => return r.sending []
  | some server =>
    match server.routerIp? with
    | none => return r.sending []
    | some routerIp => r.openTowardsGuarded frame client target server routerIp flow packet

theorem askForGuarded_eq (d : Domain) (hop : Ipv4Addr) :
    r.askForGuarded d hop = some (r.askFor d hop) := by
  unfold askForGuarded askFor
  cases d.routerIp? with
  | none => rfl
  | some routerIp =>
    dsimp only
    rw [Wire.Arp.Packet.frameGuarded_eq]
    rfl

theorem parkGuarded_eq (d : Domain) (hop : Ipv4Addr) (waiter : Waiter) :
    r.parkGuarded d hop waiter = some (r.park d hop waiter).value := by
  unfold parkGuarded park
  rcases d.arp.park hop waiter waiter.queued with ⟨outcome, arp⟩
  cases outcome with
  | requestNeeded =>
    dsimp only
    rw [askForGuarded_eq]
    rfl
  | queued => rfl
  | dropped => rfl

theorem resolveGuarded_eq (name : String) (dst : Ipv4Addr) (waiter : Waiter) :
    r.resolveGuarded name dst waiter = some (r.resolve name dst waiter).value := by
  unfold resolveGuarded resolve
  cases r.tree.byName? name with
  | none => rfl
  | some d =>
    dsimp only
    cases d.route dst with
    | unresolved hop =>
      dsimp only
      rw [parkGuarded_eq]
      rfl
    | unconfigured | noGateway | known => rfl

theorem passGuarded_eq (frame : Waiter) (domain : String) (packet : Packet) :
    r.passGuarded frame domain packet = some (r.pass frame domain packet).value := by
  unfold passGuarded pass
  rw [packet.dstGuarded_eq, Option.bind_eq_bind, Option.bind_some, resolveGuarded_eq,
    Option.bind_eq_bind, Option.bind_some, Logged.value_bind]
  rcases (r.resolve domain packet.dst frame).value with ⟨hop, reaction⟩
  cases hop <;> rfl

/-- **A packet of a link is translated within its bounds**, since its flow was read. -/
theorem followGuarded_eq {flow : PacketFlow} {packet : Packet}
    (h : PacketFlow.ofPacket? packet = some flow) (frame : Waiter) (ref : LinkRef) :
    r.followGuarded frame ref flow packet = some (r.follow frame ref flow packet).value := by
  unfold followGuarded follow
  cases r.tree.ownedLink? ref.owner ref.link with
  | none => rfl
  | some link =>
    dsimp only
    rw [resolveGuarded_eq, Option.bind_eq_bind, Option.bind_some, Logged.value_bind,
      Packet.translateGuarded_eq h]
    rcases (r.resolve (link.egress ref.side).domain
      (link.egress ref.side).rewrite.dstIp frame).value with ⟨hop, reaction⟩
    cases hop <;> rfl

/-- A link is entered, or its port given back, in guarded steps. -/
theorem enterGuarded_eq {link : Link} {packet : Packet} {flow : PacketFlow}
    (h : PacketFlow.ofPacket? packet = some flow) (hprotocol : link.protocol = flow.key.protocol)
    (hport : link.natPort.isSome → ∀ d, r.tree.byName? link.server.domain = some d →
      0 < (d.pools.get link.protocol).inUse) (hop : NextHop) :
    r.enterGuarded link hop packet = some (r.enter link hop packet).value := by
  unfold enterGuarded enter
  cases r.tree.insertLink? link with
  | some tree =>
    dsimp only
    rw [hprotocol, Packet.translateGuarded_eq h]
    rfl
  | none =>
    dsimp only
    cases hnat : link.natPort with
    | none => rfl
    | some port =>
      have hfreed : ∀ d, r.tree.byName? link.server.domain = some d →
          d.freePortGuarded link.client.domain link.protocol port =
            some (d.freePort link.client.domain link.protocol port) := fun d hd =>
        Domain.freePortGuarded_eq (fun _ => hport (by rw [hnat]; rfl) d hd) _
      dsimp only
      rw [DomainTree.updateGuarded_eq hfreed]
      rfl

theorem openTowardsGuarded_eq (hsound : r.tree.Sound) {target : LinkTarget} {server : Domain}
    (hserver : r.tree.byName? target.domain = some server) {flow : PacketFlow} {packet : Packet}
    (h : PacketFlow.ofPacket? packet = some flow) (frame : Waiter) (client : String)
    (routerIp : Ipv4Addr) :
    r.openTowardsGuarded frame client target server routerIp flow packet =
      some (r.openTowards frame client target server routerIp flow packet).value := by
  have hnext := (hsound.accounts hserver).next
  unfold openTowardsGuarded openTowards
  rw [resolveGuarded_eq, Option.bind_eq_bind, Option.bind_some, Logged.value_bind,
    Domain.linkSourceGuarded_eq hnext]
  rcases (r.resolve target.domain target.ip frame).value with ⟨hop, reaction⟩
  cases hop with
  | none => rfl
  | some hop =>
    dsimp only
    rw [Option.bind_eq_bind, Option.bind_some]
    cases hsource : server.linkSource routerIp client flow.key with
    | error e => rfl
    | ok found =>
      obtain ⟨source, taken⟩ := found
      dsimp only
      refine enterGuarded_eq h (Link.protocol_opened ..) (fun hnat d hd => ?_) hop
      rw [Link.natPort_opened] at hnat
      rw [Link.server_opened] at hd
      rw [Link.protocol_opened]
      exact hsound.inUse_pos_of_linkSource hserver hsource hnat hd

theorem openLinkGuarded_eq (hsound : r.tree.Sound) {flow : PacketFlow} {packet : Packet}
    (h : PacketFlow.ofPacket? packet = some flow) (frame : Waiter) (client : String)
    (target : LinkTarget) : r.openLinkGuarded frame client target flow packet =
      some (r.openLink frame client target flow packet).value := by
  unfold openLinkGuarded openLink
  cases hserver : r.tree.byName? target.domain with
  | none => rfl
  | some server =>
    dsimp only
    cases server.routerIp? with
    | none => rfl
    | some routerIp => exact openTowardsGuarded_eq hsound hserver h frame client routerIp

end Router

end SegmentRouter
