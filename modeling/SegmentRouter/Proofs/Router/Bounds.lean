import SegmentRouter.Proofs.Dhcp.Bounds
import SegmentRouter.Proofs.Router.Guards
import SegmentRouter.Proofs.Router.Reachable

/-!
# Proofs/Router/Bounds — no frame leads the router out of bounds

The way of a frame through the router is told once more in guarded steps: whatever reads, cuts or
writes bytes, takes a port or counts one down does so in its guarded form, which fails out of bounds.
Nothing that a router receives makes a step fail, and what comes of it is what the router does
(`Reachable.receive_in_bounds`).

The bytes alone do not say so where a port is given back, which happens long after it was taken: a
message of a DHCP server may end the links of a domain, and a link that collides with another is not
opened.  The tree is sound, however, so the port is counted; hence all of this is said of good
routers, and a router stays good from one frame that is handled to the next.
-/

namespace SegmentRouter.Router

open Wire (Bytes)
open Wire.Ipv4 (Packet)
open Wire.Dhcp (Message)

variable {r : Router}

/-! ## Answers of the router -/

/-- `echo` in guarded steps. -/
def echoGuarded (r : Router) (interface : InterfaceId) (srcMac : Mac) (request : Packet) :
    Option Reaction := do
  match ← Wire.Icmp.echoReplyGuarded (← request.payloadGuarded) with
  | .ok message =>
    let draft := icmpDraft (← request.dstGuarded) (← request.srcGuarded)
    return r.reply interface srcMac (← draft.buildGuarded message)
  | .error _ => return r.sending []

/-- `mayAnswer` in guarded steps. -/
def mayAnswerGuarded (packet : Packet) : Option Bool := do
  if (← packet.protocolGuarded) = some .icmp then Domain.isEchoRequestGuarded packet
  else return true

/-- `answerUnreachable` in guarded steps. -/
def answerUnreachableGuarded (r : Router) (interface : InterfaceId) (srcMac : Mac)
    (routerIp : Ipv4Addr) (packet : Packet) : Option Reaction := do
  let answered ← mayAnswerGuarded packet
  if r.config.icmpUnreachable ∧ answered then
    let message ← Wire.Icmp.unreachableGuarded Wire.Icmp.networkUnreachable packet.bytes
      packet.headerLength
    let draft := icmpDraft routerIp (← packet.srcGuarded)
    return r.reply interface srcMac (← draft.buildGuarded message)
  else return r.sending []

/-- `refuse` in guarded steps.  The log tells where the packet was to go. -/
def refuseGuarded (r : Router) (interface : InterfaceId) (srcMac : Mac) (d : Domain)
    (packet : Packet) : Option Reaction := do
  let _ ← packet.dstGuarded
  match d.routerIp? with
  | some routerIp => r.answerUnreachableGuarded interface srcMac routerIp packet
  | none => return r.sending []

theorem echoGuarded_eq (interface : InterfaceId) (srcMac : Mac) (request : Packet) :
    r.echoGuarded interface srcMac request = some (r.echo interface srcMac request).value := by
  unfold echoGuarded echo
  simp only [request.payloadGuarded_eq, request.dstGuarded_eq, request.srcGuarded_eq,
    Wire.Icmp.echoReplyGuarded_eq, Wire.Ipv4.Draft.buildGuarded_eq, Option.bind_eq_bind,
    Option.bind_some]
  cases Wire.Icmp.echoReply request.payload <;> rfl

theorem mayAnswerGuarded_eq (packet : Packet) :
    mayAnswerGuarded packet = some (mayAnswer packet) := by
  unfold mayAnswerGuarded mayAnswer
  rw [packet.protocolGuarded_eq, Domain.isEchoRequestGuarded_eq, Option.bind_eq_bind,
    Option.bind_some]
  split <;> simp [*]

theorem answerUnreachableGuarded_eq (interface : InterfaceId) (srcMac : Mac) (routerIp : Ipv4Addr)
    (packet : Packet) : r.answerUnreachableGuarded interface srcMac routerIp packet =
      some (r.answerUnreachable interface srcMac routerIp packet) := by
  unfold answerUnreachableGuarded answerUnreachable
  simp only [mayAnswerGuarded_eq, Wire.Icmp.unreachableGuarded_eq, packet.srcGuarded_eq,
    Wire.Ipv4.Draft.buildGuarded_eq, Option.bind_eq_bind, Option.bind_some]
  split <;> rfl

theorem refuseGuarded_eq (interface : InterfaceId) (srcMac : Mac) (d : Domain) (reason : Refusal)
    (packet : Packet) : r.refuseGuarded interface srcMac d packet =
      some (r.refuse interface srcMac d reason packet).value := by
  unfold refuseGuarded
  rw [value_refuse, packet.dstGuarded_eq, Option.bind_eq_bind, Option.bind_some]
  cases d.routerIp? with
  | none => rfl
  | some routerIp => exact answerUnreachableGuarded_eq ..

/-! ## Hardware addresses -/

/-- `answerArp` in guarded steps. -/
def answerArpGuarded (r : Router) (interface : InterfaceId) (d : Domain) (p : Wire.Arp.Packet) :
    Option (List Transmit) :=
  if p.operation = .request ∧ r.tree.answersArp d p.targetIp then do
    return [{ interface, frame := ← (p.replyTo r.config.mac p.targetIp).frameGuarded }]
  else return []

/-- `handleArp` in guarded steps. -/
def handleArpGuarded (r : Router) (interface : InterfaceId) (id : DomainId) (d : Domain)
    (payload : Bytes) (now : Nat) : Option Reaction := do
  match ← Wire.Arp.parseGuarded payload with
  | .error _ => return r.sending []
  | .ok p =>
    match d.ipConfig with
    | none => return r.sending []
    | some config =>
      let (released, arp) := d.learn config p interface now
      return {
        router := r.withTree (r.tree.updateAt id (·.withArp arp))
        sent := ← r.answerArpGuarded interface d p
        released }

theorem answerArpGuarded_eq (interface : InterfaceId) (d : Domain) (p : Wire.Arp.Packet) :
    r.answerArpGuarded interface d p = some (r.answerArp interface d p) := by
  unfold answerArpGuarded answerArp
  rw [Wire.Arp.Packet.frameGuarded_eq]
  split <;> rfl

theorem handleArpGuarded_eq (interface : InterfaceId) (id : DomainId) (d : Domain)
    (payload : Bytes) (now : Nat) : r.handleArpGuarded interface id d payload now =
      some (r.handleArp interface id d payload now).value := by
  unfold handleArpGuarded handleArp
  rw [Wire.Arp.parseGuarded_eq, Option.bind_eq_bind, Option.bind_some]
  cases Wire.Arp.parse payload with
  | error cause => rfl
  | ok p =>
    dsimp only
    cases d.ipConfig with
    | none => rfl
    | some config =>
      dsimp only
      rw [answerArpGuarded_eq]
      rfl

/-! ## DHCP -/

/-- `dhcpPacket` in guarded steps. -/
def dhcpPacketGuarded (src dst : Ipv4Addr) (srcPort dstPort : UInt16) (message : Message) :
    Option Bytes := do
  let datagram ← Wire.Udp.buildGuarded src dst
    { srcPort, dstPort, payload := ← message.buildGuarded }
  ({ src, dst, protocolNumber := Wire.Protocol.udp.number } : Wire.Ipv4.Draft).buildGuarded datagram

/-- `answerDhcp` in guarded steps. -/
def answerDhcpGuarded (r : Router) (interface : InterfaceId) (routerIp : Ipv4Addr)
    (request answer : Message) : Option Reaction := do
  let (dst, mac) := DhcpServer.destination request answer
  return r.reply interface mac
    (← dhcpPacketGuarded routerIp dst Wire.Dhcp.serverPort Wire.Dhcp.clientPort answer)

/-- `serveDhcp` in guarded steps. -/
def serveDhcpGuarded (r : Router) (interface : InterfaceId) (id : DomainId) (d : Domain)
    (payload : Bytes) (now : Nat) : Option Reaction := do
  match ← Wire.Dhcp.parseGuarded payload with
  | .error _ => return r.sending []
  | .ok request =>
    match d.dhcpServer, d.dhcpParams? (r.tree.dhcpDnsServer? d.name) with
    | some server, some params =>
      let (answer, server) := (server.handle request params now).value
      let served := r.withTree (r.tree.updateAt id (·.withDhcpServer server))
      match answer with
      | some answer => served.answerDhcpGuarded interface params.interface.addr request answer
      | none => return served.sending []
    | _, _ => return r.sending []

/-- `sendDhcp` in guarded steps. -/
def sendDhcpGuarded (r : Router) (interface : InterfaceId) (message : Message) (dst : Ipv4Addr)
    (mac : Mac) : Option Reaction := do
  return r.reply interface mac
    (← dhcpPacketGuarded message.ciaddr dst Wire.Dhcp.clientPort Wire.Dhcp.serverPort message)

/-- `configure` in guarded steps. -/
def configureGuarded (r : Router) (id : DomainId) (config : Option IpConfig) : Option Reaction := do
  match ← r.tree.setIpConfigGuarded id config with
  | .ok tree => return (r.withTree tree).sending []
  | .error _ => return r.sending []

/-- `carryOut` in guarded steps. -/
def carryOutGuarded (r : Router) (interface : InterfaceId) (action : DhcpAction) : Option Reaction :=
  match r.domainId? interface with
  | none => return r.sending []
  | some id =>
    match action with
    | .none => return r.sending []
    | .broadcast message => r.sendDhcpGuarded interface message .broadcast .broadcast
    | .unicast message server =>
      let mac := ((r.tree.get? id).map (serverMac · server)).getD .broadcast
      r.sendDhcpGuarded interface message server mac
    | .configure config => r.configureGuarded id (some config)
    | .deconfigure => r.configureGuarded id none

/-- `consumeDhcp` in guarded steps. -/
def consumeDhcpGuarded (r : Router) (interface : InterfaceId) (payload : Bytes) (now : Nat) :
    Option Reaction := do
  match ← Wire.Dhcp.parseGuarded payload with
  | .error _ => return r.sending []
  | .ok message =>
    match (r.interfaces.get? interface).bind (·.client) with
    | none => return r.sending []
    | some client =>
      let (action, client) := (client.handle message r.nextXid now).value
      (r.withClient interface client).carryOutGuarded interface action

theorem dhcpPacketGuarded_eq (src dst : Ipv4Addr) (srcPort dstPort : UInt16) (message : Message) :
    dhcpPacketGuarded src dst srcPort dstPort message =
      some (dhcpPacket src dst srcPort dstPort message) := by
  unfold dhcpPacketGuarded
  simp only [Message.buildGuarded_eq, Wire.Udp.buildGuarded_eq, Option.bind_eq_bind,
    Option.bind_some]
  exact Wire.Ipv4.Draft.buildGuarded_eq ..

theorem answerDhcpGuarded_eq (interface : InterfaceId) (routerIp : Ipv4Addr)
    (request answer : Message) : r.answerDhcpGuarded interface routerIp request answer =
      some (r.answerDhcp interface routerIp request answer) := by
  unfold answerDhcpGuarded
  dsimp only
  rw [dhcpPacketGuarded_eq]
  rfl

theorem serveDhcpGuarded_eq (interface : InterfaceId) (id : DomainId) (d : Domain)
    (payload : Bytes) (now : Nat) : r.serveDhcpGuarded interface id d payload now =
      some (r.serveDhcp interface id d payload now).value := by
  unfold serveDhcpGuarded serveDhcp
  rw [Wire.Dhcp.parseGuarded_eq, Option.bind_eq_bind, Option.bind_some]
  cases Wire.Dhcp.parse payload with
  | error cause => rfl
  | ok request =>
    dsimp only
    cases d.dhcpServer with
    | none => rfl
    | some server =>
      cases d.dhcpParams? (r.tree.dhcpDnsServer? d.name) with
      | none => rfl
      | some params =>
        rcases hvalue : (server.handle request params now).value with ⟨answer, server'⟩
        simp only [Logged.value_bind, hvalue]
        cases answer with
        | none => rfl
        | some answer => exact answerDhcpGuarded_eq ..

theorem sendDhcpGuarded_eq (interface : InterfaceId) (message : Message) (dst : Ipv4Addr)
    (mac : Mac) : r.sendDhcpGuarded interface message dst mac =
      some (r.sendDhcp interface message dst mac) := by
  unfold sendDhcpGuarded
  rw [dhcpPacketGuarded_eq]
  rfl

namespace Good

variable (h : r.Good)

include h

theorem configureGuarded_eq (interface : InterfaceId) (id : DomainId) (config : Option IpConfig) :
    r.configureGuarded id config = some (r.configure interface id config).value := by
  unfold configureGuarded configure
  rw [h.sound.setIpConfigGuarded_eq, Option.bind_eq_bind, Option.bind_some, Logged.value_bind]
  cases (r.tree.setIpConfig id config).value <;> rfl

theorem carryOutGuarded_eq (interface : InterfaceId) (action : DhcpAction) :
    r.carryOutGuarded interface action = some (r.carryOut interface action).value := by
  unfold carryOutGuarded carryOut
  cases r.domainId? interface with
  | none => rfl
  | some id =>
    cases action with
    | none => rfl
    | broadcast message => exact sendDhcpGuarded_eq ..
    | unicast message server => exact sendDhcpGuarded_eq ..
    | configure config => exact h.configureGuarded_eq ..
    | deconfigure => exact h.configureGuarded_eq ..

/-- **What a DHCP server grants is taken in bounds**, with all the links that end for it. -/
theorem consumeDhcpGuarded_eq (interface : InterfaceId) (payload : Bytes) (now : Nat) :
    r.consumeDhcpGuarded interface payload now =
      some (r.consumeDhcp interface payload now).value := by
  unfold consumeDhcpGuarded consumeDhcp
  rw [Wire.Dhcp.parseGuarded_eq, Option.bind_eq_bind, Option.bind_some]
  cases Wire.Dhcp.parse payload with
  | error cause => rfl
  | ok message =>
    dsimp only
    cases (r.interfaces.get? interface).bind (·.client) with
    | none => rfl
    | some client =>
      rcases hvalue : (client.handle message r.nextXid now).value with ⟨action, client'⟩
      simp only [Logged.value_bind, hvalue]
      exact ((h.sheds_withClient interface client').good h).carryOutGuarded_eq interface action

end Good

/-! ## Frames -/

/-- `carryOutVerdict` in guarded steps.  The log tells where a packet was to go whose hops are
spent. -/
def carryOutVerdictGuarded (r : Router) (frame : Waiter) (id : DomainId) (d : Domain) (srcMac : Mac)
    (p : Packet) : Verdict → Option Reaction
  | .drop .unconfigured => return r.sending []
  | .drop .ttlExceeded => do
    let _ ← p.dstGuarded
    return r.sending []
  | .toDhcpClient message => r.consumeDhcpGuarded frame.src message frame.queued
  | .toDhcpServer message => r.serveDhcpGuarded frame.src id d message frame.queued
  | .echo => r.echoGuarded frame.src srcMac p
  | .follow ref flow packet => r.followGuarded frame ref flow packet
  | .openLink target flow packet => r.openLinkGuarded frame d.name target flow packet
  | .pass domain packet => r.passGuarded frame domain packet
  | .refuse _ packet => r.refuseGuarded frame.src srcMac d packet

/-- `handleIpv4` in guarded steps. -/
def handleIpv4Guarded (r : Router) (frame : Waiter) (id : DomainId) (d : Domain) (srcMac : Mac)
    (payload : Bytes) : Option Reaction := do
  match ← Wire.Ipv4.parseGuarded payload with
  | .error _ => return r.sending []
  | .ok p =>
    if ← p.headerChecksumValidGuarded then
      r.carryOutVerdictGuarded frame id d srcMac p (← d.verdictGuarded p)
    else return r.sending []

/-- `handleFrame` in guarded steps. -/
def handleFrameGuarded (r : Router) (frame : Waiter) (id : DomainId) (d : Domain) :
    Option Reaction := do
  match ← Wire.Ethernet.parseGuarded frame.frame with
  | .error _ => return r.sending []
  | .ok f =>
    if f.dst = r.config.mac ∨ f.dst.isBroadcast then
      match Wire.EtherType.ofNumber? f.etherType with
      | some .arp => r.handleArpGuarded frame.src id d f.payload frame.queued
      | some .ipv4 => r.handleIpv4Guarded frame id d f.src f.payload
      | none => return r.sending []
    else return r.sending []

/-- `process` in guarded steps. -/
def processGuarded (r : Router) (frame : Waiter) : Option Reaction :=
  match r.domainId? frame.src with
  | none => return r.sending []
  | some id =>
    match r.tree.get? id with
    | none => return r.sending []
    | some d => r.handleFrameGuarded frame id d

/-- `replay` in guarded steps. -/
def replayGuarded (now : Nat) : List Waiter → Router → Option Reaction
  | [], r => return r.sending []
  | w :: rest, r => do
    let first ← r.processGuarded { w with queued := now }
    let others ← replayGuarded now rest first.router
    return {
      router := others.router
      sent := first.sent ++ others.sent
      released := first.released ++ others.released }

/-- `replayAll` in guarded steps. -/
def replayAllGuarded (now : Nat) : (rounds : Nat) → List Waiter → Router → Option Reaction
  | 0, _, r => return r.sending []
  | _, [], r => return r.sending []
  | rounds + 1, released, r => do
    let first ← replayGuarded now released r
    let others ← replayAllGuarded now rounds first.released first.router
    return others.router.sending (first.sent ++ others.sent)

/-- `receive` in guarded steps. -/
def receiveGuarded (r : Router) (interface : InterfaceId) (frame : Bytes) (now : Nat) :
    Option (List Transmit × Router) := do
  let first ← (r.countArrival interface frame.length).processGuarded
    { src := interface, frame, queued := now }
  let others ← replayAllGuarded now (r.waiting + 1) first.released first.router
  let sent := first.sent ++ others.sent
  return (sent, others.router.countAllSent sent)

namespace Good

variable (h : r.Good)

include h

/-- **A verdict is carried out in bounds**, whatever the verdict on the packet is. -/
theorem carryOutVerdictGuarded_eq (frame : Waiter) (id : DomainId) (d : Domain) (srcMac : Mac)
    (p : Packet) : r.carryOutVerdictGuarded frame id d srcMac p (d.verdict p) =
      some (r.carryOutVerdict frame id d srcMac p (d.verdict p)).value := by
  cases hverdict : d.verdict p with
  | drop reason =>
    cases reason with
    | unconfigured => rfl
    | ttlExceeded =>
      unfold carryOutVerdictGuarded
      rw [p.dstGuarded_eq]
      rfl
  | toDhcpClient message => exact h.consumeDhcpGuarded_eq ..
  | toDhcpServer message => exact serveDhcpGuarded_eq ..
  | echo => exact echoGuarded_eq ..
  | follow ref flow packet =>
    exact followGuarded_eq (Domain.ofPacket?_of_linked (congrArg Verdict.linked? hverdict)) ..
  | openLink target flow packet =>
    exact openLinkGuarded_eq h.sound
      (Domain.ofPacket?_of_linked (congrArg Verdict.linked? hverdict)) ..
  | pass domain packet => exact passGuarded_eq ..
  | refuse reason packet => exact refuseGuarded_eq ..

theorem handleIpv4Guarded_eq (frame : Waiter) (id : DomainId) (d : Domain) (srcMac : Mac)
    (payload : Bytes) : r.handleIpv4Guarded frame id d srcMac payload =
      some (r.handleIpv4 frame id d srcMac payload).value := by
  unfold handleIpv4Guarded handleIpv4
  rw [Wire.Ipv4.parseGuarded_eq, Option.bind_eq_bind, Option.bind_some]
  cases Wire.Ipv4.parse payload with
  | error cause => rfl
  | ok p =>
    dsimp only
    rw [p.headerChecksumValidGuarded_eq, d.verdictGuarded_eq, Option.bind_eq_bind,
      Option.bind_some]
    split
    · exact h.carryOutVerdictGuarded_eq ..
    · rfl

theorem handleFrameGuarded_eq (frame : Waiter) (id : DomainId) (d : Domain) :
    r.handleFrameGuarded frame id d = some (r.handleFrame frame id d).value := by
  unfold handleFrameGuarded Router.handleFrame
  rw [Wire.Ethernet.parseGuarded_eq, Option.bind_eq_bind, Option.bind_some]
  cases Wire.Ethernet.parse frame.frame with
  | error cause => rfl
  | ok f =>
    dsimp only
    split
    · cases Wire.EtherType.ofNumber? f.etherType with
      | none => rfl
      | some type =>
        cases type with
        | arp => exact handleArpGuarded_eq ..
        | ipv4 => exact h.handleIpv4Guarded_eq ..
    · rfl

theorem processGuarded_eq (frame : Waiter) :
    r.processGuarded frame = some (r.process frame).value := by
  unfold processGuarded Router.process
  cases r.domainId? frame.src with
  | none => rfl
  | some id =>
    dsimp only
    cases r.tree.get? id with
    | none => rfl
    | some d => exact h.handleFrameGuarded_eq ..

theorem replayGuarded_eq (now : Nat) (waiters : List Waiter) :
    replayGuarded now waiters r = some (Router.replay now waiters r).value := by
  induction waiters generalizing r with
  | nil => rfl
  | cons w rest ih =>
    have hfirst := h.process { w with queued := now }
    rw [replayGuarded, h.processGuarded_eq, Option.bind_eq_bind, Option.bind_some, ih hfirst]
    rfl

theorem replayAllGuarded_eq (now rounds : Nat) (released : List Waiter) :
    replayAllGuarded now rounds released r =
      some (Router.replayAll now rounds released r).value := by
  induction rounds generalizing r released with
  | zero =>
    unfold replayAllGuarded Router.replayAll
    rfl
  | succ rounds ih =>
    cases released with
    | nil =>
      unfold replayAllGuarded Router.replayAll
      rfl
    | cons w rest =>
      have hfirst := h.replay now (w :: rest)
      unfold replayAllGuarded
      rw [h.replayGuarded_eq, Option.bind_eq_bind, Option.bind_some, ih hfirst]
      rfl

/-- **A frame is handled in bounds**, with all that it sets free. -/
theorem receiveGuarded_eq (interface : InterfaceId) (frame : Bytes) (now : Nat) :
    r.receiveGuarded interface frame now = some (r.receive interface frame now).value := by
  have hcounted := (h.sheds_countArrival interface frame.length).good h
  have hfirst := hcounted.process { src := interface, frame, queued := now }
  unfold receiveGuarded
  rw [hcounted.processGuarded_eq, Option.bind_eq_bind, Option.bind_some,
    hfirst.replayAllGuarded_eq]
  rfl

end Good

/-- **No frame leads a router out of bounds**: in every state of it, whatever bytes arrive, no step
of handling them and what they set free fails, and what comes of it is what the router does.  Nor
does a count of frames that wait, or of leases, go below zero in any state of its own. -/
theorem Reachable.receive_in_bounds (h : r.Reachable) :
    (∀ interface frame now,
      r.receiveGuarded interface frame now = some (r.receive interface frame now).value) ∧
    (∀ (cache : ArpCache) id, cache.cancelInterfaceGuarded id = some (cache.cancelInterface id)) ∧
    ∀ (server : DhcpServer) now, server.maintainGuarded now = some (server.maintain now).value :=
  ⟨fun interface frame now => h.good.receiveGuarded_eq interface frame now,
    fun cache id => cache.cancelInterfaceGuarded_eq id,
    fun server now => server.maintainGuarded_eq now⟩

/-- A frame that is cut short within its addresses is handled in bounds, like the ping was. -/
theorem receive_in_bounds_ping : Ping.router.Reachable ∧
    Ping.router.receiveGuarded ⟨0, 0⟩ (Ping.request.take 30) 0 =
      some (Ping.router.receive ⟨0, 0⟩ (Ping.request.take 30) 0).value :=
  ⟨Ping.reachable_router, Ping.reachable_router.receive_in_bounds.1 _ _ _⟩

end SegmentRouter.Router
