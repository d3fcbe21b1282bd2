import SegmentRouter.Proofs.Interface.Counters
import SegmentRouter.Proofs.Router.Traffic
import SegmentRouter.Proofs.Tree.Counters

/-!
# Proofs/Router/Counters — what is counted does not matter

Interfaces and domains count the bytes that pass through them, and what is done with a frame does not
depend on the counts: bytes may be counted before it is handled or after it, and the same comes of it
(`process_counted`).
-/

namespace SegmentRouter

open Wire (Bytes)
open Wire.Ipv4 (Packet)

/-- Bytes to be counted, received and sent: in the domains by their names, and at the interfaces by
their slots. -/
abbrev Tally :=
  (String → Nat × Nat) × (Nat → Nat × Nat)

namespace Router

/-- The router after some bytes more were counted. -/
def counted (t : Tally) (r : Router) : Router :=
  { r with
    tree := r.tree.counted t.1
    interfaces := r.interfaces.counted t.2 }

end Router

/-- A reaction by a router that has counted some bytes more. -/
def Reaction.counted (t : Tally) (x : Reaction) : Reaction :=
  { x with router := x.router.counted t }

namespace Router

variable (t : Tally) (r : Router) (frame : Waiter)

theorem tree_counted : (r.counted t).tree = r.tree.counted t.1 := rfl

theorem counted_counted (u : Tally) : (r.counted t).counted u = r.counted (t + u) := by
  dsimp only [counted]
  rw [DomainTree.counted_counted, InterfaceTable.counted_counted]
  rfl

theorem counted_zero : r.counted 0 = r := by
  dsimp only [counted]
  rw [show (0 : Tally).1 = 0 from rfl, show (0 : Tally).2 = 0 from rfl, DomainTree.counted_zero,
    InterfaceTable.counted_zero]

theorem domainId?_counted (id : InterfaceId) : (r.counted t).domainId? id = r.domainId? id :=
  r.interfaces.bind_get?_counted t.2 id fun _ _ => rfl

theorem policy?_counted (id : InterfaceId) :
    (r.counted t).interfaces.policy? id = r.interfaces.policy? id :=
  r.interfaces.map_get?_counted t.2 id fun _ _ => rfl

theorem domainOf?_counted (id : InterfaceId) :
    (r.counted t).domainOf? id = (r.domainOf? id).map (·.counted t.1) := by
  unfold domainOf?
  rw [domainId?_counted]
  cases r.domainId? id with
  | none => rfl
  | some domain => exact r.tree.get?_counted t.1 domain

theorem isSome_domainOf?_counted (id : InterfaceId) :
    ((r.counted t).domainOf? id).isSome = (r.domainOf? id).isSome := by
  rw [domainOf?_counted, Option.isSome_map]

/-- A change of one domain that does not look at counters. -/
theorem update_counted (name : String) {f g : Domain → Domain}
    (h : ∀ d, r.tree.byName? name = some d → f (d.counted t.1) = (g d).counted t.1) :
    (r.counted t).withTree ((r.counted t).tree.update name f) =
      (r.withTree (r.tree.update name g)).counted t :=
  congrArg (r.counted t).withTree (r.tree.update_counted t.1 name h)

theorem updateAt_counted (id : DomainId) {f g : Domain → Domain}
    (h : ∀ d, f (d.counted t.1) = (g d).counted t.1) :
    (r.counted t).withTree ((r.counted t).tree.updateAt id f) =
      (r.withTree (r.tree.updateAt id g)).counted t :=
  congrArg (r.counted t).withTree (r.tree.updateAt_counted t.1 id h)

/-! ## Sending on -/

theorem park_counted (e : Domain) (hop : Ipv4Addr) :
    ((r.counted t).park (e.counted t.1) hop frame).value =
      (r.park e hop frame).value.counted t := by
  have hparked (arp : ArpCache) := r.update_counted t e.name (f := (·.withArp arp))
    (g := (·.withArp arp)) fun _ _ => rfl
  unfold park
  dsimp only [Domain.name_counted]
  rw [Domain.arp_counted]
  rcases e.arp.park hop frame frame.queued with ⟨outcome, arp⟩
  dsimp only
  rw [hparked]
  cases outcome <;> rfl

theorem resolve_counted (name : String) (dst : Ipv4Addr) :
    ((r.counted t).resolve name dst frame).value =
      ((r.resolve name dst frame).value.1, (r.resolve name dst frame).value.2.counted t) := by
  unfold resolve
  rw [tree_counted, DomainTree.byName?_counted]
  cases r.tree.byName? name with
  | none => rfl
  | some d =>
    dsimp only [Option.map_some]
    rw [show (d.counted t.1).route dst = d.route dst from rfl]
    cases d.route dst with
    | unconfigured => rfl
    | noGateway => rfl
    | unresolved hop =>
      dsimp only [Logged.value_bind, Logged.value_pure]
      rw [park_counted]
    | known hop => rfl

theorem forward_counted (name : String) (hop : NextHop) (packet : Packet) :
    ((r.counted t).forward name hop packet).value = (r.forward name hop packet).value.counted t := by
  unfold forward
  rw [tree_counted, DomainTree.byName?_counted]
  cases r.tree.byName? name <;> rfl

theorem pass_counted (domain : String) (packet : Packet) :
    ((r.counted t).pass frame domain packet).value =
      (r.pass frame domain packet).value.counted t := by
  unfold pass
  rw [Logged.value_bind, Logged.value_bind, resolve_counted]
  rcases (r.resolve domain packet.dst frame).value with ⟨hop, reaction⟩
  cases hop with
  | none => rfl
  | some hop => exact r.forward_counted t domain hop packet

theorem follow_counted (ref : LinkRef) (flow : PacketFlow) (packet : Packet) :
    ((r.counted t).follow frame ref flow packet).value =
      (r.follow frame ref flow packet).value.counted t := by
  unfold follow
  rw [tree_counted, DomainTree.ownedLink?_counted]
  cases r.tree.ownedLink? ref.owner ref.link with
  | none => rfl
  | some link =>
    dsimp only
    rw [Logged.value_bind, Logged.value_bind, resolve_counted]
    rcases (r.resolve (link.egress ref.side).domain
      (link.egress ref.side).rewrite.dstIp frame).value with ⟨hop, reaction⟩
    cases hop with
    | none => rfl
    | some hop =>
      dsimp only
      rw [← forward_counted]
      exact congrArg (fun r' : Router => (r'.forward ..).value)
        (r.update_counted t ref.owner fun _ _ => rfl)

theorem enter_counted (link : Link) (hop : NextHop) (packet : Packet) :
    ((r.counted t).enter link hop packet).value = (r.enter link hop packet).value.counted t := by
  unfold enter
  dsimp only
  rw [tree_counted, DomainTree.insertLink?_counted]
  cases r.tree.insertLink? link with
  | some tree => exact forward_counted t { r with tree, nextLink := r.nextLink + 1 } ..
  | none =>
    dsimp only [Option.map_none]
    rw [Logged.value_bind, Logged.value_bind]
    cases link.natPort with
    | none => rfl
    | some port =>
      exact congrArg (Router.sending · []) (r.update_counted t link.server.domain
        fun d _ => d.freePort_counted t.1 link.client.domain link.protocol port)

theorem openTowards_counted (client : String) (target : LinkTarget) (server : Domain)
    (routerIp : Ipv4Addr) (flow : PacketFlow) (packet : Packet) :
    ((r.counted t).openTowards frame client target (server.counted t.1) routerIp flow
        packet).value =
      (r.openTowards frame client target server routerIp flow packet).value.counted t := by
  unfold openTowards
  rw [Logged.value_bind, Logged.value_bind, resolve_counted]
  rcases (r.resolve target.domain target.ip frame).value with ⟨hop, reaction⟩
  cases hop with
  | none => rfl
  | some hop =>
    dsimp only
    rw [Domain.linkSource_counted]
    cases server.linkSource routerIp client flow.key with
    | error e => rfl
    | ok found =>
      obtain ⟨source, taken⟩ := found
      dsimp only [Except.map]
      rw [← enter_counted]
      exact congrArg (fun r' : Router => (r'.enter ..).value)
        (r.update_counted t target.domain fun _ _ => rfl)

theorem openLink_counted (client : String) (target : LinkTarget) (flow : PacketFlow)
    (packet : Packet) :
    ((r.counted t).openLink frame client target flow packet).value =
      (r.openLink frame client target flow packet).value.counted t := by
  unfold openLink
  rw [tree_counted, DomainTree.byName?_counted]
  cases r.tree.byName? target.domain with
  | none => rfl
  | some server =>
    dsimp only [Option.map_some]
    rw [Domain.routerIp?_counted]
    cases server.routerIp? with
    | none => rfl
    | some routerIp => exact r.openTowards_counted t frame client target server routerIp flow packet

/-! ## Answers -/

theorem echo_counted (interface : InterfaceId) (mac : Mac) (p : Packet) :
    ((r.counted t).echo interface mac p).value = (r.echo interface mac p).value.counted t := by
  unfold echo
  cases Wire.Icmp.echoReply p.payload <;> rfl

theorem refuse_counted (interface : InterfaceId) (mac : Mac) (d : Domain) (reason : Refusal)
    (p : Packet) :
    ((r.counted t).refuse interface mac (d.counted t.1) reason p).value =
      (r.refuse interface mac d reason p).value.counted t := by
  have htold (routerIp : Ipv4Addr) : (r.counted t).answerUnreachable interface mac routerIp p =
      (r.answerUnreachable interface mac routerIp p).counted t := by
    unfold answerUnreachable
    rw [show (r.counted t).config = r.config from rfl]
    split <;> rfl
  rw [value_refuse, value_refuse, Domain.routerIp?_counted]
  cases d.routerIp? with
  | none => rfl
  | some routerIp => exact htold routerIp

theorem handleArp_counted (interface : InterfaceId) (id : DomainId) (d : Domain) (payload : Bytes)
    (now : Nat) :
    ((r.counted t).handleArp interface id (d.counted t.1) payload now).value =
      (r.handleArp interface id d payload now).value.counted t := by
  unfold handleArp
  cases Wire.Arp.parse payload with
  | error cause => rfl
  | ok p =>
    dsimp only
    rw [Domain.ipConfig_counted]
    cases d.ipConfig with
    | none => rfl
    | some config =>
      have hanswer : (r.counted t).answerArp interface (d.counted t.1) p =
          r.answerArp interface d p := by
        have hanswers : (r.counted t).tree.answersArp (d.counted t.1) p.targetIp =
            r.tree.answersArp d p.targetIp :=
          r.tree.answersArp_counted t.1 d p.targetIp
        unfold answerArp
        rw [hanswers]
        rfl
      have hlearned := r.updateAt_counted t id (f := (·.withArp (d.learn config p interface now).2))
        (g := (·.withArp (d.learn config p interface now).2)) fun _ => rfl
      exact congrArg₂ (fun router sent => (⟨router, sent, (d.learn config p interface now).1⟩ :
        Reaction)) hlearned hanswer

/-! ## DHCP -/

theorem serveDhcp_counted (interface : InterfaceId) (id : DomainId) (d : Domain)
    (payload : Bytes) (now : Nat) :
    ((r.counted t).serveDhcp interface id (d.counted t.1) payload now).value =
      (r.serveDhcp interface id d payload now).value.counted t := by
  unfold serveDhcp
  cases Wire.Dhcp.parse payload with
  | error cause => rfl
  | ok request =>
    have hparams : (d.counted t.1).dhcpParams?
        ((r.counted t).tree.dhcpDnsServer? (d.counted t.1).name) =
          d.dhcpParams? (r.tree.dhcpDnsServer? d.name) :=
      congrArg d.dhcpParams? (r.tree.dhcpDnsServer?_counted t.1 d.name)
    dsimp only
    rw [hparams, Domain.dhcpServer_counted]
    cases d.dhcpServer with
    | none => rfl
    | some server =>
      cases d.dhcpParams? (r.tree.dhcpDnsServer? d.name) with
      | none => rfl
      | some params =>
        dsimp only
        rw [Logged.value_bind, Logged.value_bind]
        rcases (server.handle request params now).value with ⟨answer, server'⟩
        have hserved := r.updateAt_counted t id (f := (·.withDhcpServer server'))
          (g := (·.withDhcpServer server')) fun _ => rfl
        dsimp only
        rw [hserved]
        cases answer <;> rfl

theorem configure_counted (interface : InterfaceId) (id : DomainId) (config : Option IpConfig) :
    ((r.counted t).configure interface id config).value =
      (r.configure interface id config).value.counted t := by
  have hset : ((r.counted t).tree.setIpConfig id config).value = _ :=
    r.tree.setIpConfig_counted t.1 id config
  unfold configure
  rw [Logged.value_bind, Logged.value_bind, hset]
  cases (r.tree.setIpConfig id config).value <;> rfl

theorem carryOut_counted (interface : InterfaceId) (action : DhcpAction) :
    ((r.counted t).carryOut interface action).value =
      (r.carryOut interface action).value.counted t := by
  unfold carryOut
  rw [domainId?_counted]
  cases r.domainId? interface with
  | none => rfl
  | some id =>
    cases action with
    | none => rfl
    | broadcast message => rfl
    | unicast message server =>
      have hmac : ((r.counted t).tree.get? id).map (serverMac · server) =
          (r.tree.get? id).map (serverMac · server) := by
        rw [tree_counted, DomainTree.get?_counted, Option.map_map]
        rfl
      dsimp only
      rw [hmac]
      rfl
    | configure config => exact r.configure_counted t interface id (some config)
    | deconfigure => exact r.configure_counted t interface id none

theorem consumeDhcp_counted (interface : InterfaceId) (payload : Bytes) (now : Nat) :
    ((r.counted t).consumeDhcp interface payload now).value =
      (r.consumeDhcp interface payload now).value.counted t := by
  have hclient : ((r.counted t).interfaces.get? interface).bind (·.client) =
      (r.interfaces.get? interface).bind (·.client) :=
    r.interfaces.bind_get?_counted t.2 interface fun _ _ => rfl
  unfold consumeDhcp
  cases Wire.Dhcp.parse payload with
  | error cause => rfl
  | ok message =>
    dsimp only
    rw [hclient]
    cases (r.interfaces.get? interface).bind (·.client) with
    | none => rfl
    | some client =>
      have hwith (client : DhcpClient) : (r.counted t).withClient interface client =
          (r.withClient interface client).counted t := by
        dsimp only [withClient, counted]
        rw [InterfaceTable.modify_counted t.2 r.interfaces interface fun _ _ => rfl]
      dsimp only
      rw [Logged.value_bind, Logged.value_bind, hwith, carryOut_counted]
      rfl

/-! ## Frames -/

theorem carryOutVerdict_counted (id : DomainId) (d : Domain) (mac : Mac) (p : Packet)
    (verdict : Verdict) :
    ((r.counted t).carryOutVerdict frame id (d.counted t.1) mac p verdict).value =
      (r.carryOutVerdict frame id d mac p verdict).value.counted t := by
  cases verdict with
  | drop reason => cases reason <;> rfl
  | toDhcpClient message => exact r.consumeDhcp_counted t ..
  | toDhcpServer message => exact r.serveDhcp_counted t ..
  | echo => exact r.echo_counted t ..
  | follow ref flow packet => exact r.follow_counted t ..
  | openLink target flow packet => exact r.openLink_counted t ..
  | pass domain packet => exact r.pass_counted t ..
  | refuse reason packet => exact r.refuse_counted t ..

theorem handleFrame_counted (id : DomainId) (d : Domain) :
    ((r.counted t).handleFrame frame id (d.counted t.1)).value =
      (r.handleFrame frame id d).value.counted t := by
  unfold handleFrame
  cases Wire.Ethernet.parse frame.frame with
  | error cause => rfl
  | ok f =>
    dsimp only
    rw [show (r.counted t).config = r.config from rfl]
    split
    · cases Wire.EtherType.ofNumber? f.etherType with
      | none => rfl
      | some type =>
        cases type with
        | arp => exact r.handleArp_counted t ..
        | ipv4 =>
          dsimp only
          unfold handleIpv4
          cases Wire.Ipv4.parse f.payload with
          | error cause => rfl
          | ok p =>
            dsimp only
            split
            · exact r.carryOutVerdict_counted t ..
            · rfl
    · rfl

/-- **Bytes may be counted before a frame is handled or after it.** -/
theorem process_counted :
    ((r.counted t).process frame).value = (r.process frame).value.counted t := by
  unfold process
  rw [domainId?_counted]
  cases r.domainId? frame.src with
  | none => rfl
  | some id =>
    dsimp only
    rw [tree_counted, DomainTree.get?_counted]
    cases r.tree.get? id with
    | none => rfl
    | some d => exact r.handleFrame_counted t frame id d

theorem replay_counted (now : Nat) (waiters : List Waiter) (r : Router) :
    (replay now waiters (r.counted t)).value = (replay now waiters r).value.counted t := by
  induction waiters generalizing r with
  | nil => rfl
  | cons w rest ih =>
    dsimp only [replay, Logged.value_bind, Logged.value_pure]
    rw [process_counted]
    dsimp only [Reaction.counted]
    rw [ih]
    rfl

end Router

end SegmentRouter
