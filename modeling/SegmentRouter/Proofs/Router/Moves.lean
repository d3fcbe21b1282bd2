import Mathlib.Data.List.Chain
import Mathlib.Logic.Relation
import SegmentRouter.Proofs.Router.Reachable

/-!
# Proofs/Router/Moves — the changes of which all that happens is made

Whatever happens to a router is made of a few kinds of changes (`Move`), each with what is known
when it is made: a packet that has to wait is parked in the domain that it is to be sent into, a
link is entered for a packet whose own domain permits it, a client that did something has its wish
carried out.  Every state comes about by moves (`Reachable.arises`), so what holds of a new router
and is kept by each move holds of every state (`Arises.induction`), the last one of a run (`Run`).

Only a packet that arrives opens a link (`Move.opened_of_mem`), so what all opened links have in
common, and traffic does not change, all live links have (`Arises.live_induction`).
-/

namespace SegmentRouter

open Wire.Ipv4 (Packet)

theorem Domain.core_withArp (d : Domain) (arp : ArpCache) : (d.withArp arp).core = d.core := rfl

theorem Domain.core_withDhcpServer (d : Domain) (server : DhcpServer) :
    (d.withDhcpServer server).core = d.core := rfl

/-- What a client wants and what becomes of it, when it is given a message or time passes. -/
def DhcpClient.Acts (client : DhcpClient) (fresh : UInt32) (action : DhcpAction)
    (after : DhcpClient) : Prop :=
  ∃ now, (client.tick fresh now).value = (action, after) ∨
    ∃ message, (client.handle message fresh now).value = (action, after)

namespace Router

variable {r r' r'' : Router}

/-- A frame with an IPv4 packet is handled, whose interface is in a domain. -/
structure Arrives (r : Router) (frame : Waiter) (id : DomainId) (d : Domain)
    (f : Wire.Ethernet.Frame) (p : Packet) : Prop where
  handle : r.domainId? frame.src = some id
  domain : r.tree.get? id = some d
  ethernet : Wire.Ethernet.parse frame.frame = .ok f
  addressed : f.dst = r.config.mac ∨ f.dst.isBroadcast = true
  type : Wire.EtherType.ofNumber? f.etherType = some .ipv4
  packet : Wire.Ipv4.parse f.payload = .ok p
  intact : p.headerChecksumValid = true

theorem Arrives.domainOf?_eq {frame : Waiter} {id : DomainId} {d : Domain}
    {f : Wire.Ethernet.Frame} {p : Packet} (h : r.Arrives frame id d f p) :
    r.domainOf? frame.src = some d :=
  Option.bind_eq_some_iff.2 ⟨id, h.handle, h.domain⟩

/-- A frame with an ARP packet is handled, whose interface is in a domain that has addresses. -/
structure Hears (r : Router) (frame : Waiter) (id : DomainId) (d : Domain)
    (f : Wire.Ethernet.Frame) (p : Wire.Arp.Packet) (config : IpConfig) : Prop where
  handle : r.domainId? frame.src = some id
  domain : r.tree.get? id = some d
  ethernet : Wire.Ethernet.parse frame.frame = .ok f
  addressed : f.dst = r.config.mac ∨ f.dst.isBroadcast = true
  type : Wire.EtherType.ofNumber? f.etherType = some .arp
  packet : Wire.Arp.parse f.payload = .ok p
  configured : d.ipConfig = some config

/-- **What handling a frame comes to**: nothing, or its ARP packet is heard, or the verdict on its
IPv4 packet is carried out. -/
inductive Handles (r : Router) (frame : Waiter) : Reaction → Prop
  | ignored : Handles r frame (r.sending [])
  | heard {id : DomainId} {d : Domain} {f : Wire.Ethernet.Frame} {p : Wire.Arp.Packet}
      {config : IpConfig} (h : r.Hears frame id d f p config) :
      Handles r frame {
        router := r.withTree
          (r.tree.updateAt id (·.withArp (d.learn config p frame.src frame.queued).2))
        sent := r.answerArp frame.src d p
        released := (d.learn config p frame.src frame.queued).1 }
  | carried {id : DomainId} {d : Domain} {f : Wire.Ethernet.Frame} {p : Packet}
      (h : r.Arrives frame id d f p) :
      Handles r frame (r.carryOutVerdict frame id d f.src p (d.verdict p)).value

theorem handles_process (r : Router) (frame : Waiter) :
    r.Handles frame (r.process frame).value := by
  unfold process
  split
  · exact .ignored
  · rename_i id hid
    split
    · exact .ignored
    · rename_i d hd
      unfold handleFrame
      split
      · exact .ignored
      · rename_i f hf
        split
        · rename_i haddressed
          split
          · rename_i htype
            unfold handleArp
            split
            · exact .ignored
            · rename_i p hp
              split
              · exact .ignored
              · rename_i config hconfig
                exact .heard ⟨hid, hd, hf, haddressed, htype, hp, hconfig⟩
          · rename_i htype
            unfold handleIpv4
            split
            · exact .ignored
            · rename_i p hp
              split
              · rename_i hintact
                exact .carried ⟨hid, hd, hf, haddressed, htype, hp, hintact⟩
              · exact .ignored
          · exact .ignored
        · exact .ignored

/-- A frame that claims to carry an IPv4 packet comes to nothing, or to what the verdict says. -/
theorem handles_ipv4 (r : Router) {frame : Waiter} {f : Wire.Ethernet.Frame}
    (hf : Wire.Ethernet.parse frame.frame = .ok f)
    (htype : Wire.EtherType.ofNumber? f.etherType = some .ipv4) :
    (r.process frame).value = r.sending [] ∨ ∃ id d p, r.Arrives frame id d f p ∧
      (r.process frame).value = (r.carryOutVerdict frame id d f.src p (d.verdict p)).value := by
  have hhandles := r.handles_process frame
  generalize (r.process frame).value = x at hhandles ⊢
  cases hhandles with
  | ignored => exact .inl rfl
  | heard h =>
    obtain rfl := Except.ok.inj (hf.symm.trans h.ethernet)
    cases htype.symm.trans h.type
  | @carried id d _ p h =>
    obtain rfl := Except.ok.inj (hf.symm.trans h.ethernet)
    exact .inr ⟨id, d, p, h, rfl⟩

/-- **The changes that a router can go through at once.** -/
inductive Move : Router → Router → Prop
  | arrived {r : Router} {interface : InterfaceId} (h : (r.domainOf? interface).isSome) (n : Nat) :
      Move r (r.countReceived interface n)
  | sent {r : Router} (t : Transmit) : Move r (r.countSent t)
  | learned {r : Router} {interface : InterfaceId} {id : DomainId} {d : Domain} {config : IpConfig}
      (hid : r.domainId? interface = some id) (hd : r.tree.get? id = some d)
      (hconfig : d.ipConfig = some config) (p : Wire.Arp.Packet) (now : Nat) :
      Move r (r.withTree (r.tree.updateAt id (·.withArp (d.learn config p interface now).2)))
  | parked {r : Router} {frame : Waiter} {id : DomainId} {d : Domain} {f : Wire.Ethernet.Frame}
      {p : Packet} (h : r.Arrives frame id d f p) {name : String} {e : Domain} {dst hop : Ipv4Addr}
      (he : r.tree.byName? name = some e) (hroute : e.route dst = .unresolved hop) :
      Move r (r.withTree
        (r.tree.update e.name (·.withArp (e.arp.park hop frame frame.queued).2)))
  | followed {r : Router} {frame : Waiter} {id : DomainId} {d : Domain} {f : Wire.Ethernet.Frame}
      {p packet : Packet} {ref : LinkRef} {flow : PacketFlow} {link : Link}
      (h : r.Arrives frame id d f p) (hverdict : d.verdict p = .follow ref flow packet)
      (hlink : r.tree.ownedLink? ref.owner ref.link = some link) :
      Move r (r.withTree (r.tree.update ref.owner
        (Domain.changeLink ref.link (·.followed ref.side flow frame.queued))))
  /-- The link is entered or, where it collides with another one, its port given back. -/
  | entered {r : Router} {frame : Waiter} {id : DomainId} {d : Domain} {f : Wire.Ethernet.Frame}
      {p packet : Packet} {target : LinkTarget} {flow : PacketFlow} {server taken : Domain}
      {routerIp : Ipv4Addr} {source : LinkSource} (h : r.Arrives frame id d f p)
      (hverdict : d.verdict p = .openLink target flow packet)
      (hserver : r.tree.byName? target.domain = some server)
      (hip : server.routerIp? = some routerIp)
      (hsource : server.linkSource routerIp d.name flow.key = .ok (source, taken))
      (hop : NextHop) :
      Move r ((r.withTree (r.tree.update target.domain fun _ => taken)).enter
        (.opened r.nextLink d.name flow target source frame.src frame.queued) hop
          packet).value.router
  | served {r : Router} {interface : InterfaceId} {id : DomainId} {d : Domain}
      {server : DhcpServer} {params : DhcpServer.Params} (hid : r.domainId? interface = some id)
      (hd : r.tree.get? id = some d) (hserver : d.dhcpServer = some server)
      (hparams : d.dhcpParams? (r.tree.dhcpDnsServer? d.name) = some params)
      (request : Wire.Dhcp.Message) (now : Nat) :
      Move r (r.withTree
        (r.tree.updateAt id (·.withDhcpServer (server.handle request params now).value.2)))
  | instructed {r : Router} {interface : InterfaceId} {i : Interface} {client after : DhcpClient}
      {action : DhcpAction} (hi : r.interfaces.get? interface = some i)
      (hclient : i.client = some client) (hacts : client.Acts r.nextXid action after) :
      Move r ((r.withClient interface after).carryOut interface action).value.router
  | maintained {r : Router} (now : Nat) :
      Move r (r.withTree { r.tree with domains := (maintainServers now r.tree.domains).value })
  | agedLinks {r : Router} (now : Nat) : Move r (r.ageLinks now).value
  | agedArp {r : Router} (now : Nat) : Move r (r.ageArp now).value
  | attached {r : Router} (domain : String) : Move r (r.attach domain).value.2
  | detached {r r' : Router} {interface : InterfaceId}
      (hr : (r.detach interface).value = .ok r') : Move r r'
  | adopted {r : Router} {config : Config} (hvalid : config.validate.hasErrors = false) :
      Move r (r.adopt config).value
  | rejected {r : Router} (faults : List String) : Move r { r with configError := some faults }

/-- One change after the other. -/
def Moves : Router → Router → Prop :=
  Relation.ReflTransGen Move

namespace Moves

theorem refl (r : Router) : r.Moves r :=
  Relation.ReflTransGen.refl

theorem single (h : r.Move r') : r.Moves r' :=
  Relation.ReflTransGen.single h

theorem trans (h : r.Moves r') (h' : r'.Moves r'') : r.Moves r'' :=
  Relation.ReflTransGen.trans h h'

end Moves

/-! ## Packets -/

/-- **What looking for a way comes to**: nothing, a frame that waits, or a next hop. -/
theorem resolve_cases (r : Router) (name : String) (dst : Ipv4Addr) (frame : Waiter) :
    (r.resolve name dst frame).value = (none, r.sending []) ∨
    (∃ e hop, r.tree.byName? name = some e ∧ e.route dst = .unresolved hop ∧
      (r.resolve name dst frame).value = (none, (r.park e hop frame).value)) ∨
    ∃ e hop, r.tree.byName? name = some e ∧ e.route dst = .known hop ∧
      (r.resolve name dst frame).value = (some hop, r.sending []) := by
  unfold resolve
  split
  · exact .inl rfl
  · rename_i e he
    split
    · exact .inl rfl
    · exact .inl rfl
    · rename_i hop hroute
      exact .inr (.inl ⟨e, hop, he, hroute, rfl⟩)
    · rename_i hop hroute
      exact .inr (.inr ⟨e, hop, he, hroute, rfl⟩)

/-- **What depends on a way**: the frame comes to nothing, or it waits, or the next hop is known. -/
theorem resolve_bind {P : Reaction → Prop} {name : String} {dst : Ipv4Addr} {frame : Waiter}
    {k : Option NextHop × Reaction → Logged Reaction} (hk : ∀ x, k (none, x) = pure x)
    (hnone : P (r.sending []))
    (hparked : ∀ e hop, r.tree.byName? name = some e → e.route dst = .unresolved hop →
      P (r.park e hop frame).value)
    (hknown : ∀ hop, P (k (some hop, r.sending [])).value) :
    P (r.resolve name dst frame >>= k).value := by
  rw [Logged.value_bind]
  rcases r.resolve_cases name dst frame with hvalue | ⟨e, hop, he, hroute, hvalue⟩ |
    ⟨e, hop, -, -, hvalue⟩
  · rw [hvalue, hk]
    exact hnone
  · rw [hvalue, hk]
    exact hparked e hop he hroute
  · rw [hvalue]
    exact hknown hop

theorem router_park (r : Router) (e : Domain) (hop : Ipv4Addr) (frame : Waiter) :
    (r.park e hop frame).value.router =
      r.withTree (r.tree.update e.name (·.withArp (e.arp.park hop frame frame.queued).2)) := by
  unfold park
  rcases e.arp.park hop frame frame.queued with ⟨outcome, arp⟩
  cases outcome <;> rfl

section

variable {frame : Waiter} {id : DomainId} {d : Domain} {f : Wire.Ethernet.Frame}
  {p packet : Packet} {flow : PacketFlow} (h : r.Arrives frame id d f p)

include h

/-- A frame that needs a way moves the router as it does once its next hop is known. -/
theorem moves_resolve {name : String} {dst : Ipv4Addr}
    {k : Option NextHop × Reaction → Logged Reaction} (hk : ∀ x, k (none, x) = pure x)
    (hknown : ∀ hop, r.Moves (k (some hop, r.sending [])).value.router) :
    r.Moves (r.resolve name dst frame >>= k).value.router :=
  resolve_bind (P := fun x => r.Moves x.router) hk (.refl r)
    (fun e hop he hroute => router_park r e hop frame ▸ .single (.parked h he hroute)) hknown

theorem moves_pass (domain : String) (packet : Packet) :
    r.Moves (r.pass frame domain packet).value.router := by
  unfold pass
  refine moves_resolve h (fun _ => rfl) fun hop => ?_
  exact (congrArg r.Moves (router_forward ..)).mpr (.refl r)

theorem moves_follow {ref : LinkRef} (hverdict : d.verdict p = .follow ref flow packet) :
    r.Moves (r.follow frame ref flow packet).value.router := by
  unfold follow
  split
  · exact .refl r
  · rename_i link hlink
    refine moves_resolve h (fun _ => rfl) fun hop => ?_
    refine (congrArg r.Moves (router_forward ..)).mpr ?_
    exact .single (.followed h hverdict hlink)

theorem moves_openLink {target : LinkTarget}
    (hverdict : d.verdict p = .openLink target flow packet) :
    r.Moves (r.openLink frame d.name target flow packet).value.router := by
  unfold openLink
  split
  · exact .refl r
  · rename_i server hserver
    split
    · exact .refl r
    · rename_i routerIp hip
      unfold openTowards
      refine moves_resolve h (fun _ => rfl) fun hop => ?_
      dsimp only
      cases hsource : server.linkSource routerIp d.name flow.key with
      | error e => exact .refl r
      | ok found => exact .single (.entered h hverdict hserver hip hsource hop)

end

/-! ## DHCP -/

theorem moves_serveDhcp {interface : InterfaceId} {id : DomainId} {d : Domain}
    (hid : r.domainId? interface = some id) (hd : r.tree.get? id = some d)
    (payload : Wire.Bytes) (now : Nat) :
    r.Moves (r.serveDhcp interface id d payload now).value.router := by
  unfold serveDhcp
  split
  · exact .refl r
  · rename_i request hparse
    split
    · rename_i server params hserver hparams
      have hserved := Move.served hid hd hserver hparams request now
      rcases hvalue : (server.handle request params now).value with ⟨answer, server'⟩
      rw [hvalue] at hserved
      rw [Logged.value_bind, hvalue]
      cases answer with
      | none => exact .single hserved
      | some answer => exact .single hserved
    · exact .refl r

theorem moves_consumeDhcp (r : Router) (interface : InterfaceId) (payload : Wire.Bytes)
    (now : Nat) : r.Moves (r.consumeDhcp interface payload now).value.router := by
  unfold consumeDhcp
  split
  · exact .refl r
  · rename_i message hparse
    split
    · exact .refl r
    · rename_i client hclient
      obtain ⟨i, hi, hclient⟩ := Option.bind_eq_some_iff.1 hclient
      exact .single (.instructed hi hclient ⟨now, .inr ⟨message, rfl⟩⟩)

theorem moves_tickClient (r : Router) (interface : InterfaceId) (now : Nat) :
    r.Moves (r.tickClient interface now).value.router := by
  unfold tickClient
  split
  · exact .refl r
  · rename_i client hclient
    obtain ⟨i, hi, hclient⟩ := Option.bind_eq_some_iff.1 hclient
    exact .single (.instructed hi hclient ⟨now, .inl rfl⟩)

theorem moves_tickClients (now : Nat) (interfaces : List InterfaceId) (r : Router) :
    r.Moves (tickClients now interfaces r).value.router := by
  induction interfaces generalizing r with
  | nil => exact .refl r
  | cons interface rest ih => exact (r.moves_tickClient interface now).trans (ih _)

theorem moves_maintainDhcp (r : Router) (now : Nat) :
    r.Moves (r.maintainDhcp now).value.router :=
  .trans (.single (.maintained now)) (moves_tickClients now r.interfaces.ids _)

/-! ## Frames -/

theorem moves_carryOutVerdict {frame : Waiter} {id : DomainId} {d : Domain}
    {f : Wire.Ethernet.Frame} {p : Packet} (h : r.Arrives frame id d f p) (mac : Mac) :
    r.Moves (r.carryOutVerdict frame id d mac p (d.verdict p)).value.router := by
  cases hverdict : d.verdict p with
  | drop reason => cases reason <;> exact .refl r
  | toDhcpClient message => exact r.moves_consumeDhcp ..
  | toDhcpServer message => exact moves_serveDhcp h.handle h.domain ..
  | echo => exact (congrArg r.Moves (router_echo r frame.src mac p)).mpr (.refl r)
  | follow ref flow packet => exact moves_follow h hverdict
  | openLink target flow packet => exact moves_openLink h hverdict
  | pass domain packet => exact moves_pass h ..
  | refuse reason packet =>
    exact (congrArg r.Moves (router_refuse r frame.src mac d reason packet)).mpr (.refl r)

theorem Handles.moves {frame : Waiter} {x : Reaction} (h : r.Handles frame x) :
    r.Moves x.router := by
  cases h with
  | ignored => exact .refl r
  | heard h => exact .single (.learned h.handle h.domain h.configured ..)
  | carried h => exact moves_carryOutVerdict h ..

theorem moves_process (r : Router) (frame : Waiter) : r.Moves (r.process frame).value.router :=
  (r.handles_process frame).moves

theorem moves_replay (now : Nat) (waiters : List Waiter) (r : Router) :
    r.Moves (replay now waiters r).value.router := by
  induction waiters generalizing r with
  | nil => exact .refl r
  | cons w rest ih => exact (r.moves_process { w with queued := now }).trans (ih _)

theorem moves_replayAll (now rounds : Nat) (released : List Waiter) (r : Router) :
    r.Moves (replayAll now rounds released r).value.router := by
  induction rounds generalizing r released with
  | zero =>
    unfold replayAll
    exact .refl r
  | succ rounds ih =>
    cases released with
    | nil =>
      unfold replayAll
      exact .refl r
    | cons w rest => exact (moves_replay now (w :: rest) r).trans (ih _ _)

theorem moves_countAllSent (sent : List Transmit) (r : Router) : r.Moves (r.countAllSent sent) := by
  induction sent generalizing r with
  | nil => exact .refl r
  | cons t rest ih => exact .trans (.single (.sent t)) (ih _)

theorem moves_receive (r : Router) (interface : InterfaceId) (frame : Wire.Bytes) (now : Nat) :
    r.Moves (r.receive interface frame now).value.2 := by
  have hcounted : r.Moves (r.countArrival interface frame.length) := by
    unfold countArrival
    split
    · rename_i h
      exact .single (.arrived h frame.length)
    · exact .refl r
  exact hcounted.trans ((moves_process ..).trans ((moves_replayAll ..).trans
    (moves_countAllSent ..)))

/-! ## Events -/

theorem moves_apply (r : Router) (config : Config) : r.Moves (r.apply config).value.2 := by
  cases hvalid : config.validate.hasErrors with
  | false =>
    rw [r.apply_of_valid hvalid]
    exact .single (.adopted hvalid)
  | true =>
    obtain ⟨e, faults, hvalue⟩ := r.apply_of_invalid hvalid
    rw [hvalue]
    exact .single (.rejected faults)

theorem moves_handle (r : Router) (now : Nat) (event : Event) :
    r.Moves (r.handle now event).value.2 := by
  cases event with
  | frame interface bytes => exact r.moves_receive interface bytes now
  | timer kind =>
    cases kind with
    | linkAging => exact .single (.agedLinks now)
    | arpExpiry => exact .single (.agedArp now)
    | dhcp => exact (r.moves_maintainDhcp now).trans (moves_countAllSent ..)
    | report => exact .refl r
  | reload config =>
    have happly := r.moves_apply config
    unfold handle
    rcases hvalue : (r.apply config).value with ⟨e, applied⟩
    rw [hvalue] at happly
    rw [Logged.value_bind, hvalue]
    cases e <;> exact happly

/-! ## The states -/

/-- The routers that moves lead to from one without domains and interfaces. -/
def Arises (r : Router) : Prop :=
  ∃ xid, Moves { nextXid := xid } r

/-- **Every state of a router comes about by moves.** -/
theorem Reachable.arises (h : r.Reachable) : r.Arises := by
  induction h with
  | @start config xid r hr =>
    rw [start_eq_ok hr]
    exact ⟨xid, moves_apply _ config⟩
  | handle _ now event ih => exact ih.imp fun _ hm => hm.trans (moves_handle _ now event)
  | attach _ domain ih => exact ih.imp fun _ hm => hm.trans (.single (.attached domain))
  | detach _ hr ih => exact ih.imp fun _ hm => hm.trans (.single (.detached hr))

/-! ## What moves do to links -/

/-- **A link is opened for the packet of a frame that is handled.** -/
def Opens (r : Router) (link : Link) : Prop :=
  ∃ (frame : Waiter) (id : DomainId) (d : Domain) (f : Wire.Ethernet.Frame) (p packet : Packet)
    (target : LinkTarget) (flow : PacketFlow) (source : LinkSource),
    r.Arrives frame id d f p ∧ d.verdict p = .openLink target flow packet ∧
      link = .opened r.nextLink d.name flow target source frame.src frame.queued

/-- What a move may do to links and interfaces. -/
inductive Move.Effect (r r' : Router) : Prop
  | sheds (h : r.Sheds r')
  | opens {link : Link} (h : r.Opens link) (hadmits : r.tree.Admits link r'.tree)
      (hinterfaces : r'.interfaces = r.interfaces) (hgood : r'.Good)
  | attaches (domain : String) (h : r' = (r.attach domain).value.2)
  | detaches (interface : InterfaceId) (h : (r.detach interface).value = .ok r')
  | adopts {config : Config} (hvalid : config.validate.hasErrors = false)
      (h : r' = (r.adopt config).value)

/-- **Most moves end links at most.** -/
theorem Move.effect (h : r.Move r') (hgood : r.Good) : Move.Effect r r' := by
  cases h with
  | arrived h n => exact .sheds (hgood.sheds_countReceived ..)
  | sent t => exact .sheds (hgood.sheds_countSent t)
  | learned hid hd hconfig p now =>
    exact .sheds (hgood.sheds_of_core (DomainTree.core_updateAt fun _ => Domain.core_withArp ..))
  | parked h he hroute =>
    exact .sheds (hgood.sheds_of_core (DomainTree.core_update fun _ _ => Domain.core_withArp ..))
  | followed h hverdict hlink =>
    refine .sheds (hgood.sheds_of_core (DomainTree.core_update fun d _ => ?_))
    exact Domain.core_changeLink _ _ (fun l => l.core_followed ..) d
  | @entered frame id d f p packet target flow server taken routerIp source h hverdict hserver hip
      hsource hop =>
    obtain ⟨hby, hplace⟩ := hgood.byName?_of_domainId? h.handle h.domain
    have hdec := Domain.decision_of_verdict hverdict
    have hentered := hgood.enter hserver hsource hby hdec hip hplace frame.queued hop packet
    rw [router_enter] at hentered ⊢
    split
    · rename_i tree hins
      simp only [hins] at hentered
      exact .opens ⟨frame, id, d, f, p, packet, target, flow, source, h, hverdict, rfl⟩
        (hgood.admits_opened hserver hsource hby hdec hip frame.queued hins) rfl hentered
    · have hcollision := hgood.sheds_collision hserver hsource
      rw [Link.natPort_opened, Link.server_opened, Link.client_opened, Link.protocol_opened]
      exact .sheds hcollision
  | served hid hd hserver hparams request now =>
    exact .sheds (hgood.sheds_of_core
      (DomainTree.core_updateAt fun _ => Domain.core_withDhcpServer ..))
  | @instructed interface i client after action hi hclient hacts =>
    have hfirst := hgood.sheds_withClient interface after
    exact .sheds (hfirst.trans ((hfirst.good hgood).sheds_carryOut ..))
  | maintained now =>
    refine .sheds (hgood.sheds_of_core ?_)
    rw [DomainTree.core, DomainTree.core, Good.core_maintainServers]
  | agedLinks now => exact .sheds (.withTree (.of_dismisses (hgood.sound.dismisses_ageLinks now _)))
  | agedArp now =>
    refine .sheds (hgood.sheds_of_core ?_)
    rw [DomainTree.core, DomainTree.core, Good.core_expireArp]
  | attached domain => exact .attaches domain rfl
  | detached hr => exact .detaches _ hr
  | adopted hvalid => exact .adopts hvalid rfl
  | rejected faults => exact .sheds ⟨.refl hgood.sound, rfl, fun _ => rfl⟩

/-- A move keeps a router good. -/
theorem Move.good (h : r.Move r') (hgood : r.Good) : r'.Good := by
  cases h.effect hgood with
  | sheds h => exact h.good hgood
  | opens h hadmits hinterfaces hgood' => exact hgood'
  | attaches domain h => exact h ▸ hgood.attach domain
  | detaches interface h => exact hgood.detach h
  | adopts hvalid h => exact h ▸ hgood.adopt hvalid

/-- **A link that is there after a move was there before, or the move has opened it.** -/
theorem Move.opened_of_mem (h : r.Move r') (hgood : r.Good) {link : Link}
    (hm : link ∈ r'.tree.liveLinks) :
    (∃ l ∈ r.tree.liveLinks, l.core = link.core) ∨ r.Opens link := by
  cases h.effect hgood with
  | sheds h => exact .inl (h.tree.live link hm)
  | opens h hadmits hinterfaces hgood' =>
    rcases List.mem_cons.1 (hadmits.live.mem_iff.1 hm) with rfl | hold
    · exact .inr h
    · exact .inl ⟨link, hold, rfl⟩
  | attaches domain h =>
    subst h
    exact .inl ⟨link, ((hgood.binds_attach domain).mem_liveLinks link).1 hm, rfl⟩
  | detaches interface h =>
    obtain ⟨interfaces, rfl, -⟩ := detach_eq_ok h
    exact .inl ((hgood.unbinds_unbind interface).tree.live link hm)
  | adopts hvalid h =>
    subst h
    exact .inl ⟨link, ((hgood.mem_liveLinks_adopt hvalid link).1 hm).1, rfl⟩

namespace Arises

theorem move (h : r.Arises) (hm : r.Move r') : r'.Arises :=
  h.imp fun _ hs => hs.trans (.single hm)

theorem moves (h : r.Arises) (hm : r.Moves r') : r'.Arises :=
  h.imp fun _ hs => hs.trans hm

/-- **What a new router has and every move keeps, every state has.** -/
theorem induction {P : Router → Prop} (hempty : ∀ xid, P { nextXid := xid })
    (hmove : ∀ {r r' : Router}, r.Arises → P r → r.Move r' → P r') (h : r.Arises) : P r := by
  obtain ⟨xid, hs⟩ := h
  induction hs with
  | refl => exact hempty xid
  | tail hs hm ih => exact hmove ⟨xid, hs⟩ ih hm

theorem good (h : r.Arises) : r.Good :=
  h.induction good_empty fun _ hgood hm => hm.good hgood

/-- **What every opened link has, and traffic does not change, every live link has.** -/
theorem live_induction {P : Link → Prop} (hcore : ∀ link, P link.core ↔ P link)
    (hopens : ∀ {r : Router} {link : Link}, r.Arises → r.Opens link → P link) (h : r.Arises) :
    ∀ link ∈ r.tree.liveLinks, P link := by
  refine induction (P := fun r => ∀ link ∈ r.tree.liveLinks, P link)
    (fun _ _ hm => absurd hm List.not_mem_nil) (fun hr ih hmove link hm => ?_) h
  rcases hmove.opened_of_mem hr.good hm with ⟨l, hl, he⟩ | hopen
  · rw [← hcore, ← he, hcore]
    exact ih l hl
  · exact hopens hr hopen

end Arises

/-! ## Runs -/

/-- **A run of a router**: at first it has nothing, then it goes through one change after the
other. -/
structure Run (states : List Router) : Prop where
  start : ∃ xid, states.head? = some { nextXid := xid }
  moves : states.IsChain Move

/-- Every state is the last one of a run. -/
theorem Arises.exists_run (h : r.Arises) : ∃ states, Run states ∧ states.getLast? = some r := by
  obtain ⟨xid, hmoves⟩ := h
  obtain ⟨rest, hchain, hlast⟩ := List.exists_isChain_cons_of_relationReflTransGen hmoves
  exact ⟨_, ⟨⟨xid, rfl⟩, hchain⟩, (List.getLast?_eq_some_getLast (List.cons_ne_nil _ rest)).trans
    (congrArg some hlast)⟩

theorem Run.arises {states : List Router} (h : Run states) (hr : r ∈ states) : r.Arises := by
  refine h.moves.induction Arises states (fun _ _ hmove hs => hs.move hmove) (fun hne => ?_) r hr
  obtain ⟨xid, hxid⟩ := h.start
  rw [List.head?_eq_some_head hne, Option.some.injEq] at hxid
  exact ⟨xid, hxid ▸ .refl _⟩

end Router

end SegmentRouter
