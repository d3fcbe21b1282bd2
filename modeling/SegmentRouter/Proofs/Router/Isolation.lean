import SegmentRouter.Proofs.Router.Members
import SegmentRouter.Proofs.Router.Verdicts

/-!
# Proofs/Router/Isolation — a packet shows in two domains at most

The domain in which a packet arrives decides alone into which other domain it is sent on, if into
any (`DomainTree.peer?`).  What leaves the router because of the packet leaves through the interface
on which it came or through interfaces of that other domain, and no third domain changes
(`Reachable.isolated`).  An address that was learned through an interface that is gone makes no
exception: frames leave through interfaces that the domain has now.
-/

namespace SegmentRouter

open Wire (Bytes)
open Wire.Ipv4 (Packet)

namespace DomainTree

variable {tree tree' : DomainTree} {name : String}

/-- **The domain into which a packet is sent on** that arrives in a domain: that of the other end of
the packet's link; without one that of the target which the rules for ports permit, and none if they
deny it; where they do not decide, the one into which a rule for addresses passes it. -/
def peer? (tree : DomainTree) (d : Domain) (p : Packet) : Option String :=
  match PacketFlow.ofPacket? p with
  | none => d.passedTo? p.dst
  | some flow =>
    match d.links.lookup? flow.key with
    | some ref =>
      (tree.ownedLink? ref.owner ref.link).map fun link => (link.side ref.side.opposite).domain
    | none =>
      if flow.initiates then
        match d.decision flow.key with
        | .permitted target => some target.domain
        | .denied => none
        | .noRule => d.passedTo? p.dst
      else d.passedTo? p.dst

/-- Only two domains differ. -/
def Spares (tree : DomainTree) (name : String) (peer : Option String) (tree' : DomainTree) : Prop :=
  ∀ other, other ≠ name → peer ≠ some other → tree'.byName? other = tree.byName? other

namespace Spares

variable {peer : Option String}

theorem refl (tree : DomainTree) : tree.Spares name peer tree :=
  fun _ _ _ => rfl

theorem trans {tree'' : DomainTree} (h : tree.Spares name peer tree')
    (h' : tree'.Spares name peer tree'') : tree.Spares name peer tree'' :=
  fun other hname hpeer => (h' other hname hpeer).trans (h other hname hpeer)

theorem update {one : String} {f : Domain → Domain} (hone : one = name ∨ peer = some one)
    (hf : ∀ d, d.name = one → (f d).name = one) :
    tree.Spares name peer (tree.update one f) := by
  intro other hname hpeer
  have hne : other ≠ one := by
    rintro rfl
    exact hone.elim hname hpeer
  rw [byName?_update _ _ _ hf, if_neg hne]

/-- Entering a link shows at its two ends. -/
theorem insertLink? {link : Link} (h : tree.insertLink? link = some tree')
    (hserver : link.server.domain = name ∨ peer = some link.server.domain)
    (hclient : link.client.domain = name ∨ peer = some link.client.domain) :
    tree.Spares name peer tree' := by
  obtain ⟨-, rfl⟩ := insertLink?_eq_some.1 h
  exact (update (f := (·.enterLink (link.key .server) (refOf link .server))) hserver
    fun _ hd => hd).trans (update (f := fun d => (d.enterLink (link.key .client)
      (refOf link .client)).ownLink link) hclient fun _ hd => hd)

end Spares

end DomainTree

namespace Router

variable {r r' : Router} {frame : Waiter} {name peer : String}

/-! ## What leaves -/

/-- Frames leave through interfaces of a domain. -/
def LeavesInto (r : Router) (name : String) (sent : List Transmit) : Prop :=
  ∀ t ∈ sent, ∃ members, r.tree.members? name = some members ∧
    members.contains t.interface = true

theorem leavesInto_through {d : Domain} (hd : r.tree.byName? name = some d)
    {interfaces : List InterfaceId} (hsub : ∀ id ∈ interfaces, d.interfaces.contains id = true)
    (frame : Bytes) : r.LeavesInto name (through interfaces frame) := by
  intro t ht
  obtain ⟨id, hid, rfl⟩ := List.mem_map.1 ht
  refine ⟨d.interfaces, ?_, hsub id hid⟩
  rw [DomainTree.members?, hd, Option.map_some]

/-- A next hop is reached through interfaces that the domain has now, whatever was learned. -/
theorem contains_of_mem_outlets {d : Domain} {hop : NextHop} {id : InterfaceId}
    (h : id ∈ d.outlets hop) : d.interfaces.contains id = true := by
  unfold Domain.outlets at h
  split at h
  · split at h
    · rename_i hvia
      exact List.mem_singleton.1 h ▸ hvia
    · exact SortedMap.contains_of_mem_keys h
  · exact SortedMap.contains_of_mem_keys h

/-- What comes of a packet that is sent on from a domain into another one. -/
structure Crosses (r : Router) (name peer : String) (x : Reaction) : Prop where
  sent : r.LeavesInto peer x.sent
  released : x.released = []
  tree : r.tree.Spares name (some peer) x.router.tree
  interfaces : x.router.interfaces = r.interfaces

theorem crosses_nothing (r : Router) (name peer : String) : r.Crosses name peer (r.sending []) :=
  ⟨fun _ ht => absurd ht List.not_mem_nil, rfl, .refl _, rfl⟩

/-- A packet leaves a router that is new in the two domains only. -/
theorem crosses_forward (r' : Router) (htree : r.tree.Spares name (some peer) r'.tree)
    (hmembers : r'.tree.members? peer = r.tree.members? peer)
    (hinterfaces : r'.interfaces = r.interfaces) (hop : NextHop) (packet : Packet) :
    r.Crosses name peer (r'.forward peer hop packet).value := by
  have hrouter := router_forward r' peer hop packet
  refine ⟨?_, ?_, ?_, ?_⟩
  · unfold forward
    split
    · exact fun _ ht => absurd ht List.not_mem_nil
    · rename_i d hd
      intro t ht
      rw [← hmembers]
      exact leavesInto_through hd (fun _ hid => contains_of_mem_outlets hid) _ t ht
  · unfold forward
    split <;> rfl
  · rw [hrouter]
    exact htree
  · rw [hrouter]
    exact hinterfaces

theorem crosses_park {e : Domain} (he : r.tree.byName? peer = some e) (name : String)
    (hop : Ipv4Addr) (frame : Waiter) : r.Crosses name peer (r.park e hop frame).value := by
  obtain rfl := DomainTree.name_of_byName? he
  have hrouter := router_park r e hop frame
  refine ⟨?_, ?_, ?_, ?_⟩
  · have hasked : r.LeavesInto e.name (r.askFor e hop) := by
      unfold askFor
      split
      · exact leavesInto_through he (fun _ => SortedMap.contains_of_mem_keys) _
      · exact fun _ ht => absurd ht List.not_mem_nil
    unfold park
    rcases e.arp.park hop frame frame.queued with ⟨outcome, arp⟩
    cases outcome with
    | requestNeeded => exact hasked
    | queued => exact fun _ ht => absurd ht List.not_mem_nil
    | dropped => exact fun _ ht => absurd ht List.not_mem_nil
  · unfold park
    rcases e.arp.park hop frame frame.queued with ⟨outcome, arp⟩
    cases outcome <;> rfl
  · rw [hrouter]
    exact .update (f := (·.withArp (e.arp.park hop frame frame.queued).2)) (.inr rfl)
      fun _ hd => hd
  · rw [hrouter]
    rfl

/-- Looking for a way crosses at most, or leaves the router as it is. -/
theorem crosses_resolve (r : Router) (name peer : String) (dst : Ipv4Addr) (frame : Waiter) :
    (∃ x, (r.resolve peer dst frame).value = (none, x) ∧ r.Crosses name peer x) ∨
      ∃ hop, (r.resolve peer dst frame).value = (some hop, r.sending []) := by
  rcases r.resolve_cases peer dst frame with hno | ⟨e, hop, he, -, hparked⟩ | ⟨e, hop, -, -, hknown⟩
  · exact .inl ⟨_, hno, crosses_nothing ..⟩
  · exact .inl ⟨_, hparked, crosses_park he ..⟩
  · exact .inr ⟨hop, hknown⟩

/-! ## The three ways on -/

theorem crosses_pass (name : String) (frame : Waiter) (domain : String) (packet : Packet) :
    r.Crosses name domain (r.pass frame domain packet).value := by
  unfold pass
  rcases r.crosses_resolve name domain packet.dst frame with ⟨x, hvalue, hx⟩ | ⟨hop, hvalue⟩
  · rw [Logged.value_bind, hvalue]
    exact hx
  · rw [Logged.value_bind, hvalue]
    exact crosses_forward r (.refl _) rfl rfl hop packet

theorem crosses_follow {ref : LinkRef} {link : Link}
    (hlink : r.tree.ownedLink? ref.owner ref.link = some link)
    (howner : ref.owner = name ∨ some (link.egress ref.side).domain = some ref.owner)
    (frame : Waiter) (flow : PacketFlow) (packet : Packet) :
    r.Crosses name (link.egress ref.side).domain (r.follow frame ref flow packet).value := by
  unfold follow
  rw [hlink]
  rcases r.crosses_resolve name (link.egress ref.side).domain (link.egress ref.side).rewrite.dstIp
    frame with ⟨x, hvalue, hx⟩ | ⟨hop, hvalue⟩
  · dsimp only
    rw [Logged.value_bind, hvalue]
    exact hx
  · dsimp only
    rw [Logged.value_bind, hvalue]
    dsimp only
    refine crosses_forward (r.withTree _) ?_ ?_ ?_ hop _
    · exact .update (f := Domain.changeLink ref.link (·.followed ref.side flow frame.queued)) howner
        fun _ hd => hd
    · refine DomainTree.members?_of_still (DomainTree.still_of_unlinked ?_) _
      exact DomainTree.unlinked_update fun _ _ => rfl
    · rfl

/-- A new link shows at its two ends, also where it collides with another one and is not entered. -/
theorem crosses_enter (r' : Router) {link : Link} (hclient : link.client.domain = name)
    (hserver : link.server.domain = peer) (htree : r.tree.Spares name (some peer) r'.tree)
    (hunlinked : r'.tree.unlinked = r.tree.unlinked) (hinterfaces : r'.interfaces = r.interfaces)
    (hop : NextHop) (packet : Packet) :
    r.Crosses name peer (r'.enter link hop packet).value := by
  unfold enter
  dsimp only
  rw [hserver]
  split
  · rename_i tree hins
    refine crosses_forward { r' with tree, nextLink := r'.nextLink + 1 } (htree.trans
      (.insertLink? hins (.inr (congrArg some hserver.symm)) (.inl hclient))) ?_ hinterfaces hop _
    refine DomainTree.members?_of_still (DomainTree.still_of_unlinked ?_) _
    exact (DomainTree.unlinked_insertLink? hins).trans hunlinked
  · rw [Logged.value_bind]
    split
    · rename_i port hport
      refine ⟨fun _ ht => absurd ht List.not_mem_nil, rfl, htree.trans ?_, hinterfaces⟩
      exact .update (f := (·.freePort link.client.domain link.protocol port)) (.inr rfl)
        fun d hd => (d.name_freePort ..).trans hd
    · exact ⟨fun _ ht => absurd ht List.not_mem_nil, rfl, htree, hinterfaces⟩

theorem crosses_openLink (name : String) (frame : Waiter) (target : LinkTarget)
    (flow : PacketFlow) (packet : Packet) :
    r.Crosses name target.domain (r.openLink frame name target flow packet).value := by
  unfold openLink
  split
  · exact crosses_nothing ..
  · rename_i server hserver
    split
    · exact crosses_nothing ..
    · rename_i routerIp hip
      unfold openTowards
      rcases r.crosses_resolve name target.domain target.ip frame with
        ⟨x, hvalue, hx⟩ | ⟨hop, hvalue⟩
      · rw [Logged.value_bind, hvalue]
        exact hx
      · rw [Logged.value_bind, hvalue]
        dsimp only
        cases hsource : server.linkSource routerIp name flow.key with
        | error e => exact crosses_nothing ..
        | ok found =>
          have htaken := Domain.unlinked_linkSource hsource
          dsimp only
          refine crosses_enter (r.withTree _) ?_ ?_ ?_ ?_ ?_ hop packet
          · rw [Link.client_opened]
          · rw [Link.server_opened]
          · exact .update (.inr rfl) fun _ _ =>
              (Domain.name_of_unlinked htaken).trans (DomainTree.name_of_byName? hserver)
          · refine DomainTree.unlinked_update fun d hd => ?_
            rw [← Option.some.inj (hserver.symm.trans hd)]
            exact htaken
          · rfl

/-! ## Packets -/

/-- What comes of a packet that arrived through an interface of a domain, which may be sent on into
another one; `acts` tells whether the DHCP client acts on it. -/
structure Confined (r : Router) (interface : InterfaceId) (name : String) (peer : Option String)
    (acts : Prop) (x : Reaction) : Prop where
  sent : ∀ t ∈ x.sent, t.interface = interface ∨
    ∃ domain, peer = some domain ∧ ∃ members, r.tree.members? domain = some members ∧
      members.contains t.interface = true
  released : x.released = []
  tree : ¬ acts → r.tree.Spares name peer x.router.tree
  interfaces : ¬ acts → x.router.interfaces = r.interfaces

section

variable {interface : InterfaceId} {domain : Option String} {acts : Prop} {x : Reaction}

theorem Confined.imp {acts' : Prop} (h : r.Confined interface name domain acts x)
    (hacts : acts → acts') : r.Confined interface name domain acts' x :=
  ⟨h.sent, h.released, fun hno => h.tree (mt hacts hno), fun hno => h.interfaces (mt hacts hno)⟩

theorem Crosses.confined (h : r.Crosses name peer x) (hpeer : domain = some peer) :
    r.Confined interface name domain acts x where
  sent t ht := .inr ⟨peer, hpeer, h.sent t ht⟩
  released := h.released
  tree _ := hpeer ▸ h.tree
  interfaces _ := h.interfaces

/-- The router answers on the interface on which it was asked. -/
theorem confined_answer (hsent : ∀ t ∈ x.sent, t.interface = interface)
    (hreleased : x.released = [])
    (hrouter : x.router = r) : r.Confined interface name domain acts x where
  sent t ht := .inl (hsent t ht)
  released := hreleased
  tree _ := hrouter ▸ .refl _
  interfaces _ := hrouter ▸ rfl

theorem confined_nothing : r.Confined interface name domain acts (r.sending []) :=
  confined_answer (fun _ ht => absurd ht List.not_mem_nil) rfl rfl

theorem confined_reply (dst : Mac) (packet : Bytes) :
    r.Confined interface name domain acts (r.reply interface dst packet) :=
  confined_answer (fun _ ht => List.mem_singleton.1 ht ▸ rfl) rfl rfl

theorem confined_echo (mac : Mac) (p : Packet) :
    r.Confined interface name domain acts (r.echo interface mac p).value := by
  unfold echo
  split
  · exact confined_reply ..
  · exact confined_nothing

theorem confined_refuse (mac : Mac) (d : Domain) (reason : Refusal) (p : Packet) :
    r.Confined interface name domain acts (r.refuse interface mac d reason p).value := by
  have hanswer : ∀ routerIp, r.Confined interface name domain acts
      (r.answerUnreachable interface mac routerIp p) := fun routerIp => by
    unfold answerUnreachable
    split
    · exact confined_reply ..
    · exact confined_nothing
  rw [value_refuse]
  split
  · exact hanswer _
  · exact confined_nothing

theorem confined_serveDhcp (hgood : r.Good) {id : DomainId} {d : Domain}
    (hid : r.domainId? interface = some id) (hd : r.tree.get? id = some d) (payload : Bytes)
    (now : Nat) : r.Confined interface d.name domain acts
      (r.serveDhcp interface id d payload now).value := by
  unfold serveDhcp
  split
  · exact confined_nothing
  · rename_i request hparse
    split
    · rename_i server params hserver hparams
      rcases hvalue : (server.handle request params now).value with ⟨answer, server'⟩
      obtain ⟨hby, hplace⟩ := hgood.byName?_of_domainId? hid hd
      have hspares : r.tree.Spares d.name domain
          (r.tree.updateAt id (·.withDhcpServer server')) := by
        rw [DomainTree.updateAt_of_id? (hgood.settled hplace).symm]
        exact .update (f := (·.withDhcpServer server')) (.inl rfl) fun _ he => he
      rw [Logged.value_bind, hvalue]
      cases answer with
      | none => exact ⟨fun _ ht => absurd ht List.not_mem_nil, rfl, fun _ => hspares, fun _ => rfl⟩
      | some answer =>
        exact
          ⟨fun _ ht => .inl (List.mem_singleton.1 ht ▸ rfl), rfl, fun _ => hspares, fun _ => rfl⟩
    · exact confined_nothing

/-- The DHCP client speaks on its own interface, whatever it makes of the addresses. -/
theorem confined_carryOut (hacts : acts) (acting : Router) (action : DhcpAction) :
    r.Confined interface name domain acts (acting.carryOut interface action).value := by
  have hany : ∀ {x : Reaction}, (∀ t ∈ x.sent, t.interface = interface) → x.released = [] →
      r.Confined interface name domain acts x := fun hsent hreleased =>
    ⟨fun t ht => .inl (hsent t ht), hreleased, fun hno => absurd hacts hno,
      fun hno => absurd hacts hno⟩
  have hquiet : ∀ r' : Router, r.Confined interface name domain acts (r'.sending []) := fun _ =>
    hany (fun _ ht => absurd ht List.not_mem_nil) rfl
  have hconfigured : ∀ id config, r.Confined interface name domain acts
      (acting.configure interface id config).value := fun id config => by
    unfold configure
    rw [Logged.value_bind]
    cases (acting.tree.setIpConfig id config).value <;> exact hquiet _
  have hsaid : ∀ message dst mac, r.Confined interface name domain acts
      (acting.sendDhcp interface message dst mac) := fun message dst mac =>
    hany (fun _ ht => List.mem_singleton.1 ht ▸ rfl) rfl
  unfold carryOut
  split
  · exact hquiet _
  · cases action with
    | none => exact hquiet _
    | broadcast message => exact hsaid ..
    | unicast message server => exact hsaid ..
    | configure config => exact hconfigured ..
    | deconfigure => exact hconfigured ..

theorem confined_consumeDhcp (hacts : acts) (payload : Bytes) (now : Nat) :
    r.Confined interface name domain acts (r.consumeDhcp interface payload now).value := by
  unfold consumeDhcp
  split
  · exact confined_nothing
  · split
    · exact confined_nothing
    · exact confined_carryOut hacts ..

end

section

variable {id : DomainId} {d : Domain} {f : Wire.Ethernet.Frame} {p : Packet}
  (ha : r.Arrives frame id d f p) (hgood : r.Good)

include ha hgood

/-- A packet that follows a link goes to the link's other end. -/
theorem confined_follow {acts : Prop} {ref : LinkRef} {flow : PacketFlow} {q : Packet}
    (hflow : PacketFlow.ofPacket? p = some flow) (hlink : d.links.lookup? flow.key = some ref) :
    r.Confined frame.src d.name (r.tree.peer? d p) acts (r.follow frame ref flow q).value := by
  obtain ⟨hby, -⟩ := hgood.byName?_of_domainId? ha.handle ha.domain
  have hlookup : r.tree.lookup? ⟨d.name, flow.key⟩ = some ref := by
    rw [DomainTree.lookup?, hby]
    exact hlink
  obtain ⟨link, hm, hsits, hrefAt⟩ := (hgood.sound.index ..).1 hlookup
  have howned : r.tree.ownedLink? ref.owner ref.link = some link :=
    hrefAt ▸ hgood.sound.ownedLink?_of_mem hm
  have howner : ref.owner = d.name ∨ some (link.egress ref.side).domain = some ref.owner := by
    have hseat := Link.seat_side_refAt hsits
    rw [hrefAt] at hseat
    subst hrefAt
    cases hside : (link.refAt ⟨d.name, flow.key⟩).side with
    | client =>
      rw [hside] at hseat
      exact .inl (congrArg Seat.domain hseat)
    | server => exact .inr rfl
  refine (crosses_follow howned howner frame flow q).confined ?_
  · rw [DomainTree.peer?, hflow]
    dsimp only
    rw [hlink]
    dsimp only
    rw [howned]
    rfl

/-- A packet that is sent on goes into the peer of its domain. -/
theorem confined_transit {acts : Prop} {verdict : Verdict} (ht : d.Transit p verdict) (mac : Mac) :
    r.Confined frame.src d.name (r.tree.peer? d p) acts
      (r.carryOutVerdict frame id d mac p verdict).value := by
  cases ht with
  | follow hflow hlink hq => exact confined_follow ha hgood hflow hlink
  | openLink hflow hlink hinit hdec hq =>
    refine (crosses_openLink ..).confined ?_
    rw [DomainTree.peer?, hflow]
    dsimp only
    rw [hlink]
    dsimp only
    rw [if_pos hinit, hdec]
  | denied hflow hlink hinit hdec hq => exact confined_refuse ..
  | @addressed q hflow hq =>
    have hpeer : r.tree.peer? d p = d.passedTo? p.dst := by
      rw [DomainTree.peer?]
      split
      · rfl
      · rename_i flow hsome
        obtain ⟨hlink, hdec⟩ := hflow flow hsome
        rw [hlink]
        dsimp only
        split
        · rename_i hinit
          rw [hdec hinit]
        · rfl
    rw [Domain.addressVerdict_eq, Packet.dst_nextHop? hq]
    split
    · rename_i domain hdomain
      exact (crosses_pass ..).confined (hpeer.trans hdomain)
    · exact confined_refuse ..

/-- **What comes of a packet stays in its own domain and the one that it is sent on into.** -/
theorem confined_carryOutVerdict (mac : Mac) : r.Confined frame.src d.name (r.tree.peer? d p)
    (∃ message, d.verdict p = .toDhcpClient message)
      (r.carryOutVerdict frame id d mac p (d.verdict p)).value := by
  have htransit (h : (d.verdict p).IsTransit) :
      r.Confined frame.src d.name (r.tree.peer? d p)
        (∃ message, d.verdict p = .toDhcpClient message)
        (r.carryOutVerdict frame id d mac p (d.verdict p)).value :=
    confined_transit ha hgood (Domain.transit_verdict h) mac
  cases hv : d.verdict p with
  | drop reason => cases reason <;> exact confined_nothing
  | toDhcpClient message => exact confined_consumeDhcp ⟨message, rfl⟩ ..
  | toDhcpServer message => exact confined_serveDhcp hgood ha.handle ha.domain ..
  | echo => exact confined_echo ..
  | refuse | follow | openLink | pass =>
    rw [hv] at htransit
    exact htransit trivial

end

/-! ## Frames -/

section

variable {interface : InterfaceId} {d : Domain} {bytes : Bytes} {now : Nat}
  {f : Wire.Ethernet.Frame}

/-- The domain into which the packet in a frame is sent on. -/
def peerOf? (r : Router) (d : Domain) (payload : Bytes) : Option String :=
  match Wire.Ipv4.parse payload with
  | .ok p => r.tree.peer? d p
  | .error _ => none

/-- The DHCP client acts on a frame. -/
def Instructs (r : Router) (frame : Waiter) : Prop :=
  ∃ id d f p message, r.Arrives frame id d f p ∧ d.verdict p = .toDhcpClient message

theorem Instructs.source (h : r.Instructs frame) :
    ∃ d, r.domainOf? frame.src = some d ∧ d.source = .dhcp := by
  obtain ⟨id, d, f, p, message, ha, hverdict⟩ := h
  refine ⟨d, ?_, Domain.source_of_verdict hverdict⟩
  rw [domainOf?, ha.handle]
  exact ha.domain

theorem confined_process (frame : Waiter) (hgood : r.Good) (hd : r.domainOf? frame.src = some d)
    (hf : Wire.Ethernet.parse frame.frame = .ok f)
    (htype : Wire.EtherType.ofNumber? f.etherType = some .ipv4) :
    r.Confined frame.src d.name (r.peerOf? d f.payload) (r.Instructs frame)
      (r.process frame).value := by
  rcases r.handles_ipv4 hf htype with hvalue | ⟨id, d', p, ha, hvalue⟩
  · rw [hvalue]
    exact confined_nothing
  · obtain rfl := Option.some.inj (hd.symm.trans ha.domainOf?_eq)
    rw [hvalue, peerOf?, ha.packet]
    exact (confined_carryOutVerdict ha hgood f.src).imp fun ⟨message, hmessage⟩ =>
      ⟨id, d, f, p, message, ha, hmessage⟩

/-- Counting shows in the domain that the interface is meant for. -/
theorem spares_change (hgood : r.Good) {peer : Option String} (id : InterfaceId)
    (g : Interface → Interface) (h : Domain → Domain) (hname : ∀ d, (h d).name = d.name)
    (hpolicy : ∀ policy, r.interfaces.policy? id = some policy →
      policy = name ∨ peer = some policy) :
    r.tree.Spares name peer (r.change id g h).tree := by
  unfold change
  split
  · exact .refl _
  · rename_i i hi
    dsimp only
    split
    · rename_i domain hdomain
      have hsettled := hgood.settled (InterfaceTable.place?_eq_some.2 ⟨i, hi, rfl, hdomain⟩)
      rw [DomainTree.updateAt_of_id? hsettled.symm]
      exact .update (hpolicy _ (InterfaceTable.policy?_of_get? hi)) fun d hd => (hname d).trans hd
    · exact .refl _

theorem spares_countAllSent (hgood : r.Good) {peer : Option String} {sent : List Transmit}
    (hpolicy : ∀ t ∈ sent, ∀ policy, r.interfaces.policy? t.interface = some policy →
      policy = name ∨ peer = some policy) :
    r.tree.Spares name peer (r.countAllSent sent).tree := by
  induction sent generalizing r with
  | nil => exact .refl _
  | cons t rest ih =>
    have hsheds := hgood.sheds_countSent t
    refine (spares_change hgood t.interface (·.sent t.frame.length) (·.sent t.frame.length)
      (fun _ => rfl) (hpolicy t List.mem_cons_self)).trans
      (ih (hsheds.good hgood) fun u hu policy hp => ?_)
    refine hpolicy u (List.mem_cons_of_mem _ hu) policy ?_
    rw [← hp]
    exact (InterfaceTable.policy?_of_place? (hsheds.places _)).symm

/-- A frame that sets no other free is all that is handled. -/
theorem receive_eq (hreleased : ((r.countArrival interface bytes.length).process
      ⟨interface, bytes, now⟩).value.released = []) :
    (r.receive interface bytes now).value =
      let x := ((r.countArrival interface bytes.length).process ⟨interface, bytes, now⟩).value
      (x.sent, x.router.countAllSent x.sent) := by
  unfold receive
  rw [Logged.value_bind, Logged.value_bind, hreleased]
  unfold replayAll
  dsimp only [Logged.value_pure, sending]
  rw [List.append_nil]

/-- A frame that is counted arrives in the same domain, where the same becomes of it. -/
structure Counts (r : Router) (interface : InterfaceId) (d : Domain) (n : Nat) (r' : Router) :
    Prop where
  arises : r'.Arises
  domain : r'.domainOf? interface = some (d.received n)
  tree : ∀ peer, r.tree.Spares d.name peer r'.tree
  peer : ∀ payload, r'.peerOf? (d.received n) payload = r.peerOf? d payload
  instructs : ∀ bytes now, r'.Instructs ⟨interface, bytes, now⟩ →
    r.Instructs ⟨interface, bytes, now⟩
  members : ∀ name, r'.tree.members? name = r.tree.members? name
  policies : ∀ id, r'.interfaces.policy? id = r.interfaces.policy? id

/-- A frame that arrives is counted at its interface and in the domain of that. -/
theorem Good.countArrival_eq (h : r.Good) (hd : r.domainOf? interface = some d) (n : Nat) :
    r.countArrival interface n = { r with
      interfaces := r.interfaces.modify interface (·.received n)
      tree := r.tree.update d.name (·.received n) } := by
  obtain ⟨id, hid, hget⟩ := Option.bind_eq_some_iff.1 hd
  obtain ⟨-, hplace⟩ := h.byName?_of_domainId? hid hget
  obtain ⟨i, hi, -, hdomain⟩ := InterfaceTable.place?_eq_some.1 hplace
  rw [countArrival, if_pos (Option.isSome_of_eq_some hd), countReceived, change, hi]
  dsimp only
  rw [hdomain]
  dsimp only
  rw [DomainTree.updateAt_of_id? (h.settled hplace).symm]

/-- A counted frame arrives in the domain in which it arrived, by the same handle. -/
theorem Good.domain_countArrival (h : r.Good) {id : DomainId}
    (hid : r.domainId? interface = some id) (hget : r.tree.get? id = some d) (n : Nat) :
    (r.countArrival interface n).domainId? interface = some id ∧
      (r.countArrival interface n).tree.get? id = some (d.received n) := by
  have hd : r.domainOf? interface = some d := Option.bind_eq_some_iff.2 ⟨id, hid, hget⟩
  obtain ⟨hby, hplace⟩ := h.byName?_of_domainId? hid hget
  obtain ⟨i, hi, -, hdomain⟩ := InterfaceTable.place?_eq_some.1 hplace
  have hname : ∀ e : Domain, e.name = d.name → (e.received n).name = d.name := fun _ he => he
  have hid' : (r.tree.update d.name (·.received n)).id? d.name = some id := by
    have hgeneration : (r.tree.update d.name (·.received n)).generation = r.tree.generation := rfl
    rw [h.settled hplace]
    exact DomainTree.id?_congr hgeneration (DomainTree.names_update hname) d.name
  rw [h.countArrival_eq hd]
  constructor
  · rw [domainId?]
    dsimp only
    rw [InterfaceTable.get?_modify, if_pos rfl, hi]
    exact hdomain
  · dsimp only
    rw [DomainTree.get?_of_id? hid', DomainTree.byName?_update _ _ _ hname, if_pos rfl, hby]
    rfl

theorem Arises.counts (h : r.Arises) (hd : r.domainOf? interface = some d) (n : Nat) :
    r.Counts interface d n (r.countArrival interface n) := by
  obtain ⟨id, hid, hget⟩ := Option.bind_eq_some_iff.1 hd
  obtain ⟨hid', hget'⟩ := h.good.domain_countArrival hid hget n
  have hsome : (r.domainOf? interface).isSome := Option.isSome_of_eq_some hd
  have hcounted := h.good.countArrival_eq hd n
  have hcalm : r.Calm (r.countReceived interface n) := .change _ (fun _ => rfl) fun _ => rfl
  have hname : ∀ e : Domain, e.name = d.name → (e.received n).name = d.name := fun _ he => he
  constructor
  case arises =>
    rw [countArrival, if_pos hsome]
    exact h.move (.arrived hsome n)
  case domain =>
    rw [domainOf?, hid']
    exact hget'
  case tree =>
    intro peer
    rw [hcounted]
    exact .update (f := (·.received n)) (.inl rfl) hname
  case peer =>
    intro payload
    have howned : ∀ owner link, (r.tree.update d.name (·.received n)).ownedLink? owner link =
        r.tree.ownedLink? owner link :=
      DomainTree.ownedLink?_update_eq (f := (·.received n)) hname fun _ _ => rfl
    rw [hcounted]
    unfold peerOf? DomainTree.peer?
    simp only [howned]
    rfl
  case instructs =>
    rintro bytes now ⟨id', d', f, p, message, ha, hverdict⟩
    obtain rfl : id = id' := Option.some.inj (hid'.symm.trans ha.handle)
    obtain rfl : d.received n = d' := Option.some.inj (hget'.symm.trans ha.domain)
    have haddressed : f.dst = r.config.mac ∨ f.dst.isBroadcast = true := by
      have haddressed := ha.addressed
      rwa [hcounted] at haddressed
    exact ⟨id, d, f, p, message,
      ⟨hid, hget, ha.ethernet, haddressed, ha.type, ha.packet, ha.intact⟩, hverdict⟩
  case members =>
    intro name
    rw [countArrival, if_pos hsome]
    exact DomainTree.members?_of_still hcalm.tree name
  case policies =>
    intro id
    rw [countArrival, if_pos hsome]
    exact hcalm.policy?_eq id

/-- **A packet shows in two domains at most**: the one in which it arrives and the one into which
that one sends it on.  What leaves because of it leaves through the interface on which it came, or
through interfaces that are attached to the other domain now, and a third domain does not change —
unless the DHCP client acts on it, since other domains may have their addresses from its own. -/
theorem Reachable.isolated (h : r.Reachable) (hd : r.domainOf? interface = some d)
    (hf : Wire.Ethernet.parse bytes = .ok f)
    (htype : Wire.EtherType.ofNumber? f.etherType = some .ipv4) (now : Nat) :
    (∀ t ∈ (r.receive interface bytes now).value.1, t.interface = interface ∨
      ∃ e, r.domainOf? t.interface = some e ∧ r.peerOf? d f.payload = some e.name) ∧
    (¬ r.Instructs ⟨interface, bytes, now⟩ → ∀ name, name ≠ d.name →
      r.peerOf? d f.payload ≠ some name →
        (r.receive interface bytes now).value.2.tree.byName? name = r.tree.byName? name) := by
  have hcounts := h.arises.counts hd bytes.length
  have hconfined := confined_process ⟨interface, bytes, now⟩ hcounts.arises.good
    hcounts.domain hf htype
  rw [hcounts.peer] at hconfined
  rw [receive_eq hconfined.released]
  have hinto : ∀ {domain members id}, r.tree.members? domain = some members →
      members.contains id = true → ∃ e, r.domainOf? id = some e ∧ e.name = domain := by
    intro domain members id hmembers hcontains
    obtain ⟨e, he, rfl⟩ := Option.map_eq_some_iff.1 hmembers
    exact ⟨e, h.arises.domainOf?_of_contains he hcontains, DomainTree.name_of_byName? he⟩
  refine ⟨fun t ht => ?_, fun hno => ?_⟩
  · refine (hconfined.sent t ht).imp_right ?_
    rintro ⟨domain, hpeer, members, hmembers, hcontains⟩
    rw [hcounts.members] at hmembers
    obtain ⟨e, he, rfl⟩ := hinto hmembers hcontains
    exact ⟨e, he, hpeer⟩
  · have hquiet := mt (hcounts.instructs bytes now) hno
    have hgood := (hcounts.arises.moves (moves_process _ ⟨interface, bytes, now⟩)).good
    refine (hcounts.tree _).trans ((hconfined.tree hquiet).trans
      (spares_countAllSent hgood fun t ht policy hp => ?_))
    rw [hconfined.interfaces hquiet, hcounts.policies] at hp
    rcases hconfined.sent t ht with hback | ⟨domain, hpeer, members, hmembers, hcontains⟩
    · obtain ⟨id, hid, hget⟩ := Option.bind_eq_some_iff.1 hd
      obtain ⟨i, hi, hpolicy, -⟩ := InterfaceTable.place?_eq_some.1
        (h.good.byName?_of_domainId? hid hget).2
      rw [hback, InterfaceTable.policy?_of_get? hi] at hp
      exact .inl ((Option.some.inj hp).symm.trans hpolicy)
    · rw [hcounts.members] at hmembers
      rw [((h.arises.housed hmembers _).1 hcontains).2] at hp
      exact .inr (hp ▸ hpeer)

end

namespace Ping

/-- The frame of the echo request, read. -/
def ethernet : Wire.Ethernet.Frame where
  dst := Config.defaultMac
  src := host
  etherType := Wire.EtherType.ipv4.number
  payload := Wire.Ipv4.Draft.build
    { src := .ofOctets 10 0 0 2, dst := .ofOctets 10 0 1 2, protocolNumber := 1 }
    (Wire.Icmp.echoRequest 7 1 [])

theorem domains_ne_nil : router.tree.domains ≠ [] := by
  decide +kernel

/-- The domain of the host that pings. -/
def lan : Domain :=
  router.tree.domains.head domains_ne_nil

end Ping

/-- A ping leaves into the domain of its host, and shows in no third domain. -/
theorem isolated_ping : Ping.router.Reachable ∧ ∃ d f,
    Ping.router.domainOf? ⟨0, 0⟩ = some d ∧ Wire.Ethernet.parse Ping.request = .ok f ∧
    Ping.router.peerOf? d f.payload = some "wan" ∧
    (∀ t ∈ (Ping.router.receive ⟨0, 0⟩ Ping.request 0).value.1, t.interface = ⟨0, 0⟩ ∨
      ∃ e, Ping.router.domainOf? t.interface = some e ∧ e.name = "wan") ∧
    ∀ name, name ≠ d.name → name ≠ "wan" →
      (Ping.router.receive ⟨0, 0⟩ Ping.request 0).value.2.tree.byName? name =
        Ping.router.tree.byName? name := by
  have hd : Ping.router.domainOf? ⟨0, 0⟩ = some Ping.lan := by decide +kernel
  have hpeer : Ping.router.peerOf? Ping.lan Ping.ethernet.payload = some "wan" := by decide +kernel
  obtain ⟨hsent, hothers⟩ := Ping.reachable_router.isolated hd
    (Wire.Ethernet.parse_build Ping.ethernet) (by decide) 0
  have hquiet : ¬ Ping.router.Instructs ⟨⟨0, 0⟩, Ping.request, 0⟩ := fun hacts => by
    obtain ⟨e, he, hsource⟩ := hacts.source
    obtain rfl := Option.some.inj (hd.symm.trans he)
    exact absurd hsource (by decide +kernel)
  refine ⟨Ping.reachable_router, _, _, hd, Wire.Ethernet.parse_build Ping.ethernet, hpeer,
    fun t ht => (hsent t ht).imp_right ?_, fun name hname hwan => hothers hquiet name hname ?_⟩
  · rintro ⟨e, he, hinto⟩
    exact ⟨e, he, Option.some.inj (hinto.symm.trans hpeer)⟩
  · rw [hpeer]
    exact fun he => hwan (Option.some.inj he).symm

end Router

end SegmentRouter
