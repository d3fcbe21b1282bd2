import SegmentRouter.Proofs.Router.Good
import SegmentRouter.Proofs.Tree.Admission
import SegmentRouter.Router.Forward

/-!
# Proofs/Router/Opening — a packet opens a link that the rules uphold

A new link has the flow of its packet on the client's side, and on the server's side the target that
the rules gave and the source that the server's domain gave; so the rules uphold it by the way it
was made (`upholds_opened`).  If one of its seats is not free, the port that was taken for it is
given back, and only the rotation of ports tells that anything happened.
-/

namespace SegmentRouter

open Wire (Protocol)

/-! ## The source of a link -/

namespace Domain

variable {server taken : Domain} {routerIp : Ipv4Addr} {client : String} {key : FlowKey}
  {source : LinkSource}

/-- **A link's source is the packet's own or the router's with a port that was free.** -/
theorem linkSource_eq_ok (h : server.linkSource routerIp client key = .ok (source, taken)) :
    (server.translatesFor client = false ∧ taken = server ∧
      source = { ip := key.flow.srcIp, port := key.flow.srcPort }) ∨
    (server.translatesFor client = true ∧
      ∃ port, server.allocPort client key.protocol = .ok (port, taken) ∧
        source = { ip := routerIp, port, natPort := some port }) := by
  unfold linkSource at h
  split at h
  · rename_i htr
    refine .inr ⟨htr, ?_⟩
    split at h
    · rename_i port taken' halloc
      obtain ⟨rfl, rfl⟩ := Prod.mk.inj (Except.ok.inj h)
      exact ⟨port, halloc, rfl⟩
    · cases h
  · rename_i htr
    obtain ⟨rfl, rfl⟩ := Prod.mk.inj (Except.ok.inj h)
    exact .inl ⟨by simpa using htr, rfl, rfl⟩

theorem unlinked_linkSource (h : server.linkSource routerIp client key = .ok (source, taken)) :
    taken.unlinked = server.unlinked := by
  rcases linkSource_eq_ok h with ⟨-, rfl, -⟩ | ⟨-, port, halloc, -⟩
  · rfl
  · obtain ⟨rule, pool, hrule, -, -, rfl⟩ := allocPort_eq_ok halloc
    exact unlinked_withShare hrule ..

end Domain

/-! ## The link -/

namespace Link

variable (id : Nat) (client : String) (flow : PacketFlow) (target : LinkTarget)
  (source : LinkSource) (origin : InterfaceId) (now : Nat)

@[simp] theorem id_opened : (opened id client flow target source origin now).id = id :=
  (congrArg Link.id (core_opened id client flow target source origin now) :)

@[simp] theorem protocol_opened :
    (opened id client flow target source origin now).protocol = flow.key.protocol :=
  (congrArg Link.protocol (core_opened id client flow target source origin now) :)

@[simp] theorem client_opened : (opened id client flow target source origin now).client =
    { domain := client, flow := flow.key.flow } :=
  (congrArg Link.client (core_opened id client flow target source origin now) :)

@[simp] theorem server_opened : (opened id client flow target source origin now).server =
    { domain := target.domain, flow := target.answerFlow flow.key.protocol source } :=
  (congrArg Link.server (core_opened id client flow target source origin now) :)

@[simp] theorem natPort_opened :
    (opened id client flow target source origin now).natPort = source.natPort :=
  (congrArg Link.natPort (core_opened id client flow target source origin now) :)

@[simp] theorem origin_opened :
    (opened id client flow target source origin now).origin = origin :=
  (congrArg Link.origin (core_opened id client flow target source origin now) :)

theorem key_client_opened :
    (opened id client flow target source origin now).key .client = flow.key := by
  rw [key, side, protocol_opened, client_opened]

theorem serves_opened : target.Serves (opened id client flow target source origin now) := by
  rw [LinkTarget.Serves, server_opened, protocol_opened]
  refine ⟨rfl, rfl, ?_⟩
  unfold LinkTarget.answerFlow
  split
  · rename_i hicmp
    exact .inl hicmp
  · exact .inr rfl
  · exact .inr rfl

theorem formed_opened {server taken : Domain} {routerIp : Ipv4Addr}
    (h : server.linkSource routerIp client flow.key = .ok (source, taken)) :
    (opened id client flow target source origin now).Formed := by
  have hecho : flow.key.protocol = .icmp →
      (target.answerFlow flow.key.protocol source).srcPort = source.port := fun hp => by
    rw [hp]
    rfl
  rcases Domain.linkSource_eq_ok h with ⟨-, -, rfl⟩ | ⟨-, port, -, rfl⟩
  · constructor
    · intro port hport
      rw [natPort_opened] at hport
      cases hport
    · intro _
      rw [server_opened, client_opened]
      exact ⟨rfl, rfl⟩
    · intro hp
      rw [protocol_opened] at hp
      rw [server_opened]
      exact hecho hp
  · constructor
    · intro port' hport
      rw [natPort_opened] at hport
      rw [server_opened]
      exact Option.some.inj hport
    · intro hnone
      rw [natPort_opened] at hnone
      cases hnone
    · intro hp
      rw [protocol_opened] at hp
      rw [server_opened]
      exact hecho hp

end Link

namespace DomainTree

variable {tree : DomainTree} {d server taken : Domain} {routerIp : Ipv4Addr} {client : String}
  {flow : PacketFlow} {target : LinkTarget} {source : LinkSource}

/-- **The rules uphold a link that they lead to.** -/
theorem upholds_opened (hd : tree.byName? client = some d)
    (hdec : d.decision flow.key = .permitted target)
    (hserver : tree.byName? target.domain = some server) (hip : server.routerIp? = some routerIp)
    (hsource : server.linkSource routerIp client flow.key = .ok (source, taken)) (id : Nat)
    (origin : InterfaceId) (now : Nat) :
    tree.Upholds (.opened id client flow target source origin now) := by
  refine ⟨⟨d, by rw [Link.client_opened]; exact hd, target, ?_, Link.serves_opened ..⟩, server,
    by rw [Link.server_opened]; exact hserver, routerIp, hip, ?_⟩
  · rw [Link.key_client_opened]
    exact hdec
  · rw [Domain.Translates, Link.natPort_opened, Link.client_opened, Link.server_opened]
    rcases Domain.linkSource_eq_ok hsource with ⟨htr, -, rfl⟩ | ⟨htr, port, -, rfl⟩
    · exact ⟨htr.symm, nofun⟩
    · exact ⟨htr.symm, fun _ => rfl⟩

/-- The port that a link is opened with is taken for it. -/
theorem takesPort_opened {live : List Link} (hacc : server.Accounts live)
    (hsource : server.linkSource routerIp client flow.key = .ok (source, taken)) (id : Nat)
    (origin : InterfaceId) (now : Nat) :
    server.TakesPort (.opened id client flow target source origin now) taken := by
  rw [Domain.TakesPort, Link.natPort_opened, Link.client_opened, Link.protocol_opened]
  rcases Domain.linkSource_eq_ok hsource with ⟨-, rfl, rfl⟩ | ⟨-, port, halloc, rfl⟩
  · rfl
  · exact Domain.grants_allocPort (hacc.next _) halloc

end DomainTree

/-! ## Opening -/

namespace Router

/-- Sending a packet changes nothing. -/
theorem router_forward (r : Router) (name : String) (hop : NextHop) (packet : Wire.Ipv4.Packet) :
    (r.forward name hop packet).value.router = r := by
  unfold forward
  split <;> rfl

/-- A router entered a link, or gave back the port that was taken for it. -/
theorem router_enter (r : Router) (link : Link) (hop : NextHop) (packet : Wire.Ipv4.Packet) :
    (r.enter link hop packet).value.router =
      match r.tree.insertLink? link with
      | some tree => { r with tree, nextLink := r.nextLink + 1 }
      | none =>
        match link.natPort with
        | some port => r.withTree (r.tree.update link.server.domain
            (·.freePort link.client.domain link.protocol port))
        | none => r := by
  unfold enter
  cases r.tree.insertLink? link with
  | some tree => exact router_forward ..
  | none => cases link.natPort <;> rfl

namespace Good

variable {r : Router} {d server taken : Domain} {routerIp : Ipv4Addr} {client : String}
  {flow : PacketFlow} {target : LinkTarget} {source : LinkSource} {origin : InterfaceId}
  {domain : Option DomainId}

/-- Looking for the way parks the frame at most. -/
theorem sheds_resolve (h : r.Good) (name : String) (dst : Ipv4Addr) (waiter : Waiter) :
    r.Sheds (r.resolve name dst waiter).value.2.router := by
  unfold resolve
  split
  · exact h.sheds_refl
  · rename_i d hd
    split
    · exact h.sheds_refl
    · exact h.sheds_refl
    · rename_i hop hroute
      have hparked : ((r.park d hop waiter).value).router =
          r.withTree (r.tree.update d.name
            (·.withArp (d.arp.park hop waiter waiter.queued).2)) := by
        unfold park
        rcases d.arp.park hop waiter waiter.queued with ⟨outcome, arp⟩
        cases outcome <;> rfl
      rw [Logged.value_bind, Logged.value_pure, hparked]
      exact h.sheds_of_core (DomainTree.core_update fun _ _ => rfl)
    · exact h.sheds_refl

section

variable (h : r.Good) (hserver : r.tree.byName? target.domain = some server)
  (hsource : server.linkSource routerIp client flow.key = .ok (source, taken))

include h hserver hsource

/-- The port of a link that cannot be entered is given back. -/
theorem sheds_collision : r.Sheds
    (match source.natPort with
    | some port => (r.withTree (r.tree.update target.domain fun _ => taken)).withTree
        ((r.tree.update target.domain fun _ => taken).update target.domain
          (·.freePort client flow.key.protocol port))
    | none => r.withTree (r.tree.update target.domain fun _ => taken)) := by
  have hfound : ∀ e, r.tree.byName? target.domain = some e → e = server := fun e he =>
    Option.some.inj (he.symm.trans hserver)
  rcases Domain.linkSource_eq_ok hsource with ⟨-, rfl, rfl⟩ | ⟨-, port, halloc, rfl⟩
  · refine h.sheds_of_core (DomainTree.core_update fun e he => ?_)
    rw [hfound e he]
  · have hgrants := Domain.grants_allocPort ((h.sound.accounts hserver).next _) halloc
    have hname : taken.name = target.domain :=
      hgrants.name_eq.trans (DomainTree.name_of_byName? hserver)
    refine .withTree (.of_core h.sound ?_)
    rw [DomainTree.update_update fun _ _ => hname]
    refine DomainTree.core_update fun e he => ?_
    rw [hfound e he]
    exact Domain.core_freePort_allocPort ((h.sound.accounts hserver).next _) halloc

/-- A tree that a new link could be entered in has it besides the others. -/
theorem admits_opened (hd : r.tree.byName? client = some d)
    (hdec : d.decision flow.key = .permitted target) (hip : server.routerIp? = some routerIp)
    (now : Nat) {tree : DomainTree}
    (hins : (r.tree.update target.domain fun _ => taken).insertLink?
      (.opened r.nextLink client flow target source origin now) = some tree) :
    r.tree.Admits (.opened r.nextLink client flow target source origin now) tree := by
  have hup := DomainTree.upholds_opened hd hdec hserver hip hsource r.nextLink origin now
  have hport : server.TakesPort (.opened r.nextLink client flow target source origin now) taken :=
    DomainTree.takesPort_opened (h.sound.accounts hserver) hsource r.nextLink origin now
  have hsname := congrArg Endpoint.domain
    (Link.server_opened r.nextLink client flow target source origin now)
  refine h.sound.admits (hsname.symm ▸ hserver) hport ?_ (fun l hl => ?_) hup
    (Link.formed_opened _ _ _ _ _ _ _ hsource)
  · rw [hsname]
    exact hins
  · rw [Link.id_opened]
    exact Nat.ne_of_lt (h.fresh l hl)

/-- **A router that opens a link for a packet stays good.** -/
theorem enter (hd : r.tree.byName? client = some d)
    (hdec : d.decision flow.key = .permitted target) (hip : server.routerIp? = some routerIp)
    (hplace : r.interfaces.place? origin = some (client, domain)) (now : Nat) (hop : NextHop)
    (packet : Wire.Ipv4.Packet) :
    ((r.withTree (r.tree.update target.domain fun _ => taken)).enter
      (.opened r.nextLink client flow target source origin now) hop packet).value.router.Good := by
  rw [router_enter]
  split
  · rename_i tree hins
    have hadm := h.admits_opened hserver hsource hd hdec hip now hins
    have hmem : ∀ l, l ∈ tree.liveLinks ↔
        l = .opened r.nextLink client flow target source origin now ∨ l ∈ r.tree.liveLinks :=
      fun l => by rw [hadm.live.mem_iff, List.mem_cons]
    refine ⟨hadm.sound, fun l hl => ?_, fun {id policy domain} hp => ?_, fun l hl => ?_⟩
    · rcases (hmem l).1 hl with rfl | hl
      · rw [Link.id_opened]
        exact Nat.lt_succ_self _
      · exact Nat.lt_succ_of_lt (h.fresh l hl)
    · rw [DomainTree.id?_congr hadm.generation
        (DomainTree.names_of_bases (DomainTree.bases_of_policies hadm.policies))]
      exact h.settled hp
    · rcases (hmem l).1 hl with rfl | hl
      · rw [Link.origin_opened, Link.client_opened]
        exact ⟨domain, hplace⟩
      · exact h.anchored l hl
  · have hsheds := h.sheds_collision hserver hsource
    rw [Link.natPort_opened, Link.server_opened, Link.client_opened, Link.protocol_opened]
    exact hsheds.good h

end

theorem openLink (h : r.Good) (hd : r.tree.byName? client = some d)
    (hdec : d.decision flow.key = .permitted target) (frame : Waiter)
    (hplace : r.interfaces.place? frame.src = some (client, domain))
    (packet : Wire.Ipv4.Packet) :
    (r.openLink frame client target flow packet).value.router.Good := by
  unfold Router.openLink
  split
  · exact h
  · rename_i server hserver
    split
    · exact h
    · rename_i routerIp hip
      have hresolve := h.sheds_resolve target.domain target.ip frame
      rcases hvalue : (r.resolve target.domain target.ip frame).value with ⟨hop, reaction⟩
      rw [hvalue] at hresolve
      unfold openTowards
      rw [Logged.value_bind, hvalue]
      cases hop with
      | none => exact hresolve.good h
      | some hop =>
        cases hsource : server.linkSource routerIp client flow.key with
        | error e => exact h
        | ok found => exact h.enter hserver hsource hd hdec hip hplace ..

/-- A packet of a link moves nothing but the link's time and state. -/
theorem sheds_follow (h : r.Good) (frame : Waiter) (ref : LinkRef) (flow : PacketFlow)
    (packet : Wire.Ipv4.Packet) : r.Sheds (r.follow frame ref flow packet).value.router := by
  unfold follow
  split
  · exact h.sheds_refl
  · rename_i link hlink
    have hresolve := h.sheds_resolve (link.egress ref.side).domain
      (link.egress ref.side).rewrite.dstIp frame
    rcases hvalue : (r.resolve (link.egress ref.side).domain
      (link.egress ref.side).rewrite.dstIp frame).value with ⟨hop, reaction⟩
    rw [hvalue] at hresolve
    rw [Logged.value_bind, hvalue]
    cases hop with
    | none => exact hresolve
    | some hop =>
      refine (congrArg r.Sheds (router_forward ..)).mpr ?_
      exact h.sheds_of_core (DomainTree.core_update fun d _ =>
        Domain.core_changeLink ref.link _ (fun l => l.core_followed ..) d)

theorem sheds_pass (h : r.Good) (frame : Waiter) (domain : String) (packet : Wire.Ipv4.Packet) :
    r.Sheds (r.pass frame domain packet).value.router := by
  unfold pass
  have hresolve := h.sheds_resolve domain packet.dst frame
  rcases hvalue : (r.resolve domain packet.dst frame).value with ⟨hop, reaction⟩
  rw [hvalue] at hresolve
  rw [Logged.value_bind, hvalue]
  cases hop with
  | none => exact hresolve
  | some hop =>
    refine (congrArg r.Sheds (router_forward ..)).mpr ?_
    exact h.sheds_refl

end Good

end Router

end SegmentRouter
