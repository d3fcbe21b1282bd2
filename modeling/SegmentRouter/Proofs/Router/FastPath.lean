import SegmentRouter.Proofs.Router.Reachable

/-!
# Proofs/Router/FastPath — a link sends its packets where the rules would

The packets of a link are sent on without asking the rules.  Nothing is lost by that: in every state
of a router the rules and addresses of that moment would open the same link again, except that
another port may be drawn for it (`Reachable.upToDate`).
-/

namespace SegmentRouter

open Wire (Protocol)

/-- The source of a new link if a given port is drawn for it, should it need one. -/
def Domain.sourceWith (server : Domain) (routerIp : Ipv4Addr) (client : String) (key : FlowKey)
    (port : UInt16) : LinkSource :=
  if server.translatesFor client then { ip := routerIp, port, natPort := some port }
  else { ip := key.flow.srcIp, port := key.flow.srcPort }

/-- Nothing but the port is drawn. -/
theorem Domain.exists_sourceWith {server taken : Domain} {routerIp : Ipv4Addr} {client : String}
    {key : FlowKey} {source : LinkSource}
    (h : server.linkSource routerIp client key = .ok (source, taken)) :
    ∃ port, source = server.sourceWith routerIp client key port := by
  unfold sourceWith
  rcases linkSource_eq_ok h with ⟨hno, -, rfl⟩ | ⟨hyes, port, -, rfl⟩
  · exact ⟨0, by simp [hno]⟩
  · exact ⟨port, by simp [hyes]⟩

namespace Link

variable {link : Link} {target : LinkTarget} {source : LinkSource}

/-- A packet of the client leaves in one way, also where both ends of the link are the same and the
index has the server's. -/
theorem egress_refAt_client (link : Link) :
    link.egress (link.refAt (link.seat .client)).side = link.egress .client := by
  by_cases hs : link.seat .client = link.seat .server
  · obtain ⟨hdomain, hkey⟩ := Seat.mk.inj hs
    have hflow : link.client.flow = link.server.flow := congrArg FlowKey.flow hkey
    rw [hs, refAt_server]
    change Egress.mk link.client.domain link.client.flow.mirror =
      Egress.mk link.server.domain link.server.flow.mirror
    rw [hflow, show link.client.domain = link.server.domain from hdomain]
  · rw [refAt_of_ne hs]
    rfl

/-- The answers to a link come from its target to its source. -/
theorem answerFlow_eq (hformed : link.Formed) (hserves : target.Serves link)
    (hip : link.server.flow.dstIp = source.ip) (hport : link.server.flow.dstPort = source.port) :
    target.answerFlow link.protocol source = link.server.flow := by
  obtain ⟨-, htargetIp, htargetPort⟩ := hserves
  have hsrcPort : (target.answerFlow link.protocol source).srcPort = link.server.flow.srcPort := by
    cases hp : link.protocol with
    | icmp => exact hport.symm.trans (hformed.echo hp).symm
    | tcp => exact htargetPort.resolve_left (hp ▸ nofun)
    | udp => exact htargetPort.resolve_left (hp ▸ nofun)
  calc target.answerFlow link.protocol source
      = { srcIp := target.ip, srcPort := (target.answerFlow link.protocol source).srcPort,
          dstIp := source.ip, dstPort := source.port } := rfl
    _ = link.server.flow := by rw [hsrcPort, htargetIp, ← hip, ← hport]

/-- **A link that the rules uphold is the one that they would open**, if its port were drawn. -/
theorem egress_opened (hformed : link.Formed) (hserves : target.Serves link) {server : Domain}
    {routerIp : Ipv4Addr} (htr : server.Translates link routerIp) {flow : PacketFlow}
    (hflow : flow.key = link.key .client) (id : Nat) (origin : InterfaceId) (now : Nat) :
    (opened id link.client.domain flow target (server.sourceWith routerIp link.client.domain
      flow.key (link.natPort.getD 0)) origin now).egress .client = link.egress .client := by
  have hanswer : target.answerFlow link.protocol (server.sourceWith routerIp link.client.domain
      flow.key (link.natPort.getD 0)) = link.server.flow := by
    obtain ⟨hnat, hdst⟩ := htr
    rw [Domain.sourceWith, ← hnat]
    cases hport : link.natPort with
    | some port =>
      have hip := hdst (Option.isSome_of_eq_some hport)
      exact answerFlow_eq hformed hserves hip (hformed.translated port hport)
    | none =>
      obtain ⟨hip, hsrcPort⟩ := hformed.plain hport
      rw [hflow]
      exact answerFlow_eq hformed hserves hip hsrcPort
  have hserver := server_opened id link.client.domain flow target
    (server.sourceWith routerIp link.client.domain flow.key (link.natPort.getD 0)) origin now
  rw [show flow.key.protocol = link.protocol from congrArg FlowKey.protocol hflow, hanswer,
    hserves.1] at hserver
  exact congrArg (fun e : Endpoint => Egress.mk e.domain e.flow.mirror) hserver

end Link

namespace DomainTree

/-- A link is as its client's and its server's domain, with the given address, would have it now,
where the client's rules lead to a target. -/
structure UpToDate (tree : DomainTree) (link : Link) (client server : Domain) (routerIp : Ipv4Addr)
    (target : LinkTarget) : Prop where
  clientFound : tree.byName? link.client.domain = some client
  clientConfigured : client.ipConfig.isSome
  serverFound : tree.byName? link.server.domain = some server
  serverConfigured : server.routerIp? = some routerIp
  permitted : client.decision (link.key .client) = .permitted target
  targetDomain : target.domain = link.server.domain
  targetIp : target.ip = link.server.flow.srcIp
  targetPort : link.protocol ≠ .icmp → target.port = link.server.flow.srcPort
  translated : link.natPort.isSome = true ↔ server.translatesFor link.client.domain = true
  masked : ∀ port, link.natPort = some port →
    link.server.flow.dstIp = routerIp ∧ link.server.flow.dstPort = port
  plain : link.natPort = none → link.server.flow.dstIp = link.client.flow.srcIp ∧
    link.server.flow.dstPort = link.client.flow.srcPort
  /-- A packet of the client follows the link to where it would go if it opened a link, with the
  port of this one in place of the one that is drawn. -/
  followed : ∃ ref, client.links.lookup? (link.key .client) = some ref ∧
    tree.ownedLink? ref.owner ref.link = some link ∧
    ∀ (flow : PacketFlow) (id : Nat) (origin : InterfaceId) (now : Nat),
      flow.key = link.key .client →
        (Link.opened id link.client.domain flow target (server.sourceWith routerIp
          link.client.domain flow.key (link.natPort.getD 0)) origin now).egress .client =
            link.egress ref.side
  drawn : ∀ {source taken}, server.linkSource routerIp link.client.domain (link.key .client) =
    .ok (source, taken) →
      ∃ port, source = server.sourceWith routerIp link.client.domain (link.key .client) port

end DomainTree

namespace Router

variable {r : Router} {link : Link}

/-- **In every state of a router its rules would open each live link as it is.** -/
theorem Reachable.upToDate (h : r.Reachable) (hm : link ∈ r.tree.liveLinks) :
    ∃ client server routerIp target, r.tree.UpToDate link client server routerIp target := by
  have hsound := h.good.sound
  have hformed := hsound.formed link hm
  have hup := hsound.upholds link hm
  obtain ⟨d, hd, hconfigured⟩ := hup.isSome_ipConfig .client
  obtain ⟨⟨client, hclient, target, hdec, hserves⟩, server, hserver, routerIp, hip, htr⟩ := hup
  obtain rfl : client = d := Option.some.inj (hclient.symm.trans hd)
  obtain ⟨e, he, hlookup⟩ := Option.bind_eq_some_iff.1
    (hsound.lookup?_of_sitsAt hm (link.sitsAt_seat .client))
  obtain rfl : client = e := Option.some.inj (hclient.symm.trans he)
  refine ⟨client, server, routerIp, target, hclient, hconfigured, hserver, hip, hdec, hserves.1,
    hserves.2.1, fun hne => hserves.2.2.resolve_left hne, by rw [htr.1], fun port hport => ?_,
    hformed.plain, ⟨_, hlookup, hsound.ownedLink?_of_mem hm, ?_⟩, Domain.exists_sourceWith⟩
  · exact ⟨htr.2 (Option.isSome_of_eq_some hport), hformed.translated port hport⟩
  · intro flow id origin now hflow
    rw [link.egress_refAt_client]
    exact Link.egress_opened hformed hserves htr hflow id origin now

/-- The rules still lead a ping to its host. -/
theorem upToDate_ping : Ping.router.Reachable ∧ Ping.link ∈ Ping.router.tree.liveLinks ∧
    ∃ client server routerIp target,
      Ping.router.tree.UpToDate Ping.link client server routerIp target :=
  ⟨Ping.reachable_router, Ping.mem_router, Ping.reachable_router.upToDate Ping.mem_router⟩

end Router

end SegmentRouter
