import SegmentRouter.Proofs.Router.Opening
import SegmentRouter.Router.Receive

/-!
# Proofs/Router/Traffic — handling frames and DHCP keeps a router good

Of all that a frame may cause, only a verdict that opens a link adds one, and it is given only where
the rules of the frame's own domain permit it (`decision_of_verdict`).  Everything else learns,
answers, counts, or ends links.
-/

namespace SegmentRouter

/-! ## Verdicts -/

namespace Domain

variable {d : Domain} {p packet : Wire.Ipv4.Packet} {target : LinkTarget} {flow : PacketFlow}

theorem dhcpVerdict?_ne_openLink : d.dhcpVerdict? p ≠ some (.openLink target flow packet) := by
  unfold dhcpVerdict?
  intro h
  split at h
  · split at h
    · cases h
    · split at h
      · cases h
      · split at h <;> cases h
  · cases h

theorem addressVerdict_ne_openLink : d.addressVerdict p ≠ .openLink target flow packet := by
  unfold addressVerdict
  intro h
  split at h <;> cases h

/-- **A link is opened only where the rules permit its flow.** -/
theorem decision_of_verdict (h : d.verdict p = .openLink target flow packet) :
    d.decision flow.key = .permitted target := by
  unfold verdict at h
  cases hdhcp : d.dhcpVerdict? p with
  | some verdict =>
    rw [hdhcp, Option.getD_some] at h
    exact absurd (hdhcp.trans (congrArg some h)) dhcpVerdict?_ne_openLink
  | none =>
    rw [hdhcp, Option.getD_none, hostVerdict] at h
    split at h
    · cases h
    · split at h
      · cases h
      · split at h
        · cases h
        · unfold transitVerdict at h
          split at h
          · exact absurd h addressVerdict_ne_openLink
          · split at h
            · cases h
            · unfold portVerdict at h
              split at h
              · split at h
                · rename_i hdec
                  obtain ⟨rfl, rfl, rfl⟩ := Verdict.openLink.inj h
                  exact hdec
                · cases h
                · exact absurd h addressVerdict_ne_openLink
              · exact absurd h addressVerdict_ne_openLink

end Domain

namespace Router

variable {r : Router}

/-! ## Answers of the router -/

theorem router_echo (r : Router) (interface : InterfaceId) (mac : Mac)
    (request : Wire.Ipv4.Packet) : (r.echo interface mac request).value.router = r := by
  unfold echo
  split <;> rfl

theorem router_answerUnreachable (r : Router) (interface : InterfaceId) (mac : Mac)
    (routerIp : Ipv4Addr) (packet : Wire.Ipv4.Packet) :
    (r.answerUnreachable interface mac routerIp packet).router = r := by
  unfold answerUnreachable
  split <;> rfl

/-- What comes of a packet that no rule covers. -/
theorem value_refuse (r : Router) (interface : InterfaceId) (mac : Mac) (d : Domain)
    (reason : Refusal) (packet : Wire.Ipv4.Packet) :
    (r.refuse interface mac d reason packet).value = match d.routerIp? with
      | some routerIp => r.answerUnreachable interface mac routerIp packet
      | none => r.sending [] := by
  unfold refuse
  cases reason <;> cases d.routerIp? <;> rfl

theorem router_refuse (r : Router) (interface : InterfaceId) (mac : Mac) (d : Domain)
    (reason : Refusal) (packet : Wire.Ipv4.Packet) :
    (r.refuse interface mac d reason packet).value.router = r := by
  rw [value_refuse]
  split
  · exact router_answerUnreachable ..
  · rfl

namespace Good

variable (h : r.Good)

include h

/-! ## DHCP -/

theorem sheds_serveDhcp (interface : InterfaceId) (id : DomainId) (d : Domain)
    (payload : Wire.Bytes) (now : Nat) :
    r.Sheds (r.serveDhcp interface id d payload now).value.router := by
  unfold serveDhcp
  split
  · exact h.sheds_refl
  · rename_i request hparse
    split
    · rename_i server params hserver hparams
      rcases hvalue : (server.handle request params now).value with ⟨answer, server'⟩
      rw [Logged.value_bind, hvalue]
      have hserved : r.Sheds (r.withTree (r.tree.updateAt id (·.withDhcpServer server'))) :=
        h.sheds_of_core (DomainTree.core_updateAt fun _ => rfl)
      cases answer with
      | none => exact hserved
      | some answer => exact hserved
    · exact h.sheds_refl

theorem sheds_configure (interface : InterfaceId) (id : DomainId) (config : Option IpConfig) :
    r.Sheds (r.configure interface id config).value.router := by
  unfold configure
  rw [Logged.value_bind]
  cases hset : (r.tree.setIpConfig id config).value with
  | ok tree => exact .withTree (h.sound.sheds_setIpConfig hset)
  | error e => exact h.sheds_refl

theorem sheds_carryOut (interface : InterfaceId) (action : DhcpAction) :
    r.Sheds (r.carryOut interface action).value.router := by
  unfold carryOut
  split
  · exact h.sheds_refl
  · cases action with
    | configure config => exact h.sheds_configure ..
    | deconfigure => exact h.sheds_configure ..
    | none => exact h.sheds_refl
    | broadcast message => exact h.sheds_refl
    | unicast message server => exact h.sheds_refl

theorem sheds_withClient (interface : InterfaceId) (client : DhcpClient) :
    r.Sheds (r.withClient interface client) :=
  ⟨.refl h.sound, rfl, r.interfaces.place?_modify interface (fun _ => rfl) fun _ => rfl⟩

theorem sheds_consumeDhcp (interface : InterfaceId) (payload : Wire.Bytes) (now : Nat) :
    r.Sheds (r.consumeDhcp interface payload now).value.router := by
  unfold consumeDhcp
  split
  · exact h.sheds_refl
  · rename_i message hparse
    split
    · exact h.sheds_refl
    · rename_i client hclient
      rcases hvalue : (client.handle message r.nextXid now).value with ⟨action, client'⟩
      rw [Logged.value_bind, hvalue]
      have hfirst := h.sheds_withClient interface client'
      exact hfirst.trans ((hfirst.good h).sheds_carryOut interface action)

theorem sheds_tickClient (interface : InterfaceId) (now : Nat) :
    r.Sheds (r.tickClient interface now).value.router := by
  unfold tickClient
  split
  · exact h.sheds_refl
  · rename_i client hclient
    rcases hvalue : (client.tick r.nextXid now).value with ⟨action, client'⟩
    rw [Logged.value_bind, hvalue]
    have hfirst := h.sheds_withClient interface client'
    exact hfirst.trans ((hfirst.good h).sheds_carryOut interface action)

theorem sheds_tickClients (now : Nat) (interfaces : List InterfaceId) :
    r.Sheds (tickClients now interfaces r).value.router := by
  induction interfaces generalizing r with
  | nil => exact h.sheds_refl
  | cons interface rest ih =>
    have hfirst := h.sheds_tickClient interface now
    exact hfirst.trans (ih (hfirst.good h))

omit h in
theorem core_maintainServers (now : Nat) (domains : List Domain) :
    (maintainServers now domains).value.map Domain.core = domains.map Domain.core := by
  induction domains with
  | nil => rfl
  | cons d rest ih =>
    unfold maintainServers
    cases d.dhcpServer with
    | none => exact congrArg (d.core :: ·) ih
    | some server => exact congrArg (d.core :: ·) ih

theorem sheds_maintainDhcp (now : Nat) : r.Sheds (r.maintainDhcp now).value.router := by
  have hservers : r.Sheds (r.withTree
      { r.tree with domains := (maintainServers now r.tree.domains).value }) := by
    refine h.sheds_of_core ?_
    rw [DomainTree.core, DomainTree.core, core_maintainServers]
  exact hservers.trans ((hservers.good h).sheds_tickClients now r.interfaces.ids)

/-! ## Frames -/

theorem sheds_handleArp (interface : InterfaceId) (id : DomainId) (d : Domain)
    (payload : Wire.Bytes) (now : Nat) :
    r.Sheds (r.handleArp interface id d payload now).value.router := by
  unfold handleArp
  split
  · exact h.sheds_refl
  · split
    · exact h.sheds_refl
    · exact h.sheds_of_core (DomainTree.core_updateAt fun _ => rfl)

section

variable {frame : Waiter} {id : DomainId} {d : Domain} (hid : r.domainId? frame.src = some id)
  (hd : r.tree.get? id = some d)

include hid hd

/-- **Carrying a verdict out keeps a router good**, whatever the verdict on the packet is. -/
theorem carryOutVerdict (mac : Mac) (p : Wire.Ipv4.Packet) :
    (r.carryOutVerdict frame id d mac p (d.verdict p)).value.router.Good := by
  obtain ⟨hby, hplace⟩ := h.byName?_of_domainId? hid hd
  cases hverdict : d.verdict p with
  | drop reason => cases reason <;> exact h
  | toDhcpClient message => exact (h.sheds_consumeDhcp ..).good h
  | toDhcpServer message => exact (h.sheds_serveDhcp ..).good h
  | echo => exact (congrArg Good (router_echo r frame.src mac p)).mpr h
  | follow ref flow packet => exact (h.sheds_follow ..).good h
  | openLink target flow packet =>
    exact h.openLink hby (Domain.decision_of_verdict hverdict) frame hplace packet
  | pass domain packet => exact (h.sheds_pass ..).good h
  | refuse reason packet =>
    exact (congrArg Good (router_refuse r frame.src mac d reason packet)).mpr h

theorem handleFrame : (r.handleFrame frame id d).value.router.Good := by
  unfold Router.handleFrame
  split
  · exact h
  · rename_i f hparse
    split
    · split
      · exact (h.sheds_handleArp ..).good h
      · unfold handleIpv4
        split
        · exact h
        · split
          · exact h.carryOutVerdict hid hd f.src _
          · exact h
      · exact h
    · exact h

end

theorem process (frame : Waiter) : (r.process frame).value.router.Good := by
  unfold Router.process
  split
  · exact h
  · rename_i id hid
    split
    · exact h
    · rename_i d hd
      exact h.handleFrame hid hd

theorem replay (now : Nat) (waiters : List Waiter) :
    (Router.replay now waiters r).value.router.Good := by
  induction waiters generalizing r with
  | nil => exact h
  | cons w rest ih => exact ih (h.process { w with queued := now })

theorem replayAll (now rounds : Nat) (released : List Waiter) :
    (Router.replayAll now rounds released r).value.router.Good := by
  induction rounds generalizing r released with
  | zero =>
    unfold Router.replayAll
    exact h
  | succ rounds ih =>
    cases released with
    | nil =>
      unfold Router.replayAll
      exact h
    | cons w rest => exact ih (h.replay now (w :: rest)) _

theorem sheds_countArrival (interface : InterfaceId) (n : Nat) :
    r.Sheds (r.countArrival interface n) := by
  unfold countArrival
  split
  · exact h.sheds_countReceived interface n
  · exact h.sheds_refl

/-- **Handling a frame, and all that it sets free, keeps a router good.** -/
theorem receive (interface : InterfaceId) (frame : Wire.Bytes) (now : Nat) :
    (r.receive interface frame now).value.2.Good := by
  have hcounted := (h.sheds_countArrival interface frame.length).good h
  exact ((hcounted.process _).replayAll now _ _).countAllSent _

end Good

end Router

end SegmentRouter
