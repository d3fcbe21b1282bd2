import SegmentRouter.Proofs.Router.History
import SegmentRouter.Proofs.Router.Traces
import SegmentRouter.Proofs.Tree.Resupply

/-!
# Proofs/Router/Persistence — a link that stays is as it was

Only packets that go over a link change what the link remembers.  Whatever else happens, links end
at most, and those that stay have their times and states (`Router.Culls`); a configuration that
replaces another one hands them over as they are.
-/

namespace SegmentRouter

namespace DomainTree

variable {tree tree' : DomainTree} {config : Option IpConfig}

theorem liveLinks_of_traces (h : tree'.traces = tree.traces) : tree'.liveLinks = tree.liveLinks := by
  have hmap : ∀ t : DomainTree, t.liveLinks = t.traces.flatMap (·.links.owned.values) := fun t => by
    rw [liveLinks, traces, List.flatMap_map]
    rfl
  rw [hmap, h, ← hmap]

/-- New addresses end links at most. -/
theorem liveLinks_setIpConfig (h : tree.Sound) {id : DomainId}
    (hset : (tree.setIpConfig id config).value = .ok tree') :
    tree'.liveLinks ⊆ tree.liveLinks := by
  obtain ⟨d, -, -, rfl⟩ := setIpConfig_eq_ok hset
  obtain ⟨changed, hcompletes⟩ := tree.exists_completes d.name config
  exact fun link hm => (((hcompletes.strips h).mem link).1 hm).1

theorem Dismisses.subset {gone : Link → Prop} (h : tree.Dismisses gone tree') :
    tree'.liveLinks ⊆ tree.liveLinks :=
  fun link hm => ((h.mem link).1 hm).1

end DomainTree

namespace Router

variable {r r' r'' : Router} {interface : InterfaceId} {now : Nat}

/-- **Links end at most**, and those that stay are as they were. -/
structure Culls (r r' : Router) : Prop where
  live : r'.tree.liveLinks ⊆ r.tree.liveLinks
  nextLink : r'.nextLink = r.nextLink

namespace Culls

theorem refl (r : Router) : r.Culls r :=
  ⟨List.Subset.refl _, rfl⟩

theorem trans (h : r.Culls r') (h' : r'.Culls r'') : r.Culls r'' :=
  ⟨List.Subset.trans h'.live h.live, h'.nextLink.trans h.nextLink⟩

theorem withTree {tree : DomainTree} (h : tree.liveLinks ⊆ r.tree.liveLinks) :
    r.Culls (r.withTree tree) :=
  ⟨h, rfl⟩

/-- What leaves no trace leaves all links. -/
theorem of_trace (h : r'.trace = r.trace) : r.Culls r' where
  live link hm := by
    have hlive := DomainTree.liveLinks_of_traces (congrArg Trace.domains h :)
    rwa [hlive] at hm
  nextLink := (congrArg Trace.nextLink h :)

end Culls

/-! ## Addresses -/

theorem Good.culls_carryOut (h : r.Good) (interface : InterfaceId) (action : DhcpAction) :
    r.Culls (r.carryOut interface action).value.router := by
  rcases r.carryOut_cases interface action with hkept | ⟨id, config, tree, -, -, hset, hvalue⟩
  · rw [hkept]
    exact .refl r
  · rw [hvalue]
    exact .withTree (DomainTree.liveLinks_setIpConfig h.sound hset)

/-- Whatever a client does, links end at most. -/
theorem Good.culls_instructed (h : r.Good) (interface : InterfaceId) (client : DhcpClient)
    (action : DhcpAction) :
    r.Culls ((r.withClient interface client).carryOut interface action).value.router :=
  have hclient : (r.withClient interface client).Good := (h.sheds_withClient interface client).good h
  have hquiet : r.Culls (r.withClient interface client) := .of_trace rfl
  hquiet.trans (hclient.culls_carryOut ..)

theorem Good.culls_consumeDhcp (h : r.Good) (interface : InterfaceId) (payload : Wire.Bytes)
    (now : Nat) : r.Culls (r.consumeDhcp interface payload now).value.router := by
  unfold consumeDhcp
  split
  · exact .refl r
  · split
    · exact .refl r
    · exact h.culls_instructed ..

theorem Good.culls_tickClient (h : r.Good) (interface : InterfaceId) (now : Nat) :
    r.Culls (r.tickClient interface now).value.router := by
  unfold tickClient
  split
  · exact .refl r
  · exact h.culls_instructed ..

theorem Arises.culls_tickClients (h : r.Arises) (now : Nat) (interfaces : List InterfaceId) :
    r.Culls (tickClients now interfaces r).value.router := by
  induction interfaces generalizing r with
  | nil => exact .refl r
  | cons interface rest ih =>
    exact (h.good.culls_tickClient interface now).trans
      (ih (h.moves (r.moves_tickClient interface now)))

theorem traces_maintainServers (now : Nat) (domains : List Domain) :
    (maintainServers now domains).value.map Domain.trace = domains.map Domain.trace := by
  induction domains with
  | nil => rfl
  | cons d rest ih =>
    unfold maintainServers
    cases d.dhcpServer with
    | none => exact congrArg (d.trace :: ·) ih
    | some server => exact congrArg (d.trace :: ·) ih

theorem Arises.culls_maintainDhcp (h : r.Arises) (now : Nat) :
    r.Culls (r.maintainDhcp now).value.router := by
  have hservers : r.Culls
      (r.withTree { r.tree with domains := (maintainServers now r.tree.domains).value }) :=
    .of_trace (trace_withTree (traces_maintainServers now r.tree.domains))
  exact hservers.trans ((h.move (.maintained now)).culls_tickClients now _)

/-! ## Packets that no link sends on -/

theorem trace_pass {frame : Waiter} (r : Router) (domain : String) (packet : Wire.Ipv4.Packet) :
    (r.pass frame domain packet).value.router.trace = r.trace := by
  unfold pass
  refine trace_resolve_bind (fun _ => rfl) fun d hop hd hroute => ?_
  exact congrArg Router.trace (router_forward ..)

theorem trace_serveDhcp (r : Router) (interface : InterfaceId) (id : DomainId) (d : Domain)
    (payload : Wire.Bytes) (now : Nat) :
    (r.serveDhcp interface id d payload now).value.router.trace = r.trace := by
  unfold serveDhcp
  split
  · rfl
  · rename_i request hparse
    split
    · rename_i server params hserver hparams
      have hserved : ∀ s : DhcpServer,
          (r.withTree (r.tree.updateAt id (·.withDhcpServer s))).trace = r.trace := fun s =>
        trace_withTree (DomainTree.traces_updateAt fun _ => rfl)
      rcases hvalue : (server.handle request params now).value with ⟨answer, server'⟩
      rw [Logged.value_bind, hvalue]
      cases answer with
      | none => exact hserved server'
      | some answer => exact hserved server'
    · rfl

/-- **A frame whose packet no link is to send on** ends links at most. -/
theorem Good.culls_process (h : r.Good) (frame : Waiter)
    (hfree : ∀ {id d f p}, r.Arrives frame id d f p → ¬ (d.verdict p).IsLinked) :
    r.Culls (r.process frame).value.router := by
  have hhandles := r.handles_process frame
  generalize (r.process frame).value = x at hhandles ⊢
  cases hhandles with
  | ignored => exact .refl r
  | heard => exact .of_trace (trace_withTree (DomainTree.traces_updateAt fun _ => rfl))
  | @carried id d f p ha =>
    have hfree := hfree ha
    generalize d.verdict p = verdict at hfree ⊢
    cases verdict with
    | drop reason => cases reason <;> exact .refl r
    | toDhcpClient message => exact h.culls_consumeDhcp ..
    | toDhcpServer message => exact .of_trace (r.trace_serveDhcp ..)
    | echo => exact .of_trace (congrArg Router.trace (r.router_echo ..))
    | follow => exact absurd trivial hfree
    | openLink => exact absurd trivial hfree
    | pass domain packet => exact .of_trace (r.trace_pass ..)
    | refuse reason packet => exact .of_trace (congrArg Router.trace (r.router_refuse ..))

/-! ## Interfaces, timers and configurations -/

theorem culls_countArrival (r : Router) (interface : InterfaceId) (n : Nat) :
    r.Culls (r.countArrival interface n) :=
  .of_trace (r.trace_countArrival interface n)

theorem Good.culls_attach (h : r.Good) (domain : String) :
    r.Culls (r.attach domain).value.2 where
  live := fun link hm => ((h.binds_attach domain).mem_liveLinks link).1 hm
  nextLink := (h.binds_attach domain).nextLink

/-- An interface takes the links with it that it opened. -/
theorem Good.culls_left (h : r.Good) (interface : InterfaceId) (id : DomainId) :
    (r.left interface id).tree.Sound ∧ r.Culls (r.left interface id) := by
  obtain ⟨tree, hvalue, hdis⟩ := release_spec (r := r.cleared interface) h.sound interface
  have hcore : (tree.updateAt id (·.removeInterface interface)).core = tree.core :=
    DomainTree.core_updateAt fun _ => rfl
  have hlive : (tree.updateAt id (·.removeInterface interface)).liveLinks = tree.liveLinks :=
    DomainTree.liveLinks_of_traces (DomainTree.traces_updateAt fun _ => rfl)
  unfold left
  rw [hvalue]
  exact ⟨hdis.sound.of_core hcore, fun link hm => hdis.subset (hlive ▸ hm), rfl⟩

theorem Good.culls_detach (h : r.Good) (hr : (r.detach interface).value = .ok r') :
    r.Culls r' := by
  have hunbinds := h.unbinds_unbind interface
  have hunbinding := r.unbinding_unbind interface
  obtain ⟨interfaces, rfl, -⟩ := detach_eq_ok hr
  refine ⟨?_, hunbinds.nextLink⟩
  dsimp only
  generalize (r.unbind interface).value = unbound at hunbinding
  cases hunbinding with
  | outside => exact List.Subset.refl _
  | @inside id => exact (h.culls_left interface id).2.live
  | @orphaned id d tree hid hd hdhcp hset =>
    obtain ⟨hsound, hculls⟩ := h.culls_left interface id
    exact List.Subset.trans (DomainTree.liveLinks_setIpConfig hsound hset) hculls.live

theorem Good.culls_apply (h : r.Good) (config : Config) : r.Culls (r.apply config).value.2 := by
  cases hvalid : config.validate.hasErrors with
  | false =>
    rw [r.apply_of_valid hvalid]
    exact ⟨fun link hm => ((h.mem_liveLinks_adopt hvalid link).1 hm).1,
      (h.binds_adopt hvalid).nextLink⟩
  | true =>
    obtain ⟨e, faults, hvalue⟩ := r.apply_of_invalid hvalid
    rw [hvalue]
    exact .of_trace rfl

theorem traces_expireArp (now requestTimeout entryLifetime : Nat) (domains : List Domain) :
    (expireArp now requestTimeout entryLifetime domains).value.map Domain.trace =
      domains.map Domain.trace := by
  induction domains with
  | nil => rfl
  | cons d rest ih => exact congrArg (d.trace :: ·) ih

theorem Arises.culls_handleTimer (h : r.Arises) (now : Nat) (kind : Timer) :
    r.Culls (r.handleTimer now kind).value.2 := by
  cases kind with
  | linkAging => exact .withTree (h.good.sound.dismisses_ageLinks now _).subset
  | arpExpiry => exact .of_trace (trace_withTree (traces_expireArp ..))
  | dhcp => exact (h.culls_maintainDhcp now).trans (.of_trace (trace_countAllSent ..))
  | report => exact .refl r

end Router

end SegmentRouter
