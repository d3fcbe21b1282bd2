import SegmentRouter.Proofs.Router.Forwarding

/-!
# Proofs/Router/Traces — a packet that is not sent on leaves no trace

The trace of a router is what the packets that it sent on have left behind: its links, their times
and states, the ports that are taken and in whose shares they count.  A packet of a link, or one that
is to open a link, may fail to go on for a few reasons (`Router.Stalls`), before a port is taken for
it, when none is left, or after that, when a seat of the link is not free.  None of them shows in the
trace (`Reachable.trace_of_stalls`); only where the search for the next free port begins may tell of
it.
-/

namespace SegmentRouter

open Wire.Ipv4 (Packet)

/-- Whether a packet is sent on by a link, which may be a new one. -/
def Verdict.IsLinked : Verdict → Prop
  | .follow .. | .openLink .. => True
  | .drop _ | .toDhcpClient _ | .toDhcpServer _ | .echo | .pass .. | .refuse .. => False

theorem Verdict.IsLinked.isTransit {v : Verdict} (h : v.IsLinked) : v.IsTransit := by
  cases v <;> trivial

/-! ## Traces -/

/-- What packets that were sent on leave behind in a domain. -/
structure Domain.Trace where
  name : String
  /-- The links with all that is known of them, and every end by its flow. -/
  links : LinkTable
  /-- How many ports each client may have, and how many it has. -/
  shares : SortedMap String Rule.Masquerade
  /-- The bits of the ports that are taken. -/
  taken : Rule.PerProtocol Nat
  inUse : Rule.PerProtocol Nat
deriving DecidableEq

/-- What packets that were sent on leave behind in a router. -/
structure Router.Trace where
  nextLink : Nat
  domains : List Domain.Trace
deriving DecidableEq

namespace Domain

/-- The trace in a domain. -/
def trace (d : Domain) : Trace where
  name := d.name
  links := d.links
  shares := d.nat
  taken := d.pools.map (·.taken)
  inUse := d.pools.map (·.inUse)

/-- What leaves the core of a domain and its links leaves its trace. -/
theorem trace_of_core {d d' : Domain} (hcore : d'.core = d.core) (hlinks : d'.links = d.links) :
    d'.trace = d.trace := by
  have hname : d'.name = d.name := (congrArg name hcore :)
  have hshares : d'.nat = d.nat := (congrArg nat hcore :)
  have hpools : d'.pools.map Port.Pool.core = d.pools.map Port.Pool.core :=
    (congrArg pools hcore :)
  have htaken : d'.pools.map (·.taken) = d.pools.map (·.taken) :=
    (congrArg (Rule.PerProtocol.map Port.Pool.taken) hpools :)
  have hinUse : d'.pools.map (·.inUse) = d.pools.map (·.inUse) :=
    (congrArg (Rule.PerProtocol.map Port.Pool.inUse) hpools :)
  rw [trace, trace, hname, hlinks, hshares, htaken, hinUse]

/-- **A port that is taken and given back leaves no trace.** -/
theorem trace_freePort_allocPort {d taken : Domain} {client : String} {p : Wire.Protocol}
    {port : UInt16} (hnext : (d.pools.get p).next < Port.portCount)
    (h : d.allocPort client p = .ok (port, taken)) :
    (taken.freePort client p port).trace = d.trace := by
  refine trace_of_core (core_freePort_allocPort hnext h) ?_
  rw [links_freePort, (grants_allocPort hnext h).links_eq]

end Domain

namespace DomainTree

variable {tree : DomainTree} {name : String} {f : Domain → Domain}

/-- The traces in all domains. -/
def traces (tree : DomainTree) : List Domain.Trace :=
  tree.domains.map Domain.trace

theorem traces_update (hf : ∀ d, tree.byName? name = some d → (f d).trace = d.trace) :
    (tree.update name f).traces = tree.traces :=
  map_changeByName hf

theorem traces_updateAt {id : DomainId} (hf : ∀ d, (f d).trace = d.trace) :
    (tree.updateAt id f).traces = tree.traces := by
  unfold updateAt
  split
  · rw [traces, traces, map_modify hf]
  · rfl

/-- **A link is not entered exactly if there is no room for one of its ends**: the domain is not
there, or another link has the flow. -/
theorem insertLink?_eq_none {link : Link} : tree.insertLink? link = none ↔
    ∃ s, tree.byName? (link.side s).domain = none ∨ (tree.lookup? (link.seat s)).isSome := by
  rw [Option.eq_none_iff_forall_ne_some]
  constructor
  · intro hnone
    by_contra hroom
    refine hnone _ (insertLink?_eq_some.2 ⟨fun s => ?_, rfl⟩)
    refine ⟨Option.isSome_iff_ne_none.2 fun hs => hroom ⟨s, .inl hs⟩, ?_⟩
    exact Option.not_isSome_iff_eq_none.1 fun hs => hroom ⟨s, .inr hs⟩
  · rintro ⟨s, hs⟩ tree' hins
    obtain ⟨hthere, hfree⟩ := (insertLink?_eq_some.1 hins).1 s
    rcases hs with hs | hs
    · rw [hs] at hthere
      cases hthere
    · rw [hfree] at hs
      cases hs

end DomainTree

namespace Router

variable {r : Router} {frame : Waiter} {id : DomainId} {d : Domain} {f : Wire.Ethernet.Frame}
  {p : Packet} {verdict : Verdict} {name client : String} {dst : Ipv4Addr}

/-- The trace of a router. -/
def trace (r : Router) : Trace where
  nextLink := r.nextLink
  domains := r.tree.traces

theorem trace_withTree {tree : DomainTree} (h : tree.traces = r.tree.traces) :
    (r.withTree tree).trace = r.trace := by
  rw [trace, trace, tree_withTree, h]
  rfl

theorem trace_change (r : Router) (id : InterfaceId) {f : Interface → Interface}
    {g : Domain → Domain} (hg : ∀ d, (g d).trace = d.trace) : (r.change id f g).trace = r.trace := by
  unfold change
  split
  · rfl
  · rename_i i hi
    rw [trace, trace]
    dsimp only
    split
    · rw [DomainTree.traces_updateAt hg]
    · rfl

theorem trace_countArrival (r : Router) (interface : InterfaceId) (n : Nat) :
    (r.countArrival interface n).trace = r.trace := by
  unfold countArrival
  split
  · exact r.trace_change interface fun _ => rfl
  · rfl

theorem trace_countAllSent (sent : List Transmit) (r : Router) :
    (r.countAllSent sent).trace = r.trace := by
  induction sent generalizing r with
  | nil => rfl
  | cons t rest ih => exact (ih (r.countSent t)).trans (r.trace_change t.interface fun _ => rfl)

/-! ## Packets that are not sent on -/

/-- Where a packet that is sent on by a link is to go: a domain and an address there. -/
def wayOut? (r : Router) : Verdict → Option (String × Ipv4Addr)
  | .follow ref _ _ => (r.tree.ownedLink? ref.owner ref.link).map fun link =>
      ((link.egress ref.side).domain, (link.egress ref.side).rewrite.dstIp)
  | .openLink target _ _ => some (target.domain, target.ip)
  | .drop _ | .toDhcpClient _ | .toDhcpServer _ | .echo | .pass .. | .refuse .. => none

/-- Why there is no next hop on the way to an address in a domain. -/
inductive Wayless (r : Router) (name : String) (dst : Ipv4Addr) : Prop
  /-- The domain is not there or has no addresses. -/
  | unconfigured (h : r.tree.routerIp? name = none)
  /-- The address is outside the subnet and there is no gateway. -/
  | noGateway {d : Domain} (hd : r.tree.byName? name = some d) (h : d.route dst = .noGateway)
  /-- Where the next hop is has to be asked for: the frame waits, or is dropped if too many do. -/
  | unresolved {d : Domain} {hop : Ipv4Addr} (hd : r.tree.byName? name = some d)
      (h : d.route dst = .unresolved hop)

/-- **Why a packet that came from a domain is not sent on by a link.** -/
inductive Stalls (r : Router) (frame : Waiter) (client : String) : Verdict → Prop
  | wayless {verdict : Verdict} {name : String} {dst : Ipv4Addr}
      (hout : r.wayOut? verdict = some (name, dst)) (h : r.Wayless name dst) :
      Stalls r frame client verdict
  /-- The client's share of ports is used up, or all ports are taken. -/
  | exhausted {target : LinkTarget} {flow : PacketFlow} {packet : Packet} {server : Domain}
      {routerIp : Ipv4Addr} {e : Error} (hserver : r.tree.byName? target.domain = some server)
      (hip : server.routerIp? = some routerIp)
      (h : server.linkSource routerIp client flow.key = .error e) :
      Stalls r frame client (.openLink target flow packet)
  /-- Another link has a seat of the one that was to be opened. -/
  | seated {target : LinkTarget} {flow : PacketFlow} {packet : Packet} {server taken : Domain}
      {routerIp : Ipv4Addr} {source : LinkSource} {s : Side}
      (hserver : r.tree.byName? target.domain = some server)
      (hip : server.routerIp? = some routerIp)
      (hsource : server.linkSource routerIp client flow.key = .ok (source, taken))
      (h : (r.tree.lookup? ((Link.opened r.nextLink client flow target source frame.src
        frame.queued).seat s)).isSome) :
      Stalls r frame client (.openLink target flow packet)

/-- Packets leave for a next hop, in a domain where the verdict on a packet sends it. -/
def GoesOn (r : Router) (verdict : Verdict) (sent : List Transmit) : Prop :=
  ∃ name dst d hop packet, r.wayOut? verdict = some (name, dst) ∧ r.tree.byName? name = some d ∧
    d.route dst = .known hop ∧
    sent = through (d.outlets hop) (r.frameOf hop.mac (packet : Packet).bytes)

/-- **A way ends at a next hop, or there is a reason why not.** -/
theorem wayless_iff : r.Wayless name dst ↔
    ∀ d hop, r.tree.byName? name = some d → d.route dst ≠ .known hop := by
  constructor
  · rintro (h | ⟨hd, h⟩ | ⟨hd, h⟩) e hop he hroute
    · rw [DomainTree.routerIp?, he, Option.bind_some, Domain.routerIp?,
        Option.map_eq_none_iff] at h
      rw [Domain.route, h] at hroute
      cases hroute
    · obtain rfl := Option.some.inj (hd.symm.trans he)
      cases h.symm.trans hroute
    · obtain rfl := Option.some.inj (hd.symm.trans he)
      cases h.symm.trans hroute
  · intro h
    cases hd : r.tree.byName? name with
    | none => exact .unconfigured (by rw [DomainTree.routerIp?, hd, Option.bind_none])
    | some d =>
      cases hroute : d.route dst with
      | unconfigured =>
        refine .unconfigured ?_
        rw [DomainTree.routerIp?, hd, Option.bind_some, Domain.routerIp?, Option.map_eq_none_iff]
        unfold Domain.route at hroute
        split at hroute
        · assumption
        · split at hroute
          · cases hroute
          · split at hroute
            · cases hroute
            · split at hroute <;> cases hroute
      | noGateway => exact .noGateway hd hroute
      | unresolved hop => exact .unresolved hd hroute
      | known hop => exact absurd hroute (h d hop hd)

/-- **What depends on a way leaves no trace if it leaves none once the next hop is known.** -/
theorem trace_resolve_bind {k : Option NextHop × Reaction → Logged Reaction}
    (hk : ∀ x, k (none, x) = pure x)
    (hknown : ∀ d hop, r.tree.byName? name = some d → d.route dst = .known hop →
      (k (some hop, r.sending [])).value.router.trace = r.trace) :
    (r.resolve name dst frame >>= k).value.router.trace = r.trace := by
  rw [Logged.value_bind]
  rcases r.resolve_cases name dst frame with hvalue | ⟨e, hop, he, hroute, hvalue⟩ |
    ⟨e, hop, he, hroute, hvalue⟩
  · rw [hvalue, hk]
    rfl
  · rw [hvalue, hk, Logged.value_pure, router_park]
    refine trace_withTree (DomainTree.traces_update fun _ _ => rfl)
  · rw [hvalue]
    exact hknown e hop he hroute

section

variable {target : LinkTarget} {flow : PacketFlow} {server taken : Domain} {routerIp : Ipv4Addr}
  {source : LinkSource} (hgood : r.Good) (hserver : r.tree.byName? target.domain = some server)
  (hsource : server.linkSource routerIp client flow.key = .ok (source, taken))

include hgood hserver hsource

/-- **A link cannot be opened exactly if another link has one of its seats**, whether or not a port
was taken for it before. -/
theorem insertLink?_opened_eq_none (hclient : (r.tree.byName? client).isSome) (origin : InterfaceId)
    (now : Nat) :
    (r.tree.update target.domain fun _ => taken).insertLink?
        (.opened r.nextLink client flow target source origin now) = none ↔
      ∃ s, (r.tree.lookup?
        ((Link.opened r.nextLink client flow target source origin now).seat s)).isSome := by
  have htakes : server.TakesPort (.opened r.nextLink client flow target source origin now) taken :=
    DomainTree.takesPort_opened (hgood.sound.accounts hserver) hsource ..
  have hname : taken.name = target.domain :=
    (Domain.name_of_unlinked (Domain.unlinked_linkSource hsource)).trans
      (DomainTree.name_of_byName? hserver)
  have hlookup : ∀ seat, (r.tree.update target.domain fun _ => taken).lookup? seat =
      r.tree.lookup? seat := fun seat =>
    DomainTree.lookup?_update_eq (fun _ _ => hname)
      (fun e he => Option.some.inj (he.symm.trans hserver) ▸ htakes.links_eq) seat
  have hthere : ∀ s, ((r.tree.update target.domain fun _ => taken).byName?
      ((Link.opened r.nextLink client flow target source origin now).side s).domain).isSome := by
    intro s
    rw [DomainTree.isSome_byName?_update fun _ _ => hname]
    cases s with
    | client => rwa [Link.side, Link.client_opened]
    | server => rw [Link.side, Link.server_opened, hserver, Option.isSome_some]
  rw [DomainTree.insertLink?_eq_none]
  refine exists_congr fun s => ?_
  rw [hlookup]
  exact or_iff_right (Option.isSome_iff_ne_none.1 (hthere s))

/-- A link for which a port was taken gives the port back if it cannot be entered. -/
theorem trace_enter {origin : InterfaceId} {now : Nat}
    (hnone : (r.tree.update target.domain fun _ => taken).insertLink?
      (.opened r.nextLink client flow target source origin now) = none) (hop : NextHop)
    (packet : Packet) :
    ((r.withTree (r.tree.update target.domain fun _ => taken)).enter
      (.opened r.nextLink client flow target source origin now) hop packet).value.router.trace =
        r.trace := by
  have hfound : ∀ e, r.tree.byName? target.domain = some e → e = server := fun e he =>
    Option.some.inj (he.symm.trans hserver)
  rw [router_enter, tree_withTree, hnone, Link.natPort_opened, Link.server_opened,
    Link.client_opened, Link.protocol_opened]
  rcases Domain.linkSource_eq_ok hsource with ⟨-, rfl, rfl⟩ | ⟨-, port, halloc, rfl⟩
  · refine trace_withTree (DomainTree.traces_update fun e he => ?_)
    rw [hfound e he]
  · have hnext := (hgood.sound.accounts hserver).next flow.key.protocol
    have hname : taken.name = target.domain :=
      (Domain.grants_allocPort hnext halloc).name_eq.trans (DomainTree.name_of_byName? hserver)
    refine (trace_withTree ?_ : (r.withTree _).trace = r.trace)
    rw [DomainTree.update_update fun _ _ => hname]
    refine DomainTree.traces_update fun e he => ?_
    rw [hfound e he]
    exact Domain.trace_freePort_allocPort hnext halloc

end

/-- **A packet whose link cannot send it on leaves no trace.** -/
theorem Stalls.trace_follow {ref : LinkRef} {flow : PacketFlow} {packet : Packet}
    (h : r.Stalls frame client (.follow ref flow packet)) :
    (r.follow frame ref flow packet).value.router.trace = r.trace := by
  unfold follow
  split
  · rfl
  · rename_i link hlink
    refine trace_resolve_bind (fun _ => rfl) fun e hop he hroute => ?_
    cases h with
    | wayless hout hno =>
      rw [wayOut?, hlink, Option.map_some] at hout
      obtain ⟨rfl, rfl⟩ := Prod.mk.inj (Option.some.inj hout)
      exact absurd hroute (wayless_iff.1 hno e hop he)

/-- **A packet whose link cannot be opened leaves no trace.** -/
theorem Stalls.trace_openLink {target : LinkTarget} {flow : PacketFlow} {packet : Packet}
    (h : r.Stalls frame client (.openLink target flow packet)) (hgood : r.Good)
    (hclient : (r.tree.byName? client).isSome) :
    (r.openLink frame client target flow packet).value.router.trace = r.trace := by
  unfold openLink
  split
  · rfl
  · rename_i server hserver
    split
    · rfl
    · rename_i routerIp hip
      refine trace_resolve_bind (fun _ => rfl) fun e hop he hroute => ?_
      dsimp only
      cases hsource : server.linkSource routerIp client flow.key with
      | error e => rfl
      | ok found =>
        refine trace_enter hgood hserver hsource ?_ hop packet
        cases h with
        | wayless hout hno =>
          obtain ⟨rfl, rfl⟩ := Prod.mk.inj (Option.some.inj hout)
          exact absurd hroute (wayless_iff.1 hno e hop he)
        | exhausted hserver' hip' hno =>
          obtain rfl := Option.some.inj (hserver.symm.trans hserver')
          obtain rfl := Option.some.inj (hip.symm.trans hip')
          cases hsource.symm.trans hno
        | seated hserver' hip' hsource' hseat =>
          obtain rfl := Option.some.inj (hserver.symm.trans hserver')
          obtain rfl := Option.some.inj (hip.symm.trans hip')
          obtain rfl := Except.ok.inj (hsource.symm.trans hsource')
          exact (insertLink?_opened_eq_none hgood hserver hsource hclient ..).2 ⟨_, hseat⟩

/-! ## Packets that are sent on -/

theorem resolve_of_known {hop : NextHop} (hd : r.tree.byName? name = some d)
    (hroute : d.route dst = .known hop) (frame : Waiter) :
    (r.resolve name dst frame).value = (some hop, r.sending []) := by
  unfold resolve
  rw [hd]
  dsimp only
  rw [hroute]
  rfl

/-- What is sent into a domain leaves through its interfaces, whatever links have come to be. -/
theorem sent_forward (r' : Router) (hd : r.tree.byName? name = some d)
    (hunlinked : r'.tree.unlinked = r.tree.unlinked) (hconfig : r'.config = r.config) (hop : NextHop)
    (packet : Packet) : (r'.forward name hop packet).value.sent =
      through (d.outlets hop) (r.frameOf hop.mac packet.bytes) := by
  have hinterfaces : (r'.tree.byName? name).map (·.interfaces) = some d.interfaces := by
    have hsame := DomainTree.map_byName?_congr (g := (·.interfaces)) (k := (·.interfaces))
      Domain.name_unlinked (fun _ => rfl) (congrArg DomainTree.domains hunlinked) name
    rw [hsame, hd, Option.map_some]
  obtain ⟨d', hd', hd'interfaces⟩ := Option.map_eq_some_iff.1 hinterfaces
  have houtlets : d'.outlets hop = d.outlets hop := by
    rw [Domain.outlets, Domain.outlets, hd'interfaces]
  have hframe : r.frameOf hop.mac packet.bytes = r'.frameOf hop.mac packet.bytes := by
    rw [frameOf, frameOf, hconfig]
  unfold forward
  rw [hd', ← houtlets, hframe]
  rfl

theorem sent_enter {link : Link} {tree : DomainTree} (hins : r.tree.insertLink? link = some tree)
    (hop : NextHop) (packet : Packet) : (r.enter link hop packet).value.sent =
      (forward { r with tree, nextLink := r.nextLink + 1 } link.server.domain hop
        (packet.translate link.protocol (link.egress .client).rewrite)).value.sent := by
  unfold enter
  rw [hins]
  rfl

/-- A way that ends nowhere ends for one of the reasons. -/
theorem exists_of_not_wayless (h : ¬ r.Wayless name dst) :
    ∃ d hop, r.tree.byName? name = some d ∧ d.route dst = .known hop := by
  rw [wayless_iff] at h
  push Not at h
  exact h

/-- **A packet goes on over its link unless there is no way.** -/
theorem goesOn_follow {ref : LinkRef} {flow : PacketFlow} {packet : Packet}
    (hlink : (r.tree.ownedLink? ref.owner ref.link).isSome)
    (h : ¬ r.Stalls frame client (.follow ref flow packet)) :
    r.GoesOn (.follow ref flow packet) (r.follow frame ref flow packet).value.sent := by
  obtain ⟨link, hlink⟩ := Option.isSome_iff_exists.1 hlink
  have hout : r.wayOut? (.follow ref flow packet) =
      some ((link.egress ref.side).domain, (link.egress ref.side).rewrite.dstIp) := by
    rw [wayOut?, hlink, Option.map_some]
  obtain ⟨d, hop, hd, hroute⟩ := exists_of_not_wayless fun hno => h (.wayless hout hno)
  refine ⟨_, _, d, hop, packet.translate flow.key.protocol (link.egress ref.side).rewrite, hout, hd,
    hroute, ?_⟩
  unfold follow
  rw [hlink]
  dsimp only
  rw [Logged.value_bind, resolve_of_known hd hroute]
  dsimp only
  have hunlinked : (r.tree.update ref.owner (Domain.changeLink ref.link
      (·.followed ref.side flow frame.queued))).unlinked = r.tree.unlinked :=
    DomainTree.unlinked_update fun _ _ => rfl
  exact sent_forward (r.withTree _) hd hunlinked rfl hop _

/-- **A packet that opens a link goes on unless there is a reason why not.** -/
theorem goesOn_openLink {target : LinkTarget} {flow : PacketFlow} {packet : Packet} (hgood : r.Good)
    (hclient : (r.tree.byName? client).isSome)
    (h : ¬ r.Stalls frame client (.openLink target flow packet)) :
    r.GoesOn (.openLink target flow packet)
      (r.openLink frame client target flow packet).value.sent := by
  have hwayless : ¬ r.Wayless target.domain target.ip := fun hno => h (.wayless rfl hno)
  obtain ⟨server, hop, hserver, hroute⟩ := exists_of_not_wayless hwayless
  obtain ⟨routerIp, hip⟩ : ∃ routerIp, server.routerIp? = some routerIp := by
    refine Option.ne_none_iff_exists'.1 fun hnone => hwayless (.unconfigured ?_)
    rw [DomainTree.routerIp?, hserver, Option.bind_some, hnone]
  obtain ⟨⟨source, taken⟩, hsource⟩ :
      ∃ found, server.linkSource routerIp client flow.key = .ok found := by
    cases hsource : server.linkSource routerIp client flow.key with
    | ok found => exact ⟨found, rfl⟩
    | error e => exact absurd (.exhausted hserver hip hsource) h
  obtain ⟨link, hlink⟩ : ∃ link, Link.opened r.nextLink client flow target source frame.src
      frame.queued = link := ⟨_, rfl⟩
  have hdomain : link.server.domain = target.domain := by rw [← hlink, Link.server_opened]
  obtain ⟨tree, hins⟩ : ∃ tree,
      (r.tree.update target.domain fun _ => taken).insertLink? link = some tree := by
    refine Option.ne_none_iff_exists'.1 fun hnone => ?_
    rw [← hlink, insertLink?_opened_eq_none hgood hserver hsource hclient] at hnone
    obtain ⟨s, hs⟩ := hnone
    exact h (.seated hserver hip hsource hs)
  have hunlinked : tree.unlinked = r.tree.unlinked :=
    (DomainTree.unlinked_insertLink? hins).trans <| DomainTree.unlinked_update fun e he => by
      rw [Option.some.inj (he.symm.trans hserver)]
      exact Domain.unlinked_linkSource hsource
  refine ⟨_, _, server, hop, packet.translate link.protocol (link.egress .client).rewrite, rfl,
    hserver, hroute, ?_⟩
  unfold openLink
  rw [hserver]
  dsimp only
  rw [hip]
  dsimp only
  unfold openTowards
  rw [Logged.value_bind, resolve_of_known hserver hroute]
  dsimp only
  rw [hsource]
  dsimp only
  rw [hlink, sent_enter hins, hdomain]
  exact sent_forward { r with tree, nextLink := r.nextLink + 1 } hserver hunlinked rfl hop _

/-! ## Whatever is handled -/

/-- A frame is handled whose packet is to be sent on by a link, but is not. -/
def Stalled (x : Router × Waiter) : Prop :=
  ∃ id d f p, x.1.Arrives x.2 id d f p ∧ x.1.Stalls x.2 d.name (d.verdict p)

/-- **A packet that is not sent on by its link leaves no trace.** -/
theorem trace_process (hgood : r.Good) (h : Stalled (r, frame)) :
    (r.process frame).value.router.trace = r.trace := by
  obtain ⟨id, d, f, p, ha, hstalls⟩ := h
  obtain ⟨hby, -⟩ := hgood.byName?_of_domainId? ha.handle ha.domain
  rw [ha.process_eq]
  dsimp only at hstalls
  cases hverdict : d.verdict p with
  | follow ref flow packet => exact (hverdict ▸ hstalls).trace_follow
  | openLink target flow packet =>
    exact (hverdict ▸ hstalls).trace_openLink hgood (by rw [hby, Option.isSome_some])
  | drop | toDhcpClient | toDhcpServer | echo | pass | refuse =>
    rw [hverdict] at hstalls
    cases hstalls with
    | wayless hout => cases hout

/-- **A packet that is to be sent on by a link is, unless there is a reason why not.** -/
theorem Arrives.goesOn (ha : r.Arrives frame id d f p) (hgood : r.Good)
    (hlinked : (d.verdict p).IsLinked) (h : ¬ r.Stalls frame d.name (d.verdict p)) :
    r.GoesOn (d.verdict p) (r.process frame).value.sent := by
  obtain ⟨hby, -⟩ := hgood.byName?_of_domainId? ha.handle ha.domain
  have hclient : (r.tree.byName? d.name).isSome := Option.isSome_of_eq_some hby
  have htransit := Domain.transit_verdict hlinked.isTransit
  rw [ha.process_eq]
  generalize d.verdict p = verdict at htransit hlinked h ⊢
  cases htransit with
  | @follow flow ref q hflow hlookup hq =>
    refine goesOn_follow ?_ h
    have hindexed : r.tree.lookup? ⟨d.name, flow.key⟩ = some ref := by
      rw [DomainTree.lookup?, hby]
      exact hlookup
    obtain ⟨link, hm, -, rfl⟩ := (hgood.sound.index ..).1 hindexed
    exact Option.isSome_of_eq_some (hgood.sound.ownedLink?_of_mem hm)
  | openLink hflow hlookup hinit hdec hq => exact goesOn_openLink hgood hclient h
  | denied => exact hlinked.elim
  | @addressed q hflow hq =>
    rw [Domain.addressVerdict_eq] at hlinked
    cases hpassed : d.passedTo? q.dst <;> rw [hpassed] at hlinked <;> exact hlinked.elim

/-- A frame that arrives with a packet that is not sent on sets nobody free, so that nothing else
is handled. -/
theorem Arises.trace_receive (h : r.Arises) {interface : InterfaceId} {bytes : Wire.Bytes}
    {now : Nat}
    (hstalled : Stalled (r.countArrival interface bytes.length, ⟨interface, bytes, now⟩)) :
    (r.receive interface bytes now).value.2.trace = r.trace := by
  have hcounted := h.moves (r.moves_countArrival interface bytes.length)
  have htrace := trace_process hcounted.good hstalled
  obtain ⟨id, d, f, p, ha, -⟩ := hstalled
  have hreleased := released_process_of_isIpv4 hcounted.good ⟨f, ha.ethernet, ha.type⟩
  rw [h.value_receive]
  dsimp only
  rw [hreleased]
  exact (trace_countAllSent ..).trans (htrace.trans (trace_countArrival ..))

/-- **A flow that cannot be opened leaves no trace.**  For every frame that is handled when one
arrives, and whose packet is to be sent on by its link or a new one: if there is no next hop, the
frame waits or is dropped, no port is left or another link has a seat, then nothing of the links, the
shares and the ports that are taken is different afterwards; if there is no such reason the packet is
sent on.  If it is the frame that arrived nothing is different when all is done.  An attempt to enter
a link fails only where there is no room for one of its ends, and then gives back no more than the
port that the link held. -/
theorem Reachable.trace_of_stalls (h : r.Reachable) :
    (∀ interface bytes now, ∀ x ∈ r.handlings interface bytes now,
      ∀ {id d f p}, x.1.Arrives x.2 id d f p → (d.verdict p).IsLinked →
        (x.1.Stalls x.2 d.name (d.verdict p) →
          (x.1.process x.2).value.router.trace = x.1.trace) ∧
        (¬ x.1.Stalls x.2 d.name (d.verdict p) →
          x.1.GoesOn (d.verdict p) (x.1.process x.2).value.sent)) ∧
    (∀ interface bytes now,
      Stalled (r.countArrival interface bytes.length, ⟨interface, bytes, now⟩) →
        (r.handle now (.frame interface bytes)).value.2.trace = r.trace) ∧
    (∀ (tree : DomainTree) link, tree.insertLink? link = none ↔
      ∃ s, tree.byName? (link.side s).domain = none ∨ (tree.lookup? (link.seat s)).isSome) ∧
    ∀ link hop packet, r.tree.insertLink? link = none →
      (r.enter link hop packet).value = (r.withTree (match link.natPort with
        | some port => r.tree.update link.server.domain
            (·.freePort link.client.domain link.protocol port)
        | none => r.tree)).sending [] := by
  refine ⟨fun interface bytes now x hx id d f p ha hlinked => ?_, fun interface bytes now hstalled => ?_,
    fun tree link => DomainTree.insertLink?_eq_none, fun link hop packet hnone => ?_⟩
  · obtain ⟨harises, -⟩ := h.arises.mem_handlings hx
    exact ⟨fun hstalls => trace_process harises.good ⟨id, d, f, p, ha, hstalls⟩,
      ha.goesOn harises.good hlinked⟩
  · exact h.arises.trace_receive hstalled
  · unfold enter
    rw [hnone]
    cases link.natPort <;> rfl

/-! ## A second ping -/

namespace Ping

/-- The echo request of another ping, for which no identifier is left. -/
def secondPacket : Packet where
  bytes := Wire.Ipv4.Draft.build
    { src := .ofOctets 10 0 0 2, dst := .ofOctets 10 0 1 2, protocolNumber := 1 }
    (Wire.Icmp.echoRequest 8 1 [])
  version_eq := by decide +kernel
  minHeaderLength_le := by decide +kernel
  headerLength_le := by decide +kernel
  totalLength_eq := by decide +kernel

/-- The frame with the second ping. -/
def secondEthernet : Wire.Ethernet.Frame :=
  { ethernet with payload := secondPacket.bytes }

/-- The second ping as it arrives. -/
def second : Waiter :=
  ⟨⟨0, 0⟩, Wire.Ethernet.build secondEthernet, 0⟩

/-- The router after the second ping was counted. -/
def secondCounted : Router :=
  router.countArrival ⟨0, 0⟩ second.frame.length

/-- The domain of the host that pings, after the second ping was counted. -/
def secondLan : Domain :=
  lan.received second.frame.length

theorem arrives_second :
    secondCounted.Arrives second ⟨1, 0⟩ secondLan secondEthernet secondPacket where
  handle := by decide +kernel
  domain := by decide +kernel
  ethernet := Wire.Ethernet.parse_build secondEthernet
  addressed := .inl (by decide +kernel)
  type := by decide +kernel
  packet := by decide +kernel
  intact := by decide +kernel

/-- Where the second ping would go. -/
def secondTarget : LinkTarget where
  domain := "wan"
  ip := .ofOctets 10 0 1 2
  port := 8

/-- The flow of the second ping. -/
def secondFlow : PacketFlow where
  key := ⟨.icmp, {
    srcIp := .ofOctets 10 0 0 2, srcPort := 8, dstIp := .ofOctets 10 0 1 2, dstPort := 8 }⟩
  initiates := true

theorem stalls_second :
    secondCounted.Stalls second secondLan.name (secondLan.verdict secondPacket) := by
  obtain ⟨q, hq⟩ : ∃ q, secondPacket.nextHop? = some q :=
    Option.isSome_iff_exists.1 (by decide +kernel)
  have hverdict : (secondPacket.nextHop?.map fun q => Verdict.openLink secondTarget secondFlow q) =
      some (secondLan.verdict secondPacket) := by
    decide +kernel
  rw [hq, Option.map_some] at hverdict
  have hserver : secondCounted.tree.byName? "wan" = some wan := by decide +kernel
  have hip : wan.routerIp? = some (.ofOctets 10 0 1 1) := by decide +kernel
  have hsource : wan.linkSource (.ofOctets 10 0 1 1) secondLan.name secondFlow.key =
      .error .portExhausted := by
    decide +kernel
  rw [← Option.some.inj hverdict]
  exact .exhausted hserver hip hsource

end Ping

/-- A ping for which no identifier is left leaves no trace. -/
theorem trace_of_stalls_ping : Ping.router.Reachable ∧
    Ping.secondCounted.Arrives Ping.second ⟨1, 0⟩ Ping.secondLan Ping.secondEthernet
      Ping.secondPacket ∧
    Ping.secondCounted.Stalls Ping.second Ping.secondLan.name
      (Ping.secondLan.verdict Ping.secondPacket) ∧
    (Ping.router.handle 0 (.frame ⟨0, 0⟩ Ping.second.frame)).value.2.trace = Ping.router.trace ∧
    Ping.router.trace.nextLink = 2 :=
  ⟨Ping.reachable_router, Ping.arrives_second, Ping.stalls_second,
    Ping.reachable_router.trace_of_stalls.2.1 ⟨0, 0⟩ Ping.second.frame 0
      ⟨_, _, _, _, Ping.arrives_second, Ping.stalls_second⟩, by decide +kernel⟩

end Router

end SegmentRouter
