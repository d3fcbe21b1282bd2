import SegmentRouter.Proofs.Dhcp.Answers
import SegmentRouter.Proofs.Dhcp.Tenancy
import SegmentRouter.Proofs.Router.Moves
import SegmentRouter.Proofs.Tree.Hosts
import SegmentRouter.Proofs.Tree.Plan

/-!
# Proofs/Router/Course — what moves do besides opening and ending links

Traffic and DHCP service show in links, ports, leases, counters and what is known of hosts.  A move
that shows in no more than the first four is calm (`Router.Calm`); of the others there are six kinds
(`Router.Course`), so an invariant that is about none of the first four is proved by cases on these
(`Arises.course_induction`).
-/

namespace SegmentRouter

/-! ## What traffic leaves as it is -/

namespace DhcpServer

theorem Answers.vacant {s s' : DhcpServer} {msg : Wire.Dhcp.Message} {params : Params} {now : Nat}
    {reply : Option Wire.Dhcp.Message} (h : s.Answers msg params now reply s') :
    s'.vacant = s.vacant := by
  cases h <;> rfl

/-- **A message changes nothing but leases.** -/
theorem vacant_handle (s : DhcpServer) (msg : Wire.Dhcp.Message) (params : Params) (now : Nat) :
    (s.handle msg params now).value.2.vacant = s.vacant :=
  (s.answers msg params now).vacant

end DhcpServer

/-- The domain without links, ports in use, leases and counters. -/
def Domain.still (d : Domain) : Domain :=
  { d.unlinked with
    dhcpServer := d.dhcpServer.map (·.vacant)
    rxBytes := 0
    txBytes := 0 }

@[simp] theorem Domain.name_still (d : Domain) : d.still.name = d.name := rfl

/-- The interface without counters. -/
def Interface.still (i : Interface) : Interface :=
  { i with rxBytes := 0, txBytes := 0 }

namespace DomainTree

variable {tree tree' : DomainTree}

/-- The tree with its domains without links, ports in use, leases and counters. -/
def still (tree : DomainTree) : DomainTree :=
  { tree with domains := tree.domains.map Domain.still }

theorem still_of_unlinked (h : tree'.unlinked = tree.unlinked) : tree'.still = tree.still := by
  have hmap : ∀ t : DomainTree, t.still = { t.unlinked with
      domains := t.unlinked.domains.map fun d =>
        { d with dhcpServer := d.dhcpServer.map (·.vacant), rxBytes := 0, txBytes := 0 } } :=
    fun t => by
      rw [still, unlinked, List.map_map]
      rfl
  rw [hmap, h, hmap]

theorem still_updateAt {id : DomainId} {f : Domain → Domain}
    (hf : ∀ d, tree.get? id = some d → (f d).still = d.still) :
    (tree.updateAt id f).still = tree.still := by
  unfold updateAt
  split
  · rename_i hgood
    rw [get?, if_pos hgood] at hf
    have hmap : (tree.domains.modify id.index f).map Domain.still =
        tree.domains.map Domain.still := by
      refine List.ext_getElem? fun j => ?_
      rw [List.getElem?_map, List.getElem?_map, List.getElem?_modify]
      by_cases hj : id.index = j
      · subst hj
        cases hd : tree.domains[id.index]? with
        | none => rfl
        | some d => simp [hf d hd]
      · simp [hj]
    rw [still, still, hmap]
  · rfl

end DomainTree

namespace Router

variable {r r' : Router}

/-- Only links, ports, leases and counters differ. -/
structure Calm (r r' : Router) : Prop where
  config : r'.config = r.config
  tree : r'.tree.still = r.tree.still
  interfaces : ∀ id, (r'.interfaces.get? id).map Interface.still =
    (r.interfaces.get? id).map Interface.still

namespace Calm

theorem refl (r : Router) : r.Calm r :=
  ⟨rfl, rfl, fun _ => rfl⟩

theorem withTree {tree : DomainTree} (ht : tree.still = r.tree.still) : r.Calm (r.withTree tree) :=
  ⟨rfl, ht, fun _ => rfl⟩

theorem change (id : InterfaceId) {f : Interface → Interface} {g : Domain → Domain}
    (hf : ∀ i, (f i).still = i.still) (hg : ∀ d, (g d).still = d.still) :
    r.Calm (r.change id f g) := by
  unfold Router.change
  split
  · exact .refl r
  · rename_i i hi
    refine ⟨rfl, ?_, fun j => ?_⟩
    · dsimp only
      split
      · exact DomainTree.still_updateAt fun d _ => hg d
      · rfl
    · dsimp only
      rw [InterfaceTable.get?_modify]
      split
      · rename_i hj
        rw [hj, hi, Option.map_some, Option.map_some, Option.map_some, hf]
      · rfl

theorem policy?_eq (h : r.Calm r') (id : InterfaceId) :
    r'.interfaces.policy? id = r.interfaces.policy? id := by
  have hstill := congrArg (Option.map Interface.policy) (h.interfaces id)
  rwa [Option.map_map, Option.map_map] at hstill

end Calm

/-! ## The other moves -/

/-- What a domain may come to know of an address: where it is, if a host of the domain told, or that
one more frame waits for it, if it is the next hop on the frame's way and not too many wait. -/
inductive Learns (r : Router) (d : Domain) (config : IpConfig) : Ipv4Addr → ArpEntry → Prop
  | resolved {interface : InterfaceId} {ip : Ipv4Addr} (hinterface : r.domainOf? interface = some d)
      (hip : config.interface.contains ip = true) (mac : Mac) (now : Nat) :
      Learns r d config ip (.resolved mac interface now)
  | pending {dst hop : Ipv4Addr} {requested : Nat} {frame : Waiter} {id : DomainId} {d' : Domain}
      {f : Wire.Ethernet.Frame} {p : Wire.Ipv4.Packet} (hroute : d.route dst = .unresolved hop)
      (hframe : r.Arrives frame id d' f p) (hroom : (d.arp.queue hop).length < ArpCache.maxWaiters) :
      Learns r d config hop (.pending requested (d.arp.queue hop ++ [frame]))

/-- Who waits for what a domain comes to know has just arrived, or has waited before. -/
theorem Learns.arrives_or_waits {d : Domain} {config : IpConfig} {ip : Ipv4Addr} {entry : ArpEntry}
    (h : r.Learns d config ip entry) {w : Waiter} (hw : w ∈ entry.waiters) :
    (∃ id d' f p, r.Arrives w id d' f p) ∨ ∃ e, d.arp.get? ip = some e ∧ w ∈ e.waiters := by
  cases h with
  | resolved => exact absurd hw List.not_mem_nil
  | @pending dst _ requested frame id d' f p hroute hframe hroom =>
    rcases List.mem_append.1 hw with hw | hw
    · unfold ArpCache.queue at hw
      cases he : d.arp.get? ip with
      | none =>
        rw [he] at hw
        exact absurd hw List.not_mem_nil
      | some e =>
        rw [he] at hw
        exact .inr ⟨e, rfl, hw⟩
    · obtain rfl := List.mem_singleton.1 hw
      exact .inl ⟨id, d', f, p, hframe⟩

/-- **The kinds of moves.** -/
inductive Course (r : Router) : Router → Prop
  | calm {r' : Router} (h : r.Calm r') : Course r r'
  | learned {name : String} {d : Domain} {config : IpConfig} {ip : Ipv4Addr} {entry : ArpEntry}
      (hd : r.tree.byName? name = some d) (hconfig : d.ipConfig = some config)
      (hentry : r.Learns d config ip entry) :
      Course r (r.withTree (r.tree.update name (·.withArp (d.arp.insert ip entry))))
  | agedArp (now : Nat) : Course r (r.ageArp now).value
  | instructed {interface : InterfaceId} {i : Interface} {client after : DhcpClient}
      {action : DhcpAction} (hi : r.interfaces.get? interface = some i)
      (hclient : i.client = some client) (hacts : client.Acts r.nextXid action after) :
      Course r ((r.withClient interface after).carryOut interface action).value.router
  | attached (domain : String) : Course r (r.attach domain).value.2
  | detached {r' : Router} {interface : InterfaceId}
      (hr : (r.detach interface).value = .ok r') : Course r r'
  | adopted {config : Config} (hvalid : config.validate.hasErrors = false) :
      Course r (r.adopt config).value

/-- A host of the domain tells an address, or only confirms it. -/
theorem course_learned (hgood : r.Good) {interface : InterfaceId} {id : DomainId} {d : Domain}
    {config : IpConfig} (hid : r.domainId? interface = some id) (hd : r.tree.get? id = some d)
    (hconfig : d.ipConfig = some config) (p : Wire.Arp.Packet) (now : Nat) :
    r.Course (r.withTree (r.tree.updateAt id (·.withArp (d.learn config p interface now).2))) := by
  obtain ⟨hby, hplace⟩ := hgood.byName?_of_domainId? hid hd
  rw [DomainTree.updateAt_of_id? (hgood.settled hplace).symm]
  have hquiet : r.Course (r.withTree (r.tree.update d.name (·.withArp d.arp))) := by
    rw [DomainTree.update_eq_self hby rfl]
    exact .calm (.refl r)
  have hlearned (hbelieved : Domain.believes config p = true) : r.Course (r.withTree
      (r.tree.update d.name
        (·.withArp (d.arp.insert p.senderIp (.resolved p.senderMac interface now))))) := by
    refine .learned hby hconfig (.resolved ?_ ?_ p.senderMac now)
    · rw [domainOf?, hid]
      exact hd
    · rw [Domain.believes, Bool.and_eq_true, Bool.and_eq_true] at hbelieved
      exact hbelieved.1.1
  unfold Domain.learn
  split
  · rename_i hbelieved
    split
    · exact hlearned hbelieved
    · dsimp only [ArpCache.refresh]
      split
      · exact hlearned hbelieved
      · exact hquiet
  · exact hquiet

/-- A frame waits for the next hop on its way, or is dropped because too many wait. -/
theorem course_parked {frame : Waiter} {id : DomainId} {d : Domain} {f : Wire.Ethernet.Frame}
    {p : Wire.Ipv4.Packet} (h : r.Arrives frame id d f p) {name : String}
    {e : Domain} {dst hop : Ipv4Addr} (he : r.tree.byName? name = some e)
    (hroute : e.route dst = .unresolved hop) : r.Course (r.withTree
      (r.tree.update e.name (·.withArp (e.arp.park hop frame frame.queued).2))) := by
  obtain rfl := DomainTree.name_of_byName? he
  obtain ⟨config, hconfig⟩ : ∃ config, e.ipConfig = some config := by
    cases hconfig : e.ipConfig with
    | some config => exact ⟨config, rfl⟩
    | none =>
      rw [Domain.route, hconfig] at hroute
      cases hroute
  rcases e.arp.park_cases hop frame frame.queued with
    hdropped | ⟨hroom, outcome, requested, -, hparked⟩
  · rw [hdropped, DomainTree.update_eq_self he rfl]
    exact .calm (.refl r)
  · rw [hparked]
    exact .learned he hconfig (.pending hroute h hroom)

theorem calm_entered {target : LinkTarget} {server taken : Domain} {routerIp : Ipv4Addr}
    {client : String} {key : FlowKey} {source : LinkSource}
    (hserver : r.tree.byName? target.domain = some server)
    (hsource : server.linkSource routerIp client key = .ok (source, taken)) (link : Link)
    (hop : NextHop) (packet : Wire.Ipv4.Packet) :
    r.Calm ((r.withTree (r.tree.update target.domain fun _ => taken)).enter link hop
      packet).value.router := by
  have htaken : (r.tree.update target.domain fun _ => taken).unlinked = r.tree.unlinked := by
    refine DomainTree.unlinked_update fun d hd => ?_
    obtain rfl : server = d := Option.some.inj (hserver.symm.trans hd)
    exact Domain.unlinked_linkSource hsource
  rw [router_enter]
  split
  · rename_i tree hins
    refine ⟨rfl, DomainTree.still_of_unlinked ?_, fun _ => rfl⟩
    exact (DomainTree.unlinked_insertLink? hins).trans htaken
  · split
    · refine .withTree (DomainTree.still_of_unlinked ?_)
      exact (DomainTree.unlinked_update fun d _ => d.unlinked_freePort ..).trans htaken
    · exact .withTree (DomainTree.still_of_unlinked htaken)

/-- Of what a server does only its leases show. -/
theorem calm_served {id : DomainId} {d : Domain} {server : DhcpServer}
    (hd : r.tree.get? id = some d) (hserver : d.dhcpServer = some server)
    (params : DhcpServer.Params) (request : Wire.Dhcp.Message) (now : Nat) :
    r.Calm (r.withTree (r.tree.updateAt id
      (·.withDhcpServer (server.handle request params now).value.2))) := by
  refine .withTree (DomainTree.still_updateAt fun d' hd' => ?_)
  obtain rfl : d = d' := Option.some.inj (hd.symm.trans hd')
  unfold Domain.still Domain.withDhcpServer
  dsimp only
  rw [hserver, Option.map_some, Option.map_some, DhcpServer.vacant_handle]
  rfl

theorem still_maintainServers (now : Nat) (domains : List Domain) :
    (maintainServers now domains).value.map Domain.still = domains.map Domain.still := by
  induction domains with
  | nil => rfl
  | cons d rest ih =>
    unfold maintainServers
    cases hserver : d.dhcpServer with
    | none => exact congrArg (d.still :: ·) ih
    | some server =>
      have hd : (d.withDhcpServer (server.maintain now).value.2).still = d.still := by
        unfold Domain.still Domain.withDhcpServer
        dsimp only
        rw [hserver]
        rfl
      exact List.cons_eq_cons.2 ⟨hd, ih⟩

/-- **Every move is of one of the kinds.** -/
theorem Move.course (h : r.Move r') (hgood : r.Good) : r.Course r' := by
  cases h with
  | arrived h n => exact .calm (.change _ (fun _ => rfl) fun _ => rfl)
  | sent t => exact .calm (.change _ (fun _ => rfl) fun _ => rfl)
  | learned hid hd hconfig p now => exact course_learned hgood hid hd hconfig p now
  | parked h he hroute => exact course_parked h he hroute
  | followed h hverdict hlink =>
    exact .calm (.withTree
      (DomainTree.still_of_unlinked (DomainTree.unlinked_update fun _ _ => rfl)))
  | entered h hverdict hserver hip hsource hop => exact .calm (calm_entered hserver hsource ..)
  | served hid hd hserver hparams request now =>
    exact .calm (calm_served hd hserver _ request now)
  | instructed hi hclient hacts => exact .instructed hi hclient hacts
  | maintained now =>
    refine .calm (.withTree ?_)
    rw [DomainTree.still, DomainTree.still, still_maintainServers]
  | agedLinks now =>
    exact .calm (.withTree (DomainTree.still_of_unlinked (DomainTree.unlinked_dismissAll ..)))
  | agedArp now => exact .agedArp now
  | attached domain => exact .attached domain
  | detached hr => exact .detached hr
  | adopted hvalid => exact .adopted hvalid
  | rejected faults => exact .calm ⟨rfl, rfl, fun _ => rfl⟩

/-! ## What the other moves leave as it is -/

theorem shell_release (r : Router) (interface : InterfaceId) :
    (r.release interface).value.tree.shell = r.tree.shell := by
  have hcancelled : ∀ t : DomainTree,
      ({ t with domains := (cancelArp interface t.domains).2 } : DomainTree).shell = t.shell :=
    fun t => by rw [DomainTree.shell, DomainTree.shell, map_cancelArp fun _ _ => rfl]
  exact (hcancelled _).trans (DomainTree.shell_of_unlinked (DomainTree.unlinked_dismissAll ..))

/-- An interface leaves the domain that it is meant for. -/
theorem tree_left {interface : InterfaceId} {id : DomainId} {name : String}
    (hid : r.tree.id? name = some id) : (r.left interface id).tree =
      ((r.cleared interface).release interface).value.tree.update name
        (·.removeInterface interface) :=
  DomainTree.updateAt_of_id? ((DomainTree.id?_of_shell (shell_release ..) name).trans hid) _

/-- **What a client asks for is done, if it can be**, and nothing else. -/
theorem carryOut_cases (r : Router) (interface : InterfaceId) (action : DhcpAction) :
    (r.carryOut interface action).value.router = r ∨
      ∃ id config tree, r.domainId? interface = some id ∧ action.asksFor? = some config ∧
        (r.tree.setIpConfig id config).value = .ok tree ∧
        (r.carryOut interface action).value.router = r.withTree tree := by
  have hconfigure : ∀ id config, (r.configure interface id config).value.router = r ∨
      ∃ tree, (r.tree.setIpConfig id config).value = .ok tree ∧
        (r.configure interface id config).value.router = r.withTree tree := by
    intro id config
    unfold configure
    rw [Logged.value_bind]
    cases hset : (r.tree.setIpConfig id config).value with
    | ok tree => exact .inr ⟨tree, rfl, rfl⟩
    | error e => exact .inl rfl
  unfold carryOut
  split
  · exact .inl rfl
  · rename_i id hid
    cases action with
    | configure config =>
      refine (hconfigure id (some config)).imp_right fun ⟨tree, hset, hvalue⟩ => ?_
      exact ⟨id, some config, tree, hid, rfl, hset, hvalue⟩
    | deconfigure =>
      refine (hconfigure id none).imp_right fun ⟨tree, hset, hvalue⟩ => ?_
      exact ⟨id, none, tree, hid, rfl, hset, hvalue⟩
    | none => exact .inl rfl
    | broadcast message => exact .inl rfl
    | unicast message server => exact .inl rfl

theorem shell_carryOut (r : Router) (interface : InterfaceId) (action : DhcpAction) :
    (r.carryOut interface action).value.router.tree.shell = r.tree.shell ∧
      (r.carryOut interface action).value.router.interfaces = r.interfaces := by
  rcases r.carryOut_cases interface action with hkept | ⟨id, config, tree, -, -, hset, hvalue⟩
  · rw [hkept]
    exact ⟨rfl, rfl⟩
  · rw [hvalue]
    exact ⟨DomainTree.shell_setIpConfig hset, rfl⟩

/-- What a client does leaves what interfaces are meant for. -/
theorem policy?_instructed (r : Router) (interface : InterfaceId) (client : DhcpClient)
    (action : DhcpAction) (id : InterfaceId) :
    ((r.withClient interface client).carryOut interface action).value.router.interfaces.policy? id =
      r.interfaces.policy? id := by
  rw [(shell_carryOut ..).2]
  exact InterfaceTable.policy?_modify _ interface (f := (·.withClient client)) (fun _ => rfl) id

theorem shell_ageArp (r : Router) (now : Nat) : (r.ageArp now).value.tree.shell = r.tree.shell := by
  have hmap : ∀ requestTimeout entryLifetime domains, (expireArp now requestTimeout entryLifetime
      domains).value.map Domain.shell = domains.map Domain.shell := by
    intro requestTimeout entryLifetime domains
    induction domains with
    | nil => rfl
    | cons d rest ih => exact congrArg (d.shell :: ·) ih
  exact congrArg (fun domains => ({ r.tree with domains } : DomainTree)) (hmap ..)

/-- **What a new router has and every kind of move keeps, every state has.** -/
theorem Arises.course_induction {P : Router → Prop} (hempty : ∀ xid, P { nextXid := xid })
    (hcourse : ∀ {r r' : Router}, r.Arises → P r → r.Course r' → P r') (h : r.Arises) : P r :=
  h.induction hempty fun hr hp hm => hcourse hr hp (hm.course hr.good)

end Router

end SegmentRouter
