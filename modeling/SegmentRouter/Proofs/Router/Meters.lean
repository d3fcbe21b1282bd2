import SegmentRouter.Proofs.Router.Parking

/-!
# Proofs/Router/Meters — where bytes are counted, and where not

Interfaces and domains have meters for the bytes that come in and go out.  Whatever is done with a
frame, the first time or again, leaves all meters as they are (`Good.silent_process`), and so do
timers and interfaces that come and go; only the frame that arrives and the frames that leave in the
end are counted (`Arises.receive_counts`).
-/

namespace SegmentRouter

open Wire (Bytes)

/-- The bytes counted at an interface, in and out. -/
def Interface.meter (i : Interface) : Nat × Nat :=
  (i.rxBytes, i.txBytes)

/-- The bytes counted in a domain, in and out. -/
def Domain.meter (d : Domain) : Nat × Nat :=
  (d.rxBytes, d.txBytes)

namespace InterfaceTable

/-- What the meter of the interface with an id shows. -/
def meter? (t : InterfaceTable) (id : InterfaceId) : Option (Nat × Nat) :=
  (t.get? id).map Interface.meter

theorem meter?_modify (t : InterfaceTable) (id : InterfaceId) {f : Interface → Interface}
    (hf : ∀ i, (f i).meter = i.meter) (other : InterfaceId) :
    (t.modify id f).meter? other = t.meter? other := by
  rw [meter?, get?_modify]
  split
  · rename_i hother
    rw [hother, Option.map_map, meter?]
    exact congrArg (Option.map · (t.get? id)) (funext hf)
  · rfl

theorem meter?_counted (k : Nat → Nat × Nat) (t : InterfaceTable) (id : InterfaceId) :
    (t.counted k).meter? id = (t.meter? id).map (· + k id.index) := by
  rw [meter?, get?_counted, Option.map_map, meter?, Option.map_map]
  rfl

/-- There is one interface in a slot at most. -/
theorem eq_of_index {t : InterfaceTable} {id j : InterfaceId} {i i' : Interface}
    (hid : t.get? id = some i) (hj : t.get? j = some i') (hindex : j.index = id.index) : j = id := by
  have hgeneration : ∀ {k : InterfaceId} {i : Interface}, t.get? k = some i →
      ∃ slot, t.slots[k.index]? = some slot ∧ slot.generation = k.generation := by
    intro k i hk
    obtain ⟨slot, hslot, hoccupant⟩ := Option.bind_eq_some_iff.1 hk
    unfold occupant? at hoccupant
    split at hoccupant
    · exact ⟨slot, hslot, by assumption⟩
    · cases hoccupant
  obtain ⟨slot, hslot, hgen⟩ := hgeneration hid
  obtain ⟨slot', hslot', hgen'⟩ := hgeneration hj
  rw [hindex, hslot] at hslot'
  obtain rfl := Option.some.inj hslot'
  exact eq_iff.2 ⟨hindex, hgen'.symm.trans hgen⟩

end InterfaceTable

namespace DomainTree

variable {tree tree' : DomainTree} {name : String} {f : Domain → Domain}

/-- What the meter of the domain with a name shows. -/
def meter? (tree : DomainTree) (name : String) : Option (Nat × Nat) :=
  (tree.byName? name).map Domain.meter

/-- What the meters of all domains show. -/
def meters (tree : DomainTree) : List (String × (Nat × Nat)) :=
  tree.domains.map fun d => (d.name, d.meter)

theorem meter?_of_meters (h : tree'.meters = tree.meters) (name : String) :
    tree'.meter? name = tree.meter? name := by
  have hfound : ∀ ds ds' : List Domain,
      ds'.map (fun d => (d.name, d.meter)) = ds.map (fun d => (d.name, d.meter)) →
      (findByName? name ds').map Domain.meter = (findByName? name ds).map Domain.meter := by
    intro ds
    induction ds with
    | nil =>
      intro ds' h
      rw [List.map_eq_nil_iff.1 h]
    | cons d ds ih =>
      intro ds' h
      obtain ⟨d', ds', rfl, hd, hds⟩ := List.map_eq_cons_iff.1 h
      obtain ⟨hname, hmeter⟩ := Prod.mk.inj hd
      have hrest := ih ds' hds
      rw [findByName?, findByName?, hname]
      cases hfound' : findByName? name ds' with
      | none =>
        rw [hfound', Option.map_none, eq_comm, Option.map_eq_none_iff] at hrest
        rw [hrest]
        dsimp only
        split
        · exact congrArg some hmeter
        · rfl
      | some e' =>
        rw [hfound', Option.map_some, eq_comm, Option.map_eq_some_iff] at hrest
        obtain ⟨e, he, hmeter'⟩ := hrest
        rw [he]
        exact congrArg some hmeter'.symm
  exact hfound tree.domains tree'.domains h

theorem meters_of_shell (h : tree'.shell = tree.shell) : tree'.meters = tree.meters :=
  map_congr_of_map (f := Domain.shell) (k := fun d => (d.name, d.meter)) (fun _ => rfl)
    (congrArg DomainTree.domains h)

theorem meters_of_unlinked (h : tree'.unlinked = tree.unlinked) : tree'.meters = tree.meters :=
  meters_of_shell (shell_of_unlinked h)

theorem meters_update (hname : ∀ d, (f d).name = d.name) (hf : ∀ d, (f d).meter = d.meter) :
    (tree.update name f).meters = tree.meters :=
  map_changeByName fun d _ => Prod.ext (hname d) (hf d)

theorem meters_updateAt {id : DomainId} (hname : ∀ d, (f d).name = d.name)
    (hf : ∀ d, (f d).meter = d.meter) : (tree.updateAt id f).meters = tree.meters := by
  unfold updateAt
  split
  · exact map_modify (fun d => Prod.ext (hname d) (hf d)) ..
  · rfl

theorem meter?_counted (c : String → Nat × Nat) (tree : DomainTree) (name : String) :
    (tree.counted c).meter? name = (tree.meter? name).map (· + c name) := by
  rw [meter?, byName?_counted, meter?, Option.map_map, Option.map_map]
  refine Option.map_congr fun d hd => ?_
  rw [← name_of_byName? hd]
  rfl

/-- **A new domain has counted what the one before it of its name has**, or nothing. -/
theorem meter?_next {previous : DomainTree} {config : Config} {n : Nat × Nat}
    (h : (previous.next config).value.meter? name = some n) :
    n = (previous.meter? name).getD 0 := by
  rw [meter?_of_meters (meters_of_shell (previous.shell_next config))] at h
  obtain ⟨d, hd, rfl⟩ := Option.map_eq_some_iff.1 h
  obtain ⟨c, -, rfl⟩ := List.mem_map.1 (mem_of_byName? hd)
  have hname := name_of_byName? hd
  unfold succeed at hname ⊢
  dsimp only at hname ⊢
  cases hold : previous.byName? (Domain.ofConfig c config.timeouts).name with
  | none =>
    rw [hold] at hname
    rw [meter?, ← hname, hold]
    rfl
  | some old =>
    rw [hold] at hname
    have hname : (Domain.ofConfig c config.timeouts).name = name := hname
    rw [meter?, ← hname, hold]
    rfl

end DomainTree

namespace Router

variable {r r' r'' : Router}

/-- Nothing is counted from one state to another, while interfaces and domains are the same. -/
structure Silent (r r' : Router) : Prop where
  domains : r'.tree.meters = r.tree.meters
  interfaces : ∀ id, r'.interfaces.meter? id = r.interfaces.meter? id

namespace Silent

theorem refl (r : Router) : r.Silent r :=
  ⟨rfl, fun _ => rfl⟩

theorem trans (h : r.Silent r') (h' : r'.Silent r'') : r.Silent r'' :=
  ⟨h'.domains.trans h.domains, fun id => (h'.interfaces id).trans (h.interfaces id)⟩

theorem of_eq (h : r' = r) : r.Silent r' :=
  h ▸ .refl r

theorem withTree {tree : DomainTree} (h : tree.meters = r.tree.meters) : r.Silent (r.withTree tree) :=
  ⟨h, fun _ => rfl⟩

end Silent

/-! ## Frames -/

section

variable {frame : Waiter}

/-- What depends on a way counts nothing if it counts nothing once the next hop is known. -/
theorem silent_resolve_bind {name : String} {dst : Ipv4Addr}
    {k : Option NextHop × Reaction → Logged Reaction} (hk : ∀ x, k (none, x) = pure x)
    (hknown : ∀ hop, r.Silent (k (some hop, r.sending [])).value.router) :
    r.Silent (r.resolve name dst frame >>= k).value.router := by
  refine resolve_bind (P := fun x => r.Silent x.router) hk (.refl r) (fun e hop _ _ => ?_) hknown
  rw [router_park]
  exact .withTree (DomainTree.meters_update (fun _ => rfl) fun _ => rfl)

theorem silent_pass (r : Router) (frame : Waiter) (domain : String) (packet : Wire.Ipv4.Packet) :
    r.Silent (r.pass frame domain packet).value.router := by
  unfold pass
  exact silent_resolve_bind (fun _ => rfl) fun hop => .of_eq (router_forward ..)

theorem silent_follow (r : Router) (frame : Waiter) (ref : LinkRef) (flow : PacketFlow)
    (packet : Wire.Ipv4.Packet) : r.Silent (r.follow frame ref flow packet).value.router := by
  unfold follow
  split
  · exact .refl r
  · refine silent_resolve_bind (fun _ => rfl) fun hop => ?_
    refine (Silent.withTree ?_).trans (.of_eq (router_forward ..))
    exact DomainTree.meters_update (fun _ => rfl) fun _ => rfl

theorem silent_enter (r : Router) (link : Link) (hop : NextHop) (packet : Wire.Ipv4.Packet) :
    r.Silent (r.enter link hop packet).value.router := by
  rw [router_enter]
  split
  · rename_i tree hins
    exact ⟨DomainTree.meters_of_unlinked (DomainTree.unlinked_insertLink? hins), fun _ => rfl⟩
  · split
    · exact .withTree (DomainTree.meters_of_unlinked
        (DomainTree.unlinked_update fun d _ => d.unlinked_freePort ..))
    · exact .refl r

theorem silent_openLink (r : Router) (frame : Waiter) (client : String) (target : LinkTarget)
    (flow : PacketFlow) (packet : Wire.Ipv4.Packet) :
    r.Silent (r.openLink frame client target flow packet).value.router := by
  unfold openLink
  split
  · exact .refl r
  · rename_i server hserver
    split
    · exact .refl r
    · refine silent_resolve_bind (fun _ => rfl) fun hop => ?_
      dsimp only
      split
      · exact .refl r
      · rename_i source taken hsource
        have htaken : (r.tree.update target.domain fun _ => taken).unlinked = r.tree.unlinked := by
          refine DomainTree.unlinked_update fun d hd => ?_
          obtain rfl : server = d := Option.some.inj (hserver.symm.trans hd)
          exact Domain.unlinked_linkSource hsource
        exact (Silent.withTree (DomainTree.meters_of_unlinked htaken)).trans (silent_enter ..)

theorem silent_withClient (r : Router) (interface : InterfaceId) (client : DhcpClient) :
    r.Silent (r.withClient interface client) :=
  ⟨rfl, r.interfaces.meter?_modify interface fun _ => rfl⟩

theorem silent_carryOut (r : Router) (interface : InterfaceId) (action : DhcpAction) :
    r.Silent (r.carryOut interface action).value.router := by
  obtain ⟨hshell, hinterfaces⟩ := r.shell_carryOut interface action
  exact ⟨DomainTree.meters_of_shell hshell, fun _ => by rw [hinterfaces]⟩

theorem silent_consumeDhcp (r : Router) (interface : InterfaceId) (payload : Bytes) (now : Nat) :
    r.Silent (r.consumeDhcp interface payload now).value.router := by
  unfold consumeDhcp
  split
  · exact .refl r
  · split
    · exact .refl r
    · exact (silent_withClient ..).trans (silent_carryOut ..)

theorem silent_serveDhcp (r : Router) (interface : InterfaceId) (id : DomainId) (d : Domain)
    (payload : Bytes) (now : Nat) :
    r.Silent (r.serveDhcp interface id d payload now).value.router := by
  unfold serveDhcp
  split
  · exact .refl r
  · rename_i request hrequest
    split
    · rename_i server params hserver hparams
      rw [Logged.value_bind]
      rcases (server.handle request params now).value with ⟨answer, server'⟩
      have hserved : r.Silent (r.withTree (r.tree.updateAt id (·.withDhcpServer server'))) :=
        .withTree (DomainTree.meters_updateAt (fun _ => rfl) fun _ => rfl)
      cases answer <;> exact hserved
    · exact .refl r

/-- **Whatever is done with a frame counts nothing**, whether it has just arrived or waited. -/
theorem silent_process (r : Router) (frame : Waiter) :
    r.Silent (r.process frame).value.router := by
  have hhandles := r.handles_process frame
  generalize (r.process frame).value = x at hhandles ⊢
  cases hhandles with
  | ignored => exact .refl r
  | heard hears => exact .withTree (DomainTree.meters_updateAt (fun _ => rfl) fun _ => rfl)
  | @carried id d f p ha =>
    cases d.verdict p with
    | drop reason => cases reason <;> exact .refl r
    | toDhcpClient message => exact r.silent_consumeDhcp ..
    | toDhcpServer message => exact r.silent_serveDhcp ..
    | echo => exact .of_eq (router_echo ..)
    | follow ref flow packet => exact r.silent_follow ..
    | openLink target flow packet => exact r.silent_openLink ..
    | pass domain packet => exact r.silent_pass ..
    | refuse reason packet => exact .of_eq (router_refuse ..)

theorem silent_replay (now : Nat) (waiters : List Waiter) (r : Router) :
    r.Silent (replay now waiters r).value.router := by
  induction waiters generalizing r with
  | nil => exact .refl r
  | cons w rest ih => exact (r.silent_process _).trans (ih _)

theorem process_of_domainOf? (h : r.domainOf? frame.src = none) :
    (r.process frame).value = r.sending [] := by
  have hattached {id : DomainId} {d : Domain} (hid : r.domainId? frame.src = some id)
      (hd : r.tree.get? id = some d) : False := by
    rw [domainOf?, hid, Option.bind_some, hd] at h
    cases h
  have hhandles := r.handles_process frame
  generalize (r.process frame).value = x at hhandles ⊢
  cases hhandles with
  | ignored => rfl
  | heard hears => exact (hattached hears.handle hears.domain).elim
  | carried ha => exact (hattached ha.handle ha.domain).elim

/-- **What a frame that arrives counts**: the frame itself, if its interface is in a domain, and the
frames that leave. -/
theorem Arises.receive_counts (h : r.Arises) (interface : InterfaceId) (bytes : Bytes) (now : Nat) :
    ∃ r₁, r.Silent r₁ ∧ (r.receive interface bytes now).value.2 = r₁.counted
      ((if (r.domainOf? interface).isSome then
          arrival r.interfaces.policy? interface bytes.length else 0) +
        departure r.interfaces.policy? (r.receive interface bytes now).value.1) := by
  by_cases hd : (r.domainOf? interface).isSome
  · have hvalue := h.receive_eq_upshot hd bytes now
    refine ⟨(r.upshot ⟨interface, bytes, now⟩).router, ?_, ?_⟩
    · exact (r.silent_process _).trans (silent_replay ..)
    · rw [if_pos hd, hvalue]
  · have hnone : r.domainOf? interface = none := by simpa using hd
    have hprocess : (r.process ⟨interface, bytes, now⟩).value = r.sending [] :=
      process_of_domainOf? hnone
    have hcount : r.countArrival interface bytes.length = r := if_neg hd
    have hvalue := h.value_receive interface bytes now
    rw [hcount, hprocess] at hvalue
    refine ⟨r, .refl r, ?_⟩
    rw [if_neg hd, hvalue]
    exact (r.counted_zero).symm

end

/-! ## Timers -/

theorem silent_ageLinks (r : Router) (now : Nat) : r.Silent (r.ageLinks now).value :=
  .withTree (DomainTree.meters_of_unlinked (DomainTree.unlinked_dismissAll ..))

theorem silent_ageArp (r : Router) (now : Nat) : r.Silent (r.ageArp now).value :=
  .withTree (DomainTree.meters_of_shell (r.shell_ageArp now))

theorem silent_tickClients (now : Nat) (interfaces : List InterfaceId) (r : Router) :
    r.Silent (tickClients now interfaces r).value.router := by
  induction interfaces generalizing r with
  | nil => exact .refl r
  | cons interface rest ih =>
    have hfirst : r.Silent (r.tickClient interface now).value.router := by
      unfold tickClient
      split
      · exact .refl r
      · exact (silent_withClient ..).trans (silent_carryOut ..)
    exact hfirst.trans (ih _)

theorem silent_maintainDhcp (r : Router) (now : Nat) :
    r.Silent (r.maintainDhcp now).value.router := by
  have hservers (domains : List Domain) :
      (maintainServers now domains).value.map (fun d => (d.name, d.meter)) =
        domains.map (fun d => (d.name, d.meter)) := by
    induction domains with
    | nil => rfl
    | cons d rest ih =>
      unfold maintainServers
      cases d.dhcpServer <;> exact List.cons_eq_cons.2 ⟨rfl, ih⟩
  have hserved : r.Silent (r.withTree
      { r.tree with domains := (maintainServers now r.tree.domains).value }) :=
    .withTree (hservers r.tree.domains)
  exact hserved.trans (silent_tickClients ..)

/-! ## Interfaces that come and go -/

theorem silent_cleared (r : Router) (interface : InterfaceId) : r.Silent (r.cleared interface) :=
  ⟨rfl, r.interfaces.meter?_modify interface fun _ => rfl⟩

theorem silent_release (r : Router) (interface : InterfaceId) :
    r.Silent (r.release interface).value :=
  .withTree (DomainTree.meters_of_shell (r.shell_release interface))

theorem silent_bind (r : Router) (interface : InterfaceId) : r.Silent (r.bind interface).value := by
  have hbinding := r.binding_bind interface
  generalize (r.bind interface).value = r' at hbinding ⊢
  cases hbinding with
  | absent hi => exact .refl r
  | placed hi hid hd =>
    exact ⟨DomainTree.meters_update (f := (·.addInterface interface)) (fun _ => rfl) fun _ => rfl,
      r.interfaces.meter?_modify interface fun _ => rfl⟩
  | homeless hi hid hd => exact (r.silent_cleared interface).trans (silent_release ..)

theorem silent_bindAll (interfaces : List InterfaceId) (r : Router) :
    r.Silent (bindAll interfaces r).value := by
  induction interfaces generalizing r with
  | nil => exact .refl r
  | cons interface rest ih => exact (r.silent_bind interface).trans (ih _)

theorem silent_unbind (r : Router) (interface : InterfaceId) :
    r.Silent (r.unbind interface).value := by
  have hleft (id : DomainId) : r.Silent (r.left interface id) :=
    ((r.silent_cleared interface).trans (silent_release ..)).trans
      (.withTree (DomainTree.meters_updateAt (f := (·.removeInterface interface)) (fun _ => rfl)
        fun _ => rfl))
  have hunbinding := r.unbinding_unbind interface
  generalize (r.unbind interface).value = r' at hunbinding ⊢
  cases hunbinding with
  | outside hid => exact r.silent_cleared interface
  | inside hid => exact hleft _
  | orphaned hid hd hdhcp hset =>
    exact (hleft _).trans (.withTree (DomainTree.meters_of_shell (DomainTree.shell_setIpConfig hset)))

end Router

end SegmentRouter
