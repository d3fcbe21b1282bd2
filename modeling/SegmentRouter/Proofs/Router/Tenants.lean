import SegmentRouter.Proofs.Router.Coherence
import SegmentRouter.Proofs.Router.Turns

/-!
# Proofs/Router/Tenants — leased addresses and the leases behind them

The interfaces of a domain whose addresses are leased have a client each, and the domain has one set
of addresses.  While there is one client these are the addresses of its lease; with several they are
those that were granted last, given up by whoever loses a lease, and left behind by one that goes
while others stay.  So they are the addresses of some client's lease, and of no other, exactly as
long as clients do not get in each other's way (`Disturbs`, `Run.forall_mirrors_iff`).
-/

namespace SegmentRouter

namespace Router

variable {r r' : Router} {name : String}

/-- **A domain whose addresses are leased has those of which a client of its interfaces has a
lease**, if one has, and none otherwise. -/
def Mirrors (r : Router) (name : String) : Prop :=
  r.tree.source? name = some .dhcp →
    ∀ c, r.tree.ipConfig? name = some c ↔ ∃ id, r.Rents name id c

/-- **The clients of a domain get in each other's way.** -/
inductive Disturbs (r : Router) (name : String) (r' : Router) : Prop
  /-- A client is granted other addresses than those of which another one has a lease. -/
  | rivals {id other : InterfaceId} {c c' : IpConfig} (hthere : r.Joins name id)
      (hnew : r'.Rents name id c) (hold : ¬ r.Rents name id c) (hne : other ≠ id)
      (hother : r.Rents name other c') (hc : c' ≠ c)
  /-- A client whose interface stays loses its lease while another one has one. -/
  | bereaves {id other : InterfaceId} {c c' : IpConfig}
      (hsource : r'.tree.source? name = some .dhcp) (hold : r.Rents name id c)
      (hlost : ∀ c, ¬ r'.Rents name id c) (hstays : r'.Joins name id) (hne : other ≠ id)
      (hother : r.Rents name other c')
  /-- The only client with a lease goes with its interface while another one stays. -/
  | orphans {id other : InterfaceId} {c : IpConfig}
      (hsource : r'.tree.source? name = some .dhcp) (hold : r.Rents name id c)
      (honly : ∀ id' c', r.Rents name id' c' → id' = id) (hleft : ¬ r'.Joins name id)
      (hne : other ≠ id) (hother : r.Joins name other)

/-! ## Changes and the leases behind the addresses -/

/-- It takes two to get in each other's way. -/
theorem Disturbs.exists_ne (h : r.Disturbs name r') :
    ∃ id other, other ≠ id ∧ r.Joins name id ∧ r.Joins name other := by
  cases h with
  | rivals hthere _ _ hne hother => exact ⟨_, _, hne, hthere, hother.1⟩
  | bereaves _ hold _ _ hne hother => exact ⟨_, _, hne, hold.1, hother.1⟩
  | orphans _ hold _ _ hne hother => exact ⟨_, _, hne, hold.1, hother⟩

/-- Where addresses are not leased before and after a change, clients are out of the way. -/
theorem mirrors_of_unleased (hrents : ∀ id c, ¬ r'.Rents name id c)
    (hfresh : r'.tree.source? name = some .dhcp →
      r'.tree.ipConfig? name = none ∧ ∀ id c, ¬ r.Rents name id c) :
    r'.Mirrors name ∧ ¬ r.Disturbs name r' := by
  refine ⟨fun hsource c => ?_, fun hdisturbs => ?_⟩
  · rw [(hfresh hsource).1]
    exact iff_of_false nofun fun ⟨id, hid⟩ => hrents id c hid
  · cases hdisturbs with
    | rivals _ hnew => exact hrents _ _ hnew
    | bereaves hsource hold => exact (hfresh hsource).2 _ _ hold
    | orphans hsource hold => exact (hfresh hsource).2 _ _ hold

section

variable {id : InterfaceId} {c : IpConfig}
  (hleased : ∀ c, r.tree.ipConfig? name = some c ↔ ∃ id, r.Rents name id c)

include hleased

/-- All leases are of the same addresses. -/
theorem eq_of_rents {holder other : InterfaceId} {c' : IpConfig} (h : r.Rents name holder c)
    (h' : r.Rents name other c') : c = c' :=
  Option.some.inj (((hleased c).2 ⟨holder, h⟩).symm.trans ((hleased c').2 ⟨other, h'⟩))

/-- **New addresses are those of all leases if no other client has a lease of others.** -/
theorem mirrors_granted (hthere : r.Joins name id) (hconfig : r'.tree.ipConfig? name = some c)
    (hself : ∀ c', r'.Rents name id c' ↔ c' = c)
    (hrents : ∀ other ≠ id, ∀ c', r'.Rents name other c' ↔ r.Rents name other c')
    (hjoins : ∀ id, r.Joins name id → r'.Joins name id) :
    (∀ c', r'.tree.ipConfig? name = some c' ↔ ∃ id', r'.Rents name id' c') ↔
      ¬ r.Disturbs name r' := by
  rw [hconfig]
  constructor
  · intro hall hdisturbs
    cases hdisturbs with
    | @rivals new other c₁ c₂ _ hnew hold hne hother hc =>
      have hid : new = id := by_contra fun hid => hold ((hrents new hid c₁).1 hnew)
      subst hid
      obtain rfl := (hself c₁).1 hnew
      have hkept : r'.Rents name other c₂ := (hrents other hne c₂).2 hother
      exact hc (Option.some.inj ((hall c₂).2 ⟨other, hkept⟩)).symm
    | @bereaves lost other c₁ c₂ hsource hold hlost hstays hne hother =>
      by_cases hid : lost = id
      · exact hlost c (hid ▸ (hself c).2 rfl)
      · exact hlost c₁ ((hrents lost hid c₁).2 hold)
    | orphans hsource hold honly hleft => exact hleft (hjoins _ hold.1)
  · intro hquiet c'
    constructor
    · intro hc
      exact ⟨id, (hself c').2 (Option.some.inj hc).symm⟩
    · rintro ⟨other, hother⟩
      by_cases hid : other = id
      · rw [(hself c').1 (hid ▸ hother)]
      · have hold : r.Rents name other c' := (hrents other hid c').1 hother
        -- otherwise the grant is the rival of the other lease
        refine congrArg some (by_contra fun hne => hquiet ?_)
        exact .rivals hthere ((hself c).2 rfl) (fun hsame => hne (eq_of_rents hleased hsame hold))
          hid hold (Ne.symm hne)

omit hleased in
/-- **Addresses that are given up leave no lease behind if no other client has one.** -/
theorem mirrors_ended (hconfig : r'.tree.ipConfig? name = none)
    (hsource : r'.tree.source? name = some .dhcp) (hold : r.Rents name id c)
    (hrents : ∀ id' c', r'.Rents name id' c' ↔ id' ≠ id ∧ r.Rents name id' c')
    (hjoins : ∀ id, r.Joins name id → r'.Joins name id) :
    (∀ c', r'.tree.ipConfig? name = some c' ↔ ∃ id', r'.Rents name id' c') ↔
      ¬ r.Disturbs name r' := by
  rw [hconfig]
  constructor
  · intro hall hdisturbs
    have hnone (other : InterfaceId) (c' : IpConfig) : ¬ r'.Rents name other c' := fun hother =>
      nomatch (hall c').2 ⟨other, hother⟩
    cases hdisturbs with
    | rivals _ hnew => exact hnone _ _ hnew
    | @bereaves lost other c₁ c₂ _ hlease hlost hstays hne hother =>
      have hid : lost = id := by_contra fun hid => hlost c₁ ((hrents lost c₁).2 ⟨hid, hlease⟩)
      exact hnone other c₂ ((hrents other c₂).2 ⟨hid ▸ hne, hother⟩)
    | orphans _ hlease honly hleft => exact hleft (hjoins _ hlease.1)
  · intro hquiet c'
    refine iff_of_false nofun fun ⟨other, hother⟩ => hquiet ?_
    obtain ⟨hne, hlease⟩ := (hrents other c').1 hother
    exact .bereaves hsource hold (fun c₁ hself => ((hrents id c₁).1 hself).1 rfl)
      (hjoins id hold.1) hne hlease

/-- **Addresses that stay when an interface goes are those of a lease if another one has it**, and
none stay without an interface. -/
theorem mirrors_parted (hsource : r'.tree.source? name = some .dhcp)
    (hlast : (∀ other, ¬ r'.Joins name other) → r'.tree.ipConfig? name = none)
    (hothers : ∀ other, r'.Joins name other → r'.tree.ipConfig? name = r.tree.ipConfig? name)
    (hrents : ∀ id' c', r'.Rents name id' c' ↔ id' ≠ id ∧ r.Rents name id' c')
    (hjoins : ∀ id', r'.Joins name id' ↔ id' ≠ id ∧ r.Joins name id') :
    (∀ c', r'.tree.ipConfig? name = some c' ↔ ∃ id', r'.Rents name id' c') ↔
      ¬ r.Disturbs name r' := by
  constructor
  · intro hall hdisturbs
    cases hdisturbs with
    | rivals _ hnew hold => exact hold ((hrents _ _).1 hnew).2
    | @bereaves lost other c₁ c₂ _ hlease hlost hstays =>
      exact hlost c₁ ((hrents lost c₁).2 ⟨((hjoins lost).1 hstays).1, hlease⟩)
    | @orphans gone other c₁ _ hlease honly hleft hne hother =>
      have hid : gone = id := by_contra fun hid => hleft ((hjoins gone).2 ⟨hid, hlease.1⟩)
      have hstays : r'.Joins name other := (hjoins other).2 ⟨hid ▸ hne, hother⟩
      have hconfig := (hothers other hstays).trans ((hleased c₁).2 ⟨gone, hlease⟩)
      obtain ⟨heir, hheir⟩ := (hall c₁).1 hconfig
      obtain ⟨hheirne, hold⟩ := (hrents heir c₁).1 hheir
      exact hheirne ((honly heir c₁ hold).trans hid)
  · intro hquiet c'
    by_cases hempty : ∃ other, r'.Joins name other
    · obtain ⟨other, hstays⟩ := hempty
      rw [hothers other hstays, hleased]
      constructor
      · rintro ⟨holder, hlease⟩
        obtain ⟨heir, hne, c₁, hheir⟩ : ∃ heir ≠ id, ∃ c₁, r.Rents name heir c₁ := by
          by_contra hnone
          have honly (id' : InterfaceId) (c₁ : IpConfig) (h : r.Rents name id' c₁) : id' = id :=
            by_contra fun hne => hnone ⟨id', hne, c₁, h⟩
          obtain rfl := honly holder c' hlease
          obtain ⟨hne, hother⟩ := (hjoins other).1 hstays
          exact hquiet (.orphans hsource hlease honly (fun hself => ((hjoins holder).1 hself).1 rfl)
            hne hother)
        rw [eq_of_rents hleased hlease hheir]
        exact ⟨heir, (hrents heir c₁).2 ⟨hne, hheir⟩⟩
      · rintro ⟨holder, hlease⟩
        exact ⟨holder, ((hrents holder c').1 hlease).2⟩
    · rw [hlast fun other hother => hempty ⟨other, hother⟩]
      exact iff_of_false nofun fun ⟨other, hother⟩ => hempty ⟨other, hother.1⟩

end

/-- **Addresses stay those of the leases, unless clients get in each other's way.** -/
theorem Turn.mirrors_iff_not_disturbs (h : r.Turn name r')
    (hbefore : r.tree.source? name = some .dhcp) (hafter : r'.tree.source? name = some .dhcp)
    (hmirrors : r.Mirrors name) : r'.Mirrors name ↔ ¬ r.Disturbs name r' := by
  have hleased := hmirrors hbefore
  rw [Mirrors, forall_prop_of_true hafter]
  cases h with
  | kept hconfig hrents hjoins =>
    simp only [hconfig, hrents]
    refine iff_of_true hleased fun hdisturbs => ?_
    cases hdisturbs with
    | rivals _ hnew hold => exact hold ((hrents ..).1 hnew)
    | bereaves _ hold hlost => exact hlost _ ((hrents ..).2 hold)
    | orphans _ hold honly hleft => exact hleft (hjoins _ hold.1)
  | granted hthere hconfig hself hrents hjoins =>
    exact mirrors_granted hleased hthere hconfig hself hrents hjoins
  | ended hconfig hold hrents hjoins => exact mirrors_ended hconfig hafter hold hrents hjoins
  | parted hlast hothers hrents hjoins =>
    exact mirrors_parted hleased hafter hlast hothers hrents hjoins

/-! ## Steps and runs -/

namespace Arises

/-- Where addresses were not leased before a change, or are not after it, clients cannot get in each
other's way. -/
theorem mirrors_of_not_leased (h : r.Arises) (hmove : r.Move r')
    (hleased : ¬ (r.tree.source? name = some .dhcp ∧ r'.tree.source? name = some .dhcp)) :
    r'.Mirrors name ∧ ¬ r.Disturbs name r' := by
  have h' := h.move hmove
  by_cases hafter : r'.tree.source? name = some .dhcp
  · have hbefore : r.tree.source? name ≠ some .dhcp := fun hbefore => hleased ⟨hbefore, hafter⟩
    have hnone (id : InterfaceId) (c : IpConfig) : ¬ r.Rents name id c := fun hrents =>
      hbefore (h.source?_of_rents hrents)
    rcases (hmove.course h.good).design with hdesign | ⟨config, hvalid, rfl⟩
    · exact absurd ((source?_of_design hdesign name).symm.trans hafter) hbefore
    · refine mirrors_of_unleased (fun id c hrents => ?_) fun _ => ⟨?_, hnone⟩
      · have hpolicy := h'.policy?_of_joins hrents.1
        rw [policy?_adopt] at hpolicy
        refine hnone id c ((h.rents_iff id c).2 ⟨hpolicy, ?_⟩)
        rw [← grant?_adopt hpolicy hafter]
        exact hrents.2
      · exact (r.ipConfig?_adopt hvalid hafter).trans (if_neg hbefore)
  · exact mirrors_of_unleased (fun id c hrents => hafter (h'.source?_of_rents hrents))
      fun hsource => absurd hsource hafter

/-- **A change leaves the addresses those of the leases exactly if clients stay out of each other's
way.** -/
theorem mirrors_move_iff (h : r.Arises) (hmove : r.Move r') (hspared : ¬ r.Spoils name r')
    (hmirrors : r.Mirrors name) : r'.Mirrors name ↔ ¬ r.Disturbs name r' := by
  by_cases hleased : r.tree.source? name = some .dhcp ∧ r'.tree.source? name = some .dhcp
  · exact (h.turn hmove hleased.1 hleased.2 hspared).mirrors_iff_not_disturbs hleased.1 hleased.2
      hmirrors
  · obtain ⟨hafter, hquiet⟩ := h.mirrors_of_not_leased hmove hleased
    exact iff_of_true hafter hquiet

theorem forall_mirrors_iff {rest : List Router} (h : r.Arises) (hmoves : (r :: rest).IsChain Move)
    (hspared : (r :: rest).IsChain fun r r' => ¬ r.Spoils name r') (hmirrors : r.Mirrors name) :
    (∀ s ∈ r :: rest, s.Mirrors name) ↔ (r :: rest).IsChain fun r r' => ¬ r.Disturbs name r' := by
  induction rest generalizing r with
  | nil => simpa using hmirrors
  | cons r' rest ih =>
    obtain ⟨hmove, hmoves⟩ := List.isChain_cons_cons.1 hmoves
    obtain ⟨hspare, hspared⟩ := List.isChain_cons_cons.1 hspared
    have hstep := h.mirrors_move_iff hmove hspare hmirrors
    have hrest := ih (h.move hmove) hmoves hspared
    rw [List.isChain_cons_cons, List.forall_mem_cons, and_iff_right hmirrors]
    constructor
    · intro hall
      have hnext : r'.Mirrors name := hall r' List.mem_cons_self
      exact ⟨hstep.1 hnext, (hrest hnext).1 hall⟩
    · rintro ⟨hquiet, hchain⟩
      exact (hrest (hstep.2 hquiet)).2 hchain

end Arises

namespace Run

variable {states : List Router}

/-- **The addresses are those of the leases throughout a run exactly if clients stay out of each
other's way.** -/
theorem forall_mirrors_iff (h : Run states)
    (hspared : states.IsChain fun r r' => ¬ r.Spoils name r') :
    (∀ r ∈ states, r.Mirrors name) ↔ states.IsChain fun r r' => ¬ r.Disturbs name r' := by
  obtain ⟨xid, hstart⟩ := h.start
  obtain ⟨rest, rfl⟩ := List.head?_eq_some_iff.1 hstart
  exact Arises.forall_mirrors_iff (h.arises List.mem_cons_self) h.moves hspared nofun

/-- **One client at a time is never in the way.** -/
theorem forall_mirrors_of_alone (h : Run states)
    (hspared : states.IsChain fun r r' => ¬ r.Spoils name r')
    (halone : ∀ r ∈ states, ∀ id other, r.Joins name id → r.Joins name other → other = id) :
    ∀ r ∈ states, r.Mirrors name := by
  refine (h.forall_mirrors_iff hspared).2 (List.isChain_iff_getElem.2 fun k hk hdisturbs => ?_)
  obtain ⟨id, other, hne, hid, hother⟩ := hdisturbs.exists_ne
  exact hne (halone _ (List.getElem_mem _) id other hid hother)

end Run

/-- **Leased addresses and the leases behind them.** Every state of a router is the last one of some
run.  In a run without a spoiled renewal a domain whose addresses are leased has those of the leases
throughout exactly if its clients stay out of each other's way. -/
theorem mirrors_throughout (name : String) :
    (∀ r : Router, r.Reachable → ∃ states, Run states ∧ states.getLast? = some r) ∧
    ∀ states, Run states → (states.IsChain fun r r' => ¬ r.Spoils name r') →
      ((∀ r ∈ states, r.Mirrors name) ↔ states.IsChain fun r r' => ¬ r.Disturbs name r') :=
  ⟨fun _ h => h.arises.exists_run, fun _ h hspared => h.forall_mirrors_iff hspared⟩

/-! ## Two clients of one domain -/

/-- Only attached interfaces have clients with leases. -/
theorem grant?_ne_some (hnone : ∀ id ∈ r.interfaces.ids, r.grant? id = none) (id : InterfaceId)
    (c : IpConfig) : r.grant? id ≠ some c := by
  intro hgrant
  obtain ⟨policy, hpolicy⟩ := isSome_policy?_of_grant? hgrant
  have hmem := InterfaceTable.mem_ids_of_policy? (Option.isSome_of_eq_some hpolicy)
  cases (hnone id hmem).symm.trans hgrant

/-- While no client has a lease, no renewal is spoiled, and nobody is in the way. -/
theorem Arises.not_disturbs_of_grant? (h : r.Arises)
    (hnone : ∀ id ∈ r.interfaces.ids, r.grant? id = none) (r' : Router) :
    ¬ r.Spoils name r' ∧ ¬ r.Disturbs name r' := by
  have hnone := grant?_ne_some hnone
  constructor
  · rintro ⟨id, i, client, msg, now, hi, -, hclient, hspoiled, -⟩
    have hthere : r.client? id = some client := by
      rw [client?, hi]
      exact hclient
    have hlease : client.lease.isSome = true := (h.phased hthere).trans hspoiled.isLeased
    obtain ⟨lease, hlease⟩ := Option.isSome_iff_exists.1 hlease
    refine hnone id lease.config ?_
    rw [grant?, hthere, Option.bind_some, hlease, Option.map_some]
  · intro hdisturbs
    cases hdisturbs with
    | rivals _ _ _ _ hother => exact hnone _ _ hother.2
    | bereaves _ hold => exact hnone _ _ hold.2
    | orphans _ hold => exact hnone _ _ hold.2

namespace Uplink

/-- What the first interface's client does when it is given a message, or when time has passed. -/
def act (client : DhcpClient) (fresh : UInt32) : Option Wire.Dhcp.Message → DhcpAction × DhcpClient
  | some message => (client.handle message fresh 0).value
  | none => (client.tick fresh 0).value

/-- The router after that. -/
def told (r : Router) (message : Option Wire.Dhcp.Message) : Router :=
  match r.client? ⟨0, 0⟩ with
  | none => r
  | some client =>
    let (action, after) := act client r.nextXid message
    ((r.withClient ⟨0, 0⟩ after).carryOut ⟨0, 0⟩ action).value.router

theorem move_told (r : Router) (message : Option Wire.Dhcp.Message)
    (hclient : (r.client? ⟨0, 0⟩).isSome = true) : r.Move (told r message) := by
  obtain ⟨client, hclient⟩ := Option.isSome_iff_exists.1 hclient
  obtain ⟨i, hi, hthere⟩ := Option.bind_eq_some_iff.1 hclient
  have hacts : client.Acts r.nextXid (act client r.nextXid message).1
      (act client r.nextXid message).2 := by
    cases message with
    | none => exact ⟨0, .inl rfl⟩
    | some message => exact ⟨0, .inr ⟨message, rfl⟩⟩
  unfold told
  rw [hclient]
  exact .instructed hi hthere hacts

/-- Two interfaces are attached, and the client of the first one leases an address. -/
def states : List Router :=
  let started := (({} : Router).adopt config).value
  let asked := told attached none
  let offered := told asked (message .offer)
  [{}, started, (started.attach "uplink").value.2, attached, asked, offered,
    told offered (message .ack)]

theorem run_states : Run states := by
  refine ⟨⟨0, rfl⟩, ?_⟩
  simp only [states, List.isChain_cons_cons, List.isChain_singleton, and_true]
  refine ⟨.adopted hasErrors_config, .attached "uplink", .attached "uplink", ?_, ?_, ?_⟩ <;>
    exact move_told _ _ (by decide +kernel)

/-- Up to the lease nobody is in the way of anybody. -/
theorem chain_states : states.IsChain fun r r' =>
    ¬ r.Spoils "uplink" r' ∧ ¬ r.Disturbs "uplink" r' := by
  have hnone : ∀ r ∈ states.dropLast, ∀ id ∈ r.interfaces.ids, r.grant? id = none := by
    decide +kernel
  refine List.isChain_iff_getElem.2 fun k hk => ?_
  have hk' : k < states.dropLast.length := by
    rw [List.length_dropLast]
    exact Nat.lt_sub_of_add_lt hk
  refine (run_states.arises (List.getElem_mem _)).not_disturbs_of_grant? (hnone _ ?_) _
  exact List.getElem_dropLast hk' ▸ List.getElem_mem hk'

/-- The router when the first interface is detached again. -/
def orphaned : Router :=
  (leased.detach ⟨0, 0⟩).value.toOption.getD leased

theorem detach_leased : (leased.detach ⟨0, 0⟩).value = .ok orphaned := by
  have hok : (leased.detach ⟨0, 0⟩).value.isOk = true := by decide +kernel
  unfold orphaned
  cases hvalue : (leased.detach ⟨0, 0⟩).value with
  | ok r => rfl
  | error e =>
    rw [hvalue] at hok
    cases hok

end Uplink

/-- One of two clients has a lease, and the domain its addresses. -/
theorem mirrors_throughout_uplink : Run Uplink.states ∧
    (∀ r ∈ Uplink.states, r.Mirrors "uplink") ∧
    Uplink.states.getLast?.bind (·.tree.ipConfig? "uplink") = some Uplink.granted ∧
    Uplink.states.getLast?.map (·.interfaces.ids) = some [⟨0, 0⟩, ⟨1, 0⟩] := by
  have hspared := Uplink.chain_states.imp fun _ _ h => h.1
  have hquiet := Uplink.chain_states.imp fun _ _ h => h.2
  exact ⟨Uplink.run_states,
    ((mirrors_throughout "uplink").2 _ Uplink.run_states hspared).2 hquiet,
    by decide +kernel, by decide +kernel⟩

/-- **Addresses stay without a lease** when the interface goes through which they were leased, and
another one stays. -/
theorem orphaned_addresses_stay : Uplink.orphaned.Reachable ∧
    Uplink.orphaned.tree.source? "uplink" = some .dhcp ∧
    Uplink.orphaned.tree.ipConfig? "uplink" = some Uplink.granted ∧
    ¬ ∃ id, Uplink.orphaned.Rents "uplink" id Uplink.granted := by
  refine ⟨.detach Uplink.reachable_leased Uplink.detach_leased, by decide +kernel,
    by decide +kernel, ?_⟩
  rintro ⟨id, -, hgrant⟩
  exact grant?_ne_some (by decide +kernel) id _ hgrant

end Router

end SegmentRouter
