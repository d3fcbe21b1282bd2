import SegmentRouter.Proofs.Router.Counters
import SegmentRouter.Proofs.Router.Hosts

/-!
# Proofs/Router/Tallies — what is counted for the frames that arrive and leave

A frame that passes through an interface is counted there and in the domain that the interface is
meant for (`Good.change_eq_counted`).  Which domain that is does not change while frames are handled
(`Good.keeps_process`), so whatever is counted may be counted at any time.
-/

namespace SegmentRouter

namespace Router

/-! ## What is counted -/

/-- What is to be counted where bytes pass through an interface that is meant for a domain. -/
def passing (policy : Option String) (id : InterfaceId) (n : Nat × Nat) : Tally :=
  match policy with
  | some policy => (Pi.single policy n, Pi.single id.index n)
  | none => 0

/-- **What passes through an interface is counted there and in the domain that it is meant for.** -/
theorem Good.change_eq_counted {r : Router} (h : r.Good) (id : InterfaceId) (n : Nat × Nat) :
    r.change id (·.counted n) (·.counted fun _ => n) =
      r.counted (passing (r.interfaces.policy? id) id n) := by
  cases hi : r.interfaces.get? id with
  | none =>
    have hnone : r.interfaces.policy? id = none := by
      rw [InterfaceTable.policy?, hi, Option.map_none]
    rw [change, hi, hnone]
    exact r.counted_zero.symm
  | some i =>
    have hsettled := h.settled (InterfaceTable.place?_eq_some.2 ⟨i, hi, rfl, rfl⟩)
    rw [change, hi, InterfaceTable.policy?_of_get? hi]
    dsimp only [passing, counted]
    rw [InterfaceTable.modify_eq_counted hi, ← h.sound.distinct.update_eq_counted]
    cases hdomain : i.domain with
    | some d =>
      dsimp only
      rw [DomainTree.updateAt_of_id? (hsettled.symm.trans hdomain)]
    | none =>
      have hsome := r.tree.isSome_id? i.policy
      rw [← hsettled, hdomain] at hsome
      have hnone : r.tree.byName? i.policy = none :=
        Option.not_isSome_iff_eq_none.1 fun h => Bool.false_ne_true (hsome.trans h)
      dsimp only
      rw [DomainTree.update_of_none hnone]

/-- What is to be counted for a frame that arrives. -/
def arrival (policies : InterfaceId → Option String) (id : InterfaceId) (n : Nat) : Tally :=
  passing (policies id) id (n, 0)

/-- What is to be counted for frames that are sent. -/
def departure (policies : InterfaceId → Option String) (sent : List Transmit) : Tally :=
  (sent.map fun x => passing (policies x.interface) x.interface (0, x.frame.length)).sum

theorem departure_append (policies : InterfaceId → Option String) (sent sent' : List Transmit) :
    departure policies (sent ++ sent') = departure policies sent + departure policies sent' := by
  rw [departure, List.map_append, List.sum_append]
  rfl

theorem Good.countArrival_eq_counted {r : Router} (h : r.Good) {id : InterfaceId}
    (hd : (r.domainOf? id).isSome) (n : Nat) :
    r.countArrival id n = r.counted (arrival r.interfaces.policy? id n) := by
  rw [countArrival, if_pos hd]
  exact h.change_eq_counted id (n, 0)

theorem Good.countAllSent_eq_counted {r : Router} (h : r.Good) (sent : List Transmit) :
    r.countAllSent sent = r.counted (departure r.interfaces.policy? sent) := by
  induction sent generalizing r with
  | nil => exact r.counted_zero.symm
  | cons x rest ih =>
    have hfirst : r.countSent x = r.counted
        (passing (r.interfaces.policy? x.interface) x.interface (0, x.frame.length)) :=
      h.change_eq_counted x.interface (0, x.frame.length)
    have hpolicies : (r.countSent x).interfaces.policy? = r.interfaces.policy? := by
      rw [hfirst]
      exact funext fun id => r.policy?_counted _ id
    refine (ih ((h.sheds_countSent x).good h)).trans ?_
    rw [hpolicies, hfirst, counted_counted]
    rfl

/-! ## Where interfaces are -/

/-- Every interface is still meant for the same domain, and no domain came or went. -/
structure Keeps (r r' : Router) : Prop where
  names : r'.tree.names = r.tree.names
  policies : r'.interfaces.policy? = r.interfaces.policy?

namespace Keeps

variable {r r' r'' : Router}

theorem refl (r : Router) : r.Keeps r :=
  ⟨rfl, rfl⟩

theorem trans (h : r.Keeps r') (h' : r'.Keeps r'') : r.Keeps r'' :=
  ⟨h'.names.trans h.names, h'.policies.trans h.policies⟩

theorem of_sheds (h : r.Sheds r') : r.Keeps r' :=
  ⟨h.tree.names, funext fun id => InterfaceTable.policy?_of_place? (h.places id)⟩

theorem of_calm (h : r.Calm r') : r.Keeps r' where
  names := DomainTree.map_congr_of_map (f := Domain.still) (g := Domain.name) Domain.name_still
    (congrArg DomainTree.domains h.tree)
  policies := funext h.policy?_eq

theorem counted (t : Tally) (r : Router) : r.Keeps (r.counted t) where
  names := List.map_map ..
  policies := funext fun id => r.policy?_counted t id

/-- An interface that was in a domain is in one still. -/
theorem isSome_domainOf? (h : r.Keeps r') (hgood : r.Good) (hgood' : r'.Good) {id : InterfaceId}
    (hd : (r.domainOf? id).isSome) : (r'.domainOf? id).isSome := by
  obtain ⟨d, hd⟩ := Option.isSome_iff_exists.1 hd
  obtain ⟨hby, hpolicy⟩ := hgood.policy?_of_domainOf? hd
  rw [← h.policies] at hpolicy
  obtain ⟨i, hi, hname⟩ := Option.map_eq_some_iff.1 hpolicy
  rw [hgood'.domainOf?_eq hi, hname, DomainTree.byName?, ← DomainTree.isSome_indexOf?,
    DomainTree.indexOf?_congr d.name h.names, DomainTree.isSome_indexOf?]
  exact Option.isSome_of_eq_some hby

end Keeps

section

variable {r : Router}

theorem keeps_openLink (h : r.Good) (frame : Waiter) (client : String) (target : LinkTarget)
    (flow : PacketFlow) (packet : Wire.Ipv4.Packet) :
    r.Keeps (r.openLink frame client target flow packet).value.router := by
  unfold openLink
  split
  · exact .refl r
  · rename_i server hserver
    split
    · exact .refl r
    · rename_i routerIp hip
      have hresolve := h.sheds_resolve target.domain target.ip frame
      unfold openTowards
      rw [Logged.value_bind]
      rcases hvalue : (r.resolve target.domain target.ip frame).value with ⟨hop, reaction⟩
      rw [hvalue] at hresolve
      cases hop with
      | none => exact .of_sheds hresolve
      | some hop =>
        dsimp only
        cases hsource : server.linkSource routerIp client flow.key with
        | error e => exact .refl r
        | ok found => exact .of_calm (calm_entered hserver hsource ..)

/-- **Handling a frame leaves every interface in its domain.** -/
theorem Good.keeps_process (h : r.Good) (frame : Waiter) :
    r.Keeps (r.process frame).value.router := by
  have hhandles := r.handles_process frame
  generalize (r.process frame).value = x at hhandles ⊢
  cases hhandles with
  | ignored => exact .refl r
  | heard hears => exact .of_sheds (h.sheds_of_core (DomainTree.core_updateAt fun _ => rfl))
  | @carried id d f p ha =>
    cases d.verdict p with
    | drop reason => cases reason <;> exact .refl r
    | toDhcpClient message => exact .of_sheds (h.sheds_consumeDhcp ..)
    | toDhcpServer message => exact .of_sheds (h.sheds_serveDhcp ..)
    | echo => exact (congrArg r.Keeps (router_echo r frame.src f.src p)).mpr (.refl r)
    | follow ref flow packet => exact .of_sheds (h.sheds_follow ..)
    | openLink target flow packet => exact keeps_openLink h ..
    | pass domain packet => exact .of_sheds (h.sheds_pass ..)
    | refuse reason packet =>
      exact (congrArg r.Keeps (router_refuse r frame.src f.src d reason packet)).mpr (.refl r)

theorem Good.keeps_replay (h : r.Good) (now : Nat) (waiters : List Waiter) :
    r.Keeps (Router.replay now waiters r).value.router := by
  induction waiters generalizing r with
  | nil => exact .refl r
  | cons w rest ih =>
    exact (h.keeps_process { w with queued := now }).trans (ih (h.process { w with queued := now }))

end

end Router

end SegmentRouter
