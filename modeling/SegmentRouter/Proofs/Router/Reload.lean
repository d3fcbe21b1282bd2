import SegmentRouter.Proofs.Config.Names
import SegmentRouter.Proofs.Router.Interfaces
import SegmentRouter.Proofs.Tree.Succession
import SegmentRouter.Router.Event

/-!
# Proofs/Router/Reload — a router with a new configuration

A configuration without errors is adopted: the domains are made anew, the links that survive are
taken over, and every interface is put where it is meant to be then.  One with errors changes
nothing but the list of faults.
-/

namespace SegmentRouter.Router

variable {r : Router} {config : Config}

/-- The router with new domains, before the interfaces are bound again. -/
def renewed (r : Router) (config : Config) : Router :=
  { r with config, tree := (r.tree.next config).value, configError := none }

/-- Interfaces are meant for what they were meant for. -/
theorem policy?_adopt (r : Router) (config : Config) (id : InterfaceId) :
    (r.adopt config).value.interfaces.policy? id = r.interfaces.policy? id :=
  policy?_bindAll r.interfaces.ids (r.renewed config) id

theorem apply_of_valid (r : Router) (h : config.validate.hasErrors = false) :
    (r.apply config).value = (none, (r.adopt config).value) := by
  unfold apply
  rw [Logged.value_bind, Config.accept_eq_ok.2 ⟨h, rfl⟩]
  rfl

theorem apply_of_invalid (r : Router) (h : config.validate.hasErrors = true) :
    ∃ e faults, (r.apply config).value = (some e, { r with configError := some faults }) := by
  unfold apply
  rw [Logged.value_bind]
  cases haccept : config.accept.value with
  | ok accepted =>
    rw [(Config.accept_eq_ok.1 haccept).1] at h
    cases h
  | error e => exact ⟨e, _, rfl⟩

/-! ## The links -/

namespace Good

variable (h : r.Good) (hvalid : config.validate.hasErrors = false)

include h hvalid

theorem sound_renewed : (r.renewed config).tree.Sound :=
  (h.sound.next (Config.nodup_names hvalid)).1

/-- The links of the new domains are links of the old ones. -/
theorem mem_of_renewed {link : Link} (hm : link ∈ (r.renewed config).tree.liveLinks) :
    link ∈ r.tree.liveLinks :=
  (((h.sound.next (Config.nodup_names hvalid)).2 link).1 hm).1

theorem anchored_renewed : (r.renewed config).Anchored := fun link hm =>
  h.anchored link (h.mem_of_renewed hvalid hm)

theorem binds_adopt : (r.renewed config).Binds r.interfaces.ids (r.adopt config).value :=
  binds_bindAll (h.sound_renewed hvalid) (h.anchored_renewed hvalid) r.interfaces.ids

/-- **A router that adopts a configuration stays good.** -/
theorem adopt : (r.adopt config).value.Good := by
  refine (h.binds_adopt hvalid).good (h.anchored_renewed hvalid)
    (fun link hm => h.fresh link (h.mem_of_renewed hvalid hm)) fun {id policy domain} hp hid => ?_
  obtain ⟨i, hi, -⟩ := InterfaceTable.place?_eq_some.1 hp
  exact absurd (InterfaceTable.mem_ids hi) hid

/-- **The links of a router that adopts a configuration are those that survive it.** -/
theorem mem_liveLinks_adopt (link : Link) : link ∈ (r.adopt config).value.tree.liveLinks ↔
    link ∈ r.tree.liveLinks ∧ (r.adopt config).value.tree.Survives
      (r.tree.switched (r.adopt config).value.tree) r.tree.liveLinks link := by
  have hbinds := h.binds_adopt hvalid
  rw [hbinds.mem_liveLinks, DomainTree.survives_of_policies hbinds.tree.policies]
  exact (h.sound.next (Config.nodup_names hvalid)).2 link

end Good

/-- **A new configuration keeps a router good**, whether or not it is adopted. -/
theorem Good.apply (h : r.Good) (config : Config) : (r.apply config).value.2.Good := by
  cases hvalid : config.validate.hasErrors with
  | false =>
    rw [r.apply_of_valid hvalid]
    exact h.adopt hvalid
  | true =>
    obtain ⟨e, faults, hvalue⟩ := r.apply_of_invalid hvalid
    rw [hvalue]
    exact ⟨h.sound, h.fresh, h.settled, h.anchored⟩

end SegmentRouter.Router
