import SegmentRouter.Proofs.Router.Reachable

/-!
# Proofs/Router/Survival — the links that outlive a configuration

A router that takes a new configuration keeps the links that its new rules lead as they were opened,
and loses the others (`Reachable.ownedLink?_apply`).  Where a client's share has become smaller the
oldest links keep their ports.  While links are taken over they never stand in each other's way.
-/

namespace SegmentRouter.Router

variable {r : Router} {config : Config}

namespace Good

variable (h : r.Good) (hvalid : config.validate.hasErrors = false)

include h hvalid

/-- Links that survive are held as they were, under their ids. -/
theorem ownedLink?_adopt (owner : String) (id : Nat) (link : Link) :
    (r.adopt config).value.tree.ownedLink? owner id = some link ↔
      r.tree.ownedLink? owner id = some link ∧ (r.adopt config).value.tree.Survives
        (r.tree.switched (r.adopt config).value.tree) r.tree.liveLinks link := by
  rw [(h.adopt hvalid).sound.ownedLink?_eq_some, h.sound.ownedLink?_eq_some,
    h.mem_liveLinks_adopt hvalid]
  exact and_right_comm

/-- **Links that are taken over do not stand in each other's way.** -/
theorem unobstructed {earlier later : List Link} {link : Link}
    (hall : r.tree.allLinks = earlier ++ link :: later) :
    (r.tree.readmitted config earlier).Unobstructed (r.tree.rebuild config).value.1 link := by
  have hnames := Config.nodup_names hvalid
  have hreadmits := h.sound.readmits hnames hall
  have hids := h.sound.pairwise_allLinks
  have hlive : ∀ l ∈ r.tree.allLinks, l ∈ r.tree.liveLinks := fun l hl =>
    h.sound.distinct.allLinks_perm.mem_iff.1 hl
  rw [hall] at hlive
  rw [hall, List.pairwise_append] at hids
  refine hreadmits.unobstructed h.sound (fun l hl => hlive l (List.mem_append_left _ hl))
    (hlive link (List.mem_append_right _ List.mem_cons_self))
    (fun name => DomainTree.mem_changed_rebuild hnames) fun hl => ?_
  exact Nat.lt_irrefl _ (hids.2.2 link hl link List.mem_cons_self rfl)

end Good

/-- **A reload keeps exactly the links that it should**, each as it was.  Of the links that go on
those are kept that find their share not used up by older ones; and while they are taken over, one
after the other, none is in the way of the next. -/
theorem Reachable.ownedLink?_apply (h : r.Reachable) (hvalid : config.validate.hasErrors = false) :
    (r.apply config).value.1 = none ∧
    (∀ owner id link, (r.apply config).value.2.tree.ownedLink? owner id = some link ↔
      r.tree.ownedLink? owner id = some link ∧ (r.apply config).value.2.tree.Survives
        (r.tree.switched (r.apply config).value.2.tree) r.tree.liveLinks link) ∧
    ∀ earlier link later, r.tree.allLinks = earlier ++ link :: later →
      (r.tree.readmitted config earlier).Unobstructed (r.tree.rebuild config).value.1 link := by
  rw [r.apply_of_valid hvalid]
  exact ⟨rfl, h.good.ownedLink?_adopt hvalid, fun _ _ _ hall => h.good.unobstructed hvalid hall⟩

/-- The link of a ping survives when the same configuration is loaded again. -/
theorem ownedLink?_apply_ping : Ping.config.validate.hasErrors = false ∧
    Ping.router.tree.ownedLink? "lan" 1 = some Ping.link ∧
    (Ping.router.apply Ping.config).value.2.tree.ownedLink? "lan" 1 = some Ping.link := by
  have hheld : Ping.router.tree.ownedLink? "lan" 1 = some Ping.link := by decide +kernel
  refine ⟨Ping.hasErrors_config, hheld, ?_⟩
  rw [(Ping.reachable_router.ownedLink?_apply Ping.hasErrors_config).2.1]
  exact ⟨hheld, by decide +kernel⟩

end SegmentRouter.Router
