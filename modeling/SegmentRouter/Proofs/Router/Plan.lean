import SegmentRouter.Proofs.Router.Course

/-!
# Proofs/Router/Plan — domains are as they are configured

A router is set up by its configuration, which breaks no rule, and what a domain has of it — source
of addresses, rules, shares, server — is as it was made at any time (`Arises.planned`).  Only a new
configuration makes new domains.
-/

namespace SegmentRouter

theorem DomainTree.plans_of_still {tree tree' : DomainTree} (h : tree'.still = tree.still) :
    tree'.plans = tree.plans :=
  map_congr_of_map (f := Domain.still) (g := Domain.plan) (k := fun d => { d with
    ipConfig := none, arp := ∅, interfaces := ∅, dependents := ∅ })
    (fun _ => rfl) (congrArg DomainTree.domains h)

namespace Router

variable {r r' : Router}

/-- What a router is configured with and what its domains have of it. -/
def design (r : Router) : Config × Bool × List Domain :=
  (r.config, r.tree.verbose, r.tree.plans)

theorem design_withTree {tree : DomainTree} (h : tree.shell = r.tree.shell) :
    (r.withTree tree).design = r.design :=
  Prod.ext rfl (Prod.ext (congrArg DomainTree.verbose h :) (DomainTree.plans_of_shell h))

theorem design_updateAt (id : DomainId) {f : Domain → Domain} (hf : ∀ d, (f d).plan = d.plan) :
    (r.withTree (r.tree.updateAt id f)).design = r.design := by
  unfold DomainTree.updateAt
  split
  · exact Prod.ext rfl (Prod.ext rfl (DomainTree.map_modify hf ..))
  · rfl

theorem design_release (r : Router) (interface : InterfaceId) :
    (r.release interface).value.design = r.design :=
  design_withTree (r := r) (r.shell_release interface)

theorem design_bind (r : Router) (interface : InterfaceId) :
    (r.bind interface).value.design = r.design := by
  have hbinding := r.binding_bind interface
  generalize (r.bind interface).value = r' at hbinding ⊢
  cases hbinding with
  | absent hi => rfl
  | placed hi hid hd => exact Prod.ext rfl (Prod.ext rfl (DomainTree.plans_update fun _ => rfl))
  | homeless hi hid hd => exact design_release ..

theorem design_bindAll (interfaces : List InterfaceId) (r : Router) :
    (bindAll interfaces r).value.design = r.design := by
  induction interfaces generalizing r with
  | nil => rfl
  | cons interface rest ih => exact (ih _).trans (r.design_bind interface)

/-- A new configuration makes the design; putting the interfaces into the new domains leaves it. -/
theorem design_adopt (r : Router) (config : Config) :
    (r.adopt config).value.design = (r.renewed config).design :=
  design_bindAll r.interfaces.ids (r.renewed config)

/-- Addresses that are set, and what they bring with them, are not configured. -/
theorem design_setIpConfig {id : DomainId} {config : Option IpConfig} {tree : DomainTree}
    (hset : (r.tree.setIpConfig id config).value = .ok tree) :
    (r.withTree tree).design = r.design :=
  design_withTree (DomainTree.shell_setIpConfig hset)

theorem design_carryOut (r : Router) (interface : InterfaceId) (action : DhcpAction) :
    (r.carryOut interface action).value.router.design = r.design := by
  rcases r.carryOut_cases interface action with hkept | ⟨id, config, tree, -, -, hset, hvalue⟩
  · rw [hkept]
  · rw [hvalue]
    exact design_setIpConfig hset

theorem design_left (r : Router) (interface : InterfaceId) (id : DomainId) :
    (r.left interface id).design = r.design :=
  (design_updateAt id (f := (·.removeInterface interface)) fun _ => rfl).trans (design_release ..)

theorem design_unbind (r : Router) (interface : InterfaceId) :
    (r.unbind interface).value.design = r.design := by
  have hunbinding := r.unbinding_unbind interface
  generalize (r.unbind interface).value = r' at hunbinding ⊢
  cases hunbinding with
  | outside hid => rfl
  | inside hid => exact design_left ..
  | orphaned hid hd hdhcp hset => exact (design_setIpConfig hset).trans (design_left ..)

/-- **Only a new configuration changes what is configured.** -/
theorem Course.design (h : r.Course r') : r'.design = r.design ∨
    ∃ config : Config, config.validate.hasErrors = false ∧ r' = (r.adopt config).value := by
  cases h with
  | calm hcalm =>
    refine .inl (Prod.ext hcalm.config (Prod.ext ?_ (DomainTree.plans_of_still hcalm.tree)))
    exact (congrArg DomainTree.verbose hcalm.tree :)
  | learned hd hconfig hentry =>
    exact .inl (design_withTree (DomainTree.shell_update fun _ => rfl))
  | agedArp now => exact .inl (design_withTree (r := r) (shell_ageArp ..))
  | instructed hi hclient hacts => exact .inl ((design_carryOut ..).trans rfl)
  | attached domain => exact .inl ((design_bind ..).trans rfl)
  | @detached r' interface hr' =>
    obtain ⟨interfaces, rfl, -⟩ := detach_eq_ok hr'
    exact .inl (r.design_unbind interface)
  | adopted hvalid => exact .inr ⟨_, hvalid, rfl⟩

/-- A router that is set up by a configuration which breaks no rule. -/
structure Planned (r : Router) : Prop where
  valid : r.config.validate.hasErrors = false
  verbose : r.tree.verbose = r.config.verboseDomainState
  plans : r.tree.plans = r.config.plans

theorem Planned.of_design (h : r.Planned) (hd : r'.design = r.design) : r'.Planned := by
  obtain ⟨hconfig, hrest⟩ := Prod.mk.inj hd
  obtain ⟨hverbose, hplans⟩ := Prod.mk.inj hrest
  exact ⟨hconfig ▸ h.valid, hconfig ▸ hverbose.trans h.verbose, hconfig ▸ hplans.trans h.plans⟩

/-- **At any time a router is what its configuration makes of it.** -/
theorem Arises.planned (h : r.Arises) : r.Planned := by
  have hempty : (Config.validate {}).hasErrors = false := by decide +kernel
  refine h.course_induction (fun _ => ⟨hempty, rfl, rfl⟩) fun {r r'} hr ih hcourse => ?_
  rcases hcourse.design with hdesign | ⟨config, hvalid, rfl⟩
  · exact ih.of_design hdesign
  · obtain ⟨hplans, hverbose⟩ := r.tree.plans_next config
    exact Planned.of_design (r := r.renewed config) ⟨hvalid, hverbose, hplans⟩
      (r.design_adopt config)

end Router

end SegmentRouter
