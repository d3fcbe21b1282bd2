import SegmentRouter.Proofs.Config.Suppliers
import SegmentRouter.Proofs.Tree.Supplied

/-!
# Proofs/Tree/Plan — what a domain has of its configuration

Source of addresses, rules, shares and server of a domain are as the configuration makes them
(`plans_next`), whatever happens later to links, addresses and hosts.  From an accepted
configuration the domains have their ranks too (`ranked_of_plans`).
-/

namespace SegmentRouter

/-- The server without leases. -/
def DhcpServer.vacant (s : DhcpServer) : DhcpServer :=
  { s with leases := ∅ }

namespace Domain

/-- The domain with only what is configured of it. -/
def plan (d : Domain) : Domain :=
  { d.shell with
    dhcpServer := d.dhcpServer.map (·.vacant)
    interfaces := ∅
    rxBytes := 0
    txBytes := 0 }

@[simp] theorem name_plan (d : Domain) : d.plan.name = d.name := rfl

theorem vacant_inheritLeases (server : DhcpServer) (previous : Option DhcpServer) :
    (inheritLeases server previous).vacant = server.vacant := by
  unfold inheritLeases
  split
  · split <;> rfl
  · rfl

theorem plan_inherit (d previous : Domain) : (d.inherit previous).plan = d.plan := by
  have hserver : (d.dhcpServer.map (inheritLeases · previous.dhcpServer)).map (·.vacant) =
      d.dhcpServer.map (·.vacant) := by
    rw [Option.map_map]
    exact congrArg (Option.map · d.dhcpServer)
      (funext fun server => vacant_inheritLeases server previous.dhcpServer)
  unfold plan inherit
  dsimp only
  rw [hserver]
  rfl

end Domain

/-- What the domains have that a configuration makes. -/
def Config.plans (config : Config) : List SegmentRouter.Domain :=
  config.domains.map fun c => (Domain.ofConfig c config.timeouts).plan

/-- A domain whose addresses come from another one is configured so. -/
theorem Domain.ipConfigFrom_of_source {c : Config.Domain} {supplier : String}
    (h : sourceOf c = .derived supplier) : c.ipConfigFrom = some supplier := by
  unfold sourceOf at h
  split at h
  · cases h
  · split at h
    · rename_i s hs
      rw [hs, IpSource.derived.inj h]
    · cases h

namespace DomainTree

variable {tree tree' : DomainTree} {config : Config}

/-- What is configured of each domain. -/
def plans (tree : DomainTree) : List Domain :=
  tree.domains.map Domain.plan

theorem plans_of_shell (h : tree'.shell = tree.shell) : tree'.plans = tree.plans :=
  map_congr_of_map (f := Domain.shell) (g := Domain.plan) (k := fun d => { d with
    dhcpServer := d.dhcpServer.map (·.vacant), interfaces := ∅, rxBytes := 0, txBytes := 0 })
    (fun _ => rfl) (congrArg DomainTree.domains h)

theorem plans_update {name : String} {f : Domain → Domain} (hf : ∀ d, (f d).plan = d.plan) :
    (tree.update name f).plans = tree.plans :=
  map_changeByName fun d _ => hf d

/-- **The next domains are made as the configuration says.** -/
theorem plans_next (previous : DomainTree) (config : Config) :
    (previous.next config).value.plans = config.plans ∧
      (previous.next config).value.verbose = config.verboseDomainState := by
  have hshell := previous.shell_next config
  refine ⟨(plans_of_shell hshell).trans ?_, (congrArg DomainTree.verbose hshell :)⟩
  rw [plans, raw, List.map_map]
  refine List.map_congr_left fun c _ => ?_
  rw [Function.comp_apply, succeed]
  split
  · exact Domain.plan_inherit ..
  · rfl

theorem source?_of_plans (h : tree'.plans = tree.plans) (name : String) :
    tree'.source? name = tree.source? name :=
  map_byName?_congr (f := Domain.plan) (g := (·.source)) (k := (·.source)) Domain.name_plan
    (fun _ => rfl) h name

theorem fixed?_of_plans (h : tree'.plans = tree.plans) (name : String) :
    tree'.fixed? name = tree.fixed? name :=
  fixed?_congr (map_byName?_congr (f := Domain.plan) (g := Domain.config) (k := Domain.config)
    Domain.name_plan (fun _ => rfl) h name)

/-- A domain is as its part of the configuration says. -/
theorem plan_of_plans (h : tree.plans = config.plans) {d : Domain} (hd : d ∈ tree.domains) :
    d.config ∈ config.domains ∧ d.plan = (Domain.ofConfig d.config config.timeouts).plan := by
  have hplan : d.plan ∈ config.plans := h ▸ List.mem_map_of_mem hd
  obtain ⟨c, hc, hmade⟩ := List.mem_map.1 hplan
  have hconfig : c = d.config := (congrArg Domain.config hmade :)
  subst hconfig
  exact ⟨hc, hmade.symm⟩

theorem source_of_plans (h : tree.plans = config.plans) {d : Domain} (hd : d ∈ tree.domains) :
    d.source = Domain.sourceOf d.config :=
  (congrArg Domain.source (plan_of_plans h hd).2 :)

theorem names_of_plans (h : tree.plans = config.plans) :
    tree.names = config.domains.map (·.name) := by
  have hnames := congrArg (List.map Domain.name) h
  rwa [plans, Config.plans, List.map_map, List.map_map] at hnames

theorem length_of_plans (h : tree.plans = config.plans) :
    tree.domains.length = config.domains.length := by
  have hlengths := congrArg List.length h
  rwa [plans, Config.plans, List.length_map, List.length_map] at hlengths

/-- **The domains of an accepted configuration have ranks.** -/
theorem ranked_of_plans (h : tree.plans = config.plans)
    (hvalid : config.validate.hasErrors = false) : ∃ rank, tree.Ranked rank := by
  obtain ⟨rank, hrank⟩ := Config.exists_rank hvalid
  refine ⟨rank, ?_, fun name hname => ?_, fun name supplier hsource => ?_⟩
  · rw [Distinct, names_of_plans h]
    exact Config.nodup_names hvalid
  · obtain ⟨d, hd⟩ := Option.isSome_iff_exists.1 hname
    have hmem := (plan_of_plans h (mem_of_byName? hd)).1
    rw [length_of_plans h, ← name_of_byName? hd]
    exact (hrank d.config hmem).1
  · obtain ⟨d, hd, hfrom⟩ := Option.map_eq_some_iff.1 hsource
    have hmem := (plan_of_plans h (mem_of_byName? hd)).1
    rw [← name_of_byName? hd]
    refine (hrank d.config hmem).2 supplier (Domain.ipConfigFrom_of_source ?_)
    rw [← source_of_plans h (mem_of_byName? hd), hfrom]

/-- So have those that are made of one, before anything is taken over. -/
theorem ranked_raw (previous : DomainTree) (hvalid : config.validate.hasErrors = false) :
    ∃ rank, (previous.raw config).Ranked rank :=
  ranked_of_plans ((plans_of_shell (previous.shell_next config)).symm.trans
    (previous.plans_next config).1) hvalid

end DomainTree

end SegmentRouter
