import SegmentRouter.Proofs.Tree.Readmission
import SegmentRouter.Proofs.Tree.Rebuild

/-!
# Proofs/Tree/Shell — what addresses leave as it is when they come and go

New addresses, and those that follow them, change what belongs to addresses: the links, the hosts
that were learned, and who depends on whom.  The *shell* of a domain is the rest of it, and it stays
(`shell_install`).
-/

namespace SegmentRouter

namespace Domain

/-- The domain without links, addresses, and all that hangs on addresses. -/
def shell (d : Domain) : Domain :=
  { d.unlinked with ipConfig := none, arp := ∅, dependents := ∅ }

@[simp] theorem name_shell (d : Domain) : d.shell.name = d.name := rfl

end Domain

namespace DomainTree

variable {tree tree' : DomainTree}

/-- The tree with the shells of its domains. -/
def shell (tree : DomainTree) : DomainTree :=
  { tree with domains := tree.domains.map Domain.shell }

theorem shell_of_unlinked (h : tree'.unlinked = tree.unlinked) : tree'.shell = tree.shell := by
  have hshells : tree'.domains.map Domain.shell = tree.domains.map Domain.shell :=
    map_congr_of_map (f := Domain.unlinked) (g := Domain.shell)
      (k := fun d => { d with ipConfig := none, arp := ∅, dependents := ∅ }) (fun _ => rfl)
      (congrArg DomainTree.domains h)
  exact (congrArg
    (fun t : DomainTree => { t with domains := tree'.domains.map Domain.shell }) h).trans
    (congrArg (fun domains => { tree with domains }) hshells)

theorem names_of_shell (h : tree'.shell = tree.shell) : tree'.names = tree.names :=
  map_congr_of_map (f := Domain.shell) (g := Domain.name) Domain.name_shell
    (congrArg DomainTree.domains h)

theorem Distinct.of_shell (h : tree.Distinct) (hshell : tree'.shell = tree.shell) :
    tree'.Distinct := by
  rwa [Distinct, names_of_shell hshell]

theorem id?_of_shell (h : tree'.shell = tree.shell) (name : String) :
    tree'.id? name = tree.id? name := by
  have hgeneration : tree'.generation = tree.generation := (congrArg DomainTree.generation h :)
  exact id?_congr hgeneration (names_of_shell h) name

theorem shell_update {name : String} {f : Domain → Domain} (hf : ∀ d, (f d).shell = d.shell) :
    (tree.update name f).shell = tree.shell := by
  have hmap : (changeByName name f tree.domains).map Domain.shell =
      tree.domains.map Domain.shell :=
    map_changeByName fun d _ => hf d
  rw [shell, shell, update, hmap]

/-- Where the domain with a name has its addresses from. -/
def source? (tree : DomainTree) (name : String) : Option IpSource :=
  (tree.byName? name).map (·.source)

theorem source?_of_shell (h : tree'.shell = tree.shell) (name : String) :
    tree'.source? name = tree.source? name :=
  map_byName?_congr (f := Domain.shell) (g := (·.source)) (k := (·.source)) Domain.name_shell
    (fun _ => rfl) (congrArg DomainTree.domains h) name

theorem source?_of_mem {d : Domain} (hdistinct : tree.Distinct) (hd : d ∈ tree.domains) :
    tree.source? d.name = some d.source := by
  rw [source?, hdistinct.byName?_of_mem hd, Option.map_some]

theorem derivedFrom_of_shell (h : tree'.shell = tree.shell) (supplier : String) :
    tree'.derivedFrom supplier = tree.derivedFrom supplier := by
  have hshell : ∀ t : DomainTree, t.derivedFrom supplier = t.shell.derivedFrom supplier := by
    intro t
    rw [derivedFrom, derivedFrom, shell, List.filter_map, List.map_map]
    rfl
  rw [hshell, h, ← hshell]

/-! ## Addresses -/

theorem shell_dropState (tree : DomainTree) (name : String) :
    (tree.dropState name).value.shell = tree.shell :=
  (shell_update (f := Domain.forgetHosts) fun _ => rfl).trans
    (shell_of_unlinked (tree.unlinked_dismissLinksOfDomain name))

theorem shell_replaceIpConfig (tree : DomainTree) (name : String)
    (current config : Option IpConfig) :
    (tree.replaceIpConfig name current config).value.shell = tree.shell := by
  have hset : ∀ t : DomainTree, (t.update name (·.withIpConfig config)).shell = t.shell :=
    fun t => shell_update (f := (·.withIpConfig config)) fun _ => rfl
  unfold replaceIpConfig
  split
  · exact (hset _).trans (tree.shell_dropState name)
  · exact hset tree

theorem shell_noteDependent (tree : DomainTree) (supplier name : String) :
    (tree.noteDependent supplier name).shell = tree.shell :=
  shell_update (f := (·.withDependent name (tree.isConfigured name))) fun _ => rfl

/-- **Addresses that are given on leave the shells of all domains.** -/
theorem shell_install (config : Option IpConfig) (changes : Nat) (tree : DomainTree)
    (name : String) : (install config changes tree name).value.shell = tree.shell :=
  install_induction (P := fun t => t.shell = tree.shell) (Q := fun _ => True)
    (fun ht _ _ _ => (shell_replaceIpConfig ..).trans ht) (fun _ _ _ => trivial)
    (fun ht => (shell_noteDependent ..).trans ht) changes rfl trivial

theorem shell_setIpConfig {id : DomainId} {config : Option IpConfig}
    (hset : (tree.setIpConfig id config).value = .ok tree') : tree'.shell = tree.shell := by
  obtain ⟨d, -, -, rfl⟩ := setIpConfig_eq_ok hset
  exact shell_install ..

/-! ## A new configuration -/

theorem shell_addressed (previous : DomainTree) (config : Config) :
    (previous.addressed config).shell = (previous.raw config).shell :=
  addressed_of_install (P := fun t => t.shell = (previous.raw config).shell)
    (fun _ _ _ ht => (shell_install ..).trans ht) (fun ht => (shell_noteDependent ..).trans ht) rfl

/-- **The domains of a new configuration have the shells that they are made with.** -/
theorem shell_rebuild (previous : DomainTree) (config : Config) :
    (previous.rebuild config).value.2.shell = (previous.raw config).shell := by
  rw [← shell_addressed, rebuild_eq, shell, shell, map_pruneAll fun _ _ => rfl]

theorem shell_next (previous : DomainTree) (config : Config) :
    (previous.next config).value.shell = (previous.raw config).shell :=
  (shell_of_unlinked (unlinked_readmitAll ..)).trans (previous.shell_rebuild config)

end DomainTree

end SegmentRouter
