import SegmentRouter.Proofs.Arp.Queue
import SegmentRouter.Proofs.Tree.Supplied

/-!
# Proofs/Tree/Hosts — what domains know of their hosts

A domain knows only of hosts inside its subnet (`DomainTree.Tidy`), because all is forgotten with
the addresses, and a new configuration takes over what lies inside only.  Neither tells of a host
that was not known before (`DomainTree.Forgets`).
-/

namespace SegmentRouter

/-- An entry tells of no interface of which another one does not, and no frame waits for it that did
not wait for that one, in the same order. -/
structure ArpEntry.Within (e e' : ArpEntry) : Prop where
  via : ∀ id, ArpCache.isVia id e = true → ArpCache.isVia id e' = true
  waiters : e.waiters.Sublist e'.waiters

theorem ArpEntry.Within.refl (e : ArpEntry) : e.Within e :=
  ⟨fun _ => id, List.Sublist.refl _⟩

namespace DomainTree

variable {tree tree' tree'' : DomainTree} {name other : String} {ip : Ipv4Addr}

/-- What the domain with a name knows of an address. -/
def host? (tree : DomainTree) (name : String) (ip : Ipv4Addr) : Option ArpEntry :=
  (tree.byName? name).bind (·.arp.get? ip)

/-- The frames that wait in the domain with a name for an address, in the order in which they
came. -/
def queue (tree : DomainTree) (name : String) (ip : Ipv4Addr) : List Waiter :=
  ((tree.host? name ip).map (·.waiters)).getD []

/-- A later tree knows of no host that was not known before. -/
def Forgets (tree tree' : DomainTree) : Prop :=
  ∀ ⦃name ip e'⦄, tree'.host? name ip = some e' → ∃ e, tree.host? name ip = some e ∧ e'.Within e

/-- Only hosts inside the subnets are known. -/
def Tidy (tree : DomainTree) : Prop :=
  ∀ ⦃name ip e⦄, tree.host? name ip = some e →
    ∃ config, tree.ipConfig? name = some config ∧ config.interface.contains ip = true

namespace Forgets

theorem of_host? (h : ∀ name ip, tree'.host? name ip = tree.host? name ip) : tree.Forgets tree' :=
  fun name ip e' he => ⟨e', h name ip ▸ he, .refl e'⟩

theorem trans (h : tree.Forgets tree') (h' : tree'.Forgets tree'') : tree.Forgets tree'' := by
  intro name ip e'' he''
  obtain ⟨e', he', hw'⟩ := h' he''
  obtain ⟨e, he, hw⟩ := h he'
  exact ⟨e, he, fun id hid => hw.via id (hw'.via id hid),
    hw'.waiters.trans hw.waiters⟩

end Forgets

theorem queue_of_byName? {d : Domain} (hd : tree.byName? name = some d) (ip : Ipv4Addr) :
    tree.queue name ip = d.arp.queue ip := by
  rw [queue, host?, hd]
  rfl

/-- Where hosts are forgotten at most, frames leave queues at most. -/
theorem Forgets.sublist_queue (h : tree.Forgets tree') (name : String) (ip : Ipv4Addr) :
    (tree'.queue name ip).Sublist (tree.queue name ip) := by
  unfold DomainTree.queue
  cases he' : tree'.host? name ip with
  | none => exact List.nil_sublist _
  | some e' =>
    obtain ⟨e, he, hwithin⟩ := h he'
    rw [he]
    exact hwithin.waiters

theorem Tidy.of_forgets (h : tree.Tidy) (hf : tree.Forgets tree')
    (hip : ∀ name, tree'.ipConfig? name = tree.ipConfig? name) : tree'.Tidy := by
  intro name ip e he
  obtain ⟨e₀, he₀, -⟩ := hf he
  rw [hip]
  exact h he₀

/-! ## What leaves hosts as they are -/

theorem host?_eq (tree : DomainTree) (name : String) (ip : Ipv4Addr) :
    tree.host? name ip = ((tree.byName? name).map (·.arp)).bind (·.get? ip) := by
  rw [host?, Option.bind_map]
  rfl

theorem host?_of_unlinked (h : tree'.unlinked = tree.unlinked) (name : String) (ip : Ipv4Addr) :
    tree'.host? name ip = tree.host? name ip := by
  rw [host?_eq, host?_eq, map_byName?_congr (f := Domain.unlinked) (g := (·.arp)) (k := (·.arp))
    Domain.name_unlinked (fun _ => rfl) (congrArg DomainTree.domains h)]

/-- What all domains know of hosts changes as that of each one does. -/
theorem host?_map (tree : DomainTree) {g : Domain → Domain} (hname : ∀ d, (g d).name = d.name)
    (name : String) (ip : Ipv4Addr) :
    ({ tree with domains := tree.domains.map g } : DomainTree).host? name ip =
      (tree.byName? name).bind fun d => (g d).arp.get? ip := by
  have hby : ({ tree with domains := tree.domains.map g } : DomainTree).byName? name =
      (tree.byName? name).map g :=
    findByName?_map hname name tree.domains
  rw [host?, hby, Option.bind_map]
  rfl

theorem host?_update {f : Domain → Domain} (hname : ∀ d, (f d).name = d.name) :
    (tree.update name f).host? other ip =
      if other = name then (tree.byName? name).bind fun d => (f d).arp.get? ip
      else tree.host? other ip := by
  rw [host?_eq, map_byName?_update hname]
  split
  · rw [Option.bind_map]
    rfl
  · rw [host?_eq]

/-- What does not concern hosts leaves what is known of them. -/
theorem host?_update_eq {f : Domain → Domain} (hname : ∀ d, (f d).name = d.name)
    (harp : ∀ d, (f d).arp = d.arp) (other : String) (ip : Ipv4Addr) :
    (tree.update name f).host? other ip = tree.host? other ip := by
  rw [host?_update hname]
  split
  · rename_i ho
    simp only [harp, ho]
    rfl
  · rfl

/-! ## Addresses -/

/-- **With the addresses of a domain its hosts are forgotten.** -/
theorem host?_replaceIpConfig (current config : Option IpConfig) (other : String) (ip : Ipv4Addr) :
    (tree.replaceIpConfig name current config).value.host? other ip =
      if other = name ∧ current.isSome = true then none else tree.host? other ip := by
  have hset : ∀ t : DomainTree, (t.update name (·.withIpConfig config)).host? other ip =
      t.host? other ip :=
    fun t => host?_update_eq (f := (·.withIpConfig config)) (fun _ => rfl) (fun _ => rfl) other ip
  unfold replaceIpConfig
  split
  · rename_i hcurrent
    have hdropped : (tree.dropState name).value.host? other ip =
        if other = name then none else tree.host? other ip := by
      rw [← host?_of_unlinked (tree.unlinked_dismissLinksOfDomain name) other ip]
      refine (host?_update (f := Domain.forgetHosts) fun _ => rfl).trans ?_
      split
      · cases (tree.dismissLinksOfDomain name).value.2.byName? name <;> rfl
      · rfl
    refine (hset _).trans (hdropped.trans ?_)
    simp only [hcurrent, and_true]
  · rename_i hcurrent
    rw [if_neg fun he => hcurrent he.2]
    exact hset tree

theorem host?_noteDependent (supplier name other : String) (ip : Ipv4Addr) :
    (tree.noteDependent supplier name).host? other ip = tree.host? other ip :=
  host?_update_eq (f := (·.withDependent name (tree.isConfigured name))) (fun _ => rfl)
    (fun _ => rfl) other ip

theorem forgets_install (config : Option IpConfig) (changes : Nat) (name : String) :
    tree.Forgets (install config changes tree name).value := by
  refine install_induction (P := tree.Forgets) (Q := fun _ => True) (fun ht _ _ _ => ht.trans ?_)
    (fun _ _ _ => trivial) (fun ht => ht.trans (.of_host? (host?_noteDependent _ _))) changes
    (.of_host? fun _ _ => rfl) trivial
  intro name ip e he
  rw [host?_replaceIpConfig] at he
  split at he
  · cases he
  · exact ⟨e, he, .refl e⟩

/-- **New addresses leave no hosts of the old ones.** -/
theorem Tidy.install (h : tree.Tidy) (config : Option IpConfig) (changes : Nat) (name : String) :
    (install config changes tree name).value.Tidy := by
  refine install_induction (P := Tidy) (Q := fun _ => True) (fun {t name d} ht _ hd _ => ?_)
    (fun _ _ _ => trivial) (fun {t supplier name} ht => ?_) changes h trivial
  · intro other ip e he
    rw [host?_replaceIpConfig] at he
    split at he
    · cases he
    · rename_i hkept
      obtain ⟨c, hc, hip⟩ := ht he
      refine ⟨c, ?_, hip⟩
      rw [ipConfig?_replaceIpConfig (by rw [hd]; rfl), if_neg, hc]
      rintro rfl
      rw [ipConfig?, hd, Option.bind_some] at hc
      exact hkept ⟨rfl, by rw [hc]; rfl⟩
  · exact ht.of_forgets (.of_host? (host?_noteDependent _ _)) (ipConfig?_noteDependent _ _ _)

theorem hosts_setIpConfig {id : DomainId} {config : Option IpConfig} (h : tree.Tidy)
    (hset : (tree.setIpConfig id config).value = .ok tree') : tree.Forgets tree' ∧ tree'.Tidy := by
  obtain ⟨d, -, -, rfl⟩ := setIpConfig_eq_ok hset
  exact ⟨forgets_install .., h.install ..⟩

/-! ## A new configuration -/

theorem host?_pruned (tree : DomainTree) (name : String) (ip : Ipv4Addr) :
    ({ tree with domains := (pruneAll tree.domains).value } : DomainTree).host? name ip =
      (tree.host? name ip).filter fun _ =>
        ((tree.ipConfig? name).map (·.interface.contains ip)).getD false := by
  have hmap : ∀ domains : List Domain,
      (pruneAll domains).value = domains.map (·.pruneArp.2) := fun domains => by
    induction domains with
    | nil => rfl
    | cons d rest ih => exact congrArg (d.pruneArp.2 :: ·) ih
  rw [hmap, host?_map tree (g := (·.pruneArp.2)) fun _ => rfl, host?, ipConfig?]
  cases tree.byName? name with
  | none => rfl
  | some d =>
    rw [Option.bind_some, Option.bind_some, Option.bind_some, Domain.pruneArp]
    cases d.ipConfig with
    | none => simp [ArpCache.clear]
    | some config =>
      dsimp only [ArpCache.retainSubnet, Option.map_some, Option.getD_some]
      exact SortedMap.get?_filter ..

theorem forgets_raw (previous : DomainTree) (config : Config) :
    previous.Forgets (previous.raw config) := by
  intro name ip e he
  obtain ⟨d, hd, hget⟩ := Option.bind_eq_some_iff.1 he
  have hname := name_of_byName? hd
  obtain ⟨c, -, rfl⟩ := List.mem_map.1 (mem_of_byName? hd)
  rw [name_succeed] at hname
  unfold succeed at hget
  dsimp only at hget
  rw [show (Domain.ofConfig c config.timeouts).name = name from hname] at hget
  split at hget
  · rename_i old hold
    unfold Domain.inherit at hget
    dsimp only at hget
    split at hget
    · exact ⟨e, by rw [host?, hold]; exact hget, .refl e⟩
    · cases hget
  · cases hget

/-- **The next domains know of no other hosts, and only of those inside their subnets.** -/
theorem hosts_next (previous : DomainTree) (config : Config) :
    previous.Forgets (previous.next config).value ∧ (previous.next config).value.Tidy := by
  have haddressed : previous.Forgets (previous.addressed config) :=
    addressed_of_install (P := previous.Forgets) (fun _ _ _ ht => ht.trans (forgets_install ..))
      (fun ht => ht.trans (.of_host? (host?_noteDependent _ _))) (previous.forgets_raw config)
  have hnext : ∀ name ip, (previous.next config).value.host? name ip =
      ((previous.addressed config).host? name ip).filter fun _ =>
        (((previous.addressed config).ipConfig? name).map (·.interface.contains ip)).getD false :=
    fun name ip => (host?_of_unlinked (unlinked_readmitAll ..) name ip).trans
      ((previous.addressed config).host?_pruned name ip)
  refine ⟨fun name ip e he => ?_, fun name ip e he => ?_⟩
  · rw [hnext] at he
    exact haddressed (Option.filter_eq_some_iff.1 he).1
  · rw [hnext] at he
    rw [ipConfig?_of_supply? (previous.supply?_next config name)]
    have hinside := (Option.filter_eq_some_iff.1 he).2
    cases hc : (previous.addressed config).ipConfig? name with
    | none =>
      rw [hc] at hinside
      cases hinside
    | some c =>
      rw [hc] at hinside
      exact ⟨c, rfl, hinside⟩

end DomainTree

end SegmentRouter
