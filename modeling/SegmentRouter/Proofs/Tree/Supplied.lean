import SegmentRouter.Proofs.Tree.Following

/-!
# Proofs/Tree/Supplied — followers have what their suppliers have

In a supplied tree every domain has its addresses as it should: fixed ones as they are configured,
those of another domain as that domain has them, and each supplier knows who has addresses from it.
New addresses of a domain whose addresses are leased keep it so (`Supplied.setIpConfig`), and the
domains of a new configuration are supplied from the beginning (`supplied_next`).
-/

namespace SegmentRouter

/-- The addresses that are configured for a domain. -/
def Config.Domain.ipConfig? (c : Config.Domain) : Option IpConfig :=
  c.interface.map fun interface => { interface, gateway := c.gateway, dnsServer := c.dnsServer }

namespace DomainTree

variable {tree tree' tree'' previous : DomainTree} {rank : String → Nat} {name : String}
  {roots roots' : String → Option IpConfig} {suppliers : List String} {config : Config}

/-- The addresses that are configured for the domain with a name. -/
def fixed? (tree : DomainTree) (name : String) : Option IpConfig :=
  (tree.byName? name).bind (·.config.ipConfig?)

/-- A domain does not have its addresses from another one. -/
def Root (tree : DomainTree) (name : String) : Prop :=
  ∀ supplier, tree.source? name ≠ some (.derived supplier)

/-- The domains have their addresses as they should, but for those that are leased. -/
structure Supplied (tree : DomainTree) : Prop where
  fixed : ∀ name, tree.source? name = some .static → tree.ipConfig? name = tree.fixed? name
  agrees : ∀ s f, tree.source? f = some (.derived s) → tree.Agrees s f
  notes : ∀ s f, tree.Notes s f → tree.source? f = some (.derived s)

theorem fixed?_congr (h : (tree'.byName? name).map Domain.config =
    (tree.byName? name).map Domain.config) : tree'.fixed? name = tree.fixed? name := by
  have hmap : ∀ t : DomainTree,
      t.fixed? name = ((t.byName? name).map Domain.config).bind (·.ipConfig?) := fun t => by
    rw [fixed?, Option.bind_map]
    rfl
  rw [hmap, h, ← hmap]

theorem fixed?_of_shell (h : tree'.shell = tree.shell) (name : String) :
    tree'.fixed? name = tree.fixed? name :=
  fixed?_congr (map_byName?_congr (f := Domain.shell) (g := Domain.config) (k := Domain.config)
    Domain.name_shell (fun _ => rfl) (congrArg DomainTree.domains h) name)

theorem fixed?_of_supply? (h : tree'.supply? name = tree.supply? name) :
    tree'.fixed? name = tree.fixed? name := by
  have hconfig := congrArg (Option.map (·.1)) h
  simp only [supply?, Option.map_map] at hconfig
  exact fixed?_congr hconfig

theorem Supplied.of_supply? (h : tree.Supplied)
    (hs : ∀ name, tree'.supply? name = tree.supply? name) : tree'.Supplied where
  fixed name hsource := by
    rw [source?_of_supply? (hs name)] at hsource
    rw [ipConfig?_of_supply? (hs name), fixed?_of_supply? (hs name), h.fixed name hsource]
  agrees s f hsource := by
    rw [source?_of_supply? (hs f)] at hsource
    exact (h.agrees s f hsource).of_supply? hs
  notes s f hn := by
    rw [notes_of_supply? (hs s)] at hn
    rw [source?_of_supply? (hs f)]
    exact h.notes s f hn

/-! ## By ranks -/

/-- **What holds of the domains that do not follow others, and goes from suppliers to followers,
holds of all domains.** -/
theorem Ranked.induction (hr : tree.Ranked rank) {P : String → Prop}
    (hroot : ∀ name, tree.Root name → P name)
    (hfollow : ∀ s f, tree.source? f = some (.derived s) → P s → P f) (name : String) : P name := by
  induction hn : rank name using Nat.strong_induction_on generalizing name with
  | _ n ih =>
    by_cases hname : tree.Root name
    · exact hroot name hname
    · obtain ⟨s, hs⟩ := not_forall_not.1 hname
      exact hfollow s name hs (ih (rank s) (hn ▸ hr.lower name s hs) s rfl)

/-- **The addresses of all domains are known from those that are fixed or leased.** -/
theorem Supplied.ipConfig?_eq (h : tree.Supplied) (h' : tree'.Supplied) (hr : tree.Ranked rank)
    (hsource : ∀ name, tree'.source? name = tree.source? name)
    (hroot : ∀ name, tree.Root name → tree'.ipConfig? name = tree.ipConfig? name) (name : String) :
    tree'.ipConfig? name = tree.ipConfig? name := by
  refine hr.induction (P := fun name => tree'.ipConfig? name = tree.ipConfig? name) hroot
    (fun s f hf hs => ?_) name
  rw [(h.agrees s f hf).config, ← hs]
  exact (h'.agrees s f ((hsource f).trans hf)).config

/-- Who follows whom is known from the addresses. -/
theorem Supplied.notes_iff (h : tree.Supplied) {s f : String} : tree.Notes s f ↔
    tree.source? f = some (.derived s) ∧ (tree.ipConfig? f).isSome = true :=
  ⟨fun hn => ⟨h.notes s f hn, (h.agrees s f (h.notes s f hn)).notes.1 hn⟩,
    fun ⟨hf, hsome⟩ => (h.agrees s f hf).notes.2 hsome⟩

/-! ## Addresses that are given on -/

/-- What is left after addresses were given on: those that do not follow others have new addresses,
and others agree with their suppliers where they did before, or where a supplier was asked to give
them on. -/
structure Spreads (tree : DomainTree) (roots : String → Option IpConfig) (suppliers : List String)
    (tree' : DomainTree) : Prop where
  shell : tree'.shell = tree.shell
  root : ∀ name, tree.Root name → (tree.byName? name).isSome → tree'.ipConfig? name = roots name
  agrees : ∀ s f, tree.source? f = some (.derived s) →
    (tree.Agrees s f ∨ s ∈ suppliers) → tree'.Agrees s f
  notes : ∀ s f, tree'.Notes s f → tree.Notes s f ∨ tree.source? f = some (.derived s)

namespace Spreads

theorem refl (tree : DomainTree) : tree.Spreads tree.ipConfig? [] tree where
  shell := rfl
  root _ _ _ := rfl
  agrees _ _ _ h := h.resolve_right List.not_mem_nil
  notes _ _ := .inl

theorem trans {suppliers' : List String} (h : tree.Spreads roots suppliers tree')
    (h' : tree'.Spreads roots' suppliers' tree'') :
    tree.Spreads roots' (suppliers ++ suppliers') tree'' where
  shell := h'.shell.trans h.shell
  root name hname hsome := by
    refine h'.root name (fun s => ?_) ?_
    · rw [source?_of_shell h.shell]
      exact hname s
    · rwa [isSome_byName?_of_shell h.shell]
  agrees s f hf hagrees := by
    refine h'.agrees s f (by rwa [source?_of_shell h.shell]) ?_
    rw [List.mem_append, ← or_assoc] at hagrees
    exact hagrees.imp_left (h.agrees s f hf)
  notes s f hn := by
    rcases h'.notes s f hn with hn | hf
    · exact h.notes s f hn
    · rw [source?_of_shell h.shell] at hf
      exact .inr hf

theorem congr (h : tree.Spreads roots suppliers tree')
    (hroots : ∀ name, tree.Root name → (tree.byName? name).isSome → roots name = roots' name) :
    tree.Spreads roots' suppliers tree' :=
  ⟨h.shell, fun name hname hsome => (h.root name hname hsome).trans (hroots name hname hsome),
    h.agrees, h.notes⟩

/-- **A tree is supplied if its fixed addresses are as they should be and all suppliers gave theirs
on.** -/
theorem supplied (h : tree.Spreads roots suppliers tree')
    (hfixed : ∀ name, tree.source? name = some .static → roots name = tree.fixed? name)
    (hagrees : ∀ s f, tree.source? f = some (.derived s) → tree.Agrees s f ∨ s ∈ suppliers)
    (hnotes : ∀ s f, tree.Notes s f → tree.source? f = some (.derived s)) : tree'.Supplied where
  fixed name hsource := by
    rw [source?_of_shell h.shell] at hsource
    rw [h.root name (fun s hs => by cases hsource.symm.trans hs)
      (isSome_byName?_of_source? hsource), fixed?_of_shell h.shell, hfixed name hsource]
  agrees s f hf := by
    rw [source?_of_shell h.shell] at hf
    exact h.agrees s f hf (hagrees s f hf)
  notes s f hn := by
    rw [source?_of_shell h.shell]
    exact (h.notes s f hn).elim (hnotes s f) id

end Spreads

theorem Installs.spreads {c : Option IpConfig} (h : tree.Installs rank name c tree')
    (hname : tree.Root name) :
    tree.Spreads (fun other => if other = name then c else tree.ipConfig? other) [] tree' where
  shell := h.shell
  root other hother hsome := by
    split
    · rename_i ho
      rw [ho] at hsome ⊢
      exact h.here hsome
    · rename_i ho
      exact h.kept other ho fun s hs => absurd hs (hother s)
  agrees s f hf hagrees := by
    refine h.agrees s f hf ?_ (hagrees.resolve_right List.not_mem_nil)
    rintro rfl
    exact hname s hf
  notes := h.notes

theorem Supplies.spreads {supplier : String}
    (h : tree.Supplies rank supplier (tree.derivedFrom supplier) tree') (hd : tree.Distinct) :
    tree.Spreads tree.ipConfig? [supplier] tree' where
  shell := h.shell
  root other hother _ := h.kept other fun s hs => absurd hs (hother s)
  agrees s f hf hagrees := by
    refine h.agrees s f hf (hagrees.imp_right fun hs => ?_)
    obtain rfl := List.mem_singleton.1 hs
    exact ⟨rfl, (mem_derivedFrom hd).2 hf⟩
  notes := h.notes

/-- **Leased addresses, given on, keep a tree supplied.** -/
theorem Supplied.setIpConfig (h : tree.Supplied) (hr : tree.Ranked rank) {id : DomainId}
    {d : Domain} (hd : tree.get? id = some d) (hby : tree.byName? d.name = some d)
    (hdhcp : d.source = .dhcp)
    {c : Option IpConfig} (hset : (tree.setIpConfig id c).value = .ok tree') :
    tree'.Supplied ∧
      tree.Spreads (fun other => if other = d.name then c else tree.ipConfig? other) [] tree' := by
  obtain ⟨d', hd', -, rfl⟩ := setIpConfig_eq_ok hset
  obtain rfl : d = d' := Option.some.inj (hd.symm.trans hd')
  have hsource : tree.source? d.name = some .dhcp := by
    rw [source?, hby, Option.map_some, hdhcp]
  have hspreads := (hr.installs c (Nat.le_add_right _ (rank d.name))).spreads
    fun s hs => by cases hsource.symm.trans hs
  refine ⟨hspreads.supplied (fun name hstatic => ?_) (fun s f hf => .inl (h.agrees s f hf)) h.notes,
    hspreads⟩
  rw [if_neg, h.fixed name hstatic]
  rintro rfl
  cases hsource.symm.trans hstatic

/-! ## A new configuration -/

theorem Ranked.spreads_supplyAll (hr : tree.Ranked rank) (suppliers : List String) :
    tree.Spreads tree.ipConfig? suppliers (supplyAll suppliers tree).value := by
  induction suppliers generalizing tree with
  | nil => exact .refl tree
  | cons supplier rest ih =>
    have hsupplies : tree.Supplies rank supplier (tree.derivedFrom supplier)
        (supplyWith (install (tree.ipConfig? supplier) tree.domains.length) supplier
          (tree.derivedFrom supplier) tree).value :=
      hr.supplies (fun ht hlength _ => ht.installs _ (hlength ▸ Nat.le_add_right _ _)) rfl
        fun f hf => (mem_derivedFrom hr.distinct).1 hf
    have hfirst := hsupplies.spreads hr.distinct
    exact (hfirst.trans (ih (hr.of_shell hfirst.shell))).congr fun name hname hsome =>
      hfirst.root name hname hsome

/-- **Leases that are installed again are there, each in its own domain.** -/
theorem Ranked.spreads_reinstall (hr : tree.Ranked rank) {leases : List (String × IpConfig)}
    {lease? : String → Option IpConfig}
    (hleases : ∀ lease ∈ leases, tree.Root lease.1 ∧ lease? lease.1 = some lease.2) :
    tree.Spreads
      (fun name => if name ∈ leases.map (·.1) then lease? name else tree.ipConfig? name) []
      (reinstall leases tree).value := by
  induction leases generalizing tree with
  | nil => exact .refl tree
  | cons lease rest ih =>
    obtain ⟨hroot, hlease⟩ := hleases lease List.mem_cons_self
    have hfirst := (hr.installs (some lease.2) (Nat.le_add_right _ (rank lease.1))).spreads hroot
    have hrest := ih (hr.of_shell hfirst.shell) fun l hl => by
      obtain ⟨hroot', hlease'⟩ := hleases l (List.mem_cons_of_mem _ hl)
      refine ⟨fun s => ?_, hlease'⟩
      rw [source?_of_shell hfirst.shell]
      exact hroot' s
    refine (hfirst.trans hrest).congr fun name hname hsome => ?_
    simp only [List.map_cons, List.mem_cons]
    by_cases hr : name ∈ rest.map (·.1)
    · rw [if_pos hr, if_pos (.inr hr)]
    · rw [if_neg hr, hfirst.root name hname hsome]
      by_cases hn : name = lease.1
      · rw [if_pos hn, if_pos (.inl hn), hn, hlease]
      · rw [if_neg hn, if_neg (not_or.2 ⟨hn, hr⟩)]

theorem Spreads.of_supply? (h : tree.Spreads roots suppliers tree')
    (hshell : tree''.shell = tree'.shell) (hs : ∀ name, tree''.supply? name = tree'.supply? name) :
    tree.Spreads roots suppliers tree'' where
  shell := hshell.trans h.shell
  root name hname hsome := (ipConfig?_of_supply? (hs name)).trans (h.root name hname hsome)
  agrees s f hf hagrees := (h.agrees s f hf hagrees).of_supply? hs
  notes s f hn := h.notes s f ((notes_of_supply? (hs s)).1 hn)

/-- A domain that was just made has its configured addresses, and nobody follows it yet. -/
theorem supply_raw {d : Domain} (hd : d ∈ (previous.raw config).domains) :
    d.ipConfig = d.config.ipConfig? ∧ d.source = Domain.sourceOf d.config ∧ d.dependents = ∅ := by
  obtain ⟨c, -, rfl⟩ := List.mem_map.1 hd
  unfold succeed
  dsimp only
  split <;> exact ⟨rfl, rfl, rfl⟩

theorem ipConfig?_raw (hsource : (previous.raw config).source? name ≠ some .static) :
    (previous.raw config).ipConfig? name = none := by
  rw [ipConfig?]
  cases hd : (previous.raw config).byName? name with
  | none => rfl
  | some d =>
    obtain ⟨hip, hfrom, -⟩ := supply_raw (mem_of_byName? hd)
    rw [source?, hd, Option.map_some, hfrom] at hsource
    rw [Option.bind_some, hip, Config.Domain.ipConfig?, Option.map_eq_none_iff]
    refine Option.not_isSome_iff_eq_none.1 fun hstatic => hsource ?_
    rw [Domain.sourceOf, if_pos (show d.config.isStatic = true from hstatic)]

theorem mem_keptLeases (hd : (previous.raw config).Distinct) {lease : String × IpConfig} :
    lease ∈ previous.keptLeases (previous.raw config).domains ↔
      (previous.raw config).source? lease.1 = some .dhcp ∧
        previous.source? lease.1 = some .dhcp ∧ previous.ipConfig? lease.1 = some lease.2 := by
  rw [keptLeases, List.mem_filterMap]
  constructor
  · rintro ⟨d, hm, he⟩
    obtain ⟨old, hold, he⟩ := Option.bind_eq_some_iff.1 he
    obtain ⟨c, hc, he⟩ := Option.bind_eq_some_iff.1 he
    obtain rfl := Option.some.inj he
    unfold Domain.keptLease? at hc
    split at hc
    · rename_i hboth
      refine ⟨?_, ?_, ?_⟩
      · rw [source?, hd.byName?_of_mem hm, Option.map_some, hboth.1]
      · rw [source?, hold, Option.map_some, hboth.2]
      · rw [ipConfig?, hold]
        exact hc
    · cases hc
  · rintro ⟨hsource, hprev, hip⟩
    obtain ⟨d, hby, hd⟩ := Option.map_eq_some_iff.1 hsource
    obtain ⟨old, hold, hdold⟩ := Option.map_eq_some_iff.1 hprev
    have hname := name_of_byName? hby
    rw [ipConfig?, hold, Option.bind_some] at hip
    refine ⟨d, mem_of_byName? hby, Option.bind_eq_some_iff.2 ⟨old, by rwa [hname], ?_⟩⟩
    rw [Domain.keptLease?, if_pos ⟨hd, hdold⟩, hip, hname]
    rfl

theorem supply?_next (previous : DomainTree) (config : Config) (name : String) :
    (previous.next config).value.supply? name = (previous.addressed config).supply? name :=
  (supply?_of_unlinked (unlinked_readmitAll ..) name).trans
    (supply?_of_hosts (map_pruneAll (fun _ _ => rfl) _) name)

/-- **What a new configuration makes of addresses**: those that are leased are given on as well as
those that are fixed. -/
theorem spreads_next (hr : (previous.raw config).Ranked rank) :
    (previous.raw config).Spreads
      (fun name => if name ∈ (previous.keptLeases (previous.raw config).domains).map (·.1) then
        previous.ipConfig? name else (previous.raw config).ipConfig? name)
      (((previous.raw config).domains.filter (·.ipConfig.isSome)).map (·.name))
      (previous.next config).value := by
  have hmade := hr.spreads_supplyAll
    (((previous.raw config).domains.filter (·.ipConfig.isSome)).map (·.name))
  have hleases : ∀ lease ∈ previous.keptLeases (previous.raw config).domains,
      (supplyAll (((previous.raw config).domains.filter (·.ipConfig.isSome)).map (·.name))
        (previous.raw config)).value.Root lease.1 ∧
          previous.ipConfig? lease.1 = some lease.2 := by
    intro lease hl
    obtain ⟨hsource, -, hip⟩ := (mem_keptLeases hr.distinct).1 hl
    refine ⟨fun s hs => ?_, hip⟩
    rw [source?_of_shell hmade.shell, hsource] at hs
    cases hs
  have hall := hmade.trans ((hr.of_shell hmade.shell).spreads_reinstall hleases)
  rw [List.append_nil] at hall
  refine (hall.congr fun name hname hsome => ?_).of_supply?
    ((previous.shell_next config).trans (previous.shell_addressed config).symm)
    fun name => previous.supply?_next config name
  rw [hmade.root name hname hsome]

/-- **The domains of a new configuration are supplied**, with the leases that there were. -/
theorem supplied_next (hr : (previous.raw config).Ranked rank) :
    (previous.next config).value.Supplied ∧ ∀ name,
      (previous.next config).value.source? name = some .dhcp →
        (previous.next config).value.ipConfig? name =
          if previous.source? name = some .dhcp then previous.ipConfig? name else none := by
  have hspreads := spreads_next hr
  have hleased : ∀ {name}, name ∈ (previous.keptLeases (previous.raw config).domains).map (·.1) →
      (previous.raw config).source? name = some .dhcp ∧ previous.source? name = some .dhcp := by
    intro name hname
    obtain ⟨lease, hl, rfl⟩ := List.mem_map.1 hname
    obtain ⟨hsource, hprev, -⟩ := (mem_keptLeases hr.distinct).1 hl
    exact ⟨hsource, hprev⟩
  refine ⟨hspreads.supplied (fun name hsource => ?_) (fun s f hf => ?_) fun s f hn => ?_,
    fun name hsource => ?_⟩
  · rw [if_neg fun hname => by cases hsource.symm.trans (hleased hname).1]
    obtain ⟨d, hd, -⟩ := Option.map_eq_some_iff.1 hsource
    rw [ipConfig?, fixed?, hd]
    exact (supply_raw (mem_of_byName? hd)).1
  · cases hs : (previous.raw config).ipConfig? s with
    | none =>
      refine .inl ⟨?_, ?_⟩
      · rw [hs, ipConfig?_raw fun hstatic => by cases hf.symm.trans hstatic]
      · rw [ipConfig?_raw fun hstatic => by cases hf.symm.trans hstatic]
        refine iff_of_false (fun hn => ?_) Bool.false_ne_true
        obtain ⟨d, hd, hcontains⟩ := Option.map_eq_some_iff.1 hn
        rw [(supply_raw (mem_of_byName? hd)).2.2] at hcontains
        cases hcontains
    | some c =>
      obtain ⟨d, hd, hip⟩ := Option.bind_eq_some_iff.1 hs
      exact .inr (List.mem_map.2
        ⟨d, List.mem_filter.2 ⟨mem_of_byName? hd, by rw [hip]; rfl⟩, name_of_byName? hd⟩)
  · obtain ⟨d, hd, hcontains⟩ := Option.map_eq_some_iff.1 hn
    rw [(supply_raw (mem_of_byName? hd)).2.2] at hcontains
    cases hcontains
  · rw [source?_of_shell hspreads.shell] at hsource
    rw [hspreads.root name (fun s hs => by cases hsource.symm.trans hs)
      (isSome_byName?_of_source? hsource)]
    have hfresh : (previous.raw config).ipConfig? name = none :=
      ipConfig?_raw fun hstatic => by cases hsource.symm.trans hstatic
    split
    · rename_i hname
      rw [if_pos (hleased hname).2]
    · rename_i hname
      rw [hfresh]
      split
      · rename_i hprev
        refine (Option.eq_none_iff_forall_ne_some.2 fun c hc => hname ?_).symm
        exact List.mem_map.2 ⟨(name, c), (mem_keptLeases hr.distinct).2 ⟨hsource, hprev, hc⟩, rfl⟩
      · rfl

end DomainTree

end SegmentRouter
