import SegmentRouter.Proofs.Tree.Propagation
import SegmentRouter.Proofs.Tree.Removal
import SegmentRouter.Proofs.Tree.Supplied

/-!
# Proofs/Tree/Resupply — what new addresses take with them

Addresses that are replaced, wherever that comes from, take the links of their domains with them and
what was learned of hosts there, and nothing else (`Completes.strips`).  Where followers have what
their suppliers have, the domains that get new addresses are those that descend from the one where
they were installed (`Supplied.exists_resupplies`).
-/

namespace SegmentRouter

/-- A link has an end in one of some domains. -/
def Link.EndsIn (link : Link) (names : List String) : Prop :=
  link.client.domain ∈ names ∨ link.server.domain ∈ names

instance (names : List String) : DecidablePred (Link.EndsIn · names) :=
  fun _ => inferInstanceAs (Decidable (_ ∨ _))

theorem Link.endsIn_append {link : Link} {names names' : List String} :
    link.EndsIn (names ++ names') ↔ link.EndsIn names ∨ link.EndsIn names' := by
  simp only [EndsIn, List.mem_append]
  exact or_or_or_comm

namespace DomainTree

variable {tree tree' tree'' : DomainTree} {config : Option IpConfig} {name other : String}
  {changed changed' : List String} {d : Domain}

/-- What was learned of the hosts of the domain with a name. -/
def arp? (tree : DomainTree) (name : String) : Option ArpCache :=
  (tree.byName? name).map (·.arp)

/-- With the addresses of some domains their links are gone and, where there were addresses before,
what was learned of hosts. -/
structure Strips (tree : DomainTree) (config : Option IpConfig) (changed : List String)
    (tree' : DomainTree) : Prop extends tree.Alters config changed tree' where
  sound : tree'.Sound
  mem : ∀ link, link ∈ tree'.liveLinks ↔ link ∈ tree.liveLinks ∧ ¬ link.EndsIn changed
  arp? : ∀ name, tree'.arp? name = if name ∈ changed ∧ (tree.ipConfig? name).isSome then
    (tree.arp? name).map fun _ => ∅ else tree.arp? name

/-! ## One change -/

/-- What keeps the hosts of one domain keeps those of all. -/
theorem arp?_update {f : Domain → Domain} (hname : ∀ d, (f d).name = d.name)
    (harp : ∀ d, (f d).arp = d.arp) : (tree.update name f).arp? other = tree.arp? other := by
  rw [arp?, map_byName?_update hname]
  split
  · rename_i ho
    rw [ho]
    exact congrArg (Option.map · (tree.byName? name)) (funext harp)
  · rfl

theorem arp?_dropState (tree : DomainTree) (name other : String) :
    (tree.dropState name).value.arp? other =
      if other = name then (tree.arp? name).map fun _ => ∅ else tree.arp? other := by
  have hunlinked : ∀ n, (tree.dismissLinksOfDomain name).value.2.arp? n = tree.arp? n :=
    map_byName?_congr (f := Domain.unlinked) (k := (·.arp)) Domain.name_unlinked (fun _ => rfl)
      (congrArg DomainTree.domains (tree.unlinked_dismissLinksOfDomain name))
  refine (map_byName?_update (f := Domain.forgetHosts) (fun _ => rfl) other).trans ?_
  split
  · rw [← hunlinked name, arp?, Option.map_map]
    rfl
  · exact hunlinked other

theorem arp?_replaceIpConfig (hd : tree.byName? name = some d) (config : Option IpConfig)
    (other : String) :
    (tree.replaceIpConfig name d.ipConfig config).value.arp? other =
      if other = name ∧ (tree.ipConfig? name).isSome then (tree.arp? name).map fun _ => ∅
      else tree.arp? other := by
  have hset : ∀ t : DomainTree, (t.update name (·.withIpConfig config)).arp? other =
      t.arp? other := fun _ => arp?_update (fun _ => rfl) fun _ => rfl
  rw [value_replaceIpConfig, hset, ipConfig?, hd, Option.bind_some]
  by_cases hsome : d.ipConfig.isSome
  · rw [if_pos hsome, arp?_dropState]
    simp only [hsome, and_true]
  · rw [if_neg hsome, if_neg fun h => hsome h.2]

namespace Sound

variable (h : tree.Sound)

include h

/-- **Replacing a domain's addresses ends the domain's links.** -/
theorem mem_replaceIpConfig (hd : tree.byName? name = some d) (config : Option IpConfig)
    (link : Link) :
    link ∈ (tree.replaceIpConfig name d.ipConfig config).value.liveLinks ↔
      link ∈ tree.liveLinks ∧ ¬ link.EndsIn [name] := by
  have hset : ∀ t : DomainTree, (t.update name (·.withIpConfig config)).liveLinks = t.liveLinks :=
    fun _ => liveLinks_update_eq fun _ _ => rfl
  simp only [value_replaceIpConfig, hset, Link.EndsIn, List.mem_singleton]
  by_cases hsome : d.ipConfig.isSome
  · have hforget : (tree.dropState name).value.liveLinks =
        (tree.dismissLinksOfDomain name).value.2.liveLinks :=
      liveLinks_update_eq (f := Domain.forgetHosts) fun _ _ => rfl
    rw [if_pos hsome, hforget]
    exact (h.dismisses_dismissLinksOfDomain name).mem link
  · rw [if_neg hsome]
    refine (and_iff_left_of_imp fun hm => ?_).symm
    exact not_or.2 (h.unlinked_of_ipConfig hd (by simpa using hsome) link hm)

theorem strips_replaceIpConfig (hd : tree.byName? name = some d) (hother : d.ipConfig ≠ config) :
    tree.Strips config [name] (tree.replaceIpConfig name d.ipConfig config).value where
  toAlters := .replaceIpConfig hd hother
  sound := (h.sheds_replaceIpConfig hd config).sound
  mem := h.mem_replaceIpConfig hd config
  arp? other := by
    rw [arp?_replaceIpConfig hd]
    simp only [List.mem_singleton]
    by_cases ho : other = name
    · rw [ho]
    · rw [if_neg fun hc => ho hc.1, if_neg fun hc => ho hc.1]

theorem strips_noteDependent (supplier name : String) :
    tree.Strips config [] (tree.noteDependent supplier name) where
  toAlters := .noteDependent tree supplier name
  sound := (h.sheds_noteDependent supplier name).sound
  mem link := by
    have hlive : (tree.noteDependent supplier name).liveLinks = tree.liveLinks :=
      liveLinks_update_eq fun _ _ => rfl
    simp [hlive, Link.EndsIn]
  arp? other := by
    rw [if_neg fun hc => List.not_mem_nil hc.1]
    exact arp?_update (fun _ => rfl) fun _ => rfl

/-- A link has no end where there are no addresses. -/
theorem not_endsIn {names : List String} (hnone : ∀ name ∈ names, tree.ipConfig? name = none)
    {link : Link} (hm : link ∈ tree.liveLinks) : ¬ link.EndsIn names := by
  have hside : ∀ s, (link.side s).domain ∉ names := by
    intro s hs
    obtain ⟨d, hd, hsome⟩ := (h.upholds link hm).isSome_ipConfig s
    have hconfig := hnone _ hs
    rw [ipConfig?, hd, Option.bind_some] at hconfig
    rw [hconfig] at hsome
    cases hsome
  exact not_or.2 ⟨hside .client, hside .server⟩

end Sound

/-! ## Changes that go on -/

namespace Strips

theorem refl (h : tree.Sound) : tree.Strips config [] tree where
  toAlters := .refl tree
  sound := h
  mem link := by simp [Link.EndsIn]
  arp? _ := (if_neg fun hc => List.not_mem_nil hc.1).symm

theorem trans (h : tree.Strips config changed tree') (h' : tree'.Strips config changed' tree'') :
    tree.Strips config (changed ++ changed') tree'' where
  toAlters := h.toAlters.trans h'.toAlters
  sound := h'.sound
  mem link := by rw [h'.mem, h.mem, Link.endsIn_append, not_or, and_assoc]
  arp? name := by
    rw [h'.arp?, h.arp?, h.ipConfig?]
    by_cases hfirst : name ∈ changed
    · -- a name is not changed twice
      have hlater : name ∉ changed' := fun hm =>
        h'.other name hm (by rw [h.ipConfig?, if_pos hfirst])
      simp [hfirst, hlater]
    · simp [hfirst]

end Strips

/-- **Addresses that are given on take links and hosts with them**, of the domains that change. -/
theorem Completes.strips {task : SupplyTask} (h : Completes config task tree changed tree')
    (hsound : tree.Sound) : tree.Strips config changed tree' :=
  h.of_steps (R := fun tree changed tree' => tree.Sound → tree.Strips config changed tree')
    (fun _ => .refl) (fun hfirst hrest ht => (hfirst ht).trans (hrest (hfirst ht).sound))
    (fun hd hother ht => ht.strips_replaceIpConfig hd hother)
    (fun _ _ _ ht => ht.strips_noteDependent _ _) hsound

/-! ## Suppliers and followers -/

/-- What is left after other addresses came into a domain: it has them, and so have those that
descend from it.  Their links are gone and, where there were addresses before, what was learned of
their hosts; all else is as it was. -/
structure Resupplies (tree : DomainTree) (root : String) (config : Option IpConfig)
    (region : List String) (tree' : DomainTree) : Prop where
  mem_region : ∀ name, name ∈ region ↔ tree.Descends root name
  shell : tree'.shell = tree.shell
  ipConfig? : ∀ name,
    tree'.ipConfig? name = if name ∈ region then config else tree.ipConfig? name
  arp? : ∀ name, tree'.arp? name = if name ∈ region ∧ (tree.ipConfig? root).isSome then
    (tree.arp? name).map fun _ => ∅ else tree.arp? name
  loses : tree.Loses (·.EndsIn region) tree'
  /-- There are no such links where there were no addresses. -/
  unlinked : tree.ipConfig? root = none → ∀ link ∈ tree.liveLinks, ¬ link.EndsIn region
  notes : ∀ supplier follower, tree'.Notes supplier follower ↔
    tree.source? follower = some (.derived supplier) ∧ (tree'.ipConfig? follower).isSome

/-- Those that descend from a domain have its addresses. -/
theorem Supplied.ipConfig?_of_descends (h : tree.Supplied) (hd : tree.Distinct)
    (hdescends : tree.Descends name other) : tree.ipConfig? other = tree.ipConfig? name := by
  induction hdescends with
  | refl => rfl
  | tail _ hfollows ih => exact (h.agrees _ _ ((mem_derivedFrom hd).1 hfollows)).config.trans ih

/-- **New addresses of a domain go to those that descend from it**, and to no others. -/
theorem Supplied.resupplies_of_completes (h : tree.Supplied) (hsound : tree.Sound)
    (hcompletes : Completes config (.install name) tree changed tree')
    (hhere : (tree.byName? name).isSome) (hother : tree.ipConfig? name ≠ config)
    (h' : tree'.Supplied) : tree.Resupplies name config changed tree' := by
  have hstrips := hcompletes.strips hsound
  have hshell := hstrips.shell
  have hregion : ∀ n, n ∈ changed ↔ tree.Descends name n := by
    intro n
    refine ⟨hcompletes.descends, fun hdescends => ?_⟩
    -- before the change it had what the domain had, and it has what the domain has after it
    by_contra hm
    have hafter := h'.ipConfig?_of_descends hstrips.sound.distinct
      ((descends_of_shell hshell).2 hdescends)
    rw [hcompletes.ipConfig?_eq hhere, hstrips.ipConfig?, if_neg hm,
      h.ipConfig?_of_descends hsound.distinct hdescends] at hafter
    exact hother hafter
  have hsame : ∀ n ∈ changed, tree.ipConfig? n = tree.ipConfig? name := fun n hm =>
    h.ipConfig?_of_descends hsound.distinct ((hregion n).1 hm)
  refine ⟨hregion, hshell, hstrips.ipConfig?, fun n => ?_,
    hsound.loses hstrips.sound hstrips.mem hshell, fun hnone link hm => ?_, fun s f => ?_⟩
  · rw [hstrips.arp?]
    by_cases hm : n ∈ changed
    · rw [hsame n hm]
    · rw [if_neg fun hc => hm hc.1, if_neg fun hc => hm hc.1]
  · exact hsound.not_endsIn (fun n hn => (hsame n hn).trans hnone) hm
  · rw [h'.notes_iff, source?_of_shell hshell]

/-- Addresses that a domain has already are not installed. -/
theorem installIpConfig_self (hd : tree.byName? name = some d) :
    (tree.installIpConfig name d.ipConfig).value = tree := by
  obtain ⟨changed, h⟩ := tree.exists_completes name d.ipConfig
  exact (Completes.unique (.same hd rfl) h).2

/-- **Addresses of a domain that leases them can be set at any time**, and go where they should. -/
theorem Supplied.exists_resupplies {rank : String → Nat} {id : DomainId} (h : tree.Supplied)
    (hsound : tree.Sound) (hr : tree.Ranked rank) (hd : tree.get? id = some d)
    (hdhcp : d.source = .dhcp) (config : Option IpConfig) : ∃ tree',
      (tree.setIpConfig id config).value = .ok tree' ∧
      (∀ name, tree.Descends d.name name → tree'.ipConfig? name = config) ∧
      (config = d.ipConfig → tree' = tree) ∧
      (config ≠ d.ipConfig → ∃ region, tree.Resupplies d.name config region tree') := by
  have hby := hr.distinct.byName?_of_mem (mem_of_get? hd)
  have hip := ipConfig?_of_mem hr.distinct (mem_of_get? hd)
  have hset := setIpConfig_of_get? hd (by rw [Domain.isStatic, hdhcp]; rfl) config
  obtain ⟨hsupplied, -⟩ := h.setIpConfig hr hd hby hdhcp hset
  by_cases hsame : config = d.ipConfig
  · have hself : (tree.installIpConfig d.name config).value = tree := by
      rw [hsame, installIpConfig_self hby]
    refine ⟨_, hset, fun name hname => ?_, fun _ => hself, fun hne => absurd hsame hne⟩
    rw [hself, h.ipConfig?_of_descends hr.distinct hname, hip, hsame]
  · obtain ⟨changed, hcompletes⟩ := tree.exists_completes d.name config
    have hresupplies := h.resupplies_of_completes hsound hcompletes (by rw [hby]; rfl)
      (fun he => hsame (he.symm.trans hip)) hsupplied
    refine ⟨_, hset, fun name hname => ?_, fun he => absurd he hsame,
      fun _ => ⟨changed, hresupplies⟩⟩
    rw [hresupplies.ipConfig?, if_pos ((hresupplies.mem_region name).2 hname)]

end DomainTree

end SegmentRouter
