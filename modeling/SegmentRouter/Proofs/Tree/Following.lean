import SegmentRouter.Proofs.Tree.Shell

/-!
# Proofs/Tree/Following — domains that have their addresses from others

Addresses that are installed in a domain are given on from supplier to follower, each step with one
change less to spend.  Where suppliers have lower ranks (`DomainTree.Ranked`) the changes last to
the end: afterwards every follower has what its supplier has, and the supplier knows of it
(`Ranked.installs`).
-/

namespace SegmentRouter

namespace DomainTree

variable {tree tree' : DomainTree} {rank : String → Nat} {name supplier follower other : String}
  {config : Option IpConfig} {changes : Nat}

/-! ## What is seen of addresses -/

/-- What a domain shows of its addresses: where they come from, what they are, and who follows. -/
def supply? (tree : DomainTree) (name : String) :
    Option (Config.Domain × IpSource × Option IpConfig × SortedSet String) :=
  (tree.byName? name).map fun d => (d.config, d.source, d.ipConfig, d.dependents)

/-- The addresses of the domain with a name. -/
def ipConfig? (tree : DomainTree) (name : String) : Option IpConfig :=
  (tree.byName? name).bind (·.ipConfig)

theorem ipConfig?_of_mem {d : Domain} (hdistinct : tree.Distinct) (hd : d ∈ tree.domains) :
    tree.ipConfig? d.name = d.ipConfig := by
  rw [ipConfig?, hdistinct.byName?_of_mem hd, Option.bind_some]

/-- A domain has another one in the list of those that have addresses from it. -/
def Notes (tree : DomainTree) (supplier name : String) : Prop :=
  (tree.byName? supplier).map (·.dependents.contains name) = some true

/-- A domain has the addresses of another one, which knows whether there are any. -/
structure Agrees (tree : DomainTree) (supplier name : String) : Prop where
  config : tree.ipConfig? name = tree.ipConfig? supplier
  notes : tree.Notes supplier name ↔ (tree.ipConfig? name).isSome = true

theorem supply?_of_unlinked (h : tree'.unlinked = tree.unlinked) (name : String) :
    tree'.supply? name = tree.supply? name :=
  map_byName?_congr (f := Domain.unlinked)
    (g := fun d => (d.config, d.source, d.ipConfig, d.dependents))
    (k := fun d => (d.config, d.source, d.ipConfig, d.dependents)) Domain.name_unlinked
    (fun _ => rfl) (congrArg DomainTree.domains h) name

theorem supply?_of_hosts
    (h : tree'.domains.map Domain.forgetHosts = tree.domains.map Domain.forgetHosts)
    (name : String) :
    tree'.supply? name = tree.supply? name :=
  map_byName?_congr (f := Domain.forgetHosts)
    (g := fun d => (d.config, d.source, d.ipConfig, d.dependents))
    (k := fun d => (d.config, d.source, d.ipConfig, d.dependents)) (fun _ => rfl) (fun _ => rfl)
    h name

/-- What does not show in addresses shows nowhere in them. -/
theorem supply?_update {f : Domain → Domain} (hname : ∀ d, (f d).name = d.name)
    (hf : ∀ d, ((f d).config, (f d).source, (f d).ipConfig, (f d).dependents) =
      (d.config, d.source, d.ipConfig, d.dependents)) (other : String) :
    (tree.update name f).supply? other = tree.supply? other := by
  rw [supply?, map_byName?_update hname]
  split
  · rename_i ho
    rw [ho]
    exact congrArg (Option.map · (tree.byName? name)) (funext hf)
  · rfl

section

variable (h : tree'.supply? name = tree.supply? name)

include h

theorem isSome_byName?_of_supply? : (tree'.byName? name).isSome = (tree.byName? name).isSome := by
  have hmap : ∀ t : DomainTree, (t.byName? name).isSome = (t.supply? name).isSome := fun t => by
    rw [supply?, Option.isSome_map]
  rw [hmap, h, ← hmap]

theorem source?_of_supply? : tree'.source? name = tree.source? name := by
  have hmap : ∀ t : DomainTree, t.source? name = (t.supply? name).map (·.2.1) := fun t => by
    rw [supply?, Option.map_map]
    rfl
  rw [hmap, h, ← hmap]

theorem ipConfig?_of_supply? : tree'.ipConfig? name = tree.ipConfig? name := by
  have hmap : ∀ t : DomainTree, t.ipConfig? name = (t.supply? name).bind (·.2.2.1) := fun t => by
    rw [supply?, Option.bind_map]
    rfl
  rw [hmap, h, ← hmap]

theorem notes_of_supply? : tree'.Notes name follower ↔ tree.Notes name follower := by
  have hmap : ∀ t : DomainTree, (t.byName? name).map (·.dependents.contains follower) =
      (t.supply? name).map (·.2.2.2.contains follower) := fun t => by
    rw [supply?, Option.map_map]
    rfl
  rw [Notes, Notes, hmap, h, ← hmap]

end

theorem Agrees.of_supply? (h : tree.Agrees supplier follower)
    (hs : ∀ name, tree'.supply? name = tree.supply? name) : tree'.Agrees supplier follower := by
  refine ⟨?_, ?_⟩
  · rw [ipConfig?_of_supply? (hs _), ipConfig?_of_supply? (hs _)]
    exact h.config
  · rw [notes_of_supply? (hs _), ipConfig?_of_supply? (hs _)]
    exact h.notes

theorem isSome_byName?_of_source? {source : IpSource} (h : tree.source? name = some source) :
    (tree.byName? name).isSome := by
  obtain ⟨d, hd, -⟩ := Option.map_eq_some_iff.1 h
  rw [hd]
  rfl

/-! ## Ranks -/

/-- Every domain has its addresses from one of a lower rank, if it has them from another one, and
there are fewer ranks than domains. -/
structure Ranked (tree : DomainTree) (rank : String → Nat) : Prop where
  distinct : tree.Distinct
  lt : ∀ name, (tree.byName? name).isSome → rank name < tree.domains.length
  lower : ∀ name supplier, tree.source? name = some (.derived supplier) → rank supplier < rank name

theorem length_of_shell (h : tree'.shell = tree.shell) :
    tree'.domains.length = tree.domains.length := by
  have hnames := congrArg List.length (names_of_shell h)
  rwa [names, names, List.length_map, List.length_map] at hnames

theorem isSome_byName?_of_shell (h : tree'.shell = tree.shell) (name : String) :
    (tree'.byName? name).isSome = (tree.byName? name).isSome := by
  rw [← isSome_id?, id?_of_shell h, isSome_id?]

theorem Ranked.of_shell (h : tree.Ranked rank) (hs : tree'.shell = tree.shell) :
    tree'.Ranked rank := by
  refine ⟨h.distinct.of_shell hs, fun name hname => ?_, fun name supplier hsource => ?_⟩
  · rw [length_of_shell hs]
    rw [isSome_byName?_of_shell hs] at hname
    exact h.lt name hname
  · rw [source?_of_shell hs] at hsource
    exact h.lower name supplier hsource

theorem mem_derivedFrom (h : tree.Distinct) :
    name ∈ tree.derivedFrom supplier ↔ tree.source? name = some (.derived supplier) := by
  rw [derivedFrom, List.mem_map, source?, Option.map_eq_some_iff]
  simp only [List.mem_filter, beq_iff_eq]
  constructor
  · rintro ⟨d, ⟨hd, hsource⟩, rfl⟩
    exact ⟨d, h.byName?_of_mem hd, hsource⟩
  · rintro ⟨d, hd, hsource⟩
    exact ⟨d, ⟨mem_of_byName? hd, hsource⟩, name_of_byName? hd⟩

/-! ## One change -/

theorem supply?_dropState (tree : DomainTree) (name other : String) :
    (tree.dropState name).value.supply? other = tree.supply? other :=
  (supply?_update (f := Domain.forgetHosts) (fun _ => rfl) (fun _ => rfl) other).trans
    (supply?_of_unlinked (tree.unlinked_dismissLinksOfDomain name) other)

theorem notes_update {f : Domain → Domain} (hname : ∀ d, (f d).name = d.name) :
    (tree.update name f).Notes supplier other ↔
      if supplier = name then
        (tree.byName? name).map (fun d => (f d).dependents.contains other) = some true
      else tree.Notes supplier other := by
  rw [Notes, map_byName?_update hname]
  split <;> rfl

/-- **The addresses of one domain are replaced**, and no others. -/
theorem ipConfig?_replaceIpConfig (hd : (tree.byName? name).isSome)
    (current config : Option IpConfig) (other : String) :
    (tree.replaceIpConfig name current config).value.ipConfig? other =
      if other = name then config else tree.ipConfig? other := by
  have hset : ∀ t : DomainTree, (t.byName? name).isSome →
      (t.update name (·.withIpConfig config)).ipConfig? other =
        if other = name then config else t.ipConfig? other := by
    intro t ht
    obtain ⟨d, hd⟩ := Option.isSome_iff_exists.1 ht
    rw [ipConfig?, byName?_update t name other (f := (·.withIpConfig config)) fun _ hd => hd]
    split
    · rw [hd]
      rfl
    · rfl
  unfold replaceIpConfig
  split
  · refine (hset _ ?_).trans ?_
    · exact (isSome_byName?_of_shell (tree.shell_dropState name) name).trans hd
    · rw [ipConfig?_of_supply? (tree.supply?_dropState name other)]
  · exact hset tree hd

theorem notes_replaceIpConfig (current config : Option IpConfig) :
    (tree.replaceIpConfig name current config).value.Notes supplier other ↔
      tree.Notes supplier other := by
  have hset : ∀ t : DomainTree, (t.update name (·.withIpConfig config)).Notes supplier other ↔
      t.Notes supplier other := fun t => by
    rw [notes_update (f := (·.withIpConfig config)) fun _ => rfl]
    split
    · rename_i hsupplier
      rw [hsupplier]
      rfl
    · rfl
  unfold replaceIpConfig
  split
  · exact (hset _).trans (notes_of_supply? (tree.supply?_dropState name supplier))
  · exact hset tree

theorem ipConfig?_noteDependent (tree : DomainTree) (supplier name other : String) :
    (tree.noteDependent supplier name).ipConfig? other = tree.ipConfig? other := by
  rw [ipConfig?, noteDependent, byName?_update tree supplier other
    (f := (·.withDependent name (tree.isConfigured name))) fun _ hd => hd]
  split
  · rename_i ho
    rw [Option.bind_map, ho]
    rfl
  · rfl

/-- **A supplier notes whether a follower has addresses**, and nothing else. -/
theorem notes_noteDependent (tree : DomainTree) (supplier name owner other : String) :
    (tree.noteDependent supplier name).Notes owner other ↔
      if owner = supplier ∧ other = name then
        (tree.byName? supplier).isSome = true ∧ (tree.ipConfig? name).isSome = true
      else tree.Notes owner other := by
  have hcontains : ∀ d : Domain,
      (d.withDependent name (tree.isConfigured name)).dependents.contains other =
        if other = name then (tree.ipConfig? name).isSome else d.dependents.contains other := by
    intro d
    unfold Domain.withDependent
    rw [show tree.isConfigured name = (tree.ipConfig? name).isSome from rfl]
    dsimp only
    rw [SortedMap.contains, SortedMap.contains]
    split
    · rename_i hsome
      rw [SortedMap.get?_insert, hsome]
      split <;> rfl
    · rename_i hsome
      rw [SortedMap.get?_erase, Bool.eq_false_iff.2 hsome]
      split <;> rfl
  rw [noteDependent,
    notes_update (f := (·.withDependent name (tree.isConfigured name))) fun _ => rfl]
  simp only [hcontains]
  by_cases ho : owner = supplier
  · subst ho
    rw [if_pos rfl]
    by_cases hn : other = name
    · subst hn
      rw [if_pos ⟨rfl, rfl⟩]
      cases hd : tree.byName? owner <;> simp
    · rw [if_neg fun he => hn he.2, Notes]
      simp only [if_neg hn]
  · rw [if_neg ho, if_neg fun he => ho he.1]

/-! ## Changes that go on -/

/-- What is left after the addresses of a supplier were given on to some of its followers: what the
supplier's own addresses may depend on is as it was, and those followers agree with it. -/
structure Supplies (tree : DomainTree) (rank : String → Nat) (supplier : String)
    (followers : List String) (tree' : DomainTree) : Prop where
  shell : tree'.shell = tree.shell
  kept : ∀ name, (∀ s, tree.source? name = some (.derived s) → rank s < rank supplier) →
    tree'.ipConfig? name = tree.ipConfig? name
  agrees : ∀ s f, tree.source? f = some (.derived s) →
    (tree.Agrees s f ∨ s = supplier ∧ f ∈ followers) → tree'.Agrees s f
  notes : ∀ s f, tree'.Notes s f → tree.Notes s f ∨ tree.source? f = some (.derived s)

/-- What is left after addresses were installed in a domain: it has them, and those that have theirs
from others agree with them where they did before. -/
structure Installs (tree : DomainTree) (rank : String → Nat) (name : String)
    (config : Option IpConfig) (tree' : DomainTree) : Prop where
  shell : tree'.shell = tree.shell
  here : (tree.byName? name).isSome → tree'.ipConfig? name = config
  kept : ∀ other, other ≠ name →
    (∀ s, tree.source? other = some (.derived s) → rank s < rank name) →
    tree'.ipConfig? other = tree.ipConfig? other
  agrees : ∀ s f, tree.source? f = some (.derived s) → f ≠ name → tree.Agrees s f → tree'.Agrees s f
  notes : ∀ s f, tree'.Notes s f → tree.Notes s f ∨ tree.source? f = some (.derived s)

/-- One follower more has the addresses of its supplier. -/
theorem Ranked.supplies_cons (hr : tree.Ranked rank) {t₁ t₂ : DomainTree} {rest : List String}
    (hsource : tree.source? follower = some (.derived supplier))
    (hfirst : tree.Installs rank follower (tree.ipConfig? supplier) t₁)
    (hrest : (t₁.noteDependent supplier follower).Supplies rank supplier rest t₂) :
    tree.Supplies rank supplier (follower :: rest) t₂ := by
  have hlower := hr.lower follower supplier hsource
  have hshell : (t₁.noteDependent supplier follower).shell = tree.shell :=
    (shell_noteDependent ..).trans hfirst.shell
  have hkept : ∀ name, (∀ s, tree.source? name = some (.derived s) → rank s < rank supplier) →
      (t₁.noteDependent supplier follower).ipConfig? name = tree.ipConfig? name := by
    intro name hname
    rw [ipConfig?_noteDependent]
    refine hfirst.kept name ?_ fun s hs => Nat.lt_trans (hname s hs) hlower
    rintro rfl
    exact Nat.lt_irrefl _ (hname supplier hsource)
  have hself : (t₁.noteDependent supplier follower).Agrees supplier follower := by
    have hsupplier := hkept supplier (hr.lower supplier)
    have hfollower := hfirst.here (isSome_byName?_of_source? hsource)
    rw [← ipConfig?_noteDependent t₁ supplier follower follower, ← hsupplier] at hfollower
    refine ⟨hfollower, ?_⟩
    rw [notes_noteDependent, if_pos ⟨rfl, rfl⟩, ipConfig?_noteDependent]
    refine ⟨And.right, fun hsome => ⟨?_, hsome⟩⟩
    rw [ipConfig?_noteDependent, ipConfig?_noteDependent] at hfollower
    rw [hfollower] at hsome
    exact Option.isSome_of_isSome_bind hsome
  have hother : ∀ s f, (s, f) ≠ (supplier, follower) → t₁.Agrees s f →
      (t₁.noteDependent supplier follower).Agrees s f := by
    intro s f hne hagrees
    refine ⟨?_, ?_⟩
    · rw [ipConfig?_noteDependent, ipConfig?_noteDependent]
      exact hagrees.config
    · rw [notes_noteDependent, if_neg fun he => hne (Prod.ext he.1 he.2), ipConfig?_noteDependent]
      exact hagrees.notes
  refine
    ⟨hrest.shell.trans hshell, fun name hname => ?_, fun s f hf hagrees => ?_, fun s f hn => ?_⟩
  · rw [hrest.kept name (by rwa [source?_of_shell hshell]), hkept name hname]
  · refine hrest.agrees s f (by rwa [source?_of_shell hshell]) ?_
    by_cases he : f = follower
    · subst he
      obtain rfl : supplier = s := by simpa [hsource] using hf
      exact .inl hself
    · rcases hagrees with hold | ⟨rfl, hmem⟩
      · refine .inl (hother s f (fun hp => he (Prod.mk.inj hp).2) ?_)
        exact hfirst.agrees s f hf he hold
      · exact .inr ⟨rfl, (List.mem_cons.1 hmem).resolve_left he⟩
  · rcases hrest.notes s f hn with hn | hn
    · rw [notes_noteDependent] at hn
      split at hn
      · rename_i he
        exact .inr (he.1 ▸ he.2 ▸ hsource)
      · exact hfirst.notes s f hn
    · exact .inr (by rwa [source?_of_shell hshell] at hn)

/-- **Followers that each take the addresses over agree with their supplier.** -/
theorem Ranked.supplies (hr : tree.Ranked rank)
    (hinstall : ∀ {t : DomainTree} {f : String}, t.Ranked rank →
      t.domains.length = tree.domains.length → rank supplier < rank f →
      t.Installs rank f config (install config changes t f).value)
    (hconfig : tree.ipConfig? supplier = config) {followers : List String}
    (hfollowers : ∀ f ∈ followers, tree.source? f = some (.derived supplier)) :
    tree.Supplies rank supplier followers
      (supplyWith (install config changes) supplier followers tree).value := by
  induction followers generalizing tree with
  | nil =>
    exact ⟨rfl, fun _ _ => rfl, fun _ _ _ h => h.resolve_right fun he => List.not_mem_nil he.2,
      fun _ _ => .inl⟩
  | cons f rest ih =>
    have hsource := hfollowers f List.mem_cons_self
    have hlower := hr.lower f supplier hsource
    have hfirst := hinstall hr rfl hlower
    have hshell : ((install config changes tree f).value.noteDependent supplier f).shell =
        tree.shell :=
      (shell_noteDependent ..).trans hfirst.shell
    refine hr.supplies_cons hsource (by rwa [hconfig]) (ih (hr.of_shell hshell) ?_ ?_ ?_)
    · intro t x ht hlength hx
      exact hinstall ht (hlength.trans (length_of_shell hshell)) hx
    · rw [ipConfig?_noteDependent, hfirst.kept supplier ?_ ?_, hconfig]
      · rintro rfl
        exact Nat.lt_irrefl _ hlower
      · exact fun s hs => Nat.lt_trans (hr.lower supplier s hs) hlower
    · intro x hx
      rw [source?_of_shell hshell]
      exact hfollowers x (List.mem_cons_of_mem _ hx)

/-- Nothing is installed where it is already. -/
theorem installs_self (h : (tree.byName? name).isSome → tree.ipConfig? name = config) :
    tree.Installs rank name config tree :=
  ⟨rfl, h, fun _ _ _ => rfl, fun _ _ _ _ => id, fun _ _ => .inl⟩

/-- **Addresses that are installed reach all that follow**, if there are as many changes to spend as
there are ranks above. -/
theorem Ranked.installs (hr : tree.Ranked rank) (config : Option IpConfig)
    (hchanges : tree.domains.length ≤ changes + rank name) :
    tree.Installs rank name config (install config changes tree name).value := by
  induction changes generalizing tree name with
  | zero =>
    have hself : (tree.byName? name).isSome → tree.ipConfig? name = config := fun hd =>
      absurd (hr.lt name hd) (Nat.not_lt.2 (Nat.zero_add (rank name) ▸ hchanges))
    unfold install
    split
    · exact installs_self hself
    · split <;> exact installs_self hself
  | succ changes ih =>
    unfold install
    split
    · rename_i hd
      exact installs_self fun hsome => by simp [hd] at hsome
    · rename_i d hd
      have hsome : (tree.byName? name).isSome := by rw [hd]; rfl
      split
      · rename_i hsame
        exact installs_self fun _ => by rw [ipConfig?, hd, ← hsame]; rfl
      · rw [Logged.value_bind]
        have hip := ipConfig?_replaceIpConfig hsome d.ipConfig config
        have hnotes : ∀ s f, (tree.replaceIpConfig name d.ipConfig config).value.Notes s f ↔
            tree.Notes s f := fun _ _ => notes_replaceIpConfig d.ipConfig config
        have hshell := tree.shell_replaceIpConfig name d.ipConfig config
        generalize (tree.replaceIpConfig name d.ipConfig config).value = t at hip hnotes hshell ⊢
        have ht := hr.of_shell hshell
        have hsupplies : t.Supplies rank name (t.derivedFrom name)
            (supplyWith (install config changes) name (t.derivedFrom name) t).value := by
          refine ht.supplies (fun hx hlength hlower => ih hx ?_) ?_
            fun f hf => (mem_derivedFrom ht.distinct).1 hf
          · rw [hlength, length_of_shell hshell]
            omega
          · rw [hip, if_pos rfl]
        refine ⟨hsupplies.shell.trans hshell, fun _ => ?_, fun other hne hother => ?_,
          fun s f hf hne hagrees => ?_, fun s f hn => ?_⟩
        · rw [hsupplies.kept name (ht.lower name), hip, if_pos rfl]
        · rw [hsupplies.kept other (by rwa [source?_of_shell hshell]), hip, if_neg hne]
        · have hf' : t.source? f = some (.derived s) := by rwa [source?_of_shell hshell]
          refine hsupplies.agrees s f hf' ?_
          by_cases hs : s = name
          · exact .inr ⟨hs, (mem_derivedFrom ht.distinct).2 (hs ▸ hf')⟩
          · refine .inl ⟨?_, ?_⟩
            · rw [hip, if_neg hne, hip, if_neg hs]
              exact hagrees.config
            · rw [hnotes, hip, if_neg hne]
              exact hagrees.notes
        · refine (hsupplies.notes s f hn).imp (hnotes s f).1 fun hf => ?_
          rwa [source?_of_shell hshell] at hf

end DomainTree

end SegmentRouter
