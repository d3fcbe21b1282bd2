import SegmentRouter.Proofs.Tree.Propagation
import SegmentRouter.Proofs.Tree.Supplied

/-!
# Proofs/Tree/Dependents — who has addresses from whom

A domain that has its addresses from another one stands in that one's list exactly while it has any
(`DomainTree.ListsDependents`).  A supplier that gives addresses on keeps its list; but a follower
whose addresses are set directly gains or loses them without its supplier.  Such calls, and no
others, make the lists wrong (`listsDependents_iff`).
-/

namespace SegmentRouter

/-- A domain that was just made. -/
structure Domain.IsNew (d : Domain) : Prop where
  source : d.source = sourceOf d.config
  ipConfig : d.ipConfig = d.config.ipConfig?
  dependents : d.dependents = ∅

theorem Domain.isNew_ofConfig (config : Config.Domain) (timeouts : Config.Timeouts) :
    (ofConfig config timeouts).IsNew :=
  ⟨rfl, rfl, rfl⟩

/-- A new domain that has its addresses from another one has none. -/
theorem Domain.IsNew.ipConfig_eq_none {d : Domain} (h : d.IsNew) {supplier : String}
    (hsource : d.source = .derived supplier) : d.ipConfig = none := by
  rw [h.source, sourceOf] at hsource
  split at hsource
  · cases hsource
  · rename_i hstatic
    rw [h.ipConfig, Config.Domain.ipConfig?, Option.map_eq_none_iff]
    exact Option.not_isSome_iff_eq_none.1 hstatic

/-- The domain that the addresses are from. -/
def IpSource.supplier? : IpSource → Option String
  | derived supplier => some supplier
  | static | dhcp => none

theorem IpSource.isSome_supplier? {source : IpSource} :
    source.supplier?.isSome = true ↔ ∃ supplier, source = .derived supplier := by
  cases source <;> simp [IpSource.supplier?]

/-- A call that sets or removes addresses. -/
inductive SupplyCall where
  | set (id : DomainId) (config : Option IpConfig)
  | discard (id : DomainId)

namespace SupplyCall

/-- The domain that is called. -/
def id : SupplyCall → DomainId
  | set id _ => id
  | discard id => id

/-- The addresses that the domain is to have. -/
def config : SupplyCall → Option IpConfig
  | set _ config => config
  | discard _ => none

/-- What is done. -/
def run (call : SupplyCall) (tree : DomainTree) : Logged (Except Error DomainTree) :=
  match call with
  | set id config => tree.setIpConfig id config
  | discard id => tree.discardIpConfig id

theorem run_eq (call : SupplyCall) (tree : DomainTree) :
    call.run tree = tree.setIpConfig call.id call.config := by
  cases call <;> rfl

end SupplyCall

namespace DomainTree

variable {tree tree' tree'' : DomainTree} {config : Option IpConfig} {name supplier : String}
  {changed : List String} {handed handed' : String → String → Prop} {call : SupplyCall}
  {calls : List SupplyCall}

/-- The domains that have their addresses from another one are in the list of that one and in no
other while they have any, and in none while they have none. -/
def ListsDependents (tree : DomainTree) : Prop :=
  ∀ follower supplier, tree.source? follower = some (.derived supplier) →
    ∀ other, tree.Notes other follower ↔
      other = supplier ∧ (tree.ipConfig? follower).isSome = true

/-- Nobody is in the list of a domain that it does not have its addresses from. -/
def ListsFollowers (tree : DomainTree) : Prop :=
  ∀ supplier follower, tree.Notes supplier follower →
    tree.source? follower = some (.derived supplier)

/-- No domain has its addresses from itself in the end. -/
def Acyclic (tree : DomainTree) : Prop :=
  ∀ name, ¬ Relation.TransGen (fun supplier follower => follower ∈ tree.derivedFrom supplier)
    name name

/-- The tree after a call, which may be refused. -/
def after (tree : DomainTree) (call : SupplyCall) : DomainTree :=
  match (call.run tree).value with
  | .ok tree' => tree'
  | .error _ => tree

/-- The tree before the first of a sequence of calls, and after each of them. -/
def visits (tree : DomainTree) : List SupplyCall → List DomainTree
  | [] => [tree]
  | call :: rest => tree :: (tree.after call).visits rest

/-- A call gives addresses to a domain that has them from another one, or takes all from it, past
that supplier. -/
def BypassedBy (tree : DomainTree) (call : SupplyCall) : Prop :=
  ∃ d ∈ tree.get? call.id, d.source.supplier?.isSome = true ∧
    call.config.isSome ≠ d.ipConfig.isSome

/-- None of the calls passes by a supplier. -/
def Heeded (tree : DomainTree) : List SupplyCall → Prop
  | [] => True
  | call :: rest => ¬ tree.BypassedBy call ∧ (tree.after call).Heeded rest

instance decidableHeeded : (tree : DomainTree) → (calls : List SupplyCall) →
    Decidable (tree.Heeded calls)
  | _, [] => .isTrue trivial
  | tree, call :: rest =>
    have := decidableHeeded (tree.after call) rest
    inferInstanceAs (Decidable (¬ (∃ d ∈ tree.get? call.id, _) ∧ (tree.after call).Heeded rest))

/-! ## Addresses that are handed on -/

/-- Some followers were handed the addresses of their suppliers, who know it.  Otherwise nobody
knows anything new. -/
structure Hands (tree : DomainTree) (config : Option IpConfig) (handed : String → String → Prop)
    (tree' : DomainTree) : Prop where
  shell : tree'.shell = tree.shell
  stays : ∀ name, tree.ipConfig? name = config → tree'.ipConfig? name = config
  has : ∀ supplier follower, handed supplier follower → tree'.ipConfig? follower = config
  noted : ∀ supplier follower, handed supplier follower → (tree'.Notes supplier follower ↔
    (tree.byName? supplier).isSome = true ∧ config.isSome = true)
  kept : ∀ supplier follower, ¬ handed supplier follower →
    (tree'.Notes supplier follower ↔ tree.Notes supplier follower)

namespace Hands

theorem refl (tree : DomainTree) : tree.Hands config (fun _ _ => False) tree :=
  ⟨rfl, fun _ => id, fun _ _ => False.elim, fun _ _ => False.elim, fun _ _ _ => .rfl⟩

theorem congr (h : tree.Hands config handed tree')
    (hiff : ∀ supplier follower, handed' supplier follower ↔ handed supplier follower) :
    tree.Hands config handed' tree' := by
  obtain rfl : handed' = handed := funext₂ fun s f => propext (hiff s f)
  exact h

theorem trans (h : tree.Hands config handed tree') (h' : tree'.Hands config handed' tree'') :
    tree.Hands config (fun s f => handed s f ∨ handed' s f) tree'' where
  shell := h'.shell.trans h.shell
  stays name hname := h'.stays name (h.stays name hname)
  has s f hf := hf.elim (fun hf => h'.stays f (h.has s f hf)) (h'.has s f)
  noted s f hf := by
    by_cases hlater : handed' s f
    · rw [h'.noted s f hlater, isSome_byName?_of_shell h.shell]
    · rw [h'.kept s f hlater, h.noted s f (hf.resolve_right hlater)]
  kept s f hf := by
    obtain ⟨hfirst, hlater⟩ := not_or.1 hf
    rw [h'.kept s f hlater, h.kept s f hfirst]

theorem replaceIpConfig {d : Domain} (hd : tree.byName? name = some d)
    (hother : d.ipConfig ≠ config) :
    tree.Hands config (fun _ _ => False) (tree.replaceIpConfig name d.ipConfig config).value where
  shell := shell_replaceIpConfig ..
  stays other hconfig := by
    rw [(Alters.replaceIpConfig hd hother).ipConfig?, hconfig, ite_self]
  has _ _ := False.elim
  noted _ _ := False.elim
  kept _ _ _ := notes_replaceIpConfig ..

theorem noteDependent (supplier : String) (hname : tree.ipConfig? name = config) :
    tree.Hands config (fun s f => s = supplier ∧ f = name) (tree.noteDependent supplier name) where
  shell := shell_noteDependent ..
  stays other hother := (ipConfig?_noteDependent ..).trans hother
  has s f hf := (ipConfig?_noteDependent ..).trans (hf.2 ▸ hname)
  noted s f hf := by rw [notes_noteDependent, if_pos hf, hname, hf.1]
  kept s f hf := by rw [notes_noteDependent, if_neg hf]

end Hands

/-- A task is to hand addresses on from a supplier to a follower. -/
def SupplyTask.Asks : SupplyTask → String → String → Prop
  | install _, _, _ => False
  | supply supplier followers, s, f => s = supplier ∧ f ∈ followers

theorem isSome_byName?_of_mem_derivedFrom (h : name ∈ tree.derivedFrom supplier) :
    (tree.byName? name).isSome := by
  obtain ⟨d, hd, rfl⟩ := List.mem_map.1 h
  exact isSome_byName?_iff.2 (List.mem_map_of_mem (List.mem_of_mem_filter hd))

/-- **Whoever changes hands the change on to all that follow**, and its list is right for them. -/
theorem Completes.hands {task : SupplyTask} (h : Completes config task tree changed tree')
    (hasks : ∀ s f, task.Asks s f → (tree.byName? f).isSome) :
    tree.Hands config (fun s f => task.Asks s f ∨ s ∈ changed ∧ f ∈ tree.derivedFrom s) tree' := by
  induction h with
  | absent | same => exact (Hands.refl _).congr fun s f => by simp [SupplyTask.Asks]
  | done => exact (Hands.refl _).congr fun s f => by simp [SupplyTask.Asks]
  | @change tree _ name d changed hd hother _ ih =>
    have hshell := tree.shell_replaceIpConfig name d.ipConfig config
    refine ((Hands.replaceIpConfig hd hother).trans (ih fun s f hf => ?_)).congr fun s f => ?_
    · exact isSome_byName?_of_mem_derivedFrom hf.2
    · simp only [SupplyTask.Asks, derivedFrom_of_shell hshell, List.mem_cons, false_or,
        or_and_right]
      exact or_congr_left (and_congr_right fun hs => by rw [hs])
  | @next tree t _ supplier name followers _ _ hfirst _ ihfirst ihrest =>
    have hname := hfirst.ipConfig?_eq (hasks supplier name ⟨rfl, List.mem_cons_self⟩)
    have hnote := (ihfirst nofun).trans (Hands.noteDependent supplier hname)
    refine (hnote.trans (ihrest fun s f hf => ?_)).congr fun s f => ?_
    · rw [isSome_byName?_of_shell hnote.shell]
      exact hasks s f ⟨hf.1, List.mem_cons_of_mem _ hf.2⟩
    · simp only [SupplyTask.Asks, derivedFrom_of_shell hnote.shell, List.mem_cons, List.mem_append]
      grind

/-! ## Lists -/

/-- **Lists stay right where addresses are handed on**, if no other follower gains or loses any. -/
theorem ListsDependents.of_hands (h : tree.ListsDependents)
    (hhands : tree.Hands config handed tree')
    (hhanded : ∀ s f, handed s f →
      tree.source? f = some (.derived s) ∧ (tree.byName? s).isSome = true)
    (hquiet : ∀ s f, tree.source? f = some (.derived s) → ¬ handed s f →
      (tree'.ipConfig? f).isSome = (tree.ipConfig? f).isSome) : tree'.ListsDependents := by
  intro f s hf other
  rw [source?_of_shell hhands.shell] at hf
  -- nobody but its own supplier hands anything to a follower
  have hown : ∀ {t}, handed t f → t = s := fun {t} ht => by
    have hsource := (hhanded t f ht).1.symm.trans hf
    simpa using hsource
  by_cases hs : handed s f
  · by_cases ho : other = s
    · subst ho
      rw [hhands.noted other f hs, hhands.has other f hs]
      simp only [(hhanded other f hs).2, true_and]
    · rw [hhands.kept other f fun ht => ho (hown ht), h f s hf]
      simp only [ho, false_and]
  · rw [hhands.kept other f fun ht => hs (hown ht ▸ ht), h f s hf, hquiet s f hf hs]

/-- **Lists stay right when addresses are given on**, if those where it begins are handed them or
have addresses as before. -/
theorem ListsDependents.completes {task : SupplyTask} (h : tree.ListsDependents)
    (hd : tree.Distinct) (hcompletes : Completes config task tree changed tree')
    (hasks : ∀ s f, task.Asks s f →
      f ∈ tree.derivedFrom s ∧ (tree.byName? s).isSome = true)
    (hstarts : ∀ f ∈ task.starts, ∀ s, tree.source? f = some (.derived s) →
      task.Asks s f ∨ config.isSome = (tree.ipConfig? f).isSome) : tree'.ListsDependents := by
  have halters := hcompletes.alters
  refine h.of_hands (hcompletes.hands fun s f hf => ?_) (fun s f hf => ?_) fun s f hf hnot => ?_
  · exact isSome_byName?_of_mem_derivedFrom (hasks s f hf).1
  · rcases hf with hasked | ⟨hs, hf⟩
    · exact ⟨(mem_derivedFrom hd).1 (hasks s f hasked).1, (hasks s f hasked).2⟩
    · exact ⟨(mem_derivedFrom hd).1 hf, halters.exists_byName? s hs⟩
  · rw [halters.ipConfig?]
    split
    · rename_i hm
      obtain ⟨start, hstart, hchain⟩ := hcompletes.chain hm
      rcases hchain.cases_tail with rfl | ⟨t, -, ht, hft⟩
      · exact (hstarts f hstart s hf).resolve_left fun hasked => hnot (.inl hasked)
      · have hts : t = s := by simpa [hf] using ((mem_derivedFrom hd).1 hft).symm
        exact absurd (.inr ⟨hts ▸ ht, hts ▸ hft⟩) hnot
    · rfl

/-- Nobody comes into the list of another domain. -/
theorem ListsFollowers.completes {task : SupplyTask} (h : tree.ListsFollowers)
    (hd : tree.Distinct) (hcompletes : Completes config task tree changed tree')
    (hasks : ∀ s f, task.Asks s f → f ∈ tree.derivedFrom s) : tree'.ListsFollowers := by
  have hhands := hcompletes.hands fun s f hf =>
    isSome_byName?_of_mem_derivedFrom (hasks s f hf)
  intro s f hn
  rw [source?_of_shell hhands.shell]
  by_cases hhanded : task.Asks s f ∨ s ∈ changed ∧ f ∈ tree.derivedFrom s
  · exact (mem_derivedFrom hd).1 (hhanded.elim (hasks s f) And.right)
  · exact h s f ((hhands.kept s f hhanded).1 hn)

theorem Acyclic.of_shell (h : tree.Acyclic) (hshell : tree'.shell = tree.shell) :
    tree'.Acyclic := by
  unfold Acyclic
  simp only [derivedFrom_of_shell hshell]
  exact h

/-! ## One call -/

/-- **Addresses that are installed in a domain leave the lists right exactly if it is no follower
that gains or loses them.** -/
theorem ListsDependents.installIpConfig_iff (h : tree.ListsDependents) (hd : tree.Distinct)
    (hacyclic : tree.Acyclic) (hname : (tree.byName? name).isSome) (config : Option IpConfig) :
    (tree.installIpConfig name config).value.ListsDependents ↔
      ∀ s, tree.source? name = some (.derived s) →
        config.isSome = (tree.ipConfig? name).isSome := by
  obtain ⟨changed, hcompletes⟩ := tree.exists_completes name config
  constructor
  · intro h' s hs
    -- the supplier is no follower of its follower, so its list is as it was
    have hsupplier : s ∉ changed := fun hm =>
      hacyclic name (.tail' (hcompletes.descends hm) ((mem_derivedFrom hd).2 hs))
    have hkept := (hcompletes.hands nofun).kept s name
      (not_or.2 ⟨id, fun hc => hsupplier hc.1⟩)
    rw [h name s hs, h' name s ((source?_of_shell hcompletes.alters.shell name).trans hs),
      hcompletes.ipConfig?_eq hname] at hkept
    simp only [true_and] at hkept
    exact Bool.eq_iff_iff.2 hkept
  · intro hquiet
    refine h.completes hd hcompletes nofun fun f hf s hs => .inr ?_
    obtain rfl := List.mem_singleton.1 hf
    exact hquiet s hs

/-- What a call does: it is refused, or addresses are installed. -/
theorem after_cases (tree : DomainTree) (call : SupplyCall) :
    (tree.after call = tree ∧ ∀ d, tree.get? call.id = some d → d.source = .static) ∨
    ∃ d, tree.get? call.id = some d ∧
      tree.after call = (tree.installIpConfig d.name call.config).value := by
  unfold after
  rw [call.run_eq]
  rcases hset : (tree.setIpConfig call.id call.config).value with e | tree'
  · refine .inl ⟨rfl, fun d hd => by_contra fun hsource => ?_⟩
    rw [setIpConfig_of_get? hd (beq_eq_false_iff_ne.2 hsource)] at hset
    cases hset
  · obtain ⟨d, hd, -, rfl⟩ := setIpConfig_eq_ok hset
    exact .inr ⟨d, hd, rfl⟩

theorem shell_after (tree : DomainTree) (call : SupplyCall) :
    (tree.after call).shell = tree.shell := by
  rcases tree.after_cases call with ⟨hkept, -⟩ | ⟨d, -, hvalue⟩
  · rw [hkept]
  · rw [hvalue]
    exact shell_install ..

/-- **A call leaves the lists right, unless it passes by a supplier.** -/
theorem ListsDependents.after_iff (h : tree.ListsDependents) (hd : tree.Distinct)
    (hacyclic : tree.Acyclic) (call : SupplyCall) :
    (tree.after call).ListsDependents ↔ ¬ tree.BypassedBy call := by
  rcases tree.after_cases call with ⟨hkept, hstatic⟩ | ⟨d, hget, hvalue⟩
  · rw [hkept]
    refine iff_of_true h ?_
    rintro ⟨d, hget, hfollower, -⟩
    rw [hstatic d hget] at hfollower
    cases hfollower
  · have hby := hd.byName?_of_mem (mem_of_get? hget)
    rw [hvalue, h.installIpConfig_iff hd hacyclic (by rw [hby]; rfl),
      source?_of_mem hd (mem_of_get? hget), ipConfig?_of_mem hd (mem_of_get? hget), BypassedBy,
      hget]
    simp only [Option.mem_some_iff, exists_eq_left', IpSource.isSome_supplier?, Option.some.injEq,
      not_and, ne_eq, not_not, forall_exists_index]

theorem ListsFollowers.after (h : tree.ListsFollowers) (hd : tree.Distinct) (call : SupplyCall) :
    (tree.after call).ListsFollowers := by
  rcases tree.after_cases call with ⟨hkept, -⟩ | ⟨d, -, hvalue⟩
  · rwa [hkept]
  · obtain ⟨changed, hcompletes⟩ := tree.exists_completes d.name call.config
    rw [hvalue]
    exact h.completes hd hcompletes nofun

/-! ## Runs -/

theorem mem_visits (tree : DomainTree) (calls : List SupplyCall) : tree ∈ tree.visits calls := by
  cases calls with
  | nil => exact List.mem_singleton.2 rfl
  | cons => exact List.mem_cons_self

theorem ListsDependents.visits_iff (h : tree.ListsDependents) (hd : tree.Distinct)
    (hacyclic : tree.Acyclic) :
    (∀ t ∈ tree.visits calls, t.ListsDependents) ↔ tree.Heeded calls := by
  induction calls generalizing tree with
  | nil => simpa [visits, Heeded] using h
  | cons call rest ih =>
    have hshell := tree.shell_after call
    have hstep := h.after_iff hd hacyclic call
    rw [visits, List.forall_mem_cons, Heeded]
    constructor
    · rintro ⟨-, hvisits⟩
      have hafter := hvisits _ (mem_visits _ rest)
      exact ⟨hstep.1 hafter, (ih hafter (hd.of_shell hshell) (hacyclic.of_shell hshell)).1 hvisits⟩
    · rintro ⟨hcall, hrest⟩
      have hafter := hstep.2 hcall
      exact ⟨h, (ih hafter (hd.of_shell hshell) (hacyclic.of_shell hshell)).2 hrest⟩

theorem ListsFollowers.visits (h : tree.ListsFollowers) (hd : tree.Distinct) {t : DomainTree}
    (ht : t ∈ tree.visits calls) : t.ListsFollowers := by
  induction calls generalizing tree with
  | nil =>
    rw [DomainTree.visits, List.mem_singleton] at ht
    exact ht ▸ h
  | cons call rest ih =>
    obtain rfl | hrest := List.mem_cons.1 ht
    · exact h
    · exact ih (h.after hd call) (hd.of_shell (tree.shell_after call)) hrest

/-! ## The beginning -/

section

variable (hnew : ∀ d ∈ tree.domains, d.IsNew)

include hnew

theorem not_notes_of_isNew : ¬ tree.Notes supplier name := by
  intro hn
  obtain ⟨d, hd, hcontains⟩ := Option.map_eq_some_iff.1 hn
  rw [(hnew d (mem_of_byName? hd)).dependents] at hcontains
  cases hcontains

/-- Domains that were just made are in no list, and followers have no addresses. -/
theorem listsDependents_of_isNew : tree.ListsDependents := by
  intro f s hf other
  obtain ⟨d, hd, hsource⟩ := Option.map_eq_some_iff.1 hf
  have hnone : tree.ipConfig? f = none := by
    rw [ipConfig?, hd]
    exact (hnew d (mem_of_byName? hd)).ipConfig_eq_none hsource
  refine iff_of_false (not_notes_of_isNew hnew) ?_
  rw [hnone]
  exact fun hc => Bool.noConfusion hc.2

end

/-- **Giving the addresses of suppliers on keeps the lists right.** -/
theorem lists_supplyAll {suppliers : List String} (h : tree.ListsDependents)
    (h' : tree.ListsFollowers) (hd : tree.Distinct)
    (hsuppliers : ∀ s ∈ suppliers, (tree.byName? s).isSome) :
    (supplyAll suppliers tree).value.ListsDependents ∧
      (supplyAll suppliers tree).value.ListsFollowers ∧
      (supplyAll suppliers tree).value.shell = tree.shell := by
  induction suppliers generalizing tree with
  | nil => exact ⟨h, h', rfl⟩
  | cons supplier rest ih =>
    obtain ⟨hhere, hrest⟩ := List.forall_mem_cons.1 hsuppliers
    obtain ⟨changed, hcompletes⟩ := completes_supplyWith supplier
      (completes_install tree.domains.length) (tree.derivedFrom supplier)
      (tree.card_unlike_le ((tree.byName? supplier).bind (·.ipConfig)))
    have hshell := hcompletes.alters.shell
    have hlists := h.completes hd hcompletes (fun s f hf => ⟨hf.1 ▸ hf.2, hf.1 ▸ hhere⟩)
      fun f hf s hs => by
        have hsupplier := hs.symm.trans ((mem_derivedFrom hd).1 hf)
        exact .inl ⟨by simpa using hsupplier, hf⟩
    have hfollowers := h'.completes hd hcompletes fun s f hf => hf.1 ▸ hf.2
    obtain ⟨hall, hall', hshell'⟩ := ih hlists hfollowers (hd.of_shell hshell) fun s hs =>
      (isSome_byName?_of_shell hshell s).trans (hrest s hs)
    exact ⟨hall, hall', hshell'.trans hshell⟩

/-- **The lists of dependents are right throughout, except for calls that pass by a supplier.**
They are in every state of a tree of new domains exactly if no follower gains or loses addresses in
a call of its own.  Even then nobody is in a list of any but its own supplier. -/
theorem listsDependents_iff (generation : Nat) {domains : List Domain} (verbose : Bool)
    (hnew : ∀ d ∈ domains, d.IsNew) (hdistinct : Distinct { generation, domains, verbose })
    (hacyclic : Acyclic { generation, domains, verbose }) (calls : List SupplyCall) :
    ((∀ t ∈ (ofDomains generation domains verbose).value.visits calls, t.ListsDependents) ↔
      (ofDomains generation domains verbose).value.Heeded calls) ∧
    ∀ t ∈ (ofDomains generation domains verbose).value.visits calls, t.ListsFollowers := by
  have hsuppliers : ∀ s ∈ (domains.filter (·.ipConfig.isSome)).map (·.name),
      (byName? { generation, domains, verbose } s).isSome := by
    intro s hs
    obtain ⟨d, hd, rfl⟩ := List.mem_map.1 hs
    exact isSome_byName?_iff.2 (List.mem_map_of_mem (List.mem_of_mem_filter hd))
  have hlists : ListsDependents { generation, domains, verbose } := listsDependents_of_isNew hnew
  obtain ⟨hlists, hfollowers, hshell⟩ := lists_supplyAll hlists
    (fun s f hn => absurd hn (not_notes_of_isNew hnew)) hdistinct hsuppliers
  exact ⟨hlists.visits_iff (hdistinct.of_shell hshell) (hacyclic.of_shell hshell),
    fun t ht => hfollowers.visits (hdistinct.of_shell hshell) ht⟩

namespace Annex

/-- A domain whose addresses are leased, and one that has them from it. -/
def domains : List Domain :=
  [.ofConfig { name := "uplink" } {}, .ofConfig { name := "dmz", ipConfigFrom := some "uplink" } {}]

theorem prefixLength_le : 24 ≤ 32 := by
  decide

/-- The addresses of a lease. -/
def leased : IpConfig where
  interface := ⟨.ofOctets 203 0 113 2, 24, prefixLength_le⟩
  gateway := none
  dnsServer := none

/-- Other addresses. -/
def other : IpConfig where
  interface := ⟨.ofOctets 10 0 0 1, 24, prefixLength_le⟩
  gateway := none
  dnsServer := none

theorem isNew_domains : ∀ d ∈ domains, d.IsNew := by
  intro d hd
  rcases List.mem_cons.1 hd with rfl | hd
  · exact Domain.isNew_ofConfig ..
  · rw [List.mem_singleton.1 hd]
    exact Domain.isNew_ofConfig ..

theorem distinct_domains : Distinct { generation := 1, domains, verbose := true } := by
  show ["uplink", "dmz"].Nodup
  decide

/-- The second domain follows the first, and the first follows none. -/
theorem acyclic_domains : Acyclic { generation := 1, domains, verbose := true } := by
  have hfollows : ∀ {s f}, f ∈ derivedFrom { generation := 1, domains, verbose := true } s →
      s = "uplink" ∧ f = "dmz" := by
    intro s f hf
    obtain ⟨d, hd, rfl⟩ := List.mem_map.1 hf
    obtain ⟨hm, hsource⟩ := List.mem_filter.1 hd
    rcases List.mem_cons.1 hm with rfl | hm
    · have hsource : IpSource.dhcp = .derived s := eq_of_beq hsource
      cases hsource
    · obtain rfl := List.mem_singleton.1 hm
      have hsource : IpSource.derived "uplink" = .derived s := eq_of_beq hsource
      exact ⟨(IpSource.derived.inj hsource).symm, rfl⟩
  intro name hcycle
  obtain ⟨_, -, hlast⟩ := Relation.TransGen.tail'_iff.1 hcycle
  obtain ⟨_, hfirst, -⟩ := Relation.TransGen.head'_iff.1 hcycle
  have hname := (hfollows hfirst).1.symm.trans (hfollows hlast).2
  exact absurd hname (by decide)

end Annex

/-- A lease comes, the follower gets other addresses, and the lease ends. -/
theorem listsDependents_iff_annex :
    (∀ d ∈ Annex.domains, d.IsNew) ∧
    Distinct { generation := 1, domains := Annex.domains, verbose := true } ∧
    Acyclic { generation := 1, domains := Annex.domains, verbose := true } ∧
    ∀ t ∈ (ofDomains 1 Annex.domains true).value.visits
      [.set ⟨1, 0⟩ (some Annex.leased), .set ⟨1, 1⟩ (some Annex.other), .discard ⟨1, 0⟩],
      t.ListsDependents :=
  ⟨Annex.isNew_domains, Annex.distinct_domains, Annex.acyclic_domains,
    (listsDependents_iff 1 true Annex.isNew_domains Annex.distinct_domains Annex.acyclic_domains
      _).1.2 (by decide +kernel)⟩

/-- **A follower that is given addresses directly is in nobody's list.** -/
theorem unlisted_dependent :
    (∀ d ∈ Annex.domains, d.IsNew) ∧
    Distinct { generation := 1, domains := Annex.domains, verbose := true } ∧
    Acyclic { generation := 1, domains := Annex.domains, verbose := true } ∧
    ¬ ∀ t ∈ (ofDomains 1 Annex.domains true).value.visits [.set ⟨1, 1⟩ (some Annex.other)],
      t.ListsDependents := by
  refine ⟨Annex.isNew_domains, Annex.distinct_domains, Annex.acyclic_domains, fun h => ?_⟩
  have hlists := h ((ofDomains 1 Annex.domains true).value.after (.set ⟨1, 1⟩ (some Annex.other)))
    (List.mem_cons_of_mem _ List.mem_cons_self) "dmz" "uplink" (by decide +kernel) "uplink"
  refine absurd (hlists.2 ⟨rfl, by decide +kernel⟩) ?_
  unfold Notes
  decide +kernel

end DomainTree

end SegmentRouter
