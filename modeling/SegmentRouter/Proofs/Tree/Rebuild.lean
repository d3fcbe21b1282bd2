import SegmentRouter.Domain.Reload
import SegmentRouter.Proofs.Tree.Supply

/-!
# Proofs/Tree/Rebuild — the domains of a new configuration before links are in them

New domains have no links and no ports in use, so their tree is sound if their names differ
(`sound_of_idle`), and installing addresses, fixed, derived or leased, finds no link to end.
-/

namespace SegmentRouter

open Wire (Protocol)

namespace Domain

/-- No link and no port in use. -/
structure Idle (d : Domain) : Prop where
  links : d.links = {}
  pools : d.pools = { icmp := {}, tcp := {}, udp := {} }
  nat : ∀ {client rule}, d.nat.get? client = some rule → ∀ p, (rule.quotas.get p).used = 0

theorem idle_ofConfig (config : Config.Domain) (timeouts : Config.Timeouts) :
    (ofConfig config timeouts).Idle where
  links := rfl
  pools := rfl
  nat hget p := by
    obtain ⟨n, -, he⟩ := List.mem_map.1 (SortedMap.mem_of_get?_ofList hget)
    obtain ⟨-, rfl⟩ := Prod.mk.inj he
    cases p <;> rfl

theorem idle_inherit {d : Domain} (h : d.Idle) (previous : Domain) : (d.inherit previous).Idle :=
  ⟨h.links, h.pools, h.nat⟩

/-- **A domain without links has no port in use.** -/
theorem Idle.accounts {d : Domain} (h : d.Idle) : d.Accounts [] := by
  have hpool : ∀ p, d.pools.get p = {} := fun p => by
    rw [h.pools]
    cases p <;> rfl
  refine ⟨fun p => ?_, fun p port => ?_, fun p client rule hr => ?_, fun p client rule hr => ?_,
    fun p => ?_⟩
  · rw [hpool]
    exact Nat.zero_lt_succ _
  · rw [hpool]
    unfold Port.Pool.isTaken
    split <;> simp
  · rw [h.nat hr]
    rfl
  · rw [h.nat hr]
    exact Nat.zero_le _
  · rw [hpool, usedPorts]
    refine (List.sum_eq_zero_iff_forall_eq_nat.2 fun n hn => ?_).symm
    obtain ⟨rule, hrule, rfl⟩ := List.mem_map.1 hn
    obtain ⟨client, hget⟩ := SortedMap.mem_values_iff.1 hrule
    exact h.nat hget p

end Domain

namespace DomainTree

variable {tree previous : DomainTree} {domains : List Domain}

theorem liveLinks_of_idle (h : ∀ d ∈ tree.domains, d.Idle) : tree.liveLinks = [] := by
  refine List.flatMap_eq_nil_iff.2 fun d hd => ?_
  rw [(h d hd).links]
  rfl

/-- **A tree of idle domains with different names is sound.** -/
theorem sound_of_idle (hdistinct : tree.Distinct) (h : ∀ d ∈ tree.domains, d.Idle) :
    tree.Sound := by
  have hlive := liveLinks_of_idle h
  have hempty : ∀ {link}, link ∉ tree.liveLinks := fun hm => by
    rw [hlive] at hm
    exact List.not_mem_nil hm
  constructor
  case distinct => exact hdistinct
  case held => exact fun ho => absurd (hdistinct.mem_liveLinks.2 ⟨_, _, ho⟩) hempty
  case ids =>
    rw [hlive]
    exact List.nodup_nil
  case index =>
    intro seat ref
    refine ⟨fun href => ?_, fun ⟨link, hm, _⟩ => absurd hm hempty⟩
    obtain ⟨d, hd, hget⟩ := Option.bind_eq_some_iff.1 href
    rw [(h d (mem_of_byName? hd)).links] at hget
    cases hget
  case accounts =>
    intro name d hd
    rw [hlive]
    exact (h d (mem_of_byName? hd)).accounts
  case apart => exact fun ha => absurd ha hempty
  case upholds => exact fun _ hm => absurd hm hempty
  case formed => exact fun _ hm => absurd hm hempty

theorem idle_succeed (previous : DomainTree) (timeouts : Config.Timeouts)
    (config : Config.Domain) : (previous.succeed timeouts config).Idle := by
  unfold succeed
  dsimp only
  split
  · exact Domain.idle_inherit (Domain.idle_ofConfig ..) _
  · exact Domain.idle_ofConfig ..

theorem name_succeed (previous : DomainTree) (timeouts : Config.Timeouts)
    (config : Config.Domain) : (previous.succeed timeouts config).name = config.name := by
  unfold succeed
  dsimp only
  split <;> rfl

/-- The domains of a new configuration as they are made, before addresses are given on. -/
def raw (previous : DomainTree) (config : Config) : DomainTree where
  generation := previous.generation + 1
  domains := config.domains.map (previous.succeed config.timeouts)
  verbose := config.verboseDomainState

theorem idle_raw (previous : DomainTree) (config : Config) :
    ∀ d ∈ (previous.raw config).domains, d.Idle := by
  intro d hd
  obtain ⟨c, -, rfl⟩ := List.mem_map.1 hd
  exact idle_succeed ..

theorem names_raw (previous : DomainTree) (config : Config) :
    (previous.raw config).names = config.domains.map (·.name) := by
  rw [names, raw, List.map_map]
  exact List.map_congr_left fun c _ => name_succeed ..

/-- The domains of a new configuration with their addresses, fixed, derived or leased, before hosts
are forgotten. -/
def addressed (previous : DomainTree) (config : Config) : DomainTree :=
  (reinstall (previous.keptLeases (previous.raw config).domains)
    (supplyAll (((previous.raw config).domains.filter (·.ipConfig.isSome)).map (·.name))
      (previous.raw config)).value).value

theorem rebuild_eq (previous : DomainTree) (config : Config) : (previous.rebuild config).value.2 =
    { previous.addressed config with
      domains := (pruneAll (previous.addressed config).domains).value } := rfl

/-- What the domains are made with they have with their addresses, if installing those that are
given on, and those that are leased, keeps it. -/
theorem addressed_induction {config : Config} {P : DomainTree → Prop}
    {Q : Option IpConfig → String → Prop}
    (hinstall : ∀ {t c name} changes, P t → Q c name → P (install c changes t name).value)
    (hsupply : ∀ {t supplier name}, P t →
      supplier ∈ ((previous.raw config).domains.filter (·.ipConfig.isSome)).map (·.name) →
        name ∈ t.derivedFrom supplier → Q ((t.byName? supplier).bind (·.ipConfig)) name)
    (hlease : ∀ lease ∈ previous.keptLeases (previous.raw config).domains, Q (some lease.2) lease.1)
    (hnote : ∀ {t supplier name}, P t → P (t.noteDependent supplier name))
    (h : P (previous.raw config)) : P (previous.addressed config) := by
  have hreinstall : ∀ (leases : List (String × IpConfig)) {t : DomainTree},
      (∀ lease ∈ leases, Q (some lease.2) lease.1) → P t → P (reinstall leases t).value := by
    intro leases
    induction leases with
    | nil => exact fun _ => id
    | cons lease rest ih =>
      exact fun hleases ht => ih (fun l hl => hleases l (List.mem_cons_of_mem _ hl))
        (hinstall _ ht (hleases lease List.mem_cons_self))
  exact hreinstall _ hlease (supplyAll_induction hinstall hsupply hnote h)

/-- **What the domains are made with, and installing addresses keeps, they have with their
addresses.** -/
theorem addressed_of_install {config : Config} {P : DomainTree → Prop}
    (hinstall : ∀ {t} config changes name, P t → P (install config changes t name).value)
    (hnote : ∀ {t supplier name}, P t → P (t.noteDependent supplier name))
    (h : P (previous.raw config)) : P (previous.addressed config) :=
  addressed_induction (Q := fun _ _ => True) (fun _ ht _ => hinstall _ _ _ ht)
    (fun _ _ _ => trivial) (fun _ _ => trivial) hnote h

/-- Of hosts only is there less after that. -/
theorem map_pruneAll {β : Type} {g : Domain → β} (hg : ∀ (d : Domain) arp, g { d with arp } = g d)
    (domains : List Domain) : (pruneAll domains).value.map g = domains.map g := by
  induction domains with
  | nil => rfl
  | cons d rest ih => exact List.cons_eq_cons.2 ⟨hg .., ih⟩

/-- **The domains of an accepted configuration are sound and have no links yet.** -/
theorem sheds_rebuild (previous : DomainTree) {config : Config}
    (hnames : (config.domains.map (·.name)).Nodup) :
    (previous.raw config).Sheds (previous.rebuild config).value.2 := by
  have hraw : (previous.raw config).Sound :=
    sound_of_idle (by rw [Distinct, names_raw]; exact hnames) (previous.idle_raw config)
  have haddressed : (previous.raw config).Sheds (previous.addressed config) :=
    addressed_of_install (P := (previous.raw config).Sheds)
      (fun _ _ _ ht => ht.trans (ht.sound.sheds_install ..))
      (fun ht => ht.trans (ht.sound.sheds_noteDependent ..)) (.refl hraw)
  refine haddressed.trans (.of_core haddressed.sound ?_)
  rw [rebuild_eq, core, core, map_pruneAll fun _ _ => rfl]

end DomainTree

end SegmentRouter
