import Mathlib.Data.List.Count
import Mathlib.Data.List.Forall2
import SegmentRouter.Proofs.Tree.Hosts
import SegmentRouter.Proofs.Tree.Plan
import SegmentRouter.Proofs.Tree.Succession

/-!
# Proofs/Tree/Renewal — the same configuration once more

The domains that a configuration makes when it is in use already are those that there are: what is
fixed is configured as before, leases are installed again, followers follow the same suppliers, and
since each domain gets back the addresses that it had, no host is forgotten and every link conforms
to the rules and fits its share (`Sound.renews`).  Interfaces are put into the domains later.
-/

namespace SegmentRouter

/-- The handle on the domain at the same place in the next generation. -/
def DomainId.next (id : DomainId) : DomainId :=
  { id with generation := id.generation + 1 }

namespace Domain

/-- The domain without links, ports in use and interfaces. -/
def unattached (d : Domain) : Domain :=
  { d.unlinked with interfaces := ∅ }

theorem unattached_congr {d d' : Domain} (hplan : d'.plan = d.plan)
    (hip : d'.ipConfig = d.ipConfig) (harp : d'.arp = d.arp)
    (hdependents : d'.dependents = d.dependents) (hserver : d'.dhcpServer = d.dhcpServer)
    (hrx : d'.rxBytes = d.rxBytes) (htx : d'.txBytes = d.txBytes) :
    d'.unattached = d.unattached := by
  have hparts : ∀ d : Domain, d.unattached = { d.plan with
      ipConfig := d.ipConfig
      arp := d.arp
      dependents := d.dependents
      dhcpServer := d.dhcpServer
      rxBytes := d.rxBytes
      txBytes := d.txBytes } := fun _ => rfl
  rw [hparts, hplan, hip, harp, hdependents, hserver, hrx, htx, ← hparts]

/-- **A server that is set up as before gets its leases back.** -/
theorem map_inheritLeases {server previous : Option DhcpServer}
    (h : previous.map (·.vacant) = server.map (·.vacant)) :
    server.map (inheritLeases · previous) = previous := by
  cases server with
  | none => exact (Option.map_eq_none_iff.1 h).symm
  | some s =>
    obtain ⟨old, rfl, hvacant⟩ : ∃ old, previous = some old ∧ old.vacant = s.vacant :=
      Option.map_eq_some_iff.1 h
    have hfirst : old.first = s.first := (congrArg DhcpServer.first hvacant :)
    have hlast : old.last = s.last := (congrArg DhcpServer.last hvacant :)
    have hold : ∀ t : DhcpServer, t.inherit old = { t.vacant with leases := old.leases } :=
      fun _ => rfl
    rw [Option.map_some, inheritLeases, if_pos (by simp [DhcpServer.samePool, hfirst, hlast]), hold,
      ← hvacant]
    rfl

/-- The domain is the same but for the order in which free ports are handed out. -/
structure Rotated (d d' : Domain) : Prop where
  eq : d' = { d with pools := d'.pools }
  taken : ∀ p port, (d'.pools.get p).isTaken port = (d.pools.get p).isTaken port
  inUse : ∀ p, (d'.pools.get p).inUse = (d.pools.get p).inUse

end Domain

namespace DomainTree

variable {tree tree' previous : DomainTree} {config : Config} {name : String}

/-- Domains of trees with the same names belong together if those of each name do. -/
theorem Distinct.forall₂_domains {R : Domain → Domain → Prop} (hd : tree.Distinct)
    (hnames : tree'.names = tree.names)
    (h : ∀ {name d d'}, tree.byName? name = some d → tree'.byName? name = some d' → R d d') :
    List.Forall₂ R tree.domains tree'.domains := by
  have hd' : tree'.Distinct := by rwa [Distinct, hnames]
  have hsame : List.Forall₂ (fun d d' => d.name = d'.name) tree.domains tree'.domains := by
    have heq : List.Forall₂ (· = ·) tree.names tree'.names := List.forall₂_eq_eq_eq ▸ hnames.symm
    rwa [names, names, List.forall₂_map_left_iff, List.forall₂_map_right_iff] at heq
  obtain ⟨hlength, hzip⟩ := List.forall₂_iff_zip.1 hsame
  refine List.forall₂_iff_zip.2 ⟨hlength, fun {d d'} hm => ?_⟩
  obtain ⟨hmem, hmem'⟩ := List.of_mem_zip hm
  exact h (hd.byName?_of_mem hmem) (hzip hm ▸ hd'.byName?_of_mem hmem')

/-! ## The domains as they are made -/

section

variable (hplans : previous.plans = config.plans)

include hplans

theorem plans_raw : (previous.raw config).plans = previous.plans :=
  (plans_of_shell (previous.shell_next config)).symm.trans
    ((previous.plans_next config).1.trans hplans.symm)

/-- **A domain that is made as it was before takes over its hosts, its leases and its counters.** -/
theorem exists_previous (hd : previous.Distinct) {d : Domain}
    (hm : d ∈ (previous.raw config).domains) : ∃ old, previous.byName? d.name = some old ∧
      d.arp = old.arp ∧ d.dhcpServer = old.dhcpServer ∧ d.rxBytes = old.rxBytes ∧
      d.txBytes = old.txBytes := by
  obtain ⟨c, hc, rfl⟩ := List.mem_map.1 hm
  rw [name_succeed]
  have hname : c.name ∈ previous.names := by
    rw [names_of_plans hplans]
    exact List.mem_map_of_mem hc
  obtain ⟨old, hold, hcname⟩ := List.mem_map.1 hname
  have hby : previous.byName? c.name = some old := hcname ▸ hd.byName?_of_mem hold
  obtain ⟨hmem, hplan⟩ := plan_of_plans hplans hold
  have hconfig : old.config = c :=
    List.inj_on_of_nodup_map (names_of_plans hplans ▸ hd) hmem hc hcname
  rw [hconfig] at hplan
  have hsource : (Domain.ofConfig c config.timeouts).isStatic = old.isStatic :=
    congrArg (· == IpSource.static) (congrArg Domain.source hplan.symm :)
  have hmade : previous.succeed config.timeouts c =
      (Domain.ofConfig c config.timeouts).inherit old := by
    unfold succeed
    dsimp only
    rw [show (Domain.ofConfig c config.timeouts).name = c.name from rfl, hby]
  rw [hmade]
  refine ⟨old, hby, if_pos hsource, ?_, rfl, rfl⟩
  exact Domain.map_inheritLeases (congrArg Domain.dhcpServer hplan :)

/-- Leases and counters are taken over. -/
theorem server_next (hd : previous.Distinct) {d d' : Domain} (hby : previous.byName? name = some d)
    (hby' : (previous.next config).value.byName? name = some d') :
    d'.dhcpServer = d.dhcpServer ∧ d'.rxBytes = d.rxBytes ∧ d'.txBytes = d.txBytes := by
  have hshells := map_byName?_congr (f := Domain.shell) (g := Domain.shell) (k := id)
    Domain.name_shell (fun _ => rfl) (congrArg DomainTree.domains (previous.shell_next config)) name
  rw [hby', Option.map_some, eq_comm, Option.map_eq_some_iff] at hshells
  obtain ⟨made, hmade, hshell⟩ := hshells
  obtain ⟨old, hold, -, hserver, hrx, htx⟩ :=
    exists_previous hplans hd (mem_of_byName? hmade)
  rw [name_of_byName? hmade, hby] at hold
  obtain rfl := Option.some.inj hold
  refine ⟨.trans ?_ hserver, .trans ?_ hrx, .trans ?_ htx⟩
  · exact (congrArg Domain.dhcpServer hshell.symm :)
  · exact (congrArg Domain.rxBytes hshell.symm :)
  · exact (congrArg Domain.txBytes hshell.symm :)

theorem host?_raw (hd : previous.Distinct) (name : String) (ip : Ipv4Addr) :
    (previous.raw config).host? name ip = previous.host? name ip := by
  cases hby : (previous.raw config).byName? name with
  | none =>
    have hsame := source?_of_plans (plans_raw hplans) name
    rw [source?, hby, Option.map_none, source?, eq_comm, Option.map_eq_none_iff] at hsame
    rw [host?, hby, host?, hsame]
  | some d =>
    obtain ⟨old, hold, harp, -⟩ := exists_previous hplans hd (mem_of_byName? hby)
    rw [name_of_byName? hby] at hold
    rw [host?, hby, host?, hold, Option.bind_some, Option.bind_some, harp]

end

/-! ## Addresses and hosts -/

/-- A tree on the way to a previous one: domains have the addresses that they had there or none yet,
and the hosts that they had. -/
structure Regains (previous tree : DomainTree) : Prop where
  distinct : tree.Distinct
  source : ∀ name, tree.source? name = previous.source? name
  ipConfig : ∀ name, tree.ipConfig? name = none ∨ tree.ipConfig? name = previous.ipConfig? name
  fixed : ∀ name, previous.source? name = some .static →
    tree.ipConfig? name = previous.ipConfig? name
  host : ∀ name ip, tree.host? name ip = previous.host? name ip

theorem Regains.noteDependent (h : previous.Regains tree) (supplier name : String) :
    previous.Regains (tree.noteDependent supplier name) := by
  have hshell := tree.shell_noteDependent supplier name
  refine ⟨h.distinct.of_shell hshell, fun x => ?_, fun x => ?_, fun x hx => ?_, fun x ip => ?_⟩
  · rw [source?_of_shell hshell, h.source]
  · rw [ipConfig?_noteDependent]
    exact h.ipConfig x
  · rw [ipConfig?_noteDependent]
    exact h.fixed x hx
  · rw [host?_noteDependent]
    exact h.host x ip

/-- **Addresses that a domain had before come to all that had them**, and no host is forgotten,
because each had none in between. -/
theorem Regains.install (h : previous.Regains tree) (hsupplied : previous.Supplied)
    {c : Option IpConfig} (hc : previous.ipConfig? name = c) (changes : Nat) :
    previous.Regains (install c changes tree name).value := by
  refine install_induction (P := previous.Regains) (Q := fun name => previous.ipConfig? name = c)
    (fun {t name d} ht hname hd hne => ?_) (fun {t name follower} ht hname hf => ?_)
    (fun {t supplier name} ht => ?_) changes h hc
  · have hsome : (t.byName? name).isSome := by rw [hd]; rfl
    have hhere : t.ipConfig? name = d.ipConfig := by rw [ipConfig?, hd, Option.bind_some]
    have hnone : d.ipConfig = none := by
      rw [← hhere]
      refine (ht.ipConfig name).resolve_right fun hsame => hne ?_
      rw [← hhere, hsame, hname]
    have hip := ipConfig?_replaceIpConfig hsome d.ipConfig c
    have hshell := t.shell_replaceIpConfig name d.ipConfig c
    refine ⟨ht.distinct.of_shell hshell, fun x => ?_, fun x => ?_, fun x hx => ?_,
      fun x ip => ?_⟩
    · rw [source?_of_shell hshell, ht.source]
    · rw [hip]
      split
      · rename_i hx
        exact .inr (by rw [hx, hname])
      · exact ht.ipConfig x
    · rw [hip]
      split
      · rename_i hx
        rw [hx, hname]
      · exact ht.fixed x hx
    · rw [host?_replaceIpConfig, if_neg fun he => by simp [hnone] at he]
      exact ht.host x ip
  · have hf := (mem_derivedFrom ht.distinct).1 hf
    rw [ht.source] at hf
    rw [(hsupplied.agrees name follower hf).config, hname]
  · exact ht.noteDependent supplier name

section

variable (hplans : previous.plans = config.plans) (hvalid : config.validate.hasErrors = false)
  (h : previous.Supplied)

include hplans hvalid h

theorem regains_raw (hd : previous.Distinct) : previous.Regains (previous.raw config) := by
  have hraw := plans_raw hplans
  have hstatic : ∀ name, previous.source? name = some .static →
      (previous.raw config).ipConfig? name = previous.ipConfig? name := by
    intro name hsource
    obtain ⟨d, hd, -⟩ := Option.map_eq_some_iff.1 ((source?_of_plans hraw name).trans hsource)
    rw [h.fixed name hsource, ← fixed?_of_plans hraw, fixed?, ipConfig?, hd]
    exact (supply_raw (mem_of_byName? hd)).1
  refine ⟨?_, source?_of_plans hraw, fun name => ?_, hstatic, host?_raw hplans hd⟩
  · rw [Distinct, names_raw]
    exact Config.nodup_names hvalid
  · by_cases hsource : previous.source? name = some .static
    · exact .inr (hstatic name hsource)
    · rw [← source?_of_plans hraw] at hsource
      exact .inl (ipConfig?_raw hsource)

/-- **Where addresses are put in again no host is forgotten.** -/
theorem regains_addressed (hd : previous.Distinct) :
    previous.Regains (previous.addressed config) := by
  have hraw := regains_raw hplans hvalid h hd
  refine addressed_induction (P := previous.Regains)
    (Q := fun c name => previous.ipConfig? name = c)
    (fun changes ht hc => ht.install h hc changes) (fun {t supplier name} ht hs hf => ?_)
    (fun lease hl => ((mem_keptLeases hraw.distinct).1 hl).2.2) (fun ht => ht.noteDependent _ _)
    hraw
  obtain ⟨d, hmem, rfl⟩ := List.mem_map.1 hs
  obtain ⟨hmem, hip⟩ := List.mem_filter.1 hmem
  have hstatic : previous.source? d.name = some .static := by
    by_contra hno
    rw [← hraw.source] at hno
    have hnone : (previous.raw config).ipConfig? d.name = none := ipConfig?_raw hno
    rw [ipConfig?, hraw.distinct.byName?_of_mem hmem, Option.bind_some] at hnone
    rw [hnone] at hip
    cases hip
  have hf := (mem_derivedFrom ht.distinct).1 hf
  rw [ht.source] at hf
  rw [(h.agrees _ _ hf).config, ← ht.fixed _ hstatic]
  rfl

/-- **All domains have the addresses and the followers that they had.** -/
theorem supply_next : (previous.next config).value.Supplied ∧
    ∀ name, (previous.next config).value.ipConfig? name = previous.ipConfig? name := by
  have hraw := plans_raw hplans
  obtain ⟨rank, hrank⟩ := ranked_of_plans (hraw.trans hplans) hvalid
  obtain ⟨_, hprevious⟩ := ranked_of_plans hplans hvalid
  obtain ⟨hsupplied, hleased⟩ := supplied_next hrank
  have hnext : (previous.next config).value.plans = previous.plans :=
    (previous.plans_next config).1.trans hplans.symm
  refine
    ⟨hsupplied, h.ipConfig?_eq hsupplied hprevious (source?_of_plans hnext) fun name hroot => ?_⟩
  cases hsource : previous.source? name with
  | none =>
    have hnone : ∀ t : DomainTree, t.source? name = none → t.ipConfig? name = none := by
      intro t ht
      rw [ipConfig?, Option.map_eq_none_iff.1 ht, Option.bind_none]
    rw [hnone previous hsource, hnone _ ((source?_of_plans hnext name).trans hsource)]
  | some source =>
    have hsource' := (source?_of_plans hnext name).trans hsource
    cases source with
    | static =>
      rw [hsupplied.fixed name hsource', h.fixed name hsource, fixed?_of_plans hnext]
    | derived s => exact absurd hsource (hroot s)
    | dhcp => rw [hleased name hsource', if_pos hsource]

theorem host?_next (hd : previous.Distinct) (htidy : previous.Tidy) (name : String)
    (ip : Ipv4Addr) : (previous.next config).value.host? name ip = previous.host? name ip := by
  have hregains := regains_addressed hplans hvalid h hd
  have hip : (previous.addressed config).ipConfig? name = previous.ipConfig? name := by
    rw [← (supply_next hplans hvalid h).2 name]
    exact (ipConfig?_of_supply? (previous.supply?_next config name)).symm
  refine (host?_of_unlinked (unlinked_readmitAll ..) name ip).trans ?_
  refine ((previous.addressed config).host?_pruned name ip).trans ?_
  rw [hregains.host, hip]
  cases he : previous.host? name ip with
  | none => rfl
  | some e =>
    obtain ⟨c, hc, hinside⟩ := htidy he
    rw [hc]
    simp [hinside]

/-- **Apart from links and interfaces all domains are as they were.** -/
theorem unattached_next (hd : previous.Distinct) (htidy : previous.Tidy) :
    (previous.next config).value.domains.map Domain.unattached =
      previous.domains.map Domain.unattached := by
  have hnext : (previous.next config).value.plans = previous.plans :=
    (previous.plans_next config).1.trans hplans.symm
  have hnames : (previous.next config).value.names = previous.names := by
    rw [names_of_plans (hnext.trans hplans), names_of_plans hplans]
  obtain ⟨hsupplied, hip⟩ := supply_next hplans hvalid h
  have hsame : List.Forall₂ (· = ·) (previous.domains.map Domain.unattached)
      ((previous.next config).value.domains.map Domain.unattached) := by
    rw [List.forall₂_map_left_iff, List.forall₂_map_right_iff]
    refine hd.forall₂_domains hnames fun {name d d'} hby hby' => Eq.symm ?_
    obtain ⟨hserver, hrx, htx⟩ := server_next hplans hd hby hby'
    refine Domain.unattached_congr ?_ ?_ (SortedMap.ext_get? fun ip => ?_)
      (SortedMap.ext_contains fun f => ?_) hserver hrx htx
    · have hplan := map_byName?_congr (f := Domain.plan) (g := Domain.plan) (k := id)
        Domain.name_plan (fun _ => rfl) hnext name
      rw [hby', hby] at hplan
      exact Option.some.inj hplan
    · have hhere := hip name
      rwa [ipConfig?, hby', ipConfig?, hby, Option.bind_some, Option.bind_some] at hhere
    · have hhere := host?_next hplans hvalid h hd htidy name ip
      rwa [host?, hby', host?, hby, Option.bind_some, Option.bind_some] at hhere
    · have hnotes : (previous.next config).value.Notes name f ↔ previous.Notes name f := by
        rw [hsupplied.notes_iff, h.notes_iff, source?_of_plans hnext, hip]
      rwa [Notes, hby', Notes, hby, Option.map_some, Option.map_some, Option.some.injEq,
        Option.some.injEq] at hnotes
  exact (List.forall₂_eq_eq_eq ▸ hsame : _ = _).symm

end

/-! ## Links -/

theorem names_of_unattached
    (h : tree'.domains.map Domain.unattached = tree.domains.map Domain.unattached) :
    tree'.names = tree.names :=
  map_congr_of_map (f := Domain.unattached) (g := Domain.name) (k := Domain.name) (fun _ => rfl) h

theorem policies_of_unattached
    (h : tree'.domains.map Domain.unattached = tree.domains.map Domain.unattached) :
    tree'.policies = tree.policies :=
  map_congr_of_map (f := Domain.unattached) (g := Domain.policy) (k := fun d => { d with
    arp := ∅, dhcpServer := none, dependents := ∅, rxBytes := 0, txBytes := 0 }) (fun _ => rfl) h

/-- Among the links of a kind fewer are of a narrower kind, if one of them is not. -/
theorem countP_lt_countP {links : List Link} {link : Link} (hm : link ∈ links) {p q : Link → Prop}
    [DecidablePred p] [DecidablePred q] (hpq : ∀ l, p l → q l) (hp : ¬ p link) (hq : q link) :
    links.countP p < links.countP q := by
  have hnarrow : links.countP p = (links.filter q).countP p := by
    rw [List.countP_filter]
    refine List.countP_congr fun l _ => ?_
    simpa using hpq l
  rw [hnarrow, List.countP_eq_length_filter (p := fun l => decide (q l))]
  exact List.countP_lt_length_iff.2
    ⟨link, List.mem_filter.2 ⟨hm, decide_eq_true hq⟩, decide_eq_false hp⟩

/-- **Where nothing changed a link survives**: its share holds it and all others that there are. -/
theorem Sound.survives (h : tree.Sound) (hpolicies : tree'.policies = tree.policies)
    (hsource : ∀ name, tree'.source? name = tree.source? name) {link : Link}
    (hm : link ∈ tree.liveLinks) : tree'.Survives (tree.switched tree') tree.liveLinks link := by
  have hswitched : ∀ name, tree.switched tree' name = false := by
    intro name
    have hsame := hsource name
    rw [source?, source?] at hsame
    rw [switched]
    split
    · rename_i old new hold hnew
      rw [hold, hnew, Option.map_some, Option.map_some, Option.some.injEq] at hsame
      rw [Domain.isStatic, Domain.isStatic, hsame, bne_self_eq_false]
    · rfl
  refine ⟨⟨hswitched _, hswitched _, (h.upholds link hm).of_policies hpolicies⟩, fun hport => ?_⟩
  obtain ⟨d, hd, hreceives⟩ := (h.upholds link hm).server
  obtain ⟨-, -, htr, -⟩ := hreceives
  rw [hport] at htr
  obtain ⟨rule, hrule⟩ := Option.isSome_iff_exists.1 htr.symm
  have hmax : tree.quota link.server.domain link.client.domain link.protocol =
      (rule.quotas.get link.protocol).max := by
    rw [quota, hd, Option.bind_some, hrule, Option.elim_some]
  have hused := (h.accounts hd).used link.protocol _ rule hrule
  have hbounded := (h.accounts hd).bounded link.protocol _ rule hrule
  rw [name_of_byName? hd] at hused
  rw [quota_of_policies hpolicies, hmax]
  refine Nat.lt_of_lt_of_le ?_ (hused ▸ hbounded)
  exact countP_lt_countP hm (fun l hl => hl.1.2) (fun hl => Nat.lt_irrefl _ hl.2)
    ⟨rfl, rfl, rfl, hport⟩

/-- A tree that is as another one, but for the generation, the order in which ports are handed out,
and the interfaces. -/
structure Renews (tree tree' : DomainTree) : Prop where
  sound : tree'.Sound
  generation : tree'.generation = tree.generation + 1
  verbose : tree'.verbose = tree.verbose
  unattached : tree'.domains.map Domain.unattached = tree.domains.map Domain.unattached
  live : ∀ link, link ∈ tree'.liveLinks ↔ link ∈ tree.liveLinks

/-- **The same configuration makes the same domains with the same links.** -/
theorem Sound.renews (h : previous.Sound) (hplans : previous.plans = config.plans)
    (hverbose : previous.verbose = config.verboseDomainState)
    (hvalid : config.validate.hasErrors = false) (hsupplied : previous.Supplied)
    (htidy : previous.Tidy) : previous.Renews (previous.next config).value := by
  obtain ⟨hsound, hlive⟩ := h.next (Config.nodup_names hvalid)
  have hunattached := unattached_next hplans hvalid hsupplied h.distinct htidy
  have hnext := previous.plans_next config
  refine ⟨hsound, ?_, hnext.2.trans hverbose.symm, hunattached, fun link => ?_⟩
  · exact (congrArg DomainTree.generation (previous.shell_next config) :)
  · rw [hlive]
    refine ⟨And.left, fun hm => ⟨hm, h.survives (policies_of_unattached hunattached) ?_ hm⟩⟩
    exact source?_of_plans (hnext.1.trans hplans.symm)

/-! ## Domain by domain -/

namespace Renews

variable (hsound : tree.Sound) (h : tree.Renews tree')

include hsound h

omit hsound in
theorem id?_eq (name : String) : tree'.id? name = (tree.id? name).map DomainId.next := by
  rw [id?, indexOf?_congr name (names_of_unattached h.unattached), h.generation, id?,
    Option.map_map]
  rfl

theorem perm : tree'.liveLinks.Perm tree.liveLinks :=
  (List.perm_ext_iff_of_nodup h.sound.ids.of_map hsound.ids.of_map).2 h.live

theorem ownedLink?_eq (owner : String) (id : Nat) :
    tree'.ownedLink? owner id = tree.ownedLink? owner id := by
  refine Option.ext fun link => ?_
  rw [h.sound.ownedLink?_eq_some, hsound.ownedLink?_eq_some, h.live]

theorem lookup?_eq (seat : Seat) : tree'.lookup? seat = tree.lookup? seat := by
  refine Option.ext fun ref => ?_
  rw [h.sound.index, hsound.index]
  simp only [h.live]

variable {d d' : Domain} (hd : tree.byName? name = some d) (hd' : tree'.byName? name = some d')

include hd hd'

omit hsound in
theorem unattached_eq : d'.unattached = d.unattached := by
  have hmap := map_byName?_congr (f := Domain.unattached) (g := Domain.unattached) (k := id)
    (fun _ => rfl) (fun _ => rfl) h.unattached name
  rw [hd', hd] at hmap
  exact Option.some.inj hmap

theorem links_eq : d'.links = d.links := by
  have howned : d'.links.owned = d.links.owned := SortedMap.ext_get? fun id => by
    have hsame := h.ownedLink?_eq hsound name id
    rwa [ownedLink?, hd', ownedLink?, hd] at hsame
  have hindex : d'.links.index = d.links.index := SortedMap.ext_get? fun key => by
    have hsame := h.lookup?_eq hsound ⟨name, key⟩
    rwa [lookup?, hd', lookup?, hd] at hsame
  exact LinkTable.mk.injEq .. ▸ ⟨howned, hindex⟩

/-- **The shares of all domains are used as they were.** -/
theorem nat_eq : d'.nat = d.nat := by
  have hunused : d'.nat.mapValues (fun _ => Domain.unused) =
      d.nat.mapValues fun _ => Domain.unused :=
    (congrArg Domain.nat (h.unattached_eq hd hd') :)
  refine SortedMap.ext_get? fun client => ?_
  have hrules := congrArg (·.get? client) hunused
  simp only [SortedMap.get?_mapValues] at hrules
  cases hrule : d.nat.get? client with
  | none =>
    rw [hrule, Option.map_none, Option.map_eq_none_iff] at hrules
    exact hrules
  | some rule =>
    rw [hrule, Option.map_some, Option.map_eq_some_iff] at hrules
    obtain ⟨rule', hrule', hsame⟩ := hrules
    rw [hrule', Domain.eq_of_unused hsame fun p => ?_]
    rw [(h.sound.accounts hd').used p client rule' hrule',
      (hsound.accounts hd).used p client rule hrule, name_of_byName? hd', name_of_byName? hd,
      (h.perm hsound).countP_eq]

/-- **Domains with the same interfaces are the same but for the order of free ports.** -/
theorem rotated (hinterfaces : d'.interfaces = d.interfaces) : d.Rotated d' := by
  have hrest := h.unattached_eq hd hd'
  have hlinks := h.links_eq hsound hd hd'
  have hnat := h.nat_eq hsound hd hd'
  refine ⟨?_, fun p port => Bool.eq_iff_iff.2 ?_, fun p => ?_⟩
  · have hparts : ∀ d : Domain, d = { d.unattached with
        nat := d.nat
        pools := d.pools
        links := d.links
        interfaces := d.interfaces } := fun _ => rfl
    rw [hparts d', hrest, hnat, hlinks, hinterfaces]
    rfl
  · rw [(h.sound.accounts hd').taken, (hsound.accounts hd).taken, name_of_byName? hd',
      name_of_byName? hd]
    simp only [h.live]
  · rw [(h.sound.accounts hd').inUse, (hsound.accounts hd).inUse, Domain.usedPorts, hnat]
    rfl

end Renews

end DomainTree

end SegmentRouter
