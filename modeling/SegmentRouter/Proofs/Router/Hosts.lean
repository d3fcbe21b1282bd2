import SegmentRouter.Proofs.Router.Addresses
import SegmentRouter.Proofs.Router.Members
import SegmentRouter.Proofs.Tree.Hosts

/-!
# Proofs/Router/Hosts — through which interfaces hosts are known

What a domain knows of a host it was told through an interface that is meant for the domain, and
frames that wait came through interfaces of some domain (`Known`): what an interface told goes with
it.  And hosts are known only inside the subnet (`Arises.hosts`).
-/

namespace SegmentRouter

namespace ArpEntry

/-- An entry has nothing to do with an interface. -/
structure Free (e : ArpEntry) (interface : InterfaceId) : Prop where
  via : ArpCache.isVia interface e = false
  waiters : ∀ w ∈ e.waiters, w.src ≠ interface

theorem Free.of_within {e e' : ArpEntry} {interface : InterfaceId} (h : e.Free interface)
    (hw : e'.Within e) : e'.Free interface := by
  refine ⟨Bool.eq_false_iff.2 fun hvia => ?_, fun w hm => h.waiters w (hw.waiters.subset hm)⟩
  have hvia := hw.via interface hvia
  rw [h.via] at hvia
  cases hvia

/-- **Without the frames of an interface an entry has nothing to do with it.** -/
theorem free_dropWaitersFrom (e : ArpEntry) (interface : InterfaceId)
    (hvia : ArpCache.isVia interface e = false) :
    (ArpCache.dropWaitersFrom interface e).Free interface ∧
      (ArpCache.dropWaitersFrom interface e).Within e := by
  cases e with
  | resolved mac via refreshed => exact ⟨⟨hvia, fun _ hw => absurd hw List.not_mem_nil⟩, .refl _⟩
  | pending requested waiters =>
    refine ⟨⟨rfl, fun w hw => ?_⟩, fun _ => id, List.filter_sublist⟩
    exact of_decide_eq_true (List.mem_filter.1 hw).2

/-- An entry that has nothing to do with an interface loses nothing with it. -/
theorem Free.dropWaitersFrom_eq {e : ArpEntry} {interface : InterfaceId} (h : e.Free interface) :
    ArpCache.dropWaitersFrom interface e = e := by
  cases e with
  | resolved mac via refreshed => rfl
  | pending requested waiters =>
    exact congrArg (pending requested)
      (List.filter_eq_self.2 fun w hw => decide_eq_true (h.waiters w hw))

end ArpEntry

namespace Router

variable {r r' : Router} {interface : InterfaceId} {bound : InterfaceId → Prop}

/-- No domain knows anything that has to do with an interface. -/
def Unheard (r : Router) (interface : InterfaceId) : Prop :=
  ∀ ⦃name ip e⦄, r.tree.host? name ip = some e → e.Free interface

theorem Unheard.of_forgets (h : r.Unheard interface) (hf : r.tree.Forgets r'.tree) :
    r'.Unheard interface := by
  intro name ip e' he'
  obtain ⟨e, he, hw⟩ := hf he'
  exact (h he).of_within hw

/-- Hosts are known through interfaces that are meant for the domain, and frames wait that came
through interfaces, of which some are in a domain for sure. -/
structure Knows (r : Router) (bound : InterfaceId → Prop) : Prop where
  via : ∀ {name ip e via}, r.tree.host? name ip = some e → ArpCache.isVia via e = true →
    r.interfaces.policy? via = some name
  waiting : ∀ {name ip e w}, r.tree.host? name ip = some e → w ∈ e.waiters →
    ∃ policy, r.interfaces.policy? w.src = some policy ∧
      (bound w.src → (r.tree.byName? policy).isSome)

/-- Hosts are known, and frames wait, through interfaces that are in a domain. -/
def Known (r : Router) : Prop :=
  r.Knows fun _ => True

/-! ## Releasing an interface -/

theorem host?_release (r : Router) (interface : InterfaceId) (name : String) (ip : Ipv4Addr) :
    (r.release interface).value.tree.host? name ip =
      ((r.tree.host? name ip).filter fun e => !ArpCache.isVia interface e).map
        (ArpCache.dropWaitersFrom interface) := by
  have hmap : ∀ domains : List Domain, (cancelArp interface domains).2 =
      domains.map fun d => d.withArp (d.arp.cancelInterface interface).2 := fun domains => by
    induction domains with
    | nil => rfl
    | cons d rest ih => exact congrArg (d.withArp (d.arp.cancelInterface interface).2 :: ·) ih
  have hcancelled : ∀ t : DomainTree,
      ({ t with domains := (cancelArp interface t.domains).2 } : DomainTree).host? name ip =
        ((t.host? name ip).filter fun e => !ArpCache.isVia interface e).map
          (ArpCache.dropWaitersFrom interface) := by
    intro t
    rw [hmap, DomainTree.host?_map t (g := fun d => d.withArp (d.arp.cancelInterface interface).2)
      fun _ => rfl, DomainTree.host?]
    cases t.byName? name with
    | none => rfl
    | some d =>
      exact (SortedMap.get?_mapValues ..).trans
        (congrArg (Option.map (ArpCache.dropWaitersFrom interface)) (SortedMap.get?_filter ..))
  have hdismissed : (r.tree.dismissLinksOfInterface interface).value.2.host? name ip =
      r.tree.host? name ip :=
    DomainTree.host?_of_unlinked (DomainTree.unlinked_dismissAll ..) name ip
  exact (hcancelled _).trans (congrArg (fun e => (Option.filter _ e).map _) hdismissed)

/-- **An interface that is released takes with it what it told.** -/
theorem forgets_release (r : Router) (interface : InterfaceId) :
    r.tree.Forgets (r.release interface).value.tree ∧
      (r.release interface).value.Unheard interface := by
  have hkept : ∀ {name ip e'}, (r.release interface).value.tree.host? name ip = some e' →
      ∃ e, r.tree.host? name ip = some e ∧ e'.Free interface ∧ e'.Within e := by
    intro name ip e' he'
    rw [host?_release] at he'
    obtain ⟨e, he, rfl⟩ := Option.map_eq_some_iff.1 he'
    obtain ⟨he, hvia⟩ := Option.filter_eq_some_iff.1 he
    exact ⟨e, he, e.free_dropWaitersFrom interface (by simpa using hvia)⟩
  refine ⟨fun name ip e' he' => ?_, fun name ip e' he' => ?_⟩
  · obtain ⟨e, he, -, hw⟩ := hkept he'
    exact ⟨e, he, hw⟩
  · obtain ⟨e, -, hfree, -⟩ := hkept he'
    exact hfree

theorem forgets_bind (r : Router) (interface : InterfaceId) :
    r.tree.Forgets (r.bind interface).value.tree := by
  have hbinding := r.binding_bind interface
  generalize (r.bind interface).value = r' at hbinding ⊢
  cases hbinding with
  | absent hi => exact .of_host? fun _ _ => rfl
  | placed hi hid hd =>
    exact .of_host? (DomainTree.host?_update_eq (f := (·.addInterface interface)) (fun _ => rfl)
      fun _ => rfl)
  | homeless hi hid hd => exact ((r.cleared interface).forgets_release interface).1

theorem forgets_bindAll (interfaces : List InterfaceId) (r : Router) :
    r.tree.Forgets (bindAll interfaces r).value.tree := by
  induction interfaces generalizing r with
  | nil => exact .of_host? fun _ _ => rfl
  | cons interface rest ih => exact (r.forgets_bind interface).trans (ih _)

namespace Knows

theorem forgets (h : r.Knows bound) (hf : r.tree.Forgets r'.tree)
    (hp : ∀ id, r'.interfaces.policy? id = r.interfaces.policy? id)
    (hnames : ∀ name, (r'.tree.byName? name).isSome = (r.tree.byName? name).isSome) :
    r'.Knows bound := by
  refine ⟨fun he' hvia => ?_, fun he' hw => ?_⟩
  · obtain ⟨e, he, hwithin⟩ := hf he'
    rw [hp]
    exact h.via he (hwithin.via _ hvia)
  · obtain ⟨e, he, hwithin⟩ := hf he'
    rw [hp]
    simp only [hnames]
    exact h.waiting he (hwithin.waiters.subset hw)

/-- **An interface that is bound is in a domain, or nothing of it is left.** -/
theorem bind (h : r.Knows bound) (interface : InterfaceId) :
    (r.bind interface).value.Knows fun id => bound id ∨ id = interface := by
  have hkept : (r.bind interface).value.Knows bound :=
    h.forgets (r.forgets_bind interface) (r.policy?_bind interface)
      fun name => DomainTree.isSome_byName?_of_supply? (r.supply?_bind interface name)
  have hbinding := r.binding_bind interface
  generalize (r.bind interface).value = r' at hbinding hkept ⊢
  refine ⟨hkept.via, fun {name ip e w} he hw => ?_⟩
  obtain ⟨policy, hpolicy, hin⟩ := hkept.waiting he hw
  refine ⟨policy, hpolicy, fun hb => hb.elim hin fun hid => ?_⟩
  rw [hid] at hpolicy
  cases hbinding with
  | absent hi =>
    rw [InterfaceTable.policy?, hi] at hpolicy
    cases hpolicy
  | @placed i id d hi hid hd =>
    have hsame : some i.policy = some policy := by
      rw [← hpolicy, ← InterfaceTable.policy?_of_get? hi]
      exact (InterfaceTable.policy?_modify _ interface
        (f := (·.inDomain (some id) (r.clientFor i d))) (fun _ => rfl) interface).symm
    rw [← Option.some.inj hsame]
    refine Eq.trans (DomainTree.isSome_byName?_of_supply? (DomainTree.supply?_update
      (f := (·.addInterface interface)) (fun _ => rfl) (fun _ => rfl) i.policy)) ?_
    rw [hd]
    rfl
  | homeless hi hid' hd =>
    exact absurd hid ((((r.cleared interface).forgets_release interface).2 he).waiters w hw)

theorem bindAll (h : r.Knows bound) (interfaces : List InterfaceId) :
    (bindAll interfaces r).value.Knows fun id => bound id ∨ id ∈ interfaces := by
  induction interfaces generalizing r bound with
  | nil =>
    refine ⟨h.via, fun he hw => ?_⟩
    obtain ⟨policy, hpolicy, hin⟩ := h.waiting he hw
    exact ⟨policy, hpolicy, fun hb => hin (hb.resolve_right List.not_mem_nil)⟩
  | cons interface rest ih =>
    have hrest := ih (h.bind interface)
    refine ⟨hrest.via, fun he hw => ?_⟩
    obtain ⟨policy, hpolicy, hin⟩ := hrest.waiting he hw
    refine ⟨policy, hpolicy, fun hb => hin ?_⟩
    rwa [List.mem_cons, ← or_assoc] at hb

end Knows

theorem host?_of_still {tree tree' : DomainTree} (h : tree'.still = tree.still) (name : String)
    (ip : Ipv4Addr) : tree'.host? name ip = tree.host? name ip := by
  rw [DomainTree.host?_eq, DomainTree.host?_eq, DomainTree.map_byName?_congr (f := Domain.still)
    (g := (·.arp)) (k := (·.arp)) Domain.name_still (fun _ => rfl) (congrArg DomainTree.domains h)]

/-- What a domain learns of an address shows there only. -/
theorem host?_learned {tree : DomainTree} {name : String} {d : Domain}
    (hd : tree.byName? name = some d) (ip : Ipv4Addr) (entry : ArpEntry) (other : String)
    (ip' : Ipv4Addr) : (tree.update name (·.withArp (d.arp.insert ip entry))).host? other ip' =
      if other = name ∧ ip' = ip then some entry else tree.host? other ip' := by
  rw [DomainTree.host?_update (f := (·.withArp (d.arp.insert ip entry))) fun _ => rfl]
  by_cases ho : other = name
  · rw [if_pos ho, hd, Option.bind_some, ho, DomainTree.host?, hd, Option.bind_some]
    exact (SortedMap.get?_insert ..).trans (by simp)
  · rw [if_neg ho, if_neg fun he => ho he.1]

/-- **What is learned is inside the subnet.** -/
theorem Learns.contains {d : Domain} {config : IpConfig} {ip : Ipv4Addr} {entry : ArpEntry}
    (h : r.Learns d config ip entry) (hconfig : d.ipConfig = some config) (hgated : config.Gated) :
    config.interface.contains ip = true := by
  cases h with
  | resolved hinterface hip mac now => exact hip
  | pending hroute =>
    rw [Domain.route, hconfig] at hroute
    dsimp only at hroute
    split at hroute
    · cases hroute
    · split at hroute
      · cases hroute
      · rename_i hop hnext
        have hhop : hop = ip := by
          split at hroute
          · cases hroute
          · exact Route.unresolved.inj hroute
        subst hhop
        rw [Domain.nextHop, hconfig] at hnext
        dsimp only at hnext
        split at hnext
        · rename_i hinside
          rwa [← Except.ok.inj hnext]
        · split at hnext
          · rename_i gateway hgateway
            exact hgated _ (Except.ok.inj hnext ▸ hgateway)
          · cases hnext

/-- An interface that is in a domain is meant for it. -/
theorem Good.policy?_of_domainOf? (h : r.Good) {id : InterfaceId} {d : Domain}
    (hd : r.domainOf? id = some d) :
    r.tree.byName? d.name = some d ∧ r.interfaces.policy? id = some d.name := by
  obtain ⟨domain, hdomain, hget⟩ := Option.bind_eq_some_iff.1 hd
  obtain ⟨hby, hplace⟩ := h.byName?_of_domainId? hdomain hget
  obtain ⟨i, hi, hpolicy, -⟩ := InterfaceTable.place?_eq_some.1 hplace
  exact ⟨hby, (InterfaceTable.policy?_of_get? hi).trans (congrArg some hpolicy)⟩

namespace Known

variable (h : r.Known)

include h

/-- **What is learned, and who waits for it, has to do with interfaces that are in a domain.** -/
theorem learned (hgood : r.Good) {name : String} {d : Domain} {config : IpConfig} {ip : Ipv4Addr}
    {entry : ArpEntry} (hd : r.tree.byName? name = some d) (hentry : r.Learns d config ip entry) :
    (r.withTree (r.tree.update name (·.withArp (d.arp.insert ip entry)))).Known := by
  have hnames : ∀ policy, (r.tree.byName? policy).isSome → ((r.tree.update name
      (·.withArp (d.arp.insert ip entry))).byName? policy).isSome := fun policy hsome =>
    (DomainTree.isSome_byName?_of_supply? (DomainTree.supply?_update
      (f := (·.withArp (d.arp.insert ip entry))) (fun _ => rfl) (fun _ => rfl) policy)).trans hsome
  refine ⟨fun {other ip' e via} he hvia => ?_, fun {other ip' e w} he hw => ?_⟩
  · rw [tree_withTree, host?_learned hd] at he
    split at he
    · rename_i hsame
      obtain rfl := Option.some.inj he
      cases hentry with
      | resolved hinterface hip mac now =>
        obtain rfl := eq_of_beq hvia
        rw [hsame.1, ← DomainTree.name_of_byName? hd]
        exact (hgood.policy?_of_domainOf? hinterface).2
      | pending => cases hvia
    · exact h.via he hvia
  · rw [tree_withTree, host?_learned hd] at he
    have hold : ∀ {other ip' e}, r.tree.host? other ip' = some e → w ∈ e.waiters →
        ∃ policy, r.interfaces.policy? w.src = some policy ∧ (True → ((r.tree.update name
          (·.withArp (d.arp.insert ip entry))).byName? policy).isSome) := by
      intro other ip' e he hw
      obtain ⟨policy, hpolicy, hin⟩ := h.waiting he hw
      exact ⟨policy, hpolicy, fun _ => hnames policy (hin trivial)⟩
    split at he
    · obtain rfl := Option.some.inj he
      rcases hentry.arrives_or_waits hw with ⟨id, d', f, p, ha⟩ | ⟨e, he, hw⟩
      · obtain ⟨hby, hpolicy⟩ := hgood.policy?_of_domainOf? ha.domainOf?_eq
        exact ⟨d'.name, hpolicy, fun _ => hnames _ (by rw [hby]; rfl)⟩
      · have hwaits : r.tree.host? name ip = some e := by
          rw [DomainTree.host?, hd]
          exact he
        exact hold hwaits hw
    · exact hold he hw

theorem attach (domain : String) : (r.attach domain).value.2.Known := by
  have hpolicy : ∀ {id policy}, r.interfaces.policy? id = some policy →
      (r.withNewInterface domain).interfaces.policy? id = some policy := by
    intro id policy hp
    rw [InterfaceTable.policy?, get?_withNewInterface, if_neg]
    · exact hp
    · rintro rfl
      rw [InterfaceTable.policy?, get?_nextInterface] at hp
      cases hp
  have hnew : (r.withNewInterface domain).Knows (· ≠ r.nextInterface domain) := by
    refine ⟨fun he hvia => hpolicy (h.via he hvia), fun he hw => ?_⟩
    obtain ⟨policy, hp, hin⟩ := h.waiting he hw
    exact ⟨policy, hpolicy hp, fun _ => hin trivial⟩
  have hbound := hnew.bind (r.nextInterface domain)
  refine ⟨hbound.via, fun he hw => ?_⟩
  obtain ⟨policy, hp, hin⟩ := hbound.waiting he hw
  exact ⟨policy, hp, fun _ => hin (ne_or_eq ..)⟩

/-- Nothing has to do with an interface that is in no domain. -/
theorem unheard (hnone : ∀ policy, r.interfaces.policy? interface = some policy →
    r.tree.byName? policy = none) : r.Unheard interface := by
  intro name ip e he
  refine ⟨Bool.eq_false_iff.2 fun hvia => ?_, ?_⟩
  · rw [DomainTree.host?, hnone name (h.via he hvia)] at he
    cases he
  · rintro w hw rfl
    obtain ⟨policy, hpolicy, hin⟩ := h.waiting he hw
    have hsome := hin trivial
    rw [hnone policy hpolicy] at hsome
    cases hsome

/-- **Nothing that has to do with an interface is left when it is taken out of its domain.** -/
theorem unbind (hgood : r.Good) (htidy : r.tree.Tidy) (interface : InterfaceId) :
    r.tree.Forgets (r.unbind interface).value.tree ∧ (r.unbind interface).value.Unheard interface ∧
      (r.unbind interface).value.tree.Tidy := by
  have hunbinding := r.unbinding_unbind interface
  generalize (r.unbind interface).value = r' at hunbinding ⊢
  have hleft {id : DomainId} (hid : r.domainId? interface = some id) :
      r.tree.Forgets (r.left interface id).tree ∧ (r.left interface id).Unheard interface ∧
        (r.left interface id).tree.Tidy := by
    obtain ⟨i, hi, -⟩ := Option.bind_eq_some_iff.1 hid
    rw [hgood.domainId?_eq hi] at hid
    obtain ⟨hforgets, hunheard⟩ := (r.cleared interface).forgets_release interface
    have hremoved : ((r.cleared interface).release interface).value.tree.Forgets
        (r.left interface id).tree := by
      rw [tree_left hid]
      exact .of_host? (DomainTree.host?_update_eq (f := (·.removeInterface interface))
        (fun _ => rfl) fun _ => rfl)
    have hall : r.tree.Forgets (r.left interface id).tree := hforgets.trans hremoved
    exact ⟨hall, hunheard.of_forgets hremoved, htidy.of_forgets hall fun name =>
      DomainTree.ipConfig?_of_supply? (supply?_left hid name)⟩
  cases hunbinding with
  | outside hid =>
    refine ⟨.of_host? fun _ _ => rfl, h.unheard fun policy hpolicy => ?_, htidy⟩
    obtain ⟨i, hi, rfl⟩ := Option.map_eq_some_iff.1 hpolicy
    rw [hgood.domainId?_eq hi] at hid
    have hsome := r.tree.isSome_id? i.policy
    rw [hid] at hsome
    exact Option.not_isSome_iff_eq_none.1 (by rw [← hsome]; nofun)
  | inside hid => exact hleft hid
  | orphaned hid hd hdhcp hset =>
    obtain ⟨hforgets, hunheard, htidy⟩ := hleft hid
    obtain ⟨hset, htidy⟩ := DomainTree.hosts_setIpConfig htidy hset
    exact ⟨hforgets.trans hset, hunheard.of_forgets hset, htidy⟩

theorem detach (hgood : r.Good) (htidy : r.tree.Tidy)
    (hr : (r.detach interface).value = .ok r') : r'.Known := by
  obtain ⟨hforgets, hunheard, -⟩ := h.unbind hgood htidy interface
  have hnames : ∀ policy, ((r.unbind interface).value.tree.byName? policy).isSome =
      (r.tree.byName? policy).isSome := fun policy => by
    have hun := (hgood.unbinds_unbind interface).tree
    rw [← DomainTree.isSome_id?, DomainTree.id?_congr hun.generation hun.names,
      DomainTree.isSome_id?]
  obtain ⟨interfaces, rfl, hget⟩ := detach_eq_ok hr
  have hpolicy : ∀ {id policy}, id ≠ interface → r.interfaces.policy? id = some policy →
      interfaces.policy? id = some policy := fun {id policy} hne hp => by
    rwa [InterfaceTable.policy?, hget, if_neg hne]
  refine ⟨fun {name ip e' via} he' hvia => ?_, fun {name ip e' w} he' hw => ?_⟩
  · obtain ⟨e, he, hwithin⟩ := hforgets he'
    refine hpolicy ?_ (h.via he (hwithin.via _ hvia))
    rintro rfl
    rw [(hunheard he').via] at hvia
    cases hvia
  · obtain ⟨e, he, hwithin⟩ := hforgets he'
    obtain ⟨policy, hp, hin⟩ := h.waiting he (hwithin.waiters.subset hw)
    exact ⟨policy, hpolicy ((hunheard he').waiters w hw) hp,
      fun _ => (hnames policy).trans (hin trivial)⟩

/-- **A new configuration leaves nothing that has to do with interfaces in no domain.** -/
theorem adopt (config : Config) : (r.adopt config).value.Known := by
  have hnew : (r.renewed config).Knows fun _ => False := by
    obtain ⟨hforgets, -⟩ := r.tree.hosts_next config
    refine ⟨fun he' hvia => ?_, fun he' hw => ?_⟩
    · obtain ⟨e, he, hwithin⟩ := hforgets he'
      exact h.via he (hwithin.via _ hvia)
    · obtain ⟨e, he, hwithin⟩ := hforgets he'
      obtain ⟨policy, hp, -⟩ := h.waiting he (hwithin.waiters.subset hw)
      exact ⟨policy, hp, False.elim⟩
  have hadopted : (r.adopt config).value.Knows fun id => False ∨ id ∈ r.interfaces.ids :=
    hnew.bindAll r.interfaces.ids
  refine ⟨hadopted.via, fun {name ip e w} he hw => ?_⟩
  obtain ⟨policy, hp, hin⟩ := hadopted.waiting he hw
  refine ⟨policy, hp, fun _ => hin (.inr (InterfaceTable.mem_ids_of_policy? ?_))⟩
  rw [← r.policy?_adopt config, hp]
  rfl

end Known

/-! ## Hosts at any time -/

theorem forgets_ageArp (r : Router) (now : Nat) : r.tree.Forgets (r.ageArp now).value.tree := by
  intro name ip e he
  have hmap : ∀ requestTimeout entryLifetime domains,
      (expireArp now requestTimeout entryLifetime domains).value =
        domains.map fun d => d.withArp (d.arp.expire now requestTimeout entryLifetime).2 := by
    intro requestTimeout entryLifetime domains
    induction domains with
    | nil => rfl
    | cons d rest ih => exact congrArg (_ :: ·) ih
  have hexpired : (r.ageArp now).value.tree.host? name ip = (r.tree.byName? name).bind fun d =>
      (d.arp.expire now (Config.seconds r.config.timeouts.arpRequestSec)
        (Config.seconds r.config.timeouts.arpEntrySec)).2.get? ip := by
    refine Eq.trans ?_ (r.tree.host?_map (g := fun d => d.withArp (d.arp.expire now
      (Config.seconds r.config.timeouts.arpRequestSec)
        (Config.seconds r.config.timeouts.arpEntrySec)).2) (fun _ => rfl) name ip)
    rw [← hmap]
    rfl
  rw [hexpired] at he
  obtain ⟨d, hd, hget⟩ := Option.bind_eq_some_iff.1 he
  have hkept := (SortedMap.get?_filter ..).symm.trans hget
  refine ⟨e, ?_, .refl e⟩
  rw [DomainTree.host?, hd]
  exact (Option.filter_eq_some_iff.1 hkept).1

/-- What is learned lies inside the subnet. -/
theorem tidy_learned (h : r.tree.Tidy) (hr : r.Arises) {name : String} {d : Domain}
    {config : IpConfig} {ip : Ipv4Addr} {entry : ArpEntry} (hd : r.tree.byName? name = some d)
    (hconfig : d.ipConfig = some config) (hentry : r.Learns d config ip entry) :
    (r.tree.update name (·.withArp (d.arp.insert ip entry))).Tidy := by
  intro other ip' e he
  have hsame : (r.tree.update name (·.withArp (d.arp.insert ip entry))).ipConfig? other =
      r.tree.ipConfig? other :=
    DomainTree.ipConfig?_of_supply? (DomainTree.supply?_update
      (f := (·.withArp (d.arp.insert ip entry))) (fun _ => rfl) (fun _ => rfl) other)
  rw [host?_learned hd] at he
  rw [hsame]
  split at he
  · rename_i hhere
    have hip : r.tree.ipConfig? name = some config := by
      rw [DomainTree.ipConfig?, hd]
      exact hconfig
    exact ⟨config, hhere.1 ▸ hip, hhere.2 ▸ hentry.contains hconfig (hr.gated hip)⟩
  · exact h he

/-- **In every state hosts are known inside the subnets only, and through interfaces of their
domains.** -/
theorem Arises.hosts (h : r.Arises) : r.tree.Tidy ∧ r.Known := by
  have hempty : ∀ xid, ({ nextXid := xid } : Router).tree.Tidy ∧
      ({ nextXid := xid } : Router).Known := by
    refine fun xid =>
      ⟨fun name ip e he => ?_, fun {name ip e via} he => ?_, fun {name ip e w} he => ?_⟩
    · cases he
    · cases he
    · cases he
  refine h.course_induction (P := fun r => r.tree.Tidy ∧ r.Known) hempty
    fun {r r'} hr ⟨htidy, hknown⟩ hcourse => ?_
  -- most changes forget at most, and leave the addresses
  have hforgotten {after : Router} (hf : r.tree.Forgets after.tree)
      (hp : ∀ id, after.interfaces.policy? id = r.interfaces.policy? id)
      (hs : ∀ name, after.tree.supply? name = r.tree.supply? name) :
      after.tree.Tidy ∧ after.Known :=
    ⟨htidy.of_forgets hf fun name => DomainTree.ipConfig?_of_supply? (hs name),
      hknown.forgets hf hp fun name => DomainTree.isSome_byName?_of_supply? (hs name)⟩
  cases hcourse with
  | calm hcalm =>
    exact hforgotten (.of_host? (host?_of_still hcalm.tree)) hcalm.policy?_eq
      (DomainTree.supply?_of_still hcalm.tree)
  | @learned name d config ip entry hd hconfig hentry =>
    exact ⟨tidy_learned htidy hr hd hconfig hentry, hknown.learned hr.good hd hentry⟩
  | agedArp now => exact hforgotten (r.forgets_ageArp now) (fun _ => rfl) (r.supply?_ageArp now)
  | @instructed interface i client after action hi hclient hacts =>
    have hpolicy := r.policy?_instructed interface after action
    have hshell := (shell_carryOut (r.withClient interface after) interface action).1
    rcases (r.withClient interface after).carryOut_cases interface action with
      hkept | ⟨id, c, tree, -, -, hset, hvalue⟩
    · rw [hkept] at hpolicy ⊢
      exact hforgotten (.of_host? fun _ _ => rfl) hpolicy fun _ => rfl
    · rw [hvalue] at hpolicy hshell ⊢
      obtain ⟨hforgets, htidy'⟩ := DomainTree.hosts_setIpConfig htidy hset
      exact ⟨htidy', hknown.forgets hforgets hpolicy (DomainTree.isSome_byName?_of_shell hshell)⟩
  | attached domain =>
    refine ⟨?_, hknown.attach domain⟩
    exact htidy.of_forgets ((r.withNewInterface domain).forgets_bind (r.nextInterface domain))
      fun name => DomainTree.ipConfig?_of_supply? ((r.withNewInterface domain).supply?_bind _ name)
  | @detached r' interface hr' =>
    refine ⟨?_, hknown.detach hr.good htidy hr'⟩
    obtain ⟨-, -, htidy'⟩ := hknown.unbind hr.good htidy interface
    obtain ⟨interfaces, rfl, -⟩ := detach_eq_ok hr'
    exact htidy'
  | @adopted config hvalid =>
    refine ⟨?_, hknown.adopt config⟩
    exact (r.tree.hosts_next config).2.of_forgets (forgets_bindAll _ (r.renewed config))
      fun name => DomainTree.ipConfig?_of_supply? (supply?_bindAll _ (r.renewed config) name)

end Router

end SegmentRouter
