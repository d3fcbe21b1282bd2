import Mathlib.Algebra.Group.Pi.Basic
import Mathlib.Algebra.Group.Prod
import Mathlib.Algebra.Ring.Nat
import SegmentRouter.Domain.Supply
import SegmentRouter.Link.Opening
import SegmentRouter.Proofs.Domain.Names

/-!
# Proofs/Tree/Counters — counters are written and never read

A domain counts the bytes that pass through it.  Nothing that is done to a tree of domains looks at
the counts, so counting more in some domains comes to the same before it and after it
(`setIpConfig_counted`).
-/

namespace SegmentRouter

namespace Domain

/-- The domain after some bytes more were counted in it, received and sent, by what is to be counted
in the domains of each name. -/
def counted (c : String → Nat × Nat) (d : Domain) : Domain :=
  { d with rxBytes := d.rxBytes + (c d.name).1, txBytes := d.txBytes + (c d.name).2 }

variable (c : String → Nat × Nat) (d : Domain)

@[simp] theorem name_counted : (d.counted c).name = d.name := rfl

theorem ipConfig_counted : (d.counted c).ipConfig = d.ipConfig := rfl

theorem arp_counted : (d.counted c).arp = d.arp := rfl

theorem dhcpServer_counted : (d.counted c).dhcpServer = d.dhcpServer := rfl

theorem routerIp?_counted : (d.counted c).routerIp? = d.routerIp? := rfl

/-- A domain in which nothing is to be counted. -/
theorem counted_eq_self {c : String → Nat × Nat} {d : Domain} (h : c d.name = 0) :
    d.counted c = d := by
  unfold counted
  rw [h]
  rfl

theorem counted_congr {c c' : String → Nat × Nat} {d : Domain} (h : c d.name = c' d.name) :
    d.counted c = d.counted c' := by
  unfold counted
  rw [h]

theorem counted_counted (c' : String → Nat × Nat) :
    (d.counted c).counted c' = d.counted (c + c') := by
  unfold counted
  dsimp only [name, Pi.add_apply, Prod.fst_add, Prod.snd_add]
  rw [Nat.add_assoc, Nat.add_assoc]

theorem freePort_counted (client : String) (p : Wire.Protocol) (port : UInt16) :
    (d.counted c).freePort client p port = (d.freePort client p port).counted c := by
  unfold freePort
  dsimp only [counted]
  split <;> rfl

theorem releaseLink_counted (link : Link) :
    (d.counted c).releaseLink link = (d.releaseLink link).counted c := by
  unfold releaseLink
  split
  · exact freePort_counted c (d.leaveLink (link.key .server) link.id) ..
  · rfl

/-- A source for a link is found in the same way, whatever is counted. -/
theorem linkSource_counted (routerIp : Ipv4Addr) (client : String) (key : FlowKey) :
    (d.counted c).linkSource routerIp client key =
      (d.linkSource routerIp client key).map fun found => (found.1, found.2.counted c) := by
  have halloc : (d.counted c).allocPort client key.protocol =
      (d.allocPort client key.protocol).map fun found => (found.1, found.2.counted c) := by
    unfold allocPort
    dsimp only [counted]
    split
    · rfl
    · split <;> rfl
  unfold linkSource
  rw [halloc]
  split
  · rename_i htranslates
    rw [if_pos (show d.translatesFor client = true from htranslates)]
    cases d.allocPort client key.protocol <;> rfl
  · rename_i htranslates
    rw [if_neg (show ¬ d.translatesFor client = true from htranslates)]
    rfl

end Domain

namespace DomainTree

/-- The tree after some bytes more were counted in its domains. -/
def counted (c : String → Nat × Nat) (tree : DomainTree) : DomainTree :=
  { tree with domains := tree.domains.map (·.counted c) }

variable (c : String → Nat × Nat) (tree : DomainTree) (name : String)

theorem counted_counted (c' : String → Nat × Nat) :
    (tree.counted c).counted c' = tree.counted (c + c') := by
  refine congrArg (fun domains => ({ tree with domains } : DomainTree)) ?_
  dsimp only [counted]
  rw [List.map_map]
  exact List.map_congr_left fun d _ => d.counted_counted c c'

theorem counted_zero : tree.counted 0 = tree := by
  refine congrArg (fun domains => ({ tree with domains } : DomainTree)) ?_
  exact (List.map_congr_left fun d _ => Domain.counted_eq_self rfl).trans (List.map_id' _)

/-- **Counting in the domain with a name** is counting for that name. -/
theorem Distinct.update_eq_counted {tree : DomainTree} (h : tree.Distinct) (name : String)
    (n : Nat × Nat) :
    tree.update name (·.counted fun _ => n) = tree.counted (Pi.single name n) := by
  have hother {d : Domain} (hd : d.name ≠ name) : d.counted (Pi.single name n) = d :=
    Domain.counted_eq_self (by rw [Pi.single_eq_of_ne hd])
  have hrest {ds : List Domain} (hds : ∀ d ∈ ds, d.name ≠ name) :
      ds.map (·.counted (Pi.single name n)) = ds :=
    (List.map_congr_left fun d hd => hother (hds d hd)).trans (List.map_id' _)
  refine congrArg (fun domains => ({ tree with domains } : DomainTree)) ?_
  cases hfound : findByName? name tree.domains with
  | none =>
    rw [changeByName_of_none hfound]
    exact (hrest (findByName?_eq_none_iff.1 hfound)).symm
  | some d =>
    obtain ⟨pre, post, hds, hchange⟩ := changeByName_eq_append hfound
    have hname := name_of_findByName? hfound
    have hnodup : ((pre ++ d :: post).map Domain.name).Nodup := hds ▸ h
    rw [List.map_append, List.map_cons, List.nodup_append, List.nodup_cons] at hnodup
    obtain ⟨-, ⟨hpost, -⟩, hpre⟩ := hnodup
    have hpre' : ∀ e ∈ pre, e.name ≠ name := fun e he hen =>
      hpre _ (List.mem_map_of_mem he) _ List.mem_cons_self (hen.trans hname.symm)
    have hpost' : ∀ e ∈ post, e.name ≠ name := fun e he hen =>
      hpost (hname ▸ hen ▸ List.mem_map_of_mem he)
    have hhere : d.counted (Pi.single name n) = d.counted fun _ => n := by
      refine Domain.counted_congr ?_
      rw [hname, Pi.single_eq_same]
    rw [hchange, hds, List.map_append, List.map_cons, hrest hpre', hrest hpost', hhere]

/-! ## Finding and changing a domain -/

@[simp] theorem byName?_counted :
    (tree.counted c).byName? name = (tree.byName? name).map (·.counted c) :=
  findByName?_map (Domain.name_counted c) name tree.domains

@[simp] theorem get?_counted (id : DomainId) :
    (tree.counted c).get? id = (tree.get? id).map (·.counted c) := by
  have hgood : (tree.counted c).generation = tree.generation := rfl
  unfold get?
  rw [hgood]
  split
  · exact List.getElem?_map ..
  · rfl

/-- What a view of the domains does not see of their counters it does not see in the tree. -/
theorem bind_byName?_counted {β : Type} {g : Domain → Option β}
    (h : ∀ d, g (d.counted c) = g d) :
    ((tree.counted c).byName? name).bind g = (tree.byName? name).bind g := by
  rw [byName?_counted, Option.bind_map]
  exact congrArg (Option.bind _ ·) (funext h)

/-- **A change that does not look at counters comes to the same before and after counting.** -/
theorem update_counted {f g : Domain → Domain}
    (h : ∀ d, tree.byName? name = some d → f (d.counted c) = (g d).counted c) :
    (tree.counted c).update name f = (tree.update name g).counted c :=
  tree.update_map (Domain.name_counted c) h

theorem updateAt_counted (id : DomainId) {f g : Domain → Domain}
    (h : ∀ d, f (d.counted c) = (g d).counted c) :
    (tree.counted c).updateAt id f = (tree.updateAt id g).counted c :=
  tree.updateAt_map id h

/-! ## Links -/

theorem ownedLink?_counted (id : Nat) :
    (tree.counted c).ownedLink? name id = tree.ownedLink? name id :=
  tree.bind_byName?_counted c name fun _ => rfl

theorem hasRoom_counted (link : Link) (side : Side) :
    (tree.counted c).hasRoom link side = tree.hasRoom link side := by
  unfold hasRoom
  rw [byName?_counted]
  cases tree.byName? (link.side side).domain <;> rfl

theorem insertLink?_counted (link : Link) :
    (tree.counted c).insertLink? link = (tree.insertLink? link).map (·.counted c) := by
  unfold insertLink?
  rw [hasRoom_counted, hasRoom_counted]
  split
  · rw [Option.map_some, update_counted c tree _ (g := (·.enterLink (link.key .server)
        (refOf link .server))) fun _ _ => rfl,
      update_counted c _ _ (g := fun d => (d.enterLink (link.key .client)
        (refOf link .client)).ownLink link) fun _ _ => rfl]
  · rfl

theorem dismissLink_counted (id : Nat) :
    ((tree.counted c).dismissLink name id).value.2 =
      (tree.dismissLink name id).value.2.counted c := by
  unfold dismissLink
  rw [ownedLink?_counted]
  cases tree.ownedLink? name id with
  | none => rfl
  | some link =>
    dsimp only [Logged.value_bind, Logged.value_pure]
    rw [update_counted c tree _ (g := (·.disownLink link)) fun _ _ => rfl,
      update_counted c _ _ (g := (·.releaseLink link)) fun d _ => d.releaseLink_counted c link]

theorem dismissAll_counted (victims : List (String × Nat)) (tree : DomainTree) :
    (dismissAll victims (tree.counted c)).value.2 =
      (dismissAll victims tree).value.2.counted c := by
  induction victims generalizing tree with
  | nil => rfl
  | cons victim rest ih =>
    obtain ⟨owner, id⟩ := victim
    dsimp only [dismissAll, Logged.value_bind, Logged.value_pure]
    rw [dismissLink_counted, ih]

theorem dismissLinksOfDomain_counted :
    ((tree.counted c).dismissLinksOfDomain name).value.2 =
      (tree.dismissLinksOfDomain name).value.2.counted c := by
  unfold dismissLinksOfDomain
  rw [byName?_counted]
  cases tree.byName? name with
  | none => rfl
  | some d => exact dismissAll_counted c (linksOf name d) tree

/-! ## Addresses -/

theorem dropState_counted :
    ((tree.counted c).dropState name).value = (tree.dropState name).value.counted c := by
  dsimp only [dropState, Logged.value_bind, Logged.value_pure]
  rw [dismissLinksOfDomain_counted, update_counted c _ _ (g := (·.forgetHosts)) fun _ _ => rfl]

theorem replaceIpConfig_counted (current config : Option IpConfig) :
    ((tree.counted c).replaceIpConfig name current config).value =
      (tree.replaceIpConfig name current config).value.counted c := by
  unfold replaceIpConfig
  split
  · rw [Logged.value_bind, Logged.value_bind, dropState_counted]
    exact update_counted c _ name fun _ _ => rfl
  · exact update_counted c tree name fun _ _ => rfl

theorem noteDependent_counted (supplier : String) :
    (tree.counted c).noteDependent supplier name =
      (tree.noteDependent supplier name).counted c := by
  have hconfigured : (tree.counted c).isConfigured name = tree.isConfigured name :=
    congrArg Option.isSome (tree.bind_byName?_counted c name fun _ => rfl)
  dsimp only [noteDependent]
  rw [hconfigured]
  exact update_counted c tree supplier fun _ _ => rfl

theorem derivedFrom_counted (supplier : String) :
    (tree.counted c).derivedFrom supplier = tree.derivedFrom supplier := by
  dsimp only [derivedFrom, counted]
  rw [List.filter_map, List.map_map]
  rfl

theorem supplyWith_counted {follow : DomainTree → String → Logged DomainTree}
    (h : ∀ tree name, (follow (tree.counted c) name).value = (follow tree name).value.counted c)
    (supplier : String) (followers : List String) (tree : DomainTree) :
    (supplyWith follow supplier followers (tree.counted c)).value =
      (supplyWith follow supplier followers tree).value.counted c := by
  induction followers generalizing tree with
  | nil => rfl
  | cons name rest ih =>
    dsimp only [supplyWith, Logged.value_bind]
    rw [h, noteDependent_counted, ih]

theorem install_counted (config : Option IpConfig) (changes : Nat) (tree : DomainTree)
    (name : String) :
    (install config changes (tree.counted c) name).value =
      (install config changes tree name).value.counted c := by
  induction changes generalizing tree name with
  | zero =>
    unfold install
    rw [byName?_counted]
    cases tree.byName? name with
    | none => rfl
    | some d =>
      dsimp only [Option.map_some]
      rw [Domain.ipConfig_counted]
      by_cases hconfig : d.ipConfig = config
      · rw [if_pos hconfig, if_pos hconfig]
        rfl
      · rw [if_neg hconfig, if_neg hconfig]
        rfl
  | succ changes ih =>
    unfold install
    rw [byName?_counted]
    cases tree.byName? name with
    | none => rfl
    | some d =>
      dsimp only [Option.map_some]
      rw [Domain.ipConfig_counted]
      by_cases hconfig : d.ipConfig = config
      · rw [if_pos hconfig, if_pos hconfig]
        rfl
      · rw [if_neg hconfig, if_neg hconfig, Logged.value_bind, Logged.value_bind]
        rw [replaceIpConfig_counted, derivedFrom_counted]
        exact supplyWith_counted c ih name ..

/-- **Addresses are replaced in the same way, whatever is counted.** -/
theorem setIpConfig_counted (id : DomainId) (config : Option IpConfig) :
    ((tree.counted c).setIpConfig id config).value =
      (tree.setIpConfig id config).value.map (·.counted c) := by
  have hlength : (tree.counted c).domains.length = tree.domains.length := List.length_map ..
  unfold setIpConfig
  rw [get?_counted]
  cases tree.get? id with
  | none => rfl
  | some d =>
    dsimp only [Option.map_some]
    by_cases hstatic : d.isStatic = true
    · have hstatic' : (d.counted c).isStatic = true := hstatic
      rw [if_pos hstatic, if_pos hstatic']
      rfl
    · have hstatic' : ¬ (d.counted c).isStatic = true := hstatic
      rw [if_neg hstatic, if_neg hstatic']
      dsimp only [Logged.value_bind, Logged.value_pure, installIpConfig]
      rw [hlength, install_counted]
      rfl

/-! ## What is asked of other domains -/

theorem dhcpDnsServer?_counted :
    (tree.counted c).dhcpDnsServer? name = tree.dhcpDnsServer? name := by
  unfold dhcpDnsServer?
  rw [byName?_counted]
  cases tree.byName? name with
  | none => rfl
  | some d =>
    refine Option.bind_congr (o := d.dhcpServer) fun server _ => ?_
    cases server.dnsServerFrom with
    | none => rfl
    | some supplier =>
      dsimp only
      rw [byName?_counted]
      cases tree.byName? supplier <;> rfl

theorem answersArp_counted (d : Domain) (ip : Ipv4Addr) :
    (tree.counted c).answersArp d ip = tree.answersArp d ip := by
  have hip (name : String) : (tree.counted c).routerIp? name = tree.routerIp? name :=
    tree.bind_byName?_counted c name fun _ => rfl
  unfold answersArp
  simp only [hip]

end DomainTree

end SegmentRouter
