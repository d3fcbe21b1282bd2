import SegmentRouter.Proofs.Domain.Bounds
import SegmentRouter.Proofs.Tree.Supply

/-!
# Proofs/Tree/Bounds — addresses come and go without counting below zero

With the addresses of a domain its links go, each of which gives its port back.  A sound tree counts
the ports that its links hold, and it stays sound after every link that goes, so each of them finds
its port counted (`Sound.counts`).
-/

namespace SegmentRouter

namespace DomainTree

variable {tree : DomainTree} {name : String} {d : Domain}

/-- `update` with a change in guarded steps. -/
def updateGuarded (tree : DomainTree) (name : String) (f : Domain → Option Domain) :
    Option DomainTree :=
  match tree.byName? name with
  | none => some tree
  | some d => do
    let changed ← f d
    return tree.update name fun _ => changed

theorem updateGuarded_eq {f : Domain → Option Domain} {g : Domain → Domain}
    (h : ∀ d, tree.byName? name = some d → f d = some (g d)) :
    tree.updateGuarded name f = some (tree.update name g) := by
  unfold updateGuarded
  cases hd : tree.byName? name with
  | none => rw [update_of_none hd]
  | some d =>
    obtain ⟨pre, post, -, hchange⟩ := changeByName_eq_append hd
    dsimp only
    rw [h d hd, Option.bind_eq_bind, Option.bind_some, update, update, hchange, hchange]
    rfl

/-! ## Links that end -/

/-- `dismissLink` in guarded steps. -/
def dismissLinkGuarded (tree : DomainTree) (owner : String) (id : Nat) :
    Option (Option Link × DomainTree) :=
  match tree.ownedLink? owner id with
  | none => return (none, tree)
  | some link => do
    let disowned := tree.update owner (·.disownLink link)
    return (some link, ← disowned.updateGuarded link.server.domain (·.releaseLinkGuarded link))

/-- `dismissAll` in guarded steps. -/
def dismissAllGuarded : (victims : List (String × Nat)) → DomainTree → Option (Nat × DomainTree)
  | [], tree => return (0, tree)
  | (owner, id) :: rest, tree => do
    let (link, tree) ← tree.dismissLinkGuarded owner id
    let (count, tree) ← dismissAllGuarded rest tree
    return (count + link.toList.length, tree)

/-- `dismissLinksOfDomain` in guarded steps. -/
def dismissLinksOfDomainGuarded (tree : DomainTree) (name : String) : Option (Nat × DomainTree) :=
  match tree.byName? name with
  | some d => dismissAllGuarded (linksOf name d) tree
  | none => return (0, tree)

/-! ## Addresses that change -/

/-- `dropState` in guarded steps. -/
def dropStateGuarded (tree : DomainTree) (name : String) : Option DomainTree := do
  let (_, tree) ← tree.dismissLinksOfDomainGuarded name
  return tree.update name Domain.forgetHosts

/-- `replaceIpConfig` in guarded steps. -/
def replaceIpConfigGuarded (tree : DomainTree) (name : String) (current config : Option IpConfig) :
    Option DomainTree := do
  let tree ← if current.isSome then tree.dropStateGuarded name else pure tree
  return tree.update name (·.withIpConfig config)

/-- `supplyWith` in guarded steps. -/
def supplyWithGuarded (follow : DomainTree → String → Option DomainTree) (supplier : String) :
    List String → DomainTree → Option DomainTree
  | [], tree => return tree
  | name :: rest, tree => do
    let tree ← follow tree name
    supplyWithGuarded follow supplier rest (tree.noteDependent supplier name)

/-- `install` in guarded steps. -/
def installGuarded (config : Option IpConfig) :
    (changes : Nat) → DomainTree → String → Option DomainTree
  | changes, tree, name =>
    match tree.byName? name with
    | none => return tree
    | some d =>
      if d.ipConfig = config then return tree
      else match changes with
        | 0 => return tree
        | changes + 1 => do
          let tree ← tree.replaceIpConfigGuarded name d.ipConfig config
          supplyWithGuarded (installGuarded config changes) name (tree.derivedFrom name) tree
termination_by structural changes => changes

/-- `setIpConfig` in guarded steps. -/
def setIpConfigGuarded (tree : DomainTree) (id : DomainId) (config : Option IpConfig) :
    Option (Except Error DomainTree) :=
  match tree.get? id with
  | none => return .error (.unknownDomain id.text)
  | some d =>
    if d.isStatic then return .error (.staticIpConfig d.name)
    else do return .ok (← installGuarded config tree.domains.length tree d.name)

/-! ## Sound trees -/

theorem supplyWithGuarded_eq {followGuarded : DomainTree → String → Option DomainTree}
    {follow : DomainTree → String → Logged DomainTree}
    (hguarded : ∀ {t name}, t.Sound → followGuarded t name = some (follow t name).value)
    (hsound : ∀ {t name}, t.Sound → (follow t name).value.Sound) (supplier : String)
    (followers : List String) (h : tree.Sound) :
    supplyWithGuarded followGuarded supplier followers tree =
      some (supplyWith follow supplier followers tree).value := by
  induction followers generalizing tree with
  | nil => rfl
  | cons name rest ih =>
    have hfollowed : (follow tree name).value.Sound := hsound h
    have hnoted := (hfollowed.sheds_noteDependent supplier name).sound
    rw [supplyWithGuarded, hguarded h, Option.bind_eq_bind, Option.bind_some, ih hnoted]
    rfl

namespace Sound

variable (h : tree.Sound)

include h

/-- **A domain counts the ports that links hold in it.** -/
theorem counts (hd : tree.byName? name = some d) : d.Counts := by
  intro p port htaken
  have haccounts := h.accounts hd
  obtain ⟨link, hm, hserver, rfl, hport⟩ := (haccounts.taken p port).1 htaken
  obtain ⟨s, hs, routerIp, -, htr, -⟩ := (h.upholds link hm).server
  obtain rfl : s = d := by
    rw [hserver, name_of_byName? hd, hd] at hs
    exact (Option.some.inj hs).symm
  rw [hport] at htr
  obtain ⟨rule, hrule⟩ := Option.isSome_iff_exists.1 htr.symm
  have hshare : link.InShare s.name link.protocol link.client.domain :=
    ⟨hserver, rfl, rfl, by rw [hport]; rfl⟩
  have hcount : 0 < tree.liveLinks.countP (·.InShare s.name link.protocol link.client.domain) :=
    List.countP_pos_iff.2 ⟨link, hm, by simpa using hshare⟩
  have hsum := Domain.used_le_usedPorts hrule link.protocol
  rw [haccounts.used _ _ _ hrule] at hsum
  rw [haccounts.inUse]
  omega

theorem dismissLinkGuarded_eq (owner : String) (id : Nat) :
    tree.dismissLinkGuarded owner id = some (tree.dismissLink owner id).value := by
  unfold dismissLinkGuarded dismissLink
  cases tree.ownedLink? owner id with
  | none => rfl
  | some link =>
    have hreleased : ∀ d,
        (tree.update owner (·.disownLink link)).byName? link.server.domain = some d →
          d.releaseLinkGuarded link = some (d.releaseLink link) := fun d hd => by
      obtain ⟨d', hd', hbare⟩ :=
        exists_byName?_of_update (f := (·.disownLink link)) (fun _ => rfl) hd
      have hcounts : d.Counts := (h.counts hd').congr (congrArg Domain.pools hbare :)
      exact Domain.releaseLinkGuarded_eq hcounts link
    dsimp only
    rw [updateGuarded_eq hreleased]
    rfl

theorem dismissAllGuarded_eq (victims : List (String × Nat)) :
    dismissAllGuarded victims tree = some (dismissAll victims tree).value := by
  induction victims generalizing tree with
  | nil => rfl
  | cons victim rest ih =>
    have hfirst := (h.dismisses_dismissLink victim.1 victim.2).sound
    rw [dismissAllGuarded, h.dismissLinkGuarded_eq, Option.bind_eq_bind, Option.bind_some]
    dsimp only
    rw [ih hfirst]
    rfl

theorem dismissLinksOfDomainGuarded_eq (name : String) :
    tree.dismissLinksOfDomainGuarded name = some (tree.dismissLinksOfDomain name).value := by
  unfold dismissLinksOfDomainGuarded dismissLinksOfDomain
  cases tree.byName? name with
  | none => rfl
  | some d => exact h.dismissAllGuarded_eq _

theorem dropStateGuarded_eq (name : String) :
    tree.dropStateGuarded name = some (tree.dropState name).value := by
  unfold dropStateGuarded
  rw [h.dismissLinksOfDomainGuarded_eq]
  rfl

theorem replaceIpConfigGuarded_eq (name : String) (current config : Option IpConfig) :
    tree.replaceIpConfigGuarded name current config =
      some (tree.replaceIpConfig name current config).value := by
  unfold replaceIpConfigGuarded replaceIpConfig
  split
  · rw [h.dropStateGuarded_eq]
    rfl
  · rfl

/-- **Addresses are replaced and given on in guarded steps.** -/
theorem installGuarded_eq (config : Option IpConfig) (changes : Nat) (name : String) :
    installGuarded config changes tree name = some (install config changes tree name).value := by
  induction changes generalizing tree name with
  | zero =>
    unfold installGuarded install
    cases tree.byName? name with
    | none => rfl
    | some d =>
      dsimp only
      split <;> rfl
  | succ changes ih =>
    unfold installGuarded install
    cases hd : tree.byName? name with
    | none => rfl
    | some d =>
      dsimp only
      split
      · rfl
      · have hreplaced := (h.sheds_replaceIpConfig hd config).sound
        rw [h.replaceIpConfigGuarded_eq, Option.bind_eq_bind, Option.bind_some]
        exact supplyWithGuarded_eq (fun ht => ih ht _)
          (fun ht => (ht.sheds_install config changes _).sound) name _ hreplaced

theorem setIpConfigGuarded_eq (id : DomainId) (config : Option IpConfig) :
    tree.setIpConfigGuarded id config = some (tree.setIpConfig id config).value := by
  unfold setIpConfigGuarded setIpConfig
  cases tree.get? id with
  | none => rfl
  | some d =>
    dsimp only
    split
    · rfl
    · rw [h.installGuarded_eq]
      rfl

end Sound

end DomainTree

end SegmentRouter
