import SegmentRouter.Domain.Basic

/-!
# Domain/Tree — all domains of a configuration

The domains of one generation of the configuration, in the order in which they are configured. A
domain is found by its name (of several with one name the last counts) or by an id, which is good
only for the generation that gave it out.
-/

namespace SegmentRouter

/-- A handle on a domain of one generation. -/
structure DomainId where
  generation : Nat
  index : Nat
deriving DecidableEq, Repr

/-- The id with its parts named, as it stands for a domain that is gone. -/
def DomainId.text (id : DomainId) : String :=
  s!"DomainId \x7b generation: {id.generation}, index: {id.index} \x7d"

/-- The domains of one generation. -/
structure DomainTree where
  generation : Nat
  domains : List Domain
  /-- Whether changes of addresses are logged for the operator. -/
  verbose : Bool
deriving DecidableEq

namespace DomainTree

/-! ## Lists of domains -/

/-- The last domain with a name. -/
def findByName? (name : String) : List Domain → Option Domain
  | [] => none
  | d :: ds =>
    match findByName? name ds with
    | some found => some found
    | none => if d.name = name then some d else none

/-- The place of the last domain with a name. -/
def indexOf? (name : String) : List Domain → Option Nat
  | [] => none
  | d :: ds =>
    match indexOf? name ds with
    | some i => some (i + 1)
    | none => if d.name = name then some 0 else none

/-- The domains with the last one with a name changed. -/
def changeByName (name : String) (f : Domain → Domain) : List Domain → List Domain
  | [] => []
  | d :: ds =>
    match indexOf? name ds with
    | some _ => d :: changeByName name f ds
    | none => if d.name = name then f d :: ds else d :: ds

theorem isSome_indexOf? (name : String) (ds : List Domain) :
    (indexOf? name ds).isSome = (findByName? name ds).isSome := by
  induction ds with
  | nil => rfl
  | cons d ds ih =>
    rw [indexOf?, findByName?]
    cases hi : indexOf? name ds <;> cases hf : findByName? name ds <;> simp_all
    split <;> rfl

theorem name_of_findByName? {name : String} {ds : List Domain} {d : Domain}
    (h : findByName? name ds = some d) : d.name = name := by
  induction ds with
  | nil => simp [findByName?] at h
  | cons e ds ih =>
    rw [findByName?] at h
    split at h
    · rename_i hf
      exact ih (hf.trans h)
    · split at h
      · rename_i he
        exact Option.some.inj h ▸ he
      · simp at h

/-- **Changing a domain by its name changes what that name finds**, and nothing else, provided the
change keeps the name. -/
theorem findByName?_changeByName (name other : String) {f : Domain → Domain}
    (hf : ∀ d, d.name = name → (f d).name = name) (ds : List Domain) :
    findByName? other (changeByName name f ds) =
      if other = name then (findByName? name ds).map f else findByName? other ds := by
  induction ds with
  | nil => simp [changeByName, findByName?]
  | cons d ds ih =>
    rw [changeByName]
    have hs := isSome_indexOf? name ds
    cases hi : indexOf? name ds with
    | some i =>
      rw [hi] at hs
      obtain ⟨e, he⟩ := Option.isSome_iff_exists.1 hs.symm
      simp only [findByName?, ih]
      by_cases ho : other = name
      · subst ho
        simp [he]
      · simp [ho]
    | none =>
      rw [hi] at hs
      have hn : findByName? name ds = none := by
        cases h : findByName? name ds with
        | none => rfl
        | some e => rw [h] at hs; exact Bool.noConfusion hs
      by_cases hd : d.name = name
      · have hfd := hf d hd
        by_cases ho : other = name
        · subst ho
          simp [findByName?, hn, hd, hfd]
        · simp [findByName?, hd, hfd, ho, Ne.symm ho]
      · by_cases ho : other = name
        · subst ho
          simp [findByName?, hn, hd]
        · simp [hd, ho]

/-! ## The tree -/

/-- The domain with a name. -/
def byName? (tree : DomainTree) (name : String) : Option Domain :=
  findByName? name tree.domains

/-- The tree with the domain of a name changed. -/
def update (tree : DomainTree) (name : String) (f : Domain → Domain) : DomainTree :=
  { tree with domains := changeByName name f tree.domains }

theorem byName?_update (tree : DomainTree) (name other : String) {f : Domain → Domain}
    (hf : ∀ d, d.name = name → (f d).name = name) :
    (tree.update name f).byName? other =
      if other = name then (tree.byName? name).map f else tree.byName? other :=
  findByName?_changeByName name other hf tree.domains

/-- A handle on the domain with a name. -/
def id? (tree : DomainTree) (name : String) : Option DomainId :=
  (indexOf? name tree.domains).map fun index => { generation := tree.generation, index }

/-- The domain of a handle that is still good. -/
def get? (tree : DomainTree) (id : DomainId) : Option Domain :=
  if id.generation = tree.generation then tree.domains[id.index]? else none

/-- The tree with the domain of a handle changed. -/
def updateAt (tree : DomainTree) (id : DomainId) (f : Domain → Domain) : DomainTree :=
  if id.generation = tree.generation then
    { tree with domains := tree.domains.modify id.index f }
  else tree

/-- The router's address in the domain with a name. -/
def routerIp? (tree : DomainTree) (name : String) : Option Ipv4Addr :=
  (tree.byName? name).bind (·.routerIp?)

/-- The DNS server that a domain's DHCP server hands out: its own, or the one of another domain's
addresses. -/
def dhcpDnsServer? (tree : DomainTree) (name : String) : Option Ipv4Addr := do
  let server ← (← tree.byName? name).dhcpServer
  match server.dnsServerFrom with
  | some supplier => (← (← tree.byName? supplier).ipConfig).dnsServer
  | none => server.dnsServer

/-- Whether the router answers in a domain that it has an address: its own address there, or its
address in a domain that a rule passes packets for that address to. -/
def answersArp (tree : DomainTree) (d : Domain) (ip : Ipv4Addr) : Bool :=
  d.routerIp? == some ip ||
    d.rules.ip.rules.any fun rule =>
      rule.dst.contains ip && tree.routerIp? rule.domain == some ip

end DomainTree

end SegmentRouter
