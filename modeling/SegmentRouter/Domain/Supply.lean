import SegmentRouter.Link.Registry

/-!
# Domain/Supply — addresses that come and go

A dynamic domain's addresses are installed when they are leased and removed when the lease ends. The
domains that have their addresses from it follow, and those that have theirs from them, until no
domain changes any more. On every change the links and the ARP cache of the domain are dropped,
since they belong to the addresses it had.
-/

namespace SegmentRouter

namespace Domain

/-- The domain with other addresses. -/
def withIpConfig (d : Domain) (config : Option IpConfig) : Domain :=
  { d with ipConfig := config }

/-- The domain with or without another one that has its addresses from it. -/
def withDependent (d : Domain) (name : String) (depends : Bool) : Domain :=
  { d with dependents := if depends then d.dependents.insert name () else d.dependents.erase name }

/-- The domain without anything learned of its hosts. -/
def forgetHosts (d : Domain) : Domain :=
  { d with arp := ∅ }

end Domain

namespace DomainTree

/-- Whether the domain with a name has addresses. -/
def isConfigured (tree : DomainTree) (name : String) : Bool :=
  ((tree.byName? name).bind (·.ipConfig)).isSome

/-- The names of the domains that have their addresses from a supplier. -/
def derivedFrom (tree : DomainTree) (supplier : String) : List String :=
  (tree.domains.filter (·.source == .derived supplier)).map (·.name)

/-- Removes what belongs to the addresses that a domain had. -/
def dropState (tree : DomainTree) (name : String) : Logged DomainTree := do
  let (links, tree) ← tree.dismissLinksOfDomain name
  let waiting := ((tree.byName? name).map (·.arp.waiting)).getD 0
  Logged.writeIf (waiting > 0) .warn s!"{name}: dropped {waiting} frames awaiting ARP"
  logDebug s!"{name}: discarded IP config, {links} links dismissed"
  return tree.update name Domain.forgetHosts

/-- An optional address as it is logged. -/
def addressText : Option Ipv4Addr → String
  | some ip => s!"Some({ip})"
  | none => "None"

/-- Logs the addresses that a domain now has. -/
def announce (verbose : Bool) (name : String) : Option IpConfig → Logged Unit
  | some c =>
    if verbose then
      let gateway := addressText c.gateway
      let dns := addressText c.dnsServer
      logInfo s!"{name}: IP config {c.interface} gateway {gateway} dns {dns}"
    else logDebug s!"{name}: IP config {c.interface}"
  | none =>
    if verbose then logInfo s!"{name}: IP config invalid"
    else logDebug s!"{name}: IP config invalid"

/-- Notes for a supplier whether a domain that has its addresses from it has any. -/
def noteDependent (tree : DomainTree) (supplier name : String) : DomainTree :=
  let depends := tree.isConfigured name
  tree.update supplier (·.withDependent name depends)

/-- The tree with a domain's addresses replaced, before the change goes on to others. -/
def replaceIpConfig (tree : DomainTree) (name : String) (current config : Option IpConfig) :
    Logged DomainTree := do
  let tree ← if current.isSome then tree.dropState name else pure tree
  announce tree.verbose name config
  return tree.update name (·.withIpConfig config)

/-- The tree after each domain of a list followed its supplier, in the way that `follow` says. -/
def supplyWith (follow : DomainTree → String → Logged DomainTree) (supplier : String) :
    List String → DomainTree → Logged DomainTree
  | [], tree => return tree
  | name :: rest, tree => do
    let tree ← follow tree name
    supplyWith follow supplier rest (tree.noteDependent supplier name)

/-- The tree with the addresses of a domain, and of all that have theirs from it, replaced. Each
domain changes at most once, so `changes`, the number of changes that may follow each other, is
never used up if it is the number of domains. -/
def install (config : Option IpConfig) : (changes : Nat) → DomainTree → String → Logged DomainTree
  | changes, tree, name =>
    match tree.byName? name with
    | none => return tree
    | some d =>
      if d.ipConfig = config then return tree
      else match changes with
        | 0 => return tree
        | changes + 1 => do
          let tree ← tree.replaceIpConfig name d.ipConfig config
          supplyWith (install config changes) name (tree.derivedFrom name) tree
termination_by structural changes => changes

/-- The tree with a domain's addresses replaced and given on. -/
def installIpConfig (tree : DomainTree) (name : String) (config : Option IpConfig) :
    Logged DomainTree :=
  install config tree.domains.length tree name

/-- Sets the addresses of a domain whose addresses are not configured. -/
def setIpConfig (tree : DomainTree) (id : DomainId) (config : Option IpConfig) :
    Logged (Except Error DomainTree) :=
  match tree.get? id with
  | none => return .error (.unknownDomain id.text)
  | some d =>
    if d.isStatic then return .error (.staticIpConfig d.name)
    else return .ok (← tree.installIpConfig d.name config)

/-- Removes the addresses of a domain whose addresses are not configured. -/
def discardIpConfig (tree : DomainTree) (id : DomainId) : Logged (Except Error DomainTree) :=
  tree.setIpConfig id none

/-- The tree with the addresses of each of a list of suppliers given on. -/
def supplyAll : List String → DomainTree → Logged DomainTree
  | [], tree => return tree
  | supplier :: rest, tree => do
    let config := (tree.byName? supplier).bind (·.ipConfig)
    let follow := install config tree.domains.length
    let tree ← supplyWith follow supplier (tree.derivedFrom supplier) tree
    supplyAll rest tree

/-- The tree of a list of domains. Domains that have their addresses from one with fixed addresses
have them from the start. -/
def ofDomains (generation : Nat) (domains : List Domain) (verbose : Bool) : Logged DomainTree :=
  supplyAll ((domains.filter (·.ipConfig.isSome)).map (·.name)) { generation, domains, verbose }

end DomainTree

end SegmentRouter
