import SegmentRouter.Domain.Supply

/-!
# Domain/Reload — the domains of the next configuration

A new configuration makes new domains, which take over what is still right: what was learned of
hosts inside the subnet, the leases of a pool that stays, leased addresses, byte counters, and the
links to which the new rules lead in the same way. A domain that becomes static or dynamic loses its
hosts and its links.
-/

namespace SegmentRouter

/-- Why a link does not survive a new configuration. -/
inductive Dismissal where
  | kindChanged
  | clientRemoved
  | notPermitted
  | otherDestination
  | serverRemoved
  | serverUnconfigured
  | addressChanged
  | portUnavailable
  | translationChanged
  | sideTaken
deriving DecidableEq, Repr

/-- The words that name a reason. -/
def Dismissal.message : Dismissal → String
  | kindChanged => "domain switched between static and dynamic"
  | clientRemoved => "client domain removed"
  | notPermitted => "no rule permits it"
  | otherDestination => "rules select another destination"
  | serverRemoved => "server domain removed"
  | serverUnconfigured => "server domain unconfigured"
  | addressChanged => "NAT address changed"
  | portUnavailable => "NAT port no longer available"
  | translationChanged => "NAT decision changed"
  | sideTaken => "side already taken"

namespace Domain

/-! ## What a domain takes over -/

/-- The server with the leases of the previous one, if it leases the same addresses. -/
def inheritLeases (server : DhcpServer) (previous : Option DhcpServer) : DhcpServer :=
  match previous with
  | some old => if server.samePool old then server.inherit old else server
  | none => server

/-- The domain with what it takes over from the previous one of its name. -/
def inherit (d previous : Domain) : Domain :=
  { d with
    arp := if d.isStatic = previous.isStatic then previous.arp else d.arp
    rxBytes := previous.rxBytes
    txBytes := previous.txBytes
    dhcpServer := d.dhcpServer.map (inheritLeases · previous.dhcpServer) }

/-- The leased addresses that a domain keeps. -/
def keptLease? (d previous : Domain) : Option IpConfig :=
  if d.source = .dhcp ∧ previous.source = .dhcp then previous.ipConfig else none

/-- What the domain knows of hosts inside its subnet, and how many frames waited for others. -/
def pruneArp (d : Domain) : Nat × Domain :=
  let (dropped, arp) := match d.ipConfig with
    | some config => d.arp.retainSubnet config.interface
    | none => d.arp.clear
  (dropped, { d with arp })

end Domain

namespace DomainTree

/-! ## Making the domains -/

/-- Whether a configured domain becomes static, or ceases to be. -/
def changesKind (previous : DomainTree) (d : Domain) : Bool :=
  match previous.byName? d.name with
  | some old => d.isStatic != old.isStatic
  | none => false

/-- A configured domain with what it takes over. -/
def succeed (previous : DomainTree) (timeouts : Config.Timeouts) (config : Config.Domain) : Domain :=
  let d := Domain.ofConfig config timeouts
  match previous.byName? d.name with
  | some old => d.inherit old
  | none => d

/-- The leased addresses that configured domains keep. -/
def keptLeases (previous : DomainTree) (domains : List Domain) : List (String × IpConfig) :=
  domains.filterMap fun d => do
    let old ← previous.byName? d.name
    let config ← d.keptLease? old
    return (d.name, config)

/-- The tree with leased addresses installed again. -/
def reinstall : List (String × IpConfig) → DomainTree → Logged DomainTree
  | [], tree => return tree
  | (name, config) :: rest, tree => do
    let tree ← tree.installIpConfig name (some config)
    reinstall rest tree

/-- The domains without what they know of hosts outside their subnets. -/
def pruneAll : List Domain → Logged (List Domain)
  | [] => return []
  | d :: rest => do
    let (dropped, pruned) := d.pruneArp
    Logged.writeIf (dropped > 0) .debug s!"{d.name}: {dropped} queued frames left the subnet"
    return pruned :: (← pruneAll rest)

/-! ## Links -/

/-- The links of all domains, by the names of the domains and then by their ids. -/
def allLinks (tree : DomainTree) : List Link :=
  (SortedMap.ofList (tree.domains.map fun d => (d.name, d))).values.flatMap (·.links.owned.values)

/-- Whether the rules of a link's client domain still lead to its server. -/
def checkTarget (link : Link) (target : LinkTarget) : Except Dismissal Unit :=
  if target.domain = link.server.domain ∧ target.ip = link.server.flow.srcIp ∧
      (link.protocol = .icmp ∨ target.port = link.server.flow.srcPort) then .ok ()
  else .error .otherDestination

/-- The server's domain of a link with the link's port taken, if it is still translated alike. -/
def keepPort (link : Link) (server : Domain) (routerIp : Ipv4Addr) : Except Dismissal Domain :=
  match server.translatesFor link.client.domain, link.natPort with
  | true, some port =>
    if link.server.flow.dstIp = routerIp then
      match server.reservePort link.client.domain link.protocol port with
      | .ok taken => .ok taken
      | .error _ => .error .portUnavailable
    else .error .addressChanged
  | false, none => .ok server
  | _, _ => .error .translationChanged

/-- The server's domain of a link that conforms to the rules, with the link's port taken. -/
def conforming (tree : DomainTree) (link : Link) : Except Dismissal Domain :=
  match tree.byName? link.client.domain with
  | none => .error .clientRemoved
  | some client =>
    match client.decision (link.key .client) with
    | .noRule => .error .notPermitted
    | .denied => .error .notPermitted
    | .permitted target => do
      checkTarget link target
      match tree.byName? link.server.domain with
      | none => .error .serverRemoved
      | some server =>
        match server.routerIp? with
        | none => .error .serverUnconfigured
        | some routerIp => keepPort link server routerIp

/-- The tree with a link of the previous one in it, if the rules allow; `changed` are the domains
that became static or dynamic. -/
def readmit (changed : List String) (tree : DomainTree) (link : Link) :
    Except Dismissal DomainTree :=
  if link.client.domain ∈ changed ∨ link.server.domain ∈ changed then .error .kindChanged
  else do
    let server ← tree.conforming link
    match (tree.update link.server.domain fun _ => server).insertLink? link with
    | some tree => .ok tree
    | none => .error .sideTaken

/-- The tree with those links of a list that the rules allow, and their number. -/
def readmitAll (changed : List String) : List Link → DomainTree → Logged (Nat × DomainTree)
  | [], tree => return (0, tree)
  | link :: rest, tree =>
    match tree.readmit changed link with
    | .ok tree => do
      let (kept, tree) ← readmitAll changed rest tree
      return (kept + 1, tree)
    | .error reason => do
      logInfo s!"{link.protocol} link #{link.id} dismissed: {reason.message}"
      readmitAll changed rest tree

/-! ## The next generation -/

/-- The names of the configured domains that become static or dynamic. -/
def changedKinds (previous : DomainTree) : List Domain → Logged (List String)
  | [] => return []
  | d :: rest => do
    let changes := previous.changesKind d
    Logged.writeIf changes .debug s!"{d.name}: switched between static and dynamic"
    let others ← changedKinds previous rest
    return if changes then d.name :: others else others

/-- The domains of a new configuration before any link is in them again, with the names of those
that become static or dynamic. -/
def rebuild (previous : DomainTree) (config : Config) : Logged (List String × DomainTree) := do
  let domains := config.domains.map (previous.succeed config.timeouts)
  let changed ← previous.changedKinds domains
  let made ← ofDomains (previous.generation + 1) domains config.verboseDomainState
  let supplied ← reinstall (previous.keptLeases domains) made
  let pruned ← pruneAll supplied.domains
  return (changed, { supplied with domains := pruned })

/-- The domains of a new configuration, with what they take over from the previous ones. -/
def next (previous : DomainTree) (config : Config) : Logged DomainTree := do
  let (changed, rebuilt) ← previous.rebuild config
  let links := previous.allLinks
  let (kept, tree) ← readmitAll changed links rebuilt
  Logged.writeIf (!links.isEmpty) .debug
    s!"generation {tree.generation}: kept {kept} of {links.length} links"
  return tree

end DomainTree

end SegmentRouter
