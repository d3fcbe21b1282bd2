import SegmentRouter.Link.Registry
import SegmentRouter.Router.Dhcp

/-!
# Router/Attach — interfaces that come and go

An interface is attached to the domain that it is meant for as long as the configuration has that
domain. When it goes, so do the links that its frames opened and the frames that wait for it, and
with the last interface of a domain its leased addresses.
-/

namespace SegmentRouter

namespace Router

/-- Cancels in the ARP caches of a list of domains what belongs to an interface: the number of
frames that waited, and the domains after it. -/
def cancelArp (interface : InterfaceId) : List Domain → Nat × List Domain
  | [] => (0, [])
  | d :: rest =>
    let (dropped, arp) := d.arp.cancelInterface interface
    let (others, domains) := cancelArp interface rest
    (dropped + others, d.withArp arp :: domains)

/-- Drops the links and the waiting frames that belong to an interface. -/
def release (r : Router) (interface : InterfaceId) : Logged Router := do
  let (links, tree) ← r.tree.dismissLinksOfInterface interface
  let (frames, domains) := cancelArp interface tree.domains
  Logged.writeIf (links + frames > 0) .debug
    s!"{interface}: dismissed {links} links, {frames} queued frames"
  return r.withTree { tree with domains }

/-- A client that has not done anything yet. -/
def newClient (r : Router) : DhcpClient :=
  { mac := r.config.mac, xid := r.nextXid }

/-- The client that an interface has in a domain: the one it has already, or a new one. -/
def clientFor (r : Router) (i : Interface) (d : Domain) : Option DhcpClient :=
  if d.source = .dhcp then some (i.client.getD r.newClient) else none

/-- Connects an interface with the domain that it is meant for. -/
def bind (r : Router) (interface : InterfaceId) : Logged Router :=
  match r.interfaces.get? interface with
  | none => return r
  | some i =>
    match r.tree.id? i.policy, r.tree.byName? i.policy with
    | some id, some d => do
      logDebug s!"{interface} attached to {d.name}"
      return { r with
        tree := r.tree.updateAt id (·.addInterface interface)
        interfaces := r.interfaces.modify interface (·.inDomain (some id) (r.clientFor i d))
        nextXid := Xid.next r.nextXid }
    | _, _ => do
      logWarn s!"{interface}: domain {i.policy} does not exist"
      { r with interfaces := r.interfaces.modify interface (·.inDomain none none) }.release
        interface

/-- Connects each of a list of interfaces with the domain that it is meant for. -/
def bindAll : List InterfaceId → Router → Logged Router
  | [], r => return r
  | interface :: rest, r => do
    let r ← r.bind interface
    bindAll rest r

/-- Takes the addresses from a domain if they were leased through an interface that was its last. -/
def discardOrphaned (r : Router) (id : DomainId) (d : Domain) : Logged Router :=
  if d.interfaces.isEmpty ∧ d.source = .dhcp ∧ d.ipConfig.isSome then do
    logInfo s!"{d.name}: last interface gone, discarding IP config"
    match ← r.tree.discardIpConfig id with
    | .ok tree => return r.withTree tree
    | .error e =>
      logWarn e.message
      return r
  else return r

/-- Takes an interface out of the domain that it is in. -/
def unbind (r : Router) (interface : InterfaceId) : Logged Router :=
  let cleared := { r with interfaces := r.interfaces.modify interface (·.inDomain none none) }
  match r.domainId? interface with
  | none => return cleared
  | some id => do
    let released ← cleared.release interface
    let left := released.withTree (released.tree.updateAt id (·.removeInterface interface))
    match left.tree.get? id with
    | some d => left.discardOrphaned id d
    | none => return left

/-- Attaches a new interface that is meant for a domain, which need not exist. -/
def attach (r : Router) (domain : String) : Logged (InterfaceId × Router) := do
  let (interface, interfaces) := r.interfaces.insert { policy := domain }
  return (interface, ← { r with interfaces }.bind interface)

/-- Detaches an interface. -/
def detach (r : Router) (interface : InterfaceId) : Logged (Except Error Router) :=
  match r.interfaces.get? interface with
  | none => return .error (.interfaceNotFound interface)
  | some _ => do
    let left ← r.unbind interface
    logInfo s!"{interface} detached"
    match left.interfaces.remove? interface with
    | some (_, interfaces) => return .ok { left with interfaces }
    | none => return .ok left

end Router

end SegmentRouter
