import SegmentRouter.Domain.Tree

/-!
# Link/Registry — links in the tree of domains

A link is entered in the domains of both of its ends: the client's domain holds it, and each domain
finds it by the flow of the packets that arrive there. It leaves both at once, and the port that it
held in the server's domain is free again.
-/

namespace SegmentRouter

namespace Domain

/-- The domain with the end of a link entered. -/
def enterLink (d : Domain) (key : FlowKey) (ref : LinkRef) : Domain :=
  { d with links := d.links.enter key ref }

/-- The domain without the end of a link. -/
def leaveLink (d : Domain) (key : FlowKey) (id : Nat) : Domain :=
  { d with links := d.links.leave key id }

/-- The domain with a link of its own. -/
def ownLink (d : Domain) (link : Link) : Domain :=
  { d with links := d.links.own link }

/-- The domain without a link of its own. -/
def disownLink (d : Domain) (link : Link) : Domain :=
  ({ d with links := d.links.disown link.id }).leaveLink (link.key .client) link.id

/-- The domain without the server's end of a link and the port that it held. -/
def releaseLink (d : Domain) (link : Link) : Domain :=
  let left := d.leaveLink (link.key .server) link.id
  match link.natPort with
  | some port => left.freePort link.client.domain link.protocol port
  | none => left

end Domain

namespace DomainTree

/-- What a domain is to know of an end of a link. -/
def refOf (link : Link) (side : Side) : LinkRef :=
  { link := link.id, owner := link.client.domain, side }

/-- Whether the domain of an end exists and has no link with its flow. -/
def hasRoom (tree : DomainTree) (link : Link) (side : Side) : Bool :=
  match tree.byName? (link.side side).domain with
  | some d => (d.links.lookup? (link.key side)).isNone
  | none => false

/-- The tree with a link in it, unless another link has one of its flows. -/
def insertLink? (tree : DomainTree) (link : Link) : Option DomainTree :=
  if tree.hasRoom link .server && tree.hasRoom link .client then
    some ((tree.update link.server.domain
        (·.enterLink (link.key .server) (refOf link .server))).update link.client.domain
          fun d => (d.enterLink (link.key .client) (refOf link .client)).ownLink link)
  else none

/-- The link that a domain holds under an id. -/
def ownedLink? (tree : DomainTree) (owner : String) (id : Nat) : Option Link :=
  (tree.byName? owner).bind (·.links.owned.get? id)

/-- The tree without a link, and the link. -/
def dismissLink (tree : DomainTree) (owner : String) (id : Nat) :
    Logged (Option Link × DomainTree) :=
  match tree.ownedLink? owner id with
  | none => return (none, tree)
  | some link => do
    logDebug s!"dismissed {link.protocol} link #{id} {link.client.flow} ({owner})"
    let disowned := tree.update owner (·.disownLink link)
    return (some link, disowned.update link.server.domain (·.releaseLink link))

/-- The tree without the links of a list, and how many of them there were. -/
def dismissAll : (victims : List (String × Nat)) → DomainTree → Logged (Nat × DomainTree)
  | [], tree => return (0, tree)
  | (owner, id) :: rest, tree => do
    let (link, tree) ← tree.dismissLink owner id
    let (count, tree) ← dismissAll rest tree
    return (count + link.toList.length, tree)

/-- The links of all domains that pass a test, each with the domain that holds it. -/
def linksWhere (tree : DomainTree) (test : Link → Bool) : List (String × Nat) :=
  tree.domains.flatMap fun d =>
    (d.links.owned.values.filter test).map fun l => (l.client.domain, l.id)

/-- The links with an end in a domain, the domain's own first. -/
def linksOf (name : String) (d : Domain) : List (String × Nat) :=
  d.links.owned.values.map (fun l => (name, l.id)) ++
    d.links.foreign.map fun r => (r.owner, r.link)

/-- The tree without the links with an end in a domain. -/
def dismissLinksOfDomain (tree : DomainTree) (name : String) : Logged (Nat × DomainTree) :=
  match tree.byName? name with
  | some d => dismissAll (linksOf name d) tree
  | none => return (0, tree)

/-- The tree without the links whose first packet arrived on an interface. -/
def dismissLinksOfInterface (tree : DomainTree) (id : InterfaceId) : Logged (Nat × DomainTree) :=
  dismissAll (tree.linksWhere (·.origin = id)) tree

/-- The tree without the links that were without traffic for too long. -/
def ageLinks (tree : DomainTree) (now : Nat) (limits : LinkTimeouts) :
    Logged (Nat × DomainTree) :=
  dismissAll (tree.linksWhere (·.isExpired now limits)) tree

end DomainTree

end SegmentRouter
