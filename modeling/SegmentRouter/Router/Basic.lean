import SegmentRouter.Interface.Table

/-!
# Router/Basic — the state of a router

A router is its configuration, the domains that were made of it, and the interfaces attached to
them. It never reads a clock: every operation is given the time, in milliseconds.
-/

namespace SegmentRouter

/-- A frame that is to be sent through an interface. -/
structure Transmit where
  interface : InterfaceId
  frame : Wire.Bytes
deriving DecidableEq, Repr

/-- A router. -/
structure Router where
  /-- The configuration in use. -/
  config : Config := {}
  tree : DomainTree := { generation := 0, domains := [], verbose := false }
  interfaces : InterfaceTable := {}
  /-- The id of the next link. -/
  nextLink : Nat := 1
  /-- The number of the next DHCP transaction. A router reads no clock to draw one from, so it counts
  on from the one that it was started with (`Xid.next`). Nothing that is said of routers depends on
  which numbers follow. -/
  nextXid : UInt32 := 0
  /-- The rules that the last configuration broke, if it was not taken. -/
  configError : Option (List String) := none
deriving DecidableEq

namespace Domain

/-- The domain after `n` bytes arrived from it. -/
def received (d : Domain) (n : Nat) : Domain :=
  { d with rxBytes := d.rxBytes + n }

/-- The domain after `n` bytes were sent into it. -/
def sent (d : Domain) (n : Nat) : Domain :=
  { d with txBytes := d.txBytes + n }

/-- The domain with other knowledge of its hosts. -/
def withArp (d : Domain) (arp : ArpCache) : Domain :=
  { d with arp }

/-- The domain with its DHCP server changed. -/
def withDhcpServer (d : Domain) (server : DhcpServer) : Domain :=
  { d with dhcpServer := some server }

end Domain

namespace Router

/-- The router with other domains. -/
def withTree (r : Router) (tree : DomainTree) : Router :=
  { r with tree }

/-- The handle on the domain that an interface is in. -/
def domainId? (r : Router) (id : InterfaceId) : Option DomainId :=
  (r.interfaces.get? id).bind (·.domain)

/-- The domain that an interface is in. -/
def domainOf? (r : Router) (id : InterfaceId) : Option Domain :=
  (r.domainId? id).bind r.tree.get?

/-- Whether events of single packets of a domain are logged. -/
def isVerbose (r : Router) (name : String) : Bool :=
  ((r.tree.byName? name).map (·.config.verbosePackets)).getD false

/-- Writes a line about a packet of a domain if that domain's packets are logged. -/
def logPacket (r : Router) (name message : String) : Logged Unit :=
  Logged.writeIf (r.isVerbose name) .debug message

/-! ## Counters -/

/-- The router with a change of one interface and of the domain that it is in. -/
def change (r : Router) (id : InterfaceId) (f : Interface → Interface) (g : Domain → Domain) :
    Router :=
  match r.interfaces.get? id with
  | none => r
  | some i =>
    { r with
      interfaces := r.interfaces.modify id f
      tree := match i.domain with
        | some d => r.tree.updateAt d g
        | none => r.tree }

/-- The router after `n` bytes arrived on an interface. -/
def countReceived (r : Router) (id : InterfaceId) (n : Nat) : Router :=
  r.change id (·.received n) (·.received n)

/-- The router after a frame was sent. -/
def countSent (r : Router) (t : Transmit) : Router :=
  r.change t.interface (·.sent t.frame.length) (·.sent t.frame.length)

/-- The router after frames were sent. -/
def countAllSent (r : Router) (sent : List Transmit) : Router :=
  sent.foldl countSent r

end Router

/-- A router after a part of its work, and what came of that. -/
structure Reaction where
  router : Router
  /-- The frames to be sent, in this order. -/
  sent : List Transmit := []
  /-- The frames that wait no longer, in the order in which they came. -/
  released : List Waiter := []
deriving DecidableEq

/-- The reaction of sending frames only. -/
def Router.sending (r : Router) (sent : List Transmit) : Reaction :=
  { router := r, sent }

end SegmentRouter
