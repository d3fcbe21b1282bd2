import SegmentRouter.Router.Basic
import SegmentRouter.Wire.Arp
import SegmentRouter.Wire.Ipv4

/-!
# Router/NextHop — from an address to the frames that go there

A packet leaves through the interfaces of one domain, to the hardware address of the next hop. If
that is not known the frame from which the packet came is parked, and the first frame that waits for
an address causes a question for it.
-/

namespace SegmentRouter

open Wire (Bytes)

/-- Where frames are sent. -/
structure NextHop where
  mac : Mac
  /-- The interface behind which the next hop was found; without it all of the domain count. -/
  via : Option InterfaceId := none
deriving DecidableEq, Repr

/-- What a domain knows of the way to an address. -/
inductive Route where
  /-- The domain has no addresses. -/
  | unconfigured
  /-- The address is outside the subnet and there is no gateway. -/
  | noGateway
  /-- The next hop's hardware address has to be asked for. -/
  | unresolved (hop : Ipv4Addr)
  | known (hop : NextHop)
deriving DecidableEq, Repr

namespace Domain

/-- What the domain knows of the way to an address. Broadcasts go to everyone. -/
def route (d : Domain) (dst : Ipv4Addr) : Route :=
  match d.ipConfig with
  | none => .unconfigured
  | some config =>
    if dst = .broadcast ∨ dst = config.interface.broadcast then .known { mac := .broadcast }
    else match d.nextHop dst with
      | .error _ => .noGateway
      | .ok hop =>
        match d.arp.lookup? hop with
        | some (mac, via) => .known { mac, via := some via }
        | none => .unresolved hop

/-- The interfaces through which frames for a next hop leave. -/
def outlets (d : Domain) (hop : NextHop) : List InterfaceId :=
  match hop.via with
  | some id => if d.interfaces.contains id then [id] else d.interfaces.keys
  | none => d.interfaces.keys

end Domain

namespace Router

/-- An IPv4 packet in a frame of the router. -/
def frameOf (r : Router) (dst : Mac) (packet : Bytes) : Bytes :=
  Wire.Ethernet.build {
    dst, src := r.config.mac, etherType := Wire.EtherType.ipv4.number, payload := packet }

/-- One frame through several interfaces. -/
def through (interfaces : List InterfaceId) (frame : Bytes) : List Transmit :=
  interfaces.map fun interface => { interface, frame }

/-- The question of a domain for an address. -/
def askFor (r : Router) (d : Domain) (hop : Ipv4Addr) : List Transmit :=
  match d.routerIp? with
  | some routerIp =>
    through d.interfaces.keys (Wire.Arp.Packet.request r.config.mac routerIp hop).frame
  | none => []

/-- Parks a frame until the hardware address of a next hop is known. -/
def park (r : Router) (d : Domain) (hop : Ipv4Addr) (waiter : Waiter) : Logged Reaction := do
  let (outcome, arp) := d.arp.park hop waiter waiter.queued
  let parked := r.withTree (r.tree.update d.name (·.withArp arp))
  match outcome with
  | .requestNeeded =>
    logTrace s!"{d.name}: resolving {hop}"
    return parked.sending (r.askFor d hop)
  | .queued => return parked.sending []
  | .dropped =>
    logWarn s!"{d.name}: ARP queue for {hop} full, frame dropped"
    return parked.sending []

/-- The next hop on the way to an address in a domain. Without one the reaction is all that
happens. -/
def resolve (r : Router) (name : String) (dst : Ipv4Addr) (waiter : Waiter) :
    Logged (Option NextHop × Reaction) :=
  match r.tree.byName? name with
  | none => return (none, r.sending [])
  | some d =>
    match d.route dst with
    | .unconfigured => return (none, r.sending [])
    | .noGateway => do
      logDebug s!"{name}: {(Error.noNextHop dst).message}"
      return (none, r.sending [])
    | .unresolved hop => return (none, ← r.park d hop waiter)
    | .known hop => return (some hop, r.sending [])

/-- Sends a packet to a next hop in a domain. -/
def forward (r : Router) (name : String) (hop : NextHop) (packet : Wire.Ipv4.Packet) :
    Logged Reaction :=
  match r.tree.byName? name with
  | none => return r.sending []
  | some d => do
    let outlets := d.outlets hop
    Logged.writeIf outlets.isEmpty .debug s!"{name}: no interface to send through"
    return r.sending (through outlets (r.frameOf hop.mac packet.bytes))

/-- Sends a packet of the router itself back to where a frame came from. -/
def reply (r : Router) (interface : InterfaceId) (dst : Mac) (packet : Bytes) : Reaction :=
  r.sending [{ interface, frame := r.frameOf dst packet }]

end Router

end SegmentRouter
