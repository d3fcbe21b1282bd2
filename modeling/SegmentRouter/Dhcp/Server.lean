import SegmentRouter.Config.Basic
import SegmentRouter.Log
import SegmentRouter.Wire.Dhcp

/-!
# Dhcp/Server — leasing the addresses of a pool

The server keeps one lease for each client. An address is first offered for a short time, then bound
for the lease time; past half of it the lease is renewing. It ends when the client gives it back or
its time is over.

What the server answers depends on the domain's current addresses, which are given with every
message (`DhcpServer.Params`): only pool addresses of the current subnet, other than the router's
own, can be offered or bound (`usable`).
-/

namespace SegmentRouter

open Wire.Dhcp (Message Kind)

/-- How far a lease has come. -/
inductive LeaseState where
  | offered
  | bound
  | renewing
deriving DecidableEq, Repr

/-- The state's name in lower case. -/
def LeaseState.name : LeaseState → String
  | offered => "offered"
  | bound => "bound"
  | renewing => "renewing"

/-- An address held by a client. -/
structure Lease where
  ip : Ipv4Addr
  state : LeaseState
  /-- When the offer or the lease ends. -/
  expires : Nat
  /-- When the lease should be renewed. -/
  renewAt : Nat
deriving DecidableEq, Repr

/-- A server with the leases it has granted. -/
structure DhcpServer where
  first : Ipv4Addr
  last : Ipv4Addr
  leaseTimeSec : UInt32
  /-- How long an offer is held, in milliseconds. -/
  offerTimeout : Nat
  dnsServer : Option Ipv4Addr
  /-- The domain whose DNS server is handed out instead of the server's own. -/
  dnsServerFrom : Option String
  leases : SortedMap Mac Lease
deriving DecidableEq

namespace DhcpServer

/-- The addresses that answers depend on. -/
structure Params where
  interface : Cidr
  dnsServer : Option Ipv4Addr := none
deriving DecidableEq, Repr

/-- A server without leases. -/
def ofConfig (pool : Config.DhcpPool) (offerTimeout : Nat) : DhcpServer where
  first := pool.first
  last := pool.last
  leaseTimeSec := pool.leaseTimeSec
  offerTimeout := offerTimeout
  dnsServer := pool.dnsServer
  dnsServerFrom := pool.dnsServerFrom
  leases := ∅

/-! ## Addresses -/

/-- Whether an address belongs to the pool. -/
def inPool (s : DhcpServer) (ip : Ipv4Addr) : Bool :=
  s.first.toNat ≤ ip.toNat && ip.toNat ≤ s.last.toNat

/-- The first client that holds an address. -/
def holder? (s : DhcpServer) (ip : Ipv4Addr) : Option Mac :=
  (s.leases.toList.find? (·.2.ip = ip)).map (·.1)

/-- Whether an address can be leased at all: it belongs to the pool and to the subnet and is not the
router's. -/
def usable (s : DhcpServer) (params : Params) (ip : Ipv4Addr) : Bool :=
  s.inPool ip && ip != params.interface.addr && params.interface.contains ip

/-- Whether an address can be leased to a new client. -/
def available (s : DhcpServer) (params : Params) (ip : Ipv4Addr) : Bool :=
  s.usable params ip && (s.holder? ip).isNone

/-- The first of `count` addresses from a number on that passes a test. -/
def firstFrom? (test : Ipv4Addr → Bool) (start : Nat) : (count : Nat) → Option Ipv4Addr
  | 0 => none
  | count + 1 =>
    if test (.ofNat start) then some (.ofNat start) else firstFrom? test (start + 1) count

/-- The smallest address that can be leased to a new client. Only the part of the pool that lies in
the subnet is searched. -/
def lowestAvailable? (s : DhcpServer) (params : Params) : Option Ipv4Addr :=
  let lo := Nat.max s.first.toNat params.interface.network.toNat
  let hi := Nat.min s.last.toNat params.interface.broadcast.toNat
  firstFrom? (s.available params) lo (hi + 1 - lo)

/-- An address for a new client: the one it prefers if that can be had, else the smallest. -/
def choose? (s : DhcpServer) (params : Params) (preferred : Option Ipv4Addr) : Option Ipv4Addr :=
  match preferred with
  | some ip => if s.available params ip then some ip else s.lowestAvailable? params
  | none => s.lowestAvailable? params

/-! ## Answers -/

/-- An answer with the domain's addresses and the times of a lease. -/
def reply (s : DhcpServer) (request : Message) (kind : Kind) (params : Params) : Message :=
  let router := params.interface.addr
  let base := { Message.replyTo request kind with siaddr := router }
    |>.withIp Wire.Dhcp.serverIdCode router
    |>.withIp Wire.Dhcp.subnetMaskCode params.interface.netmask
    |>.withIp Wire.Dhcp.routerCode router
    |>.withIp Wire.Dhcp.broadcastCode params.interface.broadcast
  let named := match params.dnsServer with
    | some dns => base.withIp Wire.Dhcp.dnsServerCode dns
    | none => base
  named
    |>.withWord Wire.Dhcp.leaseTimeCode s.leaseTimeSec
    |>.withWord Wire.Dhcp.renewalTimeCode (s.leaseTimeSec / 2)
    |>.withWord Wire.Dhcp.rebindingTimeCode (s.leaseTimeSec / 8 * 7)

/-- A refusal. -/
def nak (request : Message) (params : Params) : Message :=
  (Message.replyTo request .nak).withIp Wire.Dhcp.serverIdCode params.interface.addr
    |>.withBroadcast

/-- An answer to a client that has an address of its own and asks for the rest. -/
def informReply (s : DhcpServer) (request : Message) (params : Params) : Message :=
  let ack := s.reply request .ack params
  { ack with options := ((ack.options.erase Wire.Dhcp.leaseTimeCode).erase
      Wire.Dhcp.renewalTimeCode).erase Wire.Dhcp.rebindingTimeCode }

/-- The server with a client's lease set. -/
def withLease (s : DhcpServer) (mac : Mac) (lease : Lease) : DhcpServer :=
  { s with leases := s.leases.insert mac lease }

/-- The server without a client's lease. -/
def withoutLease (s : DhcpServer) (mac : Mac) : DhcpServer :=
  { s with leases := s.leases.erase mac }

/-- Offers a client an address: the one it holds, or a new one. -/
def discover (s : DhcpServer) (msg : Message) (params : Params) (now : Nat) :
    Logged (Option Message × DhcpServer) :=
  let offer (ip : Ipv4Addr) : Message := { s.reply msg .offer params with yiaddr := ip }
  match s.leases.get? msg.chaddr with
  | some lease =>
    let held := if lease.state = .offered then { lease with expires := now + s.offerTimeout }
      else lease
    return (some (offer lease.ip), s.withLease msg.chaddr held)
  | none =>
    match s.choose? params msg.requestedIp? with
    | some ip =>
      let until_ := now + s.offerTimeout
      return (some (offer ip), s.withLease msg.chaddr
        { ip, state := .offered, expires := until_, renewAt := until_ })
    | none => do
      logWarn s!"DHCP pool {s.first}-{s.last} exhausted, no offer for {msg.chaddr}"
      return (none, s)

/-- The address that a client asks for, in an option or as the one it uses already. -/
def requested (msg : Message) : Ipv4Addr :=
  match msg.requestedIp? with
  | some ip => if ip = .unspecified then msg.ciaddr else ip
  | none => msg.ciaddr

/-- Whether a client may be bound to an address. -/
def mayBind (s : DhcpServer) (params : Params) (mac : Mac) (ip : Ipv4Addr) : Bool :=
  ip != .unspecified && s.usable params ip && (s.holder? ip).all (· == mac)

/-- Whether a client asks for the address that it is bound to already. -/
def isRenewal (s : DhcpServer) (mac : Mac) (ip : Ipv4Addr) : Bool :=
  match s.leases.get? mac with
  | some lease => lease.ip == ip && lease.state != .offered
  | none => false

/-- Binds a client to the address it asks for, or refuses it. -/
def bind (s : DhcpServer) (msg : Message) (params : Params) (now : Nat) :
    Logged (Option Message × DhcpServer) := do
  let ip := requested msg
  if s.mayBind params msg.chaddr ip then
    if s.isRenewal msg.chaddr ip then logDebug s!"DHCP lease {ip} of {msg.chaddr} renewed"
    else logInfo s!"DHCP lease {ip} bound to {msg.chaddr}"
    return (some { s.reply msg .ack params with yiaddr := ip, ciaddr := msg.ciaddr },
      s.withLease msg.chaddr {
        ip
        state := .bound
        expires := now + s.leaseTimeSec.toNat * 1000
        renewAt := now + s.leaseTimeSec.toNat * 500 })
  else
    logDebug s!"DHCP NAK {ip} for {msg.chaddr}"
    let server := match s.leases.get? msg.chaddr with
      | some lease => if lease.ip = ip then s else s.withoutLease msg.chaddr
      | none => s
    return (some (nak msg params), server)

/-- Answers a request. A request to another server ends an offer. -/
def request (s : DhcpServer) (msg : Message) (params : Params) (now : Nat) :
    Logged (Option Message × DhcpServer) :=
  match msg.serverId? with
  | none => s.bind msg params now
  | some id =>
    if id = params.interface.addr then s.bind msg params now
    else match s.leases.get? msg.chaddr with
      | some lease =>
        return (none, if lease.state = .offered then s.withoutLease msg.chaddr else s)
      | none => return (none, s)

/-- The name of a kind of message. -/
def kindName : Kind → String
  | .discover => "Discover"
  | .offer => "Offer"
  | .request => "Request"
  | .decline => "Decline"
  | .ack => "Ack"
  | .nak => "Nak"
  | .release => "Release"
  | .inform => "Inform"

/-- Takes an address back that a client gives up. -/
def giveUp (s : DhcpServer) (msg : Message) (kind : Kind) :
    Logged (Option Message × DhcpServer) :=
  match s.leases.get? msg.chaddr with
  | some lease => do
    logInfo s!"DHCP lease {lease.ip} of {msg.chaddr} freed by {kindName kind}"
    return (none, s.withoutLease msg.chaddr)
  | none => return (none, s)

/-- The answer to a message, and the server after it. -/
def handle (s : DhcpServer) (msg : Message) (params : Params) (now : Nat) :
    Logged (Option Message × DhcpServer) :=
  if msg.sender ≠ .client then return (none, s)
  else match msg.kind? with
    | none => do
      logDebug s!"DHCP message without message type from {msg.chaddr}"
      return (none, s)
    | some kind => do
      logDebug s!"DHCP {kindName kind} from {msg.chaddr}"
      match kind with
      | .discover => s.discover msg params now
      | .request => s.request msg params now
      | .release | .decline => s.giveUp msg kind
      | .inform => return (some (s.informReply msg params), s)
      | .offer | .ack | .nak => return (none, s)

/-! ## Time -/

/-- A lease after its renewal time has or has not come. -/
def age (now : Nat) (lease : Lease) : Lease :=
  if lease.state = .bound ∧ lease.renewAt ≤ now then { lease with state := .renewing } else lease

/-- Ends what has expired and marks what is due for renewal; the number of ended leases. -/
def maintain (s : DhcpServer) (now : Nat) : Logged (Nat × DhcpServer) := do
  let ended := s.leases.toList.filter (·.2.expires ≤ now)
  ended.forM fun (mac, lease) => logDebug s!"DHCP lease {lease.ip} of {mac} expired"
  let kept := s.leases.filter fun _ lease => !decide (lease.expires ≤ now)
  return (ended.length, { s with leases := kept.mapValues fun _ => age now })

/-! ## A new configuration -/

/-- Whether two servers lease the same addresses. -/
def samePool (s t : DhcpServer) : Bool :=
  s.first == t.first && s.last == t.last

/-- The server with the leases of another. -/
def inherit (s previous : DhcpServer) : DhcpServer :=
  { s with leases := previous.leases }

/-- Where an answer goes: to the client's address if it has one, and to everyone if it cannot be
addressed yet. -/
def destination (request reply : Message) : Ipv4Addr × Mac :=
  let isNak := reply.kind? = some .nak
  if request.ciaddr ≠ .unspecified ∧ ¬ isNak then (request.ciaddr, request.chaddr)
  else if request.wantsBroadcast ∨ isNak then (.broadcast, .broadcast)
  else (reply.yiaddr, request.chaddr)

end DhcpServer

end SegmentRouter
