import SegmentRouter.Domain.Supply
import SegmentRouter.Router.NextHop
import SegmentRouter.Wire.Udp

/-!
# Router/Dhcp — the router as DHCP server and client

A domain with a server answers the requests of its hosts. On each interface of a domain whose
addresses are leased a client asks for them; what it is granted becomes the domain's addresses, and
they go when the lease ends.
-/

namespace SegmentRouter

open Wire (Bytes)
open Wire.Dhcp (Message)

namespace Router

/-- A DHCP message in an IPv4 packet. -/
def dhcpPacket (src dst : Ipv4Addr) (srcPort dstPort : UInt16) (message : Message) : Bytes :=
  ({ src, dst, protocolNumber := Wire.Protocol.udp.number } : Wire.Ipv4.Draft).build
    (Wire.Udp.build src dst { srcPort, dstPort, payload := message.build })

/-! ## Server -/

/-- Sends the answer to a request back, from the router's address. -/
def answerDhcp (r : Router) (interface : InterfaceId) (routerIp : Ipv4Addr)
    (request answer : Message) : Reaction :=
  let (dst, mac) := DhcpServer.destination request answer
  r.reply interface mac
    (dhcpPacket routerIp dst Wire.Dhcp.serverPort Wire.Dhcp.clientPort answer)

/-- Lets a domain's server handle a message that arrived on an interface. -/
def serveDhcp (r : Router) (interface : InterfaceId) (id : DomainId) (d : Domain)
    (payload : Bytes) (now : Nat) : Logged Reaction :=
  match Wire.Dhcp.parse payload with
  | .error cause => do
    logDebug s!"{interface}: {(Error.malformed cause).message}"
    return r.sending []
  | .ok request =>
    match d.dhcpServer, d.dhcpParams? (r.tree.dhcpDnsServer? d.name) with
    | some server, some params => do
      let (answer, server) ← server.handle request params now
      let served := r.withTree (r.tree.updateAt id (·.withDhcpServer server))
      match answer with
      | some answer => return served.answerDhcp interface params.interface.addr request answer
      | none => return served.sending []
    | _, _ => return r.sending []

/-! ## Client -/

/-- Sends a client's message to an address. -/
def sendDhcp (r : Router) (interface : InterfaceId) (message : Message) (dst : Ipv4Addr)
    (mac : Mac) : Reaction :=
  r.reply interface mac
    (dhcpPacket message.ciaddr dst Wire.Dhcp.clientPort Wire.Dhcp.serverPort message)

/-- The hardware address to which a message for a server is sent; while it is not known the message
goes to everyone. -/
def serverMac (d : Domain) (server : Ipv4Addr) : Mac :=
  match d.nextHop server with
  | .ok hop => ((d.arp.lookup? hop).map (·.1)).getD .broadcast
  | .error _ => .broadcast

/-- Replaces the addresses of the domain that an interface is in. -/
def configure (r : Router) (interface : InterfaceId) (id : DomainId) (config : Option IpConfig) :
    Logged Reaction := do
  match ← r.tree.setIpConfig id config with
  | .ok tree => return (r.withTree tree).sending []
  | .error e =>
    logWarn s!"{interface}: DHCP client result not applied: {e.message}"
    return r.sending []

/-- Does what the client of an interface asks for. -/
def carryOut (r : Router) (interface : InterfaceId) (action : DhcpAction) : Logged Reaction :=
  match r.domainId? interface with
  | none => return r.sending []
  | some id =>
    match action with
    | .none => return r.sending []
    | .broadcast message => return r.sendDhcp interface message .broadcast .broadcast
    | .unicast message server =>
      let mac := ((r.tree.get? id).map (serverMac · server)).getD .broadcast
      return r.sendDhcp interface message server mac
    | .configure config => r.configure interface id (some config)
    | .deconfigure => r.configure interface id none

/-- The router after the client of an interface changed, which may have begun a transaction. -/
def withClient (r : Router) (interface : InterfaceId) (client : DhcpClient) : Router :=
  { r with
    interfaces := r.interfaces.modify interface (·.withClient client)
    nextXid := Xid.next r.nextXid }

/-- Lets the client of an interface handle a message. -/
def consumeDhcp (r : Router) (interface : InterfaceId) (payload : Bytes) (now : Nat) :
    Logged Reaction :=
  match Wire.Dhcp.parse payload with
  | .error cause => do
    logDebug s!"{interface}: {(Error.malformed cause).message}"
    return r.sending []
  | .ok message =>
    match (r.interfaces.get? interface).bind (·.client) with
    | none => return r.sending []
    | some client => do
      let (action, client) ← client.handle message r.nextXid now
      (r.withClient interface client).carryOut interface action

/-- Lets time pass for the client of an interface. -/
def tickClient (r : Router) (interface : InterfaceId) (now : Nat) : Logged Reaction :=
  match (r.interfaces.get? interface).bind (·.client) with
  | none => return r.sending []
  | some client => do
    let (action, client) ← client.tick r.nextXid now
    (r.withClient interface client).carryOut interface action

/-- Lets time pass for the clients of a list of interfaces. -/
def tickClients (now : Nat) : List InterfaceId → Router → Logged Reaction
  | [], r => return r.sending []
  | interface :: rest, r => do
    let first ← r.tickClient interface now
    let others ← tickClients now rest first.router
    return others.router.sending (first.sent ++ others.sent)

/-- Lets time pass for the servers of a list of domains; the domains after it. -/
def maintainServers (now : Nat) : List Domain → Logged (List Domain)
  | [] => return []
  | d :: rest => do
    match d.dhcpServer with
    | none => return d :: (← maintainServers now rest)
    | some server =>
      let (ended, server) ← server.maintain now
      Logged.writeIf (ended > 0) .debug s!"{d.name}: {ended} DHCP leases expired"
      return d.withDhcpServer server :: (← maintainServers now rest)

/-- Lets time pass for all DHCP servers and clients. -/
def maintainDhcp (r : Router) (now : Nat) : Logged Reaction := do
  let domains ← maintainServers now r.tree.domains
  tickClients now r.interfaces.ids (r.withTree { r.tree with domains })

end Router

end SegmentRouter
