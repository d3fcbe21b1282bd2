import SegmentRouter.Domain.Basic

/-!
# Dhcp/Client — leasing an address from someone else

A domain without a fixed address takes its addresses from a lease. The client discovers servers,
requests what is offered, and renews the lease before it ends; messages that stay unanswered are
repeated at growing intervals.

Every discovery begins a new transaction. The number of the next one is an argument of each function
that may begin one, so that a client's behaviour is a function of what happens to it.
-/

namespace SegmentRouter

open Wire.Dhcp (Message Kind)

/-- The number of a transaction after another one. A client in the field draws its numbers from the
clock and its hardware address, so that no stranger answers by chance; here they are counted on in
steps of an odd constant, and one comes back only after 2³² of them. No result depends on this
sequence: a client is given each of its numbers, and what is proved holds for all of them. -/
def Xid.next (xid : UInt32) : UInt32 :=
  xid + 2654435769

/-- How far a client has come. -/
inductive DhcpPhase where
  | init
  /-- A server is looked for. -/
  | selecting
  /-- An offer was accepted. -/
  | requesting
  | bound
  /-- The lease is in use and its renewal was asked for. -/
  | renewing
deriving DecidableEq, Repr

/-- A lease in use. -/
structure ClientLease where
  config : IpConfig
  server : Ipv4Addr
  obtained : Nat
  /-- How long after that the lease should be renewed, in milliseconds. -/
  renewAfter : Nat
  /-- How long after that the lease ends, in milliseconds. -/
  expireAfter : Nat
deriving DecidableEq, Repr

/-- A client of an interface. -/
structure DhcpClient where
  mac : Mac
  phase : DhcpPhase := .init
  xid : UInt32
  lastSent : Option Nat := none
  retries : Nat := 0
  /-- The offered address and the server that offered it. -/
  offer : Option (Ipv4Addr × Ipv4Addr) := none
  lease : Option ClientLease := none
deriving DecidableEq, Repr

/-- What a client wants done. -/
inductive DhcpAction where
  /-- Send a message to everyone. -/
  | broadcast (msg : Message)
  /-- Send a message to the server that granted the lease. -/
  | unicast (msg : Message) (server : Ipv4Addr)
  | configure (config : IpConfig)
  | deconfigure
  | none
deriving DecidableEq

namespace DhcpClient

/-- The number of repetitions after which the search for a server starts over. -/
def maxRetries : Nat := 10

/-- Whether the client has a lease. -/
def isBound (c : DhcpClient) : Bool :=
  c.lease.isSome

/-! ## Sending -/

/-- The question for servers, and the client that has asked it. -/
def sendDiscover (c : DhcpClient) (now : Nat) : DhcpAction × DhcpClient :=
  let msg := (Message.make .client .discover c.xid c.mac).withBroadcast
    |>.withOption Wire.Dhcp.parameterRequestCode [Wire.Dhcp.subnetMaskCode, Wire.Dhcp.routerCode,
      Wire.Dhcp.dnsServerCode, Wire.Dhcp.leaseTimeCode]
  (.broadcast msg, { c with phase := .selecting, lastSent := some now })

/-- The request for the lease in use or for what was offered; without either the client goes back to
looking for servers. -/
def sendRequest (c : DhcpClient) (now : Nat) : DhcpAction × DhcpClient :=
  let msg := Message.make .client .request c.xid c.mac
  let sent := { c with lastSent := some now }
  let requestOffer : DhcpAction × DhcpClient :=
    match c.offer with
    | some (ip, server) =>
      (.broadcast (msg.withBroadcast |>.withIp Wire.Dhcp.requestedIpCode ip
        |>.withIp Wire.Dhcp.serverIdCode server), sent)
    | none => c.sendDiscover now
  match c.phase, c.lease with
  | .renewing, some lease =>
    (.unicast { msg with ciaddr := lease.config.interface.addr } lease.server, sent)
  | _, _ => requestOffer

/-- Begins a new discovery without any lease. -/
def start (c : DhcpClient) (fresh : UInt32) (now : Nat) : Logged (DhcpAction × DhcpClient) := do
  logDebug s!"DHCP client {c.mac} starting discovery"
  return { c with xid := fresh, retries := 0, offer := none, lease := none }.sendDiscover now

/-! ## Answers -/

/-- The number of one bits before the first zero bit of a mask. -/
def maskLength (mask : Ipv4Addr) : Nat :=
  ((List.range 32).takeWhile fun i => mask.toNat.testBit (31 - i)).length

theorem maskLength_le (mask : Ipv4Addr) : maskLength mask ≤ 32 := by
  have := (List.takeWhile_sublist (l := List.range 32)
    fun i => mask.toNat.testBit (31 - i)).length_le
  simpa [maskLength] using this

/-- The lease that an acknowledgement grants, if it names an address and a mask. -/
def leaseOf? (msg : Message) (now : Nat) : Option ClientLease :=
  if msg.yiaddr = .unspecified then none
  else match msg.subnetMask? with
    | none => none
    | some mask =>
      let interface : Cidr := ⟨msg.yiaddr, maskLength mask, maskLength_le mask⟩
      let leaseSec := (msg.leaseTime?.map (·.toNat)).getD 3600
      let renewSec := ((msg.word? Wire.Dhcp.renewalTimeCode).map (·.toNat)).getD (leaseSec / 2)
      some {
        config := {
          interface
          gateway := msg.router?.filter interface.contains
          dnsServer := msg.dnsServer? }
        server := msg.serverId?.getD msg.siaddr
        obtained := now
        renewAfter := renewSec * 1000
        expireAfter := leaseSec * 1000 }

/-- Accepts an offer. -/
def accept (c : DhcpClient) (msg : Message) (now : Nat) : Logged (DhcpAction × DhcpClient) :=
  match msg.serverId? with
  | none => do
    logDebug "DHCP offer without server id ignored"
    return (.none, c)
  | some server =>
    return { c with
      offer := some (msg.yiaddr, server), phase := .requesting, retries := 0 }.sendRequest now

/-- Takes up the lease of an acknowledgement. A renewed lease with the same addresses changes
nothing outside the client. -/
def acknowledge (c : DhcpClient) (msg : Message) (fresh : UInt32) (now : Nat) :
    Logged (DhcpAction × DhcpClient) :=
  match leaseOf? msg now with
  | none => do
    logWarn "DHCP ack without usable address or subnet mask"
    c.start fresh now
  | some lease =>
    let leased := { c with lease := some lease, phase := .bound }
    if c.phase = .renewing ∧ c.lease.map (·.config) = some lease.config then do
      logDebug s!"DHCP lease {lease.config.interface} renewed"
      return (.none, leased)
    else do
      logInfo s!"DHCP client bound to {lease.config.interface}"
      return (.configure lease.config, { leased with retries := 0 })

/-- Starts over after a refusal. -/
def refuse (c : DhcpClient) (fresh : UInt32) (now : Nat) : Logged (DhcpAction × DhcpClient) := do
  logWarn "DHCP request rejected by server, restarting discovery"
  let (discover, started) ← c.start fresh now
  return (if c.isBound then .deconfigure else discover, started)

/-- Whether a message answers the client's current transaction. -/
def isAddressed (c : DhcpClient) (msg : Message) : Bool :=
  msg.sender == .server && msg.xid == c.xid && msg.chaddr == c.mac

/-- What the client does about a message, and the client after it. -/
def handle (c : DhcpClient) (msg : Message) (fresh : UInt32) (now : Nat) :
    Logged (DhcpAction × DhcpClient) :=
  if c.isAddressed msg then
    match msg.kind?, c.phase with
    | some .offer, .selecting => c.accept msg now
    | some .ack, .requesting => c.acknowledge msg fresh now
    | some .ack, .renewing => c.acknowledge msg fresh now
    | some .nak, .requesting => c.refuse fresh now
    | some .nak, .renewing => c.refuse fresh now
    | _, _ => return (.none, c)
  else return (.none, c)

/-! ## Time -/

/-- How long an answer is waited for, in milliseconds: twice as long each time. -/
def patience (c : DhcpClient) : Nat :=
  Nat.min (4 <<< Nat.min c.retries 4) 64 * 1000

/-- Whether the last message has to be repeated. -/
def isOverdue (c : DhcpClient) (now : Nat) : Bool :=
  match c.lastSent with
  | some sent => c.patience ≤ now - sent
  | none => true

/-- Repeats what stays unanswered. -/
def repeatOverdue (c : DhcpClient) (fresh : UInt32) (now : Nat) :
    Logged (DhcpAction × DhcpClient) :=
  match c.phase with
  | .init => c.start fresh now
  | .bound => return (.none, c)
  | .selecting =>
    if c.isOverdue now then return { c with retries := c.retries + 1 }.sendDiscover now
    else return (.none, c)
  | .requesting | .renewing =>
    if c.isOverdue now then
      if maxRetries ≤ c.retries ∧ c.lease.isNone then c.start fresh now
      else return { c with retries := c.retries + 1 }.sendRequest now
    else return (.none, c)

/-- What the client does as time passes, and the client after it. -/
def tick (c : DhcpClient) (fresh : UInt32) (now : Nat) : Logged (DhcpAction × DhcpClient) :=
  match c.lease with
  | none => c.repeatOverdue fresh now
  | some lease =>
    if lease.expireAfter ≤ now - lease.obtained then do
      logWarn s!"DHCP lease {lease.config.interface} expired"
      let (_, started) ← c.start fresh now
      return (.deconfigure, started)
    else if c.phase = .bound ∧ lease.renewAfter ≤ now - lease.obtained then do
      logDebug s!"DHCP lease {lease.config.interface} due for renewal"
      return { c with phase := .renewing, retries := 0 }.sendRequest now
    else c.repeatOverdue fresh now

end DhcpClient

end SegmentRouter
