import SegmentRouter.Router.NextHop

/-!
# Router/Arp — asking for and telling hardware addresses

An ARP packet may teach the router where its sender is, which sets frames free that wait for it, and
may ask for an address that the router answers for. Only senders in the domain's own subnet are
believed.
-/

namespace SegmentRouter

open Wire (Bytes)

namespace Domain

/-- Whether what an ARP packet says of its sender is believed in a domain with given addresses. -/
def believes (config : IpConfig) (p : Wire.Arp.Packet) : Bool :=
  config.interface.contains p.senderIp && p.senderIp != config.interface.addr &&
    p.senderIp != .unspecified

/-- The domain's ARP cache after a packet arrived on an interface, and the frames that need not wait
any longer. A packet that is not meant for the router only confirms what is known. -/
def learn (d : Domain) (config : IpConfig) (p : Wire.Arp.Packet) (interface : InterfaceId)
    (now : Nat) : List Waiter × ArpCache :=
  if believes config p then
    if p.targetIp = config.interface.addr ∨ p.operation = .reply then
      d.arp.resolve p.senderIp p.senderMac interface now
    else ([], d.arp.refresh p.senderIp p.senderMac interface now)
  else ([], d.arp)

end Domain

namespace Router

/-- The answer to an ARP packet that asks for an address of the router. -/
def answerArp (r : Router) (interface : InterfaceId) (d : Domain) (p : Wire.Arp.Packet) :
    List Transmit :=
  if p.operation = .request ∧ r.tree.answersArp d p.targetIp then
    [{ interface, frame := (p.replyTo r.config.mac p.targetIp).frame }]
  else []

/-- Handles an ARP packet that arrived on an interface of a domain. -/
def handleArp (r : Router) (interface : InterfaceId) (id : DomainId) (d : Domain)
    (payload : Bytes) (now : Nat) : Logged Reaction :=
  match Wire.Arp.parse payload with
  | .error cause => do
    logDebug s!"{interface}: {(Error.malformed cause).message}"
    return r.sending []
  | .ok p =>
    match d.ipConfig with
    | none => do
      logTrace s!"{interface}: ARP ignored, {d.name} unconfigured"
      return r.sending []
    | some config => do
      let (released, arp) := d.learn config p interface now
      Logged.writeIf (!released.isEmpty) .debug
        s!"{d.name}: {p.senderIp} resolved, releasing {released.length} frames"
      return {
        router := r.withTree (r.tree.updateAt id (·.withArp arp))
        sent := r.answerArp interface d p
        released }

/-- Ends what is too old in the ARP caches of a list of domains; the domains after it. -/
def expireArp (now requestTimeout entryLifetime : Nat) : List Domain → Logged (List Domain)
  | [] => return []
  | d :: rest => do
    let (ended, arp) := d.arp.expire now requestTimeout entryLifetime
    ended.forM fun (ip, waiters) =>
      logWarn s!"{d.name}: no ARP reply from {ip}, dropped {waiters.length} frames"
    return d.withArp arp :: (← expireArp now requestTimeout entryLifetime rest)

end Router

end SegmentRouter
