import SegmentRouter.Router.Arp
import SegmentRouter.Router.Dhcp
import SegmentRouter.Router.Forward

/-!
# Router/Receive — handling a frame

A frame that arrives is counted, read and handled. If it tells a hardware address that other frames
wait for, those are handled again after it, in the order in which they came, without being counted
again.
-/

namespace SegmentRouter

open Wire (Bytes)
open Wire.Ipv4 (Packet)

namespace Router

/-- Carries the verdict on a packet out. The frame that carried the packet is parked if the packet
has to wait. -/
def carryOutVerdict (r : Router) (frame : Waiter) (id : DomainId) (d : Domain) (srcMac : Mac)
    (p : Packet) : Verdict → Logged Reaction
  | .drop .unconfigured => do
    logTrace s!"{d.name}: dropped, domain unconfigured"
    return r.sending []
  | .drop .ttlExceeded => do
    r.logPacket d.name s!"{d.name}: TTL exceeded for {p.dst}"
    return r.sending []
  | .toDhcpClient message => r.consumeDhcp frame.src message frame.queued
  | .toDhcpServer message => r.serveDhcp frame.src id d message frame.queued
  | .echo => r.echo frame.src srcMac p
  | .follow ref flow packet => r.follow frame ref flow packet
  | .openLink target flow packet => r.openLink frame d.name target flow packet
  | .pass domain packet => r.pass frame domain packet
  | .refuse reason packet => r.refuse frame.src srcMac d reason packet

/-- Handles an IPv4 packet that arrived in a domain. -/
def handleIpv4 (r : Router) (frame : Waiter) (id : DomainId) (d : Domain) (srcMac : Mac)
    (payload : Bytes) : Logged Reaction :=
  match Wire.Ipv4.parse payload with
  | .error cause => do
    logDebug s!"{frame.src}: {(Error.malformed cause).message}"
    return r.sending []
  | .ok p =>
    if p.headerChecksumValid then r.carryOutVerdict frame id d srcMac p (d.verdict p)
    else do
      logDebug s!"{frame.src}: bad IPv4 header checksum"
      return r.sending []

/-- A type number of a frame in hexadecimal digits. -/
def etherTypeText (n : UInt16) : String :=
  "0x" ++ String.ofList (Text.hexPadded 4 n.toNat)

/-- Handles a frame from a domain. -/
def handleFrame (r : Router) (frame : Waiter) (id : DomainId) (d : Domain) : Logged Reaction :=
  match Wire.Ethernet.parse frame.frame with
  | .error cause => do
    logDebug s!"{frame.src}: {(Error.malformed cause).message}"
    return r.sending []
  | .ok f =>
    if f.dst = r.config.mac ∨ f.dst.isBroadcast then
      match Wire.EtherType.ofNumber? f.etherType with
      | some .arp => r.handleArp frame.src id d f.payload frame.queued
      | some .ipv4 => r.handleIpv4 frame id d f.src f.payload
      | none => do
        logTrace s!"{frame.src}: ethertype {etherTypeText f.etherType} ignored"
        return r.sending []
    else do
      logTrace s!"{frame.src}: frame for {f.dst} ignored"
      return r.sending []

/-- Handles a frame for the first time or again. -/
def process (r : Router) (frame : Waiter) : Logged Reaction :=
  match r.domainId? frame.src with
  | none => do
    logTrace s!"{frame.src}: frame dropped, interface not attached"
    return r.sending []
  | some id =>
    match r.tree.get? id with
    | none => do
      logTrace s!"{frame.src}: frame dropped, domain gone"
      return r.sending []
    | some d => r.handleFrame frame id d

/-- Handles frames again that waited until now. -/
def replay (now : Nat) : List Waiter → Router → Logged Reaction
  | [], r => return r.sending []
  | w :: rest, r => do
    let first ← r.process { w with queued := now }
    let others ← replay now rest first.router
    return {
      router := others.router
      sent := first.sent ++ others.sent
      released := first.released ++ others.released }

/-- Handles frames again, and those that they set free after them, in at most `rounds` rounds. -/
def replayAll (now : Nat) : (rounds : Nat) → List Waiter → Router → Logged Reaction
  | 0, _, r => return r.sending []
  | _, [], r => return r.sending []
  | rounds + 1, released, r => do
    let first ← replay now released r
    let others ← replayAll now rounds first.released first.router
    return others.router.sending (first.sent ++ others.sent)

/-- The number of frames that wait anywhere. -/
def waiting (r : Router) : Nat :=
  r.tree.domains.foldr (fun d others => d.arp.waiting + others) 0

/-- The router after a frame was counted, if it came from an interface that is in a domain. -/
def countArrival (r : Router) (interface : InterfaceId) (length : Nat) : Router :=
  if (r.domainOf? interface).isSome then r.countReceived interface length else r

/-- Handles a frame that arrived on an interface, and every frame that this sets free. Each round of
frames that sets others free holds one that waited and will not wait again, so there are no more
rounds than frames that wait. -/
def receive (r : Router) (interface : InterfaceId) (frame : Bytes) (now : Nat) :
    Logged (List Transmit × Router) := do
  let first ← (r.countArrival interface frame.length).process
    { src := interface, frame, queued := now }
  let others ← replayAll now (r.waiting + 1) first.released first.router
  let sent := first.sent ++ others.sent
  return (sent, others.router.countAllSent sent)

end Router

end SegmentRouter
