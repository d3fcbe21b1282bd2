import SegmentRouter.Config.Basic
import SegmentRouter.Interface.Id
import SegmentRouter.Link.Flow
import SegmentRouter.Wire.Tcp

/-!
# Link/Basic — flows that cross two domains

A link is one conversation between a client and a server. Each of its two ends lies in a domain and
is known by the flow of the packets that arrive there; a packet that arrives at one end leaves
through the other with that end's flow mirrored (`Link.egress`).
-/

namespace SegmentRouter

open Wire (Protocol)

/-- The ends of a link. -/
inductive Side where
  | client
  | server
deriving DecidableEq, Repr

namespace Side

/-- The other end. -/
def opposite : Side → Side
  | client => server
  | server => client

@[simp] theorem opposite_opposite (s : Side) : s.opposite.opposite = s := by
  cases s <;> rfl

end Side

/-- An end of a link: the domain it lies in and the flow of the packets that arrive there. -/
structure Endpoint where
  domain : String
  flow : Flow
deriving DecidableEq, Repr, Inhabited

/-- A conversation across two domains. -/
structure Link where
  id : Nat
  protocol : Protocol
  client : Endpoint
  server : Endpoint
  /-- The port, or ICMP identifier, that the link holds in the server's domain. -/
  natPort : Option UInt16
  /-- The interface on which its first packet arrived. -/
  origin : InterfaceId
  created : Nat
  lastActivity : Nat
  /-- Whether the TCP connection was broken off or closed from both ends. -/
  closing : Bool := false
  clientFin : Bool := false
  serverFin : Bool := false
deriving DecidableEq, Repr

/-- Where a packet that arrived at one end of a link goes. -/
structure Egress where
  domain : String
  /-- The addresses and ports that the packet then has. -/
  rewrite : Flow
deriving DecidableEq, Repr

/-- How long links without traffic are kept, in milliseconds. -/
structure LinkTimeouts where
  tcpIdle : Nat
  tcpClosing : Nat
  udpIdle : Nat
  icmpIdle : Nat
deriving DecidableEq, Repr

/-- The limits that a configuration sets for links. -/
def LinkTimeouts.ofConfig (t : Config.Timeouts) : LinkTimeouts where
  tcpIdle := Config.seconds t.tcpIdleSec
  tcpClosing := Config.seconds t.tcpClosingSec
  udpIdle := Config.seconds t.udpIdleSec
  icmpIdle := Config.seconds t.icmpIdleSec

namespace Link

/-- The end on a side. -/
def side (link : Link) : Side → Endpoint
  | .client => link.client
  | .server => link.server

/-- What the packets that arrive on a side are looked up by. -/
def key (link : Link) (s : Side) : FlowKey :=
  ⟨link.protocol, (link.side s).flow⟩

/-- Where a packet that arrived on a side goes. -/
def egress (link : Link) (arrived : Side) : Egress :=
  let out := link.side arrived.opposite
  { domain := out.domain, rewrite := out.flow.mirror }

/-- The link after traffic at `now`. -/
def touch (link : Link) (now : Nat) : Link :=
  { link with lastActivity := now }

/-- The link after its sender on a side has no more to send. -/
def markFin (link : Link) : Side → Link
  | .client => { link with clientFin := true }
  | .server => { link with serverFin := true }

/-- The link after a TCP segment with the given control bits came from a side. -/
def observeTcp (link : Link) (from_ : Side) (flags : Wire.Tcp.Flags) : Link :=
  if flags.rst then { link with closing := true }
  else if flags.fin then
    let marked := link.markFin from_
    { marked with closing := marked.closing || (marked.clientFin && marked.serverFin) }
  else link

/-- How long the link may be without traffic. -/
def limit (link : Link) (t : LinkTimeouts) : Nat :=
  match link.protocol with
  | .tcp => if link.closing then t.tcpClosing else t.tcpIdle
  | .udp => t.udpIdle
  | .icmp => t.icmpIdle

/-- Whether the link has been without traffic for too long. -/
def isExpired (link : Link) (now : Nat) (t : LinkTimeouts) : Bool :=
  link.limit t ≤ now - link.lastActivity

end Link

/-- What a domain knows of a link with an end in it. -/
structure LinkRef where
  link : Nat
  /-- The client's domain, which holds the link. -/
  owner : String
  side : Side
deriving DecidableEq, Repr

/-- The links that start in a domain, and every end of a link that lies in it. -/
structure LinkTable where
  owned : SortedMap Nat Link := ∅
  index : SortedMap FlowKey LinkRef := ∅
deriving DecidableEq

namespace LinkTable

/-- The link that packets of a flow belong to. -/
def lookup? (table : LinkTable) (key : FlowKey) : Option LinkRef :=
  table.index.get? key

/-- The ends of other domains' links that lie here. -/
def foreign (table : LinkTable) : List LinkRef :=
  table.index.values.filter (·.side = .server)

/-- The table with the end of a link entered, unless another has its flow. -/
def enter (table : LinkTable) (key : FlowKey) (ref : LinkRef) : LinkTable :=
  if table.index.contains key then table
  else { table with index := table.index.insert key ref }

/-- The table without the end of a link; another link's end with that flow stays. -/
def leave (table : LinkTable) (key : FlowKey) (id : Nat) : LinkTable :=
  match table.index.get? key with
  | some ref => if ref.link = id then { table with index := table.index.erase key } else table
  | none => table

/-- The table with a link that starts here. -/
def own (table : LinkTable) (link : Link) : LinkTable :=
  { table with owned := table.owned.insert link.id link }

/-- The table without a link that starts here. -/
def disown (table : LinkTable) (id : Nat) : LinkTable :=
  { table with owned := table.owned.erase id }

end LinkTable

end SegmentRouter
