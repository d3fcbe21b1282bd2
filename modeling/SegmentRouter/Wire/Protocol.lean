import SegmentRouter.SortedMap

/-!
# Wire/Protocol — protocol numbers

The payloads of an Ethernet frame and of an IPv4 packet that the router looks into, with their
assigned numbers.
-/

namespace SegmentRouter.Wire

/-- A payload of an Ethernet frame that the router handles. -/
inductive EtherType where
  | ipv4
  | arp
deriving DecidableEq, Repr

namespace EtherType

/-- The number in the frame's type field. -/
def number : EtherType → UInt16
  | ipv4 => 0x0800
  | arp => 0x0806

/-- The payload with a type number. -/
def ofNumber? (n : UInt16) : Option EtherType :=
  if n = 0x0800 then some ipv4 else if n = 0x0806 then some arp else none

@[simp] theorem ofNumber?_number (t : EtherType) : ofNumber? t.number = some t := by
  cases t <;> decide

end EtherType

/-- A protocol above IPv4 whose flows the router follows. -/
inductive Protocol where
  | icmp
  | tcp
  | udp
deriving DecidableEq, Repr, Inhabited

namespace Protocol

/-- The number in the packet's protocol field. -/
def number : Protocol → UInt8
  | icmp => 1
  | tcp => 6
  | udp => 17

/-- The protocol with a number. -/
def ofNumber? (n : UInt8) : Option Protocol :=
  if n = 1 then some icmp else if n = 6 then some tcp else if n = 17 then some udp else none

@[simp] theorem ofNumber?_number (p : Protocol) : ofNumber? p.number = some p := by
  cases p <;> decide

/-- The protocol's name in lower case. -/
def name : Protocol → String
  | icmp => "icmp"
  | tcp => "tcp"
  | udp => "udp"

instance : ToString Protocol := ⟨name⟩

/-- The place of a protocol in lists of all three. -/
def rank : Protocol → Nat
  | icmp => 0
  | tcp => 1
  | udp => 2

/-- Protocols are listed as ICMP, TCP, UDP. -/
instance : SortKey Protocol := SortKey.ofRank rank fun a b h => by
  cases a <;> cases b <;> first | rfl | cases h

/-- All protocols, in order. -/
def all : List Protocol := [icmp, tcp, udp]

end Protocol

end SegmentRouter.Wire
