import SegmentRouter.Address.Ipv4
import SegmentRouter.Wire.Protocol

/-!
# Link/Flow — what packets of one conversation have in common

The addresses and ports that a packet carries in one direction. An ICMP echo has its identifier for
both ports.
-/

namespace SegmentRouter

/-- Source and destination of a packet. -/
structure Flow where
  srcIp : Ipv4Addr
  srcPort : UInt16
  dstIp : Ipv4Addr
  dstPort : UInt16
deriving DecidableEq, Repr, Inhabited

namespace Flow

/-- The flow of the packets in the other direction. -/
def mirror (f : Flow) : Flow :=
  { srcIp := f.dstIp, srcPort := f.dstPort, dstIp := f.srcIp, dstPort := f.srcPort }

@[simp] theorem mirror_mirror (f : Flow) : f.mirror.mirror = f := rfl

/-- A number that tells flows apart and orders them by source, then by destination. -/
def rank (f : Flow) : Nat :=
  ((f.srcIp.toNat <<< 16 + f.srcPort.toNat) <<< 32 + f.dstIp.toNat) <<< 16 + f.dstPort.toNat

theorem rank_lt (f : Flow) : f.rank < 1 <<< 96 := by
  have := f.srcIp.toNat_lt
  have := f.dstIp.toNat_lt
  have := f.srcPort.toNat_lt
  have := f.dstPort.toNat_lt
  simp only [rank]
  omega

theorem rank_inj (f g : Flow) (h : f.rank = g.rank) : f = g := by
  obtain ⟨a, b, c, d⟩ := f
  obtain ⟨a', b', c', d'⟩ := g
  have := b.toNat_lt; have := c.toNat_lt; have := d.toNat_lt
  have := b'.toNat_lt; have := c'.toNat_lt; have := d'.toNat_lt
  simp only [rank] at h
  simp only [mk.injEq, ← Ipv4Addr.toNat_inj, ← UInt16.toNat_inj]
  omega

instance : SortKey Flow := SortKey.ofRank rank rank_inj

/-- Source and destination with an arrow between them. -/
def text (f : Flow) : String :=
  s!"{f.srcIp}:{f.srcPort} -> {f.dstIp}:{f.dstPort}"

instance : ToString Flow := ⟨text⟩

end Flow

/-- A flow of a protocol, which is what an arriving packet is looked up by. -/
structure FlowKey where
  protocol : Wire.Protocol
  flow : Flow
deriving DecidableEq, Repr, Inhabited

namespace FlowKey

/-- A number that orders keys by protocol, then by flow. -/
def rank (k : FlowKey) : Nat :=
  k.protocol.rank <<< 96 + k.flow.rank

theorem rank_inj (k l : FlowKey) (h : k.rank = l.rank) : k = l := by
  obtain ⟨p, f⟩ := k
  obtain ⟨q, g⟩ := l
  have hf := f.rank_lt
  have hg := g.rank_lt
  simp only [rank] at h
  have hp : p.rank = q.rank := by omega
  have hr : f.rank = g.rank := by omega
  rw [Flow.rank_inj f g hr]
  cases p <;> cases q <;> first | rfl | cases hp

instance : SortKey FlowKey := SortKey.ofRank rank rank_inj

end FlowKey

end SegmentRouter
