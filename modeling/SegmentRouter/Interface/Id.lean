import SegmentRouter.SortedMap

/-!
# Interface/Id — names of interfaces

An interface is named by the slot it occupies and by how often that slot was vacated before, so the
name of a removed interface is not the name of the next one in its slot.
-/

namespace SegmentRouter

/-- The name of an interface: its slot and the slot's generation. -/
structure InterfaceId where
  /-- The number of the slot. In a word of 32 bits it would come round at 2³²; here it has no bound.
  That makes no difference, since a table gets a new slot only if all others are occupied
  (`InterfaceTable.place`), and 2³² interfaces at one time are out of reach. -/
  index : Nat
  /-- How often the slot was vacated before the interface came, modulo 2³². -/
  generation : UInt32
deriving DecidableEq, Repr, Inhabited

namespace InterfaceId

/-- A number that tells names apart and orders them by slot, then by generation. -/
def rank (id : InterfaceId) : Nat :=
  id.index <<< 32 + id.generation.toNat

theorem rank_inj (a b : InterfaceId) (h : a.rank = b.rank) : a = b := by
  obtain ⟨i, g⟩ := a
  obtain ⟨j, g'⟩ := b
  have := g.toNat_lt
  have := g'.toNat_lt
  simp only [rank] at h
  simp only [mk.injEq, ← UInt32.toNat_inj]
  omega

instance : SortKey InterfaceId := SortKey.ofRank rank rank_inj

/-- The slot and its generation, as in if0.1. -/
def text (id : InterfaceId) : String :=
  s!"if{id.index}.{id.generation}"

instance : ToString InterfaceId := ⟨text⟩

end InterfaceId

end SegmentRouter
