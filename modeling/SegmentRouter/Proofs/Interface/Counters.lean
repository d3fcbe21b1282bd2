import Mathlib.Algebra.Group.Pi.Basic
import Mathlib.Algebra.Group.Prod
import Mathlib.Algebra.Ring.Nat
import SegmentRouter.Interface.Table

/-!
# Proofs/Interface/Counters — bytes counted at interfaces

An id finds an interface by its slot, and a slot has one interface at most.  So what is counted at
the interfaces of a table is told by slots.
-/

namespace SegmentRouter

/-- The interface after some bytes more were counted at it. -/
def Interface.counted (n : Nat × Nat) (i : Interface) : Interface :=
  { i with rxBytes := i.rxBytes + n.1, txBytes := i.txBytes + n.2 }

/-- The slot after some bytes more were counted at the interface in it. -/
def Slot.counted (n : Nat × Nat) (slot : Slot) : Slot :=
  { slot with occupant := slot.occupant.map (·.counted n) }

theorem Slot.counted_zero (slot : Slot) : slot.counted 0 = slot :=
  congrArg (fun occupant => ({ slot with occupant } : Slot)) Option.map_id'

namespace InterfaceTable

/-- The table after some bytes more were counted at its interfaces. -/
def counted (k : Nat → Nat × Nat) (table : InterfaceTable) : InterfaceTable :=
  ⟨table.slots.mapIdx fun index => Slot.counted (k index)⟩

variable (k : Nat → Nat × Nat) (table : InterfaceTable) (id : InterfaceId)

theorem get?_counted :
    (table.counted k).get? id = (table.get? id).map (·.counted (k id.index)) := by
  unfold get? counted
  rw [List.getElem?_mapIdx]
  cases table.slots[id.index]? with
  | none => rfl
  | some slot =>
    simp only [Option.map_some, Option.bind_some, occupant?, Slot.counted]
    split <;> rfl

/-- What a view of an interface does not see of its counters it does not see in the table. -/
theorem map_get?_counted {β : Type} {g : Interface → β} (h : ∀ n i, g (i.counted n) = g i) :
    ((table.counted k).get? id).map g = (table.get? id).map g := by
  rw [get?_counted, Option.map_map]
  exact congrArg (Option.map · _) (funext (h _))

theorem bind_get?_counted {β : Type} {g : Interface → Option β}
    (h : ∀ n i, g (i.counted n) = g i) :
    ((table.counted k).get? id).bind g = (table.get? id).bind g := by
  rw [get?_counted, Option.bind_map]
  exact congrArg (Option.bind _ ·) (funext (h _))

/-- **A change that does not look at counters comes to the same before and after counting.** -/
theorem modify_counted {f : Interface → Interface} (h : ∀ n i, f (i.counted n) = (f i).counted n) :
    (table.counted k).modify id f = (table.modify id f).counted k := by
  have hslot (n : Nat × Nat) (slot : Slot) : changeOccupant id.generation f (slot.counted n) =
      (changeOccupant id.generation f slot).counted n := by
    unfold changeOccupant Slot.counted
    dsimp only
    split
    · rw [Option.map_map, Option.map_map]
      exact congrArg (fun occupant => ({ slot with occupant } : Slot))
        (congrArg (Option.map · slot.occupant) (funext (h n)))
    · rfl
  refine congrArg mk (List.ext_getElem? fun j => ?_)
  dsimp only [counted, modify]
  rw [List.getElem?_modify, List.getElem?_mapIdx, List.getElem?_mapIdx, List.getElem?_modify]
  cases table.slots[j]? with
  | none => simp
  | some slot => by_cases hj : id.index = j <;> simp [hj, hslot]

theorem counted_counted (k' : Nat → Nat × Nat) :
    (table.counted k).counted k' = table.counted (k + k') := by
  have hslot (m n : Nat × Nat) (slot : Slot) :
      (slot.counted m).counted n = slot.counted (m + n) := by
    have hinterface (i : Interface) : (i.counted m).counted n = i.counted (m + n) := by
      unfold Interface.counted
      dsimp only [Prod.fst_add, Prod.snd_add]
      rw [Nat.add_assoc, Nat.add_assoc]
    unfold Slot.counted
    rw [Option.map_map]
    exact congrArg (fun occupant => ({ slot with occupant } : Slot))
      (congrArg (Option.map · slot.occupant) (funext hinterface))
  refine congrArg mk ?_
  dsimp only [counted]
  rw [List.mapIdx_mapIdx]
  exact congrArg (List.mapIdx · table.slots) (funext fun index => funext fun slot =>
    hslot (k index) (k' index) slot)

theorem counted_zero : table.counted 0 = table := by
  refine congrArg mk (List.ext_getElem? fun j => ?_)
  rw [List.getElem?_mapIdx]
  cases table.slots[j]? with
  | none => rfl
  | some slot => exact congrArg some slot.counted_zero

/-- Counting at one interface is counting for its slot. -/
theorem modify_eq_counted {table : InterfaceTable} {id : InterfaceId} {i : Interface}
    (hi : table.get? id = some i) (n : Nat × Nat) :
    table.modify id (·.counted n) = table.counted (Pi.single id.index n) := by
  obtain ⟨slot, hslot, hoccupant⟩ := Option.bind_eq_some_iff.1 hi
  have hgeneration : slot.generation = id.generation := by
    unfold occupant? at hoccupant
    split at hoccupant
    · assumption
    · cases hoccupant
  refine congrArg mk (List.ext_getElem? fun j => ?_)
  rw [List.getElem?_modify, List.getElem?_mapIdx]
  by_cases hj : id.index = j
  · subst hj
    rw [hslot, Pi.single_eq_same]
    simp [changeOccupant, hgeneration, Slot.counted]
  · rw [Pi.single_eq_of_ne (Ne.symm hj)]
    cases table.slots[j]? with
    | none => rfl
    | some slot => simp [hj, slot.counted_zero]

end InterfaceTable

end SegmentRouter
