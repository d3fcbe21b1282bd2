import Mathlib.Data.List.Nodup
import SegmentRouter.Interface.Table

/-!
# Proofs/Interface/Handles — an id finds the interface that it was given to

The view of a table is `get?`.  A change, an attached interface and a removed one show at one id
each, although removing an interface also counts its slot's generation up: the ids of the slot's
other generations found nothing before, and an empty slot answers to none.
-/

namespace SegmentRouter.InterfaceTable

variable {t t' : InterfaceTable} {id j : InterfaceId} {i : Interface} {slots : List Slot}

theorem eq_iff : j = id ↔ j.index = id.index ∧ j.generation = id.generation := by
  cases j
  cases id
  simp

theorem occupant?_changeOccupant (g g' : UInt32) (f : Interface → Interface) (slot : Slot) :
    occupant? g' (changeOccupant g f slot) =
      if g' = g then (occupant? g' slot).map f else occupant? g' slot := by
  unfold changeOccupant occupant?
  by_cases h : slot.generation = g
  · rw [if_pos h]
    by_cases hg : g' = g
    · rw [if_pos hg, if_pos (h.trans hg.symm), if_pos (h.trans hg.symm)]
    · have hne : slot.generation ≠ g' := fun he => hg (he.symm.trans h)
      rw [if_neg hg, if_neg hne, if_neg hne]
  · rw [if_neg h]
    by_cases hg : g' = g
    · have hne : slot.generation ≠ g' := fun he => h (he.trans hg)
      rw [if_pos hg, if_neg hne]
      rfl
    · rw [if_neg hg]

/-- A change shows at its id only. -/
theorem get?_modify (t : InterfaceTable) (id j : InterfaceId) (f : Interface → Interface) :
    (t.modify id f).get? j = if j = id then (t.get? id).map f else t.get? j := by
  have hslot : (t.modify id f).get? j =
      ((t.slots[j.index]?).bind fun slot => occupant? j.generation
        (if id.index = j.index then changeOccupant id.generation f slot else slot)) := by
    rw [get?, modify, List.getElem?_modify]
    cases t.slots[j.index]? with
    | none => rfl
    | some slot => by_cases h : id.index = j.index <;> simp [h]
  rw [hslot]
  by_cases hj : j = id
  · subst hj
    rw [if_pos rfl, get?]
    cases t.slots[j.index]? with
    | none => rfl
    | some slot =>
      rw [Option.bind_some, Option.bind_some, if_pos rfl, occupant?_changeOccupant, if_pos rfl]
  · rw [if_neg hj, get?]
    refine Option.bind_congr fun slot _ => ?_
    split
    · rename_i hindex
      rw [occupant?_changeOccupant, if_neg fun hg => hj (eq_iff.2 ⟨hindex.symm, hg⟩)]
    · rfl

/-- **A removed interface is gone, and no other.** -/
theorem get?_remove? (h : t.remove? id = some (i, t')) (j : InterfaceId) :
    t'.get? j = if j = id then none else t.get? j := by
  obtain ⟨i', hi, he⟩ := Option.map_eq_some_iff.1 h
  obtain ⟨rfl, rfl⟩ := Prod.mk.inj he
  obtain ⟨slot, hslot, hocc⟩ := Option.bind_eq_some_iff.1 hi
  have hgen : slot.generation = id.generation := by
    unfold occupant? at hocc
    split at hocc
    · assumption
    · cases hocc
  rw [get?, List.getElem?_modify]
  by_cases hindex : id.index = j.index
  · have hempty : occupant? j.generation (vacate slot) = none := ite_self ..
    rw [← hindex, hslot, Option.map_eq_map, Option.map_some, if_pos rfl, Option.bind_some, hempty]
    split
    · rfl
    · rename_i hj
      have hne : slot.generation ≠ j.generation :=
        fun he => hj (eq_iff.2 ⟨hindex.symm, he.symm.trans hgen⟩)
      rw [get?, ← hindex, hslot, Option.bind_some, occupant?, if_neg hne]
  · have hj : j ≠ id := fun he => hindex (eq_iff.1 he).1.symm
    rw [if_neg hj, get?]
    cases t.slots[j.index]? with
    | none => rfl
    | some slot => simp [hindex]

theorem isSome_remove? (h : t.get? id = some i) : (t.remove? id).isSome := by
  rw [remove?, h]
  rfl

/-- An interface is placed where there was none. -/
theorem place_spec (i : Interface) (index : Nat) (slots : List Slot) :
    ∃ k, (place i index slots).1.index = index + k ∧
      (∀ g, (slots[k]?).bind (occupant? g) = none) ∧
      ∀ j g, ((place i index slots).2[j]?).bind (occupant? g) =
        if j = k ∧ g = (place i index slots).1.generation then some i
        else (slots[j]?).bind (occupant? g) := by
  induction slots generalizing index with
  | nil =>
    refine ⟨0, rfl, fun _ => rfl, fun j g => ?_⟩
    cases j with
    | zero => simp [place, occupant?, eq_comm]
    | succ j => simp [place]
  | cons slot rest ih =>
    rw [place]
    split
    · rename_i hfree
      have hnone : slot.occupant = none := Option.isNone_iff_eq_none.1 hfree
      refine ⟨0, rfl, fun g => by simp [occupant?, hnone], fun j g => ?_⟩
      cases j with
      | zero => simp [occupant?, hnone, eq_comm]
      | succ j => simp
    · obtain ⟨k, hk, hnone, hview⟩ := ih (index + 1)
      refine ⟨k + 1, by rw [hk]; omega, hnone, fun j g => ?_⟩
      cases j with
      | zero => simp
      | succ j => simpa using hview j g

/-- **An attached interface is found by its id**, which found nothing before. -/
theorem get?_insert (t : InterfaceTable) (i : Interface) :
    t.get? (t.insert i).1 = none ∧
      ∀ j, (t.insert i).2.get? j = if j = (t.insert i).1 then some i else t.get? j := by
  obtain ⟨k, hk, hnone, hview⟩ := place_spec i 0 t.slots
  have hindex : (t.insert i).1.index = k := hk.trans (Nat.zero_add k)
  refine ⟨?_, fun j => ?_⟩
  · rw [get?, hindex]
    exact hnone _
  · refine (hview j.index j.generation).trans ?_
    by_cases hj : j = (t.insert i).1
    · rw [if_pos hj, if_pos ⟨(eq_iff.1 hj).1.trans hindex, (eq_iff.1 hj).2⟩]
    · rw [if_neg hj, if_neg fun he => hj (eq_iff.2 ⟨he.1.trans hindex.symm, he.2⟩), get?]

theorem mem_entriesFrom {index : Nat}
    (h : (slots[j.index]?).bind (occupant? j.generation) = some i) :
    ((⟨index + j.index, j.generation⟩ : InterfaceId), i) ∈ entriesFrom index slots := by
  obtain ⟨k, g⟩ := j
  induction slots generalizing index k with
  | nil => simp at h
  | cons slot rest ih =>
    rw [entriesFrom, List.mem_append]
    cases k with
    | zero =>
      simp only [List.getElem?_cons_zero, Option.bind_some, occupant?] at h
      split at h
      · rename_i hg
        simp [h, hg]
      · cases h
    | succ k =>
      right
      have hrest : ((⟨index + 1 + k, g⟩ : InterfaceId), i) ∈ entriesFrom (index + 1) rest :=
        ih k (by simpa using h)
      rwa [show index + (k + 1) = index + 1 + k by omega]

/-- Every interface's id is listed. -/
theorem mem_ids (h : t.get? id = some i) : id ∈ t.ids := by
  have hm : ((⟨0 + id.index, id.generation⟩ : InterfaceId), i) ∈ t.toList := mem_entriesFrom h
  rw [Nat.zero_add] at hm
  exact List.mem_map.2 ⟨_, hm, rfl⟩

/-! ## All interfaces at once -/

/-- How often the slots were vacated. -/
def generations (t : InterfaceTable) : List UInt32 :=
  t.slots.map (·.generation)

/-- The table with each interface changed. -/
def map (f : Interface → Interface) (t : InterfaceTable) : InterfaceTable :=
  ⟨t.slots.map fun slot => { slot with occupant := slot.occupant.map f }⟩

theorem generations_map (f : Interface → Interface) (t : InterfaceTable) :
    (t.map f).generations = t.generations := by
  rw [generations, map, List.map_map]
  rfl

theorem get?_map (f : Interface → Interface) (t : InterfaceTable) (id : InterfaceId) :
    (t.map f).get? id = (t.get? id).map f := by
  rw [get?, map, List.getElem?_map, get?]
  cases t.slots[id.index]? with
  | none => rfl
  | some slot =>
    simp only [Option.map_some, Option.bind_some, occupant?]
    split <;> rfl

theorem generation_changeOccupant (g : UInt32) (f : Interface → Interface) (slot : Slot) :
    (changeOccupant g f slot).generation = slot.generation :=
  (apply_ite Slot.generation ..).trans (ite_self _)

theorem generations_modify (t : InterfaceTable) (id : InterfaceId) (f : Interface → Interface) :
    (t.modify id f).generations = t.generations := by
  refine List.ext_getElem? fun k => ?_
  rw [generations, modify, List.getElem?_map, List.getElem?_modify, generations, List.getElem?_map]
  by_cases hk : id.index = k
  · cases t.slots[k]? <;> simp [hk, generation_changeOccupant]
  · simp [hk]

/-- **Tables with slots of the same generations are the same if all ids find the same.** -/
theorem ext_get? (hg : t'.generations = t.generations) (h : ∀ id, t'.get? id = t.get? id) :
    t' = t := by
  have hslots : t'.slots = t.slots := List.ext_getElem? fun k => by
    have hgen := congrArg (·[k]?) hg
    simp only [generations, List.getElem?_map] at hgen
    cases hslot : t.slots[k]? with
    | none =>
      rw [hslot, Option.map_none, Option.map_eq_none_iff] at hgen
      exact hgen
    | some slot =>
      rw [hslot, Option.map_some, Option.map_eq_some_iff] at hgen
      obtain ⟨slot', hslot', hgen⟩ := hgen
      have hid := h ⟨k, slot.generation⟩
      rw [get?, hslot', get?, hslot, Option.bind_some, Option.bind_some, occupant?, if_pos hgen,
        occupant?, if_pos rfl] at hid
      rw [hslot']
      exact congrArg some (Slot.mk.injEq .. ▸ ⟨hgen, hid⟩)
  exact congrArg mk hslots

end SegmentRouter.InterfaceTable
