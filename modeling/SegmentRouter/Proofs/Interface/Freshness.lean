import SegmentRouter.Proofs.Interface.Handles

/-!
# Proofs/Interface/Freshness — an id is given out once

A table is called to insert, edit and remove interfaces, and each call leaves a record with what the
table answered.  Whoever keeps the records knows what each id stands for (`holder`), how often each
slot was vacated and how many interfaces there were at once (`peak`); the table agrees with the
records (`faithful_after`).

Slots are used again, and what keeps the ids apart is the generation.  A slot's generation is the
number of times it was vacated; an id that was issued for the slot has an earlier generation, or the
slot's own while its interface is still in place (`Apart.issued`).  So the id that a free slot gives
is new, as long as the generations have not gone around.
-/

namespace SegmentRouter.InterfaceTable

variable {t t' : InterfaceTable} {id j : InterfaceId} {i : Interface} {slots : List Slot}

/-! ## Slots -/

theorem get?_eq_some_iff :
    t.get? id = some i ↔ t.slots[id.index]? = some ⟨id.generation, some i⟩ := by
  rw [get?, Option.bind_eq_some_iff]
  constructor
  · rintro ⟨⟨g, occupant⟩, hslot, h⟩
    unfold occupant? at h
    split at h
    · rename_i hg
      rw [hslot]
      exact congrArg some (Slot.mk.injEq .. ▸ ⟨hg, h⟩)
    · cases h
  · intro h
    exact ⟨_, h, if_pos rfl⟩

/-- An interface leaves its slot empty, in the next generation. -/
theorem remove?_eq_some_iff : t.remove? id = some (i, t') ↔
    t.slots[id.index]? = some ⟨id.generation, some i⟩ ∧
      t' = ⟨t.slots.set id.index ⟨id.generation + 1, none⟩⟩ := by
  have hset (h : t.slots[id.index]? = some ⟨id.generation, some i⟩) :
      t.slots.modify id.index vacate = t.slots.set id.index ⟨id.generation + 1, none⟩ := by
    rw [List.modify_eq_set_getElem?, h]
    rfl
  rw [remove?, Option.map_eq_some_iff]
  constructor
  · rintro ⟨i', hi, he⟩
    obtain ⟨rfl, rfl⟩ := Prod.mk.inj he
    have hslot := get?_eq_some_iff.1 hi
    exact ⟨hslot, congrArg mk (hset hslot)⟩
  · rintro ⟨hslot, rfl⟩
    exact ⟨i, get?_eq_some_iff.2 hslot, Prod.ext rfl (congrArg mk (hset hslot))⟩

/-- **Where an interface is put**, with which id: into a slot that is free, in the slot's
generation, and into a new slot only if none is free. -/
inductive Placed (t : InterfaceTable) (i : Interface) : InterfaceId → InterfaceTable → Prop
  | reused {k : Nat} {g : UInt32} (hfree : t.slots[k]? = some ⟨g, none⟩) :
      Placed t i ⟨k, g⟩ ⟨t.slots.set k ⟨g, some i⟩⟩
  | added (hfull : ∀ slot ∈ t.slots, slot.occupant ≠ none) :
      Placed t i ⟨t.slots.length, 0⟩ ⟨t.slots ++ [⟨0, some i⟩]⟩

/-- The first slot that is free is taken, and a new one if there is none. -/
theorem place_cases (i : Interface) (index : Nat) (slots : List Slot) :
    (∃ k g, slots[k]? = some ⟨g, none⟩ ∧
      place i index slots = (⟨index + k, g⟩, slots.set k ⟨g, some i⟩)) ∨
    (∀ slot ∈ slots, slot.occupant ≠ none) ∧
      place i index slots = (⟨index + slots.length, 0⟩, slots ++ [⟨0, some i⟩]) := by
  induction slots generalizing index with
  | nil => exact .inr ⟨fun _ hslot => absurd hslot List.not_mem_nil, rfl⟩
  | cons slot rest ih =>
    rw [place]
    split
    · rename_i hfree
      obtain ⟨g, occupant⟩ := slot
      obtain rfl : occupant = none := Option.isNone_iff_eq_none.1 hfree
      exact .inl ⟨0, g, rfl, rfl⟩
    · rename_i htaken
      rcases ih (index + 1) with ⟨k, g, hk, hput⟩ | ⟨hfull, hput⟩
      · refine .inl ⟨k + 1, g, hk, ?_⟩
        rw [hput, Nat.add_right_comm, Nat.add_assoc]
        rfl
      · refine .inr ⟨List.forall_mem_cons.2 ⟨?_, hfull⟩, ?_⟩
        · exact fun hnone => htaken (Option.isNone_iff_eq_none.2 hnone)
        · rw [hput, List.length_cons, Nat.add_right_comm, Nat.add_assoc]
          rfl

theorem placed_insert (t : InterfaceTable) (i : Interface) :
    Placed t i (t.insert i).1 (t.insert i).2 := by
  rcases place_cases i 0 t.slots with ⟨k, g, hk, hput⟩ | ⟨hfull, hput⟩
  · rw [insert, hput, Nat.zero_add]
    exact .reused hk
  · rw [insert, hput, Nat.zero_add]
    exact .added hfull

/-! ## The list of all interfaces -/

theorem mem_entriesFrom_iff {index : Nat} : (id, i) ∈ entriesFrom index slots ↔
    ∃ k, id.index = index + k ∧ slots[k]? = some ⟨id.generation, some i⟩ := by
  obtain ⟨n, g⟩ := id
  constructor
  · intro h
    induction slots generalizing index with
    | nil => cases h
    | cons slot rest ih =>
      obtain ⟨g', occupant⟩ := slot
      rw [entriesFrom, List.mem_append] at h
      rcases h with h | h
      · obtain ⟨i', hi', he⟩ := List.mem_map.1 h
        obtain rfl : occupant = some i' := Option.mem_toList.1 hi'
        cases he
        exact ⟨0, rfl, rfl⟩
      · obtain ⟨k, hk, hslot⟩ := ih h
        exact ⟨k + 1, by rw [hk]; omega, hslot⟩
  · rintro ⟨k, rfl, hslot⟩
    refine mem_entriesFrom (j := ⟨k, g⟩) ?_
    rw [hslot]
    exact if_pos rfl

/-- The list has what the ids find. -/
theorem mem_toList_iff : (id, i) ∈ t.toList ↔ t.get? id = some i := by
  rw [toList, mem_entriesFrom_iff, get?_eq_some_iff]
  constructor
  · rintro ⟨k, hk, hslot⟩
    rwa [hk, Nat.zero_add]
  · exact fun h => ⟨_, (Nat.zero_add _).symm, h⟩

/-- The interfaces are listed in the order of their slots. -/
theorem pairwise_entriesFrom (index : Nat) (slots : List Slot) :
    (entriesFrom index slots).Pairwise fun a b => a.1.index < b.1.index := by
  induction slots generalizing index with
  | nil => exact .nil
  | cons slot rest ih =>
    refine List.pairwise_append.2 ⟨?_, ih _, ?_⟩
    · cases slot.occupant with
      | none => exact .nil
      | some i => exact List.pairwise_singleton ..
    · rintro a ha ⟨id, i⟩ hb
      obtain ⟨i', -, rfl⟩ := List.mem_map.1 ha
      obtain ⟨k, hk, -⟩ := mem_entriesFrom_iff.1 hb
      show index < id.index
      omega

theorem nodup_ids (t : InterfaceTable) : t.ids.Nodup := by
  refine List.pairwise_map.2 ((pairwise_entriesFrom 0 t.slots).imp fun hlt he => ?_)
  rw [he] at hlt
  exact Nat.lt_irrefl _ hlt

theorem length_entriesFrom (index : Nat) (slots : List Slot) :
    (entriesFrom index slots).length = slots.countP (·.occupant.isSome) := by
  induction slots generalizing index with
  | nil => rfl
  | cons slot rest ih =>
    rw [entriesFrom, List.length_append, List.length_map, ih, List.countP_cons, Nat.add_comm]
    cases slot.occupant <;> rfl

/-- There are as many interfaces as slots that are not free. -/
theorem size_eq_countP (t : InterfaceTable) : t.size = t.slots.countP (·.occupant.isSome) :=
  length_entriesFrom 0 t.slots

/-! ## What a call does to the slots -/

/-- The generation of a slot; a slot that there is not yet begins with zero. -/
def generationAt (t : InterfaceTable) (k : Nat) : UInt32 :=
  (t.slots[k]?.map (·.generation)).getD 0

variable {k : Nat} {slot old : Slot}

theorem generationAt_set (h : t.slots[k]? = some old) (slot : Slot) (n : Nat) :
    generationAt ⟨t.slots.set k slot⟩ n = if n = k then slot.generation else t.generationAt n := by
  obtain ⟨hk, -⟩ := List.getElem?_eq_some_iff.1 h
  rw [generationAt, List.getElem?_set]
  by_cases hn : n = k
  · rw [if_pos hn, if_pos hn.symm, if_pos hk]
    rfl
  · rw [if_neg hn, if_neg (Ne.symm hn)]
    rfl

theorem size_set (h : t.slots[k]? = some old) (slot : Slot) :
    size ⟨t.slots.set k slot⟩ + old.occupant.isSome.toNat =
      t.size + slot.occupant.isSome.toNat := by
  obtain ⟨hk, hold⟩ := List.getElem?_eq_some_iff.1 h
  have hpos : old.occupant.isSome = true → 0 < t.slots.countP (·.occupant.isSome) := fun hsome =>
    List.countP_pos_iff.2 ⟨old, List.mem_of_getElem? h, hsome⟩
  rw [size_eq_countP, size_eq_countP, List.countP_set hk, hold]
  cases hsome : old.occupant.isSome <;> cases slot.occupant.isSome <;> simp_all

namespace Placed

theorem generation_eq (h : Placed t i id t') : id.generation = t.generationAt id.index := by
  cases h with
  | reused hfree => simp [generationAt, hfree]
  | added => simp [generationAt]

theorem generationAt_eq (h : Placed t i id t') (n : Nat) :
    t'.generationAt n = t.generationAt n := by
  cases h with
  | reused hfree =>
    rw [generationAt_set hfree]
    split
    · rename_i hn
      simp [generationAt, hn, hfree]
    · rfl
  | added =>
    rcases Nat.lt_trichotomy n t.slots.length with hlt | rfl | hgt
    · simp [generationAt, List.getElem?_append_left hlt]
    · simp [generationAt]
    · have hnone : (t.slots ++ [⟨0, some i⟩])[n]? = none := by
        rw [List.getElem?_eq_none_iff, List.length_append]
        exact hgt
      simp [generationAt, hnone, List.getElem?_eq_none (Nat.le_of_lt hgt)]

theorem index_lt (h : Placed t i id t') :
    id.index < t'.slots.length ∧ t.slots.length ≤ t'.slots.length := by
  cases h with
  | reused hfree =>
    rw [List.length_set]
    exact ⟨(List.getElem?_eq_some_iff.1 hfree).1, Nat.le_refl _⟩
  | added => simp

theorem size_eq (h : Placed t i id t') : t'.size = t.size + 1 := by
  cases h with
  | reused hfree => exact size_set hfree _
  | added => simp [size_eq_countP]

/-- There are more slots than before only if all are taken. -/
theorem length_slots_le (h : Placed t i id t') :
    t'.slots.length ≤ max t.slots.length t'.size := by
  have hsize := h.size_eq
  cases h with
  | reused =>
    rw [List.length_set]
    exact Nat.le_max_left ..
  | added hfull =>
    have hall : t.slots.countP (·.occupant.isSome) = t.slots.length :=
      List.countP_eq_length.2 fun slot hslot => Option.isSome_iff_ne_none.2 (hfull slot hslot)
    rw [size_eq_countP t, hall] at hsize
    rw [hsize, List.length_append]
    exact Nat.le_max_right ..

end Placed

theorem generationAt_modify (t : InterfaceTable) (id : InterfaceId) (f : Interface → Interface)
    (n : Nat) : (t.modify id f).generationAt n = t.generationAt n := by
  have h : ∀ t : InterfaceTable, t.generationAt n = (t.generations[n]?).getD 0 := fun t => by
    rw [generationAt, generations, List.getElem?_map]
  rw [h, h, generations_modify]

theorem size_modify (t : InterfaceTable) (id : InterfaceId) (f : Interface → Interface) :
    (t.modify id f).size = t.size := by
  have hsome : ∀ slot, (changeOccupant id.generation f slot).occupant.isSome =
      slot.occupant.isSome := fun slot => by
    unfold changeOccupant
    split
    · exact Option.isSome_map
    · rfl
  rw [modify, List.modify_eq_set_getElem?]
  cases hslot : t.slots[id.index]? with
  | none => rfl
  | some slot =>
    have hsize := size_set hslot (changeOccupant id.generation f slot)
    rw [hsome] at hsize
    exact Nat.add_right_cancel hsize

/-! ## Calls and records -/

/-- A change of an interface that leaves it meant for the same domain. -/
structure Edit where
  run : Interface → Interface
  policy_run : ∀ i, (run i).policy = i.policy

/-- What a table is asked to do. -/
inductive Call
  | insert (i : Interface)
  | edit (id : InterfaceId) (e : Edit)
  | remove (id : InterfaceId)

/-- What is on record of a call. -/
inductive Record
  | inserted (id : InterfaceId) (i : Interface)
  | edited (id : InterfaceId) (e : Edit)
  | removed (id : InterfaceId) (i : Interface)
  | refused (id : InterfaceId)

/-- The record of a call, and the table after it. -/
def answer (t : InterfaceTable) : Call → Record × InterfaceTable
  | .insert i => (.inserted (t.insert i).1 i, (t.insert i).2)
  | .edit id e => (.edited id e, t.modify id e.run)
  | .remove id =>
    match t.remove? id with
    | some (i, t) => (.removed id i, t)
    | none => (.refused id, t)

/-- The records of the calls on a table that was empty, and the table after them. The latest call
comes first. -/
def after : List Call → List Record × InterfaceTable
  | [] => ([], {})
  | call :: before =>
    let (past, t) := after before
    let (record, t) := t.answer call
    (record :: past, t)

/-! ## What the records say -/

/-- The ids that were given out. -/
def issued : List Record → List InterfaceId :=
  List.filterMap fun
    | .inserted id _ => some id
    | _ => none

/-- The ids whose interfaces were removed. -/
def returned : List Record → List InterfaceId :=
  List.filterMap fun
    | .removed id _ => some id
    | _ => none

/-- How often a slot was vacated. -/
def vacated (past : List Record) (k : Nat) : Nat :=
  (returned past).countP (·.index = k)

/-- **The interface behind an id**: the one that was inserted under it, with the edits since then,
until it is removed. -/
def holder : List Record → InterfaceId → Option Interface
  | [], _ => none
  | .inserted id i :: past, j => if j = id then some i else holder past j
  | .edited id e :: past, j => if j = id then (holder past id).map e.run else holder past j
  | .removed id _ :: past, j => if j = id then none else holder past j
  | .refused _ :: past, j => holder past j

theorem vacated_removed (past : List Record) (id : InterfaceId) (i : Interface) (k : Nat) :
    vacated (.removed id i :: past) k = vacated past k + if k = id.index then 1 else 0 := by
  have hreturned : returned (.removed id i :: past) = id :: returned past := rfl
  rw [vacated, hreturned, List.countP_cons]
  simp [vacated, eq_comm]

/-- How many interfaces there are. -/
def population : List Record → Nat
  | [] => 0
  | .inserted .. :: past => population past + 1
  | .edited .. :: past => population past
  | .removed .. :: past => population past - 1
  | .refused _ :: past => population past

/-- The largest number of interfaces that there were at once. -/
def peak : List Record → Nat
  | [] => 0
  | record :: past => max (population (record :: past)) (peak past)

variable {past : List Record}

/-- An interface stays meant for the domain that it was inserted for. -/
theorem exists_inserted_of_holder (h : holder past id = some i) :
    ∃ first, .inserted id first ∈ past ∧ i.policy = first.policy := by
  have htail : ∀ {record : Record} {past : List Record} {i : Interface},
      (∃ first, .inserted id first ∈ past ∧ i.policy = first.policy) →
        ∃ first, .inserted id first ∈ record :: past ∧ i.policy = first.policy :=
    fun ⟨first, hmem, hpolicy⟩ => ⟨first, List.mem_cons_of_mem _ hmem, hpolicy⟩
  induction past generalizing i with
  | nil => cases h
  | cons record past ih =>
    cases record with
    | inserted id' first =>
      rw [holder] at h
      split at h
      · rename_i hid
        cases h
        exact ⟨i, hid ▸ List.mem_cons_self, rfl⟩
      · exact htail (ih h)
    | edited id' e =>
      rw [holder] at h
      split at h
      · rename_i hid
        obtain ⟨i', hi', rfl⟩ := Option.map_eq_some_iff.1 h
        rw [e.policy_run]
        exact htail (ih (hid ▸ hi'))
      · exact htail (ih h)
    | removed id' i' =>
      rw [holder] at h
      split at h
      · cases h
      · exact htail (ih h)
    | refused => exact htail (ih h)

/-! ## The table agrees with the records -/

/-- **The table agrees with the records**, also if generations have gone around. -/
structure Recorded (past : List Record) (t : InterfaceTable) : Prop where
  holds : ∀ id, t.get? id = holder past id
  generation : ∀ k, t.generationAt k = UInt32.ofNat (vacated past k)
  index_lt : ∀ id ∈ issued past, id.index < t.slots.length
  size_eq : t.size = population past
  slots_le : t.slots.length ≤ peak past

namespace Recorded

theorem inserted (h : Recorded past t) {i : Interface} (hput : Placed t i id t')
    (hview : ∀ j, t'.get? j = if j = id then some i else t.get? j) :
    Recorded (.inserted id i :: past) t' where
  holds j := by rw [hview, h.holds, holder]
  generation k := (hput.generationAt_eq k).trans (h.generation k)
  index_lt := List.forall_mem_cons.2 ⟨hput.index_lt.1, fun j hj =>
    Nat.lt_of_lt_of_le (h.index_lt j hj) hput.index_lt.2⟩
  size_eq := by rw [hput.size_eq, h.size_eq, population]
  slots_le := by
    have hslots := hput.length_slots_le
    have hpeak := h.slots_le
    rw [hput.size_eq, h.size_eq] at hslots
    rw [peak, population]
    omega

theorem edited (h : Recorded past t) (id : InterfaceId) (e : Edit) :
    Recorded (.edited id e :: past) (t.modify id e.run) where
  holds j := by rw [get?_modify, h.holds, h.holds, holder]
  generation k := (generationAt_modify ..).trans (h.generation k)
  index_lt j hj := by
    rw [modify, List.length_modify]
    exact h.index_lt j hj
  size_eq := (size_modify ..).trans h.size_eq
  slots_le := by
    rw [modify, List.length_modify]
    exact Nat.le_trans h.slots_le (Nat.le_max_right ..)

theorem removed (h : Recorded past t) (hremove : t.remove? id = some (i, t')) :
    Recorded (.removed id i :: past) t' := by
  have hview := get?_remove? hremove
  obtain ⟨hslot, rfl⟩ := remove?_eq_some_iff.1 hremove
  constructor
  case holds =>
    intro j
    rw [hview, h.holds, holder]
  case generation =>
    intro k
    have hk := h.generation k
    rw [generationAt_set hslot, vacated_removed]
    split
    · rename_i hkid
      rw [UInt32.ofNat_add, ← hk, hkid, generationAt, hslot]
      rfl
    · exact hk
  case index_lt =>
    intro j hj
    rw [List.length_set]
    exact h.index_lt j hj
  case size_eq =>
    have hsize := size_set hslot ⟨id.generation + 1, none⟩
    rw [population, ← h.size_eq]
    exact Nat.eq_sub_of_add_eq hsize
  case slots_le =>
    rw [List.length_set]
    exact Nat.le_trans h.slots_le (Nat.le_max_right ..)

theorem answer (h : Recorded past t) (call : Call) :
    Recorded ((t.answer call).1 :: past) (t.answer call).2 := by
  cases call with
  | insert i => exact h.inserted (placed_insert t i) (get?_insert t i).2
  | edit id e => exact h.edited id e
  | remove id =>
    rw [InterfaceTable.answer]
    split
    · rename_i hremove
      exact h.removed hremove
    · exact { h with slots_le := Nat.le_trans h.slots_le (Nat.le_max_right ..) }

end Recorded

/-! ## Ids are told apart -/

/-- **No two ids are confused**: an id of a slot is of an earlier generation than the slot, or has
its interface in place. -/
structure Apart (past : List Record) (t : InterfaceTable) : Prop where
  issued : ∀ id ∈ issued past, id.generation.toNat < vacated past id.index ∨
    id.generation.toNat = vacated past id.index ∧ (t.get? id).isSome
  fresh : (InterfaceTable.issued past).Nodup
  alive : ∀ id, (t.get? id).isSome ↔ id ∈ InterfaceTable.issued past ∧ id ∉ returned past
  once : (returned past).Nodup
  returned_subset : returned past ⊆ InterfaceTable.issued past

namespace Apart

/-- **An id that is given out is new.** -/
theorem notMem_issued (h : Apart past t) (hgen : id.generation.toNat = vacated past id.index)
    (hnone : t.get? id = none) : id ∉ InterfaceTable.issued past := by
  intro hid
  rcases h.issued id hid with hlt | ⟨-, hsome⟩
  · omega
  · rw [hnone] at hsome
    cases hsome

theorem inserted (h : Apart past t) (hgen : id.generation.toNat = vacated past id.index)
    (hnew : id ∉ InterfaceTable.issued past)
    (hview : ∀ j, t'.get? j = if j = id then some i else t.get? j) :
    Apart (.inserted id i :: past) t' where
  issued := by
    refine List.forall_mem_cons.2 ⟨.inr ⟨hgen, ?_⟩, fun j hj => ?_⟩
    · rw [hview, if_pos rfl]
      rfl
    · rw [hview, if_neg fun he : j = id => hnew (he ▸ hj)]
      exact h.issued j hj
  fresh := List.nodup_cons.2 ⟨hnew, h.fresh⟩
  alive j := by
    have hreturned : id ∉ returned past := fun hid => hnew (h.returned_subset hid)
    have hissued : InterfaceTable.issued (.inserted id i :: past) =
      id :: InterfaceTable.issued past := rfl
    have hsame : returned (.inserted id i :: past) = returned past := rfl
    rw [hview, hissued, hsame, List.mem_cons]
    split
    · rename_i hj
      simp [hj, hreturned]
    · rename_i hj
      simp [hj, h.alive]
  once := h.once
  returned_subset := fun j hj => List.mem_cons_of_mem _ (h.returned_subset hj)

theorem edited (h : Apart past t) (id : InterfaceId) (e : Edit) :
    Apart (.edited id e :: past) (t.modify id e.run) := by
  have hsome : ∀ j, ((t.modify id e.run).get? j).isSome = (t.get? j).isSome := fun j => by
    rw [get?_modify]
    split
    · rename_i hj
      rw [hj, Option.isSome_map]
    · rfl
  constructor
  case issued =>
    intro j hj
    rw [hsome]
    exact h.issued j hj
  case alive =>
    intro j
    rw [hsome]
    exact h.alive j
  case fresh => exact h.fresh
  case once => exact h.once
  case returned_subset => exact h.returned_subset

theorem removed (h : Apart past t) (hremove : t.remove? id = some (i, t')) :
    Apart (.removed id i :: past) t' := by
  have hview := get?_remove? hremove
  have hlive : (t.get? id).isSome := by
    rw [get?_eq_some_iff.2 (remove?_eq_some_iff.1 hremove).1]
    rfl
  obtain ⟨hid, hstays⟩ := (h.alive id).1 hlive
  have hreturned : returned (.removed id i :: past) = id :: returned past := rfl
  have hissued : InterfaceTable.issued (.removed id i :: past) = InterfaceTable.issued past := rfl
  constructor
  case issued =>
    intro j hj
    rw [vacated_removed, hview]
    split
    · rename_i hindex
      left
      rcases h.issued j hj with hlt | ⟨heq, -⟩ <;> omega
    · rename_i hindex
      rw [if_neg fun he : j = id => hindex (he ▸ rfl)]
      exact h.issued j hj
  case fresh => exact h.fresh
  case alive =>
    intro j
    rw [hview, hreturned, hissued, List.mem_cons]
    split
    · rename_i hj
      simp [hj]
    · rename_i hj
      simp [hj, h.alive]
  case once => exact List.nodup_cons.2 ⟨hstays, h.once⟩
  case returned_subset => exact List.cons_subset.2 ⟨hid, h.returned_subset⟩

theorem answer (h : Apart past t) (hrec : Recorded past t) (call : Call)
    (hbound : ∀ k, vacated past k < UInt32.size) :
    Apart ((t.answer call).1 :: past) (t.answer call).2 := by
  cases call with
  | insert i =>
    obtain ⟨hnone, hview⟩ := get?_insert t i
    have hgen : (t.insert i).1.generation.toNat = vacated past (t.insert i).1.index := by
      rw [(placed_insert t i).generation_eq, hrec.generation, UInt32.toNat_ofNat']
      exact Nat.mod_eq_of_lt (hbound _)
    exact h.inserted hgen (h.notMem_issued hgen hnone) hview
  | edit id e => exact h.edited id e
  | remove id =>
    rw [InterfaceTable.answer]
    split
    · rename_i hremove
      exact h.removed hremove
    · exact { h with }

end Apart

/-! ## All calls -/

theorem recorded_after (calls : List Call) : Recorded (after calls).1 (after calls).2 := by
  induction calls with
  | nil => exact ⟨fun _ => rfl, fun _ => rfl, nofun, rfl, Nat.le_refl _⟩
  | cons call before ih => exact ih.answer call

/-- A slot is vacated once more by a call, or not. -/
theorem vacated_le_cons (record : Record) (past : List Record) (k : Nat) :
    vacated past k ≤ vacated (record :: past) k := by
  cases record with
  | removed id i =>
    rw [vacated_removed]
    exact Nat.le_add_right ..
  | inserted | edited | refused => exact Nat.le_refl _

theorem apart_after {calls : List Call} (h : ∀ k, vacated (after calls).1 k < UInt32.size) :
    Apart (after calls).1 (after calls).2 := by
  induction calls with
  | nil => exact ⟨nofun, .nil, fun _ => by simp [after, get?, issued], .nil, nofun⟩
  | cons call before ih =>
    have hbefore : ∀ k, vacated (after before).1 k < UInt32.size := fun k =>
      Nat.lt_of_le_of_lt (vacated_le_cons _ _ k) (h k)
    exact (ih hbefore).answer (recorded_after before) call hbefore

/-- What is said of a table with records of all its calls. -/
structure Faithful (past : List Record) (t : InterfaceTable) : Prop where
  /-- Every id that an insert returned was different from those before. -/
  fresh : (issued past).Nodup
  /-- An id finds an interface if it was issued and not returned, and then the very one, in the
  domain that it was inserted for. -/
  alive : ∀ id, (t.get? id).isSome ↔ id ∈ issued past ∧ id ∉ returned past
  holds : ∀ id, t.get? id = holder past id
  policy : ∀ id i, t.get? id = some i →
    ∃ first, .inserted id first ∈ past ∧ i.policy = first.policy
  /-- A change reaches the interface that the id finds, and nothing if it finds none. -/
  changes : ∀ id j f, (t.modify id f).get? j = if j = id then (t.get? id).map f else t.get? j
  changes_none : ∀ id f, t.get? id = none → t.modify id f = t
  /-- Removing succeeds for the ids that find an interface, and for each of them once. -/
  removes : ∀ id, (t.remove? id).map Prod.fst = t.get? id
  once : (returned past).Nodup
  /-- Every interface is listed once, under its id. -/
  lists : ∀ id i, (id, i) ∈ t.toList ↔ t.get? id = some i
  nodup_ids : t.ids.Nodup
  /-- A free slot is used again, so there are as many slots as there were interfaces at once. -/
  places : ∀ i, Placed t i (t.insert i).1 (t.insert i).2
  size_eq : t.size = population past
  slots_le : t.slots.length ≤ peak past
  index_lt : ∀ id ∈ issued past, id.index < t.slots.length

/-- **Ids are never confused.**  After any calls on a table that was empty, as long as no slot was
vacated 2³² times, the table agrees with the records of the calls: no id was issued twice, each id
finds the interface that it was issued for and can be returned once, the list has every interface
once, and there are never more slots than there were interfaces at once. -/
theorem faithful_after {calls : List Call} (h : ∀ k, vacated (after calls).1 k < UInt32.size) :
    Faithful (after calls).1 (after calls).2 := by
  have hrec := recorded_after calls
  have hapart := apart_after h
  constructor
  case fresh => exact hapart.fresh
  case alive => exact hapart.alive
  case holds => exact hrec.holds
  case policy =>
    intro id i hi
    rw [hrec.holds] at hi
    exact exists_inserted_of_holder hi
  case changes => exact get?_modify _
  case changes_none =>
    intro id f hnone
    refine ext_get? (generations_modify ..) fun j => ?_
    rw [get?_modify, hnone]
    split
    · rename_i hj
      exact (hj ▸ hnone).symm
    · rfl
  case removes =>
    intro id
    rw [remove?, Option.map_map]
    exact Option.map_id' ..
  case once => exact hapart.once
  case lists => exact fun _ _ => mem_toList_iff
  case nodup_ids => exact InterfaceTable.nodup_ids _
  case places => exact placed_insert _
  case size_eq => exact hrec.size_eq
  case slots_le => exact hrec.slots_le
  case index_lt => exact hrec.index_lt

/-- An interface comes, goes, and another one takes its slot. -/
def reuse : List Call := [
  .insert ⟨"guest", none, none, 0, 0⟩,
  .remove ⟨0, 0⟩,
  .insert ⟨"intern", none, none, 0, 0⟩]

/-- A slot that is used again: the guest's interface gets the place of the first one, not its id. -/
theorem faithful_after_reuse : (∀ k, vacated (after reuse).1 k < UInt32.size) ∧
    (after reuse).2.get? ⟨0, 0⟩ = none ∧
    (after reuse).2.get? ⟨0, 1⟩ = some ⟨"guest", none, none, 0, 0⟩ := by
  have hfew : ∀ k, vacated (after reuse).1 k < UInt32.size := fun k =>
    Nat.lt_of_le_of_lt List.countP_le_length (by decide)
  have hfaithful := faithful_after hfew
  refine ⟨hfew, ?_, ?_⟩
  · rw [hfaithful.holds]
    rfl
  · rw [hfaithful.holds]
    rfl

end SegmentRouter.InterfaceTable
