/-!
# SortedMap — finite maps listed in key order

A table of the router is shown in the order of its keys: addresses ascending, names ascending,
flows by protocol and address. `SortedMap κ α` is the list of its entries in strictly ascending key
order, so two maps with the same look-ups are the same map (`SortedMap.ext_get?`) and no operation
has to say in which order it visits the entries.

The view of a map is `get?`; each operation has one equation through it (`get?_insert`,
`get?_erase`, `get?_filter`, `get?_mapValues`).
-/

namespace SegmentRouter

/-- A type of keys with a strict total order that a program can test. -/
class SortKey (κ : Type) where
  /-- Whether the first key is listed before the second. -/
  before : κ → κ → Bool
  irrefl : ∀ a, before a a = false
  trans : ∀ {a b c}, before a b = true → before b c = true → before a c = true
  total : ∀ a b, before a b = true ∨ a = b ∨ before b a = true

namespace SortKey

/-- Keys ordered by a number that tells them apart. -/
@[reducible] def ofRank {κ : Type} (rank : κ → Nat) (inj : ∀ a b, rank a = rank b → a = b) :
    SortKey κ where
  before a b := decide (rank a < rank b)
  irrefl a := by simp
  trans h₁ h₂ := by simp only [decide_eq_true_eq] at *; omega
  total a b := by
    simp only [decide_eq_true_eq]
    rcases Nat.lt_trichotomy (rank a) (rank b) with h | h | h
    · exact .inl h
    · exact .inr (.inl (inj a b h))
    · exact .inr (.inr h)

theorem asymm {κ : Type} [SortKey κ] {a b : κ} (h : before a b = true) : before b a = false := by
  cases hb : before b a with
  | false => rfl
  | true =>
    have := trans h hb
    rw [irrefl] at this
    exact this.symm

theorem ne_of_before {κ : Type} [SortKey κ] {a b : κ} (h : before a b = true) : a ≠ b := by
  rintro rfl
  rw [irrefl] at h
  exact Bool.noConfusion h

theorem eq_of_not_before {κ : Type} [SortKey κ] {a b : κ} (h₁ : ¬ before a b = true)
    (h₂ : ¬ before b a = true) : a = b :=
  ((total a b).resolve_left h₁).resolve_right h₂

end SortKey

instance : SortKey Nat := SortKey.ofRank id fun _ _ h => h

instance : SortKey UInt8 := SortKey.ofRank UInt8.toNat fun _ _ h => UInt8.toNat_inj.1 h

instance : SortKey UInt16 := SortKey.ofRank UInt16.toNat fun _ _ h => UInt16.toNat_inj.1 h

/-- Names are ordered by the code points of their characters. -/
instance : SortKey String where
  before a b := decide (a < b)
  irrefl a := by simp
  trans h₁ h₂ := by
    simp only [decide_eq_true_eq] at *
    exact String.lt_trans h₁ h₂
  total a b := by
    simp only [decide_eq_true_eq]
    by_cases h : a < b
    · exact .inl h
    by_cases h' : b < a
    · exact .inr (.inr h')
    · exact .inr (.inl (String.le_antisymm (String.not_lt.1 h') (String.not_lt.1 h)))

open SortKey (before)

/-- Entries in strictly ascending key order. -/
structure SortedMap (κ α : Type) [SortKey κ] where
  toList : List (κ × α)
  sorted : toList.Pairwise fun a b => before a.1 b.1 = true

namespace SortedMap

variable {κ α β : Type} [SortKey κ]

instance [DecidableEq κ] [DecidableEq α] : DecidableEq (SortedMap κ α) := fun m n =>
  if h : m.toList = n.toList then
    isTrue (by cases m; cases n; cases h; rfl)
  else
    isFalse fun e => h (congrArg toList e)

/-! ## Look-up -/

/-- The value at `k` in a list sorted by key; the search ends at the first larger key. -/
def find? (k : κ) : List (κ × α) → Option α
  | [] => none
  | (x, a) :: rest =>
    if before k x then none else if before x k then find? k rest else some a

/-- The value stored at a key. -/
def get? (m : SortedMap κ α) (k : κ) : Option α :=
  find? k m.toList

/-- Whether a key has a value. -/
def contains (m : SortedMap κ α) (k : κ) : Bool :=
  (m.get? k).isSome

/-- The number of entries. -/
def size (m : SortedMap κ α) : Nat :=
  m.toList.length

/-- Whether there is no entry. -/
def isEmpty (m : SortedMap κ α) : Bool :=
  m.toList.isEmpty

/-- The keys in ascending order. -/
def keys (m : SortedMap κ α) : List κ :=
  m.toList.map (·.1)

/-- The values in the order of their keys. -/
def values (m : SortedMap κ α) : List α :=
  m.toList.map (·.2)

/-- In a sorted list a key's value is found exactly where its entry stands. -/
theorem find?_eq_some_iff {k : κ} {a : α} : ∀ {l : List (κ × α)},
    l.Pairwise (fun a b => before a.1 b.1 = true) → (find? k l = some a ↔ (k, a) ∈ l)
  | [], _ => by simp [find?]
  | (x, b) :: rest, h => by
    obtain ⟨hx, hrest⟩ := List.pairwise_cons.1 h
    rw [find?]
    split
    · rename_i hk
      simp only [reduceCtorEq, List.mem_cons, Prod.mk.injEq, false_iff, not_or, not_and]
      refine ⟨fun e => absurd e (SortKey.ne_of_before hk), fun hm => ?_⟩
      have := SortKey.trans hk (hx _ hm)
      rw [SortKey.irrefl] at this
      exact Bool.noConfusion this
    · rename_i hk
      split
      · rename_i hxk
        rw [find?_eq_some_iff hrest]
        simp [(SortKey.ne_of_before hxk).symm]
      · rename_i hxk
        have hkx : k = x := SortKey.eq_of_not_before hk hxk
        subst hkx
        simp only [Option.some.injEq, List.mem_cons, Prod.mk.injEq, true_and]
        refine ⟨fun e => .inl e.symm, fun e => ?_⟩
        rcases e with e | hm
        · exact e.symm
        · exact absurd (hx _ hm) (by simp [SortKey.irrefl])

theorem get?_eq_some_iff {m : SortedMap κ α} {k : κ} {a : α} :
    m.get? k = some a ↔ (k, a) ∈ m.toList :=
  find?_eq_some_iff m.sorted

theorem mem_values_iff {m : SortedMap κ α} {a : α} : a ∈ m.values ↔ ∃ k, m.get? k = some a := by
  simp [values, get?_eq_some_iff]

theorem mem_keys_iff {m : SortedMap κ α} {k : κ} : k ∈ m.keys ↔ ∃ a, m.get? k = some a := by
  simp [keys, get?_eq_some_iff]

/-- **A map is its look-ups** — there is one sorted list for each set of entries. -/
theorem ext_get? {m n : SortedMap κ α} (h : ∀ k, m.get? k = n.get? k) : m = n := by
  have hmem : ∀ e, e ∈ m.toList ↔ e ∈ n.toList := fun ⟨k, a⟩ => by
    rw [← get?_eq_some_iff, ← get?_eq_some_iff, h]
  have key : ∀ (l r : List (κ × α)), l.Pairwise (fun a b => before a.1 b.1 = true) →
      r.Pairwise (fun a b => before a.1 b.1 = true) → (∀ e, e ∈ l ↔ e ∈ r) → l = r := by
    intro l
    induction l with
    | nil =>
      intro r _ _ hr
      cases r with
      | nil => rfl
      | cons e r => exact absurd ((hr e).2 (by simp)) (by simp)
    | cons e l ih =>
      intro r hl hr hmem
      cases r with
      | nil => exact absurd ((hmem e).1 (by simp)) (by simp)
      | cons e' r =>
        obtain ⟨hel, hl'⟩ := List.pairwise_cons.1 hl
        obtain ⟨her, hr'⟩ := List.pairwise_cons.1 hr
        have irr : ∀ x : κ × α, ¬ before x.1 x.1 = true := fun x => by simp [SortKey.irrefl]
        have heq : e = e' := by
          rcases List.mem_cons.1 ((hmem e).1 (by simp)) with h | h
          · exact h
          rcases List.mem_cons.1 ((hmem e').2 (by simp)) with h' | h'
          · exact h'.symm
          · exact absurd (SortKey.trans (her e h) (hel e' h')) (irr e')
        subst heq
        refine congrArg (e :: ·) (ih r hl' hr' fun x => ⟨fun hx => ?_, fun hx => ?_⟩)
        · rcases List.mem_cons.1 ((hmem x).1 (List.mem_cons_of_mem _ hx)) with h | h
          · exact absurd (h ▸ hel x hx) (irr _)
          · exact h
        · rcases List.mem_cons.1 ((hmem x).2 (List.mem_cons_of_mem _ hx)) with h | h
          · exact absurd (h ▸ her x hx) (irr _)
          · exact h
  have := key m.toList n.toList m.sorted n.sorted hmem
  cases m; cases n; cases this; rfl

/-! ## Operations -/

/-- The map with no entry. -/
def empty : SortedMap κ α :=
  ⟨[], .nil⟩

instance : EmptyCollection (SortedMap κ α) := ⟨empty⟩

instance : Inhabited (SortedMap κ α) := ⟨empty⟩

@[simp] theorem get?_empty (k : κ) : (∅ : SortedMap κ α).get? k = none := rfl

/-- The sorted list with `a` at `k`. -/
def place (k : κ) (a : α) : List (κ × α) → List (κ × α)
  | [] => [(k, a)]
  | (x, b) :: rest =>
    if before k x then (k, a) :: (x, b) :: rest
    else if before x k then (x, b) :: place k a rest
    else (k, a) :: rest

theorem fst_mem_place {k : κ} {a : α} {e : κ × α} : ∀ {l : List (κ × α)},
    e ∈ place k a l → e = (k, a) ∨ e ∈ l
  | [], h => by simp only [place, List.mem_singleton] at h; exact .inl h
  | (x, b) :: rest, h => by
    rw [place] at h
    split at h
    · rcases List.mem_cons.1 h with h | h
      · exact .inl h
      · exact .inr h
    · split at h
      · rcases List.mem_cons.1 h with h | h
        · exact .inr (h ▸ List.mem_cons_self)
        · exact (fst_mem_place h).imp_right (List.mem_cons_of_mem _)
      · rcases List.mem_cons.1 h with h | h
        · exact .inl h
        · exact .inr (List.mem_cons_of_mem _ h)

theorem sorted_place {k : κ} {a : α} : ∀ {l : List (κ × α)},
    l.Pairwise (fun a b => before a.1 b.1 = true) →
      (place k a l).Pairwise fun a b => before a.1 b.1 = true
  | [], _ => by simp [place]
  | (x, b) :: rest, h => by
    obtain ⟨hx, hrest⟩ := List.pairwise_cons.1 h
    rw [place]
    split
    · rename_i hk
      refine List.pairwise_cons.2 ⟨fun e he => ?_, h⟩
      rcases List.mem_cons.1 he with rfl | he
      · exact hk
      · exact SortKey.trans hk (hx e he)
    · rename_i hk
      split
      · rename_i hxk
        refine List.pairwise_cons.2 ⟨fun e he => ?_, sorted_place hrest⟩
        rcases fst_mem_place he with rfl | he
        · exact hxk
        · exact hx e he
      · rename_i hxk
        have hkx : k = x := SortKey.eq_of_not_before hk hxk
        subst hkx
        exact List.pairwise_cons.2 ⟨hx, hrest⟩

theorem find?_place {k j : κ} {a : α} [DecidableEq κ] : ∀ {l : List (κ × α)},
    l.Pairwise (fun a b => before a.1 b.1 = true) →
      find? j (place k a l) = if j = k then some a else find? j l
  | [], _ => by
    rw [place, find?, find?]
    by_cases h : j = k
    · subst h; simp [SortKey.irrefl]
    · rw [if_neg h]
      split
      · rfl
      · split
        · rfl
        · exact absurd (SortKey.eq_of_not_before ‹_› ‹_›) h
  | (x, b) :: rest, h => by
    obtain ⟨hx, hrest⟩ := List.pairwise_cons.1 h
    rw [place]
    by_cases hj : j = k
    · subst hj
      rw [if_pos rfl]
      split
      · simp [find?, SortKey.irrefl]
      · rename_i hk
        split
        · rename_i hxk
          rw [find?, if_neg hk, if_pos hxk, find?_place hrest, if_pos rfl]
        · simp [find?, SortKey.irrefl]
    · rw [if_neg hj]
      split
      · rename_i hk
        rw [find?]
        split
        · rename_i hjk
          rw [find?, if_pos (SortKey.trans hjk hk)]
        · rename_i hjk
          split
          · rfl
          · rename_i hkj
            exact absurd (SortKey.eq_of_not_before hjk hkj) hj
      · split
        · rw [find?, find?_place hrest, if_neg hj, find?]
        · rename_i hk hxk
          have hkx : k = x := SortKey.eq_of_not_before hk hxk
          subst hkx
          rw [find?, find?]
          split
          · rfl
          · rename_i hjk
            split
            · rfl
            · rename_i hkj
              exact absurd (SortKey.eq_of_not_before hjk hkj) hj

/-- The map with `a` at `k`, in place of any earlier value. -/
def insert (m : SortedMap κ α) (k : κ) (a : α) : SortedMap κ α :=
  ⟨place k a m.toList, sorted_place m.sorted⟩

@[simp] theorem get?_insert [DecidableEq κ] (m : SortedMap κ α) (k j : κ) (a : α) :
    (m.insert k a).get? j = if j = k then some a else m.get? j :=
  find?_place m.sorted

/-- The map with only the entries that a test accepts. -/
def filter (p : κ → α → Bool) (m : SortedMap κ α) : SortedMap κ α :=
  ⟨m.toList.filter fun e => p e.1 e.2, m.sorted.filter _⟩

@[simp] theorem get?_filter (p : κ → α → Bool) (m : SortedMap κ α) (k : κ) :
    (m.filter p).get? k = (m.get? k).filter (p k) := by
  refine Option.ext fun a => ?_
  rw [get?_eq_some_iff, Option.filter_eq_some_iff, get?_eq_some_iff]
  simp [filter]

/-- The map without the entry of a key. -/
def erase (m : SortedMap κ α) (k : κ) : SortedMap κ α :=
  m.filter fun x _ => before x k || before k x

@[simp] theorem get?_erase [DecidableEq κ] (m : SortedMap κ α) (k j : κ) :
    (m.erase k).get? j = if j = k then none else m.get? j := by
  rw [erase, get?_filter]
  by_cases h : j = k
  · subst h
    rw [if_pos rfl]
    cases m.get? j <;> simp [SortKey.irrefl]
  · rw [if_neg h]
    have : (before j k || before k j) = true := by
      rcases SortKey.total j k with h' | h' | h'
      · simp [h']
      · exact absurd h' h
      · simp [h']
    cases m.get? j <;> simp [this]

/-- The map with each value replaced through a function of its key and itself. -/
def mapValues (f : κ → α → β) (m : SortedMap κ α) : SortedMap κ β :=
  ⟨m.toList.map fun e => (e.1, f e.1 e.2), List.pairwise_map.2 m.sorted⟩

@[simp] theorem get?_mapValues (f : κ → α → β) (m : SortedMap κ α) (k : κ) :
    (m.mapValues f).get? k = (m.get? k).map (f k) := by
  refine Option.ext fun b => ?_
  rw [get?_eq_some_iff, Option.map_eq_some_iff]
  simp only [mapValues, List.mem_map, Prod.mk.injEq, Prod.exists, get?_eq_some_iff]
  constructor
  · rintro ⟨x, a, hm, rfl, rfl⟩
    exact ⟨a, hm, rfl⟩
  · rintro ⟨a, hm, rfl⟩
    exact ⟨k, a, hm, rfl, rfl⟩

/-- The map with the value at a key changed, if it has one. -/
def modify (m : SortedMap κ α) (k : κ) (f : α → α) : SortedMap κ α :=
  match m.get? k with
  | some a => m.insert k (f a)
  | none => m

@[simp] theorem get?_modify [DecidableEq κ] (m : SortedMap κ α) (k j : κ) (f : α → α) :
    (m.modify k f).get? j = if j = k then (m.get? j).map f else m.get? j := by
  unfold modify
  by_cases h : j = k
  · subst h
    cases hm : m.get? j <;> simp [hm]
  · cases hm : m.get? k <;> simp [h]

/-- The map of a list of entries; of two entries with one key the later counts. -/
def ofList (l : List (κ × α)) : SortedMap κ α :=
  l.foldl (fun m e => m.insert e.1 e.2) ∅

end SortedMap

/-! ## Sets -/

/-- A finite set, as a map to the one-element type. -/
abbrev SortedSet (κ : Type) [SortKey κ] := SortedMap κ Unit

end SegmentRouter
