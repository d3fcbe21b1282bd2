import Mathlib.Logic.Function.Basic
import SegmentRouter.Proofs.Arp.Ledger
import SegmentRouter.Proofs.Port.Words

/-!
# Proofs/Port/Sharing — a pool that several shares take ports of

A pool is called directly or through one of any number of shares.  Who holds which port is kept in a
book from the calls and their answers alone (`book`).  After any calls the pool stands for the ports
of the book, and each share has used at most what it may.  If ports are returned by those who hold
them, a share has used as many as it holds (`refines_book`).
-/

namespace SegmentRouter.Port

/-- A call for a port that the caller does not have. -/
def Call.takes : Call → Bool
  | .alloc | .reserve _ => true
  | .free _ | .isTaken _ => false

theorem Fits.of_room {room : Prop} {held : Finset UInt16} {c : Call} {a : Answer}
    (h : Fits True held c a) (hroom : c.takes = true → room) : Fits room held c a := by
  cases c with
  | alloc =>
    cases a with
    | granted port => exact ⟨hroom rfl, h.2⟩
    | refused => exact .inr (h.resolve_left (not_not.2 trivial))
    | reserved | freed | taken => cases h
  | reserve port =>
    cases a with
    | reserved => exact ⟨hroom rfl, h.2⟩
    | refused => exact .inr (h.resolve_left (not_not.2 trivial))
    | granted | freed | taken => cases h
  | free | isTaken => cases a <;> exact h

theorem Fits.refused {room : Prop} {held : Finset UInt16} {c : Call} (htakes : c.takes = true)
    (hroom : ¬ room) : Fits room held c .refused := by
  cases c with
  | alloc | reserve => exact .inl hroom
  | free | isTaken => cases htakes

/-! ## One share -/

namespace Quota

variable {quota : Quota} {pool : Pool}

/-- The number of ports that a share counts after an answered call. -/
def usedAfter (quota : Quota) (pool : Pool) (c : Call) (a : Answer) : Nat :=
  match c with
  | .alloc | .reserve _ => if a = .refused then quota.used else quota.used + 1
  | .free port => if pool.isTaken port then quota.used - 1 else quota.used
  | .isTaken _ => quota.used

/-- A share counts no more than it may, if it takes a port only when it has room. -/
theorem usedAfter_le {c : Call} {a : Answer} (h : quota.used ≤ quota.max)
    (hroom : c.takes = true → quota.used < quota.max) : quota.usedAfter pool c a ≤ quota.max := by
  cases c with
  | alloc | reserve =>
    rw [usedAfter]
    split
    · exact h
    · exact hroom rfl
  | free port =>
    rw [usedAfter]
    split
    · exact (Nat.sub_le ..).trans h
    · exact h
  | isTaken => exact h

/-- **A share answers as the pool does**, unless it is exhausted, and counts. -/
theorem respond_eq (quota : Quota) (pool : Pool) (c : Call) : quota.respond pool c =
    if c.takes = true ∧ quota.max ≤ quota.used then (.refused, quota, pool)
    else ((pool.respond c).1, quota.counting (quota.usedAfter pool c (pool.respond c).1),
      (pool.respond c).2) := by
  cases c with
  | alloc =>
    by_cases hfull : quota.max ≤ quota.used
    · simp [respond, alloc?, hfull, granted, Call.takes]
    · cases halloc : pool.alloc? <;>
        simp [respond, alloc?, hfull, granted, Pool.respond, halloc, usedAfter, counting]
  | reserve port =>
    by_cases hfull : quota.max ≤ quota.used
    · simp [respond, reserve?, hfull, reserved, Call.takes]
    · cases hreserve : pool.reserve? port <;>
        simp [respond, reserve?, hfull, reserved, Pool.respond, hreserve, usedAfter, counting]
  | free port =>
    by_cases htaken : pool.isTaken port = true
    · simp [respond, free, htaken, Call.takes, Pool.respond, usedAfter, counting]
    · simp [respond, free, htaken, Call.takes, Pool.respond, usedAfter, counting,
        Pool.free_of_not_isTaken]
  | isTaken port => simp [respond, Call.takes, Pool.respond, usedAfter, counting]

end Quota

/-! ## The book of who holds what -/

variable {ι : Type} {who : Option ι} {c : Call} {a : Answer} {port : UInt16}

/-- The calls that were made directly or through shares, with the answers. -/
abbrev Events (ι : Type) := List ((Option ι × Call) × Answer)

/-- The ports that are held, and for each of them who holds it. -/
structure Book (ι : Type) where
  held : Finset UInt16
  holder : UInt16 → Option ι

namespace Book

/-- The book with a port held. -/
def take (book : Book ι) (port : UInt16) (who : Option ι) : Book ι where
  held := insert port book.held
  holder := Function.update book.holder port who

/-- The book with a port held by nobody. -/
def free (book : Book ι) (port : UInt16) : Book ι :=
  { book with held := book.held.erase port }

/-- The book with an answered call entered. -/
def enter (book : Book ι) : (Option ι × Call) × Answer → Book ι
  | ((who, .alloc), .granted port) => book.take port who
  | ((who, .reserve port), .reserved) => book.take port who
  | ((_, .free port), _) => book.free port
  | _ => book

theorem held_enter (book : Book ι) (who : Option ι) (c : Call) (a : Answer) :
    (book.enter ((who, c), a)).held = heldAfter book.held c a := by
  cases c with
  | alloc | reserve | isTaken => cases a <;> rfl
  | free => rfl

end Book

/-- **The book after any calls.** -/
def book (events : Events ι) : Book ι :=
  events.foldl Book.enter { held := ∅, holder := fun _ => none }

/-- **Ports are returned by those who hold them**: a share frees the ports that it took, and those
that were taken directly are freed directly. -/
def ReturnedByHolder (events : Events ι) : Prop :=
  ∀ n who port a, events[n]? = some ((who, .free port), a) →
    port ∈ (book (events.take n)).held → (book (events.take n)).holder port = who

variable {b : Book ι} {events : Events ι} {e : (Option ι × Call) × Answer} {i : ι}

theorem book_concat (events : Events ι) (e : (Option ι × Call) × Answer) :
    book (events ++ [e]) = (book events).enter e := by
  rw [book, List.foldl_append, List.foldl_cons, List.foldl_nil, book]

theorem ReturnedByHolder.of_concat (h : ReturnedByHolder (events ++ [e])) :
    ReturnedByHolder events := by
  intro n who port a hn
  obtain ⟨hlt, -⟩ := List.getElem?_eq_some_iff.1 hn
  have htake : (events ++ [e]).take n = events.take n :=
    List.take_append_of_le_length (Nat.le_of_lt hlt)
  have hreturned := h n who port a (by rwa [List.getElem?_append_left hlt])
  rwa [htake] at hreturned

theorem ReturnedByHolder.holder_eq (h : ReturnedByHolder (events ++ [((who, .free port), a)]))
    (hheld : port ∈ (book events).held) : (book events).holder port = who := by
  have hreturned := h events.length who port a List.getElem?_concat_length
  rw [List.take_left] at hreturned
  exact hreturned hheld

variable [DecidableEq ι]

namespace Book

/-- The ports that a share holds. -/
def heldBy (book : Book ι) (i : ι) : Finset UInt16 :=
  book.held.filter fun port => book.holder port = some i

theorem heldBy_subset (b : Book ι) (i : ι) : b.heldBy i ⊆ b.held :=
  Finset.filter_subset ..

theorem heldBy_take (hnew : port ∉ b.held) (who : Option ι) (i : ι) :
    (b.take port who).heldBy i =
      if who = some i then insert port (b.heldBy i) else b.heldBy i := by
  have hothers : b.held.filter (fun q => Function.update b.holder port who q = some i) =
      b.heldBy i := by
    refine Finset.filter_congr fun q hq => ?_
    rw [Function.update_of_ne (ne_of_mem_of_not_mem hq hnew)]
  rw [heldBy, take, Finset.filter_insert, hothers]
  simp only [Function.update_self]

/-- A port that is taken counts for the caller. -/
theorem card_heldBy_take (hnew : port ∉ b.held) (who : Option ι) (i : ι) :
    ((b.take port who).heldBy i).card = (b.heldBy i).card + if who = some i then 1 else 0 := by
  rw [heldBy_take hnew]
  split
  · exact Finset.card_insert_of_notMem fun hin => hnew (b.heldBy_subset i hin)
  · rfl

theorem heldBy_free (b : Book ι) (port : UInt16) (i : ι) :
    (b.free port).heldBy i = (b.heldBy i).erase port :=
  Finset.filter_erase ..

/-- A port that is freed no longer counts for its holder. -/
theorem card_heldBy_free (hheld : port ∈ b.held) (i : ι) : ((b.free port).heldBy i).card =
    (b.heldBy i).card - if b.holder port = some i then 1 else 0 := by
  have hin : port ∈ b.heldBy i ↔ b.holder port = some i := by
    rw [heldBy, Finset.mem_filter, and_iff_right hheld]
  rw [heldBy_free, Finset.card_erase_eq_ite]
  by_cases hholder : b.holder port = some i
  · rw [if_pos (hin.2 hholder), if_pos hholder]
  · rw [if_neg (mt hin.1 hholder), if_neg hholder]
    rfl

end Book

/-! ## Many shares -/

/-- A pool and the shares in it. -/
@[ext]
structure Shares (ι : Type) where
  pool : Pool
  quotas : ι → Quota

variable {max : ι → Nat} {limit : Nat} {s : Shares ι} {held : Finset UInt16}

namespace Shares

/-- An empty pool and shares of which nothing is used. -/
def fresh (max : ι → Nat) : Shares ι where
  pool := {}
  quotas i := { max := max i }

/-- The answer to a call that is made directly or through a share, and pool and shares after it. -/
def respond (s : Shares ι) : Option ι × Call → Answer × Shares ι
  | (none, c) => (s.pool.respond c).map id fun pool => { s with pool }
  | (some i, c) => ((s.quotas i).respond s.pool c).map id fun (quota, pool) =>
      { pool, quotas := Function.update s.quotas i quota }

/-- `respond` within words. -/
def respondWithin (limit : Nat) (s : Shares ι) : Option ι × Call → Option (Answer × Shares ι)
  | (none, c) => (s.pool.respondWithin limit c).map (·.map id fun pool => { s with pool })
  | (some i, c) => ((s.quotas i).respondWithin limit s.pool c).map (·.map id fun (quota, pool) =>
      { pool, quotas := Function.update s.quotas i quota })

/-- Whoever calls directly has no bound; a share has room for a port as long as it is not
exhausted. -/
def HasRoom (s : Shares ι) : Option ι → Prop
  | none => True
  | some i => (s.quotas i).used < (s.quotas i).max

theorem respondWithin_eq (hlimit : 65535 ≤ limit) (h : s.pool.Represents held)
    (hmax : ∀ i, (s.quotas i).max ≤ limit) (who : Option ι) (c : Call) :
    s.respondWithin limit (who, c) = some (s.respond (who, c)) := by
  cases who with
  | none => rw [respondWithin, Pool.respondWithin_eq hlimit h]; rfl
  | some i => rw [respondWithin, Quota.respondWithin_eq hlimit h (hmax i)]; rfl

/-- **An exhausted share refuses a call for a port; otherwise the pool answers**, and the share of
the caller counts. -/
theorem respond_cases (s : Shares ι) (who : Option ι) (c : Call) :
    (c.takes = true ∧ ¬ s.HasRoom who ∧ s.respond (who, c) = (.refused, s)) ∨
      (c.takes = true → s.HasRoom who) ∧ (s.respond (who, c)).1 = (s.pool.respond c).1 ∧
        (s.respond (who, c)).2.pool = (s.pool.respond c).2 ∧
        ∀ i, (s.respond (who, c)).2.quotas i = if who = some i then
          (s.quotas i).counting ((s.quotas i).usedAfter s.pool c (s.pool.respond c).1)
        else s.quotas i := by
  cases who with
  | none => exact .inr ⟨fun _ => trivial, rfl, rfl, fun i => rfl⟩
  | some j =>
    by_cases hfull : c.takes = true ∧ (s.quotas j).max ≤ (s.quotas j).used
    · refine .inl ⟨hfull.1, Nat.not_lt.2 hfull.2, ?_⟩
      rw [respond, Quota.respond_eq, if_pos hfull]
      simp
    · refine .inr ⟨fun htakes => Nat.not_le.1 fun hle => hfull ⟨htakes, hle⟩, ?_⟩
      rw [respond, Quota.respond_eq, if_neg hfull]
      refine ⟨rfl, rfl, fun i => ?_⟩
      by_cases hij : j = i
      · simp [hij]
      · simp [hij, Ne.symm hij]

/-- **Pool and shares do what the set does that the pool stands for.** -/
theorem respond_fits (h : s.pool.Represents held) (who : Option ι) (c : Call) :
    Fits (s.HasRoom who) held c (s.respond (who, c)).1 ∧
      (s.respond (who, c)).2.pool.Represents (heldAfter held c (s.respond (who, c)).1) := by
  rcases s.respond_cases who c with ⟨htakes, hroom, hrefused⟩ | ⟨hroom, hanswer, hpool, -⟩
  · rw [hrefused]
    refine ⟨.refused htakes hroom, ?_⟩
    cases c with
    | alloc | reserve => exact h
    | free | isTaken => cases htakes
  · obtain ⟨hfits, hafter⟩ := h.respond c
    rw [hanswer, hpool]
    exact ⟨hfits.of_room hroom, hafter⟩

/-- **A call that is refused leaves pool and shares as they were.** -/
theorem respond_of_refused (h : (s.respond (who, c)).1 = .refused) :
    (s.respond (who, c)).2 = s := by
  rcases s.respond_cases who c with ⟨-, -, hrefused⟩ | ⟨-, hanswer, hpool, hquotas⟩
  · rw [hrefused]
  · rw [h] at hanswer
    refine Shares.ext (hpool.trans (Pool.respond_of_refused hanswer.symm)) (funext fun i => ?_)
    rw [hquotas, ← hanswer]
    cases c with
    | alloc | reserve => exact ite_self ..
    | free | isTaken => cases hanswer

/-- **To free a port that nobody holds does nothing.** -/
theorem respond_free_of_not_isTaken (h : ¬ s.pool.isTaken port = true) :
    (s.respond (who, .free port)).2 = s := by
  rcases s.respond_cases who (.free port) with ⟨htakes, -⟩ | ⟨-, -, hpool, hquotas⟩
  · cases htakes
  · refine Shares.ext (hpool.trans (Pool.free_of_not_isTaken h)) (funext fun i => ?_)
    rw [hquotas, Quota.usedAfter, if_neg h]
    exact ite_self ..

theorem max_respond (s : Shares ι) (who : Option ι) (c : Call) (i : ι) :
    ((s.respond (who, c)).2.quotas i).max = (s.quotas i).max := by
  rcases s.respond_cases who c with ⟨-, -, hrefused⟩ | ⟨-, -, -, hquotas⟩
  · rw [hrefused]
  · rw [hquotas]
    split <;> rfl

/-- **A share does not use more than it may.** -/
theorem used_respond_le {i : ι} (h : (s.quotas i).used ≤ (s.quotas i).max) :
    ((s.respond (who, c)).2.quotas i).used ≤ ((s.respond (who, c)).2.quotas i).max := by
  rcases s.respond_cases who c with ⟨-, -, hrefused⟩ | ⟨hroom, -, -, hquotas⟩
  · rw [hrefused]
    exact h
  · rw [hquotas]
    split
    · rename_i hwho
      subst hwho
      exact Quota.usedAfter_le h hroom
    · exact h

end Shares

/-! ## Pool, shares and book agree -/

namespace Shares

/-- **A share counts its ports through a call**, if a port that is freed is one of the caller's. -/
theorem used_eq_card_enter (h : s.pool.Represents b.held)
    (hused : (s.quotas i).used = (b.heldBy i).card)
    (hholder : ∀ port, c = .free port → port ∈ b.held → b.holder port = who) :
    ((s.respond (who, c)).2.quotas i).used =
      ((b.enter ((who, c), (s.respond (who, c)).1)).heldBy i).card := by
  rcases s.respond_cases who c with ⟨htakes, -, hrefused⟩ | ⟨-, hanswer, -, hquotas⟩
  · rw [hrefused]
    cases c with
    | alloc | reserve => exact hused
    | free | isTaken => cases htakes
  · obtain ⟨hfits, -⟩ := h.respond c
    have hused' : ((s.respond (who, c)).2.quotas i).used = if who = some i then
        (s.quotas i).usedAfter s.pool c (s.pool.respond c).1 else (s.quotas i).used := by
      rw [hquotas]
      exact apply_ite Quota.used ..
    rw [hused', hanswer]
    generalize (s.pool.respond c).1 = a at hfits
    cases c with
    | alloc =>
      cases a with
      | granted port =>
        rw [Book.enter, Book.card_heldBy_take hfits.2.2, ← hused]
        split <;> rfl
      | refused => exact (ite_self _).trans hused
      | reserved | freed | taken => cases hfits
    | reserve port =>
      cases a with
      | reserved =>
        rw [Book.enter, Book.card_heldBy_take hfits.2.2, ← hused]
        split <;> rfl
      | refused => exact (ite_self _).trans hused
      | granted | freed | taken => cases hfits
    | free port =>
      by_cases htaken : s.pool.isTaken port = true
      · have hheld := (h.isTaken port).1 htaken
        rw [Book.enter, Book.card_heldBy_free hheld, hholder port rfl hheld, ← hused,
          Quota.usedAfter, if_pos htaken]
        split <;> rfl
      · have hfree : port ∉ b.heldBy i := fun hin =>
          htaken ((h.isTaken port).2 (b.heldBy_subset i hin))
        rw [Book.enter, Book.heldBy_free, Finset.erase_eq_of_notMem hfree, Quota.usedAfter,
          if_neg htaken, ite_self]
        exact hused
    | isTaken port => exact (ite_self _).trans hused

theorem represents_of_transcript (h : Transcript respond (fresh max) events s) :
    s.pool.Represents (book events).held := by
  induction h with
  | nil => exact Pool.represents_empty
  | @snoc events s h c ih =>
    obtain ⟨who, c⟩ := c
    rw [book_concat, Book.held_enter]
    exact (respond_fits ih who c).2

theorem max_of_transcript (h : Transcript respond (fresh max) events s) (i : ι) :
    (s.quotas i).max = max i := by
  induction h with
  | nil => rfl
  | @snoc events s h c ih => exact (s.max_respond c.1 c.2 i).trans ih

theorem used_le_of_transcript (h : Transcript respond (fresh max) events s) (i : ι) :
    (s.quotas i).used ≤ (s.quotas i).max := by
  induction h with
  | nil => exact Nat.zero_le _
  | @snoc events s h c ih => exact used_respond_le ih

theorem used_eq_card_of_transcript (h : Transcript respond (fresh max) events s)
    (hreturned : ReturnedByHolder events) (i : ι) :
    (s.quotas i).used = ((book events).heldBy i).card := by
  induction h with
  | nil => rfl
  | @snoc events s h c ih =>
    obtain ⟨who, c⟩ := c
    rw [book_concat]
    refine used_eq_card_enter (represents_of_transcript h) (ih hreturned.of_concat) ?_
    rintro port rfl hheld
    exact hreturned.holder_eq hheld

/-- **A pool that is called directly and through any shares does what a set of ports does.**  After
any calls it stands for the ports that the book says are held, and no share has used more than it
may.  Each call is answered within words and as the set would answer it, and does to the pool what it
does to the set; one that is refused changes nothing, neither does it to free a port that nobody
holds.  A share has used as many ports as it holds, if ports are returned by their holders. -/
theorem refines_book (hlimit : 65535 ≤ limit) (hmax : ∀ i, max i ≤ limit)
    (h : Transcript respond (fresh max) events s) :
    s.pool.Represents (book events).held ∧
      (∀ i, (s.quotas i).max = max i ∧ (s.quotas i).used ≤ max i) ∧
      (∀ who c, s.respondWithin limit (who, c) = some (s.respond (who, c)) ∧
        Fits (s.HasRoom who) (book events).held c (s.respond (who, c)).1 ∧
        (s.respond (who, c)).2.pool.Represents
          (heldAfter (book events).held c (s.respond (who, c)).1) ∧
        ((s.respond (who, c)).1 = .refused → (s.respond (who, c)).2 = s) ∧
        ∀ port, c = .free port → port ∉ (book events).held → (s.respond (who, c)).2 = s) ∧
      (ReturnedByHolder events → ∀ i, (s.quotas i).used = ((book events).heldBy i).card) := by
  have hrepresents := represents_of_transcript h
  have hbound := max_of_transcript h
  refine ⟨hrepresents, fun i => ⟨hbound i, ?_⟩, fun who c => ?_, used_eq_card_of_transcript h⟩
  · rw [← hbound]
    exact used_le_of_transcript h i
  · obtain ⟨hfits, hafter⟩ := respond_fits hrepresents who c
    refine ⟨respondWithin_eq hlimit hrepresents (fun i => ?_) who c, hfits, hafter,
      respond_of_refused, ?_⟩
    · rw [hbound]
      exact hmax i
    · rintro port rfl hfree
      exact respond_free_of_not_isTaken (mt (hrepresents.isTaken port).1 hfree)

/-- Two shares of one port each: the first is granted 49152, the second cannot reserve that port, and
the first gives it back. -/
theorem refines_book_twoShares :
    ∃ (events : Events (Fin 2)) (s : Shares (Fin 2)),
      Transcript respond (fresh fun _ => 1) events s ∧
        events.map (·.2) = [.granted 49152, .refused, .freed] ∧ s.pool.Represents ∅ ∧
        (∀ i, (s.quotas i).used ≤ 1) ∧
        s.respondWithin 65535 (some 1, .alloc) = some (s.respond (some 1, .alloc)) ∧
        (s.quotas 0).used = ((book events).heldBy 0).card := by
  have h : Transcript respond (fresh fun _ : Fin 2 => 1) _ _ :=
    ((Transcript.nil.snoc (some 0, .alloc)).snoc (some 1, .reserve 49152)).snoc (some 0, .free 49152)
  obtain ⟨hrepresents, hused, hanswers, hcount⟩ :=
    refines_book (Nat.le_refl 65535) (fun _ => by decide) h
  refine ⟨_, _, h, by decide, ?_, fun i => (hused i).2, (hanswers _ _).1, hcount ?_ 0⟩
  · exact hrepresents
  · intro n who port a hn
    match n with
    | 0 | 1 => cases hn
    | 2 =>
      cases hn
      intro
      decide
    | n + 3 => cases hn

end Shares

end SegmentRouter.Port
