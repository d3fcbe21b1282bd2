import SegmentRouter.Link.Opening

/-!
# Proofs/Link/Closing — what a link has seen of a TCP connection

The packets that go over a link, from the one that opened it on, are its trail.  A link remembers of
its trail when the last packet came, whether the connection is over, and until then which sides have
no more to send.  A reset is remembered alone, without the end of what its sender had to send, which
then no longer matters: the connection is over (`Link.Knows.observe`).
-/

namespace SegmentRouter

/-- **A packet goes over a link**, from the side on which it arrived. -/
structure Crossing where
  link : Nat
  side : Side
  flow : PacketFlow
  time : Nat
deriving DecidableEq, Repr

namespace Crossing

variable {trail : List Crossing} {c : Crossing}

/-- The packet breaks its connection off. -/
def Resets (c : Crossing) : Prop :=
  ∃ flags, c.flow.tcpFlags = some flags ∧ flags.rst = true

/-- The packet says that a side has no more to send. -/
def Finishes (c : Crossing) (side : Side) : Prop :=
  c.side = side ∧ ∃ flags, c.flow.tcpFlags = some flags ∧ flags.fin = true

/-- A side has no more to send. -/
def Finished (trail : List Crossing) (side : Side) : Prop :=
  ∃ c ∈ trail, c.Finishes side

/-- **A connection is over** once it was broken off, or both sides have no more to send. -/
def Over (trail : List Crossing) : Prop :=
  (∃ c ∈ trail, c.Resets) ∨ Finished trail .client ∧ Finished trail .server

theorem finished_append {more : List Crossing} {side : Side} :
    Finished (trail ++ more) side ↔ Finished trail side ∨ Finished more side := by
  simp only [Finished, List.mem_append, or_and_right, exists_or]

theorem finished_singleton {side : Side} : Finished [c] side ↔ c.Finishes side := by
  simp only [Finished, List.mem_singleton, exists_eq_left]

/-- **What is over stays over.** -/
theorem Over.append (h : Over trail) (more : List Crossing) : Over (trail ++ more) := by
  rcases h with ⟨c, hc, hreset⟩ | ⟨hclient, hserver⟩
  · exact .inl ⟨c, List.mem_append_left _ hc, hreset⟩
  · exact .inr ⟨finished_append.2 (.inl hclient), finished_append.2 (.inl hserver)⟩

end Crossing

namespace Link

open Crossing

variable {link : Link} {trail : List Crossing}

/-- **A link has come about by its trail**: the first packet opened it, and it followed the others. -/
inductive Bears : Link → List Crossing → Prop
  | opened (id : Nat) (client : String) (flow : PacketFlow) (target : LinkTarget)
      (source : LinkSource) (origin : InterfaceId) (now : Nat) :
      Bears (.opened id client flow target source origin now) [⟨id, .client, flow, now⟩]
  | followed {link : Link} {trail : List Crossing} (h : Bears link trail) {side : Side}
      {flow : PacketFlow} (hkey : link.key side = flow.key) (now : Nat) :
      Bears (link.followed side flow now) (trail ++ [⟨link.id, side, flow, now⟩])

/-- Whether the link remembers that a side has no more to send. -/
def finished (link : Link) : Side → Bool
  | .client => link.clientFin
  | .server => link.serverFin

/-- **What a link knows of its trail.** -/
structure Knows (link : Link) (trail : List Crossing) : Prop where
  closing : link.closing = true ↔ Over trail
  finished_of : ∀ side, link.finished side = true → Finished trail side
  /-- Until the connection is broken off the link knows who has no more to send. -/
  finished : (∀ c ∈ trail, ¬ c.Resets) → ∀ side, Finished trail side → link.finished side = true

/-- The link after a packet showed its control bits, if it has any. -/
def observe (link : Link) (side : Side) (tcpFlags : Option Wire.Tcp.Flags) : Link :=
  match tcpFlags with
  | some flags => link.observeTcp side flags
  | none => link

theorem finished_markFin (link : Link) (from_ side : Side) :
    (link.markFin from_).finished side = true ↔ link.finished side = true ∨ from_ = side := by
  cases from_ <;> cases side <;> simp [markFin, finished]

theorem closing_markFin (link : Link) (from_ : Side) :
    (link.markFin from_).closing = link.closing := by
  cases from_ <;> rfl

namespace Knows

/-- A packet that neither breaks off nor ends anything tells nothing. -/
theorem quiet (h : link.Knows trail) {c : Crossing} (hreset : ¬ c.Resets)
    (hfin : ∀ side, ¬ c.Finishes side) : link.Knows (trail ++ [c]) := by
  have hfinished : ∀ side, Finished (trail ++ [c]) side ↔ Finished trail side := fun side => by
    rw [finished_append, finished_singleton]
    exact or_iff_left (hfin side)
  have hresets : (∃ x ∈ trail ++ [c], x.Resets) ↔ ∃ x ∈ trail, x.Resets := by
    simp [or_and_right, exists_or, hreset]
  constructor
  case closing => rw [h.closing, Over, Over, hresets, hfinished, hfinished]
  case finished_of => exact fun side hside => (hfinished side).2 (h.finished_of side hside)
  case finished =>
    exact fun hnone side hside => h.finished
      (fun x hx => hnone x (List.mem_append_left _ hx)) side ((hfinished side).1 hside)

/-- A packet that breaks the connection off is all that the link needs to know. -/
theorem broken (h : link.Knows trail) {c : Crossing} (hreset : c.Resets) :
    ({ link with closing := true } : Link).Knows (trail ++ [c]) := by
  have hc : c ∈ trail ++ [c] := List.mem_append_right _ List.mem_cons_self
  constructor
  case closing => exact iff_of_true rfl (.inl ⟨c, hc, hreset⟩)
  case finished_of =>
    intro side hside
    have hold : link.finished side = true := by cases side <;> exact hside
    exact finished_append.2 (.inl (h.finished_of side hold))
  case finished => exact fun hnone => absurd hreset (hnone c hc)

/-- A side that has no more to send is remembered, and when both have not the connection is over. -/
theorem ended (h : link.Knows trail) {c : Crossing} (hkept : ¬ c.Resets)
    (hfin : ∀ side, c.Finishes side ↔ c.side = side) :
    ({ link.markFin c.side with
      closing := (link.markFin c.side).closing ||
        ((link.markFin c.side).clientFin && (link.markFin c.side).serverFin) } : Link).Knows
      (trail ++ [c]) := by
  have hmark := link.finished_markFin c.side
  have hmore : ∀ side, Finished (trail ++ [c]) side ↔ Finished trail side ∨ c.side = side :=
    fun side => by rw [finished_append, finished_singleton, hfin]
  have hof : ∀ side, (link.markFin c.side).finished side = true → Finished (trail ++ [c]) side :=
    fun side hside => (hmore side).2 (((hmark side).1 hside).imp_left (h.finished_of side))
  have hto (hnone : ∀ x ∈ trail, ¬ x.Resets) : ∀ side, Finished (trail ++ [c]) side →
      (link.markFin c.side).finished side = true := fun side hside =>
    (hmark side).2 (((hmore side).1 hside).imp_left (h.finished hnone side))
  constructor
  case closing =>
    simp only [Bool.or_eq_true, Bool.and_eq_true, closing_markFin, h.closing]
    constructor
    · rintro (hover | ⟨hclient, hserver⟩)
      · exact hover.append [c]
      · exact .inr ⟨hof .client hclient, hof .server hserver⟩
    · intro hover
      by_cases hbroken : ∃ x ∈ trail, x.Resets
      · exact .inl (.inl hbroken)
      · have hnone : ∀ x ∈ trail, ¬ x.Resets := fun x hx hreset => hbroken ⟨x, hx, hreset⟩
        rcases hover with ⟨x, hx, hreset⟩ | ⟨hclient, hserver⟩
        · rcases List.mem_append.1 hx with hx | hx
          · exact absurd hreset (hnone x hx)
          · exact absurd (List.mem_singleton.1 hx ▸ hreset) hkept
        · exact .inr ⟨hto hnone .client hclient, hto hnone .server hserver⟩
  case finished_of => exact fun side hside => hof side (by cases side <;> exact hside)
  case finished =>
    intro hnone side hside
    have hside := hto (fun x hx => hnone x (List.mem_append_left _ hx)) side hside
    cases side <;> exact hside

/-- **A link keeps to its trail.** -/
theorem observe (h : link.Knows trail) (c : Crossing) :
    (link.observe c.side c.flow.tcpFlags).Knows (trail ++ [c]) := by
  have hreset : c.Resets ↔ ∃ flags, c.flow.tcpFlags = some flags ∧ flags.rst = true := .rfl
  have hfin : ∀ side, c.Finishes side ↔
      c.side = side ∧ ∃ flags, c.flow.tcpFlags = some flags ∧ flags.fin = true := fun _ => .rfl
  cases hflags : c.flow.tcpFlags with
  | none =>
    simp only [hflags, reduceCtorEq, false_and, exists_false, and_false] at hreset hfin
    exact h.quiet hreset.1 fun side => (hfin side).1
  | some flags =>
    simp only [hflags, Option.some.injEq, exists_eq_left'] at hreset hfin
    rw [Link.observe, observeTcp]
    split
    · rename_i hrst
      exact h.broken (hreset.2 hrst)
    · rename_i hrst
      have hkept : ¬ c.Resets := fun hbroken => hrst (hreset.1 hbroken)
      split
      · rename_i hends
        exact h.ended hkept fun side => (hfin side).trans (and_iff_left hends)
      · rename_i hends
        exact h.quiet hkept fun side hside => hends ((hfin side).1 hside).2

end Knows

/-! ## Links and their trails -/

theorem followed_eq (link : Link) (side : Side) (flow : PacketFlow) (now : Nat) :
    link.followed side flow now = (link.touch now).observe side flow.tcpFlags := by
  unfold followed observe
  cases flow.tcpFlags <;> rfl

/-- A packet that goes over a link shows in what the link remembers of the connection. -/
theorem exists_observe_eq (link : Link) (side : Side) (tcpFlags : Option Wire.Tcp.Flags) :
    ∃ clientFin serverFin closing,
      link.observe side tcpFlags = { link with clientFin, serverFin, closing } := by
  cases tcpFlags with
  | none => exact ⟨_, _, _, rfl⟩
  | some flags =>
    rw [observe, observeTcp]
    split
    · exact ⟨_, _, _, rfl⟩
    · split
      · cases side <;> exact ⟨_, _, _, rfl⟩
      · exact ⟨_, _, _, rfl⟩

theorem lastActivity_observe (link : Link) (side : Side) (tcpFlags : Option Wire.Tcp.Flags) :
    (link.observe side tcpFlags).lastActivity = link.lastActivity := by
  obtain ⟨clientFin, serverFin, closing, h⟩ := link.exists_observe_eq side tcpFlags
  rw [h]

theorem key_observe (link : Link) (side : Side) (tcpFlags : Option Wire.Tcp.Flags) :
    (link.observe side tcpFlags).key = link.key := by
  obtain ⟨clientFin, serverFin, closing, h⟩ := link.exists_observe_eq side tcpFlags
  rw [h]
  exact funext fun s => by cases s <;> rfl

theorem lastActivity_opened (id : Nat) (client : String) (flow : PacketFlow) (target : LinkTarget)
    (source : LinkSource) (origin : InterfaceId) (now : Nat) :
    (opened id client flow target source origin now).lastActivity = now :=
  lastActivity_observe _ .client flow.tcpFlags

theorem key_opened (id : Nat) (client : String) (flow : PacketFlow) (target : LinkTarget)
    (source : LinkSource) (origin : InterfaceId) (now : Nat) :
    (opened id client flow target source origin now).key .client = flow.key :=
  congrFun (key_observe _ .client flow.tcpFlags) .client

theorem key_followed (link : Link) (side : Side) (flow : PacketFlow) (now : Nat) :
    (link.followed side flow now).key = link.key := by
  rw [followed_eq, key_observe]
  exact funext fun s => by cases s <;> rfl

namespace Bears

/-- **A link knows of its trail whether the connection is over.** -/
theorem knows (h : link.Bears trail) : link.Knows trail := by
  induction h with
  | opened id client flow target source origin now =>
    have hfresh : ∀ link : Link, link.closing = false → (∀ side, link.finished side = false) →
        link.Knows [] := fun link hopen hnone =>
      ⟨by simp [hopen, Over, Finished], fun side => by simp [hnone], fun _ side => by
        simp [Finished]⟩
    refine Knows.observe (c := ⟨id, .client, flow, now⟩) (hfresh _ ?_ ?_)
    · rfl
    · exact fun side => by cases side <;> rfl
  | @followed link trail _ side flow _ now ih =>
    rw [followed_eq]
    refine Knows.observe (c := ⟨link.id, side, flow, now⟩) ?_
    exact ⟨ih.closing, fun side hside => ih.finished_of side (by cases side <;> exact hside),
      fun hnone side hside => by cases side <;> exact ih.finished hnone _ hside⟩

/-- **A link knows when the last packet went over it.** -/
theorem lastActivity_eq (h : link.Bears trail) :
    trail.getLast?.map (·.time) = some link.lastActivity := by
  cases h with
  | opened => exact congrArg some (lastActivity_opened ..).symm
  | followed h hkey now =>
    rw [followed_eq, lastActivity_observe, List.getLast?_concat]
    rfl

/-- The packets of a trail belong to the link. -/
theorem key_eq (h : link.Bears trail) : ∀ c ∈ trail, link.key c.side = c.flow.key := by
  induction h with
  | opened =>
    intro c hc
    obtain rfl := List.mem_singleton.1 hc
    exact key_opened ..
  | @followed link trail _ side flow hkey now ih =>
    intro c hc
    rw [key_followed]
    rcases List.mem_append.1 hc with hc | hc
    · exact ih c hc
    · obtain rfl := List.mem_singleton.1 hc
      exact hkey

/-- The packet that opened a link came from the client. -/
theorem side_head (h : link.Bears trail) : trail.head?.map (·.side) = some .client := by
  induction h with
  | opened => rfl
  | followed _ _ _ ih =>
    obtain ⟨c, hc, hside⟩ := Option.map_eq_some_iff.1 ih
    rw [List.head?_append, hc]
    exact congrArg some hside

end Bears

end Link

end SegmentRouter
