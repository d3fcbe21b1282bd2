import SegmentRouter.Proofs.Link.Closing
import SegmentRouter.Proofs.Router.Persistence

/-!
# Proofs/Router/Crossings — the packets that go over a link

Of the frames that are handled, some carry a packet that a link sends on: it belongs to the link, or
opens it, and does not stall (`Router.crossing?`).  The packets that went over the link with an id,
in this order, are its trail.  Ids are given to links in turn, so a link that is new has no trail but
the packet that opens it; every other packet that goes over a link adds to the trail what it adds to
the link, and nothing else that happens changes either (`History.bears`).
-/

namespace SegmentRouter

open Wire.Ipv4 (Packet)

namespace DomainTree

variable {tree : DomainTree} {owner : String} {id : Nat} {link l : Link}

/-- A change of one link shows at this link only. -/
theorem Sound.mem_changeLink (h : tree.Sound) (hlink : tree.ownedLink? owner id = some link)
    {f : Link → Link} (hf : ∀ l, (f l).core = l.core)
    (hl : l ∈ (tree.update owner (Domain.changeLink id f)).liveLinks) :
    l = f link ∨ l ∈ tree.liveLinks ∧ l.id ≠ id := by
  have hsound : (tree.update owner (Domain.changeLink id f)).Sound :=
    h.of_core (core_update fun d _ => Domain.core_changeLink id f hf d)
  have hown := hsound.ownedLink?_of_mem hl
  rw [ownedLink?_update (f := Domain.changeLink id f) fun _ hd => hd] at hown
  obtain ⟨hm, rfl, rfl⟩ := h.ownedLink?_eq_some.1 hlink
  split at hown
  · rename_i howner
    obtain ⟨d, hd, hget⟩ := Option.bind_eq_some_iff.1 hown
    rw [Domain.changeLink, LinkTable.change, SortedMap.get?_modify] at hget
    split at hget
    · rename_i hid
      rw [ownedLink?, hd, Option.bind_some] at hlink
      rw [hid, hlink, Option.map_some] at hget
      exact .inl (Option.some.inj hget).symm
    · rename_i hid
      have hold : tree.ownedLink? link.client.domain l.id = some l := by
        rw [ownedLink?, hd]
        exact hget
      exact .inr ⟨(h.ownedLink?_eq_some.1 hold).1, hid⟩
  · rename_i howner
    have hold := (h.ownedLink?_eq_some.1 hown).1
    exact .inr ⟨hold, fun hid => howner (h.eq_of_id hold hm hid ▸ rfl)⟩

end DomainTree

namespace Router

variable {r r' : Router} {frame : Waiter} {id : DomainId} {d : Domain} {f : Wire.Ethernet.Frame}
  {p packet : Packet} {name client : String} {dst : Ipv4Addr} {flow : PacketFlow} {ref : LinkRef}
  {target : LinkTarget} {verdict : Verdict}

/-! ## Packets that do not stall -/

theorem router_follow_of_goesOn {link : Link}
    (hlink : r.tree.ownedLink? ref.owner ref.link = some link)
    (h : ¬ r.Stalls frame client (.follow ref flow packet)) :
    (r.follow frame ref flow packet).value.router = r.withTree (r.tree.update ref.owner
      (Domain.changeLink ref.link (·.followed ref.side flow frame.queued))) := by
  have hout : r.wayOut? (.follow ref flow packet) =
      some ((link.egress ref.side).domain, (link.egress ref.side).rewrite.dstIp) := by
    rw [wayOut?, hlink, Option.map_some]
  obtain ⟨d, hop, hd, hroute⟩ := exists_of_not_wayless fun hno => h (.wayless hout hno)
  unfold follow
  rw [hlink]
  dsimp only
  rw [Logged.value_bind, resolve_of_known hd hroute]
  exact router_forward ..

/-- The link that a packet belongs to. -/
theorem Arrives.exists_link_of_follow (ha : r.Arrives frame id d f p) (hgood : r.Good)
    (hverdict : d.verdict p = .follow ref flow packet) : ∃ link ∈ r.tree.liveLinks,
      link.id = ref.link ∧ link.key ref.side = flow.key ∧
      r.tree.ownedLink? ref.owner ref.link = some link := by
  obtain ⟨hby, -⟩ := hgood.byName?_of_domainId? ha.handle ha.domain
  have htransit := d.transit_verdict (p := p) (by rw [hverdict]; trivial)
  generalize d.verdict p = verdict at hverdict htransit
  cases htransit with
  | follow hflow hlookup hq =>
    cases hverdict
    have hindexed : r.tree.lookup? ⟨d.name, flow.key⟩ = some ref := by
      rw [DomainTree.lookup?, hby]
      exact hlookup
    obtain ⟨link, hm, hsits, rfl⟩ := (hgood.sound.index ..).1 hindexed
    have hkey := congrArg Seat.key (Link.seat_side_refAt hsits)
    exact ⟨link, hm, rfl, hkey, hgood.sound.ownedLink?_of_mem hm⟩
  | openLink | denied => cases hverdict
  | @addressed q =>
    rw [Domain.addressVerdict_eq] at hverdict
    cases hpassed : d.passedTo? q.dst <;> rw [hpassed] at hverdict <;> cases hverdict

/-- A packet that is to open a link does, unless it stalls. -/
theorem Arrives.admits_openLink (ha : r.Arrives frame id d f p) (hgood : r.Good)
    (hverdict : d.verdict p = .openLink target flow packet)
    (h : ¬ r.Stalls frame d.name (.openLink target flow packet)) : ∃ tree source,
      r.tree.Admits (.opened r.nextLink d.name flow target source frame.src frame.queued) tree ∧
      (r.openLink frame d.name target flow packet).value.router =
        { r with tree, nextLink := r.nextLink + 1 } := by
  obtain ⟨hby, -⟩ := hgood.byName?_of_domainId? ha.handle ha.domain
  have hwayless : ¬ r.Wayless target.domain target.ip := fun hno => h (.wayless rfl hno)
  obtain ⟨server, hop, hserver, hroute⟩ := exists_of_not_wayless hwayless
  obtain ⟨routerIp, hip⟩ : ∃ routerIp, server.routerIp? = some routerIp := by
    refine Option.ne_none_iff_exists'.1 fun hnone => hwayless (.unconfigured ?_)
    rw [DomainTree.routerIp?, hserver, Option.bind_some, hnone]
  cases hsource : server.linkSource routerIp d.name flow.key with
  | error e => exact absurd (.exhausted hserver hip hsource) h
  | ok found =>
    obtain ⟨source, taken⟩ := found
    cases hins : (r.tree.update target.domain fun _ => taken).insertLink?
        (.opened r.nextLink d.name flow target source frame.src frame.queued) with
    | none =>
      rw [insertLink?_opened_eq_none hgood hserver hsource (by rw [hby]; rfl)] at hins
      obtain ⟨s, hs⟩ := hins
      exact absurd (.seated hserver hip hsource hs) h
    | some tree =>
      refine ⟨tree, source, hgood.admits_opened hserver hsource hby
        (Domain.decision_of_verdict hverdict) hip frame.queued hins, ?_⟩
      unfold openLink
      rw [hserver]
      dsimp only
      rw [hip]
      dsimp only
      unfold openTowards
      rw [Logged.value_bind, resolve_of_known hserver hroute]
      dsimp only
      rw [hsource]
      dsimp only
      rw [router_enter, tree_withTree, hins]
      rfl

/-! ## Telling what stalls -/

/-- The next hop on the way to an address in a domain, if it is known. -/
def knownHop? (r : Router) (name : String) (dst : Ipv4Addr) : Option NextHop :=
  (r.tree.byName? name).bind fun d =>
    match d.route dst with
    | .known hop => some hop
    | .unconfigured | .noGateway | .unresolved _ => none

theorem wayless_iff_knownHop? : r.Wayless name dst ↔ r.knownHop? name dst = none := by
  rw [wayless_iff, knownHop?]
  cases r.tree.byName? name with
  | none => simp
  | some d =>
    have hone : (∀ e hop, some d = some e → e.route dst ≠ .known hop) ↔
        ∀ hop, d.route dst ≠ .known hop :=
      ⟨fun h hop => h d hop rfl, fun h e hop he => Option.some.inj he ▸ h hop⟩
    rw [hone, Option.bind_some]
    cases d.route dst <;> simp

/-- Whether a packet is not sent on by a link that it belongs to or opens. -/
def stalls (r : Router) (frame : Waiter) (client : String) : Verdict → Bool
  | .follow ref _ _ => (r.tree.ownedLink? ref.owner ref.link).any fun link =>
      let out := link.egress ref.side
      (r.knownHop? out.domain out.rewrite.dstIp).isNone
  | .openLink target flow _ => (r.knownHop? target.domain target.ip).isNone ||
      (r.tree.byName? target.domain).any fun server => server.routerIp?.any fun routerIp =>
        match server.linkSource routerIp client flow.key with
        | .error _ => true
        | .ok (source, _) => [Side.client, .server].any fun s => (r.tree.lookup?
            ((Link.opened r.nextLink client flow target source frame.src frame.queued).seat s)).isSome
  | .drop _ | .toDhcpClient _ | .toDhcpServer _ | .echo | .pass .. | .refuse .. => false

theorem stalls_iff : r.stalls frame client verdict = true ↔ r.Stalls frame client verdict := by
  have hnone : ∀ {name dst}, (r.knownHop? name dst).isNone = true ↔ r.Wayless name dst :=
    Option.isNone_iff_eq_none.trans wayless_iff_knownHop?.symm
  constructor
  · intro h
    cases verdict with
    | follow ref flow packet =>
      obtain ⟨link, hlink, hno⟩ := (Option.any_eq_true ..).1 h
      exact .wayless (by rw [wayOut?, hlink, Option.map_some]) (hnone.1 hno)
    | openLink target flow packet =>
      rw [stalls, Bool.or_eq_true] at h
      rcases h with hno | h
      · exact .wayless rfl (hnone.1 hno)
      · obtain ⟨server, hserver, h⟩ := (Option.any_eq_true ..).1 h
        obtain ⟨routerIp, hip, h⟩ := (Option.any_eq_true ..).1 h
        split at h
        · rename_i e hsource
          exact .exhausted hserver hip hsource
        · rename_i source taken hsource
          obtain ⟨s, -, hseat⟩ := List.any_eq_true.1 h
          exact .seated hserver hip hsource hseat
    | drop | toDhcpClient | toDhcpServer | echo | pass | refuse => cases h
  · intro h
    cases h with
    | @wayless _ name dst hout hno =>
      cases verdict with
      | follow ref flow packet =>
        obtain ⟨link, hlink, he⟩ := Option.map_eq_some_iff.1 hout
        cases he
        rw [stalls, hlink]
        exact hnone.2 hno
      | openLink target flow packet =>
        cases hout
        exact Bool.or_eq_true_iff.2 (.inl (hnone.2 hno))
      | drop | toDhcpClient | toDhcpServer | echo | pass | refuse => cases hout
    | exhausted hserver hip hsource =>
      simp [stalls, hserver, hip, hsource]
    | @seated target flow _ server taken routerIp source s hserver hip hsource hseat =>
      have hany : [Side.client, .server].any (fun s => (r.tree.lookup? ((Link.opened r.nextLink
          client flow target source frame.src frame.queued).seat s)).isSome) = true :=
        List.any_eq_true.2 ⟨s, by cases s <;> simp, hseat⟩
      simp only [stalls, hserver, hip, hsource, Option.any_some, hany, Bool.or_true]

instance : Decidable (r.Stalls frame client verdict) :=
  decidable_of_iff _ stalls_iff

/-! ## Trails -/

/-- The domain in which the packet of a frame arrives, and the packet. -/
def arrival? (r : Router) (frame : Waiter) : Option (Domain × Packet) :=
  (r.domainOf? frame.src).bind fun d =>
    match Wire.Ethernet.parse frame.frame with
    | .error _ => none
    | .ok f =>
      if (f.dst = r.config.mac ∨ f.dst.isBroadcast = true) ∧
          Wire.EtherType.ofNumber? f.etherType = some .ipv4 then
        match Wire.Ipv4.parse f.payload with
        | .error _ => none
        | .ok p => if p.headerChecksumValid then some (d, p) else none
      else none

theorem arrival?_eq_some_iff :
    r.arrival? frame = some (d, p) ↔ ∃ id f, r.Arrives frame id d f p := by
  unfold arrival?
  constructor
  · intro h
    obtain ⟨d', hd', h⟩ := Option.bind_eq_some_iff.1 h
    obtain ⟨id, hid, hget⟩ := Option.bind_eq_some_iff.1 hd'
    split at h
    · cases h
    · rename_i f hf
      split at h
      · rename_i hcond
        split at h
        · cases h
        · rename_i p' hp'
          split at h
          · rename_i hintact
            cases h
            exact ⟨id, f, hid, hget, hf, hcond.1, hcond.2, hp', hintact⟩
          · cases h
      · cases h
  · rintro ⟨id, f, ha⟩
    rw [ha.domainOf?_eq, Option.bind_some, ha.ethernet]
    dsimp only
    rw [if_pos ⟨ha.addressed, ha.type⟩, ha.packet]
    dsimp only
    rw [if_pos ha.intact]

/-- **How the packet of a frame goes over a link**, if it does. -/
def crossing? (x : Router × Waiter) : Option Crossing :=
  (x.1.arrival? x.2).bind fun (d, p) =>
    if x.1.Stalls x.2 d.name (d.verdict p) then none
    else match d.verdict p with
      | .follow ref flow _ => some ⟨ref.link, ref.side, flow, x.2.queued⟩
      | .openLink _ flow _ => some ⟨x.1.nextLink, .client, flow, x.2.queued⟩
      | .drop _ | .toDhcpClient _ | .toDhcpServer _ | .echo | .pass .. | .refuse .. => none

/-- How packets go over links while some frames are handled. -/
def crossings (xs : List (Router × Waiter)) : List Crossing :=
  xs.filterMap crossing?

theorem crossings_cons (x : Router × Waiter) (xs : List (Router × Waiter)) :
    crossings (x :: xs) = (crossing? x).toList ++ crossings xs := by
  rw [crossings, List.filterMap_cons]
  cases crossing? x <;> rfl

/-- **What it takes for a packet to go over a link.** -/
inductive GoesOver (r : Router) (frame : Waiter) : Crossing → Prop
  | follows {id : DomainId} {d : Domain} {f : Wire.Ethernet.Frame} {p packet : Packet}
      {ref : LinkRef} {flow : PacketFlow} (ha : r.Arrives frame id d f p)
      (hverdict : d.verdict p = .follow ref flow packet)
      (hgoes : ¬ r.Stalls frame d.name (.follow ref flow packet)) :
      GoesOver r frame ⟨ref.link, ref.side, flow, frame.queued⟩
  | opens {id : DomainId} {d : Domain} {f : Wire.Ethernet.Frame} {p packet : Packet}
      {target : LinkTarget} {flow : PacketFlow} (ha : r.Arrives frame id d f p)
      (hverdict : d.verdict p = .openLink target flow packet)
      (hgoes : ¬ r.Stalls frame d.name (.openLink target flow packet)) :
      GoesOver r frame ⟨r.nextLink, .client, flow, frame.queued⟩

theorem goesOver_of_crossing? {c : Crossing} (h : crossing? (r, frame) = some c) :
    r.GoesOver frame c := by
  obtain ⟨⟨d, p⟩, harrival, h⟩ := Option.bind_eq_some_iff.1 h
  obtain ⟨id, f, ha⟩ := arrival?_eq_some_iff.1 harrival
  dsimp only at h
  split at h
  · cases h
  · rename_i hgoes
    cases hverdict : d.verdict p with
    | follow ref flow packet =>
      rw [hverdict] at h hgoes
      cases h
      exact .follows ha hverdict hgoes
    | openLink target flow packet =>
      rw [hverdict] at h hgoes
      cases h
      exact .opens ha hverdict hgoes
    | drop | toDhcpClient | toDhcpServer | echo | pass | refuse =>
      rw [hverdict] at h
      cases h

/-- **A packet that goes over a link is sent on.** -/
theorem GoesOver.goesOn {c : Crossing} (h : r.GoesOver frame c) (hgood : r.Good) :
    ∃ id d f p, r.Arrives frame id d f p ∧
      r.GoesOn (d.verdict p) (r.process frame).value.sent := by
  cases h with
  | @follows id d f p packet ref flow ha hverdict hgoes =>
    exact ⟨id, d, f, p, ha, ha.goesOn hgood (by rw [hverdict]; trivial) (hverdict ▸ hgoes)⟩
  | @opens id d f p packet target flow ha hverdict hgoes =>
    exact ⟨id, d, f, p, ha, ha.goesOn hgood (by rw [hverdict]; trivial) (hverdict ▸ hgoes)⟩

theorem GoesOver.time_eq {c : Crossing} (h : r.GoesOver frame c) : c.time = frame.queued := by
  cases h <;> rfl

theorem queued_of_mem_handlings {interface : InterfaceId} {bytes : Wire.Bytes} {now : Nat}
    {x : Router × Waiter} (hx : x ∈ r.handlings interface bytes now) : x.2.queued = now := by
  rcases List.mem_cons.1 hx with rfl | hx
  · rfl
  · obtain ⟨-, w, -, hagain⟩ := mem_replays hx
    rw [hagain]

/-- A packet that is to be sent on by a link and goes over none stalls. -/
theorem Arrives.stalls_of_crossing?_eq_none (ha : r.Arrives frame id d f p)
    (hlinked : (d.verdict p).IsLinked) (h : crossing? (r, frame) = none) :
    r.Stalls frame d.name (d.verdict p) := by
  by_contra hgoes
  rw [crossing?, arrival?_eq_some_iff.2 ⟨id, f, ha⟩, Option.bind_some] at h
  dsimp only at h
  rw [if_neg hgoes] at h
  generalize d.verdict p = verdict at h hlinked
  cases verdict with
  | follow | openLink => cases h
  | drop | toDhcpClient | toDhcpServer | echo | pass | refuse => exact hlinked

end Router

/-- What happens to a router one after the other, the latest first. -/
def episodes (r : Router) : List Happening → List Episode
  | [] => []
  | x :: rest => episodes (r.after x) rest ++ [⟨r, x⟩]

/-- How packets went over links. -/
def Episode.crossings (e : Episode) : List Crossing :=
  match e.happening with
  | .event now (.frame interface bytes) =>
    Router.crossings (e.router.handlings interface bytes now)
  | .event _ (.timer _) | .event _ (.reload _) | .attached _ | .detached _ => []

/-- **The trail of a link**: the packets that went over it, the first one first. -/
def trail (past : List Episode) (id : Nat) : List Crossing :=
  (past.reverse.flatMap Episode.crossings).filter (·.link = id)

namespace Router

variable {r r' : Router} {frame : Waiter} {trails : Nat → List Crossing} {past : List Episode}

/-! ## What a trail does to a link -/

/-- The packets that went over each link, after some more went over links. -/
def extend (trails : Nat → List Crossing) (cs : List Crossing) (id : Nat) : List Crossing :=
  trails id ++ cs.filter (·.link = id)

theorem extend_nil (trails : Nat → List Crossing) : extend trails [] = trails :=
  funext fun _ => List.append_nil _

theorem extend_append (trails : Nat → List Crossing) (cs cs' : List Crossing) :
    extend trails (cs ++ cs') = extend (extend trails cs) cs' :=
  funext fun _ => by rw [extend, extend, extend, List.filter_append, List.append_assoc]

theorem extend_self (trails : Nat → List Crossing) (c : Crossing) :
    extend trails [c] c.link = trails c.link ++ [c] := by
  simp [extend]

theorem extend_other {c : Crossing} {id : Nat} (h : c.link ≠ id) :
    extend trails [c] id = trails id := by
  simp [extend, h]

/-- **Every link has come about by its trail**, and the links that are still to come have none. -/
structure Marked (trails : Nat → List Crossing) (r : Router) : Prop where
  bears : ∀ link ∈ r.tree.liveLinks, link.Bears (trails link.id)
  unused : ∀ id, r.nextLink ≤ id → trails id = []

namespace Marked

theorem culls (h : Marked trails r) (hculls : r.Culls r') : Marked trails r' where
  bears link hm := h.bears link (hculls.live hm)
  unused id hid := h.unused id (hculls.nextLink ▸ hid)

/-- **A packet that goes over a link adds to it what it adds to the trail.** -/
theorem goesOver (h : Marked trails r) (hgood : r.Good) {c : Crossing} (hc : r.GoesOver frame c) :
    Marked (extend trails [c]) (r.process frame).value.router := by
  cases hc with
  | @follows id d f p packet ref flow ha hverdict hgoes =>
    obtain ⟨link, hm, hid, hkey, hlink⟩ := ha.exists_link_of_follow hgood hverdict
    rw [ha.process_eq, hverdict]
    change Marked _ (r.follow frame ref flow packet).value.router
    rw [router_follow_of_goesOn hlink hgoes]
    constructor
    · intro l hl
      rcases hgood.sound.mem_changeLink hlink
        (fun l => l.core_followed ref.side flow frame.queued) hl with rfl | ⟨hl, hne⟩
      · have hsame : (link.followed ref.side flow frame.queued).id = ref.link :=
          (congrArg Link.id (link.core_followed ref.side flow frame.queued)).trans hid
        rw [hsame, extend_self, ← hid]
        exact (h.bears link hm).followed hkey frame.queued
      · rw [extend_other (Ne.symm hne)]
        exact h.bears l hl
    · intro id hle
      have hne : ref.link ≠ id := by
        have hlt := hgood.fresh link hm
        have hle : r.nextLink ≤ id := hle
        omega
      rw [extend_other hne]
      exact h.unused id hle
  | @opens id d f p packet target flow ha hverdict hgoes =>
    obtain ⟨tree, source, hadm, hrouter⟩ := ha.admits_openLink hgood hverdict hgoes
    rw [ha.process_eq, hverdict]
    change Marked _ (r.openLink frame d.name target flow packet).value.router
    rw [hrouter]
    constructor
    · intro l hl
      rcases List.mem_cons.1 (hadm.live.mem_iff.1 hl) with rfl | hl
      · rw [Link.id_opened, extend_self, h.unused _ (Nat.le_refl _)]
        exact .opened ..
      · rw [extend_other (Nat.ne_of_gt (hgood.fresh l hl))]
        exact h.bears l hl
    · intro id hle
      have hle : r.nextLink + 1 ≤ id := hle
      rw [extend_other (Nat.ne_of_lt hle)]
      exact h.unused id (Nat.le_of_succ_le hle)

theorem process (h : Marked trails r) (hgood : r.Good) (frame : Waiter) :
    Marked (extend trails (crossing? (r, frame)).toList) (r.process frame).value.router := by
  cases hc : crossing? (r, frame) with
  | some c => exact h.goesOver hgood (goesOver_of_crossing? hc)
  | none =>
    rw [Option.toList_none, extend_nil]
    refine h.culls ?_
    by_cases hlinked : ∃ id d f p, r.Arrives frame id d f p ∧ (d.verdict p).IsLinked
    · obtain ⟨id, d, f, p, ha, hlinked⟩ := hlinked
      exact .of_trace (trace_process hgood
        ⟨id, d, f, p, ha, ha.stalls_of_crossing?_eq_none hlinked hc⟩)
    · exact hgood.culls_process frame fun ha hl => hlinked ⟨_, _, _, _, ha, hl⟩

theorem replay (h : Marked trails r) (hr : r.Arises) (now : Nat) (waiters : List Waiter) :
    Marked (extend trails (crossings (replays now waiters r)))
      (replay now waiters r).value.router := by
  induction waiters generalizing r trails with
  | nil => exact (extend_nil trails).symm ▸ h
  | cons w rest ih =>
    have hrest := ih (h.process hr.good { w with queued := now })
      (hr.moves (r.moves_process { w with queued := now }))
    rw [← extend_append] at hrest
    rw [replays, crossings_cons]
    exact hrest

theorem receive (h : Marked trails r) (hr : r.Arises) (interface : InterfaceId)
    (bytes : Wire.Bytes) (now : Nat) :
    Marked (extend trails (crossings (r.handlings interface bytes now)))
      (r.receive interface bytes now).value.2 := by
  have hcounted := r.culls_countArrival interface bytes.length
  have hr' := hr.moves (r.moves_countArrival interface bytes.length)
  have hfirst := (h.culls hcounted).process hr'.good ⟨interface, bytes, now⟩
  have hothers := hfirst.replay (hr'.moves (Router.moves_process _ ⟨interface, bytes, now⟩)) now
    ((r.countArrival interface bytes.length).process ⟨interface, bytes, now⟩).value.released
  rw [← extend_append] at hothers
  rw [hr.value_receive, handlings, crossings_cons]
  exact hothers.culls (.of_trace (trace_countAllSent ..))

/-- **Whatever happens adds to a link what it adds to the trail**, or ends links at most. -/
theorem after (h : Marked trails r) (hr : r.Arises) (x : Happening) :
    Marked (extend trails (Episode.crossings ⟨r, x⟩)) (r.after x) := by
  have hquiet {x : Happening} (hnone : Episode.crossings ⟨r, x⟩ = [])
      (hculls : r.Culls (r.after x)) :
      Marked (extend trails (Episode.crossings ⟨r, x⟩)) (r.after x) := by
    rw [hnone, extend_nil]
    exact h.culls hculls
  cases x with
  | attached domain => exact hquiet rfl (hr.good.culls_attach domain)
  | detached interface =>
    refine hquiet rfl ?_
    unfold Router.after
    dsimp only
    split
    · rename_i r' hdetached
      exact hr.good.culls_detach hdetached
    · exact .refl r
  | event now event =>
    cases event with
    | frame interface bytes => exact h.receive hr interface bytes now
    | timer kind => exact hquiet rfl (hr.culls_handleTimer now kind)
    | reload config =>
      refine hquiet rfl ?_
      have hculls := hr.good.culls_apply config
      rwa [← r.router_handle_reload now config] at hculls

end Marked

/-! ## Histories -/

theorem trail_cons (e : Episode) (past : List Episode) :
    trail (e :: past) = extend (trail past) e.crossings := by
  funext id
  rw [extend, trail, trail, List.reverse_cons, List.flatMap_append, List.filter_append,
    List.flatMap_singleton]

/-- What happens later follows what happened before. -/
theorem trail_append (later past : List Episode) (id : Nat) :
    trail (later ++ past) id = trail past id ++ trail later id := by
  rw [trail, List.reverse_append, List.flatMap_append, List.filter_append]
  rfl

/-- Every packet of a trail came in a frame that was handled, at this time. -/
theorem exists_goesOver_of_mem_trail {id : Nat} {c : Crossing} (hc : c ∈ trail past id) :
    ∃ e ∈ past, ∃ interface bytes, e.happening = .event c.time (.frame interface bytes) ∧
      ∃ x ∈ e.router.handlings interface bytes c.time, x.1.GoesOver x.2 c := by
  obtain ⟨e, he, hc⟩ := List.mem_flatMap.1 (List.mem_of_mem_filter hc)
  refine ⟨e, List.mem_reverse.1 he, ?_⟩
  obtain ⟨r, happening⟩ := e
  unfold Episode.crossings at hc
  dsimp only at hc
  split at hc
  · rename_i now interface bytes
    obtain ⟨x, hx, hcrossing⟩ := List.mem_filterMap.1 hc
    have hover := goesOver_of_crossing? hcrossing
    have htime := hover.time_eq.trans (queued_of_mem_handlings hx)
    exact ⟨interface, bytes, by rw [htime], x, htime ▸ hx, hover⟩
  all_goals cases hc

theorem marked_empty (xid : UInt32) : Marked (fun _ => []) { nextXid := xid } where
  bears _ hm := (List.not_mem_nil hm).elim
  unused _ _ := rfl

theorem History.marked (h : History past r) : Marked (trail past) r := by
  induction h with
  | @start config xid r hr =>
    rw [start_eq_ok hr]
    exact (marked_empty xid).culls ((good_empty xid).culls_apply config)
  | @next past r h x ih =>
    rw [trail_cons]
    exact ih.after h.reachable.arises x

/-- **Every link has come about by its trail.** -/
theorem History.bears (h : History past r) {link : Link} (hm : link ∈ r.tree.liveLinks) :
    link.Bears (trail past link.id) :=
  h.marked.bears link hm

/-- A history goes on. -/
theorem History.extends (h : History past r) (xs : List Happening) :
    History (episodes r xs ++ past) (xs.foldl after r) := by
  induction xs generalizing past r with
  | nil => exact h
  | cons x rest ih =>
    rw [episodes, List.append_assoc]
    exact ih (h.next x)

end Router

end SegmentRouter
