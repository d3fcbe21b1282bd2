import SegmentRouter.Proofs.Router.Crossings
import SegmentRouter.Proofs.Tree.Removal

/-!
# Proofs/Router/Teardown — when TCP links close and end

A TCP link is closing once the connection of which its trail is the record is over, and stays so,
for a trail only grows (`History.teardown`).  The clock of a link starts anew with every packet that
goes over it and with no other one, so what a packet that waits for a next hop says is heard, and
its time counts, only when the packet is sent on.
-/

namespace SegmentRouter.Router

section

variable {r : Router} {past : List Episode} {link : Link}

/-- A closing link does not open again. -/
theorem History.closing_later (h : History past r) (hm : link ∈ r.tree.liveLinks)
    (xs : List Happening) {later : Link} (hlater : later ∈ (xs.foldl after r).tree.liveLinks)
    (hid : later.id = link.id) (hclosing : link.closing = true) : later.closing = true := by
  have hmore := h.extends xs
  have hover := (h.bears hm).knows.closing.1 hclosing
  refine (hmore.bears hlater).knows.closing.2 ?_
  rw [hid, trail_append]
  exact hover.append _

/-- How long a TCP link may be without traffic. -/
theorem limit_tcp (htcp : link.protocol = .tcp) (t : Config.Timeouts) :
    link.limit (.ofConfig t) =
      Config.seconds (if link.closing then t.tcpClosingSec else t.tcpIdleSec) := by
  rw [Link.limit, htcp, apply_ite Config.seconds]
  rfl

/-- **Aging ends the links that had no traffic for as long as they may**, and leaves the others as
they are. -/
theorem Good.ownedLink?_aged (h : r.Good) (hm : link ∈ r.tree.liveLinks) (now : Nat) :
    (r.handle now (.timer .linkAging)).value.2.tree.ownedLink? link.client.domain link.id =
      if link.limit (.ofConfig r.config.timeouts) ≤ now - link.lastActivity then none
      else some link := by
  have hloses := (h.sound.clears_ageLinks now (.ofConfig r.config.timeouts)).removes.loses
  refine (hloses.owned link.client.domain link.id).trans ?_
  rw [h.sound.ownedLink?_of_mem hm, Option.filter_some]
  simp only [decide_not, Bool.not_eq_true', decide_eq_false_iff_not, ite_not]

/-- **The end of a TCP connection is told exactly.**  The packets that went over a TCP link, whatever
else happened to the router, came in frames that were handled when one arrived; they are packets of
the link's flow on the side on which each arrived, the first one from the client.  The link is
closing exactly when one of them was a reset, or each side sent one with which it ended; a closing
link is closing as long as there is a link with its id, whatever happens, new configurations
included.  When links age it ends exactly if the last of the packets was so long ago as the
configuration lets a TCP link wait, closing or not, and otherwise stays as it is. -/
theorem History.teardown (h : History past r) (hm : link ∈ r.tree.liveLinks)
    (htcp : link.protocol = .tcp) :
    (∀ c ∈ trail past link.id, link.key c.side = c.flow.key ∧
      ∃ e ∈ past, ∃ interface bytes, e.happening = .event c.time (.frame interface bytes) ∧
        ∃ x ∈ e.router.handlings interface bytes c.time, x.1.GoesOver x.2 c) ∧
    (trail past link.id).head?.map (·.side) = some .client ∧
    (link.closing = true ↔ Crossing.Over (trail past link.id)) ∧
    (∀ (xs : List Happening), ∀ later ∈ (xs.foldl after r).tree.liveLinks, later.id = link.id →
      link.closing = true → later.closing = true) ∧
    ∃ last, (trail past link.id).getLast? = some last ∧ ∀ now,
      (r.handle now (.timer .linkAging)).value.2.tree.ownedLink? link.client.domain link.id =
        if Config.seconds (if link.closing then r.config.timeouts.tcpClosingSec
          else r.config.timeouts.tcpIdleSec) ≤ now - last.time then none else some link := by
  have hbears := h.bears hm
  obtain ⟨last, hlast, htime⟩ := Option.map_eq_some_iff.1 hbears.lastActivity_eq
  refine ⟨fun c hc => ⟨hbears.key_eq c hc, exists_goesOver_of_mem_trail hc⟩, hbears.side_head,
    hbears.knows.closing, fun xs later hlater => h.closing_later hm xs hlater,
    last, hlast, fun now => ?_⟩
  rw [h.reachable.good.ownedLink?_aged hm, limit_tcp htcp, htime]

end

/-! ## A connection that both sides end -/

namespace Hangup

theorem prefixLength_le : 24 ≤ 32 := by
  decide

/-- Two domains, of which the first may open TCP connections to hosts of the second. -/
def config : Config :=
  let lan : Cidr := ⟨.ofOctets 10 0 0 1, 24, prefixLength_le⟩
  let wan : Cidr := ⟨.ofOctets 10 0 1 1, 24, prefixLength_le⟩
  { domains := [
      { name := "lan", interface := some lan
        tcp := [{ dst := wan, permit := [{ ports := "80", domain := "wan" }] }] },
      { name := "wan", interface := some wan }] }

theorem hasErrors_config : config.validate.hasErrors = false := by
  decide +kernel

def client : Ipv4Addr := .ofOctets 10 0 0 2

def server : Ipv4Addr := .ofOctets 10 0 1 2

/-- The frame that tells the router in a domain where a host is. -/
def announcement (routerIp host : Ipv4Addr) : Wire.Bytes :=
  Wire.Arp.Packet.frame {
    operation := .reply
    senderMac := Ping.host
    senderIp := host
    targetMac := Config.defaultMac
    targetIp := routerIp }

/-- The frame of a segment. -/
def frame (src dst : Ipv4Addr) (segment : Wire.Tcp.Draft) : Wire.Bytes :=
  Wire.Ethernet.build {
    dst := Config.defaultMac
    src := Ping.host
    etherType := Wire.EtherType.ipv4.number
    payload := Wire.Ipv4.Draft.build { src, dst, protocolNumber := 6 } (segment.build src dst []) }

/-- The router before anything happened. -/
def started : Router :=
  (({} : Router).adopt config).value

/-- What happens: the client opens a connection and ends it, a configuration is put into use once
more, and the server ends the connection. -/
def happenings : List Happening := [
  .attached "lan",
  .attached "wan",
  .event 0 (.frame ⟨0, 0⟩ (announcement (.ofOctets 10 0 0 1) client)),
  .event 0 (.frame ⟨1, 0⟩ (announcement (.ofOctets 10 0 1 1) server)),
  .event 1000 (.frame ⟨0, 0⟩ (frame client server { srcPort := 40000, dstPort := 80, flags := 2 })),
  .event 2000 (.frame ⟨0, 0⟩ (frame client server { srcPort := 40000, dstPort := 80, flags := 1 })),
  .event 2500 (.reload config),
  .event 3000 (.frame ⟨1, 0⟩ (frame server client { srcPort := 80, dstPort := 40000, flags := 1 }))]

/-- The router after the connection. -/
def router : Router :=
  happenings.foldl after started

theorem history_router : History (episodes started happenings) router := by
  have hextended := (History.start (start_of_valid hasErrors_config 0)).extends happenings
  rwa [List.append_nil] at hextended

/-- The link after the connection. -/
def link : Link where
  id := 1
  protocol := .tcp
  client := {
    domain := "lan"
    flow := { srcIp := client, srcPort := 40000, dstIp := server, dstPort := 80 } }
  server := {
    domain := "wan"
    flow := { srcIp := server, srcPort := 80, dstIp := client, dstPort := 40000 } }
  natPort := none
  origin := ⟨0, 0⟩
  created := 1000
  lastActivity := 3000
  closing := true
  clientFin := true
  serverFin := true

theorem mem_router : link ∈ router.tree.liveLinks := by
  decide +kernel

theorem time_last : (trail (episodes started happenings) 1).getLast?.map (·.time) = some 3000 := by
  decide +kernel

end Hangup

/-- The link of a connection that both sides ended lasts for 30 seconds after the end, although there
was a new configuration between the ends. -/
theorem teardown_hangup :
    History (episodes Hangup.started Hangup.happenings) Hangup.router ∧
    Hangup.link ∈ Hangup.router.tree.liveLinks ∧ Hangup.link.protocol = .tcp ∧
    Crossing.Over (trail (episodes Hangup.started Hangup.happenings) 1) ∧
    (Hangup.router.handle 32999 (.timer .linkAging)).value.2.tree.ownedLink? "lan" 1 =
      some Hangup.link ∧
    (Hangup.router.handle 33000 (.timer .linkAging)).value.2.tree.ownedLink? "lan" 1 = none := by
  obtain ⟨-, -, hclosing, -, last, hlast, haged⟩ :=
    Hangup.history_router.teardown Hangup.mem_router rfl
  have htime : last.time = 3000 := by
    have hmap := Hangup.time_last
    rw [show 1 = Hangup.link.id from rfl, hlast] at hmap
    exact Option.some.inj hmap
  refine ⟨Hangup.history_router, Hangup.mem_router, rfl, hclosing.1 rfl, ?_, ?_⟩
  · exact (haged 32999).trans (if_neg (by rw [htime]; decide +kernel))
  · exact (haged 33000).trans (if_pos (by rw [htime]; decide +kernel))

end SegmentRouter.Router
