import SegmentRouter.Proofs.Router.Reload
import SegmentRouter.Proofs.Router.Traffic

/-!
# Proofs/Router/Reachable — the states of a router

A router is started with an accepted configuration; then events happen to it, and interfaces are
attached and detached, in any order and at any times.  Whatever is reached that way is good
(`Reachable.good`).
-/

namespace SegmentRouter.Router

variable {r r' : Router}

/-- The routers that can come to be. -/
inductive Reachable : Router → Prop
  | start {config : Config} {xid : UInt32} {r : Router}
      (hr : (Router.start config xid).value = .ok r) : Reachable r
  | handle {r : Router} (h : Reachable r) (now : Nat) (event : Event) :
      Reachable (r.handle now event).value.2
  | attach {r : Router} (h : Reachable r) (domain : String) : Reachable (r.attach domain).value.2
  | detach {r r' : Router} {interface : InterfaceId} (h : Reachable r)
      (hr : (r.detach interface).value = .ok r') : Reachable r'

/-! ## The start -/

/-- A router without domains and interfaces is good. -/
theorem good_empty (xid : UInt32) : ({ nextXid := xid } : Router).Good where
  sound := DomainTree.sound_of_idle List.nodup_nil fun _ hd => absurd hd List.not_mem_nil
  fresh _ hm := absurd hm List.not_mem_nil
  settled hp := nomatch hp
  anchored _ hm := absurd hm List.not_mem_nil

theorem start_eq_ok {config : Config} {xid : UInt32}
    (hr : (Router.start config xid).value = .ok r) :
    r = (({ nextXid := xid } : Router).apply config).value.2 := by
  unfold start at hr
  rcases hvalue : (({ nextXid := xid } : Router).apply config).value with ⟨e, started⟩
  rw [Logged.value_bind, hvalue] at hr
  cases e with
  | none => exact (Except.ok.inj hr).symm
  | some e => cases hr

/-! ## Timers and events -/

namespace Good

variable (h : r.Good)

include h

theorem ageLinks (now : Nat) : (r.ageLinks now).value.Good :=
  (Sheds.withTree (.of_dismisses (h.sound.dismisses_ageLinks now _))).good h

omit h in
theorem core_expireArp (now requestTimeout entryLifetime : Nat) (domains : List Domain) :
    (expireArp now requestTimeout entryLifetime domains).value.map Domain.core =
      domains.map Domain.core := by
  induction domains with
  | nil => rfl
  | cons d rest ih =>
    exact congrArg (d.core :: ·) ih

theorem ageArp (now : Nat) : (r.ageArp now).value.Good := by
  refine (h.sheds_of_core ?_).good h
  rw [DomainTree.core, DomainTree.core, core_expireArp]

/-- **A router stays good when a timer runs out.** -/
theorem handleTimer (now : Nat) (kind : Timer) : (r.handleTimer now kind).value.2.Good := by
  cases kind with
  | linkAging => exact h.ageLinks now
  | arpExpiry => exact h.ageArp now
  | dhcp => exact ((h.sheds_maintainDhcp now).good h).countAllSent _
  | report => exact h

/-- **A router stays good whatever happens to it.** -/
theorem handle (now : Nat) (event : Event) : (r.handle now event).value.2.Good := by
  cases event with
  | frame interface bytes => exact h.receive interface bytes now
  | timer kind => exact h.handleTimer now kind
  | reload config =>
    have happly := h.apply config
    unfold Router.handle
    rcases hvalue : (r.apply config).value with ⟨e, applied⟩
    rw [hvalue] at happly
    rw [Logged.value_bind, hvalue]
    cases e <;> exact happly

end Good

/-- **Every state of a router is good.** -/
theorem Reachable.good (h : r.Reachable) : r.Good := by
  induction h with
  | start hr =>
    rw [start_eq_ok hr]
    exact (good_empty _).apply _
  | handle _ now event ih => exact ih.handle now event
  | attach _ domain ih => exact ih.attach domain
  | detach _ hr ih => exact ih.detach hr

theorem start_of_valid {config : Config} (h : config.validate.hasErrors = false) (xid : UInt32) :
    (Router.start config xid).value = .ok (({ nextXid := xid } : Router).adopt config).value := by
  unfold Router.start
  rw [Logged.value_bind, apply_of_valid _ h]
  rfl

theorem Reachable.adopted {config : Config} (h : config.validate.hasErrors = false) (xid : UInt32) :
    Reachable (({ nextXid := xid } : Router).adopt config).value :=
  .start (start_of_valid h xid)

/-! ## A router with one link -/

namespace Ping

/-- Two domains, of which the first may ping hosts of the second under one address there. -/
def config : Config :=
  let lan : Cidr := ⟨.ofOctets 10 0 0 1, 24, by decide⟩
  let wan : Cidr := ⟨.ofOctets 10 0 1 1, 24, by decide⟩
  { domains := [
      { name := "lan", interface := some lan, icmp := [{ dst := wan, domain := "wan" }] },
      { name := "wan", interface := some wan, nat := [{ domain := "lan", icmpIds := 1 }] }] }

theorem hasErrors_config : config.validate.hasErrors = false := by
  decide +kernel

/-- The hardware address of every host. -/
def host : Mac := ⟨2, 0, 0, 0, 0, 2⟩

/-- The frame that tells the router where the host is that is pinged. -/
def announcement : Wire.Bytes :=
  Wire.Arp.Packet.frame {
    operation := .reply
    senderMac := host
    senderIp := .ofOctets 10 0 1 2
    targetMac := Config.defaultMac
    targetIp := .ofOctets 10 0 1 1 }

/-- The frame of the echo request. -/
def request : Wire.Bytes :=
  Wire.Ethernet.build {
    dst := Config.defaultMac
    src := host
    etherType := Wire.EtherType.ipv4.number
    payload := Wire.Ipv4.Draft.build
      { src := .ofOctets 10 0 0 2, dst := .ofOctets 10 0 1 2, protocolNumber := 1 }
      (Wire.Icmp.echoRequest 7 1 []) }

/-- The router with an interface in each domain. -/
def attached : Router :=
  let started := (({} : Router).adopt config).value
  ((started.attach "lan").value.2.attach "wan").value.2

theorem reachable_attached : attached.Reachable :=
  .attach (.attach (.adopted hasErrors_config 0) "lan") "wan"

/-- The router after the ping. -/
def router : Router :=
  let told := (attached.handle 0 (.frame ⟨1, 0⟩ announcement)).value.2
  (told.handle 0 (.frame ⟨0, 0⟩ request)).value.2

theorem reachable_router : router.Reachable :=
  .handle (.handle reachable_attached 0 _) 0 _

/-- The link that the ping opened. -/
def link : Link where
  id := 1
  protocol := .icmp
  client := {
    domain := "lan"
    flow := {
      srcIp := .ofOctets 10 0 0 2, srcPort := 7, dstIp := .ofOctets 10 0 1 2, dstPort := 7 } }
  server := {
    domain := "wan"
    flow := {
      srcIp := .ofOctets 10 0 1 2, srcPort := 49152
      dstIp := .ofOctets 10 0 1 1, dstPort := 49152 } }
  natPort := some 49152
  origin := ⟨0, 0⟩
  created := 0
  lastActivity := 0

theorem liveLinks_router : router.tree.liveLinks = [link] := by
  decide +kernel

/-- The domain of the host that was pinged. -/
def wan : Domain :=
  router.tree.domains.getLast (by decide +kernel)

theorem wan_mem : wan ∈ router.tree.domains :=
  List.getLast_mem _

theorem mem_router : link ∈ router.tree.liveLinks := by
  rw [liveLinks_router]
  exact List.mem_singleton_self link

end Ping

end SegmentRouter.Router
