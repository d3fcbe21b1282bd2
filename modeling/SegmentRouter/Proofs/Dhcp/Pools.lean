import SegmentRouter.Proofs.Config.Checks
import SegmentRouter.Proofs.Dhcp.Offers
import SegmentRouter.Proofs.Dhcp.Selection

/-!
# Proofs/Dhcp/Pools — which addresses a configured pool hands out

The ends of an accepted pool lie in the subnet, and so does what is between them.  The server hands
out all of it but the router's address (`assignable_iff`): also the first and the last address of
the subnet, which are no hosts', if the pool has them.
-/

namespace SegmentRouter

/-- The address lies between the ends of the pool. -/
def Config.DhcpPool.Has (pool : DhcpPool) (ip : Ipv4Addr) : Prop :=
  pool.first.toNat ≤ ip.toNat ∧ ip.toNat ≤ pool.last.toNat

namespace DhcpServer

open Wire.Dhcp (Message)

section

variable {config : Config} {d : Config.Domain} {pool : Config.DhcpPool} {interface : Cidr}
  {start s s' : DhcpServer} {events : List Event} {msg answer : Message} {params : Params}
  {now : Nat} {ip : Ipv4Addr} {mac : Mac}

/-- **A server can assign an address**: in some run with the router's address and subnet as they are
it is offered, or acknowledged to a client that requests it. -/
def Assignable (start : DhcpServer) (interface : Cidr) (ip : Ipv4Addr) : Prop :=
  ∃ events s params msg now answer s', Run start events s ∧
    (∀ e ∈ events, ∀ p, e.params? = some p → p.interface = interface) ∧
    params.interface = interface ∧ (s.handle msg params now).value = (some answer, s') ∧
    Assigns msg answer ∧ answer.yiaddr = ip

/-- Whether an address can be used does not depend on the DNS server. -/
theorem usable_of_interface {other : Params} (h : other.interface = params.interface)
    (ip : Ipv4Addr) : s.usable other ip = s.usable params ip := by
  rw [usable, usable, h]

/-- What is assigned in a run with the subnet as it is can be used in it. -/
theorem usable_of_assignable (hempty : start.leases = ∅)
    (h : start.Assignable params.interface ip) : start.usable params ip = true := by
  obtain ⟨events, s, p, msg, now, answer, s', hrun, hfixed, hp, hhandle, hassigns, rfl⟩ := h
  rcases (answers_of_handle hhandle).assigned_cases hassigns with ⟨-, hholds⟩ | ⟨husable, -⟩
  · refine hrun.holds_of_usable hempty (P := fun ip => start.usable params ip = true) ?_ hholds
    intro e he p hp ip husable
    rwa [usable_of_interface (hfixed e he p hp)] at husable
  · rwa [usable_of_samePool hrun.samePool, usable_of_interface hp] at husable

/-- What can be used can be assigned: a new client may wish for it. -/
theorem assignable_of_usable (hempty : start.leases = ∅) (h : start.usable params ip = true) :
    start.Assignable params.interface ip := by
  have hnew (mac : Mac) : start.leases.get? mac = none := by
    rw [hempty]
    rfl
  have hfree : start.available params ip = true := by
    rw [available_iff, holder?_eq_none_iff]
    exact ⟨h, fun mac ⟨lease, hlease, _⟩ => nomatch (hnew mac).symm.trans hlease⟩
  refine ⟨[], start, params, discoverFor .zero ip, 0, start.offer (discoverFor .zero ip) params ip,
    _, .nil _, nofun, rfl, handle_of_choose? rfl (kind?_discoverFor ..) (hnew _) ?_,
    .inl (kind?_offer ..), rfl⟩
  rw [requestedIp?_discoverFor, choose?, if_pos hfree]

theorem inPool_iff_has {offerTimeout : Nat} (h : s.samePool (ofConfig pool offerTimeout) = true) :
    s.inPool ip = true ↔ pool.Has ip := by
  rw [inPool_of_samePool h, inPool, Bool.and_eq_true, decide_eq_true_iff, decide_eq_true_iff]
  rfl

/-- **An accepted pool is handed out from end to end, but for the router's address**, so only host
addresses are exactly if the pool has neither the first nor the last address of the subnet.  Even
with leases from before the configuration nothing outside the subnet is assigned, and the router's
address only to a client that holds it since then. -/
theorem assignable_isHost_iff (hvalid : config.validate.hasErrors = false)
    (hd : d ∈ config.domains) (hpool : d.dhcpServer = some pool) (offerTimeout : Nat) :
    ∃ interface, d.interface = some interface ∧
      (∀ ip, (ofConfig pool offerTimeout).Assignable interface ip ↔
        pool.Has ip ∧ ip ≠ interface.addr) ∧
      (∀ ip, (ofConfig pool offerTimeout).Assignable interface ip → interface.contains ip = true) ∧
      ((∀ ip, (ofConfig pool offerTimeout).Assignable interface ip → interface.IsHost ip) ↔
        (interface.length < 31 →
          ¬ pool.Has interface.network ∧ ¬ pool.Has interface.broadcast)) ∧
      ∀ start events s, start.leases = ∅ → start.samePool (ofConfig pool offerTimeout) = true →
        Run start events s → ∀ params msg now answer s', params.interface = interface →
          (s.handle msg params now).value = (some answer, s') → Assigns msg answer →
            interface.contains answer.yiaddr = true ∧
              (answer.yiaddr = interface.addr →
                msg.kind? = some .discover ∧ s.Holds msg.chaddr interface.addr) := by
  obtain ⟨interface, hinterface, -, hfirst, hlast⟩ := Config.pool_valid hvalid hd hpool
  obtain ⟨hrouter, -, -⟩ := Config.interface_valid hvalid hd hinterface
  have hsubnet {ip : Ipv4Addr} (hhas : pool.Has ip) : interface.contains ip = true :=
    Cidr.contains_of_between hfirst hlast hhas.1 hhas.2
  have hassignable (ip : Ipv4Addr) : (ofConfig pool offerTimeout).Assignable interface ip ↔
      pool.Has ip ∧ ip ≠ interface.addr := by
    constructor
    · intro h
      have husable : (ofConfig pool offerTimeout).usable { interface } ip = true :=
        usable_of_assignable rfl h
      obtain ⟨hin, hother, -⟩ := usable_iff.1 husable
      exact ⟨(inPool_iff_has (samePool_iff.2 ⟨rfl, rfl⟩)).1 hin, hother⟩
    · rintro ⟨hhas, hother⟩
      have husable : (ofConfig pool offerTimeout).usable { interface } ip = true :=
        usable_iff.2 ⟨(inPool_iff_has (samePool_iff.2 ⟨rfl, rfl⟩)).2 hhas, hother, hsubnet hhas⟩
      exact assignable_of_usable rfl husable
  refine ⟨interface, hinterface, hassignable, fun ip h => hsubnet ((hassignable ip).1 h).1, ?_, ?_⟩
  · constructor
    · intro h hlength
      obtain ⟨hnetwork, hbroadcast⟩ := hrouter.inside hlength
      -- what the pool has of the two would be assigned, since neither is the router's
      exact ⟨fun hhas => ((h _ ((hassignable _).2 ⟨hhas, hnetwork.symm⟩)).inside hlength).1 rfl,
        fun hhas => ((h _ ((hassignable _).2 ⟨hhas, hbroadcast.symm⟩)).inside hlength).2 rfl⟩
    · intro h ip hip
      obtain ⟨hhas, -⟩ := (hassignable ip).1 hip
      refine ⟨hsubnet hhas, fun hlength => ⟨?_, ?_⟩⟩
      · rintro rfl
        exact (h hlength).1 hhas
      · rintro rfl
        exact (h hlength).2 hhas
  · intro start events s hempty hstart hrun params msg now answer s' hparams hhandle hassigns
    have hcases := (answers_of_handle hhandle).assigned_cases hassigns
    have hin : s.inPool answer.yiaddr = true := by
      rcases hcases with ⟨-, hholds⟩ | ⟨husable, -⟩
      · exact hrun.inPool hempty hholds
      · exact (usable_iff.1 husable).1
    refine ⟨hsubnet ((inPool_iff_has (samePool_trans hrun.samePool hstart)).1 hin), fun hself => ?_⟩
    rw [← hself]
    rcases hcases with hheld | ⟨husable, -⟩
    · exact hheld
    · obtain ⟨-, hother, -⟩ := usable_iff.1 husable
      exact absurd (hparams ▸ hself) hother

end

/-! ## Two pools of one subnet -/

namespace EdgePool

theorem prefixLength_le : 24 ≤ 32 := by
  decide

/-- The router's address. -/
def interface : Cidr := ⟨.ofOctets 10 0 1 1, 24, prefixLength_le⟩

/-- A pool that begins with the router's address and ends before the last one of the subnet. -/
def inner : Config.DhcpPool where
  first := interface.addr
  last := .ofOctets 10 0 1 254

/-- A pool that ends with the last address of the subnet. -/
def outer : Config.DhcpPool where
  first := .ofOctets 10 0 1 250
  last := interface.broadcast

/-- A domain with a DHCP server. -/
def domain (pool : Config.DhcpPool) : Config.Domain where
  name := "lan"
  interface := some interface
  dhcpServer := some pool

/-- The configuration of the domain alone. -/
def config (pool : Config.DhcpPool) : Config where
  domains := [domain pool]

end EdgePool

/-- From the inner pool only host addresses are assigned. -/
theorem assignable_isHost_inner : (EdgePool.config EdgePool.inner).validate.hasErrors = false ∧
    EdgePool.domain EdgePool.inner ∈ (EdgePool.config EdgePool.inner).domains ∧
    (EdgePool.domain EdgePool.inner).dhcpServer = some EdgePool.inner ∧
    ∀ ip, (ofConfig EdgePool.inner 10000).Assignable EdgePool.interface ip →
      EdgePool.interface.IsHost ip := by
  have hvalid : (EdgePool.config EdgePool.inner).validate.hasErrors = false := by decide +kernel
  have hmem : EdgePool.domain EdgePool.inner ∈ (EdgePool.config EdgePool.inner).domains :=
    List.mem_singleton_self _
  obtain ⟨interface, hinterface, -, -, hhosts, -⟩ :=
    assignable_isHost_iff hvalid hmem rfl 10000
  obtain rfl := Option.some.inj hinterface
  refine ⟨hvalid, hmem, rfl, hhosts.2 fun _ => ⟨fun hhas => ?_, fun hhas => ?_⟩⟩
  · exact absurd hhas.1 (by decide)
  · exact absurd hhas.2 (by decide)

/-- **From the outer pool a client is offered the address that reaches all hosts**, although the
configuration is accepted. -/
theorem broadcast_offered : (EdgePool.config EdgePool.outer).validate.hasErrors = false ∧
    EdgePool.domain EdgePool.outer ∈ (EdgePool.config EdgePool.outer).domains ∧
    (EdgePool.domain EdgePool.outer).dhcpServer = some EdgePool.outer ∧
    (EdgePool.domain EdgePool.outer).interface = some EdgePool.interface ∧
    ((ofConfig EdgePool.outer 10000).handle
        (discoverFor SmallPool.client EdgePool.interface.broadcast)
        { interface := EdgePool.interface } 0).value.1.map
      (fun offer => (offer.kind?, offer.yiaddr)) =
        some (some .offer, EdgePool.interface.broadcast) ∧
    (ofConfig EdgePool.outer 10000).Assignable EdgePool.interface EdgePool.interface.broadcast ∧
    ¬ EdgePool.interface.IsHost EdgePool.interface.broadcast := by
  have husable : (ofConfig EdgePool.outer 10000).usable { interface := EdgePool.interface }
      EdgePool.interface.broadcast = true := by decide +kernel
  have hassignable := assignable_of_usable rfl husable
  exact ⟨by decide +kernel, List.mem_singleton_self _, rfl, rfl, by decide +kernel,
    hassignable, fun h => (h.inside (by decide)).2 rfl⟩

end DhcpServer

end SegmentRouter
