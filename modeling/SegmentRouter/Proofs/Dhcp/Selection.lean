import SegmentRouter.Proofs.Address.Subnet
import SegmentRouter.Proofs.Dhcp.Leases

/-!
# Proofs/Dhcp/Selection — which address a new client is offered

A client that holds an address is offered it again.  A new one is offered the address that it wishes
for if that is free, and else the smallest free one (`Selects`); it goes away empty-handed only if
nothing is free (`handle_discover`).  The server looks for the smallest address in that part of its
pool which lies in the subnet, and what is left out is not free.
-/

namespace SegmentRouter.DhcpServer

open Wire.Dhcp (Message)

section

variable {s : DhcpServer} {msg : Message} {params : Params} {now : Nat} {ip : Ipv4Addr} {mac : Mac}
  {test : Ipv4Addr → Bool} {start count : Nat}

/-! ## Free addresses -/

/-- **An address can be leased to a new client**: it belongs to the pool and to the subnet, is not
the router's, and nobody holds it. -/
structure IsFree (s : DhcpServer) (params : Params) (ip : Ipv4Addr) : Prop where
  first_le : s.first.toNat ≤ ip.toNat
  le_last : ip.toNat ≤ s.last.toNat
  inSubnet : params.interface.contains ip = true
  ne_router : ip ≠ params.interface.addr
  unheld : ∀ mac, ¬ s.Holds mac ip

/-- **The address for a new client**: the one that it wishes for if that is free, and else the
smallest free one. -/
structure Selects (s : DhcpServer) (params : Params) (wish : Option Ipv4Addr) (ip : Ipv4Addr) :
    Prop where
  isFree : s.IsFree params ip
  wished : ∀ wanted, wish = some wanted → s.IsFree params wanted → ip = wanted
  least : (∀ wanted, wish = some wanted → ¬ s.IsFree params wanted) →
    ∀ other, s.IsFree params other → ip.toNat ≤ other.toNat

theorem holder?_eq_none_iff : s.holder? ip = none ↔ ∀ mac, ¬ s.Holds mac ip := by
  rw [holder?, Option.map_eq_none_iff, List.find?_eq_none]
  constructor
  · rintro h mac ⟨lease, hlease, hip⟩
    exact h _ (SortedMap.get?_eq_some_iff.1 hlease) (decide_eq_true hip)
  · rintro h ⟨mac, lease⟩ hmem hip
    exact h mac ⟨lease, SortedMap.get?_eq_some_iff.2 hmem, of_decide_eq_true hip⟩

theorem isFree_iff : s.IsFree params ip ↔ s.available params ip = true := by
  rw [available_iff, usable_iff, holder?_eq_none_iff, inPool, Bool.and_eq_true,
    decide_eq_true_iff, decide_eq_true_iff]
  constructor
  · intro h
    exact ⟨⟨⟨h.first_le, h.le_last⟩, h.ne_router, h.inSubnet⟩, h.unheld⟩
  · rintro ⟨⟨⟨hfirst, hlast⟩, hrouter, hsubnet⟩, hunheld⟩
    exact ⟨hfirst, hlast, hsubnet, hrouter, hunheld⟩

/-! ## The search -/

/-- A search that fails has gone through all numbers. -/
theorem firstFrom?_eq_none_iff : firstFrom? test start count = none ↔
    ∀ n, start ≤ n → n < start + count → test (.ofNat n) = false := by
  induction count generalizing start with
  | zero => exact iff_of_true rfl fun n hstart hend => absurd hend (Nat.not_lt.2 hstart)
  | succ count ih =>
    rw [firstFrom?]
    split
    · rename_i htest
      refine iff_of_false (Option.some_ne_none _) fun h => ?_
      rw [h start (Nat.le_refl _) (by omega)] at htest
      cases htest
    · rename_i htest
      rw [ih]
      refine ⟨fun h n hstart hend => ?_, fun h n hstart hend => h n (by omega) (by omega)⟩
      rcases Nat.eq_or_lt_of_le hstart with rfl | hlt
      · exact Bool.eq_false_iff.2 htest
      · exact h n hlt (by omega)

/-- A search ends with the smallest number of an address that passes. -/
theorem le_of_firstFrom? (hend : start + count ≤ 4294967296)
    (h : firstFrom? test start count = some ip) {other : Ipv4Addr} (hother : test other = true)
    (hstart : start ≤ other.toNat) : ip.toNat ≤ other.toNat := by
  induction count generalizing start with
  | zero => cases h
  | succ count ih =>
    rw [firstFrom?] at h
    split at h
    · obtain rfl := Option.some.inj h
      rwa [Ipv4Addr.toNat_ofNat, Nat.mod_eq_of_lt (by omega)]
    · rename_i htest
      refine ih (by omega) h (Nat.lt_of_le_of_ne hstart ?_)
      rintro rfl
      rw [Ipv4Addr.ofNat_toNat, hother] at htest
      exact htest rfl

/-- What is free lies in the part of the pool that is searched. -/
theorem IsFree.searched (h : s.IsFree params ip) :
    Nat.max s.first.toNat params.interface.network.toNat ≤ ip.toNat ∧
      ip.toNat ≤ Nat.min s.last.toNat params.interface.broadcast.toNat := by
  obtain ⟨hnetwork, hbroadcast⟩ := Cidr.contains_iff.1 h.inSubnet
  exact ⟨Nat.max_le.2 ⟨h.first_le, hnetwork⟩, Nat.le_min.2 ⟨h.le_last, hbroadcast⟩⟩

/-- **No address is found only if none is free.** -/
theorem lowestAvailable?_eq_none_iff :
    s.lowestAvailable? params = none ↔ ∀ ip, ¬ s.IsFree params ip := by
  unfold lowestAvailable?
  rw [firstFrom?_eq_none_iff]
  constructor
  · intro h ip hfree
    obtain ⟨hlow, hhigh⟩ := hfree.searched
    have htest := h ip.toNat hlow (by omega)
    rw [Ipv4Addr.ofNat_toNat, isFree_iff.1 hfree] at htest
    cases htest
  · intro h n _ _
    rw [Bool.eq_false_iff]
    exact fun havailable => h _ (isFree_iff.2 havailable)

theorem lowestAvailable?_le (h : s.lowestAvailable? params = some ip) {other : Ipv4Addr}
    (hother : s.IsFree params other) : ip.toNat ≤ other.toNat := by
  obtain ⟨hlow, hhigh⟩ := hother.searched
  have hend : Nat.min s.last.toNat params.interface.broadcast.toNat < 4294967296 :=
    Nat.lt_of_le_of_lt (Nat.min_le_left ..) s.last.toNat_lt
  unfold lowestAvailable? at h
  exact le_of_firstFrom? (by omega) h (isFree_iff.1 hother) hlow

/-! ## The choice -/

theorem choose?_eq_none_iff {wish : Option Ipv4Addr} :
    s.choose? params wish = none ↔ ∀ ip, ¬ s.IsFree params ip := by
  unfold choose?
  split
  · rename_i wanted
    split
    · rename_i havailable
      exact iff_of_false nofun fun h => h wanted (isFree_iff.2 havailable)
    · exact lowestAvailable?_eq_none_iff
  · exact lowestAvailable?_eq_none_iff

/-- **The choice for a new client is the one that it wishes for, or the smallest.** -/
theorem selects_of_choose? {wish : Option Ipv4Addr} (h : s.choose? params wish = some ip) :
    s.Selects params wish ip where
  isFree := isFree_iff.2 (available_of_choose? h)
  wished wanted hwish hfree := by
    subst hwish
    rw [choose?, if_pos (isFree_iff.1 hfree)] at h
    exact (Option.some.inj h).symm
  least hunwished other hother := by
    refine lowestAvailable?_le ?_ hother
    cases wish with
    | none => exact h
    | some wanted =>
      rwa [choose?, if_neg fun havailable =>
        hunwished wanted rfl (isFree_iff.2 havailable)] at h

/-! ## The answer to a client that looks for a server -/

/-- A client looks for a server and wishes for an address. -/
def discoverFor (mac : Mac) (ip : Ipv4Addr) : Message :=
  (Message.make .client .discover 0 mac).withIp Wire.Dhcp.requestedIpCode ip

@[simp] theorem kind?_discoverFor (mac : Mac) (ip : Ipv4Addr) :
    (discoverFor mac ip).kind? = some .discover :=
  (Message.kind?_withIp _ (by decide) ip).trans (Message.kind?_make ..)

@[simp] theorem requestedIp?_discoverFor (mac : Mac) (ip : Ipv4Addr) :
    (discoverFor mac ip).requestedIp? = some ip :=
  Message.ip?_withIp ..

/-- A new client is offered what is chosen for it. -/
theorem handle_of_choose? (hsender : msg.sender = .client) (hkind : msg.kind? = some .discover)
    (hnew : s.leases.get? msg.chaddr = none)
    (hchoose : s.choose? params msg.requestedIp? = some ip) :
    (s.handle msg params now).value =
      (some (s.offer msg params ip), s.withLease msg.chaddr (s.offeredLease ip now)) := by
  have hclient : ¬ msg.sender ≠ .client := fun hne => hne hsender
  unfold handle
  rw [if_neg hclient, hkind]
  dsimp only [Logged.value_bind]
  unfold discover
  rw [hnew, hchoose]
  rfl

/-- **A client that looks for a server is offered the address that it holds, or the one selected for
it.** Whatever leases there are and whatever the pool: a client that holds an address is offered
that one, and goes on holding it.  A new client is made an offer exactly if an address is free, of
the one that it wishes for if that is free and else of the smallest free one, which is recorded as
offered to it; otherwise the server stays as it is. -/
theorem handle_discover (hsender : msg.sender = .client) (hkind : msg.kind? = some .discover) :
    (∀ lease, s.leases.get? msg.chaddr = some lease →
      ∃ offer, (s.handle msg params now).value =
          (some offer, s.withLease msg.chaddr (s.reofferedLease lease now)) ∧
        offer.kind? = some .offer ∧ offer.yiaddr = lease.ip ∧
        (s.reofferedLease lease now).ip = lease.ip) ∧
    (s.leases.get? msg.chaddr = none →
      ((s.handle msg params now).value.1.isSome = true ↔ ∃ ip, s.IsFree params ip) ∧
      (∀ offer s', (s.handle msg params now).value = (some offer, s') →
        offer.kind? = some .offer ∧ s.Selects params msg.requestedIp? offer.yiaddr ∧
          s' = s.withLease msg.chaddr (s.offeredLease offer.yiaddr now)) ∧
      ((s.handle msg params now).value.1 = none → (s.handle msg params now).value.2 = s)) := by
  obtain ⟨answer, s', hresult⟩ : ∃ answer s', (s.handle msg params now).value = (answer, s') :=
    ⟨_, _, rfl⟩
  have hanswers := answers_of_handle hresult
  rw [hresult]
  clear hresult
  cases hanswers with
  | ignored hother => exact absurd hkind (hother hsender)
  | informed hother => exact nomatch hkind.symm.trans hother
  | bound hrequest | refused hrequest | dismissed hrequest =>
    exact nomatch hkind.symm.trans hrequest.kind
  | released hother =>
    rw [hkind] at hother
    rcases hother with hother | hother | ⟨hother, -⟩ <;> cases hother
  | @reoffered old _ hold =>
    refine ⟨fun lease hlease => ?_, fun hnew => nomatch hnew.symm.trans hold⟩
    obtain rfl := Option.some.inj (hold.symm.trans hlease)
    exact ⟨_, rfl, s.kind?_offer msg params old.ip, rfl, s.ip_reofferedLease old now⟩
  | exhausted _ hnew hchoose =>
    refine ⟨fun lease hlease => (nomatch hnew.symm.trans hlease), fun _ =>
      ⟨?_, nofun, fun _ => rfl⟩⟩
    exact iff_of_false nofun fun ⟨ip, hfree⟩ => choose?_eq_none_iff.1 hchoose ip hfree
  | @offered ip _ hnew hchoose =>
    have hselects := selects_of_choose? hchoose
    refine ⟨fun lease hlease => (nomatch hnew.symm.trans hlease), fun _ =>
      ⟨iff_of_true rfl ⟨ip, hselects.isFree⟩, fun offer s' h => ?_, nofun⟩⟩
    obtain ⟨hoffer, rfl⟩ := Prod.mk.inj h
    obtain rfl := Option.some.inj hoffer
    exact ⟨s.kind?_offer msg params ip, hselects, rfl⟩

end

/-! ## The last addresses of all -/

namespace LastPool

/-- The last address but one. -/
def routerIp : Ipv4Addr := .ofOctets 255 255 255 254

/-- A server for the last two addresses. -/
def server : DhcpServer :=
  .ofConfig { first := routerIp, last := .broadcast } 10000

/-- The addresses of its domain; the router has the first one of the pool. -/
def params : Params where
  interface := ⟨routerIp, 31, by decide⟩

/-- A client wishes for the address that the router has. -/
def discover : Message :=
  discoverFor SmallPool.client routerIp

end LastPool

/-- The client is offered the last address, because the one that it wishes for is the router's. -/
theorem handle_discover_lastPool : LastPool.discover.sender = .client ∧
    LastPool.discover.kind? = some .discover ∧
    LastPool.server.leases.get? LastPool.discover.chaddr = none ∧
    LastPool.discover.requestedIp? = some LastPool.routerIp ∧
    LastPool.server.Selects LastPool.params (some LastPool.routerIp) .broadcast ∧
    ∃ offer, (LastPool.server.handle LastPool.discover LastPool.params 0).value =
      (some offer, LastPool.server.withLease SmallPool.client
        (LastPool.server.offeredLease .broadcast 0)) ∧ offer.yiaddr = .broadcast := by
  have hkind : LastPool.discover.kind? = some .discover := kind?_discoverFor ..
  have hwish : LastPool.discover.requestedIp? = some LastPool.routerIp :=
    requestedIp?_discoverFor ..
  obtain ⟨offer, s', hresult, hip⟩ : ∃ offer s',
      (LastPool.server.handle LastPool.discover LastPool.params 0).value = (some offer, s') ∧
        offer.yiaddr = .broadcast :=
    ⟨_, _, rfl, by decide +kernel⟩
  have h := (@handle_discover LastPool.server LastPool.discover LastPool.params 0 rfl hkind).2 rfl
  obtain ⟨-, hselects, rfl⟩ := h.2.1 offer s' hresult
  rw [hwish, hip] at hselects
  rw [hip] at hresult
  exact ⟨rfl, hkind, rfl, hwish, hselects, offer, hresult, hip⟩

end SegmentRouter.DhcpServer
