import SegmentRouter.Link.Opening
import SegmentRouter.Proofs.Link.Views
import SegmentRouter.Proofs.Port.Share

/-!
# Proofs/Domain/Core — what links and their ports depend on

Most of what a router does moves no link: it learns addresses of hosts, counts bytes, serves leases,
renews the time of a link.  The *core* of a tree is the tree without all that, so a change that
leaves the core (`core_update`, `core_updateAt`) leaves the ends, ids and ports of all links.  The
*policy* of a domain is what is left of its core without links and ports in use; it alone decides
where a flow goes.
-/

namespace SegmentRouter

open Wire (Protocol)

/-! ## Links -/

namespace Link

/-- The link without what its traffic changes. -/
def core (link : Link) : Link :=
  { link with lastActivity := 0, closing := false, clientFin := false, serverFin := false }

@[simp] theorem seat_core (link : Link) (s : Side) : link.core.seat s = link.seat s := by
  cases s <;> rfl

theorem sitsAt_core (link : Link) (seat : Seat) : link.core.SitsAt seat ↔ link.SitsAt seat := by
  rw [SitsAt, SitsAt, seat_core, seat_core]

theorem refAt_core (link : Link) (seat : Seat) : link.core.refAt seat = link.refAt seat := by
  rw [refAt, refAt, seat_core]
  rfl

theorem core_observeTcp (link : Link) (s : Side) (flags : Wire.Tcp.Flags) :
    (link.observeTcp s flags).core = link.core := by
  unfold observeTcp
  split
  · rfl
  · split
    · cases s <;> rfl
    · rfl

/-- Traffic leaves the core of a link. -/
theorem core_followed (link : Link) (s : Side) (flow : PacketFlow) (now : Nat) :
    (link.followed s flow now).core = link.core := by
  unfold followed
  split
  · exact core_observeTcp ..
  · rfl

/-- A new link has its packet's flow on the client's side and the answers' on the server's. -/
theorem core_opened (id : Nat) (client : String) (flow : PacketFlow) (target : LinkTarget)
    (source : LinkSource) (origin : InterfaceId) (now : Nat) :
    (opened id client flow target source origin now).core =
      { id, protocol := flow.key.protocol
        client := { domain := client, flow := flow.key.flow }
        server := { domain := target.domain, flow := target.answerFlow flow.key.protocol source }
        natPort := source.natPort, origin, created := now, lastActivity := 0 } := by
  unfold opened observeFirst
  cases flow.tcpFlags with
  | none => rfl
  | some flags => exact core_observeTcp ..

end Link

/-! ## Domains -/

/-- The table without what traffic changes in its links. -/
def LinkTable.core (table : LinkTable) : LinkTable :=
  { table with owned := table.owned.mapValues fun _ => Link.core }

namespace Domain

/-- The domain without what links and their ports do not depend on. -/
def core (d : Domain) : Domain :=
  { d with
    pools := d.pools.map Port.Pool.core
    arp := ∅
    links := d.links.core
    dhcpServer := none
    interfaces := ∅
    dependents := ∅
    rxBytes := 0
    txBytes := 0 }

/-- The shares of a client with nothing used. -/
def unused (rule : Rule.Masquerade) : Rule.Masquerade :=
  { rule with quotas := rule.quotas.map (·.counting 0) }

/-- Shares are as they were if they are bounded as they were and count the same. -/
theorem eq_of_unused {rule rule' : Rule.Masquerade} (h : unused rule' = unused rule)
    (hused : ∀ p, (rule'.quotas.get p).used = (rule.quotas.get p).used) : rule' = rule := by
  have hdomain : rule'.domain = rule.domain := (congrArg Rule.Masquerade.domain h :)
  have hquotas : rule'.quotas = rule.quotas := Rule.PerProtocol.ext_get fun p => by
    have hmax := congrArg (fun rule : Rule.Masquerade => (rule.quotas.get p).max) h
    simp only [unused, Rule.PerProtocol.get_map] at hmax
    exact Port.Quota.mk.injEq .. ▸ ⟨hmax, hused p⟩
  exact Rule.Masquerade.mk.injEq .. ▸ ⟨hdomain, hquotas⟩

/-- The domain without links and ports in use, and with all else that is remembered of it. -/
def unlinked (d : Domain) : Domain :=
  { d with
    nat := d.nat.mapValues fun _ => unused
    pools := { icmp := {}, tcp := {}, udp := {} }
    links := {} }

/-- The domain without links and without ports in use. -/
def policy (d : Domain) : Domain :=
  { d.core with
    nat := d.nat.mapValues fun _ => unused
    pools := { icmp := {}, tcp := {}, udp := {} }
    links := {} }

/-- The domain without addresses. -/
def unconfigured (d : Domain) : Domain :=
  { d with ipConfig := none }

/-- The policy as it is configured, whatever the addresses are. -/
def base (d : Domain) : Domain :=
  d.policy.unconfigured

/-- The domain without its table of links. -/
def bare (d : Domain) : Domain :=
  { d with links := {} }

@[simp] theorem name_core (d : Domain) : d.core.name = d.name := rfl

@[simp] theorem name_policy (d : Domain) : d.policy.name = d.name := rfl

@[simp] theorem name_base (d : Domain) : d.base.name = d.name := rfl

@[simp] theorem name_unlinked (d : Domain) : d.unlinked.name = d.name := rfl

theorem name_of_unlinked {d d' : Domain} (h : d'.unlinked = d.unlinked) : d'.name = d.name :=
  (congrArg name h :)

theorem core_changeLink (id : Nat) (f : Link → Link) (hf : ∀ link, (f link).core = link.core)
    (d : Domain) :
    ({ d with links.owned := d.links.owned.modify id f } : Domain).core = d.core := by
  unfold core LinkTable.core
  simp only [SortedMap.mapValues_modify hf]

/-- A share and the pool behind it count as ports in use only, if the share is as large. -/
theorem unlinked_withShare {d : Domain} {client : String} {rule : Rule.Masquerade}
    (h : d.nat.get? client = some rule) (p : Protocol) (n : Nat) (pool : Port.Pool) :
    (d.withShare client rule p ((rule.quotas.get p).counting n) pool).unlinked = d.unlinked := by
  have hrule : unused { rule with quotas := rule.quotas.set p ((rule.quotas.get p).counting n) } =
      unused rule := by
    have hset : (rule.quotas.set p ((rule.quotas.get p).counting n)).map (·.counting 0) =
        rule.quotas.map (·.counting 0) := by
      rw [Rule.PerProtocol.map_set]
      have hget := Rule.PerProtocol.get_map (·.counting 0) rule.quotas p
      exact (congrArg _ hget.symm).trans (Rule.PerProtocol.set_get ..)
    rw [unused, unused, hset]
  have hnat : (d.nat.insert client
      { rule with quotas := rule.quotas.set p ((rule.quotas.get p).counting n) }).mapValues
        (fun _ => unused) = d.nat.mapValues fun _ => unused := by
    rw [SortedMap.mapValues_insert, hrule]
    refine SortedMap.insert_eq_self ?_
    rw [SortedMap.get?_mapValues, h]
    rfl
  unfold unlinked withShare
  simp only [hnat]

theorem Grants.unlinked_eq {d taken : Domain} {client : String} {p : Protocol} {port : UInt16}
    (h : d.Grants client p port taken) : taken.unlinked = d.unlinked := by
  obtain ⟨rule, pool, hrule, -, -, rfl⟩ := h
  exact unlinked_withShare hrule ..

theorem unlinked_freePort (d : Domain) (client : String) (p : Protocol) (port : UInt16) :
    (d.freePort client p port).unlinked = d.unlinked := by
  cases hrule : d.nat.get? client with
  | none =>
    unfold freePort
    rw [hrule]
    rfl
  | some rule =>
    rw [freePort_of_rule hrule]
    exact unlinked_withShare hrule ..

theorem core_withShare_self {d : Domain} {client : String} {rule : Rule.Masquerade} {p : Protocol}
    {pool : Port.Pool} (h : d.nat.get? client = some rule)
    (hpool : pool.core = (d.pools.get p).core) :
    (d.withShare client rule p (rule.quotas.get p) pool).core = d.core := by
  have hnat : d.nat.insert client { rule with quotas := rule.quotas.set p (rule.quotas.get p) } =
      d.nat := by
    rw [Rule.PerProtocol.set_get]
    exact SortedMap.insert_eq_self h
  have hpools : (d.pools.set p pool).map Port.Pool.core = d.pools.map Port.Pool.core := by
    have hget := Rule.PerProtocol.get_map Port.Pool.core d.pools p
    rw [Rule.PerProtocol.map_set, hpool, ← hget, Rule.PerProtocol.set_get]
  unfold core withShare
  simp only [hnat, hpools]

theorem bare_freePort (d : Domain) (client : String) (p : Protocol) (port : UInt16) :
    (d.freePort client p port).bare = d.bare.freePort client p port := by
  unfold freePort bare
  cases d.nat.get? client <;> rfl

theorem unlinked_releaseLink (d : Domain) (link : Link) :
    (d.releaseLink link).unlinked = d.unlinked := by
  unfold releaseLink
  split
  · exact unlinked_freePort ..
  · rfl

/-- **Giving back the port that was just handed out leaves the core.** -/
theorem core_freePort_allocPort {d taken : Domain} {client : String} {p : Protocol} {port : UInt16}
    (hnext : (d.pools.get p).next < Port.portCount)
    (h : d.allocPort client p = .ok (port, taken)) :
    (taken.freePort client p port).core = d.core := by
  obtain ⟨rule, pool, hrule, hq, ha, rfl⟩ := allocPort_eq_ok h
  have htaken : pool.isTaken port = true := by
    rw [(Port.Pool.takes_alloc? hnext ha).isTaken]
    simp
  rw [freePort_withShare htaken]
  exact core_withShare_self hrule (Port.Pool.core_free_alloc? hnext ha)

end Domain

/-! ## Trees -/

namespace DomainTree

variable {tree tree' : DomainTree} {f : Domain → Domain}

/-- The tree with only the cores of its domains. -/
def core (tree : DomainTree) : DomainTree :=
  { tree with domains := tree.domains.map Domain.core }

/-- The tree with its domains without links and without ports in use. -/
def unlinked (tree : DomainTree) : DomainTree :=
  { tree with domains := tree.domains.map Domain.unlinked }

/-- What decides in each domain where flows go. -/
def policies (tree : DomainTree) : List Domain :=
  tree.domains.map Domain.policy

/-- What decides in the domain with a name where flows go. -/
def policy? (tree : DomainTree) (name : String) : Option Domain :=
  (tree.byName? name).map Domain.policy

/-- The domains as they are configured. -/
def bases (tree : DomainTree) : List Domain :=
  tree.domains.map Domain.base

theorem policy?_eq (tree : DomainTree) (name : String) :
    tree.policy? name = findByName? name tree.policies :=
  (findByName?_map Domain.name_policy name tree.domains).symm

theorem policy?_of_policies (h : tree'.policies = tree.policies) (name : String) :
    tree'.policy? name = tree.policy? name := by
  rw [policy?_eq, h, policy?_eq]

theorem policies_of_unlinked (h : tree'.unlinked = tree.unlinked) :
    tree'.policies = tree.policies :=
  map_congr_of_map (f := Domain.unlinked) (g := Domain.policy) (k := fun d => { d with
    arp := ∅, dhcpServer := none, interfaces := ∅, dependents := ∅, rxBytes := 0, txBytes := 0 })
    (fun _ => rfl) (congrArg DomainTree.domains h)

theorem bases_of_policies (h : tree'.policies = tree.policies) : tree'.bases = tree.bases :=
  map_congr_of_map (f := Domain.policy) (g := Domain.base) (k := Domain.unconfigured)
    (fun _ => rfl) h

theorem names_of_bases (h : tree'.bases = tree.bases) : tree'.names = tree.names :=
  map_congr_of_map (f := Domain.base) (g := Domain.name) Domain.name_base h

/-- A change that only the tables of links show leaves what the ports are. -/
theorem exists_byName?_of_update {name other : String} {d' : Domain}
    (hf : ∀ d, (f d).bare = d.bare) (h : (tree.update name f).byName? other = some d') :
    ∃ d, tree.byName? other = some d ∧ d'.bare = d.bare := by
  have hname : ∀ d, (f d).name = d.name := fun d => (congrArg Domain.name (hf d) :)
  rw [byName?_update _ _ _ fun d hd => (hname d).trans hd] at h
  split at h
  · rename_i ho
    obtain ⟨d, hd, rfl⟩ := Option.map_eq_some_iff.1 h
    exact ⟨d, ho ▸ hd, hf d⟩
  · exact ⟨d', h, rfl⟩

theorem unlinked_update {name : String}
    (hf : ∀ d, tree.byName? name = some d → (f d).unlinked = d.unlinked) :
    (tree.update name f).unlinked = tree.unlinked := by
  have hmap : (changeByName name f tree.domains).map Domain.unlinked =
      tree.domains.map Domain.unlinked :=
    map_changeByName hf
  rw [unlinked, unlinked, update, hmap]

theorem bases_update {name : String}
    (hf : ∀ d, tree.byName? name = some d → (f d).base = d.base) :
    (tree.update name f).bases = tree.bases :=
  map_changeByName hf

theorem core_update {name : String}
    (hf : ∀ d, tree.byName? name = some d → (f d).core = d.core) :
    (tree.update name f).core = tree.core := by
  have hmap : (changeByName name f tree.domains).map Domain.core = tree.domains.map Domain.core :=
    map_changeByName hf
  rw [core, core, update, hmap]

theorem core_updateAt {id : DomainId} (hf : ∀ d, (f d).core = d.core) :
    (tree.updateAt id f).core = tree.core := by
  unfold updateAt
  split
  · rw [core, core, map_modify hf]
  · rfl

/-! ### The views of a core -/

theorem byName?_core (tree : DomainTree) (name : String) :
    tree.core.byName? name = (tree.byName? name).map Domain.core :=
  findByName?_map Domain.name_core name tree.domains

theorem policies_core (tree : DomainTree) : tree.core.policies = tree.policies := by
  rw [policies, core, List.map_map]
  rfl

theorem ownedLink?_core (tree : DomainTree) (owner : String) (id : Nat) :
    tree.core.ownedLink? owner id = (tree.ownedLink? owner id).map Link.core := by
  rw [ownedLink?, byName?_core, ownedLink?]
  cases tree.byName? owner with
  | none => rfl
  | some d => exact SortedMap.get?_mapValues ..

theorem lookup?_core (tree : DomainTree) (seat : Seat) :
    tree.core.lookup? seat = tree.lookup? seat := by
  rw [lookup?, byName?_core, lookup?]
  cases tree.byName? seat.domain <;> rfl

theorem liveLinks_core (tree : DomainTree) :
    tree.core.liveLinks = tree.liveLinks.map Link.core := by
  rw [liveLinks, liveLinks, core, List.flatMap_map, List.map_flatMap]
  exact List.flatMap_congr fun d _ => SortedMap.values_mapValues Link.core d.links.owned

theorem generation_of_core (h : tree'.core = tree.core) : tree'.generation = tree.generation :=
  (congrArg DomainTree.generation h : tree'.core.generation = tree.core.generation)

theorem policies_of_core (h : tree'.core = tree.core) : tree'.policies = tree.policies := by
  rw [← policies_core, h, policies_core]

theorem liveLinks_of_core (h : tree'.core = tree.core) :
    tree'.liveLinks.map Link.core = tree.liveLinks.map Link.core := by
  rw [← liveLinks_core, h, liveLinks_core]

end DomainTree

end SegmentRouter
