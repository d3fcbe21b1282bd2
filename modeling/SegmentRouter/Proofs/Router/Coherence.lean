import SegmentRouter.Proofs.Router.Addresses
import SegmentRouter.Proofs.Tree.Resupply

/-!
# Proofs/Router/Coherence — derived addresses are coherent

Where the addresses of a domain come from another one, the two have the same addresses or both none,
and so have all domains of a chain of suppliers.  A supplier lists exactly those that have addresses
from it (`DomainTree.Coherent`).  It is so whatever happened to the router (`Reachable.coherent`).

In every state of a router the addresses of a domain that leases them can be set and removed; this
reaches the domains that have theirs from it and no others (`Reachable.resupplies`).  Addresses of
other domains can not be set that way, nor can those of a domain of another generation.
-/

namespace SegmentRouter

namespace DomainTree

variable {tree : DomainTree} {d e : Domain} {config : Config}

/-- A domain has its addresses from another one. -/
structure Derives (tree : DomainTree) (d e : Domain) : Prop where
  left : d ∈ tree.domains
  right : e ∈ tree.domains
  source : d.source = .derived e.name

/-- **Derived addresses are coherent.** -/
structure Coherent (tree : DomainTree) : Prop where
  distinct : tree.Distinct
  /-- The supplier of a domain is there. -/
  supplier : ∀ d ∈ tree.domains, ∀ name, d.source = .derived name →
    ∃ e, tree.Derives d e ∧ e.name = name
  ipConfig : ∀ {d e}, tree.Derives d e → d.ipConfig = e.ipConfig
  chain : ∀ {d e}, Relation.TransGen tree.Derives d e → d.ipConfig = e.ipConfig
  /-- Chains end in domains that have their addresses from no other one. -/
  root : ∀ d ∈ tree.domains, ∃ e, Relation.ReflTransGen tree.Derives d e ∧
    ∀ name, e.source ≠ .derived name
  /-- The dependents of a domain are the domains with addresses that have them from it. -/
  dependents : ∀ e ∈ tree.domains, ∀ name, e.dependents.contains name = true ↔
    ∃ d, tree.Derives d e ∧ d.name = name ∧ d.ipConfig.isSome = true

theorem notes_of_mem (hdistinct : tree.Distinct) (he : e ∈ tree.domains) (name : String) :
    tree.Notes e.name name ↔ e.dependents.contains name = true := by
  rw [Notes, hdistinct.byName?_of_mem he, Option.map_some, Option.some.injEq]

/-- **An accepted configuration has every supplier that it names.** -/
theorem exists_supplier (hplans : tree.plans = config.plans)
    (hvalid : config.validate.hasErrors = false) (hd : d ∈ tree.domains) {name : String}
    (hsource : d.source = .derived name) : ∃ e, tree.Derives d e ∧ e.name = name := by
  have hmem := (plan_of_plans hplans hd).1
  have hfrom := Domain.ipConfigFrom_of_source ((source_of_plans hplans hd).symm.trans hsource)
  obtain ⟨c, hc, hname⟩ := (Config.mem_keys_named hvalid).1 (Config.supplier_mem hvalid hmem hfrom)
  have hnames : name ∈ tree.names := by
    rw [names_of_plans hplans, ← hname]
    exact List.mem_map_of_mem hc
  obtain ⟨e, he, rfl⟩ := List.mem_map.1 hnames
  exact ⟨e, ⟨hd, he, hsource⟩, rfl⟩

/-- **Domains that are supplied as they should be are coherent.** -/
theorem Supplied.coherent_of_plans (h : tree.Supplied) (hplans : tree.plans = config.plans)
    (hvalid : config.validate.hasErrors = false) : tree.Coherent := by
  obtain ⟨rank, hr⟩ := ranked_of_plans hplans hvalid
  have hsupplier : ∀ d ∈ tree.domains, ∀ name, d.source = .derived name →
      ∃ e, tree.Derives d e ∧ e.name = name := fun d hd name =>
    exists_supplier hplans hvalid hd
  have hagrees {d e : Domain} (hde : tree.Derives d e) : tree.Agrees e.name d.name :=
    h.agrees e.name d.name ((source?_of_mem hr.distinct hde.left).trans
      (congrArg some hde.source))
  have hipConfig {d e : Domain} (hde : tree.Derives d e) : d.ipConfig = e.ipConfig := by
    rw [← ipConfig?_of_mem hr.distinct hde.left, ← ipConfig?_of_mem hr.distinct hde.right]
    exact (hagrees hde).config
  constructor
  case distinct => exact hr.distinct
  case supplier => exact hsupplier
  case ipConfig => exact hipConfig
  case chain =>
    intro d e hchain
    induction hchain with
    | single hde => exact hipConfig hde
    | tail _ hde ih => exact ih.trans (hipConfig hde)
  case root =>
    -- ranks decrease along a chain
    intro d hd
    induction hn : rank d.name using Nat.strong_induction_on generalizing d with
    | _ n ih =>
      by_cases hroot : ∀ name, d.source ≠ .derived name
      · exact ⟨d, .refl, hroot⟩
      · obtain ⟨name, hsource⟩ := not_forall_not.1 hroot
        obtain ⟨e, hde, rfl⟩ := hsupplier d hd name hsource
        have hlower := hr.lower d.name e.name ((source?_of_mem hr.distinct hd).trans
          (congrArg some hsource))
        obtain ⟨root, hchain, hroot⟩ := ih (rank e.name) (hn ▸ hlower) e hde.right rfl
        exact ⟨root, .head hde hchain, hroot⟩
  case dependents =>
    intro e he name
    rw [← notes_of_mem hr.distinct he, h.notes_iff]
    constructor
    · rintro ⟨hderived, hsome⟩
      obtain ⟨d, hby, hsource⟩ := Option.map_eq_some_iff.1 hderived
      have hd := mem_of_byName? hby
      have hname := name_of_byName? hby
      rw [← hname, ipConfig?_of_mem hr.distinct hd] at hsome
      exact ⟨d, ⟨hd, he, hsource⟩, hname, hsome⟩
    · rintro ⟨d, hde, rfl, hsome⟩
      rw [source?_of_mem hr.distinct hde.left, ipConfig?_of_mem hr.distinct hde.left, hde.source]
      exact ⟨rfl, hsome⟩

end DomainTree

namespace Router

variable {r : Router}

/-- **In every state of a router derived addresses are coherent.** -/
theorem Reachable.coherent (h : r.Reachable) : r.tree.Coherent :=
  h.arises.addressed.supplied.coherent_of_plans h.arises.planned.plans h.arises.planned.valid

/-! ## A chain below a leased address -/

namespace Uplink

/-- A domain whose addresses are leased, one that has them from it, and one that has them from
that. -/
def config : Config where
  domains := [
    { name := "uplink" },
    { name := "guest", ipConfigFrom := some "uplink" },
    { name := "lab", ipConfigFrom := some "guest" }]

theorem hasErrors_config : config.validate.hasErrors = false := by
  decide +kernel

/-- The router with two interfaces in the first domain. -/
def attached : Router :=
  let started := (({} : Router).adopt config).value
  ((started.attach "uplink").value.2.attach "uplink").value.2

/-- The router when the clients of both interfaces look for a server. -/
def searching : Router :=
  (attached.handle 0 (.timer .dhcp)).value.2

/-- An answer to the first interface's client, from the server of 10.0.1.0/24. -/
def message (kind : Wire.Dhcp.Kind) : Wire.Dhcp.Message :=
  { Wire.Dhcp.Message.make .server kind attached.nextXid Config.defaultMac with
    yiaddr := .ofOctets 10 0 1 100 }
  |>.withIp Wire.Dhcp.serverIdCode (.ofOctets 10 0 1 1)
  |>.withIp Wire.Dhcp.subnetMaskCode (.ofOctets 255 255 255 0)

/-- The frame of an answer. -/
def answer (kind : Wire.Dhcp.Kind) : Wire.Bytes :=
  Wire.Ethernet.build {
    dst := Config.defaultMac
    src := ⟨2, 0, 0, 0, 0, 9⟩
    etherType := Wire.EtherType.ipv4.number
    payload := dhcpPacket (.ofOctets 10 0 1 1) .broadcast Wire.Dhcp.serverPort
      Wire.Dhcp.clientPort (message kind) }

/-- The router when the first interface's client was offered an address. -/
def offered : Router :=
  (searching.handle 0 (.frame ⟨0, 0⟩ (answer .offer))).value.2

/-- The router when the first interface's client has a lease. -/
def leased : Router :=
  (offered.handle 0 (.frame ⟨0, 0⟩ (answer .ack))).value.2

theorem reachable_attached : attached.Reachable :=
  .attach (.attach (.adopted hasErrors_config 0) "uplink") "uplink"

theorem reachable_offered : offered.Reachable :=
  .handle (r := searching) (.handle (r := attached) reachable_attached 0 (.timer .dhcp)) 0
    (.frame ⟨0, 0⟩ (answer .offer))

theorem reachable_leased : leased.Reachable :=
  .handle reachable_offered 0 (.frame ⟨0, 0⟩ (answer .ack))

/-- The addresses that the lease grants. -/
def granted : IpConfig where
  interface := ⟨.ofOctets 10 0 1 100, 24, Nat.le_add_right 24 8⟩
  gateway := none
  dnsServer := none

theorem ipConfig_leased : leased.tree.domains.map (fun d => (d.name, d.source, d.ipConfig)) =
    [("uplink", .dhcp, some granted), ("guest", .derived "uplink", some granted),
      ("lab", .derived "guest", some granted)] := by
  decide +kernel

end Uplink

/-- A leased address goes down a chain of two. -/
theorem coherent_uplink : Uplink.leased.Reachable ∧ Uplink.leased.tree.Coherent ∧
    Uplink.leased.tree.domains.map (fun d => (d.name, d.source, d.ipConfig)) =
      [("uplink", .dhcp, some Uplink.granted), ("guest", .derived "uplink", some Uplink.granted),
        ("lab", .derived "guest", some Uplink.granted)] :=
  ⟨Uplink.reachable_leased, Uplink.reachable_leased.coherent, Uplink.ipConfig_leased⟩

/-! ## New addresses -/

/-- **In every state of a router new addresses of a domain that leases them do what they should**,
and addresses that it has already do nothing.  Fixed addresses stay, and a handle from another
configuration is refused. -/
theorem Reachable.resupplies (h : r.Reachable) (id : DomainId) (config : Option IpConfig) :
    (∀ d, r.tree.get? id = some d → d.source = .dhcp → ∃ tree,
      (r.tree.setIpConfig id config).value = .ok tree ∧
      (∀ name, r.tree.Descends d.name name → tree.ipConfig? name = config) ∧
      (config = d.ipConfig → tree = r.tree) ∧
      (config ≠ d.ipConfig → ∃ region, r.tree.Resupplies d.name config region tree)) ∧
    (∀ d, r.tree.get? id = some d → d.source = .static →
      (r.tree.setIpConfig id config).value = .error (.staticIpConfig d.name)) ∧
    (id.generation ≠ r.tree.generation →
      (r.tree.setIpConfig id config).value = .error (.unknownDomain id.text)) := by
  obtain ⟨rank, hr⟩ := DomainTree.ranked_of_plans h.arises.planned.plans h.arises.planned.valid
  refine ⟨fun d hd hdhcp => ?_, fun d hd hstatic => ?_, fun hgeneration => ?_⟩
  · exact h.arises.addressed.supplied.exists_resupplies h.good.sound hr hd hdhcp config
  · rw [DomainTree.setIpConfig, hd]
    simp only [Domain.isStatic, hstatic]
    rfl
  · rw [DomainTree.setIpConfig, DomainTree.get?, if_neg hgeneration]
    rfl

/-- When a lease ends, the chain below it loses its addresses. -/
theorem resupplies_uplink : Uplink.leased.Reachable ∧
    Uplink.leased.tree.ipConfig? "lab" = some Uplink.granted ∧
    ∃ tree, (Uplink.leased.tree.setIpConfig ⟨Uplink.leased.tree.generation, 0⟩ none).value =
        .ok tree ∧ tree.ipConfig? "lab" = none := by
  have hlab : Uplink.leased.tree.ipConfig? "lab" = some Uplink.granted := by decide +kernel
  obtain ⟨d, hd, hdhcp, hname⟩ : ∃ d,
      Uplink.leased.tree.get? ⟨Uplink.leased.tree.generation, 0⟩ = some d ∧
        d.source = .dhcp ∧ d.name = "uplink" :=
    ⟨Uplink.leased.tree.domains.head (by decide +kernel), by decide +kernel, by decide +kernel,
      by decide +kernel⟩
  obtain ⟨tree, hset, hconfig, -⟩ := (Uplink.reachable_leased.resupplies
    ⟨Uplink.leased.tree.generation, 0⟩ none).1 d hd hdhcp
  refine ⟨Uplink.reachable_leased, hlab, tree, hset, hconfig "lab" ?_⟩
  rw [hname]
  exact .tail (.single (by decide +kernel : "guest" ∈ Uplink.leased.tree.derivedFrom "uplink"))
    (by decide +kernel)

end Router

end SegmentRouter
