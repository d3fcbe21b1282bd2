import Mathlib.Data.List.Forall2
import SegmentRouter.Proofs.Config.Cycles
import SegmentRouter.Proofs.Tree.Plan

/-!
# Proofs/Tree/Represented — an accepted configuration is in the tree as it was written

The tables of a domain keep one entry for each key, leave out permits whose ports are none, and say
nothing of names that they do not know.  What is accepted has no entry twice, only permits of ports,
and only names of domains, so nothing of it is lost on the way into the tree
(`represents_next`).
-/

namespace SegmentRouter

open Relation

/-! ## What has to be in the tree -/

/-- **The names that a domain's part of the configuration mentions**, by the places where they
stand. -/
inductive Config.Domain.Mentions (c : Config.Domain) : String → Prop
  | nat {n : Config.Masquerade} (h : n ∈ c.nat) : c.Mentions n.domain
  | ip {rule : Rule.Ip} (h : rule ∈ c.ip) : c.Mentions rule.domain
  | icmp {rule : Rule.Ip} (h : rule ∈ c.icmp) : c.Mentions rule.domain
  | permitAny {rule : Config.Transport} {name : String} (h : rule ∈ c.tcp ∨ rule ∈ c.udp)
    (hany : rule.permitAny = some name) : c.Mentions name
  | permit {rule : Config.Transport} {permit : Config.Permit} (h : rule ∈ c.tcp ∨ rule ∈ c.udp)
    (hpermit : permit ∈ rule.permit) : c.Mentions permit.domain
  | forward {rule : Rule.Forward} (h : rule ∈ c.tcpForward ∨ rule ∈ c.udpForward) :
    c.Mentions rule.domain
  | supplier {name : String} (h : c.ipConfigFrom = some name) : c.Mentions name
  | dnsServer {pool : Config.DhcpPool} {name : String} (h : c.dhcpServer = some pool)
    (hname : pool.dnsServerFrom = some name) : c.Mentions name

/-- **A permit is for the ports that its text writes**: there are some, and port 0 is none of
them. -/
structure Rule.Permit.Built (c : Config.Permit) (permit : Rule.Permit) : Prop where
  domain : permit.domain = c.domain
  ports : Port.Range.ofText c.ports = .ok permit.ports
  sound : permit.ports.Sound

/-- **A transport rule has all the permits that were written for it.** -/
structure Rule.Transport.Built (c : Config.Transport) (rule : Rule.Transport) : Prop where
  dst : rule.dst = c.dst
  permitAny : rule.permitAny = c.permitAny
  permits : List.Forall₂ Rule.Permit.Built c.permit rule.permits

/-- **A domain is built from its part of the configuration.** -/
structure Domain.Built (c : Config.Domain) (timeouts : Config.Timeouts) (d : Domain) : Prop where
  config : d.config = c
  plan : d.plan = (ofConfig c timeouts).plan
  ip : d.rules.ip = .ofList Rule.Ip.dst c.ip
  icmp : d.rules.icmp = .ofList Rule.Ip.dst c.icmp
  tcp : ∃ rules, d.rules.tcp = .ofList Rule.Transport.dst rules ∧
    List.Forall₂ Rule.Transport.Built c.tcp rules
  udp : ∃ rules, d.rules.udp = .ofList Rule.Transport.dst rules ∧
    List.Forall₂ Rule.Transport.Built c.udp rules
  tcpForward : ∀ rule ∈ c.tcpForward, d.rules.tcpForward.get? rule.port = some rule
  udpForward : ∀ rule ∈ c.udpForward, d.rules.udpForward.get? rule.port = some rule
  /-- But for the ports that are in use the shares are the configured ones. -/
  nat : ∀ n ∈ c.nat, ∃ rule, d.nat.get? n.domain = some rule ∧ unused rule = .ofConfig n
  interface : ∀ interface, c.interface = some interface →
    d.ipConfig = some { interface, gateway := c.gateway, dnsServer := c.dnsServer } ∧
      ∀ gateway, c.gateway = some gateway → interface.contains gateway = true
  pool : ∀ pool, c.dhcpServer = some pool → ∃ interface server,
    c.interface = some interface ∧ d.dhcpServer = some server ∧ server.first = pool.first ∧
      server.last = pool.last ∧ server.first.toNat ≤ server.last.toNat ∧
      interface.contains server.first = true ∧ interface.contains server.last = true

namespace DomainTree

/-- A domain of the tree takes its addresses from another one. -/
def TakesFrom (tree : DomainTree) (name supplier : String) : Prop :=
  ∃ d, tree.byName? name = some d ∧ d.config.ipConfigFrom = some supplier

/-- **The configuration is in the tree as it was written.** -/
structure Represents (tree : DomainTree) (config : Config) : Prop where
  length : tree.domains.length = config.domains.length
  domain : ∀ c ∈ config.domains, ∃ d, tree.byName? c.name = some d ∧ d.Built c config.timeouts
  mentioned : ∀ c ∈ config.domains, ∀ name, c.Mentions name → (tree.byName? name).isSome
  acyclic : ∀ name, ¬ TransGen tree.TakesFrom name name

end DomainTree

/-! ## What the checks leave nothing to lose of -/

namespace Config

variable {config : Config} {c : Config.Domain} {name : String}

theorem Domain.mem_transportNames {rules : List Transport} :
    name ∈ Domain.transportNames rules ↔ ∃ rule ∈ rules,
      rule.permitAny = some name ∨ ∃ permit ∈ rule.permit, permit.domain = name := by
  simp [Domain.transportNames, List.mem_flatMap]

/-- What a domain mentions is looked at when its references are checked. -/
theorem Domain.Mentions.mem_references (h : c.Mentions name) : name ∈ c.references := by
  simp only [Domain.references, List.mem_append, Domain.mem_transportNames, List.mem_map,
    Option.mem_toList, Option.bind_eq_some_iff]
  cases h <;> grind

section

variable (h : config.validate.hasErrors = false) (hc : c ∈ config.domains)

include h hc

/-- **The rules of an accepted configuration** are for ports that exist, and no entry is there
twice. -/
theorem rules_valid : (∀ rule, rule ∈ c.tcp ∨ rule ∈ c.udp → ∀ permit ∈ rule.permit,
      ∃ ports, Port.Range.ofText permit.ports = .ok ports) ∧
    (c.tcpForward.map (·.port)).Nodup ∧ (c.udpForward.map (·.port)).Nodup ∧
      (c.nat.map (·.domain)).Nodup := by
  have hclean := clean_checkDomain h hc
  simp only [checkDomain, checkRules, allErrors_append, allErrors_flatMap] at hclean
  obtain ⟨-, ⟨⟨⟨⟨htcp, hudp⟩, htcpForward⟩, hudpForward⟩, -⟩, hnat⟩ := hclean
  refine ⟨fun rule hrule => ?_, (clean_checkForwards.1 htcpForward).2,
    (clean_checkForwards.1 hudpForward).2, (clean_checkNat.1 hnat).2⟩
  rcases hrule with hrule | hrule
  · exact (clean_checkTransport.1 (htcp rule hrule)).2
  · exact (clean_checkTransport.1 (hudp rule hrule)).2

end

end Config

/-! ## What is built of it -/

/-- Where all permits are of ports none is left out. -/
theorem RuleSet.built_transportRule {rule : Config.Transport}
    (h : ∀ permit ∈ rule.permit, ∃ ports, Port.Range.ofText permit.ports = .ok ports) :
    Rule.Transport.Built rule (transportRule rule) := by
  refine ⟨rfl, rfl, ?_⟩
  -- only the permits are read anew, one after the other
  rw [transportRule]
  dsimp only
  generalize rule.permit = permits at h ⊢
  induction permits with
  | nil => exact .nil
  | cons permit rest ih =>
    obtain ⟨ports, hports⟩ := h permit List.mem_cons_self
    rw [List.filterMap_cons, hports]
    exact .cons ⟨rfl, hports, Port.Range.sound_of_ofText hports⟩
      (ih fun p hp => h p (List.mem_cons_of_mem _ hp))

theorem RuleSet.built_transportRules {rules : List Config.Transport}
    (h : ∀ rule ∈ rules, ∀ permit ∈ rule.permit,
      ∃ ports, Port.Range.ofText permit.ports = .ok ports) :
    List.Forall₂ Rule.Transport.Built rules (rules.map transportRule) :=
  List.forall₂_map_right_iff.2 (List.forall₂_same.2 fun rule hrule =>
    built_transportRule (h rule hrule))

/-- Where no port is passed on twice each rule is found under its own. -/
theorem Rule.Forwards.get?_ofList {rules : List Forward} (h : (rules.map (·.port)).Nodup)
    {rule : Forward} (hrule : rule ∈ rules) :
    (ofList rules).get? rule.port = some rule := by
  refine SortedMap.get?_ofList_of_mem (e := (rule.port, rule)) ?_ (List.mem_map_of_mem hrule)
  rwa [List.map_map]

namespace Domain

variable {c : Config.Domain} {timeouts : Config.Timeouts} {d : Domain}

section

variable (hplan : d.plan = (ofConfig c timeouts).plan)

include hplan

/-- Shares are granted as they are configured, but for what is in use. -/
theorem get?_nat_of_plan (h : (c.nat.map (·.domain)).Nodup) {n : Config.Masquerade}
    (hn : n ∈ c.nat) : ∃ rule, d.nat.get? n.domain = some rule ∧ unused rule = .ofConfig n := by
  have hconfigured : (ofConfig c timeouts).nat.get? n.domain = some (.ofConfig n) := by
    refine SortedMap.get?_ofList_of_mem (e := (n.domain, Rule.Masquerade.ofConfig n)) ?_
      (List.mem_map_of_mem hn)
    rwa [List.map_map]
  have hplanned : (d.nat.mapValues fun _ => unused) =
      (ofConfig c timeouts).nat.mapValues fun _ => unused := (congrArg Domain.nat hplan :)
  have hfound := congrArg (SortedMap.get? · n.domain) hplanned
  simp only [SortedMap.get?_mapValues, hconfigured, Option.map_some] at hfound
  exact Option.map_eq_some_iff.1 hfound

/-- The server leases the addresses of the configured pool. -/
theorem dhcpServer_of_plan {pool : Config.DhcpPool} (hpool : c.dhcpServer = some pool) :
    ∃ server, d.dhcpServer = some server ∧ server.first = pool.first ∧
      server.last = pool.last := by
  have hplanned : d.dhcpServer.map (·.vacant) =
      (ofConfig c timeouts).dhcpServer.map (·.vacant) := (congrArg Domain.dhcpServer hplan :)
  rw [ofConfig, hpool] at hplanned
  obtain ⟨server, hserver, hvacant⟩ := Option.map_eq_some_iff.1 hplanned
  exact ⟨server, hserver, (congrArg DhcpServer.first hvacant :),
    (congrArg DhcpServer.last hvacant :)⟩

/-- A domain with a fixed address is static. -/
theorem isStatic_of_plan {interface : Cidr} (hinterface : c.interface = some interface) :
    d.source = .static := by
  have hsource : d.source = sourceOf c := (congrArg Domain.source hplan :)
  rw [hsource, sourceOf, Config.Domain.isStatic, hinterface]
  rfl

end

/-- **A domain that is planned by an accepted configuration is built from it.** -/
theorem built_of_plan {config : Config} (h : config.validate.hasErrors = false)
    (hc : c ∈ config.domains) (hplan : d.plan = (ofConfig c config.timeouts).plan)
    (hfixed : d.source = .static → d.ipConfig = c.ipConfig?) : d.Built c config.timeouts := by
  obtain ⟨hports, htcpForward, hudpForward, hnat⟩ := Config.rules_valid h hc
  have hrules : d.rules = .ofConfig c := (congrArg Domain.rules hplan :)
  refine
    { config := (congrArg Domain.config hplan :)
      plan := hplan
      ip := hrules ▸ rfl
      icmp := hrules ▸ rfl
      tcp := ⟨_, hrules ▸ rfl, RuleSet.built_transportRules fun rule hr => hports rule (.inl hr)⟩
      udp := ⟨_, hrules ▸ rfl, RuleSet.built_transportRules fun rule hr => hports rule (.inr hr)⟩
      tcpForward := fun rule hr => hrules ▸ Rule.Forwards.get?_ofList htcpForward hr
      udpForward := fun rule hr => hrules ▸ Rule.Forwards.get?_ofList hudpForward hr
      nat := fun n hn => get?_nat_of_plan hplan hnat hn
      interface := fun interface hinterface => ?_
      pool := fun pool hpool => ?_ }
  · refine ⟨?_, (Config.interface_valid h hc hinterface).2.1⟩
    rw [hfixed (isStatic_of_plan hplan hinterface), Config.Domain.ipConfig?, hinterface]
    rfl
  · obtain ⟨interface, hinterface, hordered, hfirst, hlast⟩ := Config.pool_valid h hc hpool
    obtain ⟨server, hserver, hf, hl⟩ := dhcpServer_of_plan hplan hpool
    refine ⟨interface, server, hinterface, hserver, hf, hl, ?_⟩
    rw [hf, hl]
    exact ⟨hordered, hfirst, hlast⟩

end Domain

namespace DomainTree

section

variable {tree : DomainTree} {config : Config}

/-- Where the tree follows the plan the domains of the configuration are found in it. -/
theorem byName?_of_plans (hplans : tree.plans = config.plans)
    (hvalid : config.validate.hasErrors = false) {c : Config.Domain} (hc : c ∈ config.domains) :
    ∃ d, tree.byName? c.name = some d ∧ d.config = c ∧
      d.plan = (Domain.ofConfig c config.timeouts).plan := by
  obtain ⟨rank, hranked⟩ := ranked_of_plans hplans hvalid
  have hmem : (Domain.ofConfig c config.timeouts).plan ∈ tree.plans :=
    hplans ▸ List.mem_map_of_mem hc
  obtain ⟨d, hd, hplan⟩ := List.mem_map.1 hmem
  have hconfig : d.config = c := (congrArg Domain.config hplan :)
  refine ⟨d, ?_, hconfig, hplan⟩
  rw [← hconfig]
  exact hranked.distinct.byName?_of_mem hd

/-- Where the tree follows the plan nobody takes addresses from itself. -/
theorem acyclic_of_plans (hplans : tree.plans = config.plans)
    (hvalid : config.validate.hasErrors = false) (name : String) :
    ¬ TransGen tree.TakesFrom name name := by
  have hstep : ∀ a b, tree.TakesFrom a b →
      Config.SuppliedBy (Config.named config.domains) a b := by
    rintro a b ⟨d, hd, hfrom⟩
    obtain ⟨hmem, -⟩ := plan_of_plans hplans (mem_of_byName? hd)
    rw [Config.SuppliedBy, ← name_of_byName? hd]
    exact (Config.supplierOf?_named hvalid hmem).trans hfrom
  intro hcycle
  have hway := TransGen.mono hstep _ _ hcycle
  obtain ⟨_, hsupplier, -⟩ := TransGen.head'_iff.1 hway
  have hcyclic := Config.isCyclic_iff.2 hway
  rw [Config.not_isCyclic hvalid hsupplier.mem_keys] at hcyclic
  cases hcyclic

end

/-- **An accepted configuration is represented faithfully** in the domains that are made of it,
whatever there was before. -/
theorem represents_next (previous : DomainTree) (config : Config)
    (h : config.validate.hasErrors = false) : (previous.next config).value.Represents config := by
  obtain ⟨hplans, -⟩ := previous.plans_next config
  -- the plan is without addresses, so those of static domains come from what is supplied
  obtain ⟨rank, hranked⟩ := previous.ranked_raw h
  obtain ⟨hsupplied, -⟩ := supplied_next hranked
  refine
    { length := length_of_plans hplans
      domain := fun c hc => ?_
      mentioned := fun c hc name hname => ?_
      acyclic := acyclic_of_plans hplans h }
  · obtain ⟨d, hd, hconfig, hplan⟩ := byName?_of_plans hplans h hc
    refine ⟨d, hd, Domain.built_of_plan h hc hplan fun hstatic => ?_⟩
    have hfixed := hsupplied.fixed c.name (by rw [source?, hd, Option.map_some, hstatic])
    rwa [ipConfig?, fixed?, hd, Option.bind_some, Option.bind_some, hconfig] at hfixed
  · have hknown := Config.contains_reference h hc hname.mem_references
    obtain ⟨e, he⟩ := Option.isSome_iff_exists.1 hknown
    obtain ⟨hmem, rfl⟩ := (Config.get?_named h).1 he
    obtain ⟨d, hd, -⟩ := byName?_of_plans hplans h hmem
    rw [hd]
    rfl

/-! ### A configuration with rules of all kinds -/

namespace Office

theorem prefixLength_le : 24 ≤ 32 := by
  decide

/-- The router's address in the first domain. -/
def interface : Cidr := ⟨.ofOctets 10 0 0 1, 24, prefixLength_le⟩

/-- All addresses. -/
def anywhere : Cidr := ⟨.ofOctets 0 0 0 0, 0, Nat.zero_le _⟩

/-- A domain with fixed addresses, which serves them too, and may reach the web. -/
def lan : Config.Domain where
  name := "lan"
  interface := some interface
  gateway := some (.ofOctets 10 0 0 254)
  dhcpServer := some
    { first := .ofOctets 10 0 0 100, last := .ofOctets 10 0 0 200, dnsServerFrom := some "wan" }
  ip := [{ dst := interface, domain := "guest" }]
  icmp := [{ dst := anywhere, domain := "wan" }]
  tcp := [
    { dst := anywhere
      permit := [{ ports := "80", domain := "wan" }, { ports := "8000-8080", domain := "guest" }] }]
  udp := [{ dst := anywhere, permitAny := some "wan" }]

/-- A domain with leased addresses, which passes a port on. -/
def wan : Config.Domain where
  name := "wan"
  nat := [{ domain := "lan", tcpPorts := 100 }, { domain := "guest", udpPorts := 10 }]
  tcpForward := [
    { port := 443, domain := "lan", host := .ofOctets 10 0 0 2, hostPort := some 8443 }]

/-- A domain with the addresses of another one. -/
def guest : Config.Domain where
  name := "guest"
  ipConfigFrom := some "wan"

/-- The configuration of the three. -/
def config : Config where
  domains := [lan, wan, guest]

end Office

/-- The office's configuration is accepted, and nothing of it is lost. -/
theorem represents_office : Office.config.validate.hasErrors = false ∧
    ((({ generation := 0, domains := [], verbose := false } : DomainTree).next
      Office.config).value).Represents Office.config := by
  have hvalid : Office.config.validate.hasErrors = false := by decide +kernel
  exact ⟨hvalid, represents_next _ Office.config hvalid⟩

end DomainTree

end SegmentRouter
