import SegmentRouter.Proofs.Address.Subnet
import SegmentRouter.Proofs.Config.Names

/-!
# Proofs/Config/Checks — what each check lets pass

A check lets pass what it finds no error in (`Clean`).  For each check that is said here in terms of
the configuration: names that exist, addresses in their subnet, ports that are ports, no entry
twice.
-/

namespace SegmentRouter.Config

open Finding

variable {config : Config} {all : Named} {d : Domain} {interface : Cidr} {pool : DhcpPool}
  {protocol : String} {a b : List Finding} {condition : Bool} {p : String → Prop}

/-- **Every error among the findings has a property.** -/
def AllErrors (p : String → Prop) (findings : List Finding) : Prop :=
  ∀ message, .error message ∈ findings → p message

/-- **None of the findings is an error.** -/
abbrev Clean (findings : List Finding) : Prop :=
  AllErrors (fun _ => False) findings

@[simp] theorem allErrors_nil : AllErrors p [] := fun _ hm => absurd hm List.not_mem_nil

@[simp] theorem allErrors_append : AllErrors p (a ++ b) ↔ AllErrors p a ∧ AllErrors p b := by
  simp only [AllErrors, List.mem_append, or_imp, forall_and]

@[simp] theorem allErrors_flatMap {α : Type} {l : List α} {check : α → List Finding} :
    AllErrors p (l.flatMap check) ↔ ∀ x ∈ l, AllErrors p (check x) := by
  simp only [AllErrors, List.mem_flatMap]
  exact ⟨fun h x hx message hm => h message ⟨x, hx, hm⟩,
    fun h message ⟨x, hx, hm⟩ => h x hx message hm⟩

@[simp] theorem allErrors_error {message : String} : AllErrors p [.error message] ↔ p message := by
  simp [AllErrors]

@[simp] theorem allErrors_warning (message : String) : AllErrors p [.warning message] :=
  fun _ hm => nomatch List.mem_singleton.1 hm

@[simp] theorem allErrors_domainError {name message : String} :
    AllErrors p [domainError name message] ↔ p (s!"domain '{name}': " ++ message) :=
  allErrors_error

@[simp] theorem allErrors_domainWarning (name message : String) :
    AllErrors p [domainWarning name message] :=
  allErrors_warning _

@[simp] theorem allErrors_findIf {f : Finding} :
    AllErrors p (findIf condition f) ↔ (condition = true → AllErrors p [f]) := by
  cases condition <;> simp [findIf]

/-- A configuration without errors has clean findings. -/
theorem clean_findings : Clean config.validate.findings ↔ config.validate.hasErrors = false := by
  refine ⟨fun h => ?_, not_error_mem⟩
  rw [Diagnosis.hasErrors, Bool.not_eq_false', List.isEmpty_iff, Diagnosis.errors,
    List.filterMap_eq_nil_iff]
  intro f hf
  cases f with
  | warning => rfl
  | error message => exact absurd hf (h message)

/-! ## Names -/

/-- All names that are referred to have to be domains. -/
theorem clean_checkReferences :
    Clean (checkReferences all d) ↔ ∀ name ∈ d.references, all.contains name = true := by
  constructor
  · intro h name hname
    by_contra hunknown
    refine h _ (List.mem_map.2 ⟨name, List.mem_eraseDups.2 (List.mem_filter.2 ⟨hname, ?_⟩), rfl⟩)
    simpa using hunknown
  · rintro h message hm
    obtain ⟨name, hname, -⟩ := List.mem_map.1 hm
    obtain ⟨hname, hunknown⟩ := List.mem_filter.1 (List.mem_eraseDups.1 hname)
    rw [h name hname] at hunknown
    cases hunknown

/-! ## Addresses -/

/-- The router has a host address, its gateway is in the subnet, and it is given no other ones. -/
theorem clean_checkInterface : Clean (checkInterface d interface) ↔
    interface.IsHost interface.addr ∧
    (∀ gateway, d.gateway = some gateway → interface.contains gateway = true) ∧
    d.ipConfigFrom = none := by
  have hhost : ¬ ((interface.addr = interface.network ∨ interface.addr = interface.broadcast) ∧
      interface.length < 31) ↔ interface.IsHost interface.addr := by
    rw [not_and', not_or]
    exact ⟨fun h => ⟨interface.contains_addr, h⟩, Cidr.IsHost.inside⟩
  rw [checkInterface, Clean, allErrors_append, allErrors_append, allErrors_findIf,
    decide_eq_true_eq, ← hhost, and_assoc]
  refine and_congr (by simp) (and_congr ?_ (by simp))
  cases d.gateway <;> simp

/-- A pool lies in the subnet with both ends, in order, and its leases last. -/
theorem clean_checkPool : Clean (checkPool d pool interface) ↔
    pool.first.toNat ≤ pool.last.toNat ∧ interface.contains pool.first = true ∧
      interface.contains pool.last = true ∧ pool.leaseTimeSec ≠ 0 := by
  simp [checkPool, and_assoc]

/-- A DHCP server needs an interface, and its pool has to fit. -/
theorem clean_checkDhcpServer : Clean (checkDhcpServer d) ↔ ∀ pool, d.dhcpServer = some pool →
    ∃ interface, d.interface = some interface ∧ Clean (checkPool d pool interface) := by
  unfold checkDhcpServer
  cases d.dhcpServer with
  | none => simp
  | some pool => cases d.interface <;> simp

/-! ## Rules -/

/-- A transport rule permits something, and all its permits are of ports. -/
theorem clean_checkTransport {rule : Transport} : Clean (checkTransport d protocol rule) ↔
    (rule.permitAny.isSome = true ∨ rule.permit ≠ []) ∧
      ∀ permit ∈ rule.permit, ∃ ports, Port.Range.ofText permit.ports = .ok ports := by
  rw [checkTransport, Clean, allErrors_append, allErrors_flatMap]
  refine and_congr ?_ (forall₂_congr fun permit _ => ?_)
  · cases rule.permitAny <;> simp
  · cases Port.Range.ofText permit.ports <;> simp

/-- No port is passed on twice or from or to port 0. -/
theorem clean_checkForwards {before : List UInt16} {rules : List Rule.Forward} :
    Clean (checkForwards d protocol before rules) ↔
      (∀ rule ∈ rules, rule.port ≠ 0 ∧ rule.hostPort ≠ some 0 ∧ rule.port ∉ before) ∧
      (rules.map (·.port)).Nodup := by
  induction rules generalizing before with
  | nil => simp [checkForwards]
  | cons rule rest ih =>
    simp only [checkForwards, allErrors_append, ih, allErrors_findIf, allErrors_domainError,
      imp_false, Bool.or_eq_true, beq_iff_eq, List.contains_iff_mem, List.mem_cons, List.map_cons,
      List.nodup_cons, List.mem_map]
    grind

/-- A domain translates for no other domain twice, and not for itself. -/
theorem clean_checkNat {before : List String} {rules : List Masquerade} :
    Clean (checkNat d before rules) ↔
      (∀ rule ∈ rules, rule.domain ≠ d.name ∧ rule.domain ∉ before) ∧
      (rules.map (·.domain)).Nodup := by
  induction rules generalizing before with
  | nil => simp [checkNat]
  | cons rule rest ih =>
    simp only [checkNat, allErrors_append, ih, allErrors_findIf, allErrors_domainError, imp_false,
      beq_iff_eq, List.contains_iff_mem, List.mem_cons, List.map_cons, List.nodup_cons,
      List.mem_map]
    grind

/-! ## The whole configuration -/

/-- No domain has its addresses from itself. -/
theorem clean_checkCycles : Clean (checkCycles all) ↔ ∀ name ∈ all.keys,
    isCyclic all name = false := by
  simp only [Clean, AllErrors, checkCycles, List.mem_map, List.mem_filter]
  constructor
  · intro h name hname
    by_contra hcyclic
    exact h _ ⟨name, ⟨hname, Bool.not_eq_false _ ▸ hcyclic⟩, rfl⟩
  · rintro h message ⟨name, ⟨hname, hcyclic⟩, -⟩
    rw [h name hname] at hcyclic
    cases hcyclic

section

variable (h : config.validate.hasErrors = false)

include h

/-- **No domain of an accepted configuration has its addresses from itself.** -/
theorem not_isCyclic {name : String} (hname : name ∈ (named config.domains).keys) :
    isCyclic (named config.domains) name = false := by
  have hclean := clean_findings.2 h
  simp only [validate, allErrors_append] at hclean
  exact clean_checkCycles.1 hclean.1.2 name hname

variable (hd : d ∈ config.domains)

include hd

/-- **Nothing is wrong with a domain of an accepted configuration.** -/
theorem clean_checkDomain : Clean (checkDomain (named config.domains) d) := by
  have hclean := clean_findings.2 h
  simp only [validate, allErrors_append, allErrors_flatMap] at hclean
  exact hclean.1.1.2 d hd

/-- **All names that a domain refers to are domains.** -/
theorem contains_reference {name : String} (hname : name ∈ d.references) :
    (named config.domains).contains name = true := by
  have hclean := clean_checkDomain h hd
  simp only [checkDomain, allErrors_append] at hclean
  exact clean_checkReferences.1 hclean.1.1.1 name hname

/-- **A fixed address is a host's**, with the gateway in its subnet and no supplier beside it. -/
theorem interface_valid (hinterface : d.interface = some interface) :
    interface.IsHost interface.addr ∧
      (∀ gateway, d.gateway = some gateway → interface.contains gateway = true) ∧
      d.ipConfigFrom = none := by
  have hclean := clean_checkDomain h hd
  simp only [checkDomain, checkAddresses, hinterface, allErrors_append] at hclean
  exact clean_checkInterface.1 hclean.1.1.2.1

/-- **A pool lies in the subnet of a fixed address**, with both of its ends. -/
theorem pool_valid (hpool : d.dhcpServer = some pool) : ∃ interface, d.interface = some interface ∧
    pool.first.toNat ≤ pool.last.toNat ∧ interface.contains pool.first = true ∧
      interface.contains pool.last = true := by
  have hclean := clean_checkDomain h hd
  simp only [checkDomain, allErrors_append] at hclean
  obtain ⟨interface, hinterface, hfits⟩ := clean_checkDhcpServer.1 hclean.1.2 pool hpool
  obtain ⟨horder, hfirst, hlast, -⟩ := clean_checkPool.1 hfits
  exact ⟨interface, hinterface, horder, hfirst, hlast⟩

end

end SegmentRouter.Config
