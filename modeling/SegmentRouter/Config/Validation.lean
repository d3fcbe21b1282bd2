import SegmentRouter.Config.Decode
import SegmentRouter.Log
import SegmentRouter.Port.Range

/-!
# Config/Validation — rules that a configuration has to keep

A configuration is checked as a whole before it is used. What makes it unusable is an error; what
will hardly do what was meant is a warning. Findings are listed in the order of the configuration's
parts, domain by domain, and then what concerns all domains together. A configuration is used only
if it could be read and breaks no rule (`Config.load`); its warnings are logged.
-/

namespace SegmentRouter.Config

/-- A finding about a configuration. -/
inductive Finding where
  | warning (message : String)
  | error (message : String)
deriving DecidableEq, Repr

namespace Finding

/-- The message of a warning. -/
def warning? : Finding → Option String
  | warning m => some m
  | error _ => none

/-- The message of an error. -/
def error? : Finding → Option String
  | warning _ => none
  | error m => some m

/-- A finding of an error about a domain. -/
def domainError (name message : String) : Finding :=
  .error s!"domain '{name}': {message}"

/-- A finding of a warning about a domain. -/
def domainWarning (name message : String) : Finding :=
  .warning s!"domain '{name}': {message}"

end Finding

open Finding

/-- A finding that is made if a condition holds. -/
def findIf (condition : Bool) (finding : Finding) : List Finding :=
  if condition then [finding] else []

/-- The domains that have a name, by that; of several with one name the last counts. -/
abbrev Named := SortedMap String Domain

/-- The domains of a configuration by their names. -/
def named (domains : List Domain) : Named :=
  SortedMap.ofList ((domains.filter fun d => !d.name.isEmpty).map fun d => (d.name, d))

/-- The elements of a list that occurred in it before. -/
def repeated {α : Type} [BEq α] : (before : List α) → List α → List α
  | _, [] => []
  | before, a :: rest =>
    if before.contains a then a :: repeated before rest else repeated (a :: before) rest

/-! ## Names -/

/-- Domains without a name and with the name of an earlier one, in order. -/
def checkNames : (before : List String) → List Domain → List Finding
  | _, [] => []
  | before, d :: rest =>
    if d.name.isEmpty then .error "domain with empty name" :: checkNames before rest
    else if before.contains d.name then
      .error s!"domain '{d.name}' defined twice" :: checkNames before rest
    else checkNames (d.name :: before) rest

/-- Each name that a domain refers to and that no domain has, once. -/
def checkReferences (all : Named) (d : Domain) : List Finding :=
  ((d.references.filter fun name => !all.contains name).eraseDups).map fun name =>
    domainError d.name s!"references unknown domain '{name}'"

/-! ## Addresses -/

/-- A fixed address has to be a host's, with its gateway in the subnet. -/
def checkInterface (d : Domain) (interface : Cidr) : List Finding :=
  findIf ((interface.addr = interface.network ∨ interface.addr = interface.broadcast) ∧
      interface.length < 31)
    (domainError d.name s!"interface {interface} is not a host address") ++
  (match d.gateway with
    | some gateway =>
      findIf (!interface.contains gateway)
        (domainError d.name s!"gateway {gateway} outside of {interface}")
    | none => []) ++
  findIf d.ipConfigFrom.isSome
    (domainError d.name "static interface conflicts with ip_config_from")

/-- A domain without a fixed address cannot have what belongs to one. -/
def checkDynamic (d : Domain) : List Finding :=
  findIf (d.gateway.isSome || d.dnsServer.isSome)
    (domainWarning d.name "gateway/dns_server ignored without interface") ++
  findIf (d.ipConfigFrom == some d.name) (domainError d.name "ip_config_from names itself")

/-- The domain that addresses are taken from should not serve them itself. -/
def checkSupplier (all : Named) (d : Domain) : List Finding :=
  match d.ipConfigFrom.bind all.get? with
  | some supplier =>
    findIf supplier.dhcpServer.isSome
      (domainWarning d.name s!"supplier '{supplier.name}' also serves DHCP")
  | none => []

/-- A domain's addresses. -/
def checkAddresses (all : Named) (d : Domain) : List Finding :=
  (match d.interface with
    | some interface => checkInterface d interface
    | none => checkDynamic d) ++ checkSupplier all d

/-- A DHCP pool has to lie in the subnet of a fixed address. -/
def checkPool (d : Domain) (pool : DhcpPool) (interface : Cidr) : List Finding :=
  findIf (pool.last.toNat < pool.first.toNat)
    (domainError d.name s!"DHCP range start {pool.first} > end {pool.last}") ++
  findIf (!interface.contains pool.first || !interface.contains pool.last)
    (domainError d.name s!"DHCP range outside of {interface}") ++
  findIf (pool.first.toNat ≤ interface.addr.toNat ∧ interface.addr.toNat ≤ pool.last.toNat)
    (domainWarning d.name
      s!"DHCP range contains router address {interface.addr}, it is skipped") ++
  findIf (pool.dnsServer.isSome && pool.dnsServerFrom.isSome)
    (domainWarning d.name "dns_server_from overrides dns_server") ++
  findIf (pool.leaseTimeSec == 0) (domainError d.name "DHCP lease time must be > 0")

/-- A domain's DHCP server. -/
def checkDhcpServer (d : Domain) : List Finding :=
  match d.dhcpServer, d.interface with
  | none, _ => []
  | some _, none => [domainError d.name "DHCP server requires a static interface"]
  | some pool, some interface => checkPool d pool interface

/-! ## Rules -/

/-- A transport rule has to permit something, and its ports have to be ports. -/
def checkTransport (d : Domain) (protocol : String) (rule : Transport) : List Finding :=
  findIf (rule.permitAny.isNone && rule.permit.isEmpty)
    (domainError d.name s!"{protocol} rule for {rule.dst} permits nothing") ++
  rule.permit.flatMap fun permit =>
    match Port.Range.ofText permit.ports with
    | .ok _ => []
    | .error cause =>
      let reason := (Error.malformed cause).message
      [domainError d.name s!"{protocol} rule for {rule.dst}: {reason}"]

/-- A port can be passed on only once, and not from or to port 0. -/
def checkForwards (d : Domain) (protocol : String) : (before : List UInt16) → List Rule.Forward →
    List Finding
  | _, [] => []
  | before, rule :: rest =>
    findIf (rule.port == 0 || rule.hostPort == some 0)
      (domainError d.name s!"{protocol} forward uses port 0") ++
    findIf (before.contains rule.port)
      (domainError d.name s!"{protocol} port {rule.port} forwarded twice") ++
    checkForwards d protocol (rule.port :: before) rest

/-- A domain translates for another one at most once, and not for itself. -/
def checkNat (d : Domain) : (before : List String) → List Masquerade → List Finding
  | _, [] => []
  | before, rule :: rest =>
    findIf (before.contains rule.domain)
      (domainError d.name s!"NAT for '{rule.domain}' defined twice") ++
    findIf (rule.domain == d.name) (domainError d.name "NAT rule names itself") ++
    checkNat d (rule.domain :: before) rest

/-- A domain's rules. -/
def checkRules (d : Domain) : List Finding :=
  d.tcp.flatMap (checkTransport d "tcp") ++ d.udp.flatMap (checkTransport d "udp") ++
  checkForwards d "tcp" [] d.tcpForward ++ checkForwards d "udp" [] d.udpForward ++
  findIf (d.dhcpServer.isSome && d.udpForward.any (·.port == 67))
    (domainWarning d.name "udp forward of port 67 is shadowed by the DHCP server") ++
  checkNat d [] d.nat

/-! ## All domains together -/

/-- The domain that a domain takes its addresses from. -/
def supplierOf? (all : Named) (name : String) : Option String :=
  (all.get? name).bind (·.ipConfigFrom)

/-- Whether following the suppliers from `current` leads to `start` within `steps` steps. -/
def leadsTo (all : Named) (start : String) : (steps : Nat) → (current : String) → Bool
  | 0, _ => false
  | steps + 1, current =>
    match supplierOf? all current with
    | some next => next == start || leadsTo all start steps next
    | none => false

/-- Whether a domain's addresses come from itself in the end. A way back is at most as long as there
are domains. -/
def isCyclic (all : Named) (name : String) : Bool :=
  leadsTo all name all.size name

/-- Domains that get their addresses from themselves. -/
def checkCycles (all : Named) : List Finding :=
  (all.keys.filter (isCyclic all)).map fun name =>
    domainError name "ip_config_from forms a cycle"

/-- Devices for domains that do not exist. -/
def checkAttachments (all : Named) (attachments : List Attachment) : List Finding :=
  (attachments.filter fun a => !all.contains a.domain).map fun a =>
    .warning s!"attach.{a.device}: domain '{a.domain}' does not exist, frames will be dropped"

/-- A domain by itself. -/
def checkDomain (all : Named) (d : Domain) : List Finding :=
  checkReferences all d ++ checkAddresses all d ++ checkDhcpServer d ++ checkRules d

/-- What there is to say about a configuration. -/
structure Diagnosis where
  findings : List Finding
deriving DecidableEq, Repr

namespace Diagnosis

/-- The messages of the warnings, in order. -/
def warnings (d : Diagnosis) : List String :=
  d.findings.filterMap Finding.warning?

/-- The messages of the errors, in order. -/
def errors (d : Diagnosis) : List String :=
  d.findings.filterMap Finding.error?

/-- Whether the configuration cannot be used. -/
def hasErrors (d : Diagnosis) : Bool :=
  !d.errors.isEmpty

end Diagnosis

/-- The findings about a configuration. -/
def validate (config : Config) : Diagnosis :=
  let all := named config.domains
  ⟨findIf (config.report.intervalSec == 0)
      (.error "report.interval_sec must be greater than 0") ++
    checkNames [] config.domains ++ config.domains.flatMap (checkDomain all) ++ checkCycles all ++
    checkAttachments all config.attachments⟩

/-! ## Configurations that may be used -/

/-- The content of a file, or why it could not be read. -/
abbrev FileContent := Except String String

/-- The configuration in a file. -/
def ofFile : FileContent → Except Error Config
  | .ok text => ofText text
  | .error reason => .error (.file reason)

/-- A configuration that breaks no rule, or the rules that it breaks. -/
def accept (config : Config) : Logged (Except Error Config) := do
  let diagnosis := validate config
  diagnosis.warnings.forM fun warning => logWarn s!"config: {warning}"
  if diagnosis.hasErrors then return .error (.config (.invalid diagnosis.errors))
  else return .ok config

/-- The configuration in a file, if it may be used. -/
def load (file : FileContent) : Logged (Except Error Config) :=
  match ofFile file with
  | .ok config => accept config
  | .error e => return .error e

end SegmentRouter.Config
