import SegmentRouter.Config.Validation
import SegmentRouter.Domain.Reload
import SegmentRouter.Report.Basic
import SegmentRouter.Router.Attach
import SegmentRouter.Router.Receive

/-!
# Router/Event — what happens to a router

A router is started with a configuration that breaks no rule. From then on frames arrive, timers
run out and configurations are replaced; each event is handled to its end before the next one.
-/

namespace SegmentRouter

/-- What is done from time to time. -/
inductive Timer where
  /-- Links without traffic end. -/
  | linkAging
  /-- What is known of hosts ends, and what was asked for them. -/
  | arpExpiry
  /-- DHCP servers and clients act. -/
  | dhcp
  | report
deriving DecidableEq, Repr

/-- What happens to a router. -/
inductive Event where
  | frame (interface : InterfaceId) (bytes : Wire.Bytes)
  | timer (kind : Timer)
  /-- There is a new configuration, which need not be a good one. -/
  | reload (config : Config)

/-- What the router wants done after an event. -/
structure Dispatch where
  sent : List Transmit := []
  report : Option Report := none
deriving DecidableEq, Repr

namespace Router

/-! ## Configurations -/

/-- Puts a configuration that breaks no rule into use. -/
def adopt (r : Router) (config : Config) : Logged Router := do
  let tree ← r.tree.next config
  let adopted ← bindAll r.interfaces.ids { r with config, tree, configError := none }
  let count := tree.domains.length
  logInfo s!"configuration generation {tree.generation} active, {count} domains"
  return adopted

/-- Puts a configuration into use unless it breaks a rule; the router after it, which otherwise only
remembers why the configuration was not taken. -/
def apply (r : Router) (config : Config) : Logged (Option Error × Router) := do
  match ← config.accept with
  | .ok config => return (none, ← r.adopt config)
  | .error e =>
    let faults := match e with
      | .config (.invalid errors) => errors
      | _ => []
    return (some e, { r with configError := some faults })

/-- A router with a configuration, whose first DHCP transaction has the number `xid`. -/
def start (config : Config) (xid : UInt32) : Logged (Except Error Router) := do
  let (e, r) ← ({ nextXid := xid } : Router).apply config
  match e with
  | none => return .ok r
  | some e => return .error e

/-! ## Reports -/

/-- What the router tells about itself. Without byte counters and rules there is nothing to tell of
domains. -/
def report (r : Router) (now : Nat) : Report where
  generation := r.tree.generation
  configError := r.configError.map fun errors => (ConfigFault.invalid errors).message
  domains :=
    let wanted := r.config.report
    if wanted.bytes ∨ wanted.config then r.tree.domains.map (·.report wanted now) else []

/-! ## Events -/

/-- Lets links end that were without traffic for too long. -/
def ageLinks (r : Router) (now : Nat) : Logged Router := do
  let (ended, tree) ← r.tree.ageLinks now (.ofConfig r.config.timeouts)
  Logged.writeIf (ended > 0) .debug s!"{ended} links expired"
  return r.withTree tree

/-- Lets what is known of hosts, and what was asked for them, end. -/
def ageArp (r : Router) (now : Nat) : Logged Router := do
  let timeouts := r.config.timeouts
  let domains ← expireArp now (Config.seconds timeouts.arpRequestSec)
    (Config.seconds timeouts.arpEntrySec) r.tree.domains
  return r.withTree { r.tree with domains }

/-- Handles a timer that ran out. -/
def handleTimer (r : Router) (now : Nat) : Timer → Logged (Dispatch × Router)
  | .linkAging => return ({}, ← r.ageLinks now)
  | .arpExpiry => return ({}, ← r.ageArp now)
  | .dhcp => do
    let reaction ← r.maintainDhcp now
    return ({ sent := reaction.sent }, reaction.router.countAllSent reaction.sent)
  | .report => return ({ report := some (r.report now) }, r)

/-- Handles an event. -/
def handle (r : Router) (now : Nat) : Event → Logged (Dispatch × Router)
  | .frame interface bytes => do
    let (sent, r) ← r.receive interface bytes now
    return ({ sent }, r)
  | .timer kind => r.handleTimer now kind
  | .reload config => do
    let (e, r) ← r.apply config
    match e with
    | some e => logError s!"configuration rejected: {e.message}"
    | none => pure ()
    return ({ report := if r.config.report.configTriggers then some (r.report now) else none }, r)

end Router

end SegmentRouter
