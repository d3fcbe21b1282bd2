import SegmentRouter.Port.Pool
import SegmentRouter.Wire.Protocol

/-!
# Rule/Masquerade — shares of translated ports

Traffic from one domain into another can be made to come from the other domain's router address. The
rule bounds how many ports the sending domain may hold there at once, for each protocol.
-/

namespace SegmentRouter.Rule

open Wire (Protocol)

/-- One value for each protocol. -/
structure PerProtocol (α : Type) where
  icmp : α
  tcp : α
  udp : α
deriving DecidableEq, Repr, Inhabited

namespace PerProtocol

variable {α : Type}

/-- The value of a protocol. -/
def get (v : PerProtocol α) : Protocol → α
  | .icmp => v.icmp
  | .tcp => v.tcp
  | .udp => v.udp

/-- The values with one protocol's replaced. -/
def set (v : PerProtocol α) (p : Protocol) (a : α) : PerProtocol α :=
  match p with
  | .icmp => { v with icmp := a }
  | .tcp => { v with tcp := a }
  | .udp => { v with udp := a }

@[simp] theorem get_set (v : PerProtocol α) (p q : Protocol) (a : α) :
    (v.set p a).get q = if q = p then a else v.get q := by
  cases p <;> cases q <;> rfl

end PerProtocol

/-- The shares that a client domain has of the ports of the domain that owns the rule. -/
structure Masquerade where
  domain : String
  quotas : PerProtocol Port.Quota
deriving DecidableEq, Repr

end SegmentRouter.Rule
