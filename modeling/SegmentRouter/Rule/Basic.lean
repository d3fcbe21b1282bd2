import SegmentRouter.Address.Cidr
import SegmentRouter.Port.Range

/-!
# Rule/Basic — rules one by one, and how one is selected

Traffic is let pass by its destination: packets unchanged (`Rule.Ip`), flows of TCP and UDP by their
ports (`Rule.Transport`), and flows to a port of the router's own address to a host of another domain
(`Rule.Forward`).

A rule applies to the destinations in its subnet. Of the rules that apply to an address the one with
the longest prefix counts, and of several with that prefix the first. `PrefixTable` finds it with
one look-up for each prefix length in use.
-/

namespace SegmentRouter.Rule

/-- Packets to `dst` pass unchanged into `domain`. -/
structure Ip where
  dst : Cidr
  domain : String
deriving DecidableEq, Repr

/-! ## Ports -/

/-- The ports in a range may be reached through a domain. -/
structure Permit where
  ports : Port.Range
  domain : String
deriving DecidableEq, Repr

/-- The policy for one protocol's traffic to a subnet. -/
structure Transport where
  dst : Cidr
  /-- The domain for every port, whatever the permits say. -/
  permitAny : Option String
  permits : List Permit
deriving DecidableEq, Repr

/-- The domain through which a port may be reached. -/
def Transport.permittedDomain? (rule : Transport) (port : UInt16) : Option String :=
  rule.permitAny <|> (rule.permits.find? (·.ports.contains port)).map (·.domain)

/-- Traffic to a port of the router's address goes to a host of `domain`. -/
structure Forward where
  port : UInt16
  domain : String
  host : Ipv4Addr
  hostPort : Option UInt16
deriving DecidableEq, Repr

/-- The port of the host that the traffic goes to. -/
def Forward.targetPort (rule : Forward) : UInt16 :=
  rule.hostPort.getD rule.port

/-- The rules by their ports; of several rules for one port the last counts. -/
abbrev Forwards := SortedMap UInt16 Forward

/-- The rules of a list by their ports. -/
def Forwards.ofList (rules : List Forward) : Forwards :=
  SortedMap.ofList (rules.map fun r => (r.port, r))

/-! ## Subnets -/

/-- Rules by the length of their prefix and by their subnet among those of that size. -/
structure PrefixTable (ρ : Type) where
  rules : List ρ
  index : SortedMap Nat (SortedMap Nat ρ)
deriving DecidableEq

namespace PrefixTable

variable {ρ : Type}

/-- The index with a rule added, unless an earlier rule has its subnet. -/
def place (dst : ρ → Cidr) (index : SortedMap Nat (SortedMap Nat ρ)) (rule : ρ) :
    SortedMap Nat (SortedMap Nat ρ) :=
  let length := (dst rule).length
  let blocks := (index.get? length).getD ∅
  if blocks.contains (dst rule).block then index
  else index.insert length (blocks.insert (dst rule).block rule)

/-- The table of a list of rules. -/
def ofList (dst : ρ → Cidr) (rules : List ρ) : PrefixTable ρ :=
  ⟨rules, rules.foldl (place dst) ∅⟩

/-- The rule that counts for an address, if any does. -/
def longestMatch? (table : PrefixTable ρ) (ip : Ipv4Addr) : Option ρ :=
  table.index.toList.reverse.findSome? fun e => e.2.get? (ip.toNat >>> (32 - e.1))

end PrefixTable

end SegmentRouter.Rule
