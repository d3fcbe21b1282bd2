import SegmentRouter.Address.Cidr
import SegmentRouter.Address.Ipv4
import SegmentRouter.Address.Mac
import SegmentRouter.ArpCache
import SegmentRouter.Command
import SegmentRouter.Config.Basic
import SegmentRouter.Config.Decode
import SegmentRouter.Config.Validation
import SegmentRouter.Config.Value
import SegmentRouter.Dhcp.Client
import SegmentRouter.Dhcp.Server
import SegmentRouter.Domain.Basic
import SegmentRouter.Domain.Reload
import SegmentRouter.Domain.Supply
import SegmentRouter.Domain.Tree
import SegmentRouter.Error
import SegmentRouter.Interface.Id
import SegmentRouter.Interface.Table
import SegmentRouter.Link.Basic
import SegmentRouter.Link.Flow
import SegmentRouter.Link.Opening
import SegmentRouter.Link.Registry
import SegmentRouter.Link.Translation
import SegmentRouter.Log
import SegmentRouter.Main
import SegmentRouter.Malformed
import SegmentRouter.Port.Pool
import SegmentRouter.Port.Range
import SegmentRouter.Proofs.Address.Interval
import SegmentRouter.Proofs.Address.MacText
import SegmentRouter.Proofs.Address.Mask
import SegmentRouter.Proofs.Address.Subnet
import SegmentRouter.Proofs.Arp.Ledger
import SegmentRouter.Proofs.Arp.Queue
import SegmentRouter.Proofs.Config.Checks
import SegmentRouter.Proofs.Config.Cycles
import SegmentRouter.Proofs.Config.Messages
import SegmentRouter.Proofs.Config.Names
import SegmentRouter.Proofs.Config.PoolRange
import SegmentRouter.Proofs.Config.Suppliers
import SegmentRouter.Proofs.Dhcp.Answers
import SegmentRouter.Proofs.Dhcp.Bounds
import SegmentRouter.Proofs.Dhcp.Calls
import SegmentRouter.Proofs.Dhcp.Leases
import SegmentRouter.Proofs.Dhcp.Messages
import SegmentRouter.Proofs.Dhcp.Offers
import SegmentRouter.Proofs.Dhcp.Phases
import SegmentRouter.Proofs.Dhcp.Pools
import SegmentRouter.Proofs.Dhcp.Selection
import SegmentRouter.Proofs.Dhcp.Tenancy
import SegmentRouter.Proofs.Dhcp.Terms
import SegmentRouter.Proofs.Dhcp.Terse
import SegmentRouter.Proofs.Domain.Bounds
import SegmentRouter.Proofs.Domain.Core
import SegmentRouter.Proofs.Domain.Names
import SegmentRouter.Proofs.Interface.Counters
import SegmentRouter.Proofs.Interface.Freshness
import SegmentRouter.Proofs.Interface.Handles
import SegmentRouter.Proofs.Link.Closing
import SegmentRouter.Proofs.Link.Turnover
import SegmentRouter.Proofs.Link.Views
import SegmentRouter.Proofs.Port.Accounts
import SegmentRouter.Proofs.Port.Pool
import SegmentRouter.Proofs.Port.Range
import SegmentRouter.Proofs.Port.RangeText
import SegmentRouter.Proofs.Port.Rotation
import SegmentRouter.Proofs.Port.Share
import SegmentRouter.Proofs.Port.Sharing
import SegmentRouter.Proofs.Port.Taken
import SegmentRouter.Proofs.Port.Words
import SegmentRouter.Proofs.Router.Addresses
import SegmentRouter.Proofs.Router.Bounds
import SegmentRouter.Proofs.Router.Clients
import SegmentRouter.Proofs.Router.Coherence
import SegmentRouter.Proofs.Router.Connections
import SegmentRouter.Proofs.Router.Consistency
import SegmentRouter.Proofs.Router.Counters
import SegmentRouter.Proofs.Router.Course
import SegmentRouter.Proofs.Router.Crossings
import SegmentRouter.Proofs.Router.Dismissals
import SegmentRouter.Proofs.Router.FastPath
import SegmentRouter.Proofs.Router.Forwarding
import SegmentRouter.Proofs.Router.Fragments
import SegmentRouter.Proofs.Router.Good
import SegmentRouter.Proofs.Router.Grants
import SegmentRouter.Proofs.Router.Guards
import SegmentRouter.Proofs.Router.History
import SegmentRouter.Proofs.Router.Hosts
import SegmentRouter.Proofs.Router.Interfaces
import SegmentRouter.Proofs.Router.Isolation
import SegmentRouter.Proofs.Router.Members
import SegmentRouter.Proofs.Router.Meters
import SegmentRouter.Proofs.Router.Moves
import SegmentRouter.Proofs.Router.Opening
import SegmentRouter.Proofs.Router.Parking
import SegmentRouter.Proofs.Router.Persistence
import SegmentRouter.Proofs.Router.Plan
import SegmentRouter.Proofs.Router.PortRules
import SegmentRouter.Proofs.Router.Queues
import SegmentRouter.Proofs.Router.Reachable
import SegmentRouter.Proofs.Router.Reload
import SegmentRouter.Proofs.Router.Renewal
import SegmentRouter.Proofs.Router.RoundTrip
import SegmentRouter.Proofs.Router.Sending
import SegmentRouter.Proofs.Router.Survival
import SegmentRouter.Proofs.Router.Tallies
import SegmentRouter.Proofs.Router.Teardown
import SegmentRouter.Proofs.Router.Tenants
import SegmentRouter.Proofs.Router.Traces
import SegmentRouter.Proofs.Router.Traffic
import SegmentRouter.Proofs.Router.Turns
import SegmentRouter.Proofs.Router.Verdicts
import SegmentRouter.Proofs.Router.Waiting
import SegmentRouter.Proofs.Rule.LongestPrefix
import SegmentRouter.Proofs.SortedMap.Entries
import SegmentRouter.Proofs.Text.Decimal
import SegmentRouter.Proofs.Tree.Admission
import SegmentRouter.Proofs.Tree.Bounds
import SegmentRouter.Proofs.Tree.Counters
import SegmentRouter.Proofs.Tree.Dependents
import SegmentRouter.Proofs.Tree.Dismissal
import SegmentRouter.Proofs.Tree.Following
import SegmentRouter.Proofs.Tree.Hosts
import SegmentRouter.Proofs.Tree.Plan
import SegmentRouter.Proofs.Tree.Propagation
import SegmentRouter.Proofs.Tree.Readmission
import SegmentRouter.Proofs.Tree.Rebuild
import SegmentRouter.Proofs.Tree.Removal
import SegmentRouter.Proofs.Tree.Renewal
import SegmentRouter.Proofs.Tree.Represented
import SegmentRouter.Proofs.Tree.Resupply
import SegmentRouter.Proofs.Tree.Shell
import SegmentRouter.Proofs.Tree.Sound
import SegmentRouter.Proofs.Tree.Succession
import SegmentRouter.Proofs.Tree.Supplied
import SegmentRouter.Proofs.Tree.Supply
import SegmentRouter.Proofs.Tree.Survivors
import SegmentRouter.Proofs.Wire.Bounds
import SegmentRouter.Proofs.Wire.Carriage
import SegmentRouter.Proofs.Wire.Checksum
import SegmentRouter.Proofs.Wire.Datagrams
import SegmentRouter.Proofs.Wire.Drafts
import SegmentRouter.Proofs.Wire.Fields
import SegmentRouter.Proofs.Wire.Guards
import SegmentRouter.Proofs.Wire.OnesSum
import SegmentRouter.Proofs.Wire.Translation
import SegmentRouter.Proofs.Wire.Twins
import SegmentRouter.Report.Basic
import SegmentRouter.Report.Json
import SegmentRouter.Router.Arp
import SegmentRouter.Router.Attach
import SegmentRouter.Router.Basic
import SegmentRouter.Router.Dhcp
import SegmentRouter.Router.Event
import SegmentRouter.Router.Forward
import SegmentRouter.Router.NextHop
import SegmentRouter.Router.Receive
import SegmentRouter.Router.Verdict
import SegmentRouter.Rule.Basic
import SegmentRouter.Rule.Masquerade
import SegmentRouter.Rule.RuleSet
import SegmentRouter.SortedMap
import SegmentRouter.Text.Field
import SegmentRouter.Text.Numeral
import SegmentRouter.Text.Similarity
import SegmentRouter.Toml.Document
import SegmentRouter.Toml.Number
import SegmentRouter.Toml.Quoted
import SegmentRouter.Toml.Statement
import SegmentRouter.Toml.Value
import SegmentRouter.Wire.Arp
import SegmentRouter.Wire.Bytes
import SegmentRouter.Wire.Checksum
import SegmentRouter.Wire.Dhcp
import SegmentRouter.Wire.Ethernet
import SegmentRouter.Wire.Icmp
import SegmentRouter.Wire.Ipv4
import SegmentRouter.Wire.Protocol
import SegmentRouter.Wire.Tcp
import SegmentRouter.Wire.Udp
