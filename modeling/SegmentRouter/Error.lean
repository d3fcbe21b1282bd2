import SegmentRouter.Address.Ipv4
import SegmentRouter.Interface.Id
import SegmentRouter.Malformed

/-!
# Error — why an operation was refused

One constructor for each cause; `Error.message` is the sentence a user reads.
-/

namespace SegmentRouter

/-- What is wrong with a configuration. -/
inductive ConfigFault where
  /-- The text is no document, or the document is no configuration. -/
  | unreadable
  /-- The configuration was read, and these are the rules it breaks. -/
  | invalid (errors : List String)
  /-- The configuration breaks rules that were reported before. -/
  | validationFailed
deriving DecidableEq, Repr

/-- The text that names a configuration's fault. -/
def ConfigFault.message : ConfigFault → String
  | unreadable => "TOML parse error"
  | invalid errors => "; ".intercalate errors
  | validationFailed => "validation failed"

/-- A reason why an operation was refused. -/
inductive Error where
  /-- A file could not be read. -/
  | file (reason : String)
  | config (fault : ConfigFault)
  | malformed (cause : Malformed)
  /-- A text is no hardware address. -/
  | mac (text : String)
  | interfaceNotFound (id : InterfaceId)
  /-- A reply was asked for to a message that is no echo request. -/
  | notEchoRequest
  | unknownDomain (name : String)
  | noNextHop (ip : Ipv4Addr)
  | staticIpConfig (name : String)
  | portExhausted
deriving DecidableEq, Repr

/-- The sentence that names a reason. -/
def Error.message : Error → String
  | file reason => s!"I/O error: {reason}"
  | config fault => s!"config error: {fault.message}"
  | malformed cause => s!"parse error: {cause.message}"
  | mac text => s!"invalid MAC address: {text}"
  | interfaceNotFound id => s!"interface {id} not found"
  | notEchoRequest => "invalid packet: not an echo request"
  | unknownDomain name => s!"domain {name} not found"
  | noNextHop ip => s!"no next hop for {ip}"
  | staticIpConfig name => s!"domain {name} has a static IP config"
  | portExhausted => "no free port left"

end SegmentRouter
