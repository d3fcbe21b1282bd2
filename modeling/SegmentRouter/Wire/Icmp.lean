import SegmentRouter.Error
import SegmentRouter.Wire.Checksum

/-!
# Wire/Icmp — ICMP messages

Echo requests and their replies, whose identifier plays the part of a port, and the message that a
destination cannot be reached.
-/

namespace SegmentRouter.Wire.Icmp

/-- The number of bytes in front of the data. -/
def headerLength : Nat := 8

/-- The type of an echo reply. -/
def echoReplyType : UInt8 := 0

/-- The type of a message about an unreachable destination. -/
def unreachableType : UInt8 := 3

/-- The type of an echo request. -/
def echoRequestType : UInt8 := 8

/-- The code of an unreachable network. -/
def networkUnreachable : UInt8 := 0

/-- What the router reads of a message; identifier and sequence number count in echoes only. -/
structure Message where
  type : UInt8
  code : UInt8
  identifier : UInt16
  sequence : UInt16
deriving DecidableEq, Repr

namespace Message

/-- Whether the message asks for an echo. -/
def isEchoRequest (m : Message) : Bool :=
  m.type == echoRequestType

/-- Whether the message asks for an echo or answers one. -/
def isEcho (m : Message) : Bool :=
  m.type == echoRequestType || m.type == echoReplyType

end Message

/-- The message in a byte string. -/
def parse (b : Bytes) : Except Malformed Message :=
  if b.length < headerLength then .error .icmpTooShort
  else .ok {
    type := byteAt b 0
    code := byteAt b 1
    identifier := word16At b 4
    sequence := word16At b 6 }

/-- Whether the checksum is right. -/
def checksumValid (b : Bytes) : Bool :=
  checksum b == 0

/-- The message with another identifier; its checksum is then out of date. -/
def withIdentifier (b : Bytes) (id : UInt16) : Bytes :=
  overwrite b 4 (bytes16 id)

/-- The message with the checksum it needs. -/
def refreshChecksum (b : Bytes) : Bytes :=
  let cleared := overwrite b 2 [0, 0]
  overwrite cleared 2 (bytes16 (checksum cleared))

@[simp] theorem length_withIdentifier (b : Bytes) (id : UInt16) :
    (withIdentifier b id).length = b.length := by
  simp [withIdentifier]

@[simp] theorem length_refreshChecksum (b : Bytes) : (refreshChecksum b).length = b.length := by
  simp [refreshChecksum]

/-- An echo request. -/
def echoRequest (identifier sequence : UInt16) (payload : Bytes) : Bytes :=
  refreshChecksum
    ([echoRequestType, 0, 0, 0] ++ bytes16 identifier ++ bytes16 sequence ++ payload)

/-- The reply to an echo request: the same message of the other type. -/
def echoReply (request : Bytes) : Except Error Bytes :=
  match parse request with
  | .error cause => .error (.malformed cause)
  | .ok m =>
    if m.isEchoRequest then .ok (refreshChecksum (overwrite request 0 [echoReplyType]))
    else .error .notEchoRequest

/-- The message that a packet could not be delivered, quoting its header and the first eight bytes
of its payload. -/
def unreachable (code : UInt8) (original : Bytes) (originalHeaderLength : Nat) : Bytes :=
  refreshChecksum
    ([unreachableType, code, 0, 0, 0, 0, 0, 0] ++ original.take (originalHeaderLength + 8))

end SegmentRouter.Wire.Icmp
