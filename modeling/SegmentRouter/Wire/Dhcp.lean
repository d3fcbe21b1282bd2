import SegmentRouter.Malformed
import SegmentRouter.Wire.Bytes

/-!
# Wire/Dhcp — DHCP messages

A fixed header, a cookie, and options keyed by a code. A value longer than 255 bytes is written as
several options of one code, and options of one code are read as one value (`readOptions_value`).
-/

namespace SegmentRouter.Wire.Dhcp

/-- The port that servers listen on. -/
def serverPort : UInt16 := 67

/-- The port that clients listen on. -/
def clientPort : UInt16 := 68

/-- The number of bytes in front of the cookie. -/
def headerLength : Nat := 236

/-- The number of bytes that a written message has at least. -/
def minLength : Nat := 300

/-- The bytes between header and options. -/
def cookie : Bytes := [99, 130, 83, 99]

/-- Who sends a message. -/
inductive Sender where
  | client
  | server
deriving DecidableEq, Repr

namespace Sender

/-- The number in the operation field. -/
def number : Sender → UInt8
  | client => 1
  | server => 2

/-- The sender with an operation number. -/
def ofNumber? (n : UInt8) : Option Sender :=
  if n = 1 then some client else if n = 2 then some server else none

end Sender

/-- What a message does. -/
inductive Kind where
  | discover
  | offer
  | request
  | decline
  | ack
  | nak
  | release
  | inform
deriving DecidableEq, Repr

namespace Kind

/-- The number in the message type option. -/
def number : Kind → UInt8
  | discover => 1
  | offer => 2
  | request => 3
  | decline => 4
  | ack => 5
  | nak => 6
  | release => 7
  | inform => 8

/-- The kind with a number. -/
def ofNumber? (n : UInt8) : Option Kind :=
  [discover, offer, request, decline, ack, nak, release, inform].find? (·.number == n)

@[simp] theorem ofNumber?_number (k : Kind) : ofNumber? k.number = some k := by
  cases k <;> decide

end Kind

/-! ## Option codes -/

/-- The byte that fills space between options. -/
def padCode : UInt8 := 0
/-- The byte that ends the options. -/
def endCode : UInt8 := 255
/-- The code of the subnet mask. -/
def subnetMaskCode : UInt8 := 1
/-- The code of the default router. -/
def routerCode : UInt8 := 3
/-- The code of the DNS server. -/
def dnsServerCode : UInt8 := 6
/-- The code of the subnet's broadcast address. -/
def broadcastCode : UInt8 := 28
/-- The code of the address that a client asks for. -/
def requestedIpCode : UInt8 := 50
/-- The code of the lease time in seconds. -/
def leaseTimeCode : UInt8 := 51
/-- The code of the kind of message. -/
def kindCode : UInt8 := 53
/-- The code of the server that a message comes from or goes to. -/
def serverIdCode : UInt8 := 54
/-- The code of the list of options that a client asks for. -/
def parameterRequestCode : UInt8 := 55
/-- The code of the time until a lease should be renewed. -/
def renewalTimeCode : UInt8 := 58
/-- The code of the time until any server may extend a lease. -/
def rebindingTimeCode : UInt8 := 59

/-- The values of a message's options by their codes. -/
abbrev Options := SortedMap UInt8 Bytes

/-- A message. -/
structure Message where
  sender : Sender
  xid : UInt32
  secs : UInt16 := 0
  flags : UInt16 := 0
  ciaddr : Ipv4Addr := .unspecified
  yiaddr : Ipv4Addr := .unspecified
  siaddr : Ipv4Addr := .unspecified
  giaddr : Ipv4Addr := .unspecified
  chaddr : Mac
  options : Options := ∅
deriving DecidableEq

namespace Message

/-- The message with an option set. -/
def withOption (m : Message) (code : UInt8) (value : Bytes) : Message :=
  { m with options := m.options.insert code value }

/-- The message with an option set to an address. -/
def withIp (m : Message) (code : UInt8) (ip : Ipv4Addr) : Message :=
  m.withOption code ip.octets

/-- The message with an option set to a 32-bit number. -/
def withWord (m : Message) (code : UInt8) (w : UInt32) : Message :=
  m.withOption code (bytes32 w)

/-- A message of a kind about a client's transaction. -/
def make (sender : Sender) (kind : Kind) (xid : UInt32) (chaddr : Mac) : Message :=
  { sender, xid, chaddr, options := SortedMap.empty.insert kindCode [kind.number] }

/-- A server's answer within the transaction of a request. -/
def replyTo (request : Message) (kind : Kind) : Message :=
  { make .server kind request.xid request.chaddr with
    flags := request.flags, giaddr := request.giaddr }

/-- What the message does, if its type is known. -/
def kind? (m : Message) : Option Kind :=
  (m.options.get? kindCode).bind fun v => v.head?.bind Kind.ofNumber?

/-- The address at the start of an option's value. -/
def ip? (m : Message) (code : UInt8) : Option Ipv4Addr :=
  match m.options.get? code with
  | some (a :: b :: c :: d :: _) => some (.ofOctets a b c d)
  | _ => none

/-- The 32-bit number at the start of an option's value. -/
def word? (m : Message) (code : UInt8) : Option UInt32 :=
  (m.ip? code).map (·.bits)

/-- The address that a client asks for. -/
def requestedIp? (m : Message) : Option Ipv4Addr := m.ip? requestedIpCode

/-- The server that the message comes from or goes to. -/
def serverId? (m : Message) : Option Ipv4Addr := m.ip? serverIdCode

/-- The mask of the subnet. -/
def subnetMask? (m : Message) : Option Ipv4Addr := m.ip? subnetMaskCode

/-- The default router. -/
def router? (m : Message) : Option Ipv4Addr := m.ip? routerCode

/-- The DNS server. -/
def dnsServer? (m : Message) : Option Ipv4Addr := m.ip? dnsServerCode

/-- The lease time in seconds. -/
def leaseTime? (m : Message) : Option UInt32 := m.word? leaseTimeCode

/-- The flag of a client that cannot yet take unicast packets. -/
def broadcastFlag : UInt16 := 0x8000

/-- Whether the client asks for a broadcast answer. -/
def wantsBroadcast (m : Message) : Bool :=
  m.flags.toNat / 32768 % 2 == 1

/-- The message with the request for a broadcast answer. -/
def withBroadcast (m : Message) : Message :=
  { m with flags := m.flags ||| broadcastFlag }

end Message

/-! ## Reading -/

/-- Where a reader of options stands. -/
inductive Cursor where
  | atCode
  | atLength (code : UInt8)
  /-- In a value with `left + 1` bytes to come. -/
  | inValue (code : UInt8) (left : Nat)
deriving DecidableEq, Repr

/-- The options with more bytes at the end of a code's value. -/
def extend (options : Options) (code : UInt8) (more : Bytes) : Options :=
  options.insert code ((options.get? code).getD [] ++ more)

/-- The options in a byte string, added to those read before. -/
def readOptions : Options → Cursor → Bytes → Except Malformed Options
  | options, .atCode, [] => .ok options
  | _, .atLength _, [] => .error .dhcpOptionLength
  | _, .inValue code _, [] => .error (.dhcpOptionTruncated code)
  | options, .atCode, b :: rest =>
    if b = padCode then readOptions options .atCode rest
    else if b = endCode then .ok options
    else readOptions options (.atLength b) rest
  | options, .atLength code, n :: rest =>
    match n.toNat with
    | 0 => readOptions (extend options code []) .atCode rest
    | left + 1 => readOptions options (.inValue code left) rest
  | options, .inValue code 0, b :: rest => readOptions (extend options code [b]) .atCode rest
  | options, .inValue code (left + 1), b :: rest =>
    readOptions (extend options code [b]) (.inValue code left) rest

theorem extend_extend (options : Options) (code : UInt8) (v w : Bytes) :
    extend (extend options code v) code w = extend options code (v ++ w) := by
  refine SortedMap.ext_get? fun k => ?_
  by_cases h : k = code
  · subst h
    simp [extend]
  · simp [extend, h]

/-- **A complete value is read in one step** — its bytes join the code's earlier ones. -/
theorem readOptions_value : ∀ (options : Options) (code : UInt8) (value rest : Bytes) (left : Nat),
    value.length = left + 1 → readOptions options (.inValue code left) (value ++ rest) =
      readOptions (extend options code value) .atCode rest
  | _, _, [], _, _, h => by simp at h
  | options, code, [b], rest, left, h => by
    obtain rfl : left = 0 := by simpa using h.symm
    rfl
  | options, code, b :: c :: value, rest, left, h => by
    obtain ⟨left', rfl⟩ : ∃ n, left = n + 1 := ⟨left - 1, by simp at h; omega⟩
    rw [List.cons_append, readOptions,
      readOptions_value (extend options code [b]) code (c :: value) rest left' (by simpa using h),
      extend_extend]
    rfl

/-- The message in a byte string. -/
def parse (b : Bytes) : Except Malformed Message :=
  if b.length < headerLength + cookie.length then .error .dhcpTooShort
  else if (b.drop headerLength).take cookie.length ≠ cookie then .error .dhcpCookie
  else match Sender.ofNumber? (byteAt b 0) with
    | none => .error (.bootpOperation (byteAt b 0))
    | some sender =>
      if byteAt b 1 ≠ 1 ∨ byteAt b 2 ≠ 6 then .error .dhcpHardware
      else match readOptions ∅ .atCode (b.drop (headerLength + cookie.length)) with
        | .error cause => .error cause
        | .ok options => .ok {
            sender
            xid := word32At b 4
            secs := word16At b 8
            flags := word16At b 10
            ciaddr := ipAt b 12
            yiaddr := ipAt b 16
            siaddr := ipAt b 20
            giaddr := ipAt b 24
            chaddr := macAt b 28
            options }

/-! ## Writing -/

/-- An option that carries at most 255 bytes. -/
def shortOption (code : UInt8) (value : Bytes) : Bytes :=
  code :: UInt8.ofNat value.length :: value

/-- A value as one or more options of at most 255 bytes each. -/
def writeOption (code : UInt8) (value : Bytes) : Bytes :=
  (List.range (if value.isEmpty then 1 else (value.length + 254) / 255)).flatMap fun i =>
    shortOption code ((value.drop (255 * i)).take 255)

namespace Message

/-- The options of a message, its kind first so that a reader need not look far for it. -/
def optionBytes (m : Message) : Bytes :=
  (match m.options.get? kindCode with
    | some value => writeOption kindCode value
    | none => []) ++
  (m.options.erase kindCode).toList.flatMap fun e => writeOption e.1 e.2

/-- The bytes of a message in front of the cookie. -/
def headerBytes (m : Message) : Bytes :=
  [m.sender.number, 1, 6, 0] ++ bytes32 m.xid ++ bytes16 m.secs ++ bytes16 m.flags ++
    m.ciaddr.octets ++ m.yiaddr.octets ++ m.siaddr.octets ++ m.giaddr.octets ++
    m.chaddr.octets ++ List.replicate 202 0

@[simp] theorem length_headerBytes (m : Message) : m.headerBytes.length = headerLength := by
  simp only [headerBytes, List.length_append, List.length_replicate, length_bytes32,
    length_bytes16, Ipv4Addr.length_octets, Mac.length_octets, List.length_cons, List.length_nil,
    headerLength]

/-- The bytes of a message, filled up to the least length. -/
def build (m : Message) : Bytes :=
  let b := m.headerBytes ++ cookie ++ m.optionBytes ++ [endCode]
  b ++ List.replicate (minLength - b.length) padCode

theorem minLength_le_length_build (m : Message) : minLength ≤ m.build.length := by
  rw [build]
  generalize m.headerBytes ++ cookie ++ m.optionBytes ++ [endCode] = b
  rw [List.length_append, List.length_replicate]
  omega

end Message

end SegmentRouter.Wire.Dhcp
