/-!
# Malformed — why bytes or text could not be read

One constructor for each cause, with what the message quotes.
-/

namespace SegmentRouter

/-- A reason why a header, a message or a piece of text was refused. -/
inductive Malformed where
  | frameTooShort
  | arpTooShort
  | arpNotIpv4OverEthernet
  | arpAddressLengths
  | arpOperation (code : UInt16)
  | ipv4TooShort
  | notIpv4
  | ipv4Lengths
  | tcpTooShort
  | tcpDataOffset
  | udpTooShort
  | udpLength
  | icmpTooShort
  | dhcpTooShort
  | dhcpCookie
  | bootpOperation (code : UInt8)
  | dhcpHardware
  | dhcpOptionLength
  | dhcpOptionTruncated (code : UInt8)
  | cidrWithoutLength (text : String)
  | cidrAddress (text : String)
  | cidrLength (text : String)
  | cidrLengthTooLarge (length : Nat)
  | port (text : String)
  | emptyPortRange (text : String)
deriving DecidableEq, Repr

/-- The sentence that names the cause. -/
def Malformed.message : Malformed → String
  | frameTooShort => "frame too short"
  | arpTooShort => "ARP packet too short"
  | arpNotIpv4OverEthernet => "ARP is not Ethernet/IPv4"
  | arpAddressLengths => "bad ARP address lengths"
  | arpOperation code => s!"unknown ARP operation {code}"
  | ipv4TooShort => "IPv4 packet too short"
  | notIpv4 => "not an IPv4 packet"
  | ipv4Lengths => "IPv4 length fields inconsistent"
  | tcpTooShort => "TCP header too short"
  | tcpDataOffset => "TCP data offset invalid"
  | udpTooShort => "UDP header too short"
  | udpLength => "UDP length invalid"
  | icmpTooShort => "ICMP message too short"
  | dhcpTooShort => "DHCP message too short"
  | dhcpCookie => "invalid DHCP magic cookie"
  | bootpOperation code => s!"invalid BOOTP op {code}"
  | dhcpHardware => "DHCP hardware type is not Ethernet"
  | dhcpOptionLength => "DHCP option length missing"
  | dhcpOptionTruncated code => s!"DHCP option {code} truncated"
  | cidrWithoutLength text => s!"missing prefix length in '{text}'"
  | cidrAddress text => s!"invalid IPv4 address in '{text}'"
  | cidrLength text => s!"invalid prefix length in '{text}'"
  | cidrLengthTooLarge length => s!"prefix length {length} > 32"
  | port text => s!"invalid port '{text}'"
  | emptyPortRange text => s!"empty port range '{text}'"

end SegmentRouter
