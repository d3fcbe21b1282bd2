import Mathlib.Algebra.Order.BigOperators.Group.List
import Mathlib.Algebra.Order.Ring.Nat
import Mathlib.Data.List.Perm.Subperm
import SegmentRouter.Proofs.Dhcp.Answers
import SegmentRouter.Proofs.Dhcp.Calls
import SegmentRouter.Proofs.Dhcp.Messages

/-!
# Proofs/Dhcp/Terse — the router's own DHCP messages are short

A message can hold no more options than there are codes.  Servers and clients write values of four
bytes at most (`Message.IsTerse`), so whatever they are asked their messages fit into a packet
(`IsTerse.length_build_le`).
-/

namespace SegmentRouter

namespace Wire.Dhcp

theorem length_writeOption_le (code : UInt8) {value : Bytes} (h : value.length ≤ 4) :
    (writeOption code value).length ≤ 6 := by
  rw [writeOption_of_le (Nat.le_trans h (by decide)), shortOption, List.length_cons,
    List.length_cons]
  omega

/-- There are no more options than codes. -/
theorem length_options_le (options : Options) : options.toList.length ≤ 256 := by
  have hnodup : List.Nodup (options.toList.map fun e => e.1.toNat) := by
    refine List.pairwise_map.2 (options.sorted.imp fun {a b} h he => ?_)
    have hkey : a.1 = b.1 := UInt8.toNat_inj.1 he
    rw [hkey, SortKey.irrefl] at h
    cases h
  have hsub : (options.toList.map fun e => e.1.toNat) ⊆ List.range 256 := fun n hn => by
    obtain ⟨e, -, rfl⟩ := List.mem_map.1 hn
    exact List.mem_range.2 e.1.toNat_lt
  have hle := (hnodup.subperm hsub).length_le
  rwa [List.length_map, List.length_range] at hle

namespace Message

variable {m : Message} {code : UInt8}

/-- No option of the message has a value of more than four bytes. -/
def IsTerse (m : Message) : Prop :=
  ∀ code value, m.options.get? code = some value → value.length ≤ 4

theorem IsTerse.withOption (h : m.IsTerse) {value : Bytes} (hvalue : value.length ≤ 4) :
    (m.withOption code value).IsTerse := by
  intro other v hv
  rw [Message.withOption, SortedMap.get?_insert] at hv
  split at hv
  · obtain rfl := Option.some.inj hv
    exact hvalue
  · exact h other v hv

theorem IsTerse.withIp (h : m.IsTerse) (ip : Ipv4Addr) : (m.withIp code ip).IsTerse :=
  h.withOption (Nat.le_of_eq ip.length_octets)

theorem IsTerse.withWord (h : m.IsTerse) (w : UInt32) : (m.withWord code w).IsTerse :=
  h.withOption (Nat.le_of_eq (length_bytes32 w))

theorem isTerse_make (sender : Sender) (kind : Kind) (xid : UInt32) (chaddr : Mac) :
    (make sender kind xid chaddr).IsTerse := by
  intro code value h
  rw [make, SortedMap.get?_insert] at h
  split at h
  · obtain rfl := Option.some.inj h
    exact Nat.le_add_left 1 3
  · cases h

/-- **A terse message is short.** -/
theorem IsTerse.length_build_le (h : m.IsTerse) : m.build.length ≤ 1783 := by
  have hoption : ∀ options : Options, (∀ e ∈ options.toList, e ∈ m.options.toList) →
      (options.toList.flatMap fun e => writeOption e.1 e.2).length ≤ 1536 := by
    intro options hsub
    have hle := List.sum_le_card_nsmul (options.toList.map fun e => (writeOption e.1 e.2).length) 6
      fun n hn => by
        obtain ⟨e, he, rfl⟩ := List.mem_map.1 hn
        exact length_writeOption_le e.1 (h e.1 e.2 (SortedMap.get?_eq_some_iff.2 (hsub e he)))
    have hcount := length_options_le options
    rw [List.length_map, nsmul_eq_mul, Nat.cast_id] at hle
    rw [List.length_flatMap]
    omega
  have hrest := hoption (m.options.erase kindCode) fun e he =>
    (List.mem_filter.1 he).1
  have hbytes : m.optionBytes.length ≤ 6 + 1536 := by
    rw [optionBytes, List.length_append]
    refine Nat.add_le_add ?_ hrest
    split
    · rename_i value hvalue
      exact length_writeOption_le _ (h _ _ hvalue)
    · exact Nat.zero_le _
  simp only [build, List.length_append, length_headerBytes, List.length_replicate, minLength,
    headerLength, cookie, List.length_cons, List.length_nil]
  omega

end Message

end Wire.Dhcp

open Wire.Dhcp (Message Kind)

/-! ## Servers -/

namespace DhcpServer

variable {s s' : DhcpServer} {msg : Message} {params : Params} {now : Nat}

theorem isTerse_reply (s : DhcpServer) (msg : Message) (kind : Kind) (params : Params) :
    (s.reply msg kind params).IsTerse := by
  have hbase : ({ Message.replyTo msg kind with siaddr := params.interface.addr } :
      Message).IsTerse := Message.isTerse_make .server kind msg.xid msg.chaddr
  unfold reply
  dsimp only
  cases params.dnsServer with
  | none => exact ((((((hbase.withIp _).withIp _).withIp _).withIp _).withWord _).withWord _).withWord _
  | some dns =>
    exact (((((((hbase.withIp _).withIp _).withIp _).withIp _).withIp _).withWord _).withWord
      _).withWord _

theorem isTerse_nak (msg : Message) (params : Params) : (nak msg params).IsTerse :=
  (Message.isTerse_make .server .nak msg.xid msg.chaddr).withIp _

theorem isTerse_informReply (s : DhcpServer) (msg : Message) (params : Params) :
    (s.informReply msg params).IsTerse := by
  intro code value h
  rw [informReply, SortedMap.get?_erase, SortedMap.get?_erase, SortedMap.get?_erase] at h
  refine s.isTerse_reply msg .ack params code value ?_
  split at h
  · cases h
  · split at h
    · cases h
    · split at h
      · cases h
      · exact h

/-- **A server's answers are terse**, whatever it is asked. -/
theorem Answers.isTerse {answer : Message} (h : s.Answers msg params now (some answer) s') :
    answer.IsTerse := by
  cases h with
  | informed => exact s.isTerse_informReply msg params
  | reoffered => exact s.isTerse_reply msg .offer params
  | offered => exact s.isTerse_reply msg .offer params
  | bound => exact s.isTerse_reply msg .ack params
  | refused => exact isTerse_nak msg params
  | dismissed => exact isTerse_nak msg params

end DhcpServer

/-! ## Clients -/

/-- A message that is to be sent is terse. -/
def DhcpAction.IsTerse : DhcpAction → Prop
  | .broadcast msg | .unicast msg _ => msg.IsTerse
  | .configure _ | .deconfigure | .none => True

namespace DhcpClient

variable (c : DhcpClient) (msg : Message) (fresh : UInt32) (now : Nat)

theorem isTerse_sendDiscover : (c.sendDiscover now).1.IsTerse :=
  (Message.isTerse_make .client .discover c.xid c.mac).withOption (Nat.le_refl 4)

theorem isTerse_sendRequest : (c.sendRequest now).1.IsTerse := by
  have hmade := Message.isTerse_make .client .request c.xid c.mac
  unfold sendRequest
  dsimp only
  split
  · exact hmade
  · split
    · exact (hmade.withIp _).withIp _
    · exact c.isTerse_sendDiscover now

theorem isTerse_start : (c.start fresh now).value.1.IsTerse :=
  isTerse_sendDiscover _ now

theorem isTerse_handle : (c.handle msg fresh now).value.1.IsTerse := by
  have hheeds := c.heeds_handle msg fresh now
  generalize (c.handle msg fresh now).value = result at hheeds ⊢
  cases hheeds with
  | requested => exact isTerse_sendRequest _ now
  | spoiled => exact c.isTerse_start fresh now
  | refused =>
    dsimp only
    split
    · trivial
    · exact c.isTerse_start fresh now
  | ignored | renewed | configured => trivial

theorem isTerse_tick : (c.tick fresh now).value.1.IsTerse := by
  have hwaits := c.waits_tick fresh now
  generalize (c.tick fresh now).value = result at hwaits ⊢
  cases hwaits with
  | restarted => exact c.isTerse_start fresh now
  | searched => exact isTerse_sendDiscover _ now
  | repeated | renewing => exact isTerse_sendRequest _ now
  | idle | expired => trivial

end DhcpClient

end SegmentRouter
