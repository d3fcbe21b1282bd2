import SegmentRouter.Port.Range

/-!
# Proofs/Port/Range — what the text of a range of ports can be

Text is read as a range of at least one port, none of them port 0 (`sound_of_ofText`), or it is
refused for one of its ports or for being empty (`fault_of_ofText`).
-/

namespace SegmentRouter.Port.Range

variable {s : String} {cs : List Char} {port : UInt16} {range : Range} {cause : Malformed}

/-- **There is a port in the range, and port 0 is not.** -/
structure Sound (range : Range) : Prop where
  pos : 0 < range.first.toNat
  ordered : range.first.toNat ≤ range.last.toNat

/-- Port 0 is not read. -/
theorem pos_of_port (h : Range.port cs = .ok port) : 0 < port.toNat := by
  rw [Range.port] at h
  split at h
  · cases h
  · cases h
  · rename_i n hzero hn
    obtain rfl := Except.ok.inj h
    have hle := Text.unsigned?_le hn
    rw [UInt16.toNat_ofNat', Nat.mod_eq_of_lt (Nat.lt_succ_of_le hle)]
    exact Nat.pos_of_ne_zero hzero

/-- A text that is no port is refused for that. -/
theorem fault_of_port (h : Range.port cs = .error cause) : ∃ text, cause = .port text := by
  rw [Range.port] at h
  split at h
  · exact ⟨_, (Except.error.inj h).symm⟩
  · exact ⟨_, (Except.error.inj h).symm⟩
  · cases h

theorem pos_of_ends (h : ends s = .ok range) : 0 < range.first.toNat := by
  rw [ends] at h
  split at h
  · split at h
    · rename_i hfirst _
      exact Except.ok.inj h ▸ pos_of_port hfirst
    · cases h
    · cases h
  · split at h
    · rename_i hport
      exact Except.ok.inj h ▸ pos_of_port hport
    · cases h

theorem fault_of_ends (h : ends s = .error cause) : ∃ text, cause = .port text := by
  rw [ends] at h
  split at h
  · split at h
    · cases h
    · rename_i hfirst
      exact Except.error.inj h ▸ fault_of_port hfirst
    · rename_i hlast
      exact Except.error.inj h ▸ fault_of_port hlast
  · split at h
    · cases h
    · rename_i hport
      exact Except.error.inj h ▸ fault_of_port hport

/-- **A range that was read holds a port and not port 0.** -/
theorem sound_of_ofText (h : ofText s = .ok range) : range.Sound := by
  rw [ofText] at h
  split at h
  · rename_i r hends
    split at h
    · cases h
    · rename_i hordered
      obtain rfl := Except.ok.inj h
      exact ⟨pos_of_ends hends, Nat.le_of_not_lt hordered⟩
  · cases h

/-- **A range is refused for a port or for being empty.** -/
theorem fault_of_ofText (h : ofText s = .error cause) :
    cause = .emptyPortRange s ∨ ∃ text, cause = .port text := by
  rw [ofText] at h
  split at h
  · split at h
    · exact .inl (Except.error.inj h).symm
    · cases h
  · rename_i hends
    exact .inr (Except.error.inj h ▸ fault_of_ends hends)

end SegmentRouter.Port.Range
