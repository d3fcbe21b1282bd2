import Mathlib.Data.List.Nodup
import SegmentRouter.Config.Validation

/-!
# Proofs/Config/Names — accepted configurations name their domains apart

The check of names goes through the domains with the names that it has seen; where it finds nothing
no name occurs twice.
-/

namespace SegmentRouter.Config

variable {config : Config}

/-- Where the check of names finds nothing the names differ, also from those seen before, and none
is empty. -/
theorem names_of_checkNames (before : List String) {domains : List Domain}
    (h : checkNames before domains = []) : (domains.map (·.name)).Nodup ∧
      ∀ d ∈ domains, d.name ∉ before ∧ d.name.isEmpty = false := by
  induction domains generalizing before with
  | nil => exact ⟨List.nodup_nil, fun _ hd => absurd hd List.not_mem_nil⟩
  | cons d rest ih =>
    rw [checkNames] at h
    split at h
    · cases h
    · rename_i hempty
      split at h
      · cases h
      · rename_i hbefore
        obtain ⟨hnodup, hnew⟩ := ih _ h
        refine ⟨List.nodup_cons.2 ⟨fun hm => ?_, hnodup⟩, fun e he => ?_⟩
        · obtain ⟨e, he, hname⟩ := List.mem_map.1 hm
          exact (hnew e he).1 (hname ▸ List.mem_cons_self)
        · rcases List.mem_cons.1 he with rfl | he
          · exact ⟨by simpa using hbefore, Bool.not_eq_true _ ▸ hempty⟩
          · exact ⟨fun hm => (hnew e he).1 (List.mem_cons_of_mem _ hm), (hnew e he).2⟩

theorem checkNames_isError (before : List String) (domains : List Domain) :
    ∀ f ∈ checkNames before domains, ∃ message, f = .error message := by
  induction domains generalizing before with
  | nil => exact fun f hf => absurd hf List.not_mem_nil
  | cons d rest ih =>
    intro f hf
    rw [checkNames] at hf
    split at hf
    · rcases List.mem_cons.1 hf with rfl | hf
      · exact ⟨_, rfl⟩
      · exact ih _ f hf
    · split at hf
      · rcases List.mem_cons.1 hf with rfl | hf
        · exact ⟨_, rfl⟩
        · exact ih _ f hf
      · exact ih _ f hf

section

variable (h : config.validate.hasErrors = false)

include h

/-- Nothing that is found about a configuration without errors is one. -/
theorem not_error_mem (message : String) : .error message ∉ config.validate.findings := by
  have herrors : config.validate.errors = [] := by
    simpa [Diagnosis.hasErrors] using h
  intro hm
  have hmem : message ∈ config.validate.errors := List.mem_filterMap.2 ⟨.error message, hm, rfl⟩
  rw [herrors] at hmem
  exact List.not_mem_nil hmem

theorem checkNames_eq_nil : checkNames [] config.domains = [] := by
  refine List.eq_nil_iff_forall_not_mem.2 fun f hf => ?_
  obtain ⟨message, rfl⟩ := checkNames_isError [] config.domains f hf
  refine not_error_mem h message ?_
  simp only [validate, List.mem_append]
  exact .inl (.inl (.inl (.inr hf)))

/-- **The domains of a configuration without errors have different names.** -/
theorem nodup_names : (config.domains.map (·.name)).Nodup :=
  (names_of_checkNames [] (checkNames_eq_nil h)).1

end

/-- A configuration is accepted exactly if it has no errors. -/
theorem accept_eq_ok {accepted : Config} : config.accept.value = .ok accepted ↔
    config.validate.hasErrors = false ∧ accepted = config := by
  unfold accept
  rw [Logged.value_bind]
  split
  · rename_i h
    exact ⟨nofun, fun he => absurd h (by simp [he.1])⟩
  · rename_i h
    refine ⟨fun he => ⟨by simpa using h, (Except.ok.inj he).symm⟩, fun he => ?_⟩
    rw [he.2]
    rfl

end SegmentRouter.Config
