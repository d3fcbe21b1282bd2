import SegmentRouter.Proofs.Config.Checks
import SegmentRouter.Proofs.Port.Range

/-!
# Proofs/Config/Messages — the report of a cycle and the other messages

A report of a cycle names its domain, so there is one text for each (`cycleMessage_injective`).  No
other error reads like it, whatever names, addresses and ports it quotes, for none of them ends in
the same two letters (`Foreign`): they end in another word, in a digit or in a quotation mark.
-/

namespace SegmentRouter.Config

open Finding

variable {domains : List Domain} {all : Named} {d : Domain} {message text : String}
  {condition : Bool}

/-- **The report of a cycle.** -/
def cycleMessage (name : String) : String :=
  s!"domain '{name}': ip_config_from forms a cycle"

theorem domainError_cycle (name : String) :
    domainError name "ip_config_from forms a cycle" = .error (cycleMessage name) :=
  congrArg Finding.error (Eq.trans String.append_assoc rfl)

theorem cycleMessage_injective : Function.Injective cycleMessage := fun _ _ h =>
  (String.append_right_inj _).1 ((String.append_left_inj _).1 h)

/-- Whether a text, given backwards, ends in another way than with the letters `le`. -/
def endsApart : List Char → Bool
  | [] => false
  | [c] => c ≠ 'e'
  | c :: d :: _ => c ≠ 'e' || d ≠ 'l'

/-- **The text does not end as the report of a cycle does**, whatever stands before it. -/
def Foreign (text : String) : Prop := endsApart text.toList.reverse = true

instance : DecidablePred Foreign := fun _ => inferInstanceAs (Decidable (_ = true))

theorem endsApart_append {a : List Char} (b : List Char) (h : endsApart a = true) :
    endsApart (a ++ b) = true := by
  match a, b with
  | [_], [] => exact h
  | [_], _ :: _ => exact Bool.or_eq_true .. ▸ .inl h
  | _ :: _ :: _, _ => exact h

theorem foreign_append (before : String) (h : Foreign text) : Foreign (before ++ text) := by
  rw [Foreign, String.toList_append, List.reverse_append]
  exact endsApart_append _ h

theorem not_foreign_cycleMessage (name : String) : ¬ Foreign (cycleMessage name) := by
  rw [Foreign, cycleMessage, String.toList_append, List.reverse_append]
  exact Bool.false_ne_true

/-- A number ends in a digit. -/
theorem foreign_nat (n : Nat) : Foreign (toString n) := by
  rw [Foreign, Nat.toString_eq_ofList_toDigits, String.toList_ofList]
  match hdigits : (Nat.toDigits 10 n).reverse with
  | [] => exact absurd (List.reverse_eq_nil_iff.1 hdigits) Nat.toDigits_ne_nil
  | c :: rest =>
    have hc : c ∈ Nat.toDigits 10 n := List.mem_reverse.1 (hdigits ▸ List.mem_cons_self)
    have hdigit := Nat.isDigit_of_mem_toDigits (by decide) (by decide) hc
    have hne : c ≠ 'e' := fun he => by
      rw [he] at hdigit
      cases hdigit
    exact endsApart_append (a := [c]) rest (decide_eq_true hne)

theorem foreign_ip (ip : Ipv4Addr) : Foreign (toString ip) := by
  change Foreign ip.text
  rw [Ipv4Addr.text, Ipv4Addr.octets, List.map_cons, List.map_cons, List.map_cons, List.map_cons,
    List.map_nil, String.intercalate_cons_cons, String.intercalate_cons_cons,
    String.intercalate_cons_cons, String.intercalate_singleton]
  exact foreign_append _ (foreign_append _ (foreign_append _ (foreign_nat _)))

theorem foreign_cidr (cidr : Cidr) : Foreign (toString cidr) :=
  foreign_append _ (foreign_nat _)

/-! ## The other checks -/

theorem foreign_domainError (name : String) (h : Foreign message) :
    AllErrors Foreign [domainError name message] :=
  allErrors_domainError.2 (foreign_append _ h)

theorem foreign_findIf (name : String) (h : Foreign message) :
    AllErrors Foreign (findIf condition (domainError name message)) :=
  allErrors_findIf.2 fun _ => foreign_domainError name h

theorem foreign_checkNames (before : List String) :
    AllErrors Foreign (checkNames before domains) := by
  induction domains generalizing before with
  | nil => exact allErrors_nil
  | cons d rest ih =>
    rw [checkNames]
    split
    · exact allErrors_append.2 ⟨allErrors_error.2 (by decide), ih before⟩
    · split
      · exact allErrors_append.2 ⟨allErrors_error.2 (foreign_append _ (by decide)), ih before⟩
      · exact ih _

theorem foreign_checkReferences : AllErrors Foreign (checkReferences all d) := by
  intro message hm
  obtain ⟨name, -, he⟩ := List.mem_map.1 hm
  obtain rfl := Finding.error.inj he
  exact foreign_append _ (foreign_append _ (by decide))

theorem foreign_checkAddresses : AllErrors Foreign (checkAddresses all d) := by
  rw [checkAddresses, allErrors_append]
  constructor
  · split
    · rw [checkInterface, allErrors_append, allErrors_append]
      refine ⟨⟨foreign_findIf _ (foreign_append _ (by decide)), ?_⟩, foreign_findIf _ (by decide)⟩
      split
      · exact foreign_findIf _ (foreign_append _ (foreign_cidr _))
      · exact allErrors_nil
    · rw [checkDynamic, allErrors_append]
      exact ⟨by simp, foreign_findIf _ (by decide)⟩
  · rw [checkSupplier]
    split
    · simp
    · exact allErrors_nil

theorem foreign_checkDhcpServer : AllErrors Foreign (checkDhcpServer d) := by
  rw [checkDhcpServer]
  split
  · exact allErrors_nil
  · exact foreign_domainError _ (by decide)
  · rw [checkPool]
    simp only [allErrors_append]
    exact ⟨⟨⟨⟨foreign_findIf _ (foreign_append _ (foreign_ip _)),
      foreign_findIf _ (foreign_append _ (foreign_cidr _))⟩, by simp⟩, by simp⟩,
      foreign_findIf _ (by decide)⟩

theorem foreign_checkTransport (protocol : String) (rule : Transport) :
    AllErrors Foreign (checkTransport d protocol rule) := by
  rw [checkTransport, allErrors_append, allErrors_flatMap]
  refine ⟨foreign_findIf _ (foreign_append _ (by decide)), fun permit _ => ?_⟩
  split
  · exact allErrors_nil
  · rename_i cause hfault
    refine foreign_domainError _ (foreign_append _ ?_)
    rcases Port.Range.fault_of_ofText hfault with rfl | ⟨_, rfl⟩
    · exact foreign_append _ (foreign_append _ (by decide))
    · exact foreign_append _ (foreign_append _ (by decide))

theorem foreign_checkForwards (protocol : String) (before : List UInt16)
    (rules : List Rule.Forward) : AllErrors Foreign (checkForwards d protocol before rules) := by
  induction rules generalizing before with
  | nil => exact allErrors_nil
  | cons rule rest ih =>
    rw [checkForwards, allErrors_append, allErrors_append]
    exact ⟨⟨foreign_findIf _ (foreign_append _ (by decide)),
      foreign_findIf _ (foreign_append _ (by decide))⟩, ih _⟩

theorem foreign_checkNat (before : List String) (rules : List Masquerade) :
    AllErrors Foreign (checkNat d before rules) := by
  induction rules generalizing before with
  | nil => exact allErrors_nil
  | cons rule rest ih =>
    rw [checkNat, allErrors_append, allErrors_append]
    exact ⟨⟨foreign_findIf _ (foreign_append _ (by decide)), foreign_findIf _ (by decide)⟩, ih _⟩

/-- **What is wrong with one domain is told in other words.** -/
theorem foreign_checkDomain : AllErrors Foreign (checkDomain all d) := by
  rw [checkDomain, checkRules]
  simp only [allErrors_append, allErrors_flatMap]
  exact ⟨⟨⟨foreign_checkReferences, foreign_checkAddresses⟩, foreign_checkDhcpServer⟩,
    ⟨⟨⟨⟨⟨fun _ _ => foreign_checkTransport _ _, fun _ _ => foreign_checkTransport _ _⟩,
      foreign_checkForwards _ _ _⟩, foreign_checkForwards _ _ _⟩, by simp⟩, foreign_checkNat _ _⟩⟩

/-- No report of a cycle is among findings that are told in other words. -/
theorem count_cycleMessage {findings : List Finding} (h : AllErrors Foreign findings)
    (name : String) : (findings.filterMap Finding.error?).count (cycleMessage name) = 0 := by
  refine List.count_eq_zero.2 fun hm => ?_
  obtain ⟨f, hf, he⟩ := List.mem_filterMap.1 hm
  cases f with
  | warning => cases he
  | error message => exact not_foreign_cycleMessage name (h _ (Option.some.inj he ▸ hf))

end SegmentRouter.Config
