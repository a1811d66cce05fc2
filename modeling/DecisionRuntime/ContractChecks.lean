/-
`_check_contract_nodes` on configurations of any shape.

The check is written for strings, and a configuration comes from a YAML file: a
contract type that is a number has no `strip`, a version that is one cannot be
matched, and the validator handles neither exception. Two more shapes get
through: a contract type in bytes, and a version with a newline after it, since
`$` matches there as well.

* `WellFormedContract` -- what a contract has to be;
* `Passes`, `Refused` -- what the code accepts, and what it rejects as it should;
* `contract_checks_iff` -- when the check does on a flow what it has to.
-/
import DecisionRuntime.Exec
import DecisionRuntime.FlowValidator
import DecisionRuntime.Splitting
import Mathlib.Data.List.TakeWhile

set_option autoImplicit false

namespace DecisionRuntime

/-! ## Blank texts -/

/-- A text that `strip` leaves nothing of is blank. -/
theorem strip_isEmpty_iff (cs : List Char) :
    (strip cs).isEmpty = true ↔ ∀ c ∈ cs, isSpace c = true := by
  rw [strip, List.isEmpty_reverse, List.isEmpty_iff, List.dropWhile_eq_nil_iff]
  simp only [List.mem_reverse]
  constructor
  · intro h c hc
    by_cases hspace : isSpace c = true
    · exact hspace
    · -- what is stripped in front is blank as well
      rw [← List.takeWhile_append_dropWhile (p := isSpace) (l := cs), List.mem_append] at hc
      cases hc with
      | inl hc => exact List.mem_takeWhile_imp hc
      | inr hc => exact h c hc
  · intro h c hc
    exact h c ((List.dropWhile_suffix isSpace).subset hc)

namespace ContractRegistry

variable {P : Platform}

/-! ## Versions -/

/-- Decimal digits, at least one. -/
def DigitGroup (P : Platform) (cs : List Char) : Prop :=
  cs ≠ [] ∧ ∀ c ∈ cs, (P.digit c).isSome = true

/-- Three groups of digits with dots between them, and nothing else. -/
def ThreeGroups (P : Platform) (cs : List Char) : Prop :=
  ∃ a b c, cs = a ++ '.' :: (b ++ '.' :: c)
    ∧ DigitGroup P a ∧ DigitGroup P b ∧ DigitGroup P c

theorem DigitGroup.dot_not_mem {cs : List Char} (h : DigitGroup P cs) : '.' ∉ cs := by
  intro hmem
  have hdot : P.digit '.' = none := by
    unfold Platform.digit
    rw [if_neg (by decide), if_pos (by decide)]
  have hdigit := h.2 '.' hmem
  rw [hdot] at hdigit
  cases hdigit

theorem digitGroup_iff (cs : List Char) :
    (!cs.isEmpty && cs.all (fun c => (P.digit c).isSome)) = true ↔ DigitGroup P cs := by
  simp [DigitGroup]

/-- The text that the pattern describes. -/
theorem semver_text_iff (cs : List Char) : semver_text P cs = true ↔ ThreeGroups P cs := by
  unfold semver_text ThreeGroups
  simp only [Bool.and_eq_true, decide_eq_true_eq]
  constructor
  · rintro ⟨hlength, hall⟩
    obtain ⟨a, b, c, hcs, hsplit⟩ := split_length_three hlength
    simp only [hsplit, List.all_cons, List.all_nil, Bool.and_true, Bool.and_eq_true] at hall
    exact ⟨a, b, c, hcs, (digitGroup_iff a).mp (by simpa using hall.1),
      (digitGroup_iff b).mp (by simpa using hall.2.1),
      (digitGroup_iff c).mp (by simpa using hall.2.2)⟩
  · rintro ⟨a, b, c, rfl, ha, hb, hc⟩
    rw [split_append ha.dot_not_mem, split_append hb.dot_not_mem, split_of_not_mem hc.dot_not_mem]
    simp only [List.length_cons, List.length_nil, List.all_cons, List.all_nil, Bool.and_true,
      (digitGroup_iff a).mpr ha, (digitGroup_iff b).mpr hb, (digitGroup_iff c).mpr hc, and_self]

/-- What the pattern matches: the text it describes, or that text and a newline. -/
def Matched (P : Platform) (text : String) : Prop :=
  ThreeGroups P text.toList ∨ ∃ cs, text.toList = cs ++ ['\n'] ∧ ThreeGroups P cs

theorem semver_iff (text : String) : semver P text = true ↔ Matched P text := by
  unfold semver Matched
  simp only [Bool.or_eq_true, Bool.and_eq_true, decide_eq_true_eq, semver_text_iff]
  apply or_congr Iff.rfl
  constructor
  · rintro ⟨hlast, hgroups⟩
    refine ⟨text.toList.dropLast, ?_, hgroups⟩
    exact (List.dropLast_append_getLast? '\n' hlast).symm
  · rintro ⟨cs, hcs, hgroups⟩
    rw [hcs]
    simp [hgroups]

/-! ## Contract types -/

/-- A string with a character that is not blank. -/
def NonBlank (contract_type : Value) : Prop :=
  ∃ s, contract_type = .str s ∧ ∃ c ∈ s.toList, isSpace c = false

/-- What the code takes for a contract type: it may be in bytes as well. -/
def HasText (contract_type : Value) : Prop :=
  NonBlank contract_type ∨ ∃ b, contract_type = .bytes b ∧ ∃ c ∈ b, isSpaceByte c = false

/-- What the code takes for a missing contract type. -/
def Blank (contract_type : Value) : Prop :=
  contract_type.truthy = false
    ∨ (∃ s, contract_type = .str s ∧ ∀ c ∈ s.toList, isSpace c = true)
    ∨ ∃ b, contract_type = .bytes b ∧ ∀ c ∈ b, isSpaceByte c = true

/-- A value that is neither missing nor a text. -/
def NoText (contract_type : Value) : Prop :=
  contract_type.truthy = true ∧ (∀ s, contract_type ≠ .str s) ∧ ∀ b, contract_type ≠ .bytes b

theorem text_cases (contract_type : Value) :
    HasText contract_type ∨ Blank contract_type ∨ NoText contract_type := by
  by_cases htruthy : contract_type.truthy = true
  · cases contract_type with
    | str s =>
        by_cases hblank : ∀ c ∈ s.toList, isSpace c = true
        · exact Or.inr (Or.inl (Or.inr (Or.inl ⟨s, rfl, hblank⟩)))
        · push Not at hblank
          obtain ⟨c, hc, hspace⟩ := hblank
          exact Or.inl (Or.inl ⟨s, rfl, c, hc, by simpa using hspace⟩)
    | bytes b =>
        by_cases hblank : ∀ c ∈ b, isSpaceByte c = true
        · exact Or.inr (Or.inl (Or.inr (Or.inr ⟨b, rfl, hblank⟩)))
        · push Not at hblank
          obtain ⟨c, hc, hspace⟩ := hblank
          exact Or.inl (Or.inr ⟨b, rfl, c, hc, by simpa using hspace⟩)
    | _ => exact Or.inr (Or.inr ⟨htruthy, by simp, by simp⟩)
  · exact Or.inr (Or.inl (Or.inl (by simpa using htruthy)))

theorem missing_type_of_hasText {contract_type : Value} (h : HasText contract_type) :
    missing_type contract_type = .ok false := by
  cases h with
  | inl h =>
      obtain ⟨s, rfl, c, hc, hspace⟩ := h
      have htruthy : (Value.str s).truthy = true := by
        simp only [Value.truthy, ne_eq, decide_not, Bool.not_eq_eq_eq_not, Bool.not_true,
          decide_eq_false_iff_not]
        rintro rfl
        simp at hc
      have hstrip : (strip s.toList).isEmpty = false := by
        rw [← Bool.not_eq_true, strip_isEmpty_iff]
        intro hall
        rw [hall c hc] at hspace
        cases hspace
      rw [missing_type, if_pos htruthy, strip_nonempty, hstrip]
      rfl
  | inr h =>
      obtain ⟨b, rfl, c, hc, hspace⟩ := h
      have htruthy : (Value.bytes b).truthy = true := by
        cases b with
        | nil => simp at hc
        | cons d b => rfl
      have hany : b.any (fun c => !isSpaceByte c) = true :=
        List.any_eq_true.mpr ⟨c, hc, by rw [hspace]; rfl⟩
      rw [missing_type, if_pos htruthy, strip_nonempty, hany]
      rfl

theorem missing_type_of_blank {contract_type : Value} (h : Blank contract_type) :
    missing_type contract_type = .ok true := by
  rw [missing_type]
  by_cases htruthy : contract_type.truthy = true
  · rw [if_pos htruthy]
    obtain hfalse | ⟨s, rfl, hall⟩ | ⟨b, rfl, hall⟩ := h
    · rw [hfalse] at htruthy
      cases htruthy
    · rw [strip_nonempty, (strip_isEmpty_iff s.toList).mpr hall]
      rfl
    · have hany : b.any (fun c => !isSpaceByte c) = false := by
        rw [List.any_eq_false]
        intro c hc
        simp [hall c hc]
      rw [strip_nonempty, hany]
      rfl
  · rw [if_neg htruthy]

theorem missing_type_of_noText {contract_type : Value} (h : NoText contract_type) :
    ∃ msg, missing_type contract_type = .error (.attributeError msg) := by
  obtain ⟨htruthy, hstr, hbytes⟩ := h
  rw [missing_type, if_pos htruthy]
  cases contract_type with
  | str s => exact absurd rfl (hstr s)
  | bytes b => exact absurd rfl (hbytes b)
  | _ => exact ⟨_, rfl⟩

/-! ## The inline check -/

/-- What a contract has to be. -/
def WellFormedContract (P : Platform) (contract_type contract_version : Value) : Prop :=
  NonBlank contract_type ∧ ∃ text, contract_version = .str text ∧ ThreeGroups P text.toList

/-- What the code accepts. -/
def Passes (P : Platform) (contract_type contract_version : Value) : Prop :=
  HasText contract_type ∧ ∃ text, contract_version = .str text ∧ Matched P text

/-- What the code rejects as a contract: the type is missing, or the version is a string of another
form. -/
def Refused (P : Platform) (contract_type contract_version : Value) : Prop :=
  Blank contract_type
    ∨ HasText contract_type ∧ ∃ text, contract_version = .str text ∧ ¬Matched P text

/-- What the code is not written for: a type that is no text, or a version that is no string. -/
def Crashes (contract_type contract_version : Value) : Prop :=
  NoText contract_type ∨ HasText contract_type ∧ ∀ text, contract_version ≠ .str text

section Inline

variable {contract_type contract_version : Value}

theorem contract_cases (P : Platform) (contract_type contract_version : Value) :
    Passes P contract_type contract_version ∨ Refused P contract_type contract_version
      ∨ Crashes contract_type contract_version := by
  obtain htext | hblank | hnone := text_cases contract_type
  · by_cases hstr : ∃ text, contract_version = .str text
    · obtain ⟨text, rfl⟩ := hstr
      by_cases hmatched : Matched P text
      · exact Or.inl ⟨htext, text, rfl, hmatched⟩
      · exact Or.inr (Or.inl (Or.inr ⟨htext, text, rfl, hmatched⟩))
    · exact Or.inr (Or.inr (Or.inr ⟨htext, fun text h => hstr ⟨text, h⟩⟩))
  · exact Or.inr (Or.inl (Or.inl hblank))
  · exact Or.inr (Or.inr (Or.inl hnone))

/-- A contract that is what it has to be passes. -/
theorem WellFormedContract.passes (h : WellFormedContract P contract_type contract_version) :
    Passes P contract_type contract_version := by
  obtain ⟨htype, text, hversion, hgroups⟩ := h
  exact ⟨Or.inl htype, text, hversion, Or.inl hgroups⟩

theorem validate_inline_passes (h : Passes P contract_type contract_version) :
    validate_inline P contract_type contract_version = .ok () := by
  obtain ⟨htext, text, rfl, hmatched⟩ := h
  unfold validate_inline
  rw [missing_type_of_hasText htext, match_version, (semver_iff text).mpr hmatched]
  rfl

theorem validate_inline_refused (h : Refused P contract_type contract_version) :
    ∃ exc, validate_inline P contract_type contract_version
      = .error (.contractValidationError exc) := by
  obtain hblank | ⟨htext, text, rfl, hmatched⟩ := h
  · unfold validate_inline
    rw [missing_type_of_blank hblank]
    exact ⟨_, rfl⟩
  · have hsemver : semver P text = false := by
      rw [← Bool.not_eq_true, semver_iff]
      exact hmatched
    unfold validate_inline
    rw [missing_type_of_hasText htext, match_version, hsemver]
    exact ⟨_, rfl⟩

theorem validate_inline_crashes (h : Crashes contract_type contract_version) :
    (∃ msg, validate_inline P contract_type contract_version = .error (.attributeError msg))
      ∨ ∃ msg, validate_inline P contract_type contract_version = .error (.typeError msg) := by
  obtain hnone | ⟨htext, hstr⟩ := h
  · obtain ⟨msg, hmissing⟩ := missing_type_of_noText hnone
    unfold validate_inline
    rw [hmissing]
    exact Or.inl ⟨msg, rfl⟩
  · unfold validate_inline
    rw [missing_type_of_hasText htext]
    cases contract_version with
    | str text => exact absurd rfl (hstr text)
    | _ => exact Or.inr ⟨_, rfl⟩

end Inline

end ContractRegistry

/-! ## The check of a flow -/

namespace FlowValidator

open ContractRegistry

/-- `node.config.get("contract_type", "")`. -/
def contract_type (node : DecisionNode) : Value :=
  (PyDict.get node.config "contract_type").getD (.str "")

/-- `node.config.get("contract_version", "")`. -/
def contract_version (node : DecisionNode) : Value :=
  (PyDict.get node.config "contract_version").getD (.str "")

/-- The contract of a node, where one is required, has the property. -/
def Contract (p : Value → Value → Prop) (node : DecisionNode) : Prop :=
  contract_required node.node_type = true → p (contract_type node) (contract_version node)

/-- One round of `_check_contract_nodes`. -/
def check_contract_node (P : Platform) (flow : DecisionFlow) (node : DecisionNode) :
    Except PyError Unit :=
  if contract_required node.node_type then
    match validate_inline P (contract_type node) (contract_version node) with
    | .error (.contractValidationError exc) =>
      .error (invalid flow ("node '" ++ node.id ++ "' (" ++ node.node_type.value
        ++ ") has invalid inline contract: " ++ exc))
    | res => res
  else .ok ()

theorem check_contract_nodes_eq (P : Platform) (flow : DecisionFlow) :
    check_contract_nodes P flow = flow.nodes.forM (check_contract_node P flow) := rfl

section Checks

variable {P : Platform} {flow : DecisionFlow} {node : DecisionNode}

theorem check_contract_node_passes (h : Contract (Passes P) node) :
    check_contract_node P flow node = .ok () := by
  unfold check_contract_node
  by_cases hrequired : contract_required node.node_type = true
  · rw [if_pos hrequired, validate_inline_passes (h hrequired)]
  · rw [if_neg hrequired]

theorem check_contract_node_refused (flow : DecisionFlow)
    (hrequired : contract_required node.node_type = true)
    (h : Refused P (contract_type node) (contract_version node)) :
    ∃ text, check_contract_node P flow node = .error (.flowValidationError text) := by
  obtain ⟨exc, hraised⟩ := validate_inline_refused h
  unfold check_contract_node
  rw [if_pos hrequired, hraised]
  exact ⟨_, rfl⟩

/-- The exceptions of a crash are not caught. -/
theorem check_contract_node_crashes (P : Platform) (flow : DecisionFlow)
    (hrequired : contract_required node.node_type = true)
    (h : Crashes (contract_type node) (contract_version node)) :
    ∃ e, check_contract_node P flow node = .error e ∧ ∀ text, e ≠ .flowValidationError text := by
  unfold check_contract_node
  rw [if_pos hrequired]
  cases validate_inline_crashes (P := P) h with
  | inl h =>
      obtain ⟨msg, hraised⟩ := h
      rw [hraised]
      exact ⟨_, rfl, by simp⟩
  | inr h =>
      obtain ⟨msg, hraised⟩ := h
      rw [hraised]
      exact ⟨_, rfl, by simp⟩

/-- A round returns exactly for what passes. -/
theorem check_contract_node_eq_ok_iff :
    check_contract_node P flow node = .ok () ↔ Contract (Passes P) node := by
  constructor
  · intro h hrequired
    obtain hpasses | hrefused | hcrashes :=
      contract_cases P (contract_type node) (contract_version node)
    · exact hpasses
    · obtain ⟨text, hraised⟩ := check_contract_node_refused flow hrequired hrefused
      rw [h] at hraised
      cases hraised
    · obtain ⟨e, hraised, -⟩ := check_contract_node_crashes P flow hrequired hcrashes
      rw [h] at hraised
      cases hraised
  · exact check_contract_node_passes

/-- A round raises a `FlowValidationError` exactly for what is refused. -/
theorem check_contract_node_invalid_iff :
    (∃ text, check_contract_node P flow node = .error (.flowValidationError text)) ↔
      contract_required node.node_type = true
        ∧ Refused P (contract_type node) (contract_version node) := by
  constructor
  · rintro ⟨text, h⟩
    by_cases hrequired : contract_required node.node_type = true
    · refine ⟨hrequired, ?_⟩
      obtain hpasses | hrefused | hcrashes :=
        contract_cases P (contract_type node) (contract_version node)
      · have hok : check_contract_node P flow node = .ok () :=
          check_contract_node_passes fun _ => hpasses
        rw [hok] at h
        cases h
      · exact hrefused
      · obtain ⟨e, hraised, hother⟩ := check_contract_node_crashes P flow hrequired hcrashes
        rw [hraised] at h
        exact absurd (Except.error.inj h) (hother text)
    · unfold check_contract_node at h
      rw [if_neg hrequired] at h
      cases h
  · rintro ⟨hrequired, hrefused⟩
    exact check_contract_node_refused flow hrequired hrefused

/-- What is refused is not what a contract has to be. -/
theorem not_wellFormed_of_refused
    (h : Refused P (contract_type node) (contract_version node)) :
    ¬WellFormedContract P (contract_type node) (contract_version node) := by
  intro hwf
  obtain ⟨exc, hraised⟩ := validate_inline_refused h
  rw [validate_inline_passes hwf.passes] at hraised
  cases hraised

end Checks

/-- The check does what it has to: it returns on flows whose contracts are what they have to be, and
raises a `FlowValidationError` on the others. -/
def ChecksContracts (P : Platform) (flow : DecisionFlow) : Prop :=
  ((∀ node ∈ flow.nodes, Contract (WellFormedContract P) node) →
    check_contract_nodes P flow = .ok ()) ∧
  ((¬∀ node ∈ flow.nodes, Contract (WellFormedContract P) node) →
    ∃ text, check_contract_nodes P flow = .error (.flowValidationError text))

/-- **Contract checks.** The check does on a flow what it has to exactly when all contracts are what
they have to be, or the first one that does not pass is refused. -/
theorem contract_checks_iff (P : Platform) (flow : DecisionFlow) :
    ChecksContracts P flow ↔
      (∀ node ∈ flow.nodes, Contract (WellFormedContract P) node) ∨
      ∃ pre node post, flow.nodes = pre ++ node :: post
        ∧ (∀ n ∈ pre, Contract (Passes P) n) ∧ contract_required node.node_type = true
        ∧ Refused P (contract_type node) (contract_version node) := by
  unfold ChecksContracts
  rw [check_contract_nodes_eq]
  constructor
  · rintro ⟨-, hinvalid⟩
    by_cases hall : ∀ node ∈ flow.nodes, Contract (WellFormedContract P) node
    · exact Or.inl hall
    · -- the error comes from the first node that does not pass
      obtain ⟨text, hraised⟩ := hinvalid hall
      obtain ⟨pre, node, post, hnodes, hpre, hnode⟩ := except_forM_eq_error.mp hraised
      obtain ⟨hrequired, hrefused⟩ := check_contract_node_invalid_iff.mp ⟨text, hnode⟩
      exact Or.inr ⟨pre, node, post, hnodes,
        fun n hn => check_contract_node_eq_ok_iff.mp (hpre n hn), hrequired, hrefused⟩
  · rintro (hall | ⟨pre, node, post, hnodes, hpre, hrequired, hrefused⟩)
    · refine ⟨?_, fun hnot => absurd hall hnot⟩
      intro _
      rw [except_forM_eq_ok]
      exact fun n hn => check_contract_node_passes fun hrequired => (hall n hn hrequired).passes
    · have hbad : ¬∀ node ∈ flow.nodes, Contract (WellFormedContract P) node := by
        intro hall
        exact not_wellFormed_of_refused hrefused (hall node (by simp [hnodes]) hrequired)
      obtain ⟨text, hraised⟩ := check_contract_node_refused flow hrequired hrefused
      refine ⟨fun hall => absurd hall hbad, fun _ => ⟨text, ?_⟩⟩
      exact except_forM_eq_error.mpr ⟨pre, node, post, hnodes,
        fun n hn => check_contract_node_eq_ok_iff.mpr (hpre n hn), hraised⟩

end FlowValidator

namespace Recorded

/-- A platform whose texts are in ASCII. -/
def ascii : Platform where
  ast_parse := fun _ => .error ""
  uuid5 := fun namespace_id _ => namespace_id
  sha256_hexdigest := fun text => text
  float := fun _ => none
  repr := fun text => text
  isalnum := fun _ => false
  decimal := fun _ => none

/-- A flow whose contract type is a number. -/
def numbered : DecisionFlow where
  id := UUID.ofInt 1
  flow_id := "numbered"
  version := "1.0.0"
  entry_node_id := "d"
  nodes :=
    [{ id := "d"
       node_type := .decision
       config := [("contract_type", .int 5), ("contract_version", .str "1.0.0")] }]

end Recorded

namespace FlowValidator

/-- A number has no `strip`: the check raises, and not what it has to. -/
theorem contract_checks_number :
    check_contract_nodes Recorded.ascii Recorded.numbered
        = .error (.attributeError "'int' object has no attribute 'strip'")
      ∧ ¬ChecksContracts Recorded.ascii Recorded.numbered := by
  have hraised : check_contract_nodes Recorded.ascii Recorded.numbered
      = .error (.attributeError "'int' object has no attribute 'strip'") := by decide +kernel
  refine ⟨hraised, ?_⟩
  intro h
  by_cases hall : ∀ node ∈ Recorded.numbered.nodes,
      Contract (ContractRegistry.WellFormedContract Recorded.ascii) node
  · have hreturned := h.1 hall
    rw [hraised] at hreturned
    cases hreturned
  · obtain ⟨text, hinvalid⟩ := h.2 hall
    rw [hraised] at hinvalid
    cases hinvalid

end FlowValidator

end DecisionRuntime
