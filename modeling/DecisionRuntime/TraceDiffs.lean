/-
`POST /compare`: the field-level differences of two traces.

`_compute_trace_diffs` compares by Python equality, and what a trace lacks -- a
result, an action, a node -- counts as `None`. Inside two actions the keys are
compared one by one, and there a missing key counts as `None` as well: actions
that differ only in that have no difference listed (`compare_complete_iff`). The
list is the same from both sides, with base and target exchanged
(`compare_swap`).
-/
import DecisionRuntime.Exec
import DecisionRuntime.Models
import DecisionRuntime.StableOrder
import DecisionRuntime.Stores
import DecisionRuntime.ValueEquality

set_option autoImplicit false

namespace DecisionRuntime

/-! ## The comparison -/

/-- `TraceDiff`. -/
structure TraceDiff where
  path : String
  base : Value
  target : Value

/-- The difference seen from the other side. -/
def TraceDiff.swap (d : TraceDiff) : TraceDiff := ⟨d.path, d.target, d.base⟩

namespace TraceDiffs

/-- `_diff`. -/
def diff (path : String) (b t : Value) : List TraceDiff := if b.pyEq t then [] else [⟨path, b, t⟩]

/-- `r.field if r else None`. -/
def of_result {α : Type} (f : α → Value) (r : Option α) : Value := (r.map f).getD .none

/-- The differences of two results in a field that both may lack. -/
def result_diff {α : Type} (path : String) (f : α → Value) (base target : Option α) :
    List TraceDiff := diff path (of_result f base) (of_result f target)

/-- `base_r.action if base_r else None`. -/
def action (r : Option DecisionResult) : Option PyDict := r.bind (·.action)

/-- The differences of the actions: as a whole when one is missing, else key by key. -/
def action_diffs (base target : Option PyDict) : List TraceDiff :=
  if (of_result .dict base).pyEq (of_result .dict target) then []
  else
    match base, target with
    | some base_action, some target_action =>
      (sorted_set (base_action.map Prod.fst ++ target_action.map Prod.fst)).flatMap fun key =>
        diff ("decision.action." ++ key) (base_action.get_or_none key)
          (target_action.get_or_none key)
    | _, _ => [⟨"decision.action", of_result .dict base, of_result .dict target⟩]

/-- `base_r.boundary_results if base_r else []`. -/
def boundary_results (r : Option DecisionResult) : List BoundaryResult :=
  (r.map (·.boundary_results)).getD []

/-- The ids of the boundaries that triggered. -/
def triggered_ids (brs : List BoundaryResult) : List String :=
  (brs.filter (·.triggered)).map (·.boundary_id)

/-- The differences of the boundary results. -/
def boundary_diffs (base target : List BoundaryResult) : List TraceDiff :=
  diff "boundary.count" (.int base.length) (.int target.length)
    ++ diff "boundary.triggered_ids" (.list ((sorted (triggered_ids base)).map .str))
      (.list ((sorted (triggered_ids target)).map .str))

/-- `base_r.human_gate if base_r else None`. -/
def human_gate (r : Option DecisionResult) : Option HumanGateRequest := r.bind (·.human_gate)

/-- The differences of the gates. -/
def gate_diffs (base target : Option HumanGateRequest) : List TraceDiff :=
  diff "human_gate.present" (.bool base.isSome) (.bool target.isSome)
    ++ match base, target with
      | some base_gate, some target_gate =>
        diff "human_gate.status" (.str base_gate.status.value) (.str target_gate.status.value)
      | _, _ => []

/-- `n["node_id"]`. The ids of nodes are strings. -/
def node_key (n : PyDict) : Except PyError String :=
  match n.get "node_id" with
  | some (.str node_id) => .ok node_id
  | some _ => .error (.typeError "node_id")
  | none => .error (.keyError "node_id")

/-- `{n["node_id"]: n for n in nodes}`: of two records of one node the last one stays. -/
def node_map (nodes : List PyDict) : Except PyError (Dict String PyDict) :=
  nodes.foldlM (fun map n => (node_key n).map fun node_id => map.set node_id n) Dict.empty

/-- The difference of the records of one node. -/
def node_diff (node_id : String) (b_node t_node : Option PyDict) : List TraceDiff :=
  match b_node, t_node with
  | none, _ => [⟨"trace.node." ++ node_id ++ ".present", .bool false, .bool true⟩]
  | some _, none => [⟨"trace.node." ++ node_id ++ ".present", .bool true, .bool false⟩]
  | some b, some t =>
    diff ("trace.node." ++ node_id ++ ".matched") (b.get_or_none "matched")
      (t.get_or_none "matched")

/-- The differences of the records of all nodes. -/
def node_diffs (base_node_map target_node_map : Dict String PyDict) : List TraceDiff :=
  (sorted_set (base_node_map.keys ++ target_node_map.keys)).flatMap fun node_id =>
    node_diff node_id (base_node_map.get node_id) (target_node_map.get node_id)

/-- The differences outside of the action and the nodes. -/
def field_diffs (base_r target_r : Option DecisionResult) : List TraceDiff :=
  result_diff "decision.status" (fun r => .str r.status.value) base_r target_r
    ++ result_diff "decision.outcome" (fun r => .str r.outcome.value) base_r target_r
    ++ result_diff "decision.selected_node_id" (fun r => .str r.selected_node_id) base_r target_r
    ++ result_diff "decision.confidence" (fun r => r.confidence.toValue) base_r target_r

/-- `_compute_trace_diffs`. -/
def compute_trace_diffs (base target : DecisionTrace) : Except PyError (List TraceDiff) := do
  let base_r := base.decision_results.head?
  let target_r := target.decision_results.head?
  let diffs := field_diffs base_r target_r
    ++ action_diffs (action base_r) (action target_r)
    ++ boundary_diffs (boundary_results base_r) (boundary_results target_r)
    ++ gate_diffs (human_gate base_r) (human_gate target_r)
    ++ diff "trace.state" (.str base.state.value) (.str target.state.value)
  let base_node_map ← node_map base.evaluated_nodes
  let target_node_map ← node_map target.evaluated_nodes
  return diffs ++ node_diffs base_node_map target_node_map

/-! ## Records by node id -/

/-- The node id of a record. -/
def record_id (n : PyDict) : String :=
  match n.get "node_id" with
  | some (.str node_id) => node_id
  | _ => ""

/-- Every record has the id of a node. -/
def HaveIds (nodes : List PyDict) : Prop := ∀ n ∈ nodes, n.get "node_id" = some (.str (record_id n))

theorem node_key_of_haveIds {nodes : List PyDict} (h : HaveIds nodes) {n : PyDict}
    (hn : n ∈ nodes) : node_key n = .ok (record_id n) := by
  rw [node_key, h n hn]

theorem node_map_eq {nodes : List PyDict} (h : HaveIds nodes) :
    node_map nodes = .ok (Dict.index record_id nodes) := by
  unfold node_map
  induction nodes using List.reverseRecOn with
  | nil => rfl
  | append_singleton nodes n ih =>
      have hnodes : HaveIds nodes := fun m hm => h m (by simp [hm])
      rw [List.foldlM_append, ih hnodes, Dict.index_append]
      simp only [List.foldlM_cons, List.foldlM_nil, except_ok_bind,
        node_key_of_haveIds h (by simp : n ∈ nodes ++ [n])]
      rfl

/-! ## When there is no difference -/

theorem diff_eq_nil_iff {path : String} {b t : Value} :
    diff path b t = [] ↔ b.pyEq t = true := by
  unfold diff
  by_cases h : b.pyEq t = true
  · simp [h]
  · simp [h]

/-- Results that both have the field, or both lack it, and show the same there. -/
theorem result_diff_eq_nil_iff {α β : Type} (path : String) {f : α → Value} {g : α → β}
    (hf : ∀ x y, (f x).pyEq (f y) = true ↔ g x = g y)
    (hnone : ∀ x, (f x).pyEq .none = false ∧ Value.none.pyEq (f x) = false)
    (base target : Option α) :
    result_diff path f base target = [] ↔ base.map g = target.map g := by
  rw [result_diff, diff_eq_nil_iff, of_result, of_result]
  cases base with
  | none =>
      cases target with
      | none => simp [Value.pyEq]
      | some y => simp [(hnone y).2]
  | some x =>
      cases target with
      | none => simp [(hnone x).1]
      | some y => simpa using hf x y

/-- A field whose texts tell its values apart. -/
theorem text_diff_eq_nil_iff {α β : Type} (path : String) (g : α → β) {text : β → String}
    (htext : Function.Injective text) (base target : Option α) :
    result_diff path (fun x => .str (text (g x))) base target = [] ↔ base.map g = target.map g := by
  apply result_diff_eq_nil_iff path
  · intro x y
    rw [Value.pyEq, decide_eq_true_iff, htext.eq_iff]
  · intro x
    exact ⟨rfl, rfl⟩

theorem injective_of_ofValue {β : Type} {value : β → String} {ofValue : String → Option β}
    (h : ∀ b, ofValue (value b) = some b) : Function.Injective value := by
  intro b c hbc
  apply Option.some.inj
  rw [← h b, ← h c, hbc]

theorem gate_status_injective : Function.Injective HumanGateStatus.value := by
  intro a b h
  cases a <;> cases b <;> first | rfl | exact absurd h (by decide)

theorem state_injective : Function.Injective RuntimeState.value := by
  intro a b h
  cases a <;> cases b <;> first | rfl | exact absurd h (by decide)

theorem confidence_pyEq_iff (x y : Confidence) : x.toValue.pyEq y.toValue = true ↔ x = y := by
  cases x
  cases y
  simp [Confidence.toValue, Value.pyEq, Value.number]

/-- The fields of the results agree. -/
theorem field_diffs_eq_nil_iff (base target : Option DecisionResult) :
    field_diffs base target = [] ↔
      base.map (·.status) = target.map (·.status) ∧ base.map (·.outcome) = target.map (·.outcome)
        ∧ base.map (·.selected_node_id) = target.map (·.selected_node_id)
        ∧ base.map (·.confidence) = target.map (·.confidence) := by
  have hconfidence := result_diff_eq_nil_iff "decision.confidence"
    (f := fun r : DecisionResult => r.confidence.toValue)
    (fun x y => confidence_pyEq_iff x.confidence y.confidence) (fun _ => ⟨rfl, rfl⟩) base target
  have hselected := text_diff_eq_nil_iff "decision.selected_node_id"
    (fun r : DecisionResult => r.selected_node_id) Function.injective_id base target
  have hstatus := text_diff_eq_nil_iff "decision.status"
    (fun r : DecisionResult => r.status)
    (injective_of_ofValue DecisionStatus.ofValue_value) base target
  have houtcome := text_diff_eq_nil_iff "decision.outcome"
    (fun r : DecisionResult => r.outcome)
    (injective_of_ofValue DecisionOutcome.ofValue_value) base target
  simp only [id_eq] at hselected
  rw [field_diffs, List.append_eq_nil_iff, List.append_eq_nil_iff, List.append_eq_nil_iff, hstatus,
    houtcome, hselected, hconfidence, and_assoc, and_assoc]

theorem strs_pyEq_iff (xs ys : List String) :
    (Value.list (xs.map .str)).pyEq (.list (ys.map .str)) = true ↔ xs = ys := by
  rw [Value.pyEq]
  induction xs generalizing ys with
  | nil => cases ys <;> simp [Value.listEq]
  | cons x xs ih =>
      cases ys with
      | nil => simp [Value.listEq]
      | cons y ys => simp [Value.listEq, Value.pyEq, ih]

/-- There are as many boundary results, and the same triggered. -/
theorem boundary_diffs_eq_nil_iff (base target : List BoundaryResult) :
    boundary_diffs base target = [] ↔
      base.length = target.length ∧ (triggered_ids base).Perm (triggered_ids target) := by
  rw [boundary_diffs, List.append_eq_nil_iff, diff_eq_nil_iff, diff_eq_nil_iff, strs_pyEq_iff,
    sorted_eq_iff]
  simp [Value.pyEq, Value.number]

/-- The gates are both there with one status, or both missing. -/
theorem gate_diffs_eq_nil_iff (base target : Option HumanGateRequest) :
    gate_diffs base target = [] ↔ base.map (·.status) = target.map (·.status) := by
  unfold gate_diffs
  cases base with
  | none => cases target <;> simp [diff, Value.pyEq, Value.number]
  | some b =>
      cases target with
      | none => simp [diff, Value.pyEq, Value.number]
      | some t =>
          simp [diff_eq_nil_iff, Value.pyEq, Value.number, gate_status_injective.eq_iff]

/-! ### Actions -/

/-- Two actions that agree wherever a missing key counts as `None`, and do not have the same
keys. -/
def NullOrMissing (base target : Option PyDict) : Prop :=
  ∃ b t, base = some b ∧ target = some t
    ∧ (∀ key, (b.get_or_none key).pyEq (t.get_or_none key) = true)
    ∧ ∃ key, ¬(key ∈ b.map Prod.fst ↔ key ∈ t.map Prod.fst)

/-- Dictionaries are equal when they have the same keys, and equal values where a missing key
counts as `None`. -/
theorem dict_eq_iff_keys {b t : PyDict} (hb : (b.map Prod.fst).Nodup)
    (ht : (t.map Prod.fst).Nodup) :
    (Value.dict b).pyEq (.dict t) = true ↔
      (∀ key, (b.get_or_none key).pyEq (t.get_or_none key) = true)
        ∧ ∀ key, key ∈ b.map Prod.fst ↔ key ∈ t.map Prod.fst := by
  rw [Value.dict_eq_iff hb ht, ← forall_and]
  apply forall_congr'
  intro key
  have hmem := fun d : PyDict => not_congr (PyDict.get_eq_none_iff (d := d) (k := key))
  simp only [not_not] at hmem
  rw [← hmem b, ← hmem t, PyDict.get_or_none, PyDict.get_or_none]
  have hnone : Value.none.pyEq .none = true := rfl
  cases b.get key <;> cases t.get key <;> simp [hnone]

theorem action_keys_eq_nil_iff (b t : PyDict) :
    ((sorted_set (b.map Prod.fst ++ t.map Prod.fst)).flatMap fun key =>
      diff ("decision.action." ++ key) (b.get_or_none key) (t.get_or_none key)) = [] ↔
      ∀ key, (b.get_or_none key).pyEq (t.get_or_none key) = true := by
  simp only [List.flatMap_eq_nil_iff, diff_eq_nil_iff, mem_sorted_set, List.mem_append]
  constructor
  · intro h key
    by_cases hkey : key ∈ b.map Prod.fst ∨ key ∈ t.map Prod.fst
    · exact h key hkey
    · -- neither action has the key
      rw [not_or, ← PyDict.get_eq_none_iff, ← PyDict.get_eq_none_iff] at hkey
      rw [PyDict.get_or_none, PyDict.get_or_none, hkey.1, hkey.2]
      rfl
  · intro h key _
    exact h key

/-- No difference is listed for equal actions, and for those that differ in a missing `None`. -/
theorem action_diffs_eq_nil_iff {base target : Option PyDict}
    (hbase : ∀ d, base = some d → (d.map Prod.fst).Nodup)
    (htarget : ∀ d, target = some d → (d.map Prod.fst).Nodup) :
    action_diffs base target = [] ↔
      (of_result .dict base).pyEq (of_result .dict target) = true
        ∨ NullOrMissing base target := by
  unfold action_diffs
  by_cases heq : (of_result .dict base).pyEq (of_result .dict target) = true
  · simp [heq]
  · rw [if_neg heq, or_iff_right heq]
    cases base with
    | none => cases target <;> simp [NullOrMissing]
    | some b =>
        cases target with
        | none => simp [NullOrMissing]
        | some t =>
            -- not equal, but equal key by key: the keys are not the same
            have hkeys := dict_eq_iff_keys (hbase b rfl) (htarget t rfl)
            have hdiffer : ¬ (Value.dict b).pyEq (.dict t) = true := heq
            rw [hkeys, not_and, not_forall] at hdiffer
            show (sorted_set (b.map Prod.fst ++ t.map Prod.fst)).flatMap _ = [] ↔ _
            rw [action_keys_eq_nil_iff]
            constructor
            · intro h
              exact ⟨b, t, rfl, rfl, h, hdiffer h⟩
            · rintro ⟨b', t', hb, ht, h, -⟩
              rw [Option.some.inj hb, Option.some.inj ht]
              exact h

/-- Actions that differ in a missing `None` are not equal. -/
theorem not_pyEq_of_nullOrMissing {base target : Option PyDict}
    (hbase : ∀ d, base = some d → (d.map Prod.fst).Nodup)
    (htarget : ∀ d, target = some d → (d.map Prod.fst).Nodup) (h : NullOrMissing base target) :
    ¬ (of_result .dict base).pyEq (of_result .dict target) = true := by
  obtain ⟨b, t, rfl, rfl, -, key, hkey⟩ := h
  intro heq
  exact hkey (((dict_eq_iff_keys (hbase b rfl) (htarget t rfl)).mp heq).2 key)

/-! ### Nodes -/

/-- The records agree on one node when both or neither have it, with equal flags. -/
theorem node_diff_eq_nil_iff {node_id : String} {b_node t_node : Option PyDict}
    (hsome : b_node.isSome = true ∨ t_node.isSome = true) :
    node_diff node_id b_node t_node = [] ↔ ∃ b t, b_node = some b ∧ t_node = some t
      ∧ (b.get_or_none "matched").pyEq (t.get_or_none "matched") = true := by
  unfold node_diff
  cases b_node with
  | none => simp
  | some b =>
      cases t_node with
      | none => simp
      | some t => simp [diff_eq_nil_iff]

/-- A node of one of the two maps has a record there. -/
theorem isSome_of_mem_keys {base_node_map target_node_map : Dict String PyDict} {node_id : String}
    (h : node_id ∈ base_node_map.keys ∨ node_id ∈ target_node_map.keys) :
    (base_node_map.get node_id).isSome = true ∨ (target_node_map.get node_id).isSome = true := by
  have hsome : ∀ {map : Dict String PyDict}, node_id ∈ map.keys →
      (map.get node_id).isSome = true := by
    intro map hmem
    obtain ⟨n, hn⟩ := Dict.exists_get_of_mem_keys hmem
    rw [hn, Option.isSome_some]
  exact h.imp hsome hsome

/-- The two lists of records have the same nodes, with equal flags. -/
theorem node_diffs_eq_nil_iff {base target : List PyDict} (hbase : (base.map record_id).Nodup)
    (htarget : (target.map record_id).Nodup) :
    node_diffs (Dict.index record_id base) (Dict.index record_id target) = [] ↔
      (∀ node_id, node_id ∈ base.map record_id ↔ node_id ∈ target.map record_id)
        ∧ ∀ b ∈ base, ∀ t ∈ target, record_id b = record_id t →
          (b.get_or_none "matched").pyEq (t.get_or_none "matched") = true := by
  unfold node_diffs
  simp only [List.flatMap_eq_nil_iff, mem_sorted_set, List.mem_append, Dict.mem_keys_index]
  constructor
  · intro h
    have hboth : ∀ node_id, node_id ∈ base.map record_id ∨ node_id ∈ target.map record_id →
        ∃ b t, (b ∈ base ∧ record_id b = node_id) ∧ (t ∈ target ∧ record_id t = node_id)
          ∧ (b.get_or_none "matched").pyEq (t.get_or_none "matched") = true := by
      intro node_id hmem
      have hkeys : node_id ∈ (Dict.index record_id base).keys
          ∨ node_id ∈ (Dict.index record_id target).keys := by
        rw [Dict.mem_keys_index, Dict.mem_keys_index]
        exact hmem
      obtain ⟨b, t, hb, ht, hmatched⟩ :=
        (node_diff_eq_nil_iff (isSome_of_mem_keys hkeys)).mp (h node_id hmem)
      exact ⟨b, t, (Dict.get_index_iff hbase).mp hb, (Dict.get_index_iff htarget).mp ht, hmatched⟩
    constructor
    · intro node_id
      constructor
      · intro hmem
        obtain ⟨-, t, -, ht, -⟩ := hboth node_id (Or.inl hmem)
        exact List.mem_map.mpr ⟨t, ht⟩
      · intro hmem
        obtain ⟨b, -, hb, -⟩ := hboth node_id (Or.inr hmem)
        exact List.mem_map.mpr ⟨b, hb⟩
    · intro b hb t ht hid
      obtain ⟨b', t', hb', ht', hmatched⟩ :=
        hboth (record_id b) (Or.inl (List.mem_map_of_mem hb))
      -- ids are unique, so these are the records at hand
      rw [List.inj_on_of_nodup_map hbase hb hb'.1 hb'.2.symm,
        List.inj_on_of_nodup_map htarget ht ht'.1 (hid.symm.trans ht'.2.symm)]
      exact hmatched
  · rintro ⟨hids, hmatched⟩ node_id hmem
    -- a node of one list is one of both, so it is not `present` that can differ
    have hin : node_id ∈ base.map record_id ∧ node_id ∈ target.map record_id := by
      rw [← hids, or_self] at hmem
      exact ⟨hmem, (hids node_id).mp hmem⟩
    obtain ⟨b, hb, hbid⟩ := List.mem_map.mp hin.1
    obtain ⟨t, ht, htid⟩ := List.mem_map.mp hin.2
    rw [(Dict.get_index_iff hbase).mpr ⟨hb, hbid⟩, (Dict.get_index_iff htarget).mpr ⟨ht, htid⟩]
    exact diff_eq_nil_iff.mpr (hmatched b hb t ht (hbid.trans htid.symm))

/-! ## Completeness -/

/-- The result that the comparison looks at. -/
def primary (trace : DecisionTrace) : Option DecisionResult := trace.decision_results.head?

/-- The records of a trace have node ids, and they and its action are dictionaries. -/
structure WellKeyed (trace : DecisionTrace) : Prop where
  ids : HaveIds trace.evaluated_nodes
  records : ∀ n ∈ trace.evaluated_nodes, (Value.dict n).WellFormed
  action : ∀ d, action (primary trace) = some d → (Value.dict d).WellFormed

/-- No node is recorded twice. -/
def UniqueNodes (trace : DecisionTrace) : Prop := (trace.evaluated_nodes.map record_id).Nodup

/-- Two traces agree on everything that is compared but the action. -/
structure AgreeElsewhere (base target : DecisionTrace) : Prop where
  status : (primary base).map (·.status) = (primary target).map (·.status)
  outcome : (primary base).map (·.outcome) = (primary target).map (·.outcome)
  selected_node_id :
    (primary base).map (·.selected_node_id) = (primary target).map (·.selected_node_id)
  confidence : (primary base).map (·.confidence) = (primary target).map (·.confidence)
  boundary_count :
    (boundary_results (primary base)).length = (boundary_results (primary target)).length
  triggered : (triggered_ids (boundary_results (primary base))).Perm
    (triggered_ids (boundary_results (primary target)))
  gate : (human_gate (primary base)).map (·.status) = (human_gate (primary target)).map (·.status)
  state : base.state = target.state
  node_ids : ∀ node_id, node_id ∈ base.evaluated_nodes.map record_id
    ↔ node_id ∈ target.evaluated_nodes.map record_id
  matched : ∀ b ∈ base.evaluated_nodes, ∀ t ∈ target.evaluated_nodes,
    record_id b = record_id t → (b.get_or_none "matched").pyEq (t.get_or_none "matched") = true

/-- Two traces agree on everything that is compared; the actions are equal as dictionaries, or both
missing. -/
def Agree (base target : DecisionTrace) : Prop :=
  AgreeElsewhere base target
    ∧ (of_result .dict (action (primary base))).pyEq (of_result .dict (action (primary target)))
      = true

/-- The differences of two traces, when it is known which node each record is of. -/
def all_diffs (base target : DecisionTrace) : List TraceDiff :=
  field_diffs (primary base) (primary target)
    ++ action_diffs (action (primary base)) (action (primary target))
    ++ boundary_diffs (boundary_results (primary base)) (boundary_results (primary target))
    ++ gate_diffs (human_gate (primary base)) (human_gate (primary target))
    ++ diff "trace.state" (.str base.state.value) (.str target.state.value)
    ++ node_diffs (Dict.index record_id base.evaluated_nodes)
      (Dict.index record_id target.evaluated_nodes)

/-- Traces whose records have node ids can be compared. -/
theorem compute_trace_diffs_eq {base target : DecisionTrace} (hbase : HaveIds base.evaluated_nodes)
    (htarget : HaveIds target.evaluated_nodes) :
    compute_trace_diffs base target = .ok (all_diffs base target) := by
  rw [compute_trace_diffs, node_map_eq hbase, node_map_eq htarget]
  rfl

section Complete

variable {base target : DecisionTrace}

theorem state_diff_eq_nil_iff (a b : RuntimeState) :
    diff "trace.state" (.str a.value) (.str b.value) = [] ↔ a = b := by
  rw [diff_eq_nil_iff, Value.pyEq, decide_eq_true_iff, state_injective.eq_iff]

/-- The traces agree outside of the action when nothing but the action differs. -/
theorem agreeElsewhere_iff (hbase : UniqueNodes base) (htarget : UniqueNodes target) :
    AgreeElsewhere base target ↔
      field_diffs (primary base) (primary target) = []
        ∧ boundary_diffs (boundary_results (primary base)) (boundary_results (primary target)) = []
        ∧ gate_diffs (human_gate (primary base)) (human_gate (primary target)) = []
        ∧ diff "trace.state" (.str base.state.value) (.str target.state.value) = []
        ∧ node_diffs (Dict.index record_id base.evaluated_nodes)
          (Dict.index record_id target.evaluated_nodes) = [] := by
  rw [field_diffs_eq_nil_iff, boundary_diffs_eq_nil_iff, gate_diffs_eq_nil_iff,
    state_diff_eq_nil_iff, node_diffs_eq_nil_iff hbase htarget]
  constructor
  · intro h
    exact ⟨⟨h.status, h.outcome, h.selected_node_id, h.confidence⟩,
      ⟨h.boundary_count, h.triggered⟩, h.gate, h.state, h.node_ids, h.matched⟩
  · rintro ⟨⟨hstatus, houtcome, hselected, hconfidence⟩, ⟨hcount, htriggered⟩, hgate, hstate, hids,
      hmatched⟩
    exact ⟨hstatus, houtcome, hselected, hconfidence, hcount, htriggered, hgate, hstate, hids,
      hmatched⟩

theorem all_diffs_eq_nil_iff (hbase : WellKeyed base) (htarget : WellKeyed target)
    (hub : UniqueNodes base) (hut : UniqueNodes target) :
    all_diffs base target = [] ↔ Agree base target
      ∨ AgreeElsewhere base target
        ∧ NullOrMissing (action (primary base)) (action (primary target)) := by
  unfold Agree
  rw [← and_or_left, ← action_diffs_eq_nil_iff (fun d hd => (hbase.action d hd).1)
    (fun d hd => (htarget.action d hd).1), agreeElsewhere_iff hub hut, all_diffs]
  simp only [List.append_eq_nil_iff]
  tauto

/-- **Comparing traces.** An empty list of differences says that two traces agree, and agreeing
traces have no difference listed, exactly when it is not the case that their actions, and nothing
else, differ in a key that is null in one of them and missing in the other. -/
theorem compare_complete_iff (hbase : WellKeyed base) (htarget : WellKeyed target)
    (hub : UniqueNodes base) (hut : UniqueNodes target) :
    (compute_trace_diffs base target = .ok [] ↔ Agree base target) ↔
      ¬(AgreeElsewhere base target
        ∧ NullOrMissing (action (primary base)) (action (primary target))) := by
  have hdiffer : NullOrMissing (action (primary base)) (action (primary target)) →
      ¬Agree base target := fun h hagree =>
    not_pyEq_of_nullOrMissing (fun d hd => (hbase.action d hd).1)
      (fun d hd => (htarget.action d hd).1) h hagree.2
  rw [compute_trace_diffs_eq hbase.ids htarget.ids, Except.ok.injEq,
    all_diffs_eq_nil_iff hbase htarget hub hut]
  tauto

end Complete

end TraceDiffs

namespace Recorded

/-- A result with an action. -/
def acted_result (action : PyDict) : DecisionResult where
  id := UUID.ofInt 1
  trace_id := UUID.ofInt 2
  flow_id := UUID.ofInt 3
  flow_version := "1.0.0"
  selected_node_id := "n"
  source_signal_id := UUID.ofInt 4
  state := .confirmed
  status := .confirmed
  outcome := .pass
  confidence := .certain
  action := some action
  evaluated_at := ⟨0, some 0⟩
  created_at := ⟨0, some 0⟩
  updated_at := ⟨0, some 0⟩

/-- A trace of that result, with the record of one node. -/
def acted (action : PyDict) (matched : Bool) : DecisionTrace where
  id := UUID.ofInt 2
  flow_id := UUID.ofInt 3
  flow_version := "1.0.0"
  state := .completed
  decision_id := none
  signal_id := none
  started_at := ⟨0, some 0⟩
  completed_at := none
  evaluated_nodes := [[("node_id", .str "n"), ("matched", .bool matched)]]
  decision_results := [acted_result action]

theorem acted_wellKeyed {action : PyDict} (h : (Value.dict action).WellFormed) (matched : Bool) :
    TraceDiffs.WellKeyed (acted action matched) := by
  refine ⟨?_, ?_, ?_⟩
  · intro n hn
    rw [List.mem_singleton.mp hn]
    rfl
  · intro n hn
    rw [List.mem_singleton.mp hn]
    exact ⟨by simp, trivial, trivial, trivial⟩
  · intro d hd
    rw [← Option.some.inj hd]
    exact h

theorem acted_unique (action : PyDict) (matched : Bool) :
    TraceDiffs.UniqueNodes (acted action matched) :=
  List.nodup_singleton _

/-- An action with one key. -/
theorem one_key_wellFormed (key : String) (v : Value) (h : v.WellFormed) :
    (Value.dict [(key, v)]).WellFormed :=
  ⟨List.nodup_singleton key, h, trivial⟩

end Recorded

namespace TraceDiffs

/-- An action with a null key, and one without the key. -/
theorem compare_null_key :
    WellKeyed (Recorded.acted [("a", .none)] true) ∧ WellKeyed (Recorded.acted [] true)
      ∧ UniqueNodes (Recorded.acted [("a", .none)] true) ∧ UniqueNodes (Recorded.acted [] true)
      ∧ compute_trace_diffs (Recorded.acted [("a", .none)] true) (Recorded.acted [] true) = .ok []
      ∧ ¬ Agree (Recorded.acted [("a", .none)] true) (Recorded.acted [] true) := by
  have hnull := Recorded.one_key_wellFormed "a" .none trivial
  have hempty : (Value.dict []).WellFormed := ⟨List.nodup_nil, trivial⟩
  refine ⟨Recorded.acted_wellKeyed hnull true, Recorded.acted_wellKeyed hempty true,
    Recorded.acted_unique _ true, Recorded.acted_unique _ true, rfl, ?_⟩
  intro h
  exact absurd h.2 (by decide)

/-- Two actions that differ in a key that both have: they do not agree, and a difference is
listed. -/
theorem compare_complete_key :
    compute_trace_diffs (Recorded.acted [("a", .int 1)] true) (Recorded.acted [("a", .int 2)] true)
        ≠ .ok []
      ∧ ¬ Agree (Recorded.acted [("a", .int 1)] true) (Recorded.acted [("a", .int 2)] true) := by
  have hdiffer : ¬ Agree (Recorded.acted [("a", .int 1)] true)
      (Recorded.acted [("a", .int 2)] true) := by
    intro h
    exact absurd h.2 (by decide)
  have hiff := (compare_complete_iff
    (Recorded.acted_wellKeyed (Recorded.one_key_wellFormed "a" (.int 1) trivial) true)
    (Recorded.acted_wellKeyed (Recorded.one_key_wellFormed "a" (.int 2) trivial) true)
    (Recorded.acted_unique _ true) (Recorded.acted_unique _ true)).mpr ?_
  · exact ⟨fun hnone => hdiffer (hiff.mp hnone), hdiffer⟩
  · -- the key is there, and not null, on both sides
    rintro ⟨-, b, t, hb, ht, hsame, -⟩
    rw [← Option.some.inj hb, ← Option.some.inj ht] at hsame
    exact absurd (hsame "a") (by decide)

/-! ## Symmetry -/

/-- Equal or not, from both sides. -/
theorem diff_swap (path : String) {b t : Value} (hb : b.WellFormed) (ht : t.WellFormed) :
    diff path t b = (diff path b t).map TraceDiff.swap := by
  rw [diff, diff, Value.pyEq_comm t b ht hb]
  by_cases h : b.pyEq t = true
  · simp [h]
  · simp [h, TraceDiff.swap]

theorem of_result_wellFormed {α : Type} {f : α → Value} {r : Option α}
    (h : ∀ x, r = some x → (f x).WellFormed) : (of_result f r).WellFormed := by
  cases r with
  | none => exact trivial
  | some x => exact h x rfl

theorem field_diffs_swap (base target : Option DecisionResult) :
    field_diffs target base = (field_diffs base target).map TraceDiff.swap := by
  have hswap : ∀ (path : String) (f : DecisionResult → Value), (∀ x, (f x).WellFormed) →
      result_diff path f target base = (result_diff path f base target).map TraceDiff.swap := by
    intro path f hf
    exact diff_swap path (of_result_wellFormed fun x _ => hf x)
      (of_result_wellFormed fun x _ => hf x)
  have hstatus := hswap "decision.status" (fun r => .str r.status.value) (fun _ => trivial)
  have houtcome := hswap "decision.outcome" (fun r => .str r.outcome.value) (fun _ => trivial)
  have hselected :=
    hswap "decision.selected_node_id" (fun r => .str r.selected_node_id) (fun _ => trivial)
  have hconfidence :=
    hswap "decision.confidence" (fun r => r.confidence.toValue) (fun _ => trivial)
  rw [field_diffs, field_diffs, hstatus, houtcome, hselected, hconfidence, List.map_append,
    List.map_append, List.map_append]

/-- The values of a well-formed dictionary are well formed, and so is `None`. -/
theorem get_or_none_wellFormed {d : PyDict} (h : (Value.dict d).WellFormed) (key : String) :
    (d.get_or_none key).WellFormed := by
  rw [PyDict.get_or_none]
  cases hget : d.get key with
  | none => exact trivial
  | some v => exact h.2.of_mem (PyDict.mem_of_get hget)

theorem action_diffs_swap {base target : Option PyDict}
    (hbase : ∀ d, base = some d → (Value.dict d).WellFormed)
    (htarget : ∀ d, target = some d → (Value.dict d).WellFormed) :
    action_diffs target base = (action_diffs base target).map TraceDiff.swap := by
  unfold action_diffs
  rw [Value.pyEq_comm _ _ (of_result_wellFormed htarget) (of_result_wellFormed hbase)]
  by_cases heq : (of_result .dict base).pyEq (of_result .dict target) = true
  · simp [heq]
  · rw [if_neg heq, if_neg heq]
    cases base with
    | none => cases target <;> rfl
    | some b =>
        cases target with
        | none => rfl
        | some t =>
            have hkey : ∀ key, diff ("decision.action." ++ key) (t.get_or_none key)
                (b.get_or_none key) = (diff ("decision.action." ++ key) (b.get_or_none key)
                  (t.get_or_none key)).map TraceDiff.swap := fun key =>
              diff_swap _ (get_or_none_wellFormed (hbase b rfl) key)
                (get_or_none_wellFormed (htarget t rfl) key)
            show (sorted_set (t.map Prod.fst ++ b.map Prod.fst)).flatMap _
              = ((sorted_set (b.map Prod.fst ++ t.map Prod.fst)).flatMap _).map TraceDiff.swap
            rw [sorted_set_append_comm, List.map_flatMap]
            simp only [hkey]

theorem strs_wellFormed (xs : List String) : (Value.list (xs.map .str)).WellFormed := by
  unfold Value.WellFormed
  induction xs with
  | nil => exact trivial
  | cons x xs ih => exact ⟨trivial, ih⟩

theorem boundary_diffs_swap (base target : List BoundaryResult) :
    boundary_diffs target base = (boundary_diffs base target).map TraceDiff.swap := by
  rw [boundary_diffs, boundary_diffs, List.map_append,
    diff_swap _ (b := .int base.length) (t := .int target.length) trivial trivial,
    diff_swap _ (strs_wellFormed (sorted (triggered_ids base))) (strs_wellFormed _)]

theorem gate_diffs_swap (base target : Option HumanGateRequest) :
    gate_diffs target base = (gate_diffs base target).map TraceDiff.swap := by
  unfold gate_diffs
  rw [List.map_append,
    diff_swap _ (b := .bool base.isSome) (t := .bool target.isSome) trivial trivial]
  cases base with
  | none => cases target <;> rfl
  | some b =>
      cases target with
      | none => rfl
      | some t =>
          show _ ++ diff _ _ _ = _ ++ (diff _ _ _).map TraceDiff.swap
          rw [diff_swap _ (b := .str b.status.value) (t := .str t.status.value) trivial trivial]

theorem node_diff_swap (node_id : String) {b_node t_node : Option PyDict}
    (hb : ∀ n, b_node = some n → (Value.dict n).WellFormed)
    (ht : ∀ n, t_node = some n → (Value.dict n).WellFormed)
    (hsome : b_node.isSome = true ∨ t_node.isSome = true) :
    node_diff node_id t_node b_node = (node_diff node_id b_node t_node).map TraceDiff.swap := by
  cases b_node with
  | none =>
      cases t_node with
      | none => simp at hsome
      | some t => rfl
  | some b =>
      cases t_node with
      | none => rfl
      | some t =>
          exact diff_swap _ (get_or_none_wellFormed (hb b rfl) "matched")
            (get_or_none_wellFormed (ht t rfl) "matched")

/-- A key of an index leads to one of the indexed records. -/
theorem mem_of_get_index {nodes : List PyDict} {node_id : String} {n : PyDict}
    (h : (Dict.index record_id nodes).get node_id = some n) : n ∈ nodes := by
  induction nodes using List.reverseRecOn with
  | nil => cases h
  | append_singleton nodes last ih =>
      rw [Dict.index_append, Dict.get_set] at h
      by_cases hk : node_id = record_id last
      · rw [if_pos hk, Option.some.injEq] at h
        simp [← h]
      · rw [if_neg hk] at h
        simp [ih h]

theorem node_diffs_swap {base target : List PyDict}
    (hbase : ∀ n ∈ base, (Value.dict n).WellFormed)
    (htarget : ∀ n ∈ target, (Value.dict n).WellFormed) :
    node_diffs (Dict.index record_id target) (Dict.index record_id base)
      = (node_diffs (Dict.index record_id base) (Dict.index record_id target)).map
        TraceDiff.swap := by
  rw [node_diffs, node_diffs, sorted_set_append_comm, List.map_flatMap]
  apply List.flatMap_congr
  intro node_id hmem
  apply node_diff_swap
  · exact fun n hn => hbase n (mem_of_get_index hn)
  · exact fun n hn => htarget n (mem_of_get_index hn)
  · rw [mem_sorted_set, List.mem_append] at hmem
    exact isSome_of_mem_keys hmem

theorem all_diffs_swap {base target : DecisionTrace} (hbase : WellKeyed base)
    (htarget : WellKeyed target) :
    all_diffs target base = (all_diffs base target).map TraceDiff.swap := by
  unfold all_diffs
  rw [field_diffs_swap, action_diffs_swap hbase.action htarget.action, boundary_diffs_swap,
    gate_diffs_swap,
    diff_swap _ (b := .str base.state.value) (t := .str target.state.value) trivial trivial,
    node_diffs_swap hbase.records htarget.records]
  simp only [List.map_append]

/-! ## Paths -/

/-- The path starts with the prefix. -/
def StartsWith (pre path : String) : Prop := pre.toList <+: path.toList

instance decidableStartsWith (pre path : String) : Decidable (StartsWith pre path) :=
  inferInstanceAs (Decidable (pre.toList <+: path.toList))

theorem startsWith_append (pre s : String) : StartsWith pre (pre ++ s) := by
  rw [StartsWith, String.toList_append]
  exact List.prefix_append _ _

/-- The paths with a given prefix in front of a key. -/
def action_path (key : String) : String := "decision.action." ++ key

def present_path (node_id : String) : String := "trace.node." ++ node_id ++ ".present"

def matched_path (node_id : String) : String := "trace.node." ++ node_id ++ ".matched"

/-- The paths of the fields before the action, and of the action as a whole. -/
def first_paths : List String :=
  ["decision.status", "decision.outcome", "decision.selected_node_id", "decision.confidence",
    "decision.action"]

/-- The paths of the fields after the action. -/
def later_paths : List String :=
  ["boundary.count", "boundary.triggered_ids", "human_gate.present", "human_gate.status",
    "trace.state"]

/-- The paths of a node. -/
def node_paths (node_id : String) : List String := [present_path node_id, matched_path node_id]

/-- All paths that a difference can have. -/
def all_paths (keys node_ids : List String) : List String :=
  first_paths ++ keys.map action_path ++ later_paths ++ node_ids.flatMap node_paths

theorem flatMap_sublist {α β : Type} {f g : α → List β} (h : ∀ a, (f a).Sublist (g a)) :
    ∀ as : List α, (as.flatMap f).Sublist (as.flatMap g)
  | [] => List.Sublist.refl []
  | a :: as => by
      rw [List.flatMap_cons, List.flatMap_cons]
      exact (h a).append (flatMap_sublist h as)

theorem diff_paths (path : String) (b t : Value) :
    ((diff path b t).map (·.path)).Sublist [path] := by
  unfold diff
  by_cases h : b.pyEq t = true
  · simp [h]
  · simp [h]

theorem action_paths_sublist (base target : Option PyDict) :
    ∃ keys : List String, keys.Nodup ∧ ((action_diffs base target).map (·.path)).Sublist
      ("decision.action" :: keys.map action_path) := by
  unfold action_diffs
  by_cases heq : (of_result .dict base).pyEq (of_result .dict target) = true
  · exact ⟨[], List.nodup_nil, by simp [heq]⟩
  · rw [if_neg heq]
    cases base with
    | none => cases target <;> exact ⟨[], List.nodup_nil, List.Sublist.refl _⟩
    | some b =>
        cases target with
        | none => exact ⟨[], List.nodup_nil, List.Sublist.refl _⟩
        | some t =>
            refine ⟨sorted_set (b.map Prod.fst ++ t.map Prod.fst), nodup_sorted_set _, ?_⟩
            apply List.Sublist.cons
            have hsingle : ∀ keys : List String,
                keys.map action_path = keys.flatMap fun key => [action_path key] :=
              fun _ => List.map_eq_flatMap
            rw [List.map_flatMap, hsingle]
            exact flatMap_sublist (fun key => diff_paths _ _ _) _

theorem node_paths_sublist (node_id : String) (b_node t_node : Option PyDict) :
    ((node_diff node_id b_node t_node).map (·.path)).Sublist (node_paths node_id) := by
  unfold node_diff node_paths
  cases b_node with
  | none => exact (List.nil_sublist _).cons_cons (present_path node_id)
  | some b =>
      cases t_node with
      | none => exact (List.nil_sublist _).cons_cons (present_path node_id)
      | some t => exact (diff_paths (matched_path node_id) _ _).cons (present_path node_id)

/-- The paths of the differences are among all paths, in that order. -/
theorem paths_sublist (base target : DecisionTrace) : ∃ keys node_ids : List String,
    keys.Nodup ∧ node_ids.Nodup
      ∧ ((all_diffs base target).map (·.path)).Sublist (all_paths keys node_ids) := by
  obtain ⟨keys, hkeys, haction⟩ :=
    action_paths_sublist (action (primary base)) (action (primary target))
  refine ⟨keys, sorted_set ((Dict.index record_id base.evaluated_nodes).keys
    ++ (Dict.index record_id target.evaluated_nodes).keys), hkeys, nodup_sorted_set _, ?_⟩
  have hfields : ((field_diffs (primary base) (primary target)).map (·.path)).Sublist
      (["decision.status"] ++ ["decision.outcome"] ++ ["decision.selected_node_id"]
        ++ ["decision.confidence"]) := by
    simp only [field_diffs, List.map_append]
    exact (((diff_paths _ _ _).append (diff_paths _ _ _)).append (diff_paths _ _ _)).append
      (diff_paths _ _ _)
  have hboundary : ((boundary_diffs (boundary_results (primary base))
      (boundary_results (primary target))).map (·.path)).Sublist
      (["boundary.count"] ++ ["boundary.triggered_ids"]) := by
    simp only [boundary_diffs, List.map_append]
    exact (diff_paths _ _ _).append (diff_paths _ _ _)
  have hgate : ((gate_diffs (human_gate (primary base)) (human_gate (primary target))).map
      (·.path)).Sublist (["human_gate.present"] ++ ["human_gate.status"]) := by
    unfold gate_diffs
    rw [List.map_append]
    apply (diff_paths _ _ _).append
    cases human_gate (primary base) with
    | none => exact List.nil_sublist _
    | some b =>
        cases human_gate (primary target) with
        | none => exact List.nil_sublist _
        | some t => exact diff_paths _ _ _
  -- the nodes of both traces, in the order in which the comparison takes them
  have hnodes := flatMap_sublist
    (fun node_id => node_paths_sublist node_id
      ((Dict.index record_id base.evaluated_nodes).get node_id)
      ((Dict.index record_id target.evaluated_nodes).get node_id))
    (sorted_set ((Dict.index record_id base.evaluated_nodes).keys
      ++ (Dict.index record_id target.evaluated_nodes).keys))
  simp only [all_diffs, List.map_append, node_diffs, List.map_flatMap]
  have hall := ((((hfields.append haction).append hboundary).append hgate).append
    (diff_paths "trace.state" (.str base.state.value) (.str target.state.value))).append hnodes
  simpa [all_paths, first_paths, later_paths] using hall

/-! ### No path twice -/

theorem first_not_startsWith : ∀ path ∈ first_paths ++ later_paths,
    ¬StartsWith "decision.action." path ∧ ¬StartsWith "trace.node." path := by
  decide

theorem nodup_fixed_paths : (first_paths ++ later_paths).Nodup := by
  decide

/-- A path cannot start with both prefixes. -/
theorem not_startsWith_both {path : String} (haction : StartsWith "decision.action." path) :
    ¬StartsWith "trace.node." path := by
  intro hnode
  cases List.prefix_or_prefix_of_prefix haction hnode with
  | inl h => exact absurd h (by decide)
  | inr h => exact absurd h (by decide)

theorem action_path_startsWith {keys : List String} {path : String}
    (h : path ∈ keys.map action_path) : StartsWith "decision.action." path := by
  obtain ⟨key, -, rfl⟩ := List.mem_map.mp h
  exact startsWith_append _ _

theorem node_path_startsWith {node_ids : List String} {path : String}
    (h : path ∈ node_ids.flatMap node_paths) : StartsWith "trace.node." path := by
  obtain ⟨node_id, -, hpath⟩ := List.mem_flatMap.mp h
  simp only [node_paths, List.mem_cons, List.not_mem_nil, or_false] at hpath
  cases hpath with
  | inl h =>
      rw [h, present_path, String.append_assoc]
      exact startsWith_append _ _
  | inr h =>
      rw [h, matched_path, String.append_assoc]
      exact startsWith_append _ _

theorem action_path_injective : Function.Injective action_path := by
  intro a b h
  exact (String.append_right_inj _).mp h

/-- The node and the kind of a path can be read off it. -/
theorem node_path_inj {a b path : String} (ha : path ∈ node_paths a) (hb : path ∈ node_paths b) :
    a = b := by
  -- the two suffixes are of one length, so a path ends in one of them only
  have hends : ∀ s t : String, s.toList.length = t.toList.length → s ≠ t →
      "trace.node." ++ a ++ s ≠ "trace.node." ++ b ++ t := by
    intro s t hlength hne heq
    have hlist := congrArg String.toList heq
    rw [String.toList_append, String.toList_append (t := t)] at hlist
    exact hne (String.toList_inj.mp (List.append_inj_right' hlist hlength))
  have hsame : ∀ s : String, "trace.node." ++ a ++ s = "trace.node." ++ b ++ s → a = b := by
    intro s heq
    exact (String.append_right_inj _).mp ((String.append_left_inj _).mp heq)
  simp only [node_paths, List.mem_cons, List.not_mem_nil, or_false] at ha hb
  cases ha with
  | inl ha =>
      cases hb with
      | inl hb => exact hsame _ (ha.symm.trans hb)
      | inr hb => exact absurd (ha.symm.trans hb) (hends _ _ (by decide) (by decide))
  | inr ha =>
      cases hb with
      | inl hb => exact absurd (ha.symm.trans hb) (hends _ _ (by decide) (by decide))
      | inr hb => exact hsame _ (ha.symm.trans hb)

theorem nodup_node_paths (node_id : String) : (node_paths node_id).Nodup := by
  rw [node_paths, List.nodup_cons, List.mem_singleton]
  refine ⟨?_, List.nodup_singleton _⟩
  intro h
  exact absurd ((String.append_right_inj _).mp h) (by decide)

theorem nodup_all_paths {keys node_ids : List String} (hkeys : keys.Nodup)
    (hids : node_ids.Nodup) : (all_paths keys node_ids).Nodup := by
  have hfixed := List.nodup_append.mp nodup_fixed_paths
  have haction : (keys.map action_path).Nodup := hkeys.map action_path_injective
  have hnodes : (node_ids.flatMap node_paths).Nodup := by
    rw [List.nodup_flatMap]
    refine ⟨fun node_id _ => nodup_node_paths node_id, ?_⟩
    apply hids.imp
    intro a b hab path ha hb
    exact hab (node_path_inj ha hb)
  have hfirst : ∀ path ∈ first_paths, ¬StartsWith "decision.action." path
      ∧ ¬StartsWith "trace.node." path := fun path h => first_not_startsWith path (by simp [h])
  have hlater : ∀ path ∈ later_paths, ¬StartsWith "decision.action." path
      ∧ ¬StartsWith "trace.node." path := fun path h => first_not_startsWith path (by simp [h])
  rw [all_paths, List.nodup_append, List.nodup_append, List.nodup_append]
  -- paths of different kinds differ: the fixed ones start with neither prefix
  refine ⟨⟨⟨hfixed.1, haction, ?_⟩, hfixed.2.1, ?_⟩, hnodes, ?_⟩
  · rintro path hpath _ hkey rfl
    exact (hfirst path hpath).1 (action_path_startsWith hkey)
  · rintro path hpath _ hother rfl
    rw [List.mem_append] at hpath
    cases hpath with
    | inl hpath => exact hfixed.2.2 path hpath path hother rfl
    | inr hpath => exact (hlater path hother).1 (action_path_startsWith hpath)
  · rintro path hpath _ hnode rfl
    have hstart := node_path_startsWith hnode
    rw [List.mem_append, List.mem_append] at hpath
    rcases hpath with (hpath | hpath) | hpath
    · exact (hfirst path hpath).2 hstart
    · exact not_startsWith_both (action_path_startsWith hpath) hstart
    · exact (hlater path hpath).2 hstart

/-- **Comparing from the other side.** The differences are the same, with base and target
exchanged, on the same paths in the same order, and no path comes twice. -/
theorem compare_swap {base target : DecisionTrace} (hbase : WellKeyed base)
    (htarget : WellKeyed target) : ∃ diffs, compute_trace_diffs base target = .ok diffs
      ∧ compute_trace_diffs target base = .ok (diffs.map TraceDiff.swap)
      ∧ (diffs.map (·.path)).Nodup := by
  refine ⟨all_diffs base target, compute_trace_diffs_eq hbase.ids htarget.ids, ?_, ?_⟩
  · rw [compute_trace_diffs_eq htarget.ids hbase.ids, all_diffs_swap hbase htarget]
  · obtain ⟨keys, node_ids, hkeys, hids, hsub⟩ := paths_sublist base target
    exact (nodup_all_paths hkeys hids).sublist hsub

/-- Two traces that differ in the action and in the flag of a node. -/
theorem compare_swap_two : ∃ diffs,
    compute_trace_diffs (Recorded.acted [("a", .int 1)] true) (Recorded.acted [("a", .int 2)] false)
        = .ok diffs
      ∧ compute_trace_diffs (Recorded.acted [("a", .int 2)] false)
          (Recorded.acted [("a", .int 1)] true) = .ok (diffs.map TraceDiff.swap)
      ∧ (diffs.map (·.path)).Nodup :=
  compare_swap (Recorded.acted_wellKeyed (Recorded.one_key_wellFormed "a" (.int 1) trivial) true)
    (Recorded.acted_wellKeyed (Recorded.one_key_wellFormed "a" (.int 2) trivial) false)

end TraceDiffs

end DecisionRuntime
