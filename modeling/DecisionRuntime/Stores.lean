/-
`trace_builder.py`, `trace_store.py` and `idempotency_store.py`.

Building a `DecisionTrace` from a result runs the model validator of the result
again, on the instance itself: the trace holds that instance, and so does whoever
passed it in. `create_trace` therefore returns the result along with the trace.
-/
import DecisionRuntime.Dict
import DecisionRuntime.Models
import Mathlib.Data.List.Sort

set_option autoImplicit false

namespace DecisionRuntime

/-! ## Building a trace -/

/-- `TraceBuilder.create_trace`: the trace, and the result as the validator left it. -/
def create_trace (completed_at : Datetime) (signal : Signal) (flow : DecisionFlow)
    (decision_result : DecisionResult) (evaluated_nodes : List PyDict) :
    DecisionTrace × DecisionResult :=
  let validated := decision_result.populate_canonical_fields
  ({ id := decision_result.trace_id
     flow_id := flow.id
     flow_version := flow.version
     state := .completed
     decision_id := some decision_result.id
     signal_id := some signal.id
     evaluated_nodes := evaluated_nodes
     signals := [signal]
     decision_results := [validated]
     boundary_results := decision_result.boundary_results
     human_gate_requests := decision_result.human_gate.toList
     started_at := decision_result.created_at
     completed_at := some completed_at },
    validated)

/-! ## The trace store -/

/-- The two indexes of a `TraceStore`. -/
structure TraceStore where
  by_trace_id : Dict String DecisionTrace
  by_decision_id : Dict String DecisionTrace

namespace TraceStore

/-- A store that holds nothing. -/
def init : TraceStore := ⟨Dict.empty, Dict.empty⟩

/-- `save`. -/
def save (trace : DecisionTrace) (s : TraceStore) : TraceStore :=
  let by_result := trace.decision_results.foldl
    (fun d (r : DecisionResult) => d.set r.id.str trace) s.by_decision_id
  { by_trace_id := s.by_trace_id.set trace.id.str trace
    by_decision_id :=
      match trace.decision_id with
      | some u => by_result.set u.str trace
      | none => by_result }

/-- `get`. -/
def get (trace_id : String) (s : TraceStore) : Except PyError DecisionTrace :=
  match s.by_trace_id.get trace_id with
  | some trace => .ok trace
  | none => .error (.traceNotFoundError ("Trace '" ++ trace_id ++ "' not found"))

/-- `get_by_decision_id`. -/
def get_by_decision_id (decision_id : String) (s : TraceStore) : Except PyError DecisionTrace :=
  match s.by_decision_id.get decision_id with
  | some trace => .ok trace
  | none =>
    .error (.traceNotFoundError ("No trace found for decision '" ++ decision_id ++ "'"))

/-- `list_recent`: the newest traces first, and of two that started together the one stored first.
The times are all aware, so that they are compared by the instant. -/
def list_recent (limit : ℕ) (s : TraceStore) : List DecisionTrace :=
  (s.by_trace_id.values.insertionSort
    (fun a b => b.started_at.instant ≤ a.started_at.instant)).take (min limit 10000)

theorem get_save_same (trace : DecisionTrace) (s : TraceStore) :
    get trace.id.str (save trace s) = .ok trace := by
  rw [get, save, Dict.get_set_same]

theorem get_save_other {trace : DecisionTrace} {s : TraceStore} {k : String}
    (h : k ≠ trace.id.str) : get k (save trace s) = get k s := by
  rw [get, get, save, Dict.get_set_other _ h]

/-- A trace with a new id is listed last. -/
theorem values_save_new {trace : DecisionTrace} {s : TraceStore}
    (h : trace.id.str ∉ s.by_trace_id.keys) :
    (save trace s).by_trace_id.values = s.by_trace_id.values ++ [trace] :=
  Dict.values_set_of_not_mem trace h

/-- The store that a list of traces was saved to. -/
def holding (traces : List DecisionTrace) : TraceStore :=
  traces.foldl (fun s trace => save trace s) init

theorem holding_append (traces : List DecisionTrace) (trace : DecisionTrace) :
    holding (traces ++ [trace]) = save trace (holding traces) := by
  simp only [holding, List.foldl_append, List.foldl_cons, List.foldl_nil]

theorem mem_keys_holding {traces : List DecisionTrace} {k : String} :
    k ∈ (holding traces).by_trace_id.keys ↔ ∃ trace ∈ traces, trace.id.str = k := by
  induction traces using List.reverseRecOn with
  | nil => simp [holding, init]
  | append_singleton traces trace ih =>
      rw [holding_append, save, Dict.mem_keys_set, ih]
      simp [or_comm, eq_comm]

/-- Traces with different ids are all listed, as they were saved. -/
theorem values_holding {traces : List DecisionTrace} (h : (traces.map (·.id)).Nodup) :
    (holding traces).by_trace_id.values = traces := by
  induction traces using List.reverseRecOn with
  | nil => rfl
  | append_singleton traces trace ih =>
      rw [List.map_append, List.nodup_append] at h
      rw [holding_append, values_save_new, ih h.1]
      rw [mem_keys_holding]
      rintro ⟨other, hother, hid⟩
      exact h.2.2 other.id (List.mem_map_of_mem hother) trace.id (by simp) (UUID.str_inj.mp hid)

/-! ### The index by decision id -/

/-- A trace is found by the ids of its results, or by its decision id. -/
def FoundBy (trace : DecisionTrace) (decision_id : String) : Prop :=
  (∃ r ∈ trace.decision_results, r.id.str = decision_id) ∨
    ∃ u, trace.decision_id = some u ∧ u.str = decision_id

/-- A save puts the trace under its own ids, and leaves the other ones alone. -/
theorem by_decision_id_save (trace : DecisionTrace) (s : TraceStore) (decision_id : String) :
    ((save trace s).by_decision_id.get decision_id = some trace ∧ FoundBy trace decision_id) ∨
      (save trace s).by_decision_id.get decision_id = s.by_decision_id.get decision_id := by
  have hresults : ((trace.decision_results.foldl (fun d r => d.set r.id.str trace)
      s.by_decision_id).get decision_id = some trace ∧ FoundBy trace decision_id) ∨
      (trace.decision_results.foldl (fun d r => d.set r.id.str trace)
        s.by_decision_id).get decision_id = s.by_decision_id.get decision_id := by
    rw [Dict.get_foldl_set]
    by_cases hmem : decision_id ∈ trace.decision_results.map (fun r => r.id.str)
    · rw [if_pos hmem]
      exact Or.inl ⟨rfl, Or.inl (List.mem_map.mp hmem)⟩
    · rw [if_neg hmem]
      exact Or.inr rfl
  unfold save
  rcases hid : trace.decision_id with _ | u
  · exact hresults
  · -- the decision id is put last
    dsimp only
    rw [Dict.get_set]
    by_cases hkey : decision_id = u.str
    · rw [if_pos hkey]
      exact Or.inl ⟨rfl, Or.inr ⟨u, hid, hkey.symm⟩⟩
    · rw [if_neg hkey]
      exact hresults

/-- What is found by a decision id after a save is the saved trace, by an id of its own, or was
found before. -/
theorem of_by_decision_id_save {trace found : DecisionTrace} {s : TraceStore} {decision_id : String}
    (h : (save trace s).by_decision_id.get decision_id = some found) :
    (found = trace ∧ FoundBy trace decision_id) ∨
      s.by_decision_id.get decision_id = some found := by
  rcases by_decision_id_save trace s decision_id with ⟨hnew, hby⟩ | hold
  · exact Or.inl ⟨Option.some.inj (h.symm.trans hnew), hby⟩
  · exact Or.inr (hold.symm.trans h)

theorem get_by_decision_id_save {trace found : DecisionTrace} {s : TraceStore}
    {decision_id : String} (h : get_by_decision_id decision_id (save trace s) = .ok found) :
    found = trace ∨ get_by_decision_id decision_id s = .ok found := by
  rw [get_by_decision_id] at h
  rcases by_decision_id_save trace s decision_id with ⟨hnew, -⟩ | hold
  · rw [hnew] at h
    exact Or.inl (Except.ok.inj h).symm
  · rw [hold] at h
    exact Or.inr h

/-- What was found by a decision id still is after a save, or the new trace is. -/
theorem found_save {s : TraceStore} {decision_id : String}
    (h : s.by_decision_id.get decision_id ≠ none) (trace : DecisionTrace) :
    (save trace s).by_decision_id.get decision_id ≠ none := by
  rcases by_decision_id_save trace s decision_id with ⟨hnew, -⟩ | hold
  · simp [hnew]
  · rwa [hold]

end TraceStore

/-! ## The idempotency store -/

/-- `IdempotencyStore`. -/
abbrev IdempotencyStore := Dict String DecisionResult

end DecisionRuntime
