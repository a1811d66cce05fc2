/-
`backend/app/runtime/explanation_builder.py` and the route over it: what the service
says about how it came to a decision.

An explanation is built from the trace that is stored under the id of the decision,
long after the decision was made. It says what happened all the same: after any run,
an explanation that is given lists, node by node, which conditions of the flow hold
of the signal (`explanations_truthful`), and it is the one that was given before
(`explanations_stable`). The last part cuts both ways, since a gate that was resolved
in the meantime is explained as pending.
-/
import DecisionRuntime.DecisionSelection
import DecisionRuntime.DisabledFlows
import DecisionRuntime.Replay

set_option autoImplicit false

namespace DecisionRuntime

/-! ## The builder -/

namespace ExplanationBuilder

/-- `_node_summary`. -/
def node_summary (node : PyDict) : PyDict :=
  [("node_id", (PyDict.get node "node_id").getD .none),
    ("node_type", (PyDict.get node "node_type").getD .none),
    ("condition", (PyDict.get node "condition").getD .none),
    ("reason", (PyDict.get node "reason").getD .none)]

/-- `n.get("matched")`, as a condition. -/
def is_matched (node : PyDict) : Bool := ((PyDict.get node "matched").getD .none).truthy

/-- An entry of `boundary_effects`. -/
def boundary_effect (br : BoundaryResult) : PyDict :=
  [("boundary_id", .str br.boundary_id), ("triggered", .bool br.triggered),
    ("severity", .str br.severity), ("effect", .str br.effect), ("reason", .str br.reason)]

/-- The gate, if one was asked for: the first one. -/
def human_gate (trace : DecisionTrace) : Value :=
  match trace.human_gate_requests with
  | [] => .none
  | gate :: _ =>
    .dict [("required", .bool true), ("status", .str gate.status.value),
      ("request_id", .str gate.id.str)]

/-- `build`. -/
def build (trace : DecisionTrace) : PyDict :=
  let primary := trace.decision_results.head?
  let matched_conditions := (trace.evaluated_nodes.filter is_matched).map node_summary
  let unmatched_conditions := (trace.evaluated_nodes.filter (!is_matched ·)).map node_summary
  let boundary_effects := trace.boundary_results.map boundary_effect
  [("decision_id", Value.optStr (trace.decision_id.map UUID.str)),
    ("trace_id", .str trace.id.str),
    ("selected_node", Value.optStr (primary.map DecisionResult.selected_node_id)),
    ("matched_conditions", .list (matched_conditions.map Value.dict)),
    ("unmatched_conditions", .list (unmatched_conditions.map Value.dict)),
    ("boundary_effects", .list (boundary_effects.map Value.dict)),
    ("human_gate", human_gate trace),
    ("final_action", ((primary.bind DecisionResult.action).map Value.dict).getD .none),
    ("final_status", Value.optStr (primary.map fun r => r.status.value))]

end ExplanationBuilder

namespace Routes

/-- `explain_decision`. -/
def explain_decision (decision_id : String) (store : TraceStore) : Except PyError PyDict :=
  match store.get_by_decision_id decision_id with
  | .ok trace => .ok (ExplanationBuilder.build trace)
  | .error (.traceNotFoundError exc) => .error (.httpException 404 exc)
  | .error exc => .error exc

/-- It is given exactly when a trace is found. -/
theorem explain_decision_eq_ok {decision_id : String} {store : TraceStore} {d : PyDict} :
    explain_decision decision_id store = .ok d ↔
      ∃ trace, store.get_by_decision_id decision_id = .ok trace
        ∧ d = ExplanationBuilder.build trace := by
  unfold explain_decision
  rcases store.get_by_decision_id decision_id with e | trace
  · constructor
    · intro h
      cases e <;> cases h
    · rintro ⟨trace, htrace, -⟩
      cases htrace
  · constructor
    · intro h
      exact ⟨trace, rfl, (Except.ok.inj h).symm⟩
    · rintro ⟨trace', htrace, rfl⟩
      rw [Except.ok.inj htrace]

end Routes

/-! ## What an explanation says -/

namespace ExplanationBuilder

open PureEvaluate BoundaryEngine

/-- The summary of a record. -/
def summary (r : NodeRecord) : Value := .dict (node_summary r.toDict)

theorem filter_records (p : Bool → Bool) (records : List NodeRecord) :
    (((records.map NodeRecord.toDict).filter fun n => p (is_matched n)).map node_summary).map
        Value.dict
      = (records.filter fun r => p r.matched).map summary := by
  rw [List.filter_map, List.map_map, List.map_map]
  rfl

/-- Of the records that say whether a node fires, those with the value `b`. -/
theorem filter_verdicts {P : Platform} {signal : Signal} {p : Bool → Bool} {b : Bool}
    (hp : ∀ c, p c = true ↔ c = b) {f : DecisionNode → Bool → NodeRecord}
    (hf : ∀ n c, (f n c).matched = c) (nodes : List DecisionNode) :
    (nodes.map fun n => f n (Fires P signal n)).filter (fun r => p r.matched)
      = (nodes.filter fun n => p (Fires P signal n)).map fun n => f n b := by
  induction nodes with
  | nil => rfl
  | cons n nodes ih =>
      rw [List.map_cons, List.filter_cons, List.filter_cons, ih, hf]
      by_cases hb : p (decide (Fires P signal n)) = true
      · rw [if_pos hb, if_pos hb, List.map_cons, (hp _).mp hb]
      · rw [if_neg hb, if_neg hb]

section Records

variable {P : Platform} {signal : Signal} {flow : DecisionFlow} {selected : DecisionNode}

/-- The summaries of what matched. -/
theorem matched_summaries :
    ((evaluated_records P signal flow selected).filter (fun r => id r.matched)).map summary
      = ((candidates P signal flow).map fun n => summary (decision_record (n, true)))
        ++ (if candidates P signal flow = [] then [summary (fallback_record selected)] else [])
        ++ (firing P signal flow).map fun n => summary (boundary_verdict n true) := by
  have hp : ∀ c : Bool, id c = true ↔ c = true := fun c => Iff.rfl
  have hfallback : ((if candidates P signal flow = [] then [fallback_record selected]
        else []).filter (fun r => id r.matched)).map summary
      = if candidates P signal flow = [] then [summary (fallback_record selected)] else [] := by
    split_ifs <;> rfl
  rw [evaluated_records, List.filter_append, List.filter_append, List.map_append, List.map_append,
    hfallback, filter_verdicts hp (f := fun n c => decision_record (n, c)) (fun _ _ => rfl),
    filter_verdicts hp (f := boundary_verdict) (fun _ _ => rfl), List.map_map, List.map_map]
  rfl

/-- The summaries of what did not. -/
theorem unmatched_summaries :
    ((evaluated_records P signal flow selected).filter (fun r => !r.matched)).map summary
      = (((decision_nodes flow).filter fun n => ¬ Fires P signal n).map fun n =>
          summary (decision_record (n, false)))
        ++ ((boundary_nodes flow).filter fun n => ¬ Fires P signal n).map fun n =>
          summary (boundary_verdict n false) := by
  have hp : ∀ c : Bool, (!c) = true ↔ c = false := fun c => by simp
  have hfallback : (if candidates P signal flow = [] then [fallback_record selected]
      else []).filter (fun r => !r.matched) = [] := by
    split_ifs <;> rfl
  rw [evaluated_records, List.filter_append, List.filter_append, hfallback, List.append_nil,
    List.map_append, filter_verdicts hp (f := fun n c => decision_record (n, c)) (fun _ _ => rfl),
    filter_verdicts hp (f := boundary_verdict) (fun _ _ => rfl), List.map_map, List.map_map]
  simp only [decide_not]
  rfl

end Records

/-- The explanation says what happened: `selected` was selected before the boundaries, `core` is the
decision, and it was escalated to the gate `gate_id` if at all. -/
structure Explains (P : Platform) (signal : Signal) (flow : DecisionFlow) (selected : DecisionNode)
    (core : DecisionResult) (gate_id : UUID) (d : PyDict) : Prop where
  decision_id : PyDict.get d "decision_id" = some (.str core.id.str)
  trace_id : PyDict.get d "trace_id" = some (.str core.trace_id.str)
  selected_node : PyDict.get d "selected_node" = some (.str core.selected_node_id)
  matched_conditions : PyDict.get d "matched_conditions" = some (.list
    (((candidates P signal flow).map fun n => summary (decision_record (n, true)))
      ++ (if candidates P signal flow = [] then [summary (fallback_record selected)] else [])
      ++ (firing P signal flow).map fun n => summary (boundary_verdict n true)))
  unmatched_conditions : PyDict.get d "unmatched_conditions" = some (.list
    ((((decision_nodes flow).filter fun n => ¬ Fires P signal n).map fun n =>
        summary (decision_record (n, false)))
      ++ ((boundary_nodes flow).filter fun n => ¬ Fires P signal n).map fun n =>
        summary (boundary_verdict n false)))
  boundary_effects : PyDict.get d "boundary_effects" = some (.list
    ((boundary_nodes flow).map fun n =>
      .dict (boundary_effect (boundary_result n (Fires P signal n)))))
  human_gate : PyDict.get d "human_gate" = some (if core.status = .pending_human then
      .dict [("required", .bool true), ("status", .str HumanGateStatus.pending.value),
        ("request_id", .str gate_id.str)]
    else .none)
  final_action : PyDict.get d "final_action" = some ((core.action.map Value.dict).getD .none)
  final_status : PyDict.get d "final_status" = some (.str core.status.value)

end ExplanationBuilder

/-! ## From the trace -/

namespace Routes

open DecisionRuntimeEngine PureEvaluate BoundaryEngine ExplanationBuilder

section Files

variable {P : Platform} {settings : Settings} {registry : FlowRegistry} {cfg : EngineConfig}
  {env : Env} {core final : DecisionResult}

/-- What an explanation takes from a result. -/
def explained (r : DecisionResult) :
    UUID × UUID × String × Option PyDict × DecisionStatus × List BoundaryResult :=
  (r.id, r.trace_id, r.selected_node_id, r.action, r.status, r.boundary_results)

/-- On the way from the evaluation to the trace none of it changes. -/
theorem explained_final (h : Final cfg env core final) : explained final = explained core := by
  have hready : explained (ready cfg env core) = explained core := by
    unfold ready opened
    split_ifs <;> rfl
  rcases h with ⟨-, rfl⟩ | ⟨-, rfl⟩
  · exact hready
  · exact hready

/-- The gate of an escalated decision, when a manager is there, and else none. -/
theorem human_gate_final (h : Final cfg env core final) (hcore : core.human_gate = none)
    (hmanager : cfg.human_gate_manager = true) :
    final.human_gate = if core.status = .pending_human then
        some (HumanGateManager.gate_request env.gate_id env.gate_created_at core none none)
      else none := by
  have hready : (ready cfg env core).human_gate = (opened cfg env core).human_gate := by
    unfold ready
    split_ifs <;> rfl
  have hfinal : final.human_gate = (opened cfg env core).human_gate := by
    rcases h with ⟨-, rfl⟩ | ⟨-, rfl⟩
    · exact hready
    · exact hready
  rw [hfinal, opened]
  by_cases hst : core.status = .pending_human
  · rw [if_pos ⟨hst, hmanager⟩, if_pos hst]
  · rw [if_neg (fun h => hst h.1), if_neg hst, hcore]

/-- The boundary results of a decision are the records of the boundary nodes. -/
theorem boundary_results_apply_dominant (r : DecisionResult) (all_results : List BoundaryResult) :
    (apply_dominant r all_results).boundary_results = all_results := by
  unfold apply_dominant
  split <;> rfl

/-- **The explanation of a stored trace.** -/
theorem Files.explains {c : EvaluateCall} {trace : DecisionTrace}
    (h : Files P settings registry c trace)
    (hregistry : ∀ flow ∈ registry.list_flows, (flow.nodes.map (·.id)).Nodup) :
    ∃ signal flow core nodes selected status outcome,
      Computed P registry c signal flow core nodes
        ∧ Selects P signal flow selected status outcome
        ∧ Explains P signal flow selected core c.draws.env.gate_id (build trace) := by
  obtain ⟨signal, flow, core, nodes, final, hcomputed, hfinal, rfl⟩ := h
  have hnodup := hregistry flow (prepare_mem hcomputed.prepared)
  have hanswer := hcomputed.computed
  rw [pure_evaluate_eq, except_bind_eq_ok] at hanswer
  obtain ⟨⟨outcomes, sel, pre⟩, hbefore, hanswer⟩ := hanswer
  obtain ⟨⟨result, records⟩, happly, -⟩ := except_bind_eq_ok.mp hanswer
  have hboundaries := (apply_eq_ok.mp happly).1
  have hexact := exactlySelected hnodup hbefore
  -- so this is what the evaluation computed
  obtain ⟨rfl, rfl⟩ := except_pair_unique hcomputed.computed (hexact.answer hboundaries)
  have hsame := explained_final hfinal
  simp only [explained, Prod.mk.injEq] at hsame
  obtain ⟨hid, htrace, hselected, haction, hstatus, hresults⟩ := hsame
  have hgate := human_gate_final hfinal (stamped hcomputed.computed).human_gate rfl
  refine ⟨signal, flow, _, _, sel.selected, _, _, hcomputed, hexact.selects, ?_⟩
  constructor
  · rw [← hid]
    rfl
  · rw [← htrace]
    rfl
  · rw [← hselected]
    rfl
  · have hmatched := filter_records id (evaluated_records P signal flow sel.selected)
    rw [matched_summaries] at hmatched
    exact congrArg (fun xs => some (Value.list xs)) hmatched
  · have hunmatched := filter_records not (evaluated_records P signal flow sel.selected)
    rw [unmatched_summaries] at hunmatched
    exact congrArg (fun xs => some (Value.list xs)) hunmatched
  · rw [boundary_results_apply_dominant] at hresults
    have heffects : (final.boundary_results.map boundary_effect).map Value.dict
        = (boundary_nodes flow).map fun n =>
          .dict (boundary_effect (boundary_result n (Fires P signal n))) := by
      rw [hresults, boundary_records, List.map_map, List.map_map]
      rfl
    exact congrArg (fun xs => some (Value.list xs)) heffects
  · show some (human_gate _) = _
    have hrequests : (stored_trace c.draws.env signal flow final
        ((evaluated_records P signal flow sel.selected).map
          NodeRecord.toDict)).1.human_gate_requests = final.human_gate.toList := rfl
    rw [human_gate, hrequests, hgate]
    split_ifs <;> rfl
  · rw [← haction]
    rfl
  · rw [← hstatus]
    rfl

end Files

/-! ## Runs -/

/-- A trace is found by the id of its decision only. -/
theorem Files.key_eq {P : Platform} {settings : Settings} {registry : FlowRegistry}
    {c : EvaluateCall} {trace : DecisionTrace} (h : Files P settings registry c trace)
    {key : String} (hfound : TraceStore.FoundBy trace key) :
    ∃ signal flow core nodes, Computed P registry c signal flow core nodes
      ∧ key = core.id.str := by
  obtain ⟨signal, flow, core, nodes, hcomputed, hshows⟩ := h.showsBefore
  refine ⟨signal, flow, core, nodes, hcomputed, ?_⟩
  rcases hfound with ⟨r, hr, hid⟩ | ⟨v, hv, hid⟩
  · rw [← hid, (hshows.results r hr).1]
  · rw [← hid, Option.some.inj (hv.symm.trans hshows.decision_id)]

section Run

variable {σ : Type} {P : Platform} {C : LedgerBackend σ} {settings : Settings}
  {auth : AuthSettings} {registry : FlowRegistry}

/-- The trace of a decision is stored once: a request with other ids does not replace it. -/
theorem stored_call (P : Platform) (C : LedgerBackend σ) (settings : Settings)
    (auth : AuthSettings) (registry : FlowRegistry) (s : σ) {calls : List RuntimeCall}
    {c : RuntimeCall} (hfresh : ((calls ++ [c]).flatMap RuntimeCall.drawn).Nodup) {key : String}
    {trace : DecisionTrace}
    (h : (Run.final (RuntimeCall.run P C settings auth registry) (World.init s)
      calls).trace_store.get_by_decision_id key = .ok trace) :
    (Run.final (RuntimeCall.run P C settings auth registry) (World.init s)
      (calls ++ [c])).trace_store.get_by_decision_id key = .ok trace := by
  have hprov := RuntimeCall.provenance_run P C settings auth registry s calls
  rw [Run.final_concat]
  rcases RuntimeCall.trace_store_call P C settings auth registry hprov.held.same_keys c with
    hsame | ⟨e, new, rfl, hfiles, hsave⟩
  · rw [hsame]
    exact h
  · rw [hsave]
    obtain ⟨⟨e', he', hfiles'⟩, hfound⟩ := hprov.traces.get_by_decision_id h
    rcases TraceStore.by_decision_id_save new (Run.final (RuntimeCall.run P C settings auth
      registry) (World.init s) calls).trace_store key with ⟨-, hby⟩ | hold
    · -- the two requests would have drawn one decision id
      obtain ⟨_, _, core, _, hcomputed, hkey⟩ := hfiles.key_eq hby
      obtain ⟨_, _, core', _, hcomputed', hkey'⟩ := hfiles'.key_eq hfound
      have hid : core'.id = core.id := UUID.str_inj.mp (hkey'.symm.trans hkey)
      have hdrawn' := (computed_draws hcomputed').1
      rw [hid] at hdrawn'
      rw [List.flatMap_append, List.nodup_append] at hfresh
      refine absurd rfl (hfresh.2.2 core.id (List.mem_flatMap.mpr ⟨_, he', hdrawn'⟩) core.id ?_)
      simpa using (computed_draws hcomputed).1
    · unfold TraceStore.get_by_decision_id at h ⊢
      rw [hold]
      exact h

/-- **Explanations are truthful.** After any run of a service whose flows were loaded from files, an
explanation that is given for a decision id is about a request of the run that made this decision,
and says of every active node of the flow whether its condition holds of the signal, which decision
came out of it and which gate it was escalated to. -/
theorem explanations_truthful (P : Platform) (C : LedgerBackend σ) (settings : Settings)
    (auth : AuthSettings) {files : List FlowFile}
    (hload : FlowRegistry.load_all P files = .ok registry) (s : σ) (calls : List RuntimeCall)
    {decision_id : String} {d : PyDict}
    (h : explain_decision decision_id (Run.final (RuntimeCall.run P C settings auth registry)
      (World.init s) calls).trace_store = .ok d) :
    ∃ e signal flow core nodes selected status outcome, .evaluate e ∈ calls
      ∧ Computed P registry e signal flow core nodes ∧ decision_id = core.id.str
      ∧ Selects P signal flow selected status outcome
      ∧ Explains P signal flow selected core e.draws.env.gate_id d := by
  have hprov := RuntimeCall.provenance_run P C settings auth registry s calls
  obtain ⟨trace, hget, rfl⟩ := explain_decision_eq_ok.mp h
  obtain ⟨⟨e, he, hfiles⟩, hfound⟩ := hprov.traces.get_by_decision_id hget
  obtain ⟨_, _, core', _, hcomputed', hkey⟩ := hfiles.key_eq hfound
  obtain ⟨signal, flow, core, nodes, selected, status, outcome, hcomputed, hselects, hexplains⟩ :=
    hfiles.explains fun flow hflow => nodup_of_validate (list_flows_validated hload hflow)
  rw [hcomputed'.unique hcomputed] at hkey
  exact ⟨e, signal, flow, core, nodes, selected, status, outcome, he, hcomputed, hkey, hselects,
    hexplains⟩

/-- **Explanations are stable.** In a run in which no id is drawn twice, an explanation that was
given is given again, whatever is evaluated, approved, rejected or simulated in between. -/
theorem explanations_stable (P : Platform) (C : LedgerBackend σ) (settings : Settings)
    (auth : AuthSettings) (registry : FlowRegistry) (s : σ) (pre post : List RuntimeCall)
    (hfresh : ((pre ++ post).flatMap RuntimeCall.drawn).Nodup) {decision_id : String} {d : PyDict}
    (h : explain_decision decision_id (Run.final (RuntimeCall.run P C settings auth registry)
      (World.init s) pre).trace_store = .ok d) :
    explain_decision decision_id (Run.final (RuntimeCall.run P C settings auth registry)
      (World.init s) (pre ++ post)).trace_store = .ok d := by
  obtain ⟨trace, hget, rfl⟩ := explain_decision_eq_ok.mp h
  rw [explain_decision_eq_ok]
  refine ⟨trace, ?_, rfl⟩
  induction post using List.reverseRecOn with
  | nil => rwa [List.append_nil]
  | append_singleton post c ih =>
      rw [← List.append_assoc] at hfresh ⊢
      refine stored_call P C settings auth registry s hfresh (ih ?_)
      rw [List.flatMap_append] at hfresh
      exact hfresh.of_append_left

end Run

/-! ## A run -/

theorem explanations_truthful_recorded :
    ∃ d, explain_decision (UUID.repeated 0xc).str (Run.final (RuntimeCall.run Recorded.platform
        LedgerClient.backend (Recorded.settings "parallel") Recorded.open_access
        Recorded.loaded_registry) (World.init LedgerClient.init)
        [Recorded.escalate_call]).trace_store = .ok d
      ∧ ∃ signal flow selected core gate_id,
        Explains Recorded.platform signal flow selected core gate_id d := by
  have hgiven : (explain_decision (UUID.repeated 0xc).str (Run.final (RuntimeCall.run
      Recorded.platform LedgerClient.backend (Recorded.settings "parallel") Recorded.open_access
      Recorded.loaded_registry) (World.init LedgerClient.init)
      [Recorded.escalate_call]).trace_store).toOption.isSome = true := by
    decide +kernel
  obtain ⟨d, hd⟩ := except_of_isSome hgiven
  obtain ⟨e, signal, flow, core, -, selected, -, -, -, -, -, -, hexplains⟩ :=
    explanations_truthful Recorded.platform LedgerClient.backend (Recorded.settings "parallel")
      Recorded.open_access Recorded.load_payment LedgerClient.init [Recorded.escalate_call] hd
  exact ⟨d, hd, signal, flow, selected, core, e.draws.env.gate_id, hexplains⟩

/-- The gate is approved, and the decision is still explained as pending. -/
theorem explanations_stable_approved :
    ∃ d, explain_decision (UUID.repeated 0xc).str (Run.final (Recorded.service "parallel")
        (World.init LedgerClient.init) [Recorded.escalate_call]).trace_store = .ok d
      ∧ explain_decision (UUID.repeated 0xc).str (Run.final (Recorded.service "parallel")
        (World.init LedgerClient.init)
        [Recorded.escalate_call, Recorded.approve_call]).trace_store = .ok d := by
  have hgiven : (explain_decision (UUID.repeated 0xc).str (Run.final (Recorded.service "parallel")
      (World.init LedgerClient.init) [Recorded.escalate_call]).trace_store).toOption.isSome
        = true := by
    decide +kernel
  obtain ⟨d, hd⟩ := except_of_isSome hgiven
  exact ⟨d, hd, explanations_stable Recorded.platform LedgerClient.backend
    (Recorded.settings "parallel") Recorded.open_access Recorded.escalating_registry
    LedgerClient.init [Recorded.escalate_call] [Recorded.approve_call] (by decide +kernel) hd⟩

end Routes

end DecisionRuntime
