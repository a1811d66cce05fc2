/-
Simulating a stored trace.

A simulation evaluates the signal of the trace on the flow with the id of the trace.
That id is the hash of `"{flow_id}:{version}"`, which is read back from the last colon,
since a version has none; so the flow is the one that the trace was made with. What an
evaluation says of a decision depends on the signal through the context of the
conditions and the confidence, and on nothing that is drawn (`pure_evaluate_facts`), and
what the engine does to a decision afterwards leaves it alone. So the simulation says
the same (`replay_faithful`).
-/
import DecisionRuntime.ResolvedViews

set_option autoImplicit false

namespace DecisionRuntime

/-! ## What is compared -/

/-- What a replay is to say the same of. -/
structure DecisionFacts where
  selected_node_id : String
  status : DecisionStatus
  outcome : DecisionOutcome
  action : Option PyDict
  confidence : Confidence
  conditions_evaluated : ℕ
  conditions_passed : ℕ

def DecisionResult.facts (r : DecisionResult) : DecisionFacts where
  selected_node_id := r.selected_node_id
  status := r.status
  outcome := r.outcome
  action := r.action
  confidence := r.confidence
  conditions_evaluated := r.conditions_evaluated
  conditions_passed := r.conditions_passed

/-- Two signals that differ in their id, their name and their key at most. -/
structure Signal.ReadAlike (signal signal' : Signal) : Prop where
  type : signal'.type = signal.type
  confidence : signal'.confidence = signal.confidence
  payload : signal'.payload = signal.payload
  source : signal'.source = signal.source
  timestamp : signal'.timestamp = signal.timestamp

namespace PureEvaluate

open ConditionEvaluator BoundaryEngine

variable {P : Platform} {draws draws' : Draws} {signal signal' : Signal} {flow : DecisionFlow}

theorem build_context_eq (h : signal.ReadAlike signal') :
    build_context signal' = build_context signal := by
  unfold build_context
  rw [h.type, h.confidence, h.payload, h.source, h.timestamp]

/-- A boundary does the same to results that say the same. -/
theorem apply_dominant_facts {r r' : DecisionResult} (h : r'.facts = r.facts)
    (all_results : List BoundaryResult) :
    (apply_dominant r' all_results).facts = (apply_dominant r all_results).facts := by
  have hfields := h
  simp only [DecisionResult.facts, DecisionFacts.mk.injEq] at hfields
  rcases hdominant : dominant all_results with _ | boundary
  · rw [apply_dominant_none _ hdominant, apply_dominant_none _ hdominant]
    exact h
  · rw [apply_dominant_some _ hdominant, apply_dominant_some _ hdominant]
    have heffect : (apply_effect r' boundary).facts = (apply_effect r boundary).facts := by
      unfold apply_effect
      split_ifs
      all_goals simp [DecisionResult.facts, hfields]
    exact heffect

/-- **What an evaluation depends on.** Of signals that are read alike it says the same and records
the same nodes, or raises the same. -/
theorem pure_evaluate_facts (h : signal.ReadAlike signal') :
    (pure_evaluate P draws' signal' flow).map (fun p => (p.1.facts, p.2))
      = (pure_evaluate P draws signal flow).map (fun p => (p.1.facts, p.2)) := by
  have hinitial : ∀ outcomes sel version,
      (initial draws' signal' flow outcomes sel version).facts
        = (initial draws signal flow outcomes sel version).facts := by
    intro outcomes sel version
    simp [initial, DecisionResult.facts, DecisionResult.populate_canonical_fields, h.confidence]
  unfold pure_evaluate BoundaryEngine.apply
  rw [build_context_eq h]
  rcases evaluate_nodes P (build_context signal) (decision_nodes flow) with e | outcomes
  · rfl
  dsimp only [bind, Except.bind]
  rcases select flow (matched outcomes) with e | sel
  · rfl
  dsimp only
  rcases contract_version sel.selected.config with e | version
  · rfl
  dsimp only
  rcases evaluate_boundaries P (build_context signal) (boundary_nodes flow) with e | brs
  · rfl
  -- every stage has returned, and returned the same
  have hfacts := apply_dominant_facts (hinitial outcomes sel version) brs
  exact congrArg (fun facts => Except.ok (facts, _)) hfacts

end PureEvaluate

/-! ## What an engine makes of it -/

namespace DecisionRuntimeEngine

variable {σ : Type} {P : Platform} {C : LedgerBackend σ} {cfg : EngineConfig} {env : Env}
  {signal : Signal} {flow : DecisionFlow} {core final : DecisionResult}
  {evaluated_nodes : List PyDict} {w : World σ}

/-- The copies that the engine makes of a decision say the same. -/
theorem ready_facts : (ready cfg env core).facts = core.facts := by
  unfold ready opened
  split_ifs <;> rfl

theorem final_facts (h : Final cfg env core final) : final.facts = core.facts := by
  rcases h with ⟨-, rfl⟩ | ⟨-, rfl⟩
  · exact ready_facts
  · exact (show (requested env (ready cfg env core)).facts = (ready cfg env core).facts from
      rfl).trans ready_facts

theorem persisted_facts : (persisted cfg final).facts = final.facts := by
  unfold persisted
  split_ifs <;> rfl

/-- The commit gate, if there is one, lets the evaluation pass. -/
def CommitPasses (P : Platform) (C : LedgerBackend σ) (cfg : EngineConfig) (env : Env)
    (signal : Signal) (flow : DecisionFlow) (w : World σ) : Prop :=
  cfg.strict → ∀ core evaluated_nodes,
    PureEvaluate.pure_evaluate P env.draws signal flow = .ok (core, evaluated_nodes) →
    Accepted P C cfg env signal flow (opened cfg env core) evaluated_nodes (gated cfg env core w)

/-- An evaluation that nothing gets in the way of raises what computing the decision does. -/
theorem evaluate_raised (hclean : env.Clean) (hpasses : CommitPasses P C cfg env signal flow w)
    {e : PyError} (hraised : (evaluate P C cfg env signal flow w).1 = .error e) :
    PureEvaluate.pure_evaluate P env.draws signal flow = .error e := by
  have hrun := evaluate_run P C cfg env signal flow w
  rw [hraised] at hrun
  generalize (evaluate P C cfg env signal flow w).2 = w' at hrun
  rcases hrun with ⟨invalid⟩ | ⟨computed, strict, -, hnot, -⟩ | ⟨-, -, -, hd⟩ | ⟨-, -, -, -, hfault⟩
  · exact invalid
  · exact absurd (hpasses strict _ _ computed) hnot
  · -- a dispatch raises only what a dependency does
    rcases hd with _ | _ | ⟨-, hwhy, -⟩
    rcases hwhy with ⟨-, hfault⟩ | ⟨-, hfault⟩
    · exact absurd hclean.event_bus hfault
    · exact absurd hclean.execution_publisher hfault
  · exact absurd hclean.trace_store hfault.2

/-- It returns what says the same as the decision, and stores the nodes that were looked at. -/
theorem evaluate_returned (hpasses : CommitPasses P C cfg env signal flow w)
    {result : DecisionResult} (hok : (evaluate P C cfg env signal flow w).1 = .ok result) :
    ∃ core evaluated_nodes,
      PureEvaluate.pure_evaluate P env.draws signal flow = .ok (core, evaluated_nodes)
      ∧ result.facts = core.facts
      ∧ (cfg.trace_store = true → ∃ trace,
        (evaluate P C cfg env signal flow w).2.trace_store.get result.trace_id.str = .ok trace
          ∧ trace.evaluated_nodes = evaluated_nodes) := by
  have hrun := evaluate_run P C cfg env signal flow w
  rw [hok] at hrun
  generalize (evaluate P C cfg env signal flow w).2 = w' at hrun ⊢
  rcases hrun with _ | ⟨computed, strict, -, hnot, -⟩ | _ | _
    | @⟨core, final, nodes, _, w₂, computed, _, _, hd⟩
  · exact absurd (hpasses strict _ _ computed) hnot
  · refine ⟨core, nodes, computed, persisted_facts.trans (final_facts hd.final), ?_⟩
    intro hwired
    refine ⟨(stored_trace env signal flow final nodes).1, ?_, rfl⟩
    rw [(ledgerOnly_committed_after P C cfg _ _).trace_store, persisted_trace_id]
    unfold traced
    rw [if_pos hwired]
    exact TraceStore.get_save_same (stored_trace env signal flow final nodes).1 _

end DecisionRuntimeEngine

/-! ## The simulation -/

namespace Routes

open DecisionRuntimeEngine

variable {σ : Type} {P : Platform} {C : LedgerBackend σ} {settings : Settings}
  {auth : AuthSettings} {registry : FlowRegistry}

/-- The flow of a request is one of those that are listed. -/
theorem mem_list_flows_of_prepare {c : EvaluateCall} {signal : Signal} {flow : DecisionFlow}
    (h : prepare P registry c.draws c.body = .ok (signal, flow)) : flow ∈ registry.list_flows := by
  obtain ⟨found, hload, h⟩ := except_bind_eq_ok.mp h
  obtain ⟨signal', -, h⟩ := except_bind_eq_ok.mp h
  obtain ⟨-, rfl⟩ := Prod.mk.inj (Except.ok.inj h)
  have hget : registry.get P c.body.flow_id c.body.flow_version = .ok found := by
    unfold load_flow at hload
    rcases hfound : registry.get P c.body.flow_id c.body.flow_version with e | flow
    · rw [hfound] at hload
      cases e <;> cases hload
    · rw [hfound] at hload
      exact hload
  exact FlowRegistry.mem_list_flows_of_get hget

/-- The signal of a request validates again under a new id and without its key. -/
theorem accepts_simulated {c : EvaluateCall} {signal : Signal} {flow : DecisionFlow}
    (h : prepare P registry c.draws c.body = .ok (signal, flow)) (signal_id : UUID)
    (overrides : Option SignalOverrides) :
    accepts_signal (simulated_signal signal_id signal overrides) := by
  obtain ⟨found, -, h⟩ := except_bind_eq_ok.mp h
  obtain ⟨signal', hbuild, h⟩ := except_bind_eq_ok.mp h
  obtain ⟨rfl, -⟩ := Prod.mk.inj (Except.ok.inj h)
  -- the name is the one given, if it is true, or the type, or a default
  have hname : 1 ≤ (if nonempty c.body.signal.name then c.body.signal.name.getD ""
      else if c.body.signal.type ≠ "" then c.body.signal.type else "api_signal").length := by
    have hpos : ∀ text : String, text ≠ "" → 1 ≤ text.length := by
      intro text hne
      have hlen : text.length ≠ 0 := mt String.length_eq_zero_iff.mp hne
      omega
    split_ifs with hgiven htype
    · exact hpos _ (by simpa [nonempty] using hgiven)
    · exact hpos _ htype
    · decide
  rw [build_signal] at hbuild
  by_cases hvalid : (if nonempty c.body.signal.name then c.body.signal.name.getD ""
      else if c.body.signal.type ≠ "" then c.body.signal.type else "api_signal").length ≤ 256
      ∧ c.body.signal.type.length ≤ 256 ∧ c.body.signal.source.length ≤ 512
      ∧ (c.body.signal.idempotency_key.getD "").length ≤ 512
  · rw [if_pos hvalid] at hbuild
    obtain rfl := Except.ok.inj hbuild
    have hkey : ("" : String).length ≤ 512 := by decide
    exact ⟨hname, hvalid.1, hvalid.2.1, c.body.signal.source_min, hvalid.2.2.1, hkey⟩
  · rw [if_neg hvalid] at hbuild
    cases hbuild

section Simulation

variable {draws : SimulateDraws} {body : SimulateRequest} {store : TraceStore}
  {trace : DecisionTrace} {signal : Signal} {flow : DecisionFlow}

/-- A simulation that finds its trace and its flow evaluates the signal, as it is overridden. -/
theorem simulation_found (htrace : store.get body.trace_id = .ok trace)
    (hsignals : trace.signals = [signal]) (hflow : source_flow registry body trace = .ok flow)
    (haccepts : accepts_signal (simulated_signal draws.signal_id signal body.signal_overrides)) :
    (∀ e, PureEvaluate.pure_evaluate P draws.draws
        (simulated_signal draws.signal_id signal body.signal_overrides) flow = .error e →
      simulation P registry draws body store = .error (simulation_error e)) ∧
    ∀ core evaluated_nodes, PureEvaluate.pure_evaluate P draws.draws
        (simulated_signal draws.signal_id signal body.signal_overrides) flow
        = .ok (core, evaluated_nodes) →
      ∃ response, simulation P registry draws body store = .ok response
        ∧ response.result.facts = core.facts
        ∧ response.trace.evaluated_nodes = evaluated_nodes := by
  have hsource : source_trace body store = .ok trace := by
    unfold source_trace
    rw [htrace]
  have hsignal : original_signal body trace = .ok signal := by
    unfold original_signal
    rw [hsignals]
  -- the simulation goes through to the engine
  have hrun : simulation P registry draws body store
      = ((DecisionRuntimeEngine.simulate P
          (simulated_signal draws.signal_id signal body.signal_overrides) flow draws.draws
          draws.completed_at).mapError simulation_error).map
        (fun p => { source_trace_id := body.trace_id, result := p.1, trace := p.2 }) := by
    unfold simulation
    rw [hsource]
    show (original_signal body trace >>= _) = _
    rw [hsignal]
    show (source_flow registry body trace >>= _) = _
    rw [hflow]
    show (if accepts_signal (simulated_signal draws.signal_id signal body.signal_overrides) then _
      else _) = _
    rw [if_pos haccepts]
    rcases DecisionRuntimeEngine.simulate P
      (simulated_signal draws.signal_id signal body.signal_overrides) flow draws.draws
      draws.completed_at with e | ⟨result, trace⟩ <;> rfl
  constructor
  · intro e hcomputed
    rw [hrun, DecisionRuntimeEngine.simulate, hcomputed]
    rfl
  · intro core evaluated_nodes hcomputed
    rw [hrun, DecisionRuntimeEngine.simulate, hcomputed]
    exact ⟨_, rfl, rfl, rfl⟩

end Simulation

/-- The simulation answers that the decision is the one recorded, made over the same nodes. -/
def SaysSame (answer : Except PyError SimulateResponse) (result : DecisionResult)
    (evaluated_nodes : List PyDict) : Prop :=
  ∃ response, answer = .ok response ∧ response.result.facts = result.facts
    ∧ response.trace.evaluated_nodes = evaluated_nodes

/-- It answers what `evaluate` does: an engine that nothing fails, and whose ledger takes what it
commits, raises the same, or returns a decision and stores a trace that say the same. -/
def AnswersLikeEvaluate (P : Platform) (answer : Except PyError SimulateResponse)
    (signal : Signal) (flow : DecisionFlow) : Prop :=
  ∀ (τ : Type) (C : LedgerBackend τ) (cfg : EngineConfig) (env : Env) (v : World τ), env.Clean →
    CommitPasses P C cfg env signal flow v →
    (∀ e, (DecisionRuntimeEngine.evaluate P C cfg env signal flow v).1 = .error e →
      answer = .error (simulation_error e)) ∧
    ∀ result, (DecisionRuntimeEngine.evaluate P C cfg env signal flow v).1 = .ok result →
      ∃ response, answer = .ok response ∧ response.result.facts = result.facts
        ∧ (cfg.trace_store = true → ∃ trace,
          (DecisionRuntimeEngine.evaluate P C cfg env signal flow v).2.trace_store.get
            result.trace_id.str = .ok trace
          ∧ trace.evaluated_nodes = response.trace.evaluated_nodes)

/-- **Replay is faithful.** The simulation of a stored trace finds the flow it was made with, says
what the trace says when nothing is overridden, answers what `evaluate` does on the signal with its
payload updated when the payload is, and changes nothing. -/
theorem replay_faithful (P : Platform) (files : List FlowFile)
    (hinj : ∀ raw ∈ files, ∀ raw' ∈ files,
      P.uuid5 FlowRegistry.NAMESPACE_DNS (FlowRegistry.flow_name raw.flow_id raw.version)
        = P.uuid5 FlowRegistry.NAMESPACE_DNS (FlowRegistry.flow_name raw'.flow_id raw'.version) →
      FlowRegistry.flow_name raw.flow_id raw.version
        = FlowRegistry.flow_name raw'.flow_id raw'.version)
    (registry : FlowRegistry) (hload : FlowRegistry.load_all P files = .ok registry)
    (C : LedgerBackend σ) (settings : Settings) (auth : AuthSettings) (s : σ)
    (calls : List RuntimeCall) (draws : SimulateDraws) (body : SimulateRequest)
    (trace : DecisionTrace)
    (hstored : (Run.final (RuntimeCall.run P C settings auth registry) (World.init s)
      calls).trace_store.get body.trace_id = .ok trace) :
    let w := Run.final (RuntimeCall.run P C settings auth registry) (World.init s) calls
    (simulate_decision P registry draws body w).2 = w ∧
      ∃ e signal flow result, .evaluate e ∈ calls
        ∧ prepare P registry e.draws e.body = .ok (signal, flow)
        ∧ trace.signals = [signal] ∧ trace.decision_results = [result]
        ∧ source_flow registry body trace = .ok flow
        ∧ (body.signal_overrides = none →
          SaysSame (simulate_decision P registry draws body w).1 result trace.evaluated_nodes)
        ∧ ∀ payload, body.signal_overrides = some ⟨none, some payload⟩ →
          AnswersLikeEvaluate P (simulate_decision P registry draws body w).1
            { signal with payload := merge signal.payload payload } flow := by
  intro w
  refine ⟨rfl, ?_⟩
  -- where the trace comes from: a request of the run, whose flow is in the registry
  have hprov : RuntimeCall.Provenance P settings registry calls w :=
    RuntimeCall.provenance_run P C settings auth registry s calls
  obtain ⟨⟨e, hcall, signal, flow, core, nodes, final, hcomputed, hfinal, rfl⟩, -⟩ :=
    hprov.traces.get hstored
  have hlisted := mem_list_flows_of_prepare hcomputed.prepared
  have hflow : source_flow registry body (stored_trace e.draws.env signal flow final nodes).1
      = .ok flow := by
    unfold source_flow
    rw [show (stored_trace e.draws.env signal flow final nodes).1.flow_id = flow.id from rfl,
      FlowRegistry.find_by_id hload hinj hlisted]
  let simulated := simulated_signal draws.signal_id signal body.signal_overrides
  obtain ⟨hraised, hreturned⟩ := simulation_found (P := P) hstored rfl hflow
    (accepts_simulated hcomputed.prepared draws.signal_id body.signal_overrides)
  refine ⟨e, signal, flow, final.populate_canonical_fields, hcall, hcomputed.prepared, rfl, rfl,
    hflow, ?_, ?_⟩
  · intro hnone
    -- without overrides the signal differs in its id and its key only
    have halike : signal.ReadAlike simulated := by
      show signal.ReadAlike (simulated_signal draws.signal_id signal body.signal_overrides)
      rw [hnone]
      exact ⟨rfl, rfl, rfl, rfl, rfl⟩
    obtain ⟨-, hsame⟩ := except_of_map_eq (PureEvaluate.pure_evaluate_facts (P := P) halike)
    obtain ⟨⟨core', nodes'⟩, hsimulated, hfacts⟩ := hsame _ hcomputed.computed
    obtain ⟨hdecision, rfl⟩ := Prod.mk.inj hfacts
    obtain ⟨response, hok, hresult, hnodes⟩ := hreturned core' nodes' hsimulated
    refine ⟨response, hok, hresult.trans (hdecision.trans ?_), hnodes⟩
    exact (final_facts hfinal).symm
  · intro payload hoverride τ C' cfg env v hclean hpasses
    -- with one, it does from the original signal with the payload updated
    have halike : ({ signal with payload := merge signal.payload payload } : Signal).ReadAlike
        simulated := by
      show ({ signal with payload := merge signal.payload payload } : Signal).ReadAlike
        (simulated_signal draws.signal_id signal body.signal_overrides)
      rw [hoverride]
      exact ⟨rfl, rfl, rfl, rfl, rfl⟩
    obtain ⟨hfails, hsame⟩ := except_of_map_eq (PureEvaluate.pure_evaluate_facts (P := P) halike)
    constructor
    · intro e' he'
      exact hraised e' (hfails e' (evaluate_raised hclean hpasses he'))
    · intro result hresult
      obtain ⟨core', nodes', hcore, hdecision', htrace⟩ := evaluate_returned hpasses hresult
      obtain ⟨⟨core'', nodes''⟩, hsimulated, hfacts⟩ := hsame _ hcore
      obtain ⟨hdecision, rfl⟩ := Prod.mk.inj hfacts
      obtain ⟨response, hok, hanswer, hnodes⟩ := hreturned core'' nodes'' hsimulated
      refine ⟨response, hok, hanswer.trans (hdecision.trans hdecision'.symm), ?_⟩
      intro hwired
      obtain ⟨trace, hget, hrecorded⟩ := htrace hwired
      exact ⟨trace, hget, hrecorded.trans hnodes.symm⟩

end Routes

namespace Recorded

/-- The file of the flow with the one decision, and the registry that has loaded it. -/
def payment_file : FlowFile where
  flow_id := "payment"
  version := "1.0.0"
  entry_node_id := "small_amount"
  nodes := (flow none).nodes

def loaded_registry : FlowRegistry :=
  (FlowRegistry.load_all platform [payment_file]).toOption.getD FlowRegistry.init

theorem load_payment : FlowRegistry.load_all platform [payment_file] = .ok loaded_registry := by
  have hloads : (FlowRegistry.load_all platform [payment_file]).toOption.isSome = true := by
    decide +kernel
  exact except_eq_ok_getD hloads FlowRegistry.init

/-- The simulation of the trace that the escalated call leaves, as it was made. -/
def simulate_request : SimulateRequest := { trace_id := (UUID.repeated 0xa).str }

def simulate_draws : SimulateDraws where
  signal_id := UUID.ofInt 30
  draws := draws (UUID.ofInt 31) (UUID.ofInt 32)
  completed_at := ⟨30, some 0⟩

end Recorded

namespace Routes

theorem replay_faithful_recorded :
    let w := Run.final (RuntimeCall.run Recorded.platform LedgerClient.backend
      (Recorded.settings "parallel") Recorded.open_access Recorded.loaded_registry)
      (World.init LedgerClient.init) [Recorded.escalate_call]
    ∃ trace result, w.trace_store.get (UUID.repeated 0xa).str = .ok trace
      ∧ trace.decision_results = [result]
      ∧ SaysSame (simulate_decision Recorded.platform Recorded.loaded_registry
          Recorded.simulate_draws Recorded.simulate_request w).1 result trace.evaluated_nodes := by
  intro w
  have hfound : (w.trace_store.get (UUID.repeated 0xa).str).toOption.isSome = true := by
    decide +kernel
  obtain ⟨trace, hstored⟩ := except_of_isSome hfound
  -- of one file there are no two names
  have hinj : ∀ raw ∈ [Recorded.payment_file], ∀ raw' ∈ [Recorded.payment_file],
      Recorded.platform.uuid5 FlowRegistry.NAMESPACE_DNS
          (FlowRegistry.flow_name raw.flow_id raw.version)
        = Recorded.platform.uuid5 FlowRegistry.NAMESPACE_DNS
          (FlowRegistry.flow_name raw'.flow_id raw'.version) →
      FlowRegistry.flow_name raw.flow_id raw.version
        = FlowRegistry.flow_name raw'.flow_id raw'.version := by
    intro raw hraw raw' hraw' _
    rw [List.mem_singleton.mp hraw, List.mem_singleton.mp hraw']
  obtain ⟨-, _, _, _, result, -, -, -, hresult, -, hsame, -⟩ := replay_faithful Recorded.platform
    [Recorded.payment_file] hinj Recorded.loaded_registry Recorded.load_payment
    LedgerClient.backend (Recorded.settings "parallel") Recorded.open_access LedgerClient.init
    [Recorded.escalate_call] Recorded.simulate_draws Recorded.simulate_request trace hstored
  exact ⟨trace, result, hstored, hresult, hsame rfl⟩

end Routes

end DecisionRuntime
