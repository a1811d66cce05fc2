/-
Where the traces of the trace store come from, over runs of the service.

A trace is stored by the evaluation that made the decision, from the result it has in
its hands at that moment, and never again: no other route writes the trace store
(`trace_store_call`). What a trace holds can therefore be read off the request that
the evaluation handled (`Files`), and so can what a gate holds back (`Opened`).
-/
import DecisionRuntime.RuntimeRoutes

set_option autoImplicit false

namespace DecisionRuntime

namespace TraceStore

/-! ## What the store holds -/

/-- Every trace in the store satisfies `p`, and is found by its own ids only. -/
structure All (p : DecisionTrace → Prop) (s : TraceStore) : Prop where
  by_trace_id : ∀ key trace, s.by_trace_id.get key = some trace → p trace ∧ key = trace.id.str
  by_decision_id : ∀ key trace, s.by_decision_id.get key = some trace →
    p trace ∧ FoundBy trace key

section All

variable {p : DecisionTrace → Prop} {s : TraceStore}

theorem all_init (p : DecisionTrace → Prop) : All p init where
  by_trace_id _ _ h := nomatch h
  by_decision_id _ _ h := nomatch h

theorem All.mono {q : DecisionTrace → Prop} (h : All p s) (hpq : ∀ trace, p trace → q trace) :
    All q s := by
  refine ⟨?_, ?_⟩
  · intro key trace hget
    obtain ⟨hp, hkey⟩ := h.by_trace_id key trace hget
    exact ⟨hpq trace hp, hkey⟩
  · intro key trace hget
    obtain ⟨hp, hkey⟩ := h.by_decision_id key trace hget
    exact ⟨hpq trace hp, hkey⟩

theorem All.save (h : All p s) {trace : DecisionTrace} (hnew : p trace) :
    All p (TraceStore.save trace s) := by
  refine ⟨?_, ?_⟩
  · intro key found hget
    have hget' : (s.by_trace_id.set trace.id.str trace).get key = some found := hget
    rw [Dict.get_set] at hget'
    split_ifs at hget' with hkey
    · obtain rfl := Option.some.inj hget'
      exact ⟨hnew, hkey⟩
    · exact h.by_trace_id key found hget'
  · intro key found hget
    rcases of_by_decision_id_save hget with ⟨rfl, hby⟩ | hold
    · exact ⟨hnew, hby⟩
    · exact h.by_decision_id key found hold

theorem All.get (h : All p s) {trace_id : String} {trace : DecisionTrace}
    (hget : s.get trace_id = .ok trace) : p trace ∧ trace_id = trace.id.str := by
  unfold TraceStore.get at hget
  rcases hfound : s.by_trace_id.get trace_id with _ | found
  · rw [hfound] at hget
    cases hget
  · rw [hfound] at hget
    obtain rfl := Except.ok.inj hget
    exact h.by_trace_id trace_id found hfound

theorem All.get_by_decision_id (h : All p s) {decision_id : String} {trace : DecisionTrace}
    (hget : s.get_by_decision_id decision_id = .ok trace) :
    p trace ∧ FoundBy trace decision_id := by
  unfold TraceStore.get_by_decision_id at hget
  rcases hfound : s.by_decision_id.get decision_id with _ | found
  · rw [hfound] at hget
    cases hget
  · rw [hfound] at hget
    obtain rfl := Except.ok.inj hget
    exact h.by_decision_id decision_id found hfound

/-- The listed traces are stored ones. -/
theorem All.list_recent (h : All p s) {limit : ℕ} {trace : DecisionTrace}
    (hmem : trace ∈ s.list_recent limit) : p trace ∧ s.get trace.id.str = .ok trace := by
  have hvalue : trace ∈ s.by_trace_id.values :=
    (List.perm_insertionSort _ _).mem_iff.mp (List.mem_of_mem_take hmem)
  obtain ⟨⟨key, trace'⟩, hentry, rfl⟩ := List.mem_map.mp hvalue
  have hget := Dict.get_of_mem hentry
  obtain ⟨hp, hkey⟩ := h.by_trace_id key trace' hget
  rw [hkey] at hget
  refine ⟨hp, ?_⟩
  unfold TraceStore.get
  rw [hget]

end All

end TraceStore

/-! ## What an evaluation stores -/

namespace DecisionRuntimeEngine

variable {σ : Type} {P : Platform} {C : LedgerBackend σ} {cfg : EngineConfig} {env : Env}
  {signal : Signal} {flow : DecisionFlow}

/-- The result that the trace of a decision is built from. -/
def Final (cfg : EngineConfig) (env : Env) (core final : DecisionResult) : Prop :=
  (core.status ≠ .confirmed ∧ final = ready cfg env core) ∨
    core.status = .confirmed ∧ final = requested env (ready cfg env core)

theorem Dispatch.final {core final : DecisionResult} {w w' : World σ}
    (h : Dispatch cfg env (ready cfg env core) w (.ok final) w') : Final cfg env core final := by
  rcases h.result with ⟨rfl, hst, -⟩ | ⟨rfl, hst, -⟩
  · exact Or.inl ⟨by rwa [ready_status] at hst, rfl⟩
  · exact Or.inr ⟨by rwa [ready_status] at hst, rfl⟩

/-- An `evaluate` stores the trace of its decision, or nothing. -/
theorem evaluate_trace_store (P : Platform) (C : LedgerBackend σ) (cfg : EngineConfig) (env : Env)
    (signal : Signal) (flow : DecisionFlow) (w : World σ) :
    (evaluate P C cfg env signal flow w).2.trace_store = w.trace_store ∨
      ∃ core evaluated_nodes final,
        PureEvaluate.pure_evaluate P env.draws signal flow = .ok (core, evaluated_nodes)
        ∧ Final cfg env core final
        ∧ (evaluate P C cfg env signal flow w).2.trace_store
          = w.trace_store.save (stored_trace env signal flow final evaluated_nodes).1 := by
  have hrun := evaluate_run P C cfg env signal flow w
  generalize (evaluate P C cfg env signal flow w).1 = answer at hrun
  generalize (evaluate P C cfg env signal flow w).2 = w' at hrun ⊢
  rcases hrun with _ | ⟨_, _, hframe⟩ | ⟨_, passed, hho⟩
    | ⟨computed, passed, hho, hd, _, hstore⟩ | ⟨computed, passed, hho, hd⟩
  case invalid => exact Or.inl rfl
  case stopped => exact Or.inl hframe.trace_store
  case undispatched => exact Or.inl (upToDispatch passed hho).trace_store
  case unsaved =>
    -- the store may have raised before it wrote, or after
    have hbefore := (upToDispatch passed hho).trace_store
    rcases hstore with rfl | rfl
    · exact Or.inl hbefore
    · exact Or.inr ⟨_, _, _, computed, hd.final, by rw [← hbefore]⟩
  case done =>
    have hbefore := (upToDispatch passed hho).trace_store
    rw [(ledgerOnly_committed_after P C cfg _ _).trace_store]
    unfold traced
    by_cases hwired : cfg.trace_store = true
    · right
      refine ⟨_, _, _, computed, hd.final, ?_⟩
      rw [← hbefore]
      simp [hwired, remembering]
    · left
      simpa [hwired, remembering] using hbefore

end DecisionRuntimeEngine

/-! ## What a request computes -/

namespace Routes

open DecisionRuntimeEngine

variable {σ : Type} {P : Platform} {C : LedgerBackend σ} {settings : Settings}
  {auth : AuthSettings} {registry : FlowRegistry}

/-- Handling the request evaluates this signal on this flow, and this is the decision. -/
structure Computed (P : Platform) (registry : FlowRegistry) (c : EvaluateCall) (signal : Signal)
    (flow : DecisionFlow) (core : DecisionResult) (evaluated_nodes : List PyDict) : Prop where
  prepared : prepare P registry c.draws c.body = .ok (signal, flow)
  computed : PureEvaluate.pure_evaluate P c.draws.env.draws signal flow
    = .ok (core, evaluated_nodes)

/-- A request computes one decision at most. -/
theorem Computed.unique {c : EvaluateCall} {signal signal' : Signal} {flow flow' : DecisionFlow}
    {core core' : DecisionResult} {nodes nodes' : List PyDict}
    (h : Computed P registry c signal flow core nodes)
    (h' : Computed P registry c signal' flow' core' nodes') : core = core' := by
  obtain ⟨rfl, rfl⟩ := except_pair_unique h.prepared h'.prepared
  exact (except_pair_unique h.computed h'.computed).1

/-- The trace is the one that handling the request stores. -/
def Files (P : Platform) (settings : Settings) (registry : FlowRegistry) (c : EvaluateCall)
    (trace : DecisionTrace) : Prop :=
  ∃ signal flow core evaluated_nodes final,
    Computed P registry c signal flow core evaluated_nodes
      ∧ Final settings.engine c.draws.env core final
      ∧ trace = (stored_trace c.draws.env signal flow final evaluated_nodes).1

/-- The result is that of the gate that handling the request opens, as far as its ids go. -/
def Opened (P : Platform) (registry : FlowRegistry) (c : EvaluateCall) (held : DecisionResult) :
    Prop :=
  ∃ signal flow core evaluated_nodes, Computed P registry c signal flow core evaluated_nodes
    ∧ core.status = .pending_human ∧ held.id = core.id ∧ held.trace_id = core.trace_id

/-- A request stores the trace of its own decision, or nothing. -/
theorem evaluate_trace_store (P : Platform) (C : LedgerBackend σ) (settings : Settings)
    (registry : FlowRegistry) (c : EvaluateCall) (w : World σ) :
    (evaluate P C settings registry c.draws c.body w).2.trace_store = w.trace_store ∨
      ∃ trace, Files P settings registry c trace ∧
        (evaluate P C settings registry c.draws c.body w).2.trace_store
          = w.trace_store.save trace := by
  rcases route_world P C settings registry c.draws c.body w with
    hsame | ⟨signal, flow, remembered, prepared, hworld⟩
  · exact Or.inl (congrArg World.trace_store hsame)
  rw [hworld]
  rcases DecisionRuntimeEngine.evaluate_trace_store P C settings.engine c.draws.env signal flow w
    with hstore | ⟨core, evaluated_nodes, final, computed, hfinal, hstore⟩
  · exact Or.inl hstore
  · exact Or.inr ⟨_, ⟨signal, flow, core, evaluated_nodes, final, ⟨prepared, computed⟩, hfinal,
      rfl⟩, hstore⟩

/-- A request opens the gate of its own decision, or none. -/
theorem evaluate_gate_store (P : Platform) (C : LedgerBackend σ) (settings : Settings)
    (registry : FlowRegistry) (c : EvaluateCall) (w : World σ) :
    (evaluate P C settings registry c.draws c.body w).2.human_gate_manager = w.human_gate_manager ∨
      ∃ signal flow core evaluated_nodes, Computed P registry c signal flow core evaluated_nodes
        ∧ core.status = .pending_human
        ∧ (evaluate P C settings registry c.draws c.body w).2.human_gate_manager
          = HumanGateManager.created c.draws.env.gate_id c.draws.env.gate_created_at core none none
              w.human_gate_manager := by
  rcases route_world P C settings registry c.draws c.body w with
    hsame | ⟨signal, flow, remembered, prepared, hworld⟩
  · exact Or.inl (congrArg World.human_gate_manager hsame)
  rw [hworld]
  rcases computed : PureEvaluate.pure_evaluate P c.draws.env.draws signal flow with
    e | ⟨core, evaluated_nodes⟩
  · -- nothing was decided, so that no gate was opened
    rw [DecisionRuntimeEngine.evaluate, computed]
    exact Or.inl rfl
  · dsimp only
    rw [evaluate_gates computed]
    unfold gates_opened
    by_cases hopen : core.status = .pending_human ∧ settings.engine.human_gate_manager = true
    · rw [if_pos hopen]
      exact Or.inr ⟨signal, flow, core, evaluated_nodes, ⟨prepared, computed⟩, hopen.1, rfl⟩
    · rw [if_neg hopen]
      exact Or.inl rfl

theorem logged_trace_store (event : LedgerEvent) (w : World σ) :
    (logged C settings event w).trace_store = w.trace_store := by
  unfold logged
  split_ifs <;> rfl

theorem logged_human_gate_manager (event : LedgerEvent) (w : World σ) :
    (logged C settings event w).human_gate_manager = w.human_gate_manager := by
  unfold logged
  split_ifs <;> rfl

end Routes

/-! ## Runs -/

namespace RuntimeCall

open Routes HumanGateManager

variable {σ : Type} {P : Platform} {C : LedgerBackend σ} {settings : Settings}
  {auth : AuthSettings} {registry : FlowRegistry} {w : World σ}

/-- What the two routes that resolve gates are. -/
def gate_action : RuntimeCall → Option (GateAction × GateDraws × GateRequest)
  | .approve_gate draws request => some (approve_action, draws, request)
  | .reject_gate draws request => some (reject_action, draws, request)
  | _ => none

theorem run_of_gate_action {c : RuntimeCall} {action : GateAction} {draws : GateDraws}
    {request : GateRequest} (h : c.gate_action = some (action, draws, request)) :
    c.run P C settings auth registry = resolve_gate P C settings auth action draws request := by
  cases c with
  | evaluate e => cases h
  | simulate draws body => cases h
  | approve_gate draws' request' =>
      cases h
      rfl
  | reject_gate draws' request' =>
      cases h
      rfl

/-- There are two things to do to a gate. -/
theorem action_cases {c : RuntimeCall} {action : GateAction} {draws : GateDraws}
    {request : GateRequest} (h : c.gate_action = some (action, draws, request)) :
    action = approve_action ∨ action = reject_action := by
  cases c with
  | evaluate e => cases h
  | simulate draws body => cases h
  | approve_gate draws' request' =>
      cases h
      exact Or.inl rfl
  | reject_gate draws' request' =>
      cases h
      exact Or.inr rfl

/-- A simulation changes nothing. -/
theorem run_simulate (draws : SimulateDraws) (body : SimulateRequest) (w : World σ) :
    (RuntimeCall.simulate draws body).run P C settings auth registry w
      = ((simulation P registry draws body w.trace_store).map SimulateResponse.result, w) := by
  show (SimulateResponse.result <$> simulate_decision P registry draws body) w = _
  rw [Exec.run_map]
  rfl

/-- The three kinds of calls: an evaluation, the resolution of a gate, and a simulation. -/
theorem cases_on (c : RuntimeCall) : (∃ e, c = .evaluate e) ∨
    (∃ action draws request, c.gate_action = some (action, draws, request)) ∨
    ∃ draws body, c = .simulate draws body := by
  cases c with
  | evaluate e => exact Or.inl ⟨e, rfl⟩
  | approve_gate draws request => exact Or.inr (Or.inl ⟨_, _, _, rfl⟩)
  | reject_gate draws request => exact Or.inr (Or.inl ⟨_, _, _, rfl⟩)
  | simulate draws body => exact Or.inr (Or.inr ⟨draws, body, rfl⟩)

/-- Only an evaluation writes the trace store. -/
theorem trace_store_call (P : Platform) (C : LedgerBackend σ) (settings : Settings)
    (auth : AuthSettings) (registry : FlowRegistry) (hkeys : SameKeys w.human_gate_manager)
    (c : RuntimeCall) :
    (c.run P C settings auth registry w).2.trace_store = w.trace_store ∨
      ∃ e trace, c = .evaluate e ∧ Files P settings registry e trace ∧
        (c.run P C settings auth registry w).2.trace_store = w.trace_store.save trace := by
  rcases cases_on c with ⟨e, rfl⟩ | ⟨action, draws, request, haction⟩ | ⟨draws, body, rfl⟩
  · rcases Routes.evaluate_trace_store P C settings registry e w with h | ⟨trace, hfiles, h⟩
    · exact Or.inl h
    · exact Or.inr ⟨e, trace, rfl, hfiles, h⟩
  · left
    rw [run_of_gate_action haction]
    rcases resolve_gate_run P C settings auth action draws request hkeys with
      ⟨e, h, -⟩ | ⟨actor, gate, held, -, h, -⟩
    · rw [h]
    · rw [h, logged_trace_store]
      rfl
  · rw [run_simulate]
    exact Or.inl rfl

/-- Where the traces in the store and the results behind the gates come from. -/
structure Provenance (P : Platform) (settings : Settings) (registry : FlowRegistry)
    (calls : List RuntimeCall) (w : World σ) : Prop where
  traces : w.trace_store.All (fun trace => ∃ e, .evaluate e ∈ calls ∧
    Files P settings registry e trace)
  held : HeldBack (fun held => ∃ e, .evaluate e ∈ calls ∧ Opened P registry e held)
    w.human_gate_manager

theorem heldBack_mono {p q : DecisionResult → Prop} {m : HumanGateManager} (h : HeldBack p m)
    (hpq : ∀ result, p result → q result) : HeldBack q m :=
  ⟨h.same_keys, fun key result hget => hpq result (h.results key result hget)⟩

/-- **The step lemma.** -/
theorem Provenance.step {calls : List RuntimeCall}
    (h : Provenance P settings registry calls w) (c : RuntimeCall) :
    Provenance P settings registry (calls ++ [c]) (c.run P C settings auth registry w).2 := by
  have htraces := h.traces.mono (q := fun trace => ∃ e, .evaluate e ∈ calls ++ [c] ∧
      Files P settings registry e trace) (by
    rintro trace ⟨e, he, hfiles⟩
    exact ⟨e, List.mem_append_left _ he, hfiles⟩)
  have hheld := heldBack_mono h.held (q := fun held => ∃ e, .evaluate e ∈ calls ++ [c] ∧
      Opened P registry e held) (by
    rintro held ⟨e, he, hopened⟩
    exact ⟨e, List.mem_append_left _ he, hopened⟩)
  constructor
  -- only an evaluation writes the trace store
  · rcases trace_store_call P C settings auth registry h.held.same_keys c with
      hsame | ⟨e, trace, rfl, hfiles, hsave⟩
    · rw [hsame]
      exact htraces
    · rw [hsave]
      exact htraces.save ⟨e, by simp, hfiles⟩
  · rcases cases_on c with ⟨e, rfl⟩ | ⟨action, draws, request, haction⟩ | ⟨draws, body, rfl⟩
    · rcases evaluate_gate_store P C settings registry e w with
        hsame | ⟨signal, flow, core, nodes, hcomputed, hst, hopen⟩
      · show HeldBack _
          (Routes.evaluate P C settings registry e.draws e.body w).2.human_gate_manager
        rw [hsame]
        exact hheld
      · show HeldBack _
          (Routes.evaluate P C settings registry e.draws e.body w).2.human_gate_manager
        rw [hopen]
        exact hheld.set _ _ ⟨e, by simp, signal, flow, core, nodes, hcomputed, hst, rfl, rfl⟩
    · rw [run_of_gate_action haction]
      rcases resolve_gate_run P C settings auth action draws request h.held.same_keys with
        ⟨e, hrun, -⟩ | ⟨actor, gate, held, hresolves, hrun, -⟩
      · rw [hrun]
        exact hheld
      · rw [hrun, logged_human_gate_manager]
        -- the result that is put back keeps its ids
        refine hheld.set _ _ ?_
        obtain ⟨e, he, signal, flow, core, nodes, hcomputed, hst, hid, htrace⟩ :=
          hheld.results _ _ hresolves.held
        have hupdate : (action.resolution.update draws.now held).id = held.id ∧
            (action.resolution.update draws.now held).trace_id = held.trace_id := by
          rcases action_cases haction with rfl | rfl
          · exact ⟨rfl, rfl⟩
          · exact ⟨rfl, rfl⟩
        exact ⟨e, he, signal, flow, core, nodes, hcomputed, hst, hupdate.1.trans hid,
          hupdate.2.trans htrace⟩
    · rw [run_simulate]
      exact hheld

/-- **The run lemma.** -/
theorem provenance_run (P : Platform) (C : LedgerBackend σ) (settings : Settings)
    (auth : AuthSettings) (registry : FlowRegistry) (s : σ) (calls : List RuntimeCall) :
    Provenance P settings registry calls
      (Run.final (RuntimeCall.run P C settings auth registry) (World.init s) calls) := by
  induction calls using List.reverseRecOn with
  | nil => exact ⟨TraceStore.all_init _, heldBack_init _⟩
  | append_singleton calls c ih =>
      rw [Run.final_concat]
      exact ih.step c

end RuntimeCall

end DecisionRuntime
