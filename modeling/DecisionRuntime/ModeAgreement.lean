/-
What the two ledger modes record.

In strict mode the trace is built and committed before the execution is dispatched,
otherwise after it, from a result that has its execution id and may have been
through the validator once more. None of this is in the events: `build_events` reads
the fields that `dispatch` and the validator leave alone, and the time the trace was
completed only for `occurred_at`. With a ledger that accepts everything the modes
record the same events (`modes_record_same_facts`).
-/
import DecisionRuntime.EngineAnswers
import DecisionRuntime.GateCommitment

set_option autoImplicit false

namespace DecisionRuntime

/-- The event without the time it occurred. -/
def LedgerEvent.untimed (event : LedgerEvent) : LedgerEvent :=
  { event with occurred_at := ⟨0, none⟩ }

/-- The ledger has accepted all these appends. -/
def AllAccepted (appends : List (LedgerEvent × Except PyError LedgerAppendResult)) : Prop :=
  ∀ append ∈ appends, ∃ answer, append.2 = .ok answer ∧ answer.status = .accepted

instance (appends : List (LedgerEvent × Except PyError LedgerAppendResult)) :
    Decidable (AllAccepted appends) :=
  decidable_of_iff (∀ append ∈ appends,
      append.2.toOption.map LedgerAppendResult.status = some .accepted) (by
    apply forall₂_congr
    intro append _
    rcases append.2 with e | answer
    · simp [Except.toOption]
    · simp [Except.toOption])

/-- The same engine in another ledger mode. -/
def EngineConfig.in_mode (cfg : EngineConfig) (ledger_mode : String) : EngineConfig :=
  { cfg with ledger_mode := ledger_mode }

namespace DecisionRuntimeEngine

open RuntimeLedgerAdapter

variable {σ : Type} {P : Platform} {C : LedgerBackend σ} {cfg : EngineConfig} {env : Env}
  {signal : Signal} {flow : DecisionFlow}

/-! ## What an accepting ledger is given -/

/-- When the ledger accepts all that it is given, it is given all the events. -/
theorem appends_append_all (C : LedgerBackend σ) (events : List LedgerEvent) (w : World σ) :
    ∃ made, (append_all (client C) events w).2.appends = w.appends ++ made ∧
      (AllAccepted made → made.map Prod.fst = events) := by
  induction events generalizing w with
  | nil => exact ⟨[], (List.append_nil _).symm, fun _ => rfl⟩
  | cons event events ih =>
      -- the world after the first append
      let w₁ := ((client C).append event w).2
      have hfirst : w₁.appends = w.appends ++ [(event, (C.append event w.ledger).1)] := by
        show (w.calls ++ [_]).filterMap ExternalCall.appended = _
        rw [List.filterMap_append]
        rfl
      rcases happ : (C.append event w.ledger).1 with e | answer
      · have hrun : (client C).append event w = (.error e, w₁) := Prod.ext happ rfl
        refine ⟨[(event, .error e)], ?_, ?_⟩
        · rw [append_all, Exec.run_bind_error _ hrun, hfirst, happ]
        · intro hall
          obtain ⟨answer, herror, -⟩ := hall _ (List.mem_singleton_self _)
          cases herror
      · have hrun : (client C).append event w = (.ok answer, w₁) := Prod.ext happ rfl
        obtain ⟨made, hmade, hrest⟩ := ih w₁
        refine ⟨(event, .ok answer) :: made, ?_, ?_⟩
        · rw [append_all, Exec.run_bind_ok _ hrun, Exec.run_bind_pure, hmade, hfirst, happ,
            List.append_assoc]
          rfl
        · intro hall
          rw [List.map_cons, hrest (List.forall_mem_cons.mp hall).2]

/-- Publishing appends nothing. -/
theorem HandsOver.appends {event : RuntimeEvent} {w w' : World σ} (h : HandsOver event w w') :
    w'.appends = w.appends := by
  obtain ⟨handed, hcalls, hpublished⟩ := h.calls
  rw [World.appends, hcalls, List.filterMap_append, World.appends]
  have hnone : handed.filterMap ExternalCall.appended = [] := by
    rw [List.filterMap_eq_nil_iff]
    intro call hcall
    have hp := hpublished call hcall
    cases call with
    | append event answer => cases hp
    | publish_event event => rfl
    | publish_execution event => rfl
  rw [hnone, List.append_nil]

/-! ## The events of the two traces -/

/-- Two traces with their results agree on what `build_events` reads, the times apart. -/
structure SameFacts (trace trace' : DecisionTrace) (result result' : DecisionResult) : Prop where
  trace_id : trace.id = trace'.id
  flow_id : trace.flow_id = trace'.flow_id
  flow_version : trace.flow_version = trace'.flow_version
  signal_id : trace.signal_id = trace'.signal_id
  human_gate_requests : trace.human_gate_requests = trace'.human_gate_requests
  id : result.id = result'.id
  status : result.status = result'.status
  outcome : result.outcome = result'.outcome
  selected_node_id : result.selected_node_id = result'.selected_node_id
  confidence : result.confidence = result'.confidence

theorem SameFacts.untimed_events {trace trace' : DecisionTrace} {result result' : DecisionResult}
    (h : SameFacts trace trace' result result') {records : List NodeRecord}
    (hnodes : trace.evaluated_nodes = records.map NodeRecord.toDict)
    (hnodes' : trace'.evaluated_nodes = records.map NodeRecord.toDict) (schema_version : String) :
    ∃ es fs, build_events P schema_version trace result = .ok es
      ∧ build_events P schema_version trace' result' = .ok fs
      ∧ es.map LedgerEvent.untimed = fs.map LedgerEvent.untimed := by
  refine ⟨_, _, build_events_records hnodes, build_events_records hnodes', ?_⟩
  have hsignal : ∀ u, (signal_event P schema_version trace result u).untimed
      = (signal_event P schema_version trace' result' u).untimed := by
    intro u
    simp only [LedgerEvent.untimed, signal_event, h.trace_id, h.flow_id, h.flow_version, h.id]
  have hrecord : ∀ r, (record_event P schema_version trace result r).untimed
      = (record_event P schema_version trace' result' r).untimed := by
    intro r
    simp only [LedgerEvent.untimed, record_event, h.trace_id, h.flow_id, h.flow_version, h.id]
  have hgate : ∀ g, (gate_event P schema_version trace result g).untimed
      = (gate_event P schema_version trace' result' g).untimed := by
    intro g
    simp only [LedgerEvent.untimed, gate_event, h.trace_id, h.flow_id, h.flow_version, h.id]
  have houtcome : (outcome_event P schema_version trace result).untimed
      = (outcome_event P schema_version trace' result').untimed := by
    simp only [LedgerEvent.untimed, outcome_event, h.trace_id, h.flow_id, h.flow_version, h.id,
      h.status, h.outcome, h.selected_node_id, h.confidence]
  simp only [List.map_append, List.map_map, List.map_cons, List.map_nil, Function.comp_def,
    hsignal, hrecord, hgate, houtcome, h.signal_id, h.human_gate_requests]

/-- The trace of a decision holds the same facts whenever it is built, and whether its execution
has been requested or not. -/
theorem sameFacts_create_trace (completed_at completed_at' : Datetime) (signal : Signal)
    (flow : DecisionFlow) {r r' : DecisionResult} (hr : r' = r ∨ r' = requested env r)
    (evaluated_nodes : List PyDict) :
    SameFacts (create_trace completed_at signal flow r evaluated_nodes).1
      (create_trace completed_at' signal flow r' evaluated_nodes).1
      (create_trace completed_at signal flow r evaluated_nodes).2
      (create_trace completed_at' signal flow r' evaluated_nodes).2 := by
  rcases hr with rfl | rfl
  -- a request of the execution writes the execution id and the time only
  all_goals constructor <;> rfl

/-! ## The two modes -/

section Modes

variable {core : DecisionResult} {evaluated_nodes : List PyDict}

/-- In strict mode the appends of an evaluation are those of its commit. -/
theorem appends_strict (hs : cfg.strict)
    (computed : PureEvaluate.pure_evaluate P env.draws signal flow = .ok (core, evaluated_nodes))
    {events : List LedgerEvent}
    (hbuild : build_events P cfg.schema_version
      (commit_trace env signal flow (opened cfg env core) evaluated_nodes).1
      (commit_trace env signal flow (opened cfg env core) evaluated_nodes).2 = .ok events)
    (w : World σ) :
    (evaluate P C cfg env signal flow w).2.appends
      = (append_all (client C) events (gated cfg env core w)).2.appends := by
  have hread : ∀ event_id, Exec.Keeps World.appends ((client C).get_by_event_id event_id) :=
    fun _ _ => rfl
  rw [evaluate_gated computed, Exec.keeps_second (keeps_conclude (fun _ _ _ h => h) hs),
    keeps_strict_commit hread hs, commit_run (client C) hbuild]

/-- In any other mode they are those of the commit after the dispatch. -/
theorem appends_parallel (hp : cfg.parallel)
    (computed : PureEvaluate.pure_evaluate P env.draws signal flow = .ok (core, evaluated_nodes))
    {w : World σ} {result : DecisionResult}
    (hok : (evaluate P C cfg env signal flow w).1 = .ok result) :
    ∃ final, (final = opened cfg env core ∨ final = requested env (opened cfg env core)) ∧
      ∃ w', w'.appends = w.appends ∧ ∀ events, build_events P cfg.schema_version
          (stored_trace env signal flow final evaluated_nodes).1
          (stored_trace env signal flow final evaluated_nodes).2 = .ok events →
        (evaluate P C cfg env signal flow w).2.appends
          = (append_all (client C) events w').2.appends := by
  have hns : ¬ cfg.strict := fun hs => hp.2 hs.2
  have hready : ready cfg env core = opened cfg env core := by rw [ready, if_neg hns]
  have hrun := evaluate_run P C cfg env signal flow w
  rw [hok] at hrun
  generalize (evaluate P C cfg env signal flow w).2 = w' at hrun ⊢
  rcases hrun with _ | ⟨_, hs, _, _, _⟩ | _ | _
    | @⟨core', final, evaluated_nodes', w₁, w₂, computed', passed, hho, hd, -⟩
  case stopped => exact absurd hs hns
  case done =>
    obtain ⟨rfl, rfl⟩ := except_pair_unique computed computed'
    have hfinal : final = opened cfg env core ∨ final = requested env (opened cfg env core) := by
      rw [← hready]
      rcases hd.result with ⟨h, -⟩ | ⟨h, -⟩
      · exact Or.inl h
      · exact Or.inr h
    -- up to the dispatch nothing is appended
    have hw₁ : w₁.appends = w.appends := by rw [passed.not_strict hns]; rfl
    have hw₂ : w₂.appends = w₁.appends := by
      rcases hho with hho | rfl
      · exact hho.appends
      · rfl
    refine ⟨final, hfinal, traced cfg env signal flow final evaluated_nodes
      (remembering cfg signal final w₂), hw₂.trans hw₁, ?_⟩
    intro events hbuild
    rw [committed_after, if_pos hp, commit_run (client C) hbuild]

end Modes

/-- **The modes record the same facts.** Whatever the two ledgers are, as long as they accept what
they are given: the strict mode and any other append the same events for a decision, in the same
order, up to the times they occurred. -/
theorem modes_record_same_facts {τ : Type} (P : Platform) (C : LedgerBackend σ)
    (D : LedgerBackend τ) (cfg : EngineConfig) (hwired : cfg.ledger_adapter = true)
    (ledger_mode : String) (hmode : ledger_mode ≠ "strict") (env : Env) (signal : Signal)
    (flow : DecisionFlow) (w : World σ) (v : World τ)
    (es fs : List (LedgerEvent × Except PyError LedgerAppendResult))
    (hes : (evaluate P C (cfg.in_mode "strict") env signal flow w).2.appends = w.appends ++ es)
    (hfs : (evaluate P D (cfg.in_mode ledger_mode) env signal flow v).2.appends
      = v.appends ++ fs)
    (haccepted : AllAccepted es) (haccepted' : AllAccepted fs)
    (hreturns : ∀ decided, PureEvaluate.pure_evaluate P env.draws signal flow = .ok decided →
      ∃ result, (evaluate P D (cfg.in_mode ledger_mode) env signal flow v).1 = .ok result) :
    es.map (fun append => append.1.untimed) = fs.map (fun append => append.1.untimed) := by
  rcases computed : PureEvaluate.pure_evaluate P env.draws signal flow with
    e | ⟨core, evaluated_nodes⟩
  · -- neither mode gets to its commit
    have hstrict : evaluate P C (cfg.in_mode "strict") env signal flow w = (.error e, w) := by
      rw [evaluate, computed]
      rfl
    have hother : evaluate P D (cfg.in_mode ledger_mode) env signal flow v = (.error e, v) := by
      rw [evaluate, computed]
      rfl
    rw [hstrict, List.self_eq_append_right] at hes
    rw [hother, List.self_eq_append_right] at hfs
    rw [hes, hfs]
  obtain ⟨outcomes, sel, version, brs, -, -, -, -, -, hnodes⟩ :=
    PureEvaluate.pure_evaluate_eq_ok.mp computed
  obtain ⟨result, hok⟩ := hreturns _ computed
  have hs : (cfg.in_mode "strict").strict := ⟨hwired, rfl⟩
  have hp : (cfg.in_mode ledger_mode).parallel := ⟨hwired, hmode⟩
  obtain ⟨final, hfinal, v', hv', hparallel⟩ := appends_parallel hp computed hok
  -- the two traces hold the same facts
  obtain ⟨events, events', hbuild, hbuild', huntimed⟩ :=
    (sameFacts_create_trace env.commit_completed_at env.completed_at signal flow hfinal
      evaluated_nodes).untimed_events (P := P) hnodes hnodes cfg.schema_version
  -- and each commit appends all the events of its trace
  obtain ⟨made, hmade, hall⟩ :=
    appends_append_all C events (gated (cfg.in_mode "strict") env core w)
  obtain ⟨made', hmade', hall'⟩ := appends_append_all D events' v'
  have heq : es = made := by
    have h := appends_strict (C := C) hs computed hbuild w
    rw [hmade, hes] at h
    exact List.append_cancel_left h
  have heq' : fs = made' := by
    have h := hparallel events' hbuild'
    rw [hmade', hfs, hv'] at h
    exact List.append_cancel_left h
  subst heq heq'
  calc es.map (fun append => append.1.untimed)
      = (es.map Prod.fst).map LedgerEvent.untimed := by rw [List.map_map]; rfl
    _ = events.map LedgerEvent.untimed := by rw [hall haccepted]
    _ = events'.map LedgerEvent.untimed := huntimed
    _ = (fs.map Prod.fst).map LedgerEvent.untimed := by rw [hall' haccepted']
    _ = fs.map (fun append => append.1.untimed) := by rw [List.map_map]; rfl

/-- An escalated decision, recorded by the in-memory ledger in either mode. -/
theorem modes_record_same_facts_escalated :
    let env := Recorded.env (UUID.repeated 0xa) (UUID.repeated 0xc)
    let appends := fun ledger_mode =>
      (evaluate Recorded.platform LedgerClient.backend
        ((Recorded.config "strict").in_mode ledger_mode) env Recorded.signal Recorded.escalating
        (World.init LedgerClient.init)).2.appends
    (appends "strict").map (fun append => append.1.step_type)
        = ["signal", "decision", "boundary", "human", "outcome"] ∧
      (appends "strict").map (fun append => append.1.untimed)
        = (appends "parallel").map (fun append => append.1.untimed) := by
  intro env appends
  have hinit : ∀ xs, (World.init LedgerClient.init).appends ++ xs = xs := fun _ => rfl
  refine ⟨by decide +kernel, ?_⟩
  refine modes_record_same_facts Recorded.platform LedgerClient.backend LedgerClient.backend
    (Recorded.config "strict") rfl "parallel" (by decide) env Recorded.signal
    Recorded.escalating (World.init LedgerClient.init) (World.init LedgerClient.init)
    (appends "strict") (appends "parallel") (hinit _).symm (hinit _).symm (by decide +kernel)
    (by decide +kernel) ?_
  intro decided _
  have hok : (evaluate Recorded.platform LedgerClient.backend
      ((Recorded.config "strict").in_mode "parallel") env Recorded.signal Recorded.escalating
      (World.init LedgerClient.init)).1.toOption.isSome = true := by decide +kernel
  exact except_of_isSome hok

end DecisionRuntimeEngine

end DecisionRuntime
