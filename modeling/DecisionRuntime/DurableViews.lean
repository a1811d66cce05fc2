/-
What a restart takes away, and what it leaves.

The trace store and the gates are in memory, and a durable ledger is not. `Occurrence`
is a request of any route or a restart, and the run lemma is about one trace: once its
id is drawn no more, the ledger adds to its events nothing but resolutions of gates
(`traced_run`), which the projector passes over. So `GET /traces/{trace_id}` serves
a trace that is stored until the next restart, and one that the ledger projects ever
after (`views_durable`). A trace that is not shown may come to be: a resolution is an
event of its trace, and one event is enough for a projection.

The gates have no such second source: one that was open at a restart is unknown to
the routes afterwards, and the ledger hears no more of it (`gates_lost`).
-/
import DecisionRuntime.AuditTrail
import DecisionRuntime.RestartRecovery

set_option autoImplicit false

namespace DecisionRuntime

/-! ## What the projector can read -/

namespace LedgerProjector

open RuntimeLedgerAdapter

/-- An event that the projector does not stumble over: a node entry is of a node, and an outcome has
a confidence and a node id, if any. -/
structure Legible (P : Platform) (event : LedgerEvent) : Prop where
  node_id : step_name event.step_type ∈ NODE_STEPS → ∃ node_id,
    (PyDict.get event.payload "node_id").getD (.str event.step_id) = .str node_id
  outcome : step_name event.step_type = "outcome" → ∃ confidence node_id,
    confidence_of P event.payload = .ok confidence ∧ selected_of event.payload = .ok node_id

section Legible

variable {P : Platform} {schema_version : String} {trace : DecisionTrace} {result : DecisionResult}
  {event : LedgerEvent}

/-- Steps that the projector passes over, or takes an id from, are legible as they are. -/
theorem legible_of_step {step_type : String} (h : step_name event.step_type = step_type)
    (hnode : step_type ∉ NODE_STEPS) (houtcome : step_type ≠ "outcome") : Legible P event where
  node_id hmem := absurd (h ▸ hmem) hnode
  outcome heq := absurd (h.symm.trans heq) houtcome

/-- The record of a node is its payload; as an outcome it says nothing of a confidence. -/
theorem legible_record (r : NodeRecord) :
    Legible P (record_event P schema_version trace result r) where
  node_id _ := ⟨r.node_id, rfl⟩
  outcome _ := by
    refine ⟨⟨1, zero_le_one, le_refl 1⟩, "", ?_, rfl⟩
    have hfloat : float_of P ((PyDict.get r.toDict "confidence").getD (.float (.finite 1)))
        = .ok (.finite 1) := rfl
    show confidence_of P r.toDict = _
    rw [confidence_of, hfloat, except_ok_bind]
    exact dif_pos ⟨zero_le_one, le_refl 1⟩

theorem legible_outcome : Legible P (outcome_event P schema_version trace result) where
  node_id hmem := by
    rw [step_outcome] at hmem
    exact absurd hmem (by decide)
  outcome _ := by
    refine ⟨result.confidence, result.selected_node_id, ?_, rfl⟩
    have hfloat : float_of P ((PyDict.get (outcome_event P schema_version trace result).payload
        "confidence").getD (.float (.finite 1))) = .ok (.finite result.confidence.val) := rfl
    rw [confidence_of, hfloat, except_ok_bind]
    exact dif_pos ⟨result.confidence.2, result.confidence.3⟩

/-- **What the runtime commits, the projector can read.** -/
theorem legible_events {records : List NodeRecord} {events : List LedgerEvent}
    (h : trace.evaluated_nodes = records.map NodeRecord.toDict)
    (hbuild : build_events P schema_version trace result = .ok events) :
    ∀ event ∈ events, Legible P event := by
  rw [build_events_records h] at hbuild
  rw [← Except.ok.inj hbuild]
  intro event hevent
  simp only [List.mem_append, List.mem_map, List.mem_singleton] at hevent
  obtain ((⟨signal_id, -, rfl⟩ | ⟨r, -, rfl⟩) | ⟨gate, -, rfl⟩) | rfl := hevent
  · exact legible_of_step (step_signal signal_id) (by decide) (by decide)
  · exact legible_record r
  · exact legible_of_step (step_gate gate) (by decide) (by decide)
  · exact legible_outcome

end Legible

end LedgerProjector

/-! ## What a call adds to the ledger -/

namespace DecisionRuntimeEngine

open RuntimeLedgerAdapter

variable {σ : Type}

/-- Of what was added to the ledger, every event satisfies `p`. -/
def Adds (L : AppendOnlyLedger σ) (p : LedgerEvent → Prop) (w w' : World σ) : Prop :=
  ∃ added, recorded_events L w' = recorded_events L w ++ added ∧ ∀ event ∈ added, p event

section Adds

variable {L : AppendOnlyLedger σ} {p q : LedgerEvent → Prop} {w w' w'' : World σ}

theorem adds_of_eq (h : recorded_events L w' = recorded_events L w) : Adds L p w w' := by
  refine ⟨[], ?_, by simp⟩
  rw [h, List.append_nil]

/-- The appends of a commit add some of the events of the trace that is committed. -/
theorem adds_of_appends {events : List LedgerEvent} (hall : ∀ event ∈ events, p event)
    (hledger : recorded_events L w'
      = L.events (append_all L.toLedgerBackend events w.ledger).2) : Adds L p w w' := by
  obtain ⟨kept, hcommits⟩ := commits_append_all L events w.ledger
  refine ⟨kept, hledger.trans hcommits.events_eq, ?_⟩
  intro event hevent
  exact hall event (hcommits.sublist.subset hevent)

end Adds

/-- A result that is traced is one of the trace that its evaluation drew. -/
theorem Final.trace_id {cfg : EngineConfig} {env : Env} {core final : DecisionResult}
    (h : Final cfg env core final) : final.trace_id = core.trace_id := by
  obtain ⟨-, rfl⟩ | ⟨-, rfl⟩ := h
  · exact ready_trace_id
  · exact ready_trace_id

/-- An evaluation adds events of the trace that it drew, and of records that it made. -/
theorem evaluate_adds_own {p : LedgerEvent → Prop} (P : Platform) (L : AppendOnlyLedger σ)
    (cfg : EngineConfig) (env : Env) (signal : Signal) (flow : DecisionFlow) (w : World σ)
    (hp : ∀ (trace : DecisionTrace) (result : DecisionResult) (records : List NodeRecord)
      (events : List LedgerEvent), trace.id = env.draws.trace_id →
      trace.evaluated_nodes = records.map NodeRecord.toDict →
      build_events P cfg.schema_version trace result = .ok events → ∀ event ∈ events, p event) :
    Adds L p w (evaluate P L.toLedgerBackend cfg env signal flow w).2 := by
  cases computed : PureEvaluate.pure_evaluate P env.draws signal flow with
  | error e =>
      rw [evaluate, computed]
      exact adds_of_eq rfl
  | ok outcome =>
  obtain ⟨core, evaluated_nodes⟩ := outcome
  have hdrawn : core.trace_id = env.draws.trace_id := (PureEvaluate.stamped computed).trace_id
  obtain ⟨outcomes, sel, version, brs, -, -, -, -, -, hnodes⟩ :=
    PureEvaluate.pure_evaluate_eq_ok.mp computed
  by_cases hs : cfg.strict
  · -- the commit gate, which appends before anything is dispatched
    obtain ⟨events, hbuild⟩ := exists_events cfg computed (opened cfg env core)
    refine adds_of_appends ?_ (ledger_of_evaluate L hs computed hbuild w)
    refine hp _ _ _ events ?_ hnodes hbuild
    exact (opened_trace_id core).trans hdrawn
  have hrun := evaluate_run P L.toLedgerBackend cfg env signal flow w
  generalize (evaluate P L.toLedgerBackend cfg env signal flow w).1 = answer at hrun
  generalize (evaluate P L.toLedgerBackend cfg env signal flow w).2 = w' at hrun ⊢
  rcases hrun with _ | ⟨_, strict⟩ | ⟨_, passed, hho⟩ | ⟨_, passed, hho⟩
    | @⟨_, final, _, _, w₂, computed', passed, hho, hdispatch⟩
  case invalid => exact adds_of_eq rfl
  case stopped => exact absurd strict hs
  case undispatched => exact adds_of_eq (congrArg L.events (ledger_dispatched hs passed hho))
  case unsaved =>
    have hledger := ledger_dispatched hs passed hho
    exact adds_of_eq (congrArg L.events hledger)
  case done =>
    obtain ⟨rfl, rfl⟩ := except_pair_unique computed computed'
    have hledger := ledger_dispatched hs passed hho
    unfold committed_after
    by_cases hpar : cfg.parallel
    · rw [if_pos hpar]
      -- the trace that is stored is the one that is committed
      have hrecords : (stored_trace env signal flow final evaluated_nodes).1.evaluated_nodes
          = (PureEvaluate.node_records flow outcomes sel brs).map NodeRecord.toDict := hnodes
      obtain ⟨events, hbuild⟩ : ∃ events, build_events P cfg.schema_version
          (stored_trace env signal flow final evaluated_nodes).1
          (stored_trace env signal flow final evaluated_nodes).2 = .ok events :=
        ⟨_, build_events_records hrecords⟩
      have hid : (stored_trace env signal flow final evaluated_nodes).1.id
          = env.draws.trace_id := hdispatch.final.trace_id.trans hdrawn
      refine adds_of_appends (hp _ _ _ events hid hrecords hbuild) ?_
      rw [commit_run (client L.toLedgerBackend) hbuild]
      refine (congrArg L.events (simulates_append_all _ _).2).trans ?_
      rw [← hledger]
      rfl
    · rw [if_neg hpar]
      exact adds_of_eq (congrArg L.events hledger)

/-- Every event of a trace belongs to it. -/
theorem build_events_trace_id {P : Platform} {schema_version : String} {trace : DecisionTrace}
    {result : DecisionResult} {events : List LedgerEvent}
    (hbuild : build_events P schema_version trace result = .ok events) :
    ∀ event ∈ events, event.trace_id = trace.id := by
  intro event hevent
  obtain ⟨key, -, hhash⟩ := exists_of_forall₂ (build_events_hashes hbuild) hevent
  exact hhash.1

end DecisionRuntimeEngine

/-! ## Requests and restarts -/

/-- What happens to the service: a request of any route, or a restart. -/
inductive Occurrence
  | request (c : RuntimeCall)
  | restart

namespace Occurrence

open DecisionRuntimeEngine Routes HumanGateManager LedgerProjector

/-- The ids that are drawn. -/
def drawn : Occurrence → List UUID
  | .request c => c.drawn
  | .restart => []

/-- The request, if it is one. -/
def call : Occurrence → Option RuntimeCall
  | .request c => some c
  | .restart => none

/-- It is a restart. -/
def isRestart (o : Occurrence) : Bool := o.call.isNone

variable {σ : Type}

/-- The request handled, or the restart. -/
def run (P : Platform) (C : LedgerBackend σ) (settings : Settings) (auth : AuthSettings)
    (registry : FlowRegistry) : Occurrence → Exec PyError (World σ) (Option DecisionResult)
  | .request c => some <$> c.run P C settings auth registry
  | .restart => do
    Exec.modify World.restart
    return none

/-- The world after the occurrences. -/
def after (P : Platform) (C : LedgerBackend σ) (settings : Settings) (auth : AuthSettings)
    (registry : FlowRegistry) (w : World σ) (os : List Occurrence) : World σ :=
  Run.final (run P C settings auth registry) w os

section Step

variable {P : Platform} {C : LedgerBackend σ} {L : AppendOnlyLedger σ} {settings : Settings}
  {auth : AuthSettings} {registry : FlowRegistry} {w : World σ}

theorem run_request (P : Platform) (C : LedgerBackend σ) (settings : Settings)
    (auth : AuthSettings) (registry : FlowRegistry) (c : RuntimeCall) (w : World σ) :
    (run P C settings auth registry (.request c) w).2
      = (c.run P C settings auth registry w).2 := by
  show ((some <$> c.run P C settings auth registry) w).2 = _
  rw [Exec.run_map]

theorem run_restart (P : Platform) (C : LedgerBackend σ) (settings : Settings)
    (auth : AuthSettings) (registry : FlowRegistry) (w : World σ) :
    (run P C settings auth registry .restart w).2 = w.restart := rfl

theorem after_concat (P : Platform) (C : LedgerBackend σ) (settings : Settings)
    (auth : AuthSettings) (registry : FlowRegistry) (w : World σ) (os : List Occurrence)
    (o : Occurrence) : after P C settings auth registry w (os ++ [o])
      = (run P C settings auth registry o (after P C settings auth registry w os)).2 :=
  Run.final_concat w os o

/-- A request adds resolutions, and legible events of the trace that it drew. -/
theorem request_adds (P : Platform) (L : AppendOnlyLedger σ) (settings : Settings)
    (auth : AuthSettings) (registry : FlowRegistry) (c : RuntimeCall)
    (hkeys : SameKeys w.human_gate_manager) :
    Adds L (fun event => event.IsResolution ∨ event.trace_id ∈ c.drawn ∧ Legible P event) w
      (c.run P L.toLedgerBackend settings auth registry w).2 := by
  obtain ⟨e, rfl⟩ | ⟨action, draws, request, haction⟩ | ⟨draws, body, rfl⟩ :=
    RuntimeCall.cases_on c
  · obtain hsame | ⟨signal, flow, remembered, -, hworld⟩ :=
      route_world P L.toLedgerBackend settings registry e.draws e.body w
    · exact adds_of_eq (congrArg (recorded_events L) hsame)
    · have hadds : Adds L (fun event => event.IsResolution
            ∨ event.trace_id ∈ (RuntimeCall.evaluate e).drawn ∧ Legible P event) w
          (DecisionRuntimeEngine.evaluate P L.toLedgerBackend settings.engine e.draws.env signal
            flow w).2 := by
        apply evaluate_adds_own
        intro trace result records events hid hrecords hbuild event hevent
        refine Or.inr ⟨?_, legible_events hrecords hbuild event hevent⟩
        rw [build_events_trace_id hbuild event hevent, hid]
        simp [RuntimeCall.drawn, EvaluateCall.drawn, Env.drawn]
      show Adds L _ w (Routes.evaluate P L.toLedgerBackend settings registry e.draws e.body w).2
      rw [hworld]
      exact hadds
  · rw [RuntimeCall.run_of_gate_action haction]
    obtain ⟨e, hrun, -⟩ | ⟨actor, gate, held, -, hrun, -⟩ :=
      resolve_gate_run P L.toLedgerBackend settings auth action draws request hkeys
    · rw [hrun]
      exact adds_of_eq rfl
    · rw [hrun]
      by_cases hon : settings.ledger_enabled = true
      · -- the resolution event, or nothing when the ledger does not take it
        obtain htakes | hsame := takes_or_same L
          (resolution_event P settings action draws request actor gate held) w.ledger
        · refine ⟨[resolution_event P settings action draws request actor gate held], ?_, ?_⟩
          · rw [recorded_events_logged hon]
            exact htakes
          · intro event hevent
            rw [List.mem_singleton.mp hevent]
            exact Or.inl isResolution_resolution_event
        · apply adds_of_eq
          rw [recorded_events_logged hon]
          exact hsame
      · apply adds_of_eq
        rw [logged, if_neg hon]
        rfl
  · rw [RuntimeCall.run_simulate]
    exact adds_of_eq rfl

/-- The same for whatever happens: a restart adds nothing. -/
theorem run_adds (P : Platform) (L : AppendOnlyLedger σ) (settings : Settings)
    (auth : AuthSettings) (registry : FlowRegistry) (o : Occurrence)
    (hkeys : SameKeys w.human_gate_manager) :
    Adds L (fun event => event.IsResolution ∨ event.trace_id ∈ o.drawn ∧ Legible P event) w
      (run P L.toLedgerBackend settings auth registry o w).2 := by
  cases o with
  | request c =>
      rw [run_request]
      exact request_adds P L settings auth registry c hkeys
  | restart => exact adds_of_eq rfl

/-- The two dictionaries of the gates keep their keys in common. -/
theorem run_same_keys (P : Platform) (C : LedgerBackend σ) (settings : Settings)
    (auth : AuthSettings) (registry : FlowRegistry) (o : Occurrence)
    (hkeys : SameKeys w.human_gate_manager) :
    SameKeys (run P C settings auth registry o w).2.human_gate_manager := by
  cases o with
  | request c =>
      rw [run_request]
      exact (RuntimeCall.gate_step P C settings auth registry c hkeys).same_keys hkeys
  | restart => exact sameKeys_init

theorem after_same_keys (P : Platform) (C : LedgerBackend σ) (settings : Settings)
    (auth : AuthSettings) (registry : FlowRegistry) (os : List Occurrence)
    (hkeys : SameKeys w.human_gate_manager) :
    SameKeys (after P C settings auth registry w os).human_gate_manager := by
  induction os using List.reverseRecOn with
  | nil => exact hkeys
  | append_singleton os o ih =>
      rw [after_concat]
      exact run_same_keys P C settings auth registry o ih

/-- A trace whose id is not drawn is stored as before, unless there is a restart. -/
theorem run_trace_store (P : Platform) (C : LedgerBackend σ) (settings : Settings)
    (auth : AuthSettings) (registry : FlowRegistry) {o : Occurrence} {trace_id : UUID}
    (hfresh : trace_id ∉ o.drawn) (hkeys : SameKeys w.human_gate_manager) :
    (run P C settings auth registry o w).2.trace_store.get trace_id.str
      = if o.isRestart then TraceStore.init.get trace_id.str
        else w.trace_store.get trace_id.str := by
  cases o with
  | restart => rfl
  | request c =>
      have hoff : isRestart (.request c) = false := rfl
      rw [run_request, hoff]
      obtain hsame | ⟨e, trace, rfl, hfiles, hsave⟩ :=
        RuntimeCall.trace_store_call P C settings auth registry hkeys c
      · rw [hsame]
        rfl
      · -- what is stored has the id that the request drew
        obtain ⟨signal, flow, core, nodes, final, hcomputed, hfinal, rfl⟩ := hfiles
        have hdrawn := (computed_draws hcomputed).2
        rw [← hfinal.trace_id] at hdrawn
        have hne : trace_id.str ≠ (stored_trace e.draws.env signal flow final nodes).1.id.str := by
          intro heq
          apply hfresh
          rw [UUID.str_inj.mp heq]
          exact hdrawn
        rw [hsave]
        unfold TraceStore.get TraceStore.save
        rw [Dict.get_set_other _ hne]
        rfl

end Step

/-! ## One trace, over a run -/

/-- The events of a trace in the ledger. -/
def trace_events (L : AppendOnlyLedger σ) (trace_id : UUID) (w : World σ) : List LedgerEvent :=
  (recorded_events L w).filter (fun event => event.trace_id = trace_id)

section Trace

variable {P : Platform} {L : AppendOnlyLedger σ} {settings : Settings} {auth : AuthSettings}
  {registry : FlowRegistry} {w : World σ} {trace_id : UUID} {os : List Occurrence}

/-- **The run lemma.** Once its id is drawn no more, the ledger adds to a trace resolutions only,
and the trace store keeps it until a restart. -/
theorem traced_run (P : Platform) (L : AppendOnlyLedger σ) (settings : Settings)
    (auth : AuthSettings) (registry : FlowRegistry) (hkeys : SameKeys w.human_gate_manager)
    (hfresh : ∀ o ∈ os, trace_id ∉ o.drawn) :
    (∃ added, trace_events L trace_id (after P L.toLedgerBackend settings auth registry w os)
        = trace_events L trace_id w ++ added ∧ ∀ event ∈ added, event.IsResolution) ∧
    (after P L.toLedgerBackend settings auth registry w os).trace_store.get trace_id.str
      = if os.any isRestart then TraceStore.init.get trace_id.str
        else w.trace_store.get trace_id.str := by
  induction os using List.reverseRecOn with
  | nil => exact ⟨⟨[], by simp [after], by simp⟩, rfl⟩
  | append_singleton os o ih =>
      obtain ⟨⟨added, hadded, hres⟩, hstore⟩ :=
        ih fun o' ho' => hfresh o' (List.mem_append_left _ ho')
      have hdrawn : trace_id ∉ o.drawn := hfresh o (by simp)
      have hkeys' := after_same_keys P L.toLedgerBackend settings auth registry os hkeys
      rw [after_concat]
      constructor
      · obtain ⟨more, hmore, hall⟩ := run_adds P L settings auth registry o hkeys'
        refine ⟨added ++ more.filter (fun event => event.trace_id = trace_id), ?_, ?_⟩
        · rw [trace_events, hmore, List.filter_append, ← List.append_assoc, ← hadded]
          rfl
        · intro event hevent
          rw [List.mem_append] at hevent
          cases hevent with
          | inl hevent => exact hres event hevent
          | inr hevent =>
              -- the trace that was drawn is another one
              obtain ⟨hmem, htrace⟩ := List.mem_filter.mp hevent
              apply (hall event hmem).resolve_right
              intro hown
              rw [of_decide_eq_true htrace] at hown
              exact hdrawn hown.1
      · rw [run_trace_store P L.toLedgerBackend settings auth registry hdrawn hkeys', hstore,
          List.any_append, List.any_cons, List.any_nil, Bool.or_false]
        cases o.isRestart <;> simp

/-- The projector passes over resolutions. -/
theorem add_resolution {event : LedgerEvent} (h : event.IsResolution) (p : Projection) :
    p.add event = p := by
  have hstep : step_name event.step_type = "human" := by
    rw [h.1]
    exact step_name_value .human
  rw [Projection.add, hstep]
  rfl

theorem project_events_append {es added : List LedgerEvent} (hne : es ≠ [])
    (h : ∀ event ∈ added, event.IsResolution) (key : String) :
    project_events P key (es ++ added) = project_events P key es := by
  cases es with
  | nil => exact absurd rfl hne
  | cons first rest =>
      have hread : LedgerProjector.read first (rest ++ added)
          = LedgerProjector.read first rest := by
        unfold LedgerProjector.read
        rw [← List.cons_append, List.foldl_append]
        generalize (first :: rest).foldl Projection.add { started_at := first.occurred_at } = p
        induction added with
        | nil => rfl
        | cons event added ih =>
            rw [List.forall_mem_cons] at h
            rw [List.foldl_cons, add_resolution h.1]
            exact ih h.2
      rw [List.cons_append, project_events, hread, project_events]

/-- A trace that the ledger has an event of is projected in the same way ever after. -/
theorem projected_run (settings : Settings) (auth : AuthSettings) (registry : FlowRegistry)
    (hkeys : SameKeys w.human_gate_manager) (hfresh : ∀ o ∈ os, trace_id ∉ o.drawn)
    {projected : DecisionTrace}
    (h : (project L.toLedgerBackend P trace_id.str w.ledger).1 = .ok (some projected)) :
    (project L.toLedgerBackend P trace_id.str
      (after P L.toLedgerBackend settings auth registry w os).ledger).1
        = .ok (some projected) := by
  obtain ⟨⟨added, hadded, hres⟩, -⟩ := traced_run P L settings auth registry hkeys hfresh
  have hne : trace_events L trace_id w ≠ [] := by
    intro hnil
    have hnone : (L.events w.ledger).filter (fun e => e.trace_id = trace_id) = [] := hnil
    rw [project_answer, hnone] at h
    cases h
  rw [project_answer] at h ⊢
  have hsame := project_events_append (P := P) hne hres trace_id.str
  rw [← hadded] at hsame
  exact hsame.trans h

/-- **Views are durable.** After any occurrences, restarts among them, let no later request draw
the id of a trace. When `GET /traces/{trace_id}` shows a trace, it shows the same until the next
restart, with a ledger or without. When the ledger projects the id to a trace, it projects it to the
same ever after, and with the ledger enabled that is what the route shows once there was a
restart. -/
theorem views_durable (P : Platform) (L : AppendOnlyLedger σ) (settings : Settings)
    (auth : AuthSettings) (registry : FlowRegistry) (s : σ) (pre post : List Occurrence)
    (trace_id : UUID)
    (hfresh : ∀ o ∈ post, trace_id ∉ o.drawn) :
    (∀ trace, post.any isRestart = false →
      (get_trace P L.toLedgerBackend settings trace_id.str
        (after P L.toLedgerBackend settings auth registry (World.init s) pre)).1 = .ok trace →
      (get_trace P L.toLedgerBackend settings trace_id.str
        (after P L.toLedgerBackend settings auth registry (World.init s) (pre ++ post))).1
          = .ok trace) ∧
    ∀ projected,
      (project L.toLedgerBackend P trace_id.str
        (after P L.toLedgerBackend settings auth registry (World.init s) pre).ledger).1
          = .ok (some projected) →
      (project L.toLedgerBackend P trace_id.str
        (after P L.toLedgerBackend settings auth registry (World.init s) (pre ++ post)).ledger).1
          = .ok (some projected) ∧
      (settings.ledger_enabled = true → post.any isRestart = true →
        (get_trace P L.toLedgerBackend settings trace_id.str
          (after P L.toLedgerBackend settings auth registry (World.init s) (pre ++ post))).1
            = .ok projected) := by
  have hkeys := after_same_keys P L.toLedgerBackend settings auth registry pre
    (w := World.init s) sameKeys_init
  have hsplit : after P L.toLedgerBackend settings auth registry (World.init s) (pre ++ post)
      = after P L.toLedgerBackend settings auth registry
        (after P L.toLedgerBackend settings auth registry (World.init s) pre) post :=
    Run.final_append (World.init s) pre post
  rw [hsplit]
  generalize after P L.toLedgerBackend settings auth registry (World.init s) pre = w at hkeys
  obtain ⟨-, hstore⟩ := traced_run P L settings auth registry hkeys hfresh
  constructor
  · intro trace hoff hview
    rw [hoff] at hstore
    -- what the store has it keeps; what it lacks is projected, before and after
    cases hget : w.trace_store.get trace_id.str with
    | ok stored =>
        have hstored : trace = stored := by
          rw [get_trace, Exec.run_get_bind, hget] at hview
          exact (Except.ok.inj hview).symm
        rw [get_trace, Exec.run_get_bind, hstore, if_neg Bool.false_ne_true, hget, hstored]
        rfl
    | error e =>
        rw [if_neg Bool.false_ne_true, hget] at hstore
        by_cases hwired : settings.ledger_enabled = true
        swap
        · -- without a projector nothing is shown that is not stored
          rw [get_trace_cold L P settings (Bool.eq_false_iff.mpr hwired) hget] at hview
          cases hview
        rw [get_trace_miss L P settings hwired hget] at hview
        rw [get_trace_miss L P settings hwired hstore]
        cases hproject : (project L.toLedgerBackend P trace_id.str w.ledger).1 with
        | error e' =>
            rw [hproject] at hview
            cases hview
        | ok found =>
            cases found with
            | none =>
                rw [hproject] at hview
                cases hview
            | some projected =>
                rw [hproject] at hview
                rw [projected_run settings auth registry hkeys hfresh hproject]
                exact hview
  · intro projected hproject
    have hlater := projected_run settings auth registry hkeys hfresh hproject
    refine ⟨hlater, ?_⟩
    intro hwired hon
    rw [hon, if_pos rfl] at hstore
    -- the restart emptied the store, and no request after it filled the id in
    have hmiss : TraceStore.init.get trace_id.str
        = .error (.traceNotFoundError ("Trace '" ++ trace_id.str ++ "' not found")) := rfl
    rw [hmiss] at hstore
    rw [get_trace_miss L P settings hwired hstore, hlater]

end Trace

/-! ## One gate, over a run -/

section Gate

variable {P : Platform} {L : AppendOnlyLedger σ} {settings : Settings} {auth : AuthSettings}
  {registry : FlowRegistry} {w : World σ} {os : List Occurrence} {gate_id : UUID}

/-- Every gate is found under its own id. -/
theorem gates_drawn_run (P : Platform) (C : LedgerBackend σ) (settings : Settings)
    (auth : AuthSettings) (registry : FlowRegistry) (calls : List RuntimeCall)
    (hkeys : SameKeys w.human_gate_manager)
    (hdrawn : RuntimeCall.GatesDrawn calls w.human_gate_manager) (os : List Occurrence) :
    RuntimeCall.GatesDrawn (calls ++ os.filterMap call)
      (after P C settings auth registry w os).human_gate_manager := by
  induction os using List.reverseRecOn with
  | nil => simpa [after] using hdrawn
  | append_singleton os o ih =>
      rw [after_concat, List.filterMap_append, ← List.append_assoc]
      cases o with
      | restart => exact fun _ _ h => absurd h (by simp [run_restart, World.restart, World.init,
          HumanGateManager.init])
      | request c =>
          rw [run_request]
          have hkeys' := after_same_keys P C settings auth registry os hkeys
          exact (RuntimeCall.gate_step P C settings auth registry c hkeys').gates_drawn ih

/-- An id that is not drawn stays the id of no gate. -/
theorem absent_step (P : Platform) (C : LedgerBackend σ) (settings : Settings)
    (auth : AuthSettings) (registry : FlowRegistry) {o : Occurrence} (hfresh : gate_id ∉ o.drawn)
    (hkeys : SameKeys w.human_gate_manager)
    (h : w.human_gate_manager.store.get gate_id.str = none) :
    (run P C settings auth registry o w).2.human_gate_manager.store.get gate_id.str = none := by
  cases o with
  | restart => rfl
  | request c =>
      rw [run_request]
      have hstep := RuntimeCall.gate_step P C settings auth registry c hkeys
      generalize (c.run P C settings auth registry w).2.human_gate_manager = m at hstep
      cases hstep with
      | none => exact h
      | @opened e held hcall =>
          have hne : gate_id.str ≠ e.draws.env.gate_id.str := by
            intro heq
            apply hfresh
            rw [UUID.str_inj.mp heq, hcall]
            simp [drawn, RuntimeCall.drawn, EvaluateCall.drawn, Env.drawn]
          unfold created
          dsimp only
          rw [Dict.get_set_other _ hne]
          exact h
      | @resolved action draws request actor gate held hcall hresolves =>
          -- the gate that is resolved is a known one
          have hne : gate_id.str ≠ request.request_id := by
            intro heq
            rw [heq, hresolves.stored] at h
            cases h
          unfold resolved
          dsimp only
          rw [Dict.get_set_other _ hne]
          exact h

/-- Of a gate that is unknown no resolution is recorded. -/
theorem unresolved_step (P : Platform) (L : AppendOnlyLedger σ) (settings : Settings)
    (auth : AuthSettings) (registry : FlowRegistry) (o : Occurrence) {calls : List RuntimeCall}
    (hkeys : SameKeys w.human_gate_manager)
    (hdrawn : RuntimeCall.GatesDrawn calls w.human_gate_manager)
    (h : w.human_gate_manager.store.get gate_id.str = none) :
    resolution_events L gate_id.str (run P L.toLedgerBackend settings auth registry o w).2
      = resolution_events L gate_id.str w := by
  have htrail : ∀ w : World σ, resolution_events L gate_id.str w
      = (RuntimeCall.trail L w).filter (fun event => event.step_id = gate_id.str) := by
    intro w
    unfold resolution_events RuntimeCall.trail
    rw [List.filter_filter]
    apply List.filter_congr
    intro event _
    rw [Bool.decide_and, Bool.and_comm]
  cases o with
  | restart => rfl
  | request c =>
      rw [run_request, htrail, htrail,
        RuntimeCall.trail_step P L settings auth registry c hkeys, List.filter_append,
        List.append_right_eq_self, List.filter_eq_nil_iff]
      intro event hevent
      obtain ⟨action, draws, request, actor, gate, held, -, hresolves, rfl⟩ :=
        RuntimeCall.resolution_eq_some.mp
          (RuntimeCall.audited_eq_some (Option.mem_toList.mp hevent))
      -- the gate that is resolved is a known one
      have hstep : (resolution_event P settings action draws request actor gate held).step_id
          = gate.id.str := rfl
      rw [decide_eq_true_eq, hstep, (hdrawn _ gate hresolves.stored).1]
      intro heq
      have hstored := hresolves.stored
      have hbefore : (Run.entry (RuntimeCall.run P L.toLedgerBackend settings auth registry) w
        c).before = w := rfl
      rw [hbefore, heq, h] at hstored
      cases hstored

/-- A request about a gate that is unknown is refused. -/
theorem refused_of_absent (P : Platform) (C : LedgerBackend σ) (settings : Settings)
    (auth : AuthSettings) (registry : FlowRegistry) {c : RuntimeCall} {action : GateAction}
    {draws : GateDraws} {request : GateRequest}
    (hcall : c.gate_action = some (action, draws, request)) {gate_id : String}
    (habout : request.request_id = gate_id)
    (h : w.human_gate_manager.store.get gate_id = none) :
    ∃ e, c.run P C settings auth registry w = (.error e, w) ∧
      ∀ actor, get_actor auth request.api_key = .ok actor →
        e = .httpException 404 ("HumanGateRequest '" ++ gate_id ++ "' not found") := by
  rw [RuntimeCall.run_of_gate_action hcall]
  cases hactor : get_actor auth request.api_key with
  | error e =>
      refine ⟨e, ?_, by simp⟩
      rw [resolve_gate, hactor]
      rfl
  | ok actor =>
      -- past the authentication, the look-up of the gate is what raises
      refine ⟨_, ?_, fun _ _ => rfl⟩
      have hget : get_request gate_id w.human_gate_manager
          = (.error (.humanGateNotFoundError ("HumanGateRequest '" ++ gate_id ++ "' not found")),
            w.human_gate_manager) := by
        rw [get_request, Exec.run_get_bind, h]
        rfl
      have hresolve : ∀ roles, resolve action.resolution draws.now gate_id request.body.comment
          roles w.human_gate_manager
          = (.error (.humanGateNotFoundError ("HumanGateRequest '" ++ gate_id ++ "' not found")),
            w.human_gate_manager) := fun roles => Exec.run_bind_error _ hget
      rw [resolve_gate, hactor, Exec.run_lift_bind_ok, habout]
      exact Exec.run_bind_error _ (Exec.run_tryExcept_error (on_gates_run (hresolve _)))

/-- **Gates are lost at a restart.** Of a gate that there was before a restart, and whose id is not
drawn again, every later request is refused with a 404 and changes nothing, and a durable ledger
records no further resolution. -/
theorem gates_lost (P : Platform) (L : AppendOnlyLedger σ) (settings : Settings)
    (auth : AuthSettings) (registry : FlowRegistry) (s : σ) (pre post : List Occurrence)
    {key : String} {gate : HumanGateRequest}
    (hgate : (after P L.toLedgerBackend settings auth registry (World.init s)
      pre).human_gate_manager.store.get key = some gate)
    (hfresh : ∀ o ∈ post, gate.id ∉ o.drawn) :
    (∀ (c : RuntimeCall) (action : GateAction) (draws : GateDraws) (request : GateRequest),
      c.gate_action = some (action, draws, request) → request.request_id = key →
      ∃ e, c.run P L.toLedgerBackend settings auth registry
          (after P L.toLedgerBackend settings auth registry (World.init s)
            (pre ++ .restart :: post))
        = (.error e, after P L.toLedgerBackend settings auth registry (World.init s)
            (pre ++ .restart :: post)) ∧
        ∀ actor, get_actor auth request.api_key = .ok actor →
          e = .httpException 404 ("HumanGateRequest '" ++ key ++ "' not found")) ∧
    resolution_events L key (after P L.toLedgerBackend settings auth registry (World.init s)
        (pre ++ .restart :: post))
      = resolution_events L key (after P L.toLedgerBackend settings auth registry (World.init s)
        pre) := by
  have hdrawn := gates_drawn_run P L.toLedgerBackend settings auth registry []
    (w := World.init s) sameKeys_init (fun _ _ h => nomatch h) pre
  obtain rfl := (hdrawn key gate hgate).1
  have hsplit : after P L.toLedgerBackend settings auth registry (World.init s)
        (pre ++ .restart :: post)
      = after P L.toLedgerBackend settings auth registry
        (after P L.toLedgerBackend settings auth registry (World.init s) pre).restart post := by
    unfold after
    rw [Run.final_append]
    rfl
  -- from the restart on the gate is unknown, and nothing is recorded of an unknown gate
  have hrun : ∀ os : List Occurrence, (∀ o ∈ os, gate.id ∉ o.drawn) →
      (after P L.toLedgerBackend settings auth registry
        (after P L.toLedgerBackend settings auth registry (World.init s) pre).restart
        os).human_gate_manager.store.get gate.id.str = none ∧
      resolution_events L gate.id.str (after P L.toLedgerBackend settings auth registry
        (after P L.toLedgerBackend settings auth registry (World.init s) pre).restart os)
      = resolution_events L gate.id.str (after P L.toLedgerBackend settings auth registry
        (World.init s) pre) := by
    intro os
    induction os using List.reverseRecOn with
    | nil => exact fun _ => ⟨rfl, rfl⟩
    | append_singleton os o ih =>
        intro hos
        obtain ⟨habsent, hsame⟩ := ih fun o' ho' => hos o' (List.mem_append_left _ ho')
        have hkeys := after_same_keys P L.toLedgerBackend settings auth registry os
          (w := (after P L.toLedgerBackend settings auth registry (World.init s) pre).restart)
          sameKeys_init
        have hdrawn' := gates_drawn_run P L.toLedgerBackend settings auth registry []
          (w := (after P L.toLedgerBackend settings auth registry (World.init s) pre).restart)
          sameKeys_init (fun _ _ h => nomatch h) os
        rw [after_concat]
        exact ⟨absent_step P L.toLedgerBackend settings auth registry (hos o (by simp)) hkeys
          habsent, (unresolved_step P L settings auth registry o hkeys hdrawn' habsent).trans hsame⟩
  obtain ⟨habsent, hsame⟩ := hrun post hfresh
  rw [hsplit]
  refine ⟨?_, hsame⟩
  intro c action draws request hcall habout
  exact refused_of_absent P L.toLedgerBackend settings auth registry hcall habout habsent

end Gate

/-! ## A run -/

section Run

open Recorded

/-- A decision is escalated, the service restarts, and a reviewer comes: the view still says that
the decision is pending. `LedgerClient` stands in for a ledger that is durable. -/
theorem views_durable_restarted : ∃ projected,
    (get_trace platform LedgerClient.backend (settings "strict") (UUID.repeated 0xa).str
      (after platform LedgerClient.backend (settings "strict") open_access escalating_registry
        (World.init LedgerClient.init) ([.request recorded_call] ++ [.restart,
          .request (.approve_gate resolution_draws resolution_request)]))).1 = .ok projected
      ∧ projected.decision_results.map (·.status) = [.pending_human] := by
  have hbefore : ((project LedgerClient.backend platform (UUID.repeated 0xa).str
      (after platform LedgerClient.backend (settings "strict") open_access escalating_registry
        (World.init LedgerClient.init) [.request recorded_call]).ledger).1.toOption.bind id).map
          (fun trace => trace.decision_results.map (·.status)) = some [.pending_human] := by
    decide +kernel
  obtain ⟨projected, hsome, hstatus⟩ := Option.map_eq_some_iff.mp hbefore
  obtain ⟨found, hfound, rfl⟩ := Option.bind_eq_some_iff.mp hsome
  have hproject := except_of_toOption_map (f := id) (b := some projected) (by simpa using hfound)
  obtain ⟨answer, hanswer, hid⟩ := hproject
  rw [id_eq] at hid
  rw [hid] at hanswer
  exact ⟨projected, ((views_durable platform LedgerClient.append_only (settings "strict")
    open_access escalating_registry LedgerClient.init [.request recorded_call]
    [.restart, .request (.approve_gate resolution_draws resolution_request)]
    (UUID.repeated 0xa) (by decide +kernel)).2 projected hanswer).2 rfl rfl, hstatus⟩

/-- The reviewer is told that there is no such gate. `LedgerClient` stands in for a ledger that is
durable. -/
theorem gates_lost_restarted :
    ((RuntimeCall.approve_gate resolution_draws resolution_request).run platform
      LedgerClient.backend (settings "strict") open_access escalating_registry
      (after platform LedgerClient.backend (settings "strict") open_access escalating_registry
        (World.init LedgerClient.init) ([.request recorded_call] ++ .restart :: []))).1
      = .error (.httpException 404
        ("HumanGateRequest '" ++ (UUID.repeated 1).str ++ "' not found")) := by
  have hgate : ((after platform LedgerClient.backend (settings "strict") open_access
      escalating_registry (World.init LedgerClient.init)
      [.request recorded_call]).human_gate_manager.store.get (UUID.repeated 1).str).isSome
        = true := by decide +kernel
  obtain ⟨gate, hgate⟩ := Option.isSome_iff_exists.mp hgate
  have hbackend : LedgerClient.append_only.toLedgerBackend = LedgerClient.backend := rfl
  rw [← hbackend] at hgate
  obtain ⟨e, hrun, hnot_found⟩ := (gates_lost platform LedgerClient.append_only
    (settings "strict") open_access escalating_registry LedgerClient.init
    [.request recorded_call] [] hgate (by simp)).1
    (.approve_gate resolution_draws resolution_request) approve_action resolution_draws
    resolution_request rfl rfl
  have htext : e = .httpException 404
      ("HumanGateRequest '" ++ (UUID.repeated 1).str ++ "' not found") := hnot_found none rfl
  rw [hbackend] at hrun
  rw [hrun, htext]

end Run

end Occurrence

end DecisionRuntime
