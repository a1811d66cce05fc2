/-
What the ledger records of the gates that were resolved.

The manager decides what becomes of a gate, and another component builds the event
of it from the word for the action. The two agree on everything but the past tense:
`action ++ "d"` is `"approved"`, the status of an approved gate, and `"rejectd"`,
which is no status. So the ledger agrees with the manager in every state of a run
exactly when it never takes the event of a rejection (`resolution_events_agree_iff`).
-/
import DecisionRuntime.PartialCommit
import DecisionRuntime.ResolvedViews

set_option autoImplicit false

namespace DecisionRuntime

/-! ## Events of resolutions -/

/-- The event records what was done to a gate, which its `step_id` names. -/
def LedgerEvent.IsResolution (event : LedgerEvent) : Prop :=
  event.step_type = StepType.human.value ∧ (PyDict.get event.payload "action").isSome

instance (event : LedgerEvent) : Decidable event.IsResolution :=
  inferInstanceAs (Decidable (_ ∧ _))

/-- The event says what became of the gate. -/
structure GateAgrees (gate : HumanGateRequest) (event : LedgerEvent) : Prop where
  resolved : gate.status = .approved ∨ gate.status = .rejected
  action : ∃ response_value, gate.response_value = some response_value
    ∧ PyDict.get event.payload "action" = some (.str response_value)
  event_type : PyDict.get event.payload "event_type"
    = some (.str ("runtime.human_gate." ++ gate.status.value))
  timestamp : ∃ time : Datetime,
    PyDict.get event.payload (gate.status.value ++ "_at") = some (.str time.isoformat)
  decision_id : gate.decision_id = some event.decision_id
  trace_id : gate.trace_id = some event.trace_id

section Ledgers

open DecisionRuntimeEngine

variable {σ : Type} (L : AppendOnlyLedger σ)

/-- The events in the ledger that record the resolution of a gate. -/
def resolution_events (gate_id : String) (w : World σ) : List LedgerEvent :=
  (recorded_events L w).filter (fun event => event.IsResolution ∧ event.step_id = gate_id)

/-- There is at most one for each gate, and it agrees with the manager. -/
structure LedgerAgrees (w : World σ) : Prop where
  one : ∀ gate_id, (resolution_events L gate_id w).length ≤ 1
  agrees : ∀ gate_id, ∀ event ∈ resolution_events L gate_id w,
    ∃ gate, w.human_gate_manager.store.get gate_id = some gate ∧ GateAgrees gate event

section LedgerAgrees

variable {L} {w w' : World σ}

/-- What was added to the ledger records no resolution. -/
def AddsOther (L : AppendOnlyLedger σ) (w w' : World σ) : Prop :=
  ∃ added, recorded_events L w' = recorded_events L w ++ added
    ∧ ∀ event ∈ added, ¬ event.IsResolution

theorem addsOther_of_eq (h : recorded_events L w' = recorded_events L w) : AddsOther L w w' := by
  refine ⟨[], ?_, by simp⟩
  rw [h, List.append_nil]

/-- Then it records the same resolutions. -/
theorem AddsOther.resolution_events (h : AddsOther L w w') (gate_id : String) :
    resolution_events L gate_id w' = resolution_events L gate_id w := by
  obtain ⟨added, hadds, hnone⟩ := h
  unfold DecisionRuntime.resolution_events
  rw [hadds, List.filter_append, List.append_right_eq_self, List.filter_eq_nil_iff]
  intro event hevent
  simp [hnone event hevent]

/-- An event that does counts for one gate. -/
theorem resolution_events_concat {event : LedgerEvent} (hevent : event.IsResolution)
    (hadds : recorded_events L w' = recorded_events L w ++ [event]) (gate_id : String) :
    resolution_events L gate_id w' = resolution_events L gate_id w
      ++ if event.step_id = gate_id then [event] else [] := by
  unfold resolution_events
  rw [hadds, List.filter_append, List.filter_singleton]
  simp [hevent]

/-- Of a pending gate nothing is recorded. -/
theorem LedgerAgrees.of_pending (h : LedgerAgrees L w) {gate_id : String} {gate : HumanGateRequest}
    (hgate : w.human_gate_manager.store.get gate_id = some gate)
    (hpending : gate.status = .pending) : resolution_events L gate_id w = [] := by
  apply List.eq_nil_iff_forall_not_mem.mpr
  intro event hevent
  obtain ⟨gate', hgate', hagrees⟩ := h.agrees gate_id event hevent
  obtain rfl := Option.some.inj (hgate.symm.trans hgate')
  rcases hagrees.resolved with hst | hst
  · cases hpending.symm.trans hst
  · cases hpending.symm.trans hst

/-- The ledger still agrees when it records no other resolution, and the gates of those that it
records are the same. -/
theorem LedgerAgrees.of_eq (h : LedgerAgrees L w)
    (hevents : ∀ gate_id, resolution_events L gate_id w' = resolution_events L gate_id w)
    (hgates : ∀ gate_id, resolution_events L gate_id w ≠ [] →
      w'.human_gate_manager.store.get gate_id = w.human_gate_manager.store.get gate_id) :
    LedgerAgrees L w' := by
  constructor
  · intro gate_id
    rw [hevents]
    exact h.one gate_id
  · intro gate_id event hevent
    rw [hevents] at hevent
    rw [hgates gate_id (List.ne_nil_of_mem hevent)]
    exact h.agrees gate_id event hevent

/-- It agrees once it records the resolution of a gate of which nothing was recorded, when the event
agrees with the gate and the other gates are the same. -/
theorem LedgerAgrees.concat (h : LedgerAgrees L w) {event : LedgerEvent}
    (hevent : event.IsResolution)
    (hadds : recorded_events L w' = recorded_events L w ++ [event])
    (hnone : resolution_events L event.step_id w = []) {gate : HumanGateRequest}
    (hgate : w'.human_gate_manager.store.get event.step_id = some gate)
    (hagrees : GateAgrees gate event)
    (hother : ∀ gate_id, gate_id ≠ event.step_id →
      w'.human_gate_manager.store.get gate_id = w.human_gate_manager.store.get gate_id) :
    LedgerAgrees L w' := by
  have hconcat := resolution_events_concat hevent hadds
  constructor
  · intro gate_id
    rw [hconcat]
    by_cases hkey : event.step_id = gate_id
    · rw [if_pos hkey, ← hkey, hnone]
      simp
    · rw [if_neg hkey, List.append_nil]
      exact h.one gate_id
  · intro gate_id event' hevent'
    rw [hconcat] at hevent'
    by_cases hkey : event.step_id = gate_id
    · rw [if_pos hkey, ← hkey, hnone, List.nil_append] at hevent'
      rw [← hkey, List.mem_singleton.mp hevent']
      exact ⟨gate, hgate, hagrees⟩
    · rw [if_neg hkey, List.append_nil] at hevent'
      rw [hother gate_id (Ne.symm hkey)]
      exact h.agrees gate_id event' hevent'

end LedgerAgrees

/-- In the state `s` the ledger takes the event. -/
def Takes (event : LedgerEvent) (s : σ) : Prop :=
  L.events (L.append event s).2 = L.events s ++ [event]

/-- It takes an event, or it stays as it is. -/
theorem takes_or_same (event : LedgerEvent) (s : σ) :
    Takes L event s ∨ L.events (L.append event s).2 = L.events s := by
  unfold Takes
  rcases happ : L.append event s with ⟨e | answer, s'⟩
  · have hraised := L.append_raised event s e (congrArg Prod.fst happ)
    rw [happ] at hraised
    exact hraised.symm
  · have hanswered := L.append_answered event s answer (congrArg Prod.fst happ)
    rw [happ] at hanswered
    by_cases hstatus : answer.status = .accepted
    · rw [if_pos hstatus] at hanswered
      exact Or.inl hanswered
    · rw [if_neg hstatus, List.append_nil] at hanswered
      exact Or.inr hanswered

end Ledgers

/-! ## The events of an evaluation -/

namespace RuntimeLedgerAdapter

variable {P : Platform} {schema_version : String} {trace : DecisionTrace}
  {result : DecisionResult}

/-- None of the events of a trace records a resolution: no payload of theirs names an action. -/
theorem not_isResolution_of_build {records : List NodeRecord}
    (hrecords : trace.evaluated_nodes = records.map NodeRecord.toDict) {events : List LedgerEvent}
    (h : build_events P schema_version trace result = .ok events) {event : LedgerEvent}
    (he : event ∈ events) : ¬ event.IsResolution := by
  have hnone : PyDict.get event.payload "action" = none := by
    obtain rfl := Except.ok.inj ((build_events_records hrecords).symm.trans h)
    simp only [List.mem_append, List.mem_map, List.mem_singleton] at he
    rcases he with ((⟨signal_id, -, rfl⟩ | ⟨record, -, rfl⟩) | ⟨gate, -, rfl⟩) | rfl <;> rfl
  unfold LedgerEvent.IsResolution
  rw [hnone]
  simp

end RuntimeLedgerAdapter

namespace DecisionRuntimeEngine

open RuntimeLedgerAdapter

variable {σ : Type}

section Adds

variable {P : Platform} {L : AppendOnlyLedger σ} {cfg : EngineConfig} {env : Env}
  {signal : Signal} {flow : DecisionFlow} {core : DecisionResult} {evaluated_nodes : List PyDict}
  {w w' : World σ}

/-- The appends of a trace of the evaluation, wherever they are made. -/
theorem addsOther_of_appends
    (computed : PureEvaluate.pure_evaluate P env.draws signal flow = .ok (core, evaluated_nodes))
    {trace : DecisionTrace} {result : DecisionResult} {events : List LedgerEvent}
    (htrace : trace.evaluated_nodes = evaluated_nodes)
    (hbuild : build_events P cfg.schema_version trace result = .ok events)
    (hledger : recorded_events L w'
      = L.events (append_all L.toLedgerBackend events w.ledger).2) : AddsOther L w w' := by
  obtain ⟨outcomes, sel, version, brs, -, -, -, -, -, hnodes⟩ :=
    PureEvaluate.pure_evaluate_eq_ok.mp computed
  obtain ⟨kept, hcommits⟩ := commits_append_all L events w.ledger
  refine ⟨kept, hledger.trans hcommits.events_eq, ?_⟩
  intro event hevent
  exact not_isResolution_of_build (htrace.trans hnodes) hbuild (hcommits.sublist.subset hevent)

/-- Without the commit gate nothing is appended up to the dispatch. -/
theorem ledger_dispatched (hs : ¬ cfg.strict) {event : RuntimeEvent} {w₁ : World σ}
    (passed : Passed P L.toLedgerBackend cfg env signal flow core evaluated_nodes w w₁)
    (hands_over : HandsOver event w₁ w' ∨ w' = w₁) : w'.ledger = w.ledger := by
  have hgated : w₁.ledger = w.ledger := by
    rw [passed.not_strict hs]
    rfl
  rcases hands_over with hho | rfl
  · exact hho.ledger.trans hgated
  · exact hgated

end Adds

/-- What an evaluation adds to the ledger are events of its own trace, so that none of them
records a resolution. -/
theorem evaluate_adds (P : Platform) (L : AppendOnlyLedger σ) (cfg : EngineConfig) (env : Env)
    (signal : Signal) (flow : DecisionFlow) (w : World σ) :
    AddsOther L w (evaluate P L.toLedgerBackend cfg env signal flow w).2 := by
  rcases computed : PureEvaluate.pure_evaluate P env.draws signal flow with
    e | ⟨core, evaluated_nodes⟩
  · rw [evaluate, computed]
    exact addsOther_of_eq rfl
  by_cases hs : cfg.strict
  · obtain ⟨events, hbuild⟩ := exists_events cfg computed (opened cfg env core)
    exact addsOther_of_appends computed rfl hbuild (ledger_of_evaluate L hs computed hbuild w)
  have hrun := evaluate_run P L.toLedgerBackend cfg env signal flow w
  generalize (evaluate P L.toLedgerBackend cfg env signal flow w).1 = answer at hrun
  generalize (evaluate P L.toLedgerBackend cfg env signal flow w).2 = w' at hrun ⊢
  rcases hrun with _ | ⟨_, strict⟩ | ⟨_, passed, hho⟩ | ⟨_, passed, hho⟩
    | @⟨_, final, _, _, w₂, computed', passed, hho⟩
  case invalid => exact addsOther_of_eq rfl
  case stopped => exact absurd strict hs
  case undispatched => exact addsOther_of_eq (congrArg L.events (ledger_dispatched hs passed hho))
  case unsaved =>
    have hledger := ledger_dispatched hs passed hho
    exact addsOther_of_eq (congrArg L.events hledger)
  case done =>
    obtain ⟨rfl, rfl⟩ := except_pair_unique computed computed'
    have hledger := ledger_dispatched hs passed hho
    unfold committed_after
    by_cases hpar : cfg.parallel
    · rw [if_pos hpar]
      -- the trace that is stored is the one that is committed
      obtain ⟨outcomes, sel, version, brs, -, -, -, -, -, hnodes⟩ :=
        PureEvaluate.pure_evaluate_eq_ok.mp computed
      have hrecords : (stored_trace env signal flow final evaluated_nodes).1.evaluated_nodes
          = (PureEvaluate.node_records flow outcomes sel brs).map NodeRecord.toDict := hnodes
      obtain ⟨events, hbuild⟩ : ∃ events, build_events P cfg.schema_version
          (stored_trace env signal flow final evaluated_nodes).1
          (stored_trace env signal flow final evaluated_nodes).2 = .ok events :=
        ⟨_, build_events_records hrecords⟩
      refine addsOther_of_appends computed rfl hbuild ?_
      rw [commit_run (client L.toLedgerBackend) hbuild]
      refine (congrArg L.events (simulates_append_all _ _).2).trans ?_
      rw [← hledger]
      rfl
    · rw [if_neg hpar]
      exact addsOther_of_eq (congrArg L.events hledger)

end DecisionRuntimeEngine

/-! ## The event of one resolution -/

namespace Routes

open DecisionRuntimeEngine HumanGateManager

variable {σ : Type} {P : Platform} {L : AppendOnlyLedger σ} {settings : Settings}
  {auth : AuthSettings} {registry : FlowRegistry} {w : World σ}

/-- The request adds the events that its evaluation does. -/
theorem evaluate_adds (P : Platform) (L : AppendOnlyLedger σ) (settings : Settings)
    (registry : FlowRegistry) (c : EvaluateCall) (w : World σ) :
    AddsOther L w (evaluate P L.toLedgerBackend settings registry c.draws c.body w).2 := by
  rcases route_world P L.toLedgerBackend settings registry c.draws c.body w with
    hsame | ⟨signal, flow, remembered, -, hworld⟩
  · exact addsOther_of_eq (congrArg (recorded_events L) hsame)
  · rw [hworld]
    exact DecisionRuntimeEngine.evaluate_adds P L settings.engine c.draws.env signal flow w

section Event

variable {action : GateAction} {draws : GateDraws} {request : GateRequest} {actor : Option Actor}
  {gate : HumanGateRequest} {held : DecisionResult}

/-- What is recorded of a gate is a resolution. -/
theorem isResolution_resolution_event :
    (resolution_event P settings action draws request actor gate held).IsResolution :=
  ⟨rfl, rfl⟩

/-- The event of an approval agrees with the gate. -/
theorem gateAgrees_approval (hdecision : gate.decision_id.isSome) (htrace : gate.trace_id.isSome) :
    GateAgrees (approval.gate draws.now request.body.comment gate)
      (resolution_event P settings approve_action draws request actor gate held) := by
  obtain ⟨decision_id, hdecision⟩ := Option.isSome_iff_exists.mp hdecision
  obtain ⟨trace_id, htrace⟩ := Option.isSome_iff_exists.mp htrace
  refine ⟨Or.inl rfl, ⟨"approve", rfl, rfl⟩, rfl, ⟨draws.occurred_at, rfl⟩, ?_, ?_⟩
  · show gate.decision_id = some (gate.decision_id.getD _)
    rw [hdecision]
    rfl
  · show gate.trace_id = some (gate.trace_id.getD _)
    rw [htrace]
    rfl

/-- That of a rejection agrees with no gate: there is no status `"rejectd"`. -/
theorem not_gateAgrees_rejection {gate' : HumanGateRequest} :
    ¬ GateAgrees gate'
      (resolution_event P settings reject_action draws request actor gate held) := by
  intro h
  have htype : some (Value.str "runtime.human_gate.rejectd")
      = some (.str ("runtime.human_gate." ++ gate'.status.value)) := h.event_type
  have htext : "runtime.human_gate.rejectd" = "runtime.human_gate." ++ gate'.status.value :=
    Value.str.inj (Option.some.inj htype)
  rcases h.resolved with hst | hst
  · rw [hst] at htext
    exact absurd htext (by decide)
  · rw [hst] at htext
    exact absurd htext (by decide)

end Event

/-- The ledger is given the event. -/
theorem recorded_events_logged (hwired : settings.ledger_enabled = true) (event : LedgerEvent) :
    recorded_events L (logged L.toLedgerBackend settings event w)
      = L.events (L.append event w.ledger).2 := by
  unfold logged
  rw [if_pos hwired]
  rfl

/-- The request rejects a gate, and the ledger takes the event. -/
def RecordsRejection (P : Platform) (L : AppendOnlyLedger σ) (settings : Settings)
    (auth : AuthSettings) (t : RuntimeEntry σ) : Prop :=
  ∃ draws request actor gate held, t.call = .reject_gate draws request
    ∧ Resolves auth request t.before.human_gate_manager actor gate held
    ∧ Takes L (resolution_event P settings reject_action draws request actor gate held)
      t.before.ledger

end Routes

/-! ## Runs -/

namespace RuntimeCall

open Routes DecisionRuntimeEngine HumanGateManager

variable {σ : Type} {P : Platform} {L : AppendOnlyLedger σ} {settings : Settings}
  {auth : AuthSettings} {registry : FlowRegistry} {calls : List RuntimeCall} {w : World σ}

/-- The ledger agrees with the manager, whose gates are those of decisions of the run. -/
structure Ledgered (L : AppendOnlyLedger σ) (calls : List RuntimeCall) (w : World σ) : Prop where
  agrees : LedgerAgrees L w
  gates : ∀ gate_id gate, w.human_gate_manager.store.get gate_id = some gate →
    gate.id.str = gate_id ∧ gate.id ∈ calls.flatMap RuntimeCall.drawn
      ∧ gate.decision_id.isSome ∧ gate.trace_id.isSome

theorem ledgered_init {s : σ} (hs : ∀ event ∈ L.events s, ¬ event.IsResolution) :
    Ledgered L [] (World.init s) := by
  have hnone : ∀ gate_id, resolution_events L gate_id (World.init s) = [] := by
    intro gate_id
    apply List.filter_eq_nil_iff.mpr
    intro event hevent
    simp [hs event hevent]
  refine ⟨⟨?_, ?_⟩, fun _ _ h => nomatch h⟩
  · intro gate_id
    simp [hnone gate_id]
  · intro gate_id event hevent
    rw [hnone gate_id] at hevent
    cases hevent

/-- A request to resolve a gate leaves the ledger in agreement, unless it is a rejection that the
ledger records. -/
theorem Ledgered.resolve (h : Ledgered L calls w) (hwired : settings.ledger_enabled = true)
    {c : RuntimeCall} {action : GateAction} {draws : GateDraws} {request : GateRequest}
    (haction : c.gate_action = some (action, draws, request)) {actor : Option Actor}
    {gate : HumanGateRequest} {held : DecisionResult}
    (hresolves : Resolves auth request w.human_gate_manager actor gate held)
    (hrejection : action = reject_action → ¬ Takes L
      (resolution_event P settings action draws request actor gate held) w.ledger) :
    Ledgered L calls (logged L.toLedgerBackend settings
      (resolution_event P settings action draws request actor gate held)
      (gate_resolved action draws request gate held w)) := by
  let event := resolution_event P settings action draws request actor gate held
  let w' := logged L.toLedgerBackend settings event (gate_resolved action draws request gate held w)
  obtain ⟨hid, hdrawn, hdecision, htrace⟩ := h.gates _ _ hresolves.stored
  have hnone := h.agrees.of_pending hresolves.stored hresolves.pending
  have hstore : w'.human_gate_manager.store = w.human_gate_manager.store.set request.request_id
      (action.resolution.gate draws.now request.body.comment gate) := by
    show (logged L.toLedgerBackend settings event
      (gate_resolved action draws request gate held w)).human_gate_manager.store = _
    rw [logged_human_gate_manager]
    rfl
  have hother : ∀ gate_id, gate_id ≠ request.request_id →
      w'.human_gate_manager.store.get gate_id = w.human_gate_manager.store.get gate_id := by
    intro gate_id hne
    rw [hstore, Dict.get_set_other _ hne]
  have hevents : recorded_events L w' = L.events (L.append event w.ledger).2 :=
    recorded_events_logged hwired event
  constructor
  · rcases takes_or_same L event w.ledger with htakes | hsame
    · -- the event is the first one of its gate
      have hstep : event.step_id = request.request_id := hid
      have happrove : action = approve_action := by
        rcases action_cases haction with happrove | hreject
        · exact happrove
        · exact absurd htakes (hrejection hreject)
      have hgate : w'.human_gate_manager.store.get event.step_id
          = some (action.resolution.gate draws.now request.body.comment gate) := by
        rw [hstep, hstore, Dict.get_set_same]
      have hagrees : GateAgrees (action.resolution.gate draws.now request.body.comment gate)
          (resolution_event P settings action draws request actor gate held) := by
        rw [happrove]
        exact gateAgrees_approval hdecision htrace
      rw [← hstep] at hnone hother
      exact h.agrees.concat isResolution_resolution_event (hevents.trans htakes) hnone hgate
        hagrees hother
    · refine h.agrees.of_eq ?_ ?_
      · intro gate_id
        unfold resolution_events
        rw [hevents, hsame]
        rfl
      · intro gate_id hne
        apply hother
        rintro rfl
        exact hne hnone
  · intro gate_id gate' hgate'
    by_cases hkey : gate_id = request.request_id
    · rw [hkey, hstore, Dict.get_set_same] at hgate'
      rw [← Option.some.inj hgate', hkey]
      exact ⟨hid, hdrawn, hdecision, htrace⟩
    · rw [hother gate_id hkey] at hgate'
      exact h.gates gate_id gate' hgate'

/-- An evaluation leaves the ledger in agreement: the gate it opens is a new one. -/
theorem Ledgered.evaluate (h : Ledgered L calls w) {e : EvaluateCall}
    (hfresh : e.draws.env.gate_id ∉ calls.flatMap RuntimeCall.drawn) :
    Ledgered L (calls ++ [.evaluate e])
      (Routes.evaluate P L.toLedgerBackend settings registry e.draws e.body w).2 := by
  have hevents := (Routes.evaluate_adds P L settings registry e w).resolution_events
  have hdrawn : ∀ u ∈ calls.flatMap RuntimeCall.drawn,
      u ∈ (calls ++ [RuntimeCall.evaluate e]).flatMap RuntimeCall.drawn := by
    intro u hu
    rw [List.flatMap_append]
    exact List.mem_append_left _ hu
  rcases evaluate_gate_store P L.toLedgerBackend settings registry e w with
    hsame | ⟨signal, flow, core, nodes, hcomputed, hst, hopen⟩
  · refine ⟨h.agrees.of_eq hevents (fun _ _ => by rw [hsame]), ?_⟩
    intro gate_id gate hgate
    rw [hsame] at hgate
    obtain ⟨hid, hmem, hids⟩ := h.gates gate_id gate hgate
    exact ⟨hid, hdrawn _ hmem, hids⟩
  · have hother : ∀ gate_id, gate_id ≠ e.draws.env.gate_id.str →
        (Routes.evaluate P L.toLedgerBackend settings registry e.draws
          e.body w).2.human_gate_manager.store.get gate_id
        = w.human_gate_manager.store.get gate_id := by
      intro gate_id hne
      rw [hopen]
      exact Dict.get_set_other _ hne _
    constructor
    · refine h.agrees.of_eq hevents ?_
      -- a gate of which something is recorded was opened before, under another id
      intro gate_id hne
      apply hother
      rintro rfl
      obtain ⟨event, hevent⟩ := List.exists_mem_of_ne_nil _ hne
      obtain ⟨gate, hgate, -⟩ := h.agrees.agrees _ event hevent
      obtain ⟨hid, hmem, -⟩ := h.gates _ gate hgate
      rw [UUID.str_inj.mp hid] at hmem
      exact hfresh hmem
    · intro gate_id gate hgate
      by_cases hkey : gate_id = e.draws.env.gate_id.str
      · rw [hopen, hkey] at hgate
        have hnew : (w.human_gate_manager.store.set e.draws.env.gate_id.str
            (gate_request e.draws.env.gate_id e.draws.env.gate_created_at core none none)).get
              e.draws.env.gate_id.str = some gate := hgate
        rw [Dict.get_set_same] at hnew
        rw [← Option.some.inj hnew]
        refine ⟨hkey.symm, ?_, rfl, rfl⟩
        rw [List.flatMap_append]
        refine List.mem_append_right _ ?_
        simp [RuntimeCall.drawn, EvaluateCall.drawn, Env.drawn, gate_request]
      · rw [hother gate_id hkey] at hgate
        obtain ⟨hid, hmem, hids⟩ := h.gates gate_id gate hgate
        exact ⟨hid, hdrawn _ hmem, hids⟩

/-- **The step lemma.** Every call that records no rejection leaves the ledger in agreement. -/
theorem Ledgered.step (h : Ledgered L calls w) (hkeys : SameKeys w.human_gate_manager)
    (hwired : settings.ledger_enabled = true) {c : RuntimeCall}
    (hfresh : ∀ u ∈ c.drawn, u ∉ calls.flatMap RuntimeCall.drawn)
    (hnot : ¬ RecordsRejection P L settings auth
      (Run.entry (RuntimeCall.run P L.toLedgerBackend settings auth registry) w c)) :
    Ledgered L (calls ++ [c]) (c.run P L.toLedgerBackend settings auth registry w).2 := by
  have hmono : ∀ {w' : World σ}, Ledgered L calls w' → Ledgered L (calls ++ [c]) w' := by
    intro w' hw'
    refine ⟨hw'.agrees, ?_⟩
    intro gate_id gate hgate
    obtain ⟨hid, hmem, hids⟩ := hw'.gates gate_id gate hgate
    rw [List.flatMap_append]
    exact ⟨hid, List.mem_append_left _ hmem, hids⟩
  rcases cases_on c with ⟨e, rfl⟩ | ⟨action, draws, request, haction⟩ | ⟨draws, body, rfl⟩
  · apply h.evaluate
    apply hfresh
    simp [RuntimeCall.drawn, EvaluateCall.drawn, Env.drawn]
  · apply hmono
    rw [run_of_gate_action haction]
    rcases resolve_gate_run P L.toLedgerBackend settings auth action draws request hkeys with
      ⟨e, hrun, -⟩ | ⟨actor, gate, held, hresolves, hrun, -⟩
    · rw [hrun]
      exact h
    · rw [hrun]
      apply h.resolve hwired haction hresolves
      -- only a call of `reject_gate` carries out a rejection
      rintro rfl htakes
      cases c with
      | evaluate e => cases haction
      | simulate draws' body => cases haction
      | approve_gate draws' request' =>
          have hword : approve_action.word = reject_action.word :=
            congrArg (fun x => x.1.word) (Option.some.inj haction)
          exact absurd hword (by decide)
      | reject_gate draws' request' =>
          cases haction
          exact hnot ⟨draws, request, actor, gate, held, rfl, hresolves, htakes⟩
  · apply hmono
    rw [run_simulate]
    exact h

/-- **The run lemma.** -/
theorem ledgered_run (hwired : settings.ledger_enabled = true) {s : σ}
    (hs : ∀ event ∈ L.events s, ¬ event.IsResolution)
    (hfresh : (calls.flatMap RuntimeCall.drawn).Nodup)
    (hnot : ∀ t ∈ Run.entries (RuntimeCall.run P L.toLedgerBackend settings auth registry)
      (World.init s) calls, ¬ RecordsRejection P L settings auth t) :
    Ledgered L calls (Run.final (RuntimeCall.run P L.toLedgerBackend settings auth registry)
      (World.init s) calls) := by
  induction calls using List.reverseRecOn with
  | nil => exact ledgered_init hs
  | append_singleton calls c ih =>
      rw [List.flatMap_append, List.nodup_append] at hfresh
      rw [Run.entries_concat] at hnot
      have hprov := provenance_run P L.toLedgerBackend settings auth registry s calls
      have hbefore := ih hfresh.1 (fun t ht => hnot t (List.mem_append_left _ ht))
      rw [Run.final_concat]
      apply hbefore.step hprov.held.same_keys hwired
      · intro u hu hdrawn
        exact hfresh.2.2 u hdrawn u (by simpa using hu) rfl
      · exact hnot _ (by simp)

end RuntimeCall

namespace Routes

open DecisionRuntimeEngine

variable {σ : Type}

/-- A rejection that the ledger records puts it at odds with the manager. -/
theorem RecordsRejection.not_agrees {P : Platform} {L : AppendOnlyLedger σ} {settings : Settings}
    {auth : AuthSettings} {registry : FlowRegistry} {w : World σ} {c : RuntimeCall}
    (hwired : settings.ledger_enabled = true)
    (hkeys : HumanGateManager.SameKeys w.human_gate_manager)
    (h : RecordsRejection P L settings auth
      (Run.entry (RuntimeCall.run P L.toLedgerBackend settings auth registry) w c)) :
    ¬ LedgerAgrees L (c.run P L.toLedgerBackend settings auth registry w).2 := by
  obtain ⟨draws, request, actor, gate, held, hcall, hresolves, htakes⟩ := h
  obtain rfl : c = .reject_gate draws request := hcall
  let event := resolution_event P settings reject_action draws request actor gate held
  intro hagrees
  rcases resolve_gate_run P L.toLedgerBackend settings auth reject_action draws request hkeys with
    ⟨e, -, hnone⟩ | ⟨actor', gate', held', hresolves', hrun, -⟩
  · exact hnone actor gate held hresolves
  · obtain rfl := Except.ok.inj (hresolves.authenticated.symm.trans hresolves'.authenticated)
    obtain rfl := Option.some.inj (hresolves.stored.symm.trans hresolves'.stored)
    obtain rfl := Option.some.inj (hresolves.held.symm.trans hresolves'.held)
    -- the ledger now holds the event, which agrees with no gate
    have hledger : recorded_events L ((RuntimeCall.reject_gate draws request).run P
        L.toLedgerBackend settings auth registry w).2 = recorded_events L w ++ [event] := by
      show recorded_events L (resolve_gate P L.toLedgerBackend settings auth reject_action draws
        request w).2 = _
      rw [hrun, recorded_events_logged hwired]
      exact htakes
    have hmem : event ∈ resolution_events L gate.id.str ((RuntimeCall.reject_gate draws request).run
        P L.toLedgerBackend settings auth registry w).2 := by
      unfold resolution_events
      rw [hledger]
      apply List.mem_filter.mpr
      exact ⟨by simp, decide_eq_true ⟨isResolution_resolution_event, rfl⟩⟩
    obtain ⟨gate', -, hgate'⟩ := hagrees.agrees gate.id.str event hmem
    exact not_gateAgrees_rejection hgate'

/-- **When the ledger agrees with the gates.** In every state of a run the ledger holds at most one
event of the resolution of a gate, which says what became of it, exactly when no rejection of the
run is recorded. -/
theorem resolution_events_agree_iff (P : Platform) (L : AppendOnlyLedger σ) (settings : Settings)
    (hwired : settings.ledger_enabled = true) (auth : AuthSettings) (registry : FlowRegistry)
    (s : σ) (hs : ∀ event ∈ L.events s, ¬ event.IsResolution) (calls : List RuntimeCall)
    (hfresh : (calls.flatMap RuntimeCall.drawn).Nodup) :
    (∀ t ∈ Run.entries (RuntimeCall.run P L.toLedgerBackend settings auth registry)
        (World.init s) calls, LedgerAgrees L t.after) ↔
      ∀ t ∈ Run.entries (RuntimeCall.run P L.toLedgerBackend settings auth registry)
        (World.init s) calls, ¬ RecordsRejection P L settings auth t := by
  constructor
  · intro hagree t ht hrecords
    have hafter := hagree t ht
    obtain ⟨pre, c, post, rfl, rfl⟩ := Run.mem_entries.mp ht
    have hprov := RuntimeCall.provenance_run P L.toLedgerBackend settings auth registry s pre
    exact hrecords.not_agrees hwired hprov.held.same_keys hafter
  · intro hnot t ht
    obtain ⟨pre, c, post, rfl, rfl⟩ := Run.mem_entries.mp ht
    rw [List.append_cons] at hfresh hnot
    rw [List.flatMap_append] at hfresh
    rw [Run.entries_append] at hnot
    have hrun := RuntimeCall.ledgered_run hwired hs hfresh.of_append_left
      (fun t ht => hnot t (List.mem_append_left _ ht))
    rw [Run.final_concat] at hrun
    exact hrun.agrees

end Routes

namespace Recorded

/-- An escalated decision, the ids of whose events are all different. -/
def recorded_call : RuntimeCall :=
  .evaluate ⟨⟨UUID.ofInt 10, ⟨9, some 0⟩, env (UUID.repeated 0xa) (UUID.repeated 0xc)⟩,
    request "first"⟩

/-- The request to resolve its gate, and what handling it draws. -/
def resolution_request : GateRequest :=
  { gate_request with request_id := (UUID.repeated 1).str }

def resolution_draws : GateDraws := ⟨⟨20, some 0⟩, ⟨21, some 0⟩⟩

end Recorded

namespace Routes

/-- The gate is rejected, and the ledger records that it was `"rejectd"`. -/
theorem rejected_event_disagrees :
    let calls := [Recorded.recorded_call,
      .reject_gate Recorded.resolution_draws Recorded.resolution_request]
    let history := Run.entries (Recorded.service "parallel") (World.init LedgerClient.init) calls
    let w := Run.final (Recorded.service "parallel") (World.init LedgerClient.init) calls
    history.map (fun t => t.answer.toOption.map (fun result => (result.id, result.status)))
        = [some (UUID.repeated 0xc, .pending_human), some (UUID.repeated 0xc, .rejected)]
      ∧ (resolution_events LedgerClient.append_only (UUID.repeated 1).str w).map
          (fun event => (PyDict.get event.payload "event_type").bind Value.str?)
        = [some "runtime.human_gate.rejectd"]
      ∧ ¬ ∀ t ∈ history, LedgerAgrees LedgerClient.append_only t.after := by
  intro calls history w
  have htypes : (resolution_events LedgerClient.append_only (UUID.repeated 1).str w).map
      (fun event => (PyDict.get event.payload "event_type").bind Value.str?)
        = [some "runtime.human_gate.rejectd"] := by decide +kernel
  refine ⟨by decide +kernel, htypes, ?_⟩
  intro hagree
  have hlast : ∃ t ∈ history, t.after = w := Run.second_after _ _ _
  obtain ⟨t, ht, hafter⟩ := hlast
  have hagrees := hagree t ht
  rw [hafter] at hagrees
  obtain ⟨event, hevents, htype⟩ := List.map_eq_singleton_iff.mp htypes
  obtain ⟨gate, -, hgate⟩ := hagrees.agrees (UUID.repeated 1).str event (by simp [hevents])
  rw [hgate.event_type] at htype
  have htext : "runtime.human_gate." ++ gate.status.value = "runtime.human_gate.rejectd" :=
    Option.some.inj htype
  rcases hgate.resolved with hst | hst
  · rw [hst] at htext
    exact absurd htext (by decide)
  · rw [hst] at htext
    exact absurd htext (by decide)

theorem resolution_events_agree_iff_approved :
    let calls := [Recorded.recorded_call,
      .approve_gate Recorded.resolution_draws Recorded.resolution_request]
    let history := Run.entries (Recorded.service "parallel") (World.init LedgerClient.init) calls
    let w := Run.final (Recorded.service "parallel") (World.init LedgerClient.init) calls
    (∀ t ∈ history, LedgerAgrees LedgerClient.append_only t.after)
      ∧ (resolution_events LedgerClient.append_only (UUID.repeated 1).str w).length = 1 := by
  intro calls history w
  refine ⟨?_, by decide +kernel⟩
  refine (resolution_events_agree_iff Recorded.platform LedgerClient.append_only
    (Recorded.settings "parallel") rfl Recorded.open_access Recorded.escalating_registry
    LedgerClient.init (fun _ h => nomatch h) calls (by decide +kernel)).mpr ?_
  rintro t ht ⟨draws, request, actor, gate, held, hcall, -⟩
  have hmem : t.call ∈ calls := Run.call_mem ht
  rw [hcall] at hmem
  simp [calls, Recorded.recorded_call] at hmem

end Routes

end DecisionRuntime
