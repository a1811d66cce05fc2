/-
What the ledger can change outside the strict mode.

`World.unlogged` is a world without its ledger and without the appends among its
calls. Seen through it, an engine in any mode but `strict` is the engine without a
ledger, whatever the ledger answers or raises (`evaluate_simulates`): the commit is
the last thing `evaluate` does, and what it raises is dropped.

One thing is left. Building the trace that is committed runs the validator of the
result once more. An engine with a trace store builds that trace anyway; one without
builds it only for the ledger, and then the fields the validator fills in depend on
whether there is one (`parallel_ledger_unobservable_iff`).
-/
import DecisionRuntime.GateCommitment

set_option autoImplicit false

namespace DecisionRuntime

/-! ## The validator, run again -/

/-- The fields that the validator fills in are filled in, apart from those that follow the gate
and the action. -/
structure DecisionResult.Canonical (r : DecisionResult) : Prop where
  decision_id : r.decision_id ≠ ""
  signal_id : r.signal_id.isSome
  decision_type : r.decision_type ≠ ""
  selected_flow_id : r.selected_flow_id.isSome
  reason : ¬ (r.reason = none ∧ nonempty r.error_message)
  timestamp : r.timestamp.isSome

/-- The validator changes such a result exactly if its gate or its action has changed since. -/
theorem DecisionResult.Canonical.populate_eq_self_iff {r : DecisionResult} (h : r.Canonical) :
    r.populate_canonical_fields = r ↔
      r.human_gate_required = r.human_gate.isSome ∧ (r.payload = [] → r.action.getD [] = []) := by
  have hsome : ∀ {x : Option String} (d : String), x.isSome → some (x.getD d) = x := by
    intro x d hx
    obtain ⟨y, rfl⟩ := Option.isSome_iff_exists.mp hx
    rfl
  constructor
  · intro heq
    refine ⟨(congrArg DecisionResult.human_gate_required heq).symm, ?_⟩
    intro hnil
    have hpayload := congrArg DecisionResult.payload heq
    simpa [populate_canonical_fields, hnil] using hpayload
  · rintro ⟨hgate, haction⟩
    have hpayload : (if r.payload.isEmpty then r.action.getD [] else r.payload) = r.payload := by
      by_cases hnil : r.payload = []
      · rw [hnil, haction hnil]
        rfl
      · rw [if_neg (by simpa using hnil)]
    rw [populate_canonical_fields, if_neg h.decision_id, if_neg h.decision_type, if_neg h.reason,
      hpayload, hsome _ h.signal_id, hsome _ h.selected_flow_id, hsome _ h.timestamp, ← hgate]

namespace PureEvaluate

/-- The decision of an evaluation was validated when it was constructed. -/
theorem canonical {P : Platform} {draws : Draws} {signal : Signal} {flow : DecisionFlow}
    {core : DecisionResult} {evaluated_nodes : List PyDict}
    (computed : pure_evaluate P draws signal flow = .ok (core, evaluated_nodes)) :
    core.Canonical ∧ core.human_gate_required = false := by
  obtain ⟨outcomes, sel, version, brs, -, -, -, -, hcore, -⟩ := pure_evaluate_eq_ok.mp computed
  obtain ⟨status, action, selected, hdom⟩ :=
    BoundaryEngine.apply_dominant_eq (initial draws signal flow outcomes sel version) brs
  rw [hdom] at hcore
  subst hcore
  refine ⟨?_, rfl⟩
  have hid : ∀ u : UUID, u.str ≠ "" := by
    intro u h
    have hlen := congrArg (fun s => s.toList.length) h
    simp [UUID.length_chars] at hlen
  constructor
  · exact hid _
  · rfl
  · show sel.status.value ≠ ""
    cases sel.status <;> decide
  · rfl
  · rintro ⟨-, hnone⟩
    exact absurd hnone (by simp [initial, DecisionResult.populate_canonical_fields, nonempty])
  · rfl

end PureEvaluate

/-! ## A world without its ledger -/

/-- The world without its ledger and the appends to it. -/
def World.unlogged {σ : Type} (w : World σ) : World Unit where
  human_gate_manager := w.human_gate_manager
  trace_store := w.trace_store
  event_bus := w.event_bus
  execution_publisher := w.execution_publisher
  idempotency_store := w.idempotency_store
  ledger := ()
  calls := w.calls.filter (fun call => call.published.isSome)

/-- The same engine, with a ledger or without. -/
def EngineConfig.with_ledger (cfg : EngineConfig) (wired : Bool) : EngineConfig :=
  { cfg with ledger_adapter := wired }

namespace DecisionRuntimeEngine

variable {σ : Type} {P : Platform} {C : LedgerBackend σ} {cfg : EngineConfig} {env : Env}
  {signal : Signal} {flow : DecisionFlow}

/-- A client that is never called. -/
def no_ledger : LedgerBackend Unit where
  append _ := Exec.raise (.attributeError "'NoneType' object has no attribute 'append'")
  get_by_event_id _ := Exec.raise (.attributeError "'NoneType' object has no attribute")
  get_events_by_trace_id _ := Exec.raise (.attributeError "'NoneType' object has no attribute")

/-- What becomes of a result without a trace store: with a ledger its trace is built. -/
def revalidated (cfg : EngineConfig) (wired : Bool) (final : DecisionResult) : DecisionResult :=
  if wired ∧ cfg.trace_store = false then final.populate_canonical_fields else final

theorem LedgerOnly.unlogged {w w' : World σ} (h : LedgerOnly w w') : w'.unlogged = w.unlogged := by
  obtain ⟨appends, hcalls, hnone⟩ := h.calls
  have happends : appends.filter (fun call => call.published.isSome) = [] := by
    rw [List.filter_eq_nil_iff]
    intro call hcall
    simp [hnone call hcall]
  rw [World.unlogged, World.unlogged, h.human_gate_manager, h.trace_store, h.event_bus,
    h.execution_publisher, h.idempotency_store, hcalls, List.filter_append, happends,
    List.append_nil]

/-! ### The blocks -/

section Blocks

theorem not_strict (hmode : cfg.ledger_mode ≠ "strict") (wired : Bool) :
    ¬ (cfg.with_ledger wired).strict :=
  fun h => hmode h.2

theorem simulates_publish_event (wired : Bool) (fault : Fault) (event : RuntimeEvent) :
    Exec.Simulates (World.unlogged (σ := σ)) (when_wired wired (publish_event fault event))
      (when_wired wired (publish_event fault event)) := by
  intro w
  rw [publish_event_run, publish_event_run]
  refine ⟨rfl, ?_⟩
  cases wired <;> simp [event_published, World.unlogged, ExternalCall.published]

theorem simulates_publish_execution (wired : Bool) (fault : Fault) (event : RuntimeEvent) :
    Exec.Simulates (World.unlogged (σ := σ)) (when_wired wired (publish_execution fault event))
      (when_wired wired (publish_execution fault event)) := by
  intro w
  rw [publish_execution_run, publish_execution_run]
  refine ⟨rfl, ?_⟩
  cases wired <;> simp [execution_published, World.unlogged, ExternalCall.published]

theorem simulates_save_trace (wired : Bool) (fault : Fault) (trace : DecisionTrace) :
    Exec.Simulates (World.unlogged (σ := σ)) (when_wired wired (save_trace fault trace))
      (when_wired wired (save_trace fault trace)) := by
  intro w
  rw [save_trace_run, save_trace_run]
  exact ⟨rfl, rfl⟩

/-- A commit of the parallel mode cannot be seen. -/
theorem simulates_parallel_commit (P : Platform) (C : LedgerBackend σ) (cfg : EngineConfig)
    (trace : DecisionTrace × DecisionResult) :
    Exec.Simulates World.unlogged
      (when_wired cfg.parallel (parallel_commit P C cfg trace.1 trace.2)) (return ()) := by
  intro w
  rw [parallel_commit_run]
  exact ⟨rfl, (ledgerOnly_committed_after P C cfg trace w).unlogged⟩

theorem simulates_open_gate (wired : Bool) (final : DecisionResult) :
    Exec.Simulates (World.unlogged (σ := σ)) (open_gate (cfg.with_ledger wired) env final)
      (open_gate (cfg.with_ledger false) env final) := by
  intro w
  rw [open_gate_run, open_gate_run]
  exact ⟨rfl, rfl⟩

theorem simulates_dispatch (wired : Bool) (final : DecisionResult) :
    Exec.Simulates (World.unlogged (σ := σ)) (dispatch (cfg.with_ledger wired) env final)
      (dispatch (cfg.with_ledger false) env final) := by
  unfold dispatch
  by_cases hs : final.status = .confirmed
  · rw [if_pos hs, if_pos hs]
    apply Exec.simulates_bind (simulates_publish_event _ _ _)
    intro _
    apply Exec.simulates_bind (simulates_publish_execution _ _ _)
    exact fun _ => Exec.simulates_pure _
  · rw [if_neg hs, if_neg hs]
    exact Exec.simulates_pure _

/-- When the trace is built, it is stored and committed as far as these are wired, and the result
is the validated one. -/
theorem persist_built (h : cfg.trace_store = true ∨ cfg.parallel) (final : DecisionResult)
    (evaluated_nodes : List PyDict) :
    persist P C cfg env signal flow final evaluated_nodes =
      (when_wired cfg.trace_store (save_trace env.trace_store_fault
          (stored_trace env signal flow final evaluated_nodes).1) >>= fun _ =>
        when_wired cfg.parallel (parallel_commit P C cfg
          (stored_trace env signal flow final evaluated_nodes).1
          (stored_trace env signal flow final evaluated_nodes).2) >>= fun _ =>
        return final.populate_canonical_fields) := by
  rw [persist, if_pos h]
  rfl

theorem persist_unbuilt (h : ¬ (cfg.trace_store = true ∨ cfg.parallel)) (final : DecisionResult)
    (evaluated_nodes : List PyDict) :
    persist P C cfg env signal flow final evaluated_nodes = return final := by
  rw [persist, if_neg h]

/-- The trace of an engine with a trace store is built and stored in either case; without one it
is built for the ledger only. -/
theorem simulates_persist (P : Platform) (C : LedgerBackend σ) (cfg : EngineConfig) (env : Env)
    (signal : Signal) (flow : DecisionFlow) (hmode : cfg.ledger_mode ≠ "strict") (wired : Bool)
    (final : DecisionResult) (evaluated_nodes : List PyDict) :
    Exec.Simulates World.unlogged
      (persist P C (cfg.with_ledger wired) env signal flow final evaluated_nodes)
      (revalidated cfg wired <$>
        persist P no_ledger (cfg.with_ledger false) env signal flow final evaluated_nodes) := by
  have hnone : ¬ (cfg.with_ledger false).parallel := fun h => Bool.false_ne_true h.1
  have hoff : when_wired (σ := Unit) (cfg.with_ledger false).parallel (parallel_commit P no_ledger
      (cfg.with_ledger false) (stored_trace env signal flow final evaluated_nodes).1
      (stored_trace env signal flow final evaluated_nodes).2) = return () := by
    rw [when_wired, if_neg (by simpa using hnone)]
  have hcommit := simulates_parallel_commit P C (cfg.with_ledger wired)
    (stored_trace env signal flow final evaluated_nodes)
  by_cases hts : cfg.trace_store = true
  · -- both engines build the trace, and store it
    have hid : revalidated cfg wired final.populate_canonical_fields
        = final.populate_canonical_fields := if_neg (by simp [hts])
    have hbuilt : ∀ a, (cfg.with_ledger a).trace_store = true ∨ (cfg.with_ledger a).parallel :=
      fun _ => Or.inl hts
    rw [persist_built (hbuilt wired), persist_built (hbuilt false), hoff, map_bind]
    apply Exec.simulates_bind (simulates_save_trace _ _ _)
    intro _
    rw [map_bind]
    apply Exec.simulates_bind hcommit
    intro _ w
    rw [Exec.run_map, Exec.run_pure, Exec.run_pure, Except.map, hid]
    exact ⟨rfl, rfl⟩
  have hunbuilt : ∀ a, ¬ (cfg.with_ledger a).parallel →
      ¬ ((cfg.with_ledger a).trace_store = true ∨ (cfg.with_ledger a).parallel) :=
    fun _ hpar => not_or.mpr ⟨hts, hpar⟩
  rw [persist_unbuilt (hunbuilt false hnone)]
  by_cases hw : wired = true
  · -- only the engine with a ledger builds the trace
    have hpar : (cfg.with_ledger wired).parallel := ⟨hw, hmode⟩
    have hfalse : (cfg.with_ledger wired).trace_store = false := Bool.eq_false_of_not_eq_true hts
    have hre : revalidated cfg wired final = final.populate_canonical_fields :=
      if_pos ⟨hw, hfalse⟩
    have htarget : revalidated cfg wired <$> (return final : Exec PyError (World Unit) _)
        = ((pure () : Exec PyError (World Unit) Unit) >>= fun _ =>
          (pure () : Exec PyError (World Unit) Unit) >>= fun _ =>
          return final.populate_canonical_fields) := by
      rw [← hre]
      rfl
    rw [persist_built (Or.inr hpar), hfalse, htarget]
    apply Exec.simulates_bind (Exec.simulates_pure ())
    intro _
    apply Exec.simulates_bind hcommit
    exact fun _ => Exec.simulates_pure _
  · have hpar : ¬ (cfg.with_ledger wired).parallel := fun h => hw h.1
    have hre : revalidated cfg wired final = final := if_neg (fun h => hw h.1)
    rw [persist_unbuilt (hunbuilt wired hpar)]
    intro w
    rw [Exec.run_map, Exec.run_pure, Exec.run_pure, Except.map, hre]
    exact ⟨rfl, rfl⟩

/-- Outside the strict mode `evaluate` is its pure core, the gate, the dispatch and the trace. -/
theorem evaluate_not_strict (hs : ¬ cfg.strict) : evaluate P C cfg env signal flow =
    (Exec.lift (PureEvaluate.pure_evaluate P env.draws signal flow) >>= fun decided =>
      open_gate cfg env decided.1 >>= fun final =>
      dispatch cfg env final >>= fun final =>
      persist P C cfg env signal flow final decided.2) := by
  have hgate : ∀ final evaluated_nodes,
      strict_commit P C cfg env signal flow final evaluated_nodes = return .proceed final := by
    intro final evaluated_nodes
    rw [strict_commit, if_neg hs]
  have hremember : ∀ final, remember (σ := σ) cfg signal final = return () := by
    intro final
    rw [remember, if_neg (fun h => hs h.1)]
  funext w
  unfold evaluate finish
  simp only [hgate, hremember]
  rfl

/-- **The engine without a ledger.** Outside the strict mode every other engine is this one, up to
the fields that the validator fills in. -/
theorem simulates_evaluate (P : Platform) (C : LedgerBackend σ) (cfg : EngineConfig) (env : Env)
    (signal : Signal) (flow : DecisionFlow) (hmode : cfg.ledger_mode ≠ "strict") (wired : Bool) :
    Exec.Simulates World.unlogged (evaluate P C (cfg.with_ledger wired) env signal flow)
      (revalidated cfg wired <$> evaluate P no_ledger (cfg.with_ledger false) env signal flow) := by
  rw [evaluate_not_strict (not_strict hmode wired), evaluate_not_strict (not_strict hmode false)]
  simp only [map_bind]
  apply Exec.simulates_bind (Exec.simulates_lift _)
  intro decided
  apply Exec.simulates_bind (simulates_open_gate wired decided.1)
  intro final
  apply Exec.simulates_bind (simulates_dispatch wired final)
  intro final
  exact simulates_persist P C cfg env signal flow hmode wired final decided.2

end Blocks

/-! ## Two runs -/

/-- The decision of the call is changed by the validator after it was constructed: it gets a gate,
or a boundary gave it an action that its payload lacks, and it is handed on without a failure. -/
def Revalidates (P : Platform) (cfg : EngineConfig) : EngineCall → Prop
  | .evaluate env signal flow => ∃ core evaluated_nodes,
    PureEvaluate.pure_evaluate P env.draws signal flow = .ok (core, evaluated_nodes) ∧
      (core.status = .pending_human ∧ cfg.human_gate_manager = true ∨
        core.payload = [] ∧ core.action.getD [] ≠ [] ∧
          (core.status = .confirmed → (cfg.event_bus = true → env.event_bus_fault = .none) ∧
            (cfg.execution_publisher = true → env.execution_publisher_fault = .none)))
  | _ => False

/-- The stores of two engines hold the same. -/
structure SameStores {τ : Type} (w : World σ) (v : World τ) : Prop where
  event_bus : w.event_bus = v.event_bus
  execution_publisher : w.execution_publisher = v.execution_publisher
  trace_store : w.trace_store = v.trace_store
  human_gate_manager : w.human_gate_manager = v.human_gate_manager
  idempotency_store : w.idempotency_store = v.idempotency_store

theorem sameStores_of_unlogged {τ : Type} {w : World σ} {v : World τ}
    (h : w.unlogged = v.unlogged) : SameStores w v :=
  ⟨congrArg World.event_bus h, congrArg World.execution_publisher h,
    congrArg World.trace_store h, congrArg World.human_gate_manager h,
    congrArg World.idempotency_store h⟩

section Revalidation

variable {core final : DecisionResult} {evaluated_nodes : List PyDict}

/-- Whether the validator changes the result of an evaluation is decided by its gate and its
action. -/
theorem populate_settled_iff
    (computed : PureEvaluate.pure_evaluate P env.draws signal flow = .ok (core, evaluated_nodes))
    (hfinal : final = opened cfg env core ∨ final = requested env (opened cfg env core)) :
    final.populate_canonical_fields = final ↔
      ¬ (core.status = .pending_human ∧ cfg.human_gate_manager = true) ∧
        (core.payload = [] → core.action.getD [] = []) := by
  obtain ⟨hcanonical, hrequired⟩ := PureEvaluate.canonical computed
  have hnone := (PureEvaluate.stamped computed).human_gate
  have hopened : (opened cfg env core).Canonical := by
    unfold opened
    split_ifs
    · exact ⟨hcanonical.1, hcanonical.2, hcanonical.3, hcanonical.4, hcanonical.5, hcanonical.6⟩
    · exact hcanonical
  -- the copies of the engine leave the canonical fields in place
  have hsettled : final.Canonical := by
    rcases hfinal with rfl | rfl
    · exact hopened
    · exact ⟨hopened.1, hopened.2, hopened.3, hopened.4, hopened.5, hopened.6⟩
  have hgate : final.human_gate_required = false ∧ final.payload = core.payload
      ∧ final.action = core.action ∧ (final.human_gate.isSome = true ↔
        core.status = .pending_human ∧ cfg.human_gate_manager = true) := by
    rcases hfinal with rfl | rfl
    all_goals
      simp only [requested, opened]
      split_ifs with hopen <;> simp_all
  have hclosed : false = final.human_gate.isSome ↔ ¬ final.human_gate.isSome = true := by
    rw [Bool.not_eq_true]
    exact eq_comm
  rw [hsettled.populate_eq_self_iff, hgate.1, hgate.2.1, hgate.2.2.1, ← hgate.2.2.2, hclosed]

/-- The answers of the engine without a ledger that the validator would change. -/
theorem revalidates_iff (hmode : cfg.ledger_mode ≠ "strict") (hts : cfg.trace_store = false)
    (w : World Unit) :
    (∀ r, (evaluate P no_ledger (cfg.with_ledger false) env signal flow w).1 = .ok r →
        r.populate_canonical_fields = r) ↔
      ¬ Revalidates P cfg (.evaluate env signal flow) := by
  have hrun := evaluate_run P no_ledger (cfg.with_ledger false) env signal flow w
  generalize (evaluate P no_ledger (cfg.with_ledger false) env signal flow w).1 = answer at hrun ⊢
  generalize (evaluate P no_ledger (cfg.with_ledger false) env signal flow w).2 = w' at hrun
  have hready : ∀ core, ready (cfg.with_ledger false) env core = opened cfg env core :=
    fun core => if_neg (not_strict hmode false)
  have hsame : ∀ {core core' : DecisionResult} {nodes nodes' : List PyDict},
      PureEvaluate.pure_evaluate P env.draws signal flow = .ok (core, nodes) →
      PureEvaluate.pure_evaluate P env.draws signal flow = .ok (core', nodes') → core = core' :=
    fun h h' => (except_pair_unique h h').1
  rcases hrun with ⟨invalid⟩ | ⟨_, hstrict⟩ | ⟨computed, _, _, hd⟩ | ⟨_, _, _, _, hf⟩
    | @⟨core, final, nodes, _, _, computed, _, _, hd⟩
  case invalid =>
    refine iff_of_true (fun r h => by cases h) ?_
    rintro ⟨core, nodes, computed, -⟩
    rw [invalid] at computed
    cases computed
  case stopped => exact absurd hstrict (not_strict hmode false)
  case undispatched =>
    -- a confirmed decision that was not handed on: nothing is returned
    refine iff_of_true (fun r h => by cases h) ?_
    rintro ⟨core, nodes, computed', hchange⟩
    obtain rfl := hsame computed computed'
    rcases hd with _ | _ | ⟨hst, hwhy⟩
    rw [hready, opened_status] at hst
    rcases hchange with ⟨hpending, -⟩ | ⟨-, -, hok⟩
    · rw [hst] at hpending
      cases hpending
    · obtain ⟨hbus, hpub⟩ := hok hst
      rcases hwhy with ⟨hw, hf⟩ | ⟨hw, hf⟩
      · exact hf (hbus hw)
      · exact hf (hpub hw)
  case unsaved =>
    rw [show (cfg.with_ledger false).trace_store = false from hts] at hf
    exact absurd hf.1 Bool.false_ne_true
  case done =>
    -- without a trace store the answer is what the dispatch returned
    have hpersisted : persisted (cfg.with_ledger false) final = final := by
      rw [persisted, if_neg]
      rintro (h | h)
      · exact Bool.false_ne_true (hts.symm.trans h)
      · exact Bool.false_ne_true h.1
    have hfinal : final = opened cfg env core ∨ final = requested env (opened cfg env core) := by
      rcases hd.result with ⟨h, -⟩ | ⟨h, -⟩
      · exact Or.inl (h.trans (hready core))
      · exact Or.inr (h.trans (by rw [hready]))
    have hok : core.status = .confirmed → (cfg.event_bus = true → env.event_bus_fault = .none) ∧
        (cfg.execution_publisher = true → env.execution_publisher_fault = .none) := by
      intro hst
      rcases hd with hne | ⟨_, hbus, hpub⟩
      · rw [hready, opened_status] at hne
        exact absurd hst hne
      · exact ⟨hbus, hpub⟩
    rw [hpersisted]
    constructor
    · rintro hall ⟨core', nodes', computed', hchange⟩
      obtain rfl := hsame computed computed'
      obtain ⟨hgate, haction⟩ := (populate_settled_iff computed hfinal).mp (hall final rfl)
      rcases hchange with hchange | ⟨hnil, hne, -⟩
      · exact hgate hchange
      · exact hne (haction hnil)
    · intro hnot r hr
      obtain rfl := Except.ok.inj hr
      apply (populate_settled_iff computed hfinal).mpr
      constructor
      · exact fun h => hnot ⟨core, nodes, computed, Or.inl h⟩
      · intro hnil
        by_contra hne
        exact hnot ⟨core, nodes, computed, Or.inr ⟨hnil, hne, hok⟩⟩

end Revalidation

/-! ### One call, and all of them -/

theorem simulates_on_gates (x : Exec PyError HumanGateManager DecisionResult) :
    Exec.Simulates (World.unlogged (σ := σ)) (EngineCall.on_gates x) (EngineCall.on_gates x) :=
  fun _ => ⟨rfl, rfl⟩

section Runs

variable {τ : Type} (P : Platform) (C : LedgerBackend σ) (D : LedgerBackend τ)
  (cfg : EngineConfig) (hmode : cfg.ledger_mode ≠ "strict") (a b : Bool)

include hmode

/-- The results of the engine without a ledger, seen with two ledgers. -/
theorem revalidated_eq_iff (env : Env) (signal : Signal) (flow : DecisionFlow) (w : World Unit) :
    (evaluate P no_ledger (cfg.with_ledger false) env signal flow w).1.map (revalidated cfg a)
        = (evaluate P no_ledger (cfg.with_ledger false) env signal flow w).1.map
          (revalidated cfg b) ↔
      cfg.trace_store = true ∨ a = b ∨ ¬ Revalidates P cfg (.evaluate env signal flow) := by
  have hmap : ∀ (x : Except PyError DecisionResult) (f g : DecisionResult → DecisionResult),
      x.map f = x.map g ↔ ∀ r, x = .ok r → f r = g r := by
    intro x f g
    cases x <;> simp [Except.map]
  rw [hmap]
  by_cases hts : cfg.trace_store = true
  · simp [revalidated, hts]
  by_cases hab : a = b
  · simp [hab]
  -- one of the two has a ledger, and no trace store to build the trace for
  have hfalse : cfg.trace_store = false := Bool.eq_false_of_not_eq_true hts
  have hpopulate : ∀ r, revalidated cfg a r = revalidated cfg b r ↔
      r.populate_canonical_fields = r := by
    intro r
    have hon : revalidated cfg true r = r.populate_canonical_fields := if_pos ⟨rfl, hfalse⟩
    have hoff : revalidated cfg false r = r := if_neg (fun h => Bool.false_ne_true h.1)
    cases a with
    | false =>
        cases b with
        | false => exact absurd rfl hab
        | true =>
            rw [hon, hoff]
            exact eq_comm
    | true =>
        cases b with
        | false => rw [hon, hoff]
        | true => exact absurd rfl hab
  simp only [hpopulate, revalidates_iff hmode hfalse w]
  rw [or_iff_right hts, or_iff_right hab]

/-- **The step lemma.** -/
theorem call_unlogged (c : EngineCall) (w : World σ) (v : World τ)
    (h : w.unlogged = v.unlogged) :
    ((c.run P C (cfg.with_ledger a) w).1 = (c.run P D (cfg.with_ledger b) v).1 ↔
        cfg.trace_store = true ∨ a = b ∨ ¬ Revalidates P cfg c)
      ∧ (c.run P C (cfg.with_ledger a) w).2.unlogged
        = (c.run P D (cfg.with_ledger b) v).2.unlogged := by
  -- the gates do not look at the ledger
  have hgates : ∀ x : Exec PyError HumanGateManager DecisionResult,
      ((EngineCall.on_gates x w).1 = (EngineCall.on_gates x v).1 ↔
          cfg.trace_store = true ∨ a = b ∨ ¬ False)
        ∧ (EngineCall.on_gates x w).2.unlogged = (EngineCall.on_gates x v).2.unlogged := by
    intro x
    obtain ⟨hanswer, hworld⟩ := simulates_on_gates x w
    obtain ⟨hanswer', hworld'⟩ := simulates_on_gates x v
    rw [hanswer, hworld, hanswer', hworld', h]
    exact ⟨iff_of_true rfl (Or.inr (Or.inr not_false)), rfl⟩
  cases c with
  | evaluate env signal flow =>
      obtain ⟨hanswer, hworld⟩ := simulates_evaluate P C cfg env signal flow hmode a w
      obtain ⟨hanswer', hworld'⟩ := simulates_evaluate P D cfg env signal flow hmode b v
      rw [Exec.run_map] at hanswer hworld hanswer' hworld'
      simp only [EngineCall.run]
      rw [hanswer, hanswer', hworld, hworld', h]
      exact ⟨revalidated_eq_iff P cfg hmode a b env signal flow v.unlogged, rfl⟩
  | simulate draws completed_at signal flow =>
      exact ⟨iff_of_true rfl (Or.inr (Or.inr not_false)), h⟩
  | approve now request_id _ comment actor_roles =>
      exact hgates (HumanGateManager.approve now request_id comment actor_roles)
  | reject now request_id _ comment actor_roles =>
      exact hgates (HumanGateManager.reject now request_id comment actor_roles)

/-- **When the ledger cannot be observed.** Two engines that differ in their ledger only, made
the same calls, return the same results and hold the same in their stores, if and only if both
have a trace store, or both or neither have a ledger, or the validator changes no decision of the
run after its construction. -/
theorem parallel_ledger_unobservable_iff (s : σ) (t : τ) (calls : List EngineCall) :
    ((Run.entries (EngineCall.run P C (cfg.with_ledger a)) (World.init s) calls).map Entry.answer
        = (Run.entries (EngineCall.run P D (cfg.with_ledger b)) (World.init t) calls).map
          Entry.answer
      ∧ SameStores (Run.final (EngineCall.run P C (cfg.with_ledger a)) (World.init s) calls)
        (Run.final (EngineCall.run P D (cfg.with_ledger b)) (World.init t) calls)) ↔
      cfg.trace_store = true ∨ a = b ∨ ∀ c ∈ calls, ¬ Revalidates P cfg c := by
  have hinit : (World.init s).unlogged = (World.init t).unlogged := rfl
  obtain ⟨hanswers, hfinal⟩ := Run.answers_eq_iff
    (fun c w v h => call_unlogged P C D cfg hmode a b c w v h) hinit calls
  rw [hanswers, and_iff_left (sameStores_of_unlogged hfinal)]
  by_cases hts : cfg.trace_store = true
  · simp [hts]
  by_cases hab : a = b
  · simp [hab]
  simp only [or_iff_right hts, or_iff_right hab]

end Runs

end DecisionRuntimeEngine

namespace Recorded

/-- An engine without a trace store. -/
def untraced : EngineConfig := { config "parallel" with trace_store := false }

end Recorded

namespace DecisionRuntimeEngine

/-- Without a trace store, the ledger decides whether an escalated decision says that a human has
to approve it. -/
theorem parallel_ledger_observed :
    let run (wired : Bool) := Run.entries (EngineCall.run Recorded.platform LedgerClient.backend
      (Recorded.untraced.with_ledger wired)) (World.init LedgerClient.init)
      (Recorded.escalation.take 1)
    let required (wired : Bool) := ((run wired).map Entry.answer).map
      (fun answer => answer.toOption.map DecisionResult.human_gate_required)
    required true = [some true] ∧ required false = [some false]
      ∧ (run true).map Entry.answer ≠ (run false).map Entry.answer := by
  intro run required
  have htrue : required true = [some true] := by decide +kernel
  have hfalse : required false = [some false] := by decide +kernel
  refine ⟨htrue, hfalse, ?_⟩
  intro hsame
  have hrequired : required true = required false := by
    simp only [required, hsame]
  rw [htrue, hfalse] at hrequired
  cases hrequired

/-- With a trace store, a ledger that refuses everything cannot be told from none. -/
theorem parallel_ledger_unobservable_iff_traced :
    let refused := Run.entries (EngineCall.run Recorded.platform Recorded.refusing
      ((Recorded.config "parallel").with_ledger true)) (World.init ()) Recorded.escalation
    let unlogged := Run.entries (EngineCall.run Recorded.platform LedgerClient.backend
      ((Recorded.config "parallel").with_ledger false)) (World.init LedgerClient.init)
      Recorded.escalation
    refused.map Entry.answer = unlogged.map Entry.answer := by
  intro refused unlogged
  exact ((parallel_ledger_unobservable_iff Recorded.platform Recorded.refusing
    LedgerClient.backend (Recorded.config "parallel") (by decide) true false ()
    LedgerClient.init Recorded.escalation).mpr (Or.inl rfl)).1

end DecisionRuntimeEngine

end DecisionRuntime
