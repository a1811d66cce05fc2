/-
What the answer of an `evaluate` depends on.

Past the commit gate nothing is read back from the world: publishing, remembering
and storing answer the same whatever is there (`oblivious_finish`). Outside the
strict mode the whole of `evaluate` is oblivious. In strict mode the ledger has a
say, and a deduplicating one only through the ids of the events it already holds:
an evaluation none of whose events is recorded is answered the same in every world.
-/
import DecisionRuntime.EngineBlocks

set_option autoImplicit false

namespace DecisionRuntime

/-- An append, with the answer of the ledger. -/
def ExternalCall.appended : ExternalCall → Option (LedgerEvent × Except PyError LedgerAppendResult)
  | .append event answer => some (event, answer)
  | .publish_event _ | .publish_execution _ => none

/-- The appends that have been made to the ledger. -/
def World.appends {σ : Type} (w : World σ) :
    List (LedgerEvent × Except PyError LedgerAppendResult) :=
  w.calls.filterMap ExternalCall.appended

namespace DecisionRuntimeEngine

open RuntimeLedgerAdapter

variable {σ : Type} {P : Platform} {C : LedgerBackend σ} {cfg : EngineConfig} {env : Env}
  {signal : Signal} {flow : DecisionFlow}

/-! ## Past the commit gate -/

section Oblivious

theorem oblivious_faulty (fault : Fault) (effect : World σ → World σ) :
    Exec.Oblivious (faulty fault effect) := by
  rcases fault with _ | _ | _
  · exact Exec.oblivious_modify effect
  · exact Exec.oblivious_raise _
  · exact Exec.oblivious_bind (Exec.oblivious_modify effect) (fun _ => Exec.oblivious_raise _)

theorem oblivious_when_wired (wired : Bool) {call : Exec PyError (World σ) Unit}
    (h : Exec.Oblivious call) : Exec.Oblivious (when_wired wired call) :=
  Exec.oblivious_ite h (Exec.oblivious_pure ())

theorem oblivious_dispatch (cfg : EngineConfig) (env : Env) (final : DecisionResult) :
    Exec.Oblivious (dispatch (σ := σ) cfg env final) := by
  apply Exec.oblivious_ite
  · apply Exec.oblivious_bind
    · apply oblivious_when_wired
      exact Exec.oblivious_bind (Exec.oblivious_modify _) (fun _ => oblivious_faulty _ _)
    · intro _
      apply Exec.oblivious_bind
      · apply oblivious_when_wired
        exact Exec.oblivious_bind (Exec.oblivious_modify _) (fun _ => oblivious_faulty _ _)
      · exact fun _ => Exec.oblivious_pure _
  · exact Exec.oblivious_pure final

/-- Whatever the ledger does in a parallel commit, it is dropped. -/
theorem oblivious_parallel_commit (P : Platform) (C : LedgerBackend σ) (cfg : EngineConfig)
    (trace : DecisionTrace × DecisionResult) :
    Exec.Oblivious (when_wired cfg.parallel (parallel_commit P C cfg trace.1 trace.2)) := by
  intro w w'
  rw [parallel_commit_run, parallel_commit_run]

theorem oblivious_persist (P : Platform) (C : LedgerBackend σ) (cfg : EngineConfig) (env : Env)
    (signal : Signal) (flow : DecisionFlow) (final : DecisionResult)
    (evaluated_nodes : List PyDict) :
    Exec.Oblivious (persist P C cfg env signal flow final evaluated_nodes) := by
  apply Exec.oblivious_ite
  · apply Exec.oblivious_bind
    · exact oblivious_when_wired cfg.trace_store (oblivious_faulty _ _)
    · intro _
      apply Exec.oblivious_bind
      · exact oblivious_parallel_commit P C cfg
          (create_trace env.completed_at signal flow final evaluated_nodes)
      · exact fun _ => Exec.oblivious_pure _
  · exact Exec.oblivious_pure final

/-- Past the commit gate nothing depends on the world. -/
theorem oblivious_conclude (P : Platform) (C : LedgerBackend σ) (cfg : EngineConfig) (env : Env)
    (signal : Signal) (flow : DecisionFlow) (evaluated_nodes : List PyDict)
    (answer : GateAnswer) :
    Exec.Oblivious (conclude P C cfg env signal flow evaluated_nodes answer) := by
  rcases answer with final | result
  · apply Exec.oblivious_bind (oblivious_dispatch cfg env final)
    intro final
    apply Exec.oblivious_bind
    · exact Exec.oblivious_ite (Exec.oblivious_modify _) (Exec.oblivious_pure ())
    · exact fun _ => oblivious_persist P C cfg env signal flow final evaluated_nodes
  · exact Exec.oblivious_pure result

end Oblivious

/-! ## The commit gate, for events that are new -/

section Strict

variable {core : DecisionResult} {evaluated_nodes : List PyDict} {events : List LedgerEvent}

/-- What the commit gate answers for a commit that is not a duplicate. -/
def judged (env : Env) (final : DecisionResult) (status : LedgerCommitStatus) : GateAnswer :=
  if status = .accepted then .proceed final else .answered (refused env status final)

/-- Without a duplicate there is nothing to recover: the appends decide. -/
theorem strict_commit_new (hs : cfg.strict) {final : DecisionResult}
    (hbuild : build_events P cfg.schema_version
      (commit_trace env signal flow final evaluated_nodes).1
      (commit_trace env signal flow final evaluated_nodes).2 = .ok events) {w : World σ}
    (hnew : ∀ answers w', append_all (client C) events w = (.ok answers, w') →
      (totals {} events answers).result.status ≠ .duplicate) :
    strict_commit P C cfg env signal flow final evaluated_nodes w =
      ((append_all (client C) events w).1.map (fun answers =>
          judged env final.populate_canonical_fields (totals {} events answers).result.status),
        (append_all (client C) events w).2) := by
  have hcommit := commit_run (client C) hbuild w
  rw [strict_commit_eq hs]
  rcases happ : append_all (client C) events w with ⟨e | answers, w'⟩
  · rw [happ] at hcommit
    exact Exec.run_bind_error _ hcommit
  · rw [happ] at hcommit
    have hne := hnew answers w' happ
    rw [Exec.run_bind_ok _ hcommit]
    dsimp only [Except.map]
    unfold judged
    by_cases hacc : (totals {} events answers).result.status = .accepted
    · rw [if_pos hacc, if_pos hacc]
      rfl
    · rw [if_neg hacc, if_neg hne, if_neg hacc]
      rfl

/-- Past the commit gate of the strict mode the ledger is not used, and nothing is appended. -/
theorem keeps_conclude {τ : Type} {f : World σ → τ}
    (hf : ∀ w w' : World σ, w'.ledger = w.ledger → w'.appends = w.appends → f w' = f w)
    (hs : cfg.strict) (answer : GateAnswer) :
    Exec.Keeps f (conclude P C cfg env signal flow evaluated_nodes answer) := by
  have hpar : decide cfg.parallel = false := decide_eq_false (fun hp => hp.2 hs.2)
  have hfaulty : ∀ (fault : Fault) (effect : World σ → World σ),
      (∀ w, f (effect w) = f w) → Exec.Keeps f (faulty fault effect) := by
    intro fault effect heffect
    rcases fault with _ | _ | _
    · exact Exec.keeps_modify heffect
    · exact Exec.keeps_raise _
    · exact Exec.keeps_bind (Exec.keeps_modify heffect) (fun _ => Exec.keeps_raise _)
  have hpublish : ∀ (event : ExternalCall), event.appended = none → Exec.Keeps f
      (Exec.modify (fun w : World σ => { w with calls := w.calls ++ [event] })
        : Exec PyError (World σ) Unit) := by
    intro event hnone
    apply Exec.keeps_modify
    intro w
    exact hf _ _ rfl (by simp [World.appends, List.filterMap_append, hnone])
  have hwired : ∀ (wired : Bool) (call : Exec PyError (World σ) Unit),
      Exec.Keeps f call → Exec.Keeps f (when_wired wired call) :=
    fun wired call hcall => Exec.keeps_ite hcall (Exec.keeps_pure ())
  rcases answer with final | result
  · refine Exec.keeps_bind ?_ (fun final => Exec.keeps_bind ?_ (fun _ => ?_))
    · apply Exec.keeps_ite
      · refine Exec.keeps_bind (hwired _ _ ?_)
          (fun _ => Exec.keeps_bind (hwired _ _ ?_) (fun _ => Exec.keeps_pure _))
        · exact Exec.keeps_bind (hpublish (.publish_event _) rfl)
            (fun _ => hfaulty _ _ (fun w => hf _ _ rfl rfl))
        · exact Exec.keeps_bind (hpublish (.publish_execution _) rfl)
            (fun _ => hfaulty _ _ (fun w => hf _ _ rfl rfl))
      · exact Exec.keeps_pure final
    · exact Exec.keeps_ite (Exec.keeps_modify (fun w => hf _ _ rfl rfl)) (Exec.keeps_pure ())
    · apply Exec.keeps_ite
      · refine Exec.keeps_bind (hwired _ _ (hfaulty _ _ (fun w => hf _ _ rfl rfl))) (fun _ => ?_)
        -- a strict engine does not commit a second time
        rw [hpar]
        exact Exec.keeps_bind (Exec.keeps_pure ()) (fun _ => Exec.keeps_pure _)
      · exact Exec.keeps_pure final
  · exact Exec.keeps_pure result

theorem keeps_ledger_conclude (hs : cfg.strict) (answer : GateAnswer) :
    Exec.Keeps World.ledger (conclude P C cfg env signal flow evaluated_nodes answer) :=
  keeps_conclude (fun _ _ hledger _ => hledger) hs answer

end Strict

/-! ## The events of an evaluation -/

section Events

/-- The trace and the result that an evaluation commits in strict mode. -/
def committed (P : Platform) (cfg : EngineConfig) (env : Env) (signal : Signal)
    (flow : DecisionFlow) : Option (DecisionTrace × DecisionResult) :=
  match PureEvaluate.pure_evaluate P env.draws signal flow with
  | .error _ => none
  | .ok (core, evaluated_nodes) =>
    some (commit_trace env signal flow (opened cfg env core) evaluated_nodes)

/-- The names that the ids of its events are hashes of. -/
def commit_names (P : Platform) (cfg : EngineConfig) (env : Env) (signal : Signal)
    (flow : DecisionFlow) : List String :=
  match committed P cfg env signal flow with
  | none => []
  | some (trace, result) =>
    (step_keys trace result).map (fun key => event_name trace.id key.text)

/-- None of its events is recorded. -/
def NewTo (L : DeduplicatingLedger σ) (P : Platform) (cfg : EngineConfig) (env : Env)
    (signal : Signal) (flow : DecisionFlow) (s : σ) : Prop :=
  ∀ name ∈ commit_names P cfg env signal flow, ¬ L.recorded s (P.uuid5 (LEDGER_NS P) name)

variable {core : DecisionResult} {evaluated_nodes : List PyDict}

theorem committed_eq
    (computed : PureEvaluate.pure_evaluate P env.draws signal flow = .ok (core, evaluated_nodes)) :
    committed P cfg env signal flow
      = some (commit_trace env signal flow (opened cfg env core) evaluated_nodes) := by
  rw [committed, computed]

/-- Every name is the step of a trace with the id that was drawn. -/
theorem commit_names_trace {name : String} (h : name ∈ commit_names P cfg env signal flow) :
    ∃ key, name = event_name env.draws.trace_id key := by
  unfold commit_names at h
  rcases computed : PureEvaluate.pure_evaluate P env.draws signal flow with
    e | ⟨core, evaluated_nodes⟩
  · have hnone : committed P cfg env signal flow = none := by rw [committed, computed]
    rw [hnone] at h
    exact absurd h (by simp)
  · rw [committed_eq computed] at h
    obtain ⟨key, -, rfl⟩ := List.mem_map.mp h
    refine ⟨key.text, ?_⟩
    show event_name (opened cfg env core).trace_id key.text = _
    rw [opened_trace_id, (PureEvaluate.stamped computed).trace_id]

/-- The id of an event is the hash of one of the names. -/
theorem event_id_of_commit
    (computed : PureEvaluate.pure_evaluate P env.draws signal flow = .ok (core, evaluated_nodes))
    {events : List LedgerEvent}
    (hbuild : build_events P cfg.schema_version
      (commit_trace env signal flow (opened cfg env core) evaluated_nodes).1
      (commit_trace env signal flow (opened cfg env core) evaluated_nodes).2 = .ok events)
    {e : LedgerEvent} (he : e ∈ events) :
    ∃ name ∈ commit_names P cfg env signal flow, e.event_id = P.uuid5 (LEDGER_NS P) name := by
  have hmem : e.event_id ∈ events.map (·.event_id) := List.mem_map_of_mem he
  rw [build_events_ids hbuild] at hmem
  obtain ⟨key, hkey, heq⟩ := List.mem_map.mp hmem
  refine ⟨event_name _ key.text, ?_, heq.symm⟩
  rw [commit_names, committed_eq computed]
  exact List.mem_map_of_mem hkey

end Events

/-! ## The answer, on a deduplicating ledger -/

section Deduplicating

variable (L : DeduplicatingLedger σ)

/-- The appends of a strict commit, seen from the ledger. -/
theorem strict_commit_dedup (hs : cfg.strict) {core : DecisionResult}
    {evaluated_nodes : List PyDict}
    (computed : PureEvaluate.pure_evaluate P env.draws signal flow = .ok (core, evaluated_nodes))
    {events : List LedgerEvent}
    (hbuild : build_events P cfg.schema_version
      (commit_trace env signal flow (opened cfg env core) evaluated_nodes).1
      (commit_trace env signal flow (opened cfg env core) evaluated_nodes).2 = .ok events)
    {w : World σ} (hnew : NewTo L P cfg env signal flow w.ledger) :
    (strict_commit P L.toLedgerBackend cfg env signal flow (opened cfg env core) evaluated_nodes
        (gated cfg env core w)).1
      = (append_all L.toLedgerBackend events w.ledger).1.map (fun answers =>
          judged env (opened cfg env core).populate_canonical_fields
            (totals {} events answers).result.status)
    ∧ (strict_commit P L.toLedgerBackend cfg env signal flow (opened cfg env core)
        evaluated_nodes (gated cfg env core w)).2.ledger
      = (append_all L.toLedgerBackend events w.ledger).2 := by
  have hids : ∀ e ∈ events, ¬ L.recorded w.ledger e.event_id := by
    intro e he
    obtain ⟨name, hname, hid⟩ := event_id_of_commit computed hbuild he
    rw [hid]
    exact hnew name hname
  have hne : events ≠ [] := List.ne_nil_of_mem (outcome_event_mem hbuild)
  obtain ⟨hanswer, hledger⟩ :=
    simulates_append_all (C := L.toLedgerBackend) events (gated cfg env core w)
  rw [strict_commit_new hs hbuild ?_]
  · rw [hanswer]
    exact ⟨rfl, hledger⟩
  · intro answers w' happ
    rw [happ] at hanswer hledger
    have hrun : append_all L.toLedgerBackend events w.ledger = (.ok answers, w'.ledger) :=
      Prod.ext hanswer.symm hledger.symm
    exact not_duplicate_of_new L hne hids hrun

/-- **The answer of an `evaluate` whose events are new** does not depend on the world. -/
theorem evaluate_answer {w w' : World σ}
    (hw : cfg.strict → NewTo L P cfg env signal flow w.ledger)
    (hw' : cfg.strict → NewTo L P cfg env signal flow w'.ledger) :
    (evaluate P L.toLedgerBackend cfg env signal flow w).1
      = (evaluate P L.toLedgerBackend cfg env signal flow w').1 := by
  rcases computed : PureEvaluate.pure_evaluate P env.draws signal flow with
    e | ⟨core, evaluated_nodes⟩
  · rw [evaluate, computed]
    rfl
  rw [evaluate_gated computed, evaluate_gated computed]
  apply Exec.bind_congr _
    (oblivious_conclude P L.toLedgerBackend cfg env signal flow evaluated_nodes)
  by_cases hs : cfg.strict
  swap
  · rw [strict_commit_not_strict hs, strict_commit_not_strict hs]
  obtain ⟨events, hbuild⟩ := exists_events cfg computed (opened cfg env core)
  have hids : ∀ e ∈ events, L.recorded w.ledger e.event_id ↔ L.recorded w'.ledger e.event_id := by
    intro e he
    obtain ⟨name, hname, hid⟩ := event_id_of_commit computed hbuild he
    rw [hid]
    exact iff_of_false (hw hs name hname) (hw' hs name hname)
  rw [(strict_commit_dedup L hs computed hbuild (hw hs)).1,
    (strict_commit_dedup L hs computed hbuild (hw' hs)).1, append_all_answers L events hids]

/-- What a strict `evaluate` adds to the ledger are hashes of its own names. -/
theorem evaluate_recorded (hs : cfg.strict) {w : World σ}
    (hnew : NewTo L P cfg env signal flow w.ledger) {u : UUID}
    (h : L.recorded (evaluate P L.toLedgerBackend cfg env signal flow w).2.ledger u) :
    L.recorded w.ledger u ∨
      ∃ name ∈ commit_names P cfg env signal flow, u = P.uuid5 (LEDGER_NS P) name := by
  rcases computed : PureEvaluate.pure_evaluate P env.draws signal flow with
    e | ⟨core, evaluated_nodes⟩
  · rw [evaluate, computed] at h
    exact Or.inl h
  obtain ⟨events, hbuild⟩ := exists_events cfg computed (opened cfg env core)
  have hcommit := (strict_commit_dedup L hs computed hbuild hnew).2
  rw [evaluate_gated computed] at h
  have hledger : ((strict_commit P L.toLedgerBackend cfg env signal flow (opened cfg env core)
      evaluated_nodes >>= conclude P L.toLedgerBackend cfg env signal flow evaluated_nodes)
      (gated cfg env core w)).2.ledger = (append_all L.toLedgerBackend events w.ledger).2 := by
    rw [← hcommit]
    rcases hr : strict_commit P L.toLedgerBackend cfg env signal flow (opened cfg env core)
        evaluated_nodes (gated cfg env core w) with ⟨e | answer, w₁⟩
    · rw [Exec.run_bind_error _ hr]
    · rw [Exec.run_bind_ok _ hr]
      exact keeps_ledger_conclude hs answer w₁
  rw [hledger] at h
  rcases recorded_append_all L events h with hrec | ⟨e, he, rfl⟩
  · exact Or.inl hrec
  · exact Or.inr (event_id_of_commit computed hbuild he)

end Deduplicating

end DecisionRuntimeEngine

end DecisionRuntime
