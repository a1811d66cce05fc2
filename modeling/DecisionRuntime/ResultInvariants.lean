/-
Properties of results that survive whatever a run does to them.

The engine and the gate manager never build a second result for a decision: they copy
the first one with some fields replaced. A property that each of these copies keeps
(`Carried`) holds of every result in the stores once it holds of what is computed; the
results held back by gates are changed in one more way, when their gate is resolved
(`HeldBack`).
-/
import DecisionRuntime.EngineRuns
import DecisionRuntime.HumanGateLifecycle

set_option autoImplicit false

namespace DecisionRuntime

/-! ## The gates -/

namespace HumanGateManager

/-- An actor with these roles may resolve the gate, and this is the result it holds back. -/
def Resolvable (m : HumanGateManager) (request_id : String) (actor_roles : Option (List String))
    (result : DecisionResult) : Prop :=
  ∃ request, m.store.get request_id = some request ∧ m.results.get request_id = some result
    ∧ request.status = .pending ∧ role_allows request.required_role actor_roles = true

/-- The two dictionaries have the same keys, and the results satisfy `p`. -/
structure HeldBack (p : DecisionResult → Prop) (m : HumanGateManager) : Prop where
  same_keys : SameKeys m
  results : ∀ key result, m.results.get key = some result → p result

section HeldBack

variable {p : DecisionResult → Prop} {m : HumanGateManager}

theorem heldBack_init (p : DecisionResult → Prop) : HeldBack p init where
  same_keys := sameKeys_init
  results _ _ h := nomatch h

theorem HeldBack.resolvable (h : HeldBack p m) {request_id : String}
    {actor_roles : Option (List String)} {result : DecisionResult}
    (hresult : Resolvable m request_id actor_roles result) : p result := by
  obtain ⟨request, -, hget, -⟩ := hresult
  exact h.results request_id result hget

/-- A gate and its result are put under one key. -/
theorem HeldBack.set (h : HeldBack p m) (key : String) (gate : HumanGateRequest)
    {result : DecisionResult} (hresult : p result) :
    HeldBack p ⟨m.store.set key gate, m.results.set key result⟩ := by
  refine ⟨sameKeys_set h.same_keys key gate result, ?_⟩
  intro key' result' hget
  dsimp only at hget
  rw [Dict.get_set] at hget
  split_ifs at hget with hkey
  · rw [← Option.some.inj hget]
    exact hresult
  · exact h.results key' result' hget

/-- A call that resolves a gate returns the update of the result that it holds back. -/
theorem resolve_eq_ok_iff (hkeys : SameKeys m) {res : Resolution} {now : Datetime}
    {request_id : String} {comment : Option String} {actor_roles : Option (List String)}
    {updated : DecisionResult} :
    (resolve res now request_id comment actor_roles m).1 = .ok updated ↔
      ∃ result, Resolvable m request_id actor_roles result ∧ updated = res.update now result := by
  constructor
  · intro hok
    rcases resolve_run res now request_id comment actor_roles hkeys with
      ⟨e, hrun⟩ | ⟨request, result, hgate, hresult, hpending, hallowed, hrun⟩
    · rw [hrun] at hok
      cases hok
    · rw [hrun] at hok
      exact ⟨result, ⟨request, hgate, hresult, hpending, hallowed⟩, (Except.ok.inj hok).symm⟩
  · rintro ⟨result, ⟨request, hgate, hresult, hpending, hallowed⟩, rfl⟩
    rw [resolve_success res now comment hgate hresult hpending hallowed]

theorem HeldBack.resolve (h : HeldBack p m) {res : Resolution} {now : Datetime}
    {request_id : String} {comment : Option String} {actor_roles : Option (List String)}
    (hupdate : ∀ result, Resolvable m request_id actor_roles result → p (res.update now result)) :
    HeldBack p (HumanGateManager.resolve res now request_id comment actor_roles m).2 := by
  rcases resolve_run res now request_id comment actor_roles h.same_keys with
    ⟨e, hrun⟩ | ⟨request, result, hgate, hresult, hpending, hallowed, hrun⟩
  · rw [hrun]
    exact h
  · rw [hrun]
    exact h.set request_id _ (hupdate result ⟨request, hgate, hresult, hpending, hallowed⟩)

end HeldBack

end HumanGateManager

/-! ## What the calls compute and resolve -/

namespace EngineCall

/-- The call computes this decision. -/
def Computes (P : Platform) : EngineCall → DecisionResult → Prop
  | .evaluate env signal flow, core => ∃ evaluated_nodes,
    PureEvaluate.pure_evaluate P env.draws signal flow = .ok (core, evaluated_nodes)
  | .simulate draws _ signal flow, core => ∃ evaluated_nodes,
    PureEvaluate.pure_evaluate P draws signal flow = .ok (core, evaluated_nodes)
  | .approve _ _ _ _ _, _ | .reject _ _ _ _ _, _ => False

theorem Computes.computed {P : Platform} {c : EngineCall} {core : DecisionResult}
    (h : c.Computes P core) : ∃ draws signal flow evaluated_nodes,
      PureEvaluate.pure_evaluate P draws signal flow = .ok (core, evaluated_nodes) := by
  rcases c with ⟨env, signal, flow⟩ | ⟨draws, _, signal, flow⟩ | _ | _
  case evaluate => exact ⟨env.draws, signal, flow, h⟩
  case simulate => exact ⟨draws, signal, flow, h⟩
  all_goals exact h.elim

/-- The call approves the gate that holds this result back. -/
def Approves : EngineCall → HumanGateManager → DecisionResult → Prop
  | .approve _ request_id _ _ actor_roles, m, result => m.Resolvable request_id actor_roles result
  | _, _, _ => False

/-- The call rejects the gate that holds this result back. -/
def Rejects : EngineCall → HumanGateManager → DecisionResult → Prop
  | .reject _ request_id _ _ actor_roles, m, result => m.Resolvable request_id actor_roles result
  | _, _, _ => False

end EngineCall

namespace DecisionRuntimeEngine

open HumanGateManager

variable {σ : Type} {P : Platform} {C : LedgerBackend σ} {cfg : EngineConfig} {env : Env}
  {signal : Signal} {flow : DecisionFlow} {core : DecisionResult} {evaluated_nodes : List PyDict}
  {p : DecisionResult → Prop} {w : World σ}

/-! ## The copies of the engine -/

/-- The copies that the engine makes of a result that is not refused keep `p`. -/
structure Carried (p : DecisionResult → Prop) : Prop where
  opened : ∀ cfg env result, p result → p (opened cfg env result)
  canonical : ∀ result, p result → p result.populate_canonical_fields
  requested : ∀ env result, p result → p (requested env result)

theorem Carried.ready (h : Carried p) (hcore : p core) :
    p (DecisionRuntimeEngine.ready cfg env core) := by
  have hopened := h.opened cfg env core hcore
  unfold DecisionRuntimeEngine.ready
  split_ifs
  · exact h.canonical _ hopened
  · exact hopened

theorem Carried.dispatched (h : Carried p) (hcore : p core) {final : DecisionResult}
    {w w' : World σ} (hd : Dispatch cfg env (DecisionRuntimeEngine.ready cfg env core) w
      (.ok final) w') : p final := by
  have hready : p (DecisionRuntimeEngine.ready cfg env core) := h.ready hcore
  rcases hd.result with ⟨rfl, -⟩ | ⟨rfl, -⟩
  · exact hready
  · exact h.requested env _ hready

theorem Carried.persisted (h : Carried p) {final : DecisionResult} (hfinal : p final) :
    p (DecisionRuntimeEngine.persisted cfg final) := by
  unfold DecisionRuntimeEngine.persisted
  split_ifs
  · exact h.canonical final hfinal
  · exact hfinal

/-- What `evaluate` returns has the property as well, if a refused result has it. -/
theorem Carried.evaluate (h : Carried p) (hrefused : ∀ env status result, p result →
      p (refused env status result)) (hstored : Stored p w)
    (hcore : ∀ core, (EngineCall.evaluate env signal flow).Computes P core → p core)
    {result : DecisionResult}
    (hok : (DecisionRuntimeEngine.evaluate P C cfg env signal flow w).1 = .ok result) :
    p result := by
  have hrun := evaluate_run P C cfg env signal flow w
  rw [hok] at hrun
  generalize (DecisionRuntimeEngine.evaluate P C cfg env signal flow w).2 = w' at hrun
  rcases hrun with _ | ⟨computed, -, -, -, hstopped⟩ | _ | _ | ⟨computed, -, -, hd⟩
  · have hopened := h.opened cfg env _ (hcore _ ⟨_, computed⟩)
    rcases hstopped with status | hrecoverable
    · exact hrefused env status _ (h.canonical _ hopened)
    · exact hstored.recoverable hrecoverable
  · exact h.persisted (h.dispatched (hcore _ ⟨_, computed⟩) hd)

/-- A simulation returns what it computes, validated. -/
theorem simulate_eq_ok {draws : Draws} {completed_at : Datetime} {result : DecisionResult} :
    ((simulate P signal flow draws completed_at).map Prod.fst) = .ok result ↔
      ∃ core, (EngineCall.simulate draws completed_at signal flow).Computes P core
        ∧ result = core.populate_canonical_fields := by
  rcases computed : PureEvaluate.pure_evaluate P draws signal flow with
    e | ⟨core, evaluated_nodes⟩
  · rw [simulate, computed]
    constructor
    · intro h
      cases h
    · rintro ⟨core, ⟨evaluated_nodes, h⟩, -⟩
      cases computed.symm.trans h
  · rw [simulate, computed]
    constructor
    · intro h
      exact ⟨core, ⟨evaluated_nodes, computed⟩, (Except.ok.inj h).symm⟩
    · rintro ⟨core', ⟨evaluated_nodes', h⟩, rfl⟩
      obtain ⟨rfl, -⟩ := except_pair_unique computed h
      rfl

/-! ## One call -/

/-- What the stores hold after a call. -/
theorem Carried.stored (h : Carried p) (hstored : Stored p w) (c : EngineCall)
    (hcore : ∀ core, c.Computes P core → p core) : Stored p (c.run P C cfg w).2 := by
  rcases c with ⟨env, signal, flow⟩ | _ | _ | _
  case evaluate =>
    apply hstored.evaluate env signal flow
    intro core evaluated_nodes w₁ final w₂ computed _ hd
    have hfinal := h.dispatched (hcore core ⟨_, computed⟩) hd
    exact ⟨hfinal, h.canonical final hfinal⟩
  all_goals exact hstored.of_eq rfl rfl

/-- What the gates hold back after a call. -/
theorem heldBack_call (h : HeldBack p w.human_gate_manager) (c : EngineCall)
    (hcore : ∀ core, c.Computes P core → core.status = .pending_human → p core)
    (happrove : ∀ result now, p result → c.Approves w.human_gate_manager result →
      p (approval.update now result))
    (hreject : ∀ result now, p result → c.Rejects w.human_gate_manager result →
      p (rejection.update now result)) :
    HeldBack p (c.run P C cfg w).2.human_gate_manager := by
  rcases c with ⟨env, signal, flow⟩ | _ | ⟨now, request_id, _, comment, actor_roles⟩
    | ⟨now, request_id, _, comment, actor_roles⟩
  case evaluate =>
    show HeldBack p (DecisionRuntimeEngine.evaluate P C cfg env signal flow w).2.human_gate_manager
    rcases computed : PureEvaluate.pure_evaluate P env.draws signal flow with
      e | ⟨core, evaluated_nodes⟩
    · rw [DecisionRuntimeEngine.evaluate, computed]
      exact h
    · rw [evaluate_gates computed]
      unfold gates_opened
      split_ifs with hopen
      · exact h.set env.gate_id.str _ (hcore core ⟨_, computed⟩ hopen.1)
      · exact h
  case simulate => exact h
  case approve =>
    exact h.resolve (fun result hresult => happrove result now (h.resolvable hresult) hresult)
  case reject =>
    exact h.resolve (fun result hresult => hreject result now (h.resolvable hresult) hresult)

/-- The answer of a call of `approve`. -/
theorem approve_eq_ok_iff (hkeys : SameKeys w.human_gate_manager) {now : Datetime}
    {request_id actor_id : String} {comment : Option String}
    {actor_roles : Option (List String)} {updated : DecisionResult} :
    (Run.entry (EngineCall.run P C cfg) w
        (.approve now request_id actor_id comment actor_roles)).answer = .ok updated ↔
      ∃ result, w.human_gate_manager.Resolvable request_id actor_roles result
        ∧ updated = approval.update now result :=
  resolve_eq_ok_iff hkeys

/-- The answer of a call of `reject`. -/
theorem reject_eq_ok_iff (hkeys : SameKeys w.human_gate_manager) {now : Datetime}
    {request_id actor_id : String} {comment : Option String}
    {actor_roles : Option (List String)} {updated : DecisionResult} :
    (Run.entry (EngineCall.run P C cfg) w
        (.reject now request_id actor_id comment actor_roles)).answer = .ok updated ↔
      ∃ result, w.human_gate_manager.Resolvable request_id actor_roles result
        ∧ updated = rejection.update now result :=
  resolve_eq_ok_iff hkeys

end DecisionRuntimeEngine

end DecisionRuntime
