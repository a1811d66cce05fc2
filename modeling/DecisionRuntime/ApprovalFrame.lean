/-
What an approval changes of the decision that the caller has seen.

There are two copies of an escalated decision. The manager stores the one that it is
given to open the gate; the gate is put into the other one afterwards, and that is the
one `evaluate` goes on with and returns. An approval updates the first copy. It
differs from what the caller has seen in the status, the state and the time, as it
should, and in that it has lost its gate (`approval_loses_gate`).
-/
import DecisionRuntime.ActionPayload
import DecisionRuntime.ParallelMode

set_option autoImplicit false

namespace DecisionRuntime

/-! ## The frame of an approval -/

/-- The gate, up to its resolution. -/
def HumanGateRequest.SameUpToResolution (gate gate' : HumanGateRequest) : Prop :=
  gate' = { gate with
    status := gate'.status
    response_value := gate'.response_value
    response_note := gate'.response_note
    responded_at := gate'.responded_at }

/-- The decision, approved: it still has its gate, and apart from the resolution of that and from
what goes with the status it is the same. -/
structure DecisionResult.ApprovedAs (result updated : DecisionResult) : Prop where
  fields : updated = { result with
    status := updated.status
    state := updated.state
    updated_at := updated.updated_at
    decision_type := updated.decision_type
    human_gate_required := updated.human_gate_required
    human_gate := updated.human_gate }
  gate : ∃ gate gate', result.human_gate = some gate ∧ updated.human_gate = some gate'
    ∧ gate.SameUpToResolution gate'

/-! ## The two copies -/

namespace PureEvaluate

open BoundaryEngine

variable {P : Platform} {draws : Draws} {signal : Signal} {flow : DecisionFlow}
  {core : DecisionResult} {evaluated_nodes : List PyDict}

/-- A boundary that escalates leaves the action alone, and the payload follows it. -/
theorem follows_of_escalated
    (computed : pure_evaluate P draws signal flow = .ok (core, evaluated_nodes))
    (hst : core.status = .pending_human) : core.payload = core.action.getD [] := by
  obtain ⟨outcomes, sel, version, brs, -, hsel, -, -, rfl, -⟩ := pure_evaluate_eq_ok.mp computed
  have hinit := initial_status draws signal version hsel
  rcases hdominant : dominant brs with _ | boundary
  · rw [apply_dominant_none _ hdominant] at hst
    rcases hinit with h | h <;> simp [h] at hst
  · rw [apply_dominant_some _ hdominant] at hst ⊢
    dsimp only at hst ⊢
    rw [apply_effect_status_eq] at hst
    by_cases hescalate : boundary.effect = "escalate"
    · simp only [apply_effect, hescalate]
      exact initial_payload outcomes sel version
    · rw [if_neg hescalate] at hst
      split_ifs at hst
      rcases hinit with h | h <;> simp [h] at hst

end PureEvaluate

namespace DecisionRuntimeEngine

open HumanGateManager

variable {σ : Type} {P : Platform} {C : LedgerBackend σ} {cfg : EngineConfig} {env : Env}
  {signal : Signal} {flow : DecisionFlow} {core : DecisionResult} {evaluated_nodes : List PyDict}
  {calls : List EngineCall} {w : World σ}

/-- The gate of an escalated decision. -/
def gate_of (env : Env) (core : DecisionResult) : HumanGateRequest :=
  gate_request env.gate_id env.gate_created_at core none none

/-- An escalated decision with its gate, and what it says of having one. -/
def with_gate (env : Env) (core : DecisionResult) (required : Bool) : DecisionResult :=
  { core with human_gate := some (gate_of env core), human_gate_required := required }

/-- The validator changes no more than what it says of that. -/
theorem canonical_with_gate
    (computed : PureEvaluate.pure_evaluate P env.draws signal flow = .ok (core, evaluated_nodes))
    (hst : core.status = .pending_human) (required : Bool) :
    (with_gate env core required).populate_canonical_fields = with_gate env core true := by
  obtain ⟨h, -⟩ := PureEvaluate.canonical computed
  have hcanonical : (with_gate env core true).Canonical := ⟨h.1, h.2, h.3, h.4, h.5, h.6⟩
  have hsettled : (with_gate env core true).populate_canonical_fields
      = with_gate env core true := by
    apply hcanonical.populate_eq_self_iff.mpr
    refine ⟨rfl, ?_⟩
    intro hnil
    exact (PureEvaluate.follows_of_escalated computed hst).symm.trans hnil
  rw [← hsettled]
  rfl

/-- One of the calls has computed this decision, to be escalated. -/
def Escalated (P : Platform) (calls : List EngineCall) (env : Env) (core : DecisionResult) : Prop :=
  ∃ signal flow evaluated_nodes, .evaluate env signal flow ∈ calls
    ∧ PureEvaluate.pure_evaluate P env.draws signal flow = .ok (core, evaluated_nodes)
    ∧ core.status = .pending_human

/-- A result with a gate is the copy of an escalated decision that the caller sees. -/
def Shown (P : Platform) (calls : List EngineCall) (result : DecisionResult) : Prop :=
  ∀ gate, result.human_gate = some gate → ∃ env core required, Escalated P calls env core
    ∧ gate = gate_of env core ∧ result = with_gate env core required

theorem Escalated.mono {more : List EngineCall} {env : Env} {core : DecisionResult}
    (h : Escalated P calls env core) (hsub : ∀ c ∈ calls, c ∈ more) :
    Escalated P more env core := by
  obtain ⟨signal, flow, nodes, hmem, hrest⟩ := h
  exact ⟨signal, flow, nodes, hsub _ hmem, hrest⟩

theorem Shown.mono {more : List EngineCall} {result : DecisionResult} (h : Shown P calls result)
    (hsub : ∀ c ∈ calls, c ∈ more) : Shown P more result := by
  intro gate hgate
  obtain ⟨env, core, required, hescalated, hrest⟩ := h gate hgate
  exact ⟨env, core, required, hescalated.mono hsub, hrest⟩

/-- The result of an evaluation that has passed its commit gate is that copy, validated or not. -/
theorem shown_dispatched (hcall : .evaluate env signal flow ∈ calls)
    (computed : PureEvaluate.pure_evaluate P env.draws signal flow = .ok (core, evaluated_nodes))
    {final : DecisionResult} {w w' : World σ}
    (hd : Dispatch cfg env (ready cfg env core) w (.ok final) w') :
    Shown P calls final ∧ Shown P calls final.populate_canonical_fields := by
  have hcore := (PureEvaluate.stamped computed).human_gate
  by_cases hopen : core.status = .pending_human ∧ cfg.human_gate_manager = true
  · have hopened : opened cfg env core = with_gate env core core.human_gate_required :=
      if_pos hopen
    have hcopy : ∀ required, Shown P calls (with_gate env core required) := by
      intro required gate hgate
      obtain rfl := Option.some.inj hgate
      exact ⟨env, core, required, ⟨signal, flow, evaluated_nodes, hcall, computed, hopen.1⟩, rfl,
        rfl⟩
    -- an escalated decision is not dispatched
    have hfinal : final = ready cfg env core := by
      rcases hd.result with ⟨rfl, -⟩ | ⟨-, hst, -⟩
      · rfl
      · rw [ready_status, hopen.1] at hst
        cases hst
    obtain ⟨required, hready⟩ : ∃ required, final = with_gate env core required := by
      rw [hfinal]
      unfold ready
      rw [hopened]
      split_ifs
      · exact ⟨true, canonical_with_gate computed hopen.1 _⟩
      · exact ⟨_, rfl⟩
    rw [hready, canonical_with_gate computed hopen.1]
    exact ⟨hcopy required, hcopy true⟩
  · have hopened : opened cfg env core = core := if_neg hopen
    have hready : (ready cfg env core).human_gate = none := by
      unfold ready
      rw [hopened]
      split_ifs
      · exact hcore
      · exact hcore
    have hfinal : final.human_gate = none := by
      rcases hd.result with ⟨rfl, -⟩ | ⟨rfl, -⟩
      · exact hready
      · exact hready
    constructor
    · intro gate hgate
      cases hfinal.symm.trans hgate
    · intro gate hgate
      cases hfinal.symm.trans hgate

/-! ## Runs -/

/-- What the stores show of the decisions of a run, and what its gates hold back. -/
structure Copied (P : Platform) (calls : List EngineCall) (w : World σ) : Prop where
  stored : Stored (Shown P calls) w
  same_keys : SameKeys w.human_gate_manager
  held : ∀ request_id gate held, w.human_gate_manager.store.get request_id = some gate →
    w.human_gate_manager.results.get request_id = some held →
    ∃ env core, Escalated P calls env core ∧ request_id = env.gate_id.str
      ∧ (gate.status = .pending → held = core)

theorem copied_init (s : σ) : Copied P [] (World.init s) :=
  ⟨stored_init _ s, sameKeys_init, fun _ _ _ h => nomatch h⟩

theorem Copied.mono {more : List EngineCall} (h : Copied P calls w)
    (hsub : ∀ c ∈ calls, c ∈ more) : Copied P more w := by
  refine ⟨h.stored.mono (fun result hresult => hresult.mono hsub), h.same_keys, ?_⟩
  intro request_id gate held hgate hheld
  obtain ⟨env, core, hescalated, hrest⟩ := h.held request_id gate held hgate hheld
  exact ⟨env, core, hescalated.mono hsub, hrest⟩

/-- A gate and what it holds back are put under one key. -/
theorem Copied.set (h : Copied P calls w) {w' : World σ} {request_id : String}
    {gate : HumanGateRequest} {result : DecisionResult}
    (hstored : Stored (Shown P calls) w')
    (hset : w'.human_gate_manager = ⟨w.human_gate_manager.store.set request_id gate,
      w.human_gate_manager.results.set request_id result⟩)
    (hheld : ∃ env core, Escalated P calls env core ∧ request_id = env.gate_id.str
      ∧ (gate.status = .pending → result = core)) : Copied P calls w' := by
  refine ⟨hstored, ?_, ?_⟩
  · rw [hset]
    exact sameKeys_set h.same_keys request_id gate result
  · intro key gate' held' hgate' hheld'
    rw [hset] at hgate' hheld'
    dsimp only at hgate' hheld'
    by_cases hkey : key = request_id
    · rw [hkey, Dict.get_set_same] at hgate' hheld'
      rw [hkey, ← Option.some.inj hgate', ← Option.some.inj hheld']
      exact hheld
    · rw [Dict.get_set_other _ hkey] at hgate' hheld'
      exact h.held key gate' held' hgate' hheld'

/-- A call of the gate manager. -/
theorem Copied.resolve (h : Copied P calls w) {res : Resolution} (hres : res.status ≠ .pending)
    (now : Datetime) (request_id : String) (comment : Option String)
    (actor_roles : Option (List String)) :
    Copied P calls (EngineCall.on_gates
      (HumanGateManager.resolve res now request_id comment actor_roles) w).2 := by
  let call := HumanGateManager.resolve res now request_id comment actor_roles
  have hstored : Stored (Shown P calls) (EngineCall.on_gates call w).2 := h.stored.of_eq rfl rfl
  rcases resolve_run res now request_id comment actor_roles h.same_keys with
    ⟨e, hrun⟩ | ⟨request, result, hgate, hresult, -, -, hrun⟩
  · have hsame : (EngineCall.on_gates call w).2.human_gate_manager = w.human_gate_manager :=
      congrArg Prod.snd hrun
    refine ⟨hstored, ?_, ?_⟩
    · rw [hsame]
      exact h.same_keys
    · rw [hsame]
      exact h.held
  · refine h.set hstored (congrArg Prod.snd hrun) ?_
    obtain ⟨env, core, hescalated, hkey, -⟩ := h.held request_id request result hgate hresult
    exact ⟨env, core, hescalated, hkey, fun hpending => absurd hpending hres⟩

/-- **The step lemma.** -/
theorem Copied.step (h : Copied P calls w) (c : EngineCall) :
    Copied P (calls ++ [c]) (c.run P C cfg w).2 := by
  have h' : Copied P (calls ++ [c]) w := h.mono (fun d hd => List.mem_append_left _ hd)
  rcases c with ⟨env, signal, flow⟩ | _ | ⟨now, request_id, _, comment, actor_roles⟩
    | ⟨now, request_id, _, comment, actor_roles⟩
  case evaluate =>
    have hcall : EngineCall.evaluate env signal flow ∈ calls ++ [.evaluate env signal flow] := by
      simp
    -- what is returned from now on is the result that was shown, or an earlier one
    have hstored : Stored (Shown P (calls ++ [.evaluate env signal flow]))
        (DecisionRuntimeEngine.evaluate P C cfg env signal flow w).2 := by
      apply h'.stored.evaluate env signal flow
      intro core evaluated_nodes w₁ final w₂ computed _ hd
      exact shown_dispatched hcall computed hd
    show Copied P _ (DecisionRuntimeEngine.evaluate P C cfg env signal flow w).2
    rcases computed : PureEvaluate.pure_evaluate P env.draws signal flow with
      e | ⟨core, evaluated_nodes⟩
    · rw [DecisionRuntimeEngine.evaluate, computed]
      exact h'
    · have hgates : (DecisionRuntimeEngine.evaluate P C cfg env signal flow w).2.human_gate_manager
          = gates_opened cfg env core w.human_gate_manager := evaluate_gates computed w
      unfold gates_opened at hgates
      split_ifs at hgates with hopen
      -- the manager holds the result back as it was before the gate was attached
      · refine h'.set hstored hgates ?_
        exact ⟨env, core, ⟨signal, flow, evaluated_nodes, hcall, computed, hopen.1⟩, rfl,
          fun _ => rfl⟩
      · refine ⟨hstored, ?_, ?_⟩
        · rw [hgates]
          exact h'.same_keys
        · rw [hgates]
          exact h'.held
  case simulate => exact h'
  case approve => exact h'.resolve (by decide) now request_id comment actor_roles
  case reject => exact h'.resolve (by decide) now request_id comment actor_roles

/-- **The run lemma.** -/
theorem copied_run (P : Platform) (C : LedgerBackend σ) (cfg : EngineConfig) (s : σ)
    (calls : List EngineCall) :
    Copied P calls (Run.final (EngineCall.run P C cfg) (World.init s) calls) := by
  induction calls using List.reverseRecOn with
  | nil => exact copied_init s
  | append_singleton calls c ih =>
      rw [Run.final_concat]
      exact ih.step c

/-- A pending decision that `evaluate` returns is the copy with the gate. -/
theorem Copied.shown (h : Copied P calls w) (hcall : .evaluate env signal flow ∈ calls)
    {result : DecisionResult} (hok : (evaluate P C cfg env signal flow w).1 = .ok result)
    (hpending : result.status = .pending_human) : Shown P calls result := by
  have hrun := evaluate_run P C cfg env signal flow w
  rw [hok] at hrun
  generalize (evaluate P C cfg env signal flow w).2 = w' at hrun
  rcases hrun with _ | ⟨-, -, -, -, hstopped⟩ | _ | _ | ⟨computed, -, -, hd⟩
  · -- a refused decision is an `ERROR`, and a recovered one is in a store
    rcases hstopped with status | hrecoverable
    · cases hpending
    · exact h.stored.recoverable hrecoverable
  · have hfinal := shown_dispatched hcall computed hd
    unfold persisted
    split_ifs
    · exact hfinal.2
    · exact hfinal.1

/-- **An approval loses the gate.** Whenever `evaluate` has returned a pending decision with its
gate, an approval of that gate does not return that decision approved: it has no gate. In every
other field but the status, the state and the time it is the same. -/
theorem approval_loses_gate (P : Platform) (C : LedgerBackend σ) (cfg : EngineConfig) (s : σ)
    (calls : List EngineCall) (hfresh : (calls.flatMap EngineCall.drawn).Nodup)
    (t t' : EngineEntry σ) (ht : t ∈ Run.entries (EngineCall.run P C cfg) (World.init s) calls)
    (ht' : t' ∈ Run.entries (EngineCall.run P C cfg) (World.init s) calls) (env : Env)
    (signal : Signal) (flow : DecisionFlow) (hcall : t.call = .evaluate env signal flow)
    (result : DecisionResult) (hok : t.answer = .ok result)
    (hpending : result.status = .pending_human) (gate : HumanGateRequest)
    (hgate : result.human_gate = some gate) (now : Datetime) (actor_id : String)
    (comment : Option String) (actor_roles : Option (List String))
    (hcall' : t'.call = .approve now gate.id.str actor_id comment actor_roles)
    (updated : DecisionResult) (hok' : t'.answer = .ok updated) :
    ¬ result.ApprovedAs updated ∧
      updated = { result with
        status := .confirmed
        state := .confirmed
        updated_at := now
        human_gate_required := false
        human_gate := none } := by
  -- what the caller has seen
  obtain ⟨pre, c, post, hcalls, rfl⟩ := Run.mem_entries.mp ht
  obtain rfl : c = .evaluate env signal flow := hcall
  have hmem : ∀ d ∈ pre ++ [.evaluate env signal flow], d ∈ calls := by
    intro d hd
    rw [hcalls, List.append_cons]
    exact List.mem_append_left post hd
  have hbefore := (copied_run P C cfg s pre).mono
    (fun d hd => hmem d (List.mem_append_left _ hd))
  have hown : .evaluate env signal flow ∈ calls := hmem _ (by simp)
  obtain ⟨env₁, core, required, hescalated, rfl, rfl⟩ := hbefore.shown hown hok hpending gate hgate
  -- what the manager has held back
  obtain ⟨pre', c', post', hcalls', rfl⟩ := Run.mem_entries.mp ht'
  obtain rfl : c' = .approve now (gate_of env₁ core).id.str actor_id comment actor_roles := hcall'
  have hcopied : Copied P calls (Run.final (EngineCall.run P C cfg) (World.init s) pre') := by
    apply (copied_run P C cfg s pre').mono
    intro d hd
    rw [hcalls']
    exact List.mem_append_left _ hd
  obtain ⟨held, ⟨request, hstore, hresults, hst, -⟩, rfl⟩ :=
    (approve_eq_ok_iff hcopied.same_keys).mp hok'
  obtain ⟨env₂, core₂, hescalated₂, hkey, hheld⟩ := hcopied.held _ request held hstore hresults
  obtain rfl := hheld hst
  -- the gate is that of one call
  have hid : env₁.gate_id = env₂.gate_id := UUID.str_inj.mp hkey
  obtain ⟨signal₁, flow₁, nodes₁, hmem₁, computed₁, -⟩ := hescalated
  obtain ⟨signal₂, flow₂, nodes₂, hmem₂, computed₂, -⟩ := hescalated₂
  have hsame := Run.call_unique EngineCall.drawn hfresh hmem₁ hmem₂ (x := env₁.gate_id)
    (by simp [EngineCall.drawn, Env.drawn]) (by simp [EngineCall.drawn, Env.drawn, hid])
  obtain ⟨rfl, rfl, rfl⟩ := EngineCall.evaluate.inj hsame
  obtain ⟨rfl, -⟩ := except_pair_unique computed₁ computed₂
  have hnone := (PureEvaluate.stamped computed₁).human_gate
  have hrequired := (PureEvaluate.canonical computed₁).2
  constructor
  · intro happroved
    obtain ⟨gate, gate', -, hgate', -⟩ := happroved.gate
    have hlost : core.human_gate = some gate' := hgate'
    cases hnone.symm.trans hlost
  · unfold with_gate HumanGateManager.approval
    dsimp only
    rw [← hnone, ← hrequired]

/-- An approval of the gate of a pending decision that `evaluate` has returned returns that
decision, approved. -/
def ApprovalsFrame (history : List (EngineEntry σ)) : Prop :=
  ∀ t ∈ history, ∀ env signal flow, t.call = .evaluate env signal flow →
    ∀ result, t.answer = .ok result → result.status = .pending_human →
    ∀ gate, result.human_gate = some gate → ∀ t' ∈ history, ∀ now actor_id comment actor_roles,
    t'.call = .approve now gate.id.str actor_id comment actor_roles →
    ∀ updated, t'.answer = .ok updated → result.ApprovedAs updated

end DecisionRuntimeEngine

namespace Recorded

/-- The engine over the in-memory ledger. -/
def engine : EngineCall → Exec PyError (World LedgerClient) DecisionResult :=
  EngineCall.run platform LedgerClient.backend (config "parallel")

/-- The evaluation of an escalated decision. -/
def escalating_call : EngineCall :=
  .evaluate (env (UUID.repeated 0xa) (UUID.repeated 0xc)) signal escalating

/-- The approval of its gate. -/
def approving_call : EngineCall :=
  .approve ⟨20, some 0⟩ (UUID.repeated 1).str "reviewer" none none

def escalated : EngineEntry LedgerClient :=
  Run.entry engine (World.init LedgerClient.init) escalating_call

/-- It is made in the world that the evaluation leaves. -/
def approved : EngineEntry LedgerClient :=
  Run.entry engine (engine escalating_call (World.init LedgerClient.init)).2 approving_call

theorem escalated_answer : ∃ result gate, escalated.answer = .ok result
    ∧ result.status = .pending_human ∧ result.human_gate = some gate
    ∧ gate.id = UUID.repeated 1 := by
  have hanswer : escalated.answer.toOption.map
      (fun result => (result.status, result.human_gate.map HumanGateRequest.id))
        = some (.pending_human, some (UUID.repeated 1)) := by decide +kernel
  obtain ⟨result, hok, hsays⟩ := except_of_toOption_map hanswer
  obtain ⟨hst, hgate⟩ := Prod.mk.inj hsays
  obtain ⟨gate, hsome, hid⟩ := Option.map_eq_some_iff.mp hgate
  exact ⟨result, gate, hok, hst, hsome, hid⟩

theorem approved_answer : ∃ updated, approved.answer = .ok updated ∧ updated.human_gate = none := by
  have hanswer : approved.answer.toOption.map (fun result => result.human_gate.isNone)
      = some true := by decide +kernel
  obtain ⟨updated, hok, hnone⟩ := except_of_toOption_map hanswer
  exact ⟨updated, hok, Option.isNone_iff_eq_none.mp hnone⟩

end Recorded

namespace DecisionRuntimeEngine

/-- `evaluate` returns a pending decision with a gate, and the approval a confirmed one without. -/
theorem approved_without_gate :
    let history := Run.entries Recorded.engine (World.init LedgerClient.init)
      [Recorded.escalating_call, Recorded.approving_call]
    history.map (fun t => t.answer.toOption.map
        (fun result => (result.status, result.human_gate.map HumanGateRequest.id)))
        = [some (.pending_human, some (UUID.repeated 1)), some (.confirmed, none)]
      ∧ ¬ ApprovalsFrame history := by
  intro history
  refine ⟨by decide +kernel, ?_⟩
  intro hframe
  obtain ⟨result, gate, hok, hpending, hgate, hid⟩ := Recorded.escalated_answer
  obtain ⟨updated, hok', hnone⟩ := Recorded.approved_answer
  have hfirst : Recorded.escalated ∈ history := List.mem_cons_self
  have hsecond : Recorded.approved ∈ history := Run.second_mem _ _ _
  have hcall : Recorded.approved.call
      = .approve ⟨20, some 0⟩ gate.id.str "reviewer" none none := by
    rw [hid]
    rfl
  have happroved := hframe _ hfirst _ _ _ rfl result hok hpending gate hgate _ hsecond _ _ _ _ hcall
    updated hok'
  obtain ⟨_, gate', -, hsome, -⟩ := happroved.gate
  cases hnone.symm.trans hsome

theorem approval_loses_gate_recorded :
    ∃ result updated, Recorded.escalated.answer = .ok result
      ∧ Recorded.approved.answer = .ok updated ∧ ¬ result.ApprovedAs updated
      ∧ updated = { result with
          status := .confirmed
          state := .confirmed
          updated_at := ⟨20, some 0⟩
          human_gate_required := false
          human_gate := none } := by
  obtain ⟨result, gate, hok, hpending, hgate, hid⟩ := Recorded.escalated_answer
  obtain ⟨updated, hok', -⟩ := Recorded.approved_answer
  have hcall : Recorded.approved.call
      = .approve ⟨20, some 0⟩ gate.id.str "reviewer" none none := by
    rw [hid]
    rfl
  exact ⟨result, updated, hok, hok', approval_loses_gate Recorded.platform LedgerClient.backend
    (Recorded.config "parallel") LedgerClient.init
    [Recorded.escalating_call, Recorded.approving_call] (by decide +kernel)
    Recorded.escalated Recorded.approved List.mem_cons_self (Run.second_mem _ _ _) _ _ _ rfl
    result hok hpending gate hgate _ _ _ _ hcall updated hok'⟩

end DecisionRuntimeEngine

end DecisionRuntime
