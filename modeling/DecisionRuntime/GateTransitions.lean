/-
What a request to the service does to the gates: it leaves them alone, opens one
under an id that it drew, or resolves one that was pending.

`GateStep` is these three, and `gate_step` that there are no others. Over a run in
which no id is drawn twice, a gate that is opened is a new one (`gates_drawn`).
-/
import DecisionRuntime.StoredTraces

set_option autoImplicit false

namespace DecisionRuntime.RuntimeCall

open Routes HumanGateManager

variable {σ : Type} {P : Platform} {C : LedgerBackend σ} {settings : Settings}
  {auth : AuthSettings} {registry : FlowRegistry}

/-- What a request, made in `w`, can do to the gates. -/
inductive GateStep (auth : AuthSettings) (c : RuntimeCall) (m : HumanGateManager) :
    HumanGateManager → Prop
  | none (idle : ∀ action draws request, c.gate_action = some (action, draws, request) →
      ∀ actor gate held, ¬ Resolves auth request m actor gate held) : GateStep auth c m m
  | opened {e : EvaluateCall} {held : DecisionResult} (call : c = .evaluate e) :
      GateStep auth c m
        (created e.draws.env.gate_id e.draws.env.gate_created_at held none none m)
  | resolved {action : GateAction} {draws : GateDraws} {request : GateRequest}
      {actor : Option Actor} {gate : HumanGateRequest} {held : DecisionResult}
      (call : c.gate_action = some (action, draws, request))
      (resolves : Resolves auth request m actor gate held) :
      GateStep auth c m (HumanGateManager.resolved action.resolution draws.now request.request_id
        request.body.comment gate held m)

/-- **What a request can do to the gates.** -/
theorem gate_step (P : Platform) (C : LedgerBackend σ) (settings : Settings) (auth : AuthSettings)
    (registry : FlowRegistry) (c : RuntimeCall) {w : World σ}
    (hkeys : SameKeys w.human_gate_manager) :
    GateStep auth c w.human_gate_manager
      (c.run P C settings auth registry w).2.human_gate_manager := by
  rcases cases_on c with ⟨e, rfl⟩ | ⟨action, draws, request, haction⟩ | ⟨draws, body, rfl⟩
  · rcases evaluate_gate_store P C settings registry e w with
      hsame | ⟨signal, flow, core, nodes, -, -, hopen⟩
    · show GateStep auth _ _
        (Routes.evaluate P C settings registry e.draws e.body w).2.human_gate_manager
      rw [hsame]
      exact .none fun _ _ _ h => nomatch h
    · show GateStep auth _ _
        (Routes.evaluate P C settings registry e.draws e.body w).2.human_gate_manager
      rw [hopen]
      exact .opened rfl
  · rw [run_of_gate_action haction]
    rcases resolve_gate_run P C settings auth action draws request hkeys with
      ⟨e, hrun, hnot⟩ | ⟨actor, gate, held, hresolves, hrun, -⟩
    · rw [hrun]
      refine .none ?_
      intro action' draws' request' haction'
      obtain ⟨rfl, rfl, rfl⟩ : action = action' ∧ draws = draws' ∧ request = request' := by
        simpa using haction.symm.trans haction'
      exact hnot
    · rw [hrun, logged_human_gate_manager]
      exact .resolved haction hresolves
  · rw [run_simulate]
    exact .none fun _ _ _ h => nomatch h

theorem GateStep.same_keys {c : RuntimeCall} {m m' : HumanGateManager}
    (h : GateStep auth c m m') (hkeys : SameKeys m) : SameKeys m' := by
  cases h with
  | none => exact hkeys
  | opened => exact sameKeys_set hkeys _ _ _
  | resolved => exact sameKeys_set hkeys _ _ _

/-- Every gate is found under its own id, which a request of the run drew. -/
def GatesDrawn (calls : List RuntimeCall) (m : HumanGateManager) : Prop :=
  ∀ gate_id gate, m.store.get gate_id = some gate →
    gate.id.str = gate_id ∧ gate.id ∈ calls.flatMap RuntimeCall.drawn

theorem GateStep.gates_drawn {c : RuntimeCall} {m m' : HumanGateManager} {calls : List RuntimeCall}
    (h : GateStep auth c m m') (hdrawn : GatesDrawn calls m) : GatesDrawn (calls ++ [c]) m' := by
  have hold : GatesDrawn (calls ++ [c]) m := by
    intro gate_id gate hget
    obtain ⟨hid, hmem⟩ := hdrawn gate_id gate hget
    refine ⟨hid, ?_⟩
    rw [List.flatMap_append]
    exact List.mem_append_left _ hmem
  cases h with
  | none => exact hold
  | @opened e held hcall =>
      intro gate_id gate hget
      -- the new gate has the id drawn for it
      unfold created at hget
      dsimp only at hget
      rw [Dict.get_set] at hget
      split_ifs at hget with hkey
      · rw [← Option.some.inj hget, hkey, hcall, List.flatMap_append]
        refine ⟨rfl, List.mem_append_right _ ?_⟩
        simp [RuntimeCall.drawn, EvaluateCall.drawn, Env.drawn, gate_request]
      · exact hold gate_id gate hget
  | @resolved action draws request actor gate' held hcall hresolves =>
      intro gate_id gate hget
      -- resolving a gate leaves its id
      unfold HumanGateManager.resolved at hget
      dsimp only at hget
      rw [Dict.get_set] at hget
      split_ifs at hget with hkey
      · rw [← Option.some.inj hget, hkey]
        exact hold request.request_id gate' hresolves.stored
      · exact hold gate_id gate hget

/-- **The run lemma.** -/
theorem gates_run (P : Platform) (C : LedgerBackend σ) (settings : Settings) (auth : AuthSettings)
    (registry : FlowRegistry) (s : σ) (calls : List RuntimeCall) :
    SameKeys (Run.final (RuntimeCall.run P C settings auth registry) (World.init s)
        calls).human_gate_manager
      ∧ GatesDrawn calls (Run.final (RuntimeCall.run P C settings auth registry) (World.init s)
        calls).human_gate_manager := by
  induction calls using List.reverseRecOn with
  | nil => exact ⟨sameKeys_init, fun _ _ h => nomatch h⟩
  | append_singleton calls c ih =>
      rw [Run.final_concat]
      have hstep := gate_step P C settings auth registry c ih.1
      exact ⟨hstep.same_keys ih.1, hstep.gates_drawn ih.2⟩

/-- A gate id that is drawn for the first time is the id of no gate. -/
theorem GatesDrawn.fresh {calls : List RuntimeCall} {m : HumanGateManager}
    (h : GatesDrawn calls m) {u : UUID} (hu : u ∉ calls.flatMap RuntimeCall.drawn) :
    m.store.get u.str = none := by
  rcases hget : m.store.get u.str with _ | gate
  · rfl
  · obtain ⟨hid, hmem⟩ := h u.str gate hget
    exact absurd (UUID.str_injective hid ▸ hmem) hu

end DecisionRuntime.RuntimeCall
