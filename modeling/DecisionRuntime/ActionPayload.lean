/-
The execution payload of a decision, and its action.

`payload` is what downstream systems execute. The validator derives it from `action`
when a result is built, and never again once it is filled; `action` is replaced
later, by a boundary or when a human rejects. `payload_follows_iff` says when the two
are still the same: when nothing in a run replaces an action by another one.
-/
import DecisionRuntime.GateCommitment
import DecisionRuntime.ResultInvariants

set_option autoImplicit false

namespace DecisionRuntime

/-! ## A result and its payload -/

/-- The payload is the action, or empty without one. -/
def DecisionResult.Follows (r : DecisionResult) : Prop := r.payload = r.action.getD []

/-- The boundary that took effect has replaced the action by its own. -/
def DecisionResult.ReplacedBy (r : DecisionResult) (boundary : BoundaryResult) : Prop :=
  BoundaryEngine.dominant r.boundary_results = some boundary
    ∧ (boundary.effect = "override" ∨ boundary.effect = "redirect")

/-- Downstream executes what the decision is: its action, or nothing; nothing when it is blocked or
rejected, the action of the boundary when that has replaced the one of the node. -/
structure DecisionResult.CarriesAction (r : DecisionResult) : Prop where
  payload : r.payload = r.action.getD []
  withdrawn : r.status = .blocked ∨ r.status = .rejected → r.payload = []
  replaced : ∀ boundary, r.ReplacedBy boundary → r.payload = boundary.action.getD []
  exported : PyDict.get (RuntimeLedgerAdapter.decision_result_to_ledger_event r) "payload"
    = some (.dict (r.action.getD []))

/-- The action is what the status and the boundary say. -/
structure DecisionResult.Shaped (r : DecisionResult) : Prop where
  withdrawn : r.status = .blocked ∨ r.status = .rejected → r.action = none
  replaced : ∀ boundary, r.ReplacedBy boundary → r.action = boundary.action

theorem DecisionResult.Shaped.carriesAction_iff {r : DecisionResult} (h : r.Shaped) :
    r.CarriesAction ↔ r.Follows := by
  constructor
  · exact CarriesAction.payload
  · intro hfollows
    have hpayload : r.payload = r.action.getD [] := hfollows
    refine ⟨hpayload, ?_, ?_, ?_⟩
    · intro hstatus
      rw [hpayload, h.withdrawn hstatus]
      rfl
    · intro boundary hreplaced
      rw [hpayload, h.replaced boundary hreplaced]
    · rw [← hpayload]
      rfl

/-! ## What is computed -/

namespace PureEvaluate

open ConditionEvaluator BoundaryEngine

variable {P : Platform} {draws : Draws} {signal : Signal} {flow : DecisionFlow}
  {core : DecisionResult} {evaluated_nodes : List PyDict}

/-- The boundary that takes effect replaces the action of the selected node by another one, where
no action and an empty one count as the same. -/
def ChangesAction (P : Platform) (signal : Signal) (flow : DecisionFlow) : Prop :=
  ∃ outcomes sel version all_boundary_results boundary,
    evaluate_nodes P (build_context signal) (decision_nodes flow) = .ok outcomes
    ∧ select flow (matched outcomes) = .ok sel
    ∧ contract_version sel.selected.config = .ok version
    ∧ evaluate_boundaries P (build_context signal) (boundary_nodes flow)
      = .ok all_boundary_results
    ∧ dominant all_boundary_results = some boundary
    ∧ (action_after boundary sel.selected.action).getD [] ≠ sel.selected.action.getD []

/-- The payload is derived from the action of the selected node. -/
theorem initial_payload (outcomes : List (DecisionNode × Bool)) (sel : Selection)
    (version : Option String) :
    (initial draws signal flow outcomes sel version).payload = sel.selected.action.getD [] := rfl

/-- **The payload of a computed decision** follows its action unless a boundary changes that. -/
theorem follows_iff (h : pure_evaluate P draws signal flow = .ok (core, evaluated_nodes)) :
    core.Follows ↔ ¬ ChangesAction P signal flow := by
  obtain ⟨outcomes, sel, version, brs, houtcomes, hsel, hversion, hbrs, rfl, -⟩ :=
    pure_evaluate_eq_ok.mp h
  have hpayload : (apply_dominant (initial draws signal flow outcomes sel version) brs).payload
      = sel.selected.action.getD [] := by
    obtain ⟨status, action, selected, heq⟩ :=
      apply_dominant_eq (initial draws signal flow outcomes sel version) brs
    rw [heq]
    exact initial_payload outcomes sel version
  -- the selection and the boundary results are those of this evaluation
  have hchanges : ChangesAction P signal flow ↔ ∃ boundary, dominant brs = some boundary
      ∧ (action_after boundary sel.selected.action).getD [] ≠ sel.selected.action.getD [] := by
    constructor
    · rintro ⟨outcomes', sel', version', brs', boundary, houtcomes', hsel', -, hbrs', hrest⟩
      obtain rfl := Except.ok.inj (houtcomes.symm.trans houtcomes')
      obtain rfl := Except.ok.inj (hsel.symm.trans hsel')
      obtain rfl := Except.ok.inj (hbrs.symm.trans hbrs')
      exact ⟨boundary, hrest⟩
    · rintro ⟨boundary, hrest⟩
      exact ⟨outcomes, sel, version, brs, boundary, houtcomes, hsel, hversion, hbrs, hrest⟩
  rw [DecisionResult.Follows, hpayload, hchanges]
  rcases hdominant : dominant brs with _ | boundary
  · rw [apply_dominant_none _ hdominant]
    refine iff_of_true rfl ?_
    rintro ⟨boundary, hsome, -⟩
    cases hsome
  · rw [apply_dominant_some _ hdominant]
    dsimp only
    rw [apply_effect_action]
    constructor
    · rintro heq ⟨boundary', hsome, hne⟩
      obtain rfl := Option.some.inj hsome
      exact hne heq.symm
    · intro hnot
      by_contra hne
      exact hnot ⟨boundary, rfl, fun heq => hne heq.symm⟩

/-- A boundary takes effect only in an evaluation that returns. -/
theorem computes_of_changes (draws : Draws) (h : ChangesAction P signal flow) :
    ∃ core evaluated_nodes, pure_evaluate P draws signal flow = .ok (core, evaluated_nodes) := by
  obtain ⟨outcomes, sel, version, brs, boundary, houtcomes, hsel, hversion, hbrs, -, -⟩ := h
  exact ⟨_, _, pure_evaluate_eq_ok.mpr
    ⟨outcomes, sel, version, brs, houtcomes, hsel, hversion, hbrs, rfl, rfl⟩⟩

/-- The action of a computed decision is what its status and the boundary say; one that is escalated
keeps its own. -/
theorem shaped_of_computed
    (h : pure_evaluate P draws signal flow = .ok (core, evaluated_nodes)) :
    core.Shaped ∧ (core.status = .pending_human → ∀ boundary, ¬ core.ReplacedBy boundary) := by
  obtain ⟨outcomes, sel, version, brs, -, hsel, -, -, rfl, -⟩ := pure_evaluate_eq_ok.mp h
  have hinit := initial_status draws signal version hsel
  rcases hdominant : dominant brs with _ | boundary
  · rw [apply_dominant_none _ hdominant]
    refine ⟨⟨?_, ?_⟩, ?_⟩
    · intro hstatus
      rcases hinit with h | h <;> simp [h] at hstatus
    · rintro boundary ⟨hsome, -⟩
      cases hdominant.symm.trans hsome
    · rintro - boundary ⟨hsome, -⟩
      cases hdominant.symm.trans hsome
  · rw [apply_dominant_some _ hdominant]
    have hstatus_eq := apply_effect_status_eq (initial draws signal flow outcomes sel version)
      boundary
    have haction := apply_effect_action (initial draws signal flow outcomes sel version) boundary
    refine ⟨⟨?_, ?_⟩, ?_⟩
    · -- of the two only `BLOCKED` is set here, and with it the action goes
      intro hstatus
      dsimp only at hstatus ⊢
      rw [hstatus_eq] at hstatus
      rw [haction, action_after]
      by_cases hblock : boundary.effect = "block"
      · rw [if_pos hblock]
      · by_cases hescalate : boundary.effect = "escalate"
        · simp [hescalate] at hstatus
        · rcases hinit with h | h <;> simp [hblock, hescalate, h] at hstatus
    · rintro boundary' ⟨hsome, heffect⟩
      obtain rfl := Option.some.inj (hdominant.symm.trans hsome)
      dsimp only
      rw [haction, action_after]
      rcases heffect with heffect | heffect <;> simp [heffect]
    · rintro hpending boundary' ⟨hsome, heffect⟩
      obtain rfl := Option.some.inj (hdominant.symm.trans hsome)
      dsimp only at hpending
      rw [hstatus_eq] at hpending
      rcases heffect with heffect | heffect <;> rcases hinit with h | h <;>
        simp [heffect, h] at hpending

end PureEvaluate

namespace DecisionRuntimeEngine

open HumanGateManager

variable {σ : Type} {P : Platform} {C : LedgerBackend σ} {cfg : EngineConfig} {w : World σ}

/-! ## One call -/

/-- The action is what the status and the boundary say, and the payload follows it. -/
def Executable (r : DecisionResult) : Prop := r.Shaped ∧ r.Follows

/-- What a gate holds back is that, and no boundary has replaced its action. -/
def Reviewable (r : DecisionResult) : Prop :=
  Executable r ∧ ∀ boundary, ¬ r.ReplacedBy boundary

theorem follows_canonical {r : DecisionResult} (h : r.Follows) :
    r.populate_canonical_fields.Follows := by
  unfold DecisionResult.Follows at h ⊢
  show (if r.payload.isEmpty then r.action.getD [] else r.payload) = r.action.getD []
  rw [h]
  split_ifs <;> rfl

theorem carried_executable : Carried Executable where
  opened cfg env result h := by
    unfold DecisionRuntimeEngine.opened
    split_ifs
    · exact ⟨⟨h.1.withdrawn, h.1.replaced⟩, h.2⟩
    · exact h
  canonical result h := ⟨⟨h.1.withdrawn, h.1.replaced⟩, follows_canonical h.2⟩
  requested env result h := ⟨⟨h.1.withdrawn, h.1.replaced⟩, h.2⟩

theorem executable_refused (env : Env) (status : LedgerCommitStatus) (r : DecisionResult)
    (h : Executable r) : Executable (refused env status r) := by
  refine ⟨⟨?_, h.1.replaced⟩, h.2⟩
  rintro (hstatus | hstatus) <;> cases hstatus

/-- Every decision that the call computes, and every result it returns, carries its action. -/
def ActionsCarried (P : Platform) (t : EngineEntry σ) : Prop :=
  (∀ core, t.call.Computes P core → core.CarriesAction) ∧
    ∀ result, t.answer = .ok result → result.CarriesAction

/-- The call replaces an action: a boundary does, or a decision that has one is rejected. -/
def Departs (P : Platform) : EngineCall → HumanGateManager → Prop
  | .evaluate _ signal flow, _ | .simulate _ _ signal flow, _ =>
    PureEvaluate.ChangesAction P signal flow
  | .approve _ _ _ _ _, _ => False
  | .reject _ request_id _ _ actor_roles, m =>
    ∃ result, m.Resolvable request_id actor_roles result ∧ result.action.getD [] ≠ []

/-- Every result that a later call may hand back or update is executable. -/
structure Intact (w : World σ) : Prop where
  stored : Stored Executable w
  held_back : HeldBack Reviewable w.human_gate_manager

theorem executable_of_computed {draws : Draws} {signal : Signal} {flow : DecisionFlow}
    (hkeeps : ¬ PureEvaluate.ChangesAction P signal flow) {core : DecisionResult}
    (h : ∃ evaluated_nodes, PureEvaluate.pure_evaluate P draws signal flow
      = .ok (core, evaluated_nodes)) : Executable core := by
  obtain ⟨evaluated_nodes, computed⟩ := h
  exact ⟨(PureEvaluate.shaped_of_computed computed).1,
    (PureEvaluate.follows_iff computed).mpr hkeeps⟩

/-- What is computed carries its action unless a boundary changes that. -/
theorem computed_carries_iff (draws : Draws) {signal : Signal} {flow : DecisionFlow} :
    (∀ core, (∃ evaluated_nodes, PureEvaluate.pure_evaluate P draws signal flow
        = .ok (core, evaluated_nodes)) → core.CarriesAction)
      ↔ ¬ PureEvaluate.ChangesAction P signal flow := by
  constructor
  · intro hcarries hchanges
    obtain ⟨core, evaluated_nodes, computed⟩ := PureEvaluate.computes_of_changes draws hchanges
    have hfollows : core.Follows := (hcarries core ⟨evaluated_nodes, computed⟩).payload
    exact (PureEvaluate.follows_iff computed).mp hfollows hchanges
  · intro hkeeps core hcore
    obtain ⟨hshaped, hfollows⟩ := executable_of_computed hkeeps hcore
    exact hshaped.carriesAction_iff.mpr hfollows

theorem reviewable_approved {r : DecisionResult} (h : Reviewable r) (now : Datetime) :
    Reviewable (approval.update now r) := by
  refine ⟨⟨⟨?_, ?_⟩, h.1.2⟩, h.2⟩
  · rintro (hstatus | hstatus) <;> cases hstatus
  · exact fun boundary hreplaced => absurd hreplaced (h.2 boundary)

/-- A rejected decision carries its action when it had none before. -/
theorem reviewable_rejected_iff {r : DecisionResult} (h : Reviewable r) (now : Datetime) :
    Reviewable (rejection.update now r) ↔ r.action.getD [] = [] := by
  have hfollows : r.payload = r.action.getD [] := h.1.2
  constructor
  · intro hreviewable
    have hnone : r.payload = [] := hreviewable.1.2
    rw [← hfollows, hnone]
  · intro hnone
    refine ⟨⟨⟨fun _ => rfl, ?_⟩, ?_⟩, h.2⟩
    · exact fun boundary hreplaced => absurd hreplaced (h.2 boundary)
    · exact hfollows.trans hnone

/-- **One call** carries its actions exactly when it does not replace one. -/
theorem actionsCarried_iff (h : Intact w) (c : EngineCall) :
    ActionsCarried P (Run.entry (EngineCall.run P C cfg) w c)
      ↔ ¬ Departs P c w.human_gate_manager := by
  rcases c with ⟨env, signal, flow⟩ | ⟨draws, completed_at, signal, flow⟩
    | ⟨now, request_id, actor_id, comment, actor_roles⟩
    | ⟨now, request_id, actor_id, comment, actor_roles⟩
  case evaluate =>
    constructor
    · exact fun hcarried => (computed_carries_iff env.draws).mp hcarried.1
    · intro hkeeps
      refine ⟨(computed_carries_iff env.draws).mpr hkeeps, ?_⟩
      intro result hok
      -- computed now, or recovered from the stores
      obtain ⟨hshaped, hfollows⟩ := carried_executable.evaluate executable_refused h.stored
        (fun core hcore => executable_of_computed hkeeps hcore) hok
      exact hshaped.carriesAction_iff.mpr hfollows
  case simulate =>
    constructor
    · exact fun hcarried => (computed_carries_iff draws).mp hcarried.1
    · intro hkeeps
      refine ⟨(computed_carries_iff draws).mpr hkeeps, ?_⟩
      intro result hok
      obtain ⟨core, hcore, rfl⟩ := simulate_eq_ok.mp hok
      obtain ⟨hshaped, hfollows⟩ :=
        carried_executable.canonical core (executable_of_computed hkeeps hcore)
      exact hshaped.carriesAction_iff.mpr hfollows
  case approve =>
    refine iff_of_true ⟨fun core hcore => hcore.elim, ?_⟩ id
    intro result hok
    obtain ⟨held, hheld, rfl⟩ := (approve_eq_ok_iff h.held_back.same_keys).mp hok
    obtain ⟨⟨hshaped, hfollows⟩, -⟩ := reviewable_approved (h.held_back.resolvable hheld) now
    exact hshaped.carriesAction_iff.mpr hfollows
  case reject =>
    constructor
    · rintro ⟨-, hcarried⟩ ⟨held, hheld, hne⟩
      have hok : (Run.entry (EngineCall.run P C cfg) w (.reject now request_id actor_id comment
          actor_roles)).answer = .ok (rejection.update now held) :=
        (reject_eq_ok_iff h.held_back.same_keys).mpr ⟨held, hheld, rfl⟩
      -- a rejection takes the action away and leaves the payload
      have hfollows : held.payload = held.action.getD [] := (h.held_back.resolvable hheld).1.2
      rw [← hfollows] at hne
      exact hne (hcarried _ hok).payload
    · intro hkeeps
      refine ⟨fun core hcore => hcore.elim, ?_⟩
      intro result hok
      obtain ⟨held, hheld, rfl⟩ := (reject_eq_ok_iff h.held_back.same_keys).mp hok
      have hnone : held.action.getD [] = [] := by
        by_contra hne
        exact hkeeps ⟨held, hheld, hne⟩
      obtain ⟨⟨hshaped, hfollows⟩, -⟩ :=
        (reviewable_rejected_iff (h.held_back.resolvable hheld) now).mpr hnone
      exact hshaped.carriesAction_iff.mpr hfollows

/-- **The step lemma.** A call that carries its actions leaves everything intact. -/
theorem Intact.call (h : Intact w) {c : EngineCall}
    (hcarried : ActionsCarried P (Run.entry (EngineCall.run P C cfg) w c)) :
    Intact (c.run P C cfg w).2 := by
  have hcore : ∀ core, c.Computes P core → Executable core := by
    intro core hcore
    obtain ⟨draws, signal, flow, evaluated_nodes, computed⟩ := hcore.computed
    exact ⟨(PureEvaluate.shaped_of_computed computed).1, (hcarried.1 core hcore).payload⟩
  refine ⟨carried_executable.stored h.stored c hcore, ?_⟩
  have hkeeps := (actionsCarried_iff h c).mp hcarried
  refine heldBack_call h.held_back c ?_ ?_ ?_
  · intro core hcomputes hpending
    obtain ⟨draws, signal, flow, evaluated_nodes, computed⟩ := hcomputes.computed
    exact ⟨hcore core hcomputes, (PureEvaluate.shaped_of_computed computed).2 hpending⟩
  · exact fun held now hheld _ => reviewable_approved hheld now
  · intro held now hheld hrejects
    apply (reviewable_rejected_iff hheld now).mpr
    by_contra hne
    rcases c with _ | _ | _ | _
    case reject => exact hkeeps ⟨held, hrejects, hne⟩
    all_goals exact hrejects.elim

/-- **Whole runs.** Every decision computed or returned in a run carries its action exactly when no
call of the run replaces one. -/
theorem payload_follows_iff (P : Platform) (C : LedgerBackend σ) (cfg : EngineConfig) (s : σ)
    (calls : List EngineCall) :
    (∀ t ∈ Run.entries (EngineCall.run P C cfg) (World.init s) calls, ActionsCarried P t) ↔
      ∀ t ∈ Run.entries (EngineCall.run P C cfg) (World.init s) calls,
        ¬ Departs P t.call t.before.human_gate_manager := by
  refine Run.forall_iff (I := Intact) ⟨stored_init _ s, heldBack_init _⟩ ?_ ?_
  · exact fun c w h => actionsCarried_iff h c
  · exact fun c w h hcarried => h.call hcarried

end DecisionRuntimeEngine

namespace Recorded

/-- The flow with a boundary that blocks every decision. -/
def blocking : DecisionFlow :=
  { flow none with
    nodes := (flow none).nodes ++
      [{ id := "amount_limit", node_type := .boundary, effect := some "block" }] }

/-- A blocked decision, and an escalated one that is rejected. -/
def withdrawals : List EngineCall :=
  [.evaluate (env (UUID.repeated 0xd) (UUID.repeated 0xe)) signal blocking,
    .evaluate (env (UUID.repeated 0xa) (UUID.repeated 0xc)) signal escalating,
    .reject ⟨20, some 0⟩ (UUID.repeated 1).str "reviewer" none none]

end Recorded

/-- The blocked decision and the rejected one have no action, and each has a payload. -/
theorem DecisionRuntimeEngine.payload_follows_withdrawals :
    let history := Run.entries (EngineCall.run Recorded.platform LedgerClient.backend
      (Recorded.config "strict")) (World.init LedgerClient.init) Recorded.withdrawals
    history.map (fun t => t.answer.toOption.map (fun result =>
        (result.status, result.action.isSome, result.payload.length)))
        = [some (.blocked, false, 1), some (.pending_human, true, 1), some (.rejected, false, 1)]
      ∧ ¬ ∀ t ∈ history, DecisionRuntimeEngine.ActionsCarried Recorded.platform t := by
  intro history
  refine ⟨by decide +kernel, ?_⟩
  intro hcarried
  let blocked := Run.entry (EngineCall.run Recorded.platform LedgerClient.backend
    (Recorded.config "strict")) (World.init LedgerClient.init) Recorded.withdrawals[0]
  have hblocked : blocked.answer.toOption.map (fun result =>
      (result.status, result.payload.length)) = some (.blocked, 1) := by decide +kernel
  obtain ⟨result, hanswer, hsays⟩ := except_of_toOption_map hblocked
  obtain ⟨hstatus, hlength⟩ := Prod.mk.inj hsays
  have hnone := ((hcarried blocked (.head _)).2 result hanswer).withdrawn (Or.inl hstatus)
  rw [hnone] at hlength
  cases hlength

end DecisionRuntime
