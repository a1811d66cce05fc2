/-
The fields of a decision that mirror its status.

`decision_type`, `human_gate_required`, `reason` and `state` repeat what `status`,
`human_gate` and `error_message` say. The validator fills them in when a result is
built, with the status the selection has set; the boundary, the commit gate and the
reviewer change the status later. `in_step_iff` says of every call of a run when its
result has the five of them in step: when nothing has changed the status since, but
for an approval that brings `confirmed` back.
-/
import DecisionRuntime.RememberedResults
import DecisionRuntime.ResultInvariants

set_option autoImplicit false

namespace DecisionRuntime

namespace DecisionResult

/-! ## Results in step -/

/-- The derived fields say what the status, the gate and the message say. -/
structure InStep (r : DecisionResult) : Prop where
  decision_type : r.decision_type = r.status.value
  human_gate_required : r.human_gate_required = true ↔ r.human_gate ≠ none
  reason : r.status = .error → r.reason = r.error_message
  pending_human : r.state = .pending_human ↔ r.status = .pending_human
  rejected : r.state = .rejected ↔ r.status = .rejected
  failed : r.state = .failed ↔ r.status = .error

/-- A boundary has put the decision off: it is blocked or escalated. -/
def Restrained (r : DecisionResult) : Prop := r.status = .blocked ∨ r.status = .pending_human

/-- A result as it passes through the engine: confirmed in its state, with the type of the status
that the selection has set. -/
structure Passing (r : DecisionResult) : Prop where
  state : r.state = .confirmed
  decision_type : r.decision_type = DecisionStatus.confirmed.value
    ∨ r.decision_type = DecisionStatus.fallback.value
  unrestrained : ¬ r.Restrained → (r.status = .confirmed ∨ r.status = .fallback)
    ∧ r.decision_type = r.status.value ∧ (r.human_gate_required = true ↔ r.human_gate ≠ none)

variable {r : DecisionResult}

theorem Restrained.status_ne (h : r.Restrained) {status : DecisionStatus}
    (hblocked : status ≠ .blocked) (hpending : status ≠ .pending_human) : r.status ≠ status := by
  rintro rfl
  obtain h | h := h
  · exact hblocked h
  · exact hpending h

theorem Passing.inStep_iff (h : r.Passing) : r.InStep ↔ ¬ r.Restrained := by
  constructor
  · intro hin hrestrained
    have htype := hin.decision_type
    -- the type is that of one of two other statuses
    rcases hrestrained with hstatus | hstatus <;> rcases h.decision_type with hd | hd <;>
      · rw [hd, hstatus] at htype
        exact absurd htype (by decide)
  · intro hnot
    obtain ⟨hstatus, htype, hgate⟩ := h.unrestrained hnot
    have hstate := h.state
    refine ⟨htype, hgate, ?_, ?_, ?_, ?_⟩
    all_goals rcases hstatus with hstatus | hstatus <;> simp [hstatus, hstate]

theorem Passing.not_error (h : r.Passing) : r.status ≠ .error := by
  intro herror
  have hnot : ¬ r.Restrained := fun h => h.status_ne (by decide) (by decide) herror
  rcases (h.unrestrained hnot).1 with hstatus | hstatus <;> simp [herror] at hstatus

end DecisionResult

namespace PureEvaluate

open ConditionEvaluator BoundaryEngine

variable {P : Platform} {draws : Draws} {signal : Signal} {flow : DecisionFlow}
  {core : DecisionResult} {evaluated_nodes : List PyDict}

/-! ## What is computed -/

/-- The boundary that takes effect blocks or escalates. -/
def Restrains (P : Platform) (signal : Signal) (flow : DecisionFlow) : Prop :=
  ∃ all_boundary_results boundary,
    evaluate_boundaries P (build_context signal) (boundary_nodes flow) = .ok all_boundary_results
    ∧ dominant all_boundary_results = some boundary
    ∧ (boundary.effect = "block" ∨ boundary.effect = "escalate")

theorem restrained_iff (h : pure_evaluate P draws signal flow = .ok (core, evaluated_nodes)) :
    core.Restrained ↔ Restrains P signal flow := by
  obtain ⟨outcomes, sel, version, brs, -, hsel, -, hbrs, rfl, -⟩ := pure_evaluate_eq_ok.mp h
  have hinit := initial_status draws signal version hsel
  have hrestrains : Restrains P signal flow ↔ ∃ boundary, dominant brs = some boundary
      ∧ (boundary.effect = "block" ∨ boundary.effect = "escalate") := by
    constructor
    · rintro ⟨brs', boundary, hbrs', hrest⟩
      obtain rfl := Except.ok.inj (hbrs.symm.trans hbrs')
      exact ⟨boundary, hrest⟩
    · rintro ⟨boundary, hrest⟩
      exact ⟨brs, boundary, hbrs, hrest⟩
  rw [hrestrains, DecisionResult.Restrained]
  rcases hdominant : dominant brs with _ | boundary
  · rw [apply_dominant_none _ hdominant]
    refine iff_of_false ?_ ?_
    · rcases hinit with hstatus | hstatus <;> simp [hstatus]
    · simp
  · rw [apply_dominant_some _ hdominant]
    dsimp only
    rw [apply_effect_status_eq]
    by_cases hblock : boundary.effect = "block"
    · simp [hblock]
    by_cases hescalate : boundary.effect = "escalate"
    · simp [hescalate]
    rw [if_neg hblock, if_neg hescalate]
    rcases hinit with hstatus | hstatus <;> simp [hstatus, hblock, hescalate]

/-- The type of a computed decision says whether a node has matched. -/
theorem decision_type_of_computed
    (h : pure_evaluate P draws signal flow = .ok (core, evaluated_nodes)) :
    (core.outcome = .pass ∧ core.decision_type = DecisionStatus.confirmed.value) ∨
      (core.outcome = .fail ∧ core.decision_type = DecisionStatus.fallback.value) := by
  obtain ⟨outcomes, sel, version, brs, -, hsel, -, -, rfl, -⟩ := pure_evaluate_eq_ok.mp h
  obtain ⟨status, action, selected, heq⟩ :=
    apply_dominant_eq (initial draws signal flow outcomes sel version) brs
  rw [heq]
  have htype : (initial draws signal flow outcomes sel version).decision_type
      = sel.status.value := rfl
  have houtcome : (initial draws signal flow outcomes sel version).outcome = sel.outcome := rfl
  dsimp only
  rw [htype, houtcome]
  rcases select_eq_ok hsel with ⟨-, hstatus, hpass, -⟩ | ⟨-, hstatus, hfail, -⟩
  · exact Or.inl ⟨hpass, by rw [hstatus]⟩
  · exact Or.inr ⟨hfail, by rw [hstatus]⟩

/-- A computed decision passes through the engine as such, and has no gate yet. -/
theorem passing_of_computed
    (h : pure_evaluate P draws signal flow = .ok (core, evaluated_nodes)) :
    core.Passing ∧ core.human_gate = none ∧ core.human_gate_required = false := by
  have htypes := decision_type_of_computed h
  have hgate := (stamped h).human_gate
  obtain ⟨outcomes, sel, version, brs, -, hsel, -, -, rfl, -⟩ := pure_evaluate_eq_ok.mp h
  have hinit := initial_status draws signal version hsel
  obtain ⟨status, action, selected, heq⟩ :=
    apply_dominant_eq (initial draws signal flow outcomes sel version) brs
  have hrequired : (apply_dominant (initial draws signal flow outcomes sel version)
      brs).human_gate_required = false := by
    rw [heq]
    rfl
  refine ⟨⟨?_, ?_, ?_⟩, hgate, hrequired⟩
  · rw [heq]
    rfl
  · exact htypes.imp And.right And.right
  · intro hnot
    -- without a restraint the status is the one the type was derived from
    have hstatus : (apply_dominant (initial draws signal flow outcomes sel version) brs).status
        = (initial draws signal flow outcomes sel version).status := by
      rcases apply_dominant_status (initial draws signal flow outcomes sel version) brs with
        hsame | hother
      · exact hsame
      · exact absurd hother hnot
    have htype : (apply_dominant (initial draws signal flow outcomes sel version)
        brs).decision_type = (initial draws signal flow outcomes sel version).status.value := by
      rw [heq]
      rfl
    rw [hstatus, htype, hgate, hrequired]
    exact ⟨hinit, rfl, by simp⟩

end PureEvaluate

namespace DecisionRuntimeEngine

open RuntimeLedgerAdapter HumanGateManager

variable {σ : Type} {P : Platform} {C : LedgerBackend σ} {cfg : EngineConfig} {env : Env}
  {signal : Signal} {flow : DecisionFlow} {core : DecisionResult} {evaluated_nodes : List PyDict}
  {events : List LedgerEvent} {w : World σ}

/-! ## What the engine keeps -/

theorem passing_canonical {r : DecisionResult} (h : r.Passing) :
    r.populate_canonical_fields.Passing := by
  have htype : r.populate_canonical_fields.decision_type = r.decision_type := by
    show (if r.decision_type = "" then r.status.value else r.decision_type) = r.decision_type
    rcases h.decision_type with hd | hd <;> simp [hd, DecisionStatus.value]
  refine ⟨h.state, ?_, ?_⟩
  · rw [htype]
    exact h.decision_type
  · intro hnot
    obtain ⟨hstatus, hsame, -⟩ := h.unrestrained hnot
    refine ⟨hstatus, htype.trans hsame, ?_⟩
    show r.human_gate.isSome = true ↔ r.human_gate ≠ none
    rw [Option.isSome_iff_ne_none]

theorem carried_passing : Carried DecisionResult.Passing where
  opened cfg env result h := by
    unfold DecisionRuntimeEngine.opened
    split_ifs with hopen
    · refine ⟨h.state, h.decision_type, ?_⟩
      exact fun hnot => absurd (Or.inr hopen.1) hnot
    · exact h
  canonical _ h := passing_canonical h
  requested _ _ h := ⟨h.state, h.decision_type, h.unrestrained⟩

theorem passing_computes {c : EngineCall} (h : c.Computes P core) : core.Passing := by
  obtain ⟨draws, signal, flow, evaluated_nodes, computed⟩ := h.computed
  exact (PureEvaluate.passing_of_computed computed).1

/-- A result that a gate holds back: its type says whether a node has matched. -/
structure Reviewed (r : DecisionResult) : Prop where
  decision_type : r.decision_type
    = if r.outcome = .pass then DecisionStatus.confirmed.value else DecisionStatus.fallback.value
  human_gate_required : r.human_gate_required = true ↔ r.human_gate ≠ none

theorem reviewed_of_computed {draws : Draws}
    (h : PureEvaluate.pure_evaluate P draws signal flow = .ok (core, evaluated_nodes)) :
    Reviewed core := by
  obtain ⟨-, hgate, hrequired⟩ := PureEvaluate.passing_of_computed h
  refine ⟨?_, by simp [hgate, hrequired]⟩
  rcases PureEvaluate.decision_type_of_computed h with ⟨hpass, hd⟩ | ⟨hfail, hd⟩
  · rw [hd, if_pos hpass]
  · rw [hd, hfail, if_neg (by decide)]

/-- An approved decision is in step when a node has matched. -/
theorem approved_inStep_iff {r : DecisionResult} (h : Reviewed r) (now : Datetime) :
    (approval.update now r).InStep ↔ r.outcome = .pass := by
  constructor
  · intro hin
    by_contra hfail
    have htype : r.decision_type = DecisionStatus.confirmed.value := hin.decision_type
    rw [h.decision_type, if_neg hfail] at htype
    exact absurd htype (by decide)
  · intro hpass
    have htype : r.decision_type = DecisionStatus.confirmed.value := by
      rw [h.decision_type, if_pos hpass]
    refine ⟨htype, h.human_gate_required, ?_, ?_, ?_, ?_⟩
    all_goals simp [approval]

/-- A rejected one never is. -/
theorem rejected_not_inStep {r : DecisionResult} (h : Reviewed r) (now : Datetime) :
    ¬ (rejection.update now r).InStep := by
  intro hin
  have htype : r.decision_type = DecisionStatus.rejected.value := hin.decision_type
  rw [h.decision_type] at htype
  split_ifs at htype
  · exact absurd htype (by decide)
  · exact absurd htype (by decide)

/-- An `ERROR` that takes the place of a decision is not in step either. -/
theorem refused_not_inStep {r : DecisionResult} (h : r.Passing) (env : Env)
    (status : LedgerCommitStatus) : ¬ (refused env status r).InStep := by
  intro hin
  have htype : r.decision_type = DecisionStatus.error.value := hin.decision_type
  rcases h.decision_type with hd | hd <;>
    · rw [hd] at htype
      exact absurd htype (by decide)

/-! ## One evaluation -/

/-- The commit of these events in `w` is answered with `DUPLICATE` throughout, and this earlier
result is recovered. -/
def Recovers (C : LedgerBackend σ) (cfg : EngineConfig) (env : Env) (signal : Signal)
    (events : List LedgerEvent) (w : World σ) (prior : DecisionResult) : Prop :=
  ∃ answers w', append_all (client C) events w = (.ok answers, w') ∧ answers ≠ []
    ∧ (∀ a ∈ answers, a.status = .duplicate)
    ∧ (recover_prior_result C cfg env signal (answers.map (·.event_id)) w').1 = .ok (some prior)

theorem recovers_iff {events : List LedgerEvent} {answers : List LedgerAppendResult}
    {w w' : World σ} (happ : append_all (client C) events w = (.ok answers, w'))
    {prior : DecisionResult} :
    Recovers C cfg env signal events w prior ↔
      answers ≠ [] ∧ (∀ a ∈ answers, a.status = .duplicate)
        ∧ (recover_prior_result C cfg env signal (answers.map (·.event_id)) w').1
          = .ok (some prior) :=
  Exec.exists_run_iff happ

/-- The evaluation, made in `w`, changes a status that the derived fields were taken from. In
strict mode the commit is not accepted, or recovers a decision that was blocked or escalated; or
the boundary blocks or escalates this one, the ledger accepts it and the trace is stored. -/
def EvaluationDrifts (P : Platform) (C : LedgerBackend σ) (cfg : EngineConfig) (env : Env)
    (signal : Signal) (flow : DecisionFlow) (w : World σ) : Prop :=
  ∃ core evaluated_nodes events,
    PureEvaluate.pure_evaluate P env.draws signal flow = .ok (core, evaluated_nodes)
    ∧ build_events P cfg.schema_version
      (commit_trace env signal flow (opened cfg env core) evaluated_nodes).1
      (commit_trace env signal flow (opened cfg env core) evaluated_nodes).2 = .ok events
    ∧ (cfg.strict ∧ NotAccepted C cfg env signal events (gated cfg env core w)
      ∨ cfg.strict ∧ (∃ prior, Recovers C cfg env signal events (gated cfg env core w) prior
        ∧ prior.Restrained)
      ∨ (cfg.strict → LedgerAccepts C events w.ledger) ∧ PureEvaluate.Restrains P signal flow
        ∧ (cfg.trace_store = true → env.trace_store_fault = .none))

section Evaluation

variable
  (computed : PureEvaluate.pure_evaluate P env.draws signal flow = .ok (core, evaluated_nodes))
  (hbuild : build_events P cfg.schema_version
    (commit_trace env signal flow (opened cfg env core) evaluated_nodes).1
    (commit_trace env signal flow (opened cfg env core) evaluated_nodes).2 = .ok events)

include computed

/-- An evaluation that passes the commit gate. -/
theorem passed_inStep_iff
    (hacc : cfg.strict → Accepted P C cfg env signal flow (opened cfg env core) evaluated_nodes
      (gated cfg env core w)) :
    (∀ result, (evaluate P C cfg env signal flow w).1 = .ok result → result.InStep) ↔
      ¬ (PureEvaluate.Restrains P signal flow
        ∧ (cfg.trace_store = true → env.trace_store_fault = .none)) := by
  have hcore := (PureEvaluate.passing_of_computed computed).1
  have hrestrained := PureEvaluate.restrained_iff computed
  have hrun := evaluate_run P C cfg env signal flow w
  generalize (evaluate P C cfg env signal flow w).1 = answer at hrun ⊢
  generalize (evaluate P C cfg env signal flow w).2 = w' at hrun
  rcases hrun with ⟨invalid⟩ | ⟨other, hs, -, hnot⟩ | ⟨other, -, -, hd⟩
    | ⟨other, -, -, -, hfault⟩ | ⟨other, -, -, hd, hsaved⟩
  case invalid => cases computed.symm.trans invalid
  all_goals obtain ⟨rfl, rfl⟩ := except_pair_unique computed other
  case stopped => exact absurd (hacc hs) hnot
  case undispatched =>
    -- only a confirmed decision is dispatched
    refine iff_of_true (fun result hok => by cases hok) ?_
    rintro ⟨hrestrains, -⟩
    rcases hd with _ | _ | ⟨hstatus⟩
    rw [ready_status] at hstatus
    exact (hrestrained.mpr hrestrains).status_ne (by decide) (by decide) hstatus
  case unsaved =>
    refine iff_of_true (fun result hok => by cases hok) ?_
    exact fun h => hfault.2 (h.2 hfault.1)
  case done final _ _ =>
    have hpassing : (persisted cfg final).Passing :=
      carried_passing.persisted (carried_passing.dispatched hcore hd)
    have hstatus : (persisted cfg final).Restrained ↔ core.Restrained := by
      rw [DecisionResult.Restrained, persisted_status, hd.ids.2.2, ready_status]
      exact Iff.rfl
    rw [← hrestrained, ← hstatus]
    constructor
    · exact fun hin h => hpassing.inStep_iff.mp (hin _ rfl) h.1
    · intro hnot result hok
      rw [← Except.ok.inj hok, hpassing.inStep_iff]
      exact fun h => hnot ⟨h, hsaved⟩

include hbuild

/-- An evaluation whose commit is not accepted returns an earlier result exactly when that is
recovered. -/
theorem evaluate_recovers_iff (hs : cfg.strict) (hnot : ¬ LedgerAccepts C events w.ledger)
    {prior : DecisionResult} (hprior : prior.status ≠ .error) :
    (evaluate P C cfg env signal flow w).1 = .ok prior ↔
      Recovers C cfg env signal events (gated cfg env core w) prior := by
  rcases happ : append_all (client C) events (gated cfg env core w) with ⟨e | answers, w'⟩
  · have hraised := evaluate_append_raised hs computed hbuild happ
    refine iff_of_false ?_ ?_
    · intro hok
      cases hraised.symm.trans hok
    · rintro ⟨answers, w'', hok, -⟩
      cases happ.symm.trans hok
  have hsome : ∃ a ∈ answers, a.status ≠ .accepted := by
    by_contra hnone
    push Not at hnone
    exact hnot ((ledgerAccepts_iff happ).mpr hnone)
  rw [recovers_iff happ]
  by_cases hall : ∀ a ∈ answers, a.status = .duplicate
  swap
  · -- a refusal among the answers: what is returned is an error result
    obtain ⟨status, hok⟩ := evaluate_append_refused hs computed hbuild happ hsome hall
    refine iff_of_false ?_ (fun h => hall h.2.1)
    intro hok'
    rw [← Except.ok.inj (hok.symm.trans hok')] at hprior
    exact hprior rfl
  have hne : answers ≠ [] := by
    obtain ⟨a, ha, -⟩ := hsome
    exact List.ne_nil_of_mem ha
  -- all events are there already, and the earlier result is looked for
  have hanswer := evaluate_append_duplicate hs computed hbuild happ hsome hall
  rw [hanswer]
  constructor
  · intro hok
    refine ⟨hne, hall, ?_⟩
    rcases hrec : (recover_prior_result C cfg env signal (answers.map (·.event_id)) w').1 with
      e | _ | found
    · rw [hrec] at hok
      cases hok
    · rw [hrec] at hok
      rw [← Except.ok.inj hok] at hprior
      exact absurd rfl hprior
    · rw [hrec] at hok
      have hfound : found = prior := Except.ok.inj hok
      rw [← hfound]
      exact hrec
  · rintro ⟨-, -, hrec⟩
    rw [hrec]
    rfl

/-- Such an evaluation. -/
theorem stopped_inStep_iff (hs : cfg.strict) (hstored : Stored DecisionResult.Passing w)
    (hnot : ¬ LedgerAccepts C events w.ledger) :
    (∀ result, (evaluate P C cfg env signal flow w).1 = .ok result → result.InStep) ↔
      ¬ (NotAccepted C cfg env signal events (gated cfg env core w)
        ∨ ∃ prior, Recovers C cfg env signal events (gated cfg env core w) prior
          ∧ prior.Restrained) := by
  have hfinal : Finalised w :=
    ⟨fun key result hget => (hstored.remembered key result hget).not_error,
      fun d trace hget result hhead => (hstored.traced d trace hget result hhead).not_error⟩
  have hnot' : ¬ Accepted P C cfg env signal flow (opened cfg env core) evaluated_nodes
      (gated cfg env core w) := by
    rw [accepted_iff_ledgerAccepts hbuild]
    exact hnot
  have hcanonical : (opened cfg env core).populate_canonical_fields.Passing :=
    carried_passing.canonical _ (carried_passing.opened cfg env core
      (PureEvaluate.passing_of_computed computed).1)
  have herror : (∃ result, (evaluate P C cfg env signal flow w).1 = .ok result
      ∧ result.status = .error) ↔ NotAccepted C cfg env signal events (gated cfg env core w) :=
    evaluate_error_iff hs computed hbuild hfinal
  have hrecovers : ∀ prior : DecisionResult, prior.status ≠ .error →
      ((evaluate P C cfg env signal flow w).1 = .ok prior ↔
        Recovers C cfg env signal events (gated cfg env core w) prior) :=
    fun prior hprior => evaluate_recovers_iff computed hbuild hs hnot hprior
  have hstopped := (evaluate_stopped hs computed hnot').2
  generalize (evaluate P C cfg env signal flow w).1 = answer at herror hrecovers hstopped ⊢
  rcases hstopped with status | hrecoverable | e
  case refused =>
    -- the canonical fields were set before the status was
    refine iff_of_false ?_ ?_
    · exact fun hin => refused_not_inStep hcanonical env status (hin _ rfl)
    · exact not_not.mpr (Or.inl (herror.mp ⟨_, rfl, rfl⟩))
  case recovered prior =>
    have hpassing := hstored.recoverable hrecoverable
    constructor
    · rintro hin (hnotaccepted | ⟨other, hother, hrestrained⟩)
      · obtain ⟨result, hok, hresult⟩ := herror.mpr hnotaccepted
        rw [← Except.ok.inj hok] at hresult
        exact hpassing.not_error hresult
      · have hne : other.status ≠ .error := hrestrained.status_ne (by decide) (by decide)
        obtain rfl : prior = other := Except.ok.inj ((hrecovers other hne).mpr hother)
        exact hpassing.inStep_iff.mp (hin prior rfl) hrestrained
    · intro hnone result hok
      obtain rfl := Except.ok.inj hok
      rw [hpassing.inStep_iff]
      intro hrestrained
      exact hnone (Or.inr ⟨prior, (hrecovers prior hpassing.not_error).mp rfl, hrestrained⟩)
  case raised =>
    refine iff_of_true (fun result hok => by cases hok) ?_
    rintro (hnotaccepted | ⟨prior, hprior, hrestrained⟩)
    · obtain ⟨result, hok, -⟩ := herror.mpr hnotaccepted
      cases hok
    · have hne : prior.status ≠ .error := hrestrained.status_ne (by decide) (by decide)
      cases (hrecovers prior hne).mpr hprior

end Evaluation

/-- **One evaluation.** -/
theorem evaluate_inStep_iff (hstored : Stored DecisionResult.Passing w) :
    (∀ result, (evaluate P C cfg env signal flow w).1 = .ok result → result.InStep) ↔
      ¬ EvaluationDrifts P C cfg env signal flow w := by
  rcases computed : PureEvaluate.pure_evaluate P env.draws signal flow with
    e | ⟨core, evaluated_nodes⟩
  · rw [evaluate, computed]
    refine iff_of_true (fun result hok => by cases hok) ?_
    rintro ⟨core, evaluated_nodes, events, other, -⟩
    cases computed.symm.trans other
  obtain ⟨events, hbuild⟩ := exists_events cfg computed (opened cfg env core)
  have hdrifts : EvaluationDrifts P C cfg env signal flow w ↔
      (cfg.strict ∧ NotAccepted C cfg env signal events (gated cfg env core w)
        ∨ cfg.strict ∧ (∃ prior, Recovers C cfg env signal events (gated cfg env core w) prior
          ∧ prior.Restrained)
        ∨ (cfg.strict → LedgerAccepts C events w.ledger) ∧ PureEvaluate.Restrains P signal flow
          ∧ (cfg.trace_store = true → env.trace_store_fault = .none)) := by
    constructor
    · rintro ⟨core', evaluated_nodes', events', other, hbuild', hrest⟩
      obtain ⟨rfl, rfl⟩ := except_pair_unique computed other
      obtain rfl := Except.ok.inj (hbuild.symm.trans hbuild')
      exact hrest
    · exact fun hrest => ⟨core, evaluated_nodes, events, computed, hbuild, hrest⟩
  rw [hdrifts]
  by_cases hs : cfg.strict
  swap
  · -- without the commit gate there is nothing to pass
    rw [passed_inStep_iff computed (fun h => absurd h hs)]
    simp [hs]
  by_cases hacc : LedgerAccepts C events w.ledger
  · have haccepted : Accepted P C cfg env signal flow (opened cfg env core) evaluated_nodes
        (gated cfg env core w) := by
      rw [accepted_iff_ledgerAccepts hbuild]
      exact hacc
    have hall : ∀ answers w', append_all (client C) events (gated cfg env core w)
        = (.ok answers, w') → ∀ a ∈ answers, a.status = .accepted :=
      fun answers w' happ => (ledgerAccepts_iff happ).mp hacc
    have hnotaccepted : ¬ NotAccepted C cfg env signal events (gated cfg env core w) := by
      rintro ⟨answers, w', happ, ⟨a, ha, hne⟩, -⟩
      exact hne (hall answers w' happ a ha)
    have hrecovers : ¬ ∃ prior, Recovers C cfg env signal events (gated cfg env core w) prior
        ∧ prior.Restrained := by
      rintro ⟨prior, ⟨answers, w', happ, hne, hdup, -⟩, -⟩
      obtain ⟨a, ha⟩ := List.exists_mem_of_ne_nil answers hne
      have haccept := hall answers w' happ a ha
      rw [hdup a ha] at haccept
      cases haccept
    rw [passed_inStep_iff computed (fun _ => haccepted)]
    simp [hs, hacc, hnotaccepted, hrecovers]
  · rw [stopped_inStep_iff computed hbuild hs hstored hacc]
    simp [hs, hacc]

/-! ## Every call of a run -/

/-- The call changes a status that the derived fields were taken from. -/
def Drifts (P : Platform) (C : LedgerBackend σ) (cfg : EngineConfig) :
    EngineCall → World σ → Prop
  | .evaluate env signal flow, w => EvaluationDrifts P C cfg env signal flow w
  | .simulate draws _ signal flow, _ => (∃ core evaluated_nodes,
      PureEvaluate.pure_evaluate P draws signal flow = .ok (core, evaluated_nodes))
    ∧ PureEvaluate.Restrains P signal flow
  -- an approval sets the status back to the one that the selection has set
  | .approve _ request_id _ _ actor_roles, w => ∃ result,
    w.human_gate_manager.Resolvable request_id actor_roles result ∧ result.outcome ≠ .pass
  | .reject _ request_id _ _ actor_roles, w => ∃ result,
    w.human_gate_manager.Resolvable request_id actor_roles result

/-- What the stores and the gates hold. -/
structure Derived (w : World σ) : Prop where
  stored : Stored DecisionResult.Passing w
  held_back : HeldBack Reviewed w.human_gate_manager

/-- **The step lemma.** -/
theorem Derived.call (h : Derived w) (c : EngineCall) : Derived (c.run P C cfg w).2 := by
  refine ⟨carried_passing.stored h.stored c (fun core hcore => passing_computes hcore), ?_⟩
  refine heldBack_call h.held_back c ?_ ?_ ?_
  · intro core hcomputes _
    obtain ⟨draws, signal, flow, evaluated_nodes, computed⟩ := hcomputes.computed
    exact reviewed_of_computed computed
  · exact fun held now hheld _ => ⟨hheld.decision_type, hheld.human_gate_required⟩
  · exact fun held now hheld _ => ⟨hheld.decision_type, hheld.human_gate_required⟩

/-- **One call.** -/
theorem call_inStep_iff (h : Derived w) (c : EngineCall) :
    (∀ result, (Run.entry (EngineCall.run P C cfg) w c).answer = .ok result → result.InStep) ↔
      ¬ Drifts P C cfg c w := by
  rcases c with ⟨env, signal, flow⟩ | ⟨draws, completed_at, signal, flow⟩
    | ⟨now, request_id, actor_id, comment, actor_roles⟩
    | ⟨now, request_id, actor_id, comment, actor_roles⟩
  case evaluate => exact evaluate_inStep_iff h.stored
  case simulate =>
    have hcanonical : ∀ {core evaluated_nodes},
        PureEvaluate.pure_evaluate P draws signal flow = .ok (core, evaluated_nodes) →
        (core.populate_canonical_fields.InStep ↔ ¬ PureEvaluate.Restrains P signal flow) := by
      intro core evaluated_nodes computed
      rw [(passing_canonical (PureEvaluate.passing_of_computed computed).1).inStep_iff,
        ← PureEvaluate.restrained_iff computed]
      exact Iff.rfl
    constructor
    · rintro hin ⟨⟨core, evaluated_nodes, computed⟩, hrestrains⟩
      exact (hcanonical computed).mp (hin _ (simulate_eq_ok.mpr ⟨core, ⟨_, computed⟩, rfl⟩))
        hrestrains
    · intro hnot result hok
      obtain ⟨core, ⟨evaluated_nodes, computed⟩, rfl⟩ := simulate_eq_ok.mp hok
      rw [hcanonical computed]
      exact fun hrestrains => hnot ⟨⟨core, evaluated_nodes, computed⟩, hrestrains⟩
  case approve =>
    constructor
    · rintro hin ⟨held, hheld, hfail⟩
      have hstep := hin _ ((approve_eq_ok_iff h.held_back.same_keys).mpr ⟨held, hheld, rfl⟩)
      exact hfail ((approved_inStep_iff (h.held_back.resolvable hheld) now).mp hstep)
    · intro hnot result hok
      obtain ⟨held, hheld, rfl⟩ := (approve_eq_ok_iff h.held_back.same_keys).mp hok
      rw [approved_inStep_iff (h.held_back.resolvable hheld)]
      by_contra hfail
      exact hnot ⟨held, hheld, hfail⟩
  case reject =>
    constructor
    · rintro hin ⟨held, hheld⟩
      have hstep := hin _ ((reject_eq_ok_iff h.held_back.same_keys).mpr ⟨held, hheld, rfl⟩)
      exact rejected_not_inStep (h.held_back.resolvable hheld) now hstep
    · intro hnot result hok
      obtain ⟨held, hheld, -⟩ := (reject_eq_ok_iff h.held_back.same_keys).mp hok
      exact absurd ⟨held, hheld⟩ hnot

/-- **Whole runs.** A call of a run returns a result that is in step exactly when it does not change
a status the derived fields were taken from. -/
theorem in_step_iff (P : Platform) (C : LedgerBackend σ) (cfg : EngineConfig) (s : σ)
    (calls : List EngineCall) :
    ∀ t ∈ Run.entries (EngineCall.run P C cfg) (World.init s) calls,
      (∀ result, t.answer = .ok result → result.InStep) ↔ ¬ Drifts P C cfg t.call t.before := by
  intro t ht
  have hinit : Derived (World.init s) := ⟨stored_init _ s, heldBack_init _⟩
  have hbefore := (Run.invariant_entry hinit (fun c _ w h => h.call c) ht).1
  obtain ⟨pre, c, post, -, rfl⟩ := Run.mem_entries.mp ht
  exact call_inStep_iff hbefore c

end DecisionRuntimeEngine

namespace Recorded

/-- An escalated decision, and the rejection of its gate. -/
def denial : List EngineCall :=
  [.evaluate (env (UUID.repeated 0xa) (UUID.repeated 0xc)) signal escalating,
    .reject ⟨20, some 0⟩ (UUID.repeated 1).str "reviewer" none none]

/-- The escalated decision waits for its gate in the state `confirmed`. -/
theorem denial_out_of_step :
    ∃ result, (Run.entry (EngineCall.run platform LedgerClient.backend (config "strict"))
      (World.init LedgerClient.init) denial[0]).answer = .ok result ∧ ¬ result.InStep := by
  have hstate : (Run.entry (EngineCall.run platform LedgerClient.backend (config "strict"))
      (World.init LedgerClient.init) denial[0]).answer.toOption.map (fun result =>
        (result.status, result.state)) = some (.pending_human, .confirmed) := by decide +kernel
  obtain ⟨result, hanswer, hsays⟩ := except_of_toOption_map hstate
  obtain ⟨hpending, hconfirmed⟩ := Prod.mk.inj hsays
  refine ⟨result, hanswer, ?_⟩
  intro hin
  have hstep := hin.pending_human.mpr hpending
  rw [hconfirmed] at hstep
  cases hstep

end Recorded

/-- The decision is escalated and then rejected, and its type is still `confirmed`; so is its state
while it waits. -/
theorem DecisionRuntimeEngine.in_step_denial :
    let history := Run.entries (EngineCall.run Recorded.platform LedgerClient.backend
      (Recorded.config "strict")) (World.init LedgerClient.init) Recorded.denial
    history.map (fun t => t.answer.toOption.map (fun result =>
        (result.status, result.decision_type, result.state)))
        = [some (.pending_human, "confirmed", .confirmed), some (.rejected, "confirmed", .rejected)]
      ∧ ¬ ∀ t ∈ history, ∀ result, t.answer = .ok result → result.InStep := by
  intro history
  refine ⟨by decide +kernel, ?_⟩
  intro hin
  obtain ⟨result, hanswer, hout⟩ := Recorded.denial_out_of_step
  exact hout (hin _ (.head _) result hanswer)

/-- The evaluation of that run drifts. -/
theorem DecisionRuntimeEngine.in_step_recorded :
    DecisionRuntimeEngine.Drifts Recorded.platform LedgerClient.backend (Recorded.config "strict")
      Recorded.denial[0] (World.init LedgerClient.init) := by
  by_contra hnot
  have hin := (DecisionRuntimeEngine.in_step_iff Recorded.platform LedgerClient.backend
    (Recorded.config "strict") LedgerClient.init Recorded.denial _ (.head _)).mpr hnot
  obtain ⟨result, hanswer, hout⟩ := Recorded.denial_out_of_step
  exact hout (hin result hanswer)

end DecisionRuntime
