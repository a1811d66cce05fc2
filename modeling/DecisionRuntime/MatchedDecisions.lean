/-
What `CONFIRMED` means.

The selection sets this status when a decision node has matched. A boundary never
sets it, and every later copy keeps the outcome of the selection. `approve` sets it as
well, on whatever decision was escalated: `confirmed_matched_iff` says that this is
the one way to a confirmed decision without a matching node, for a fallback decision
can be escalated too.
-/
import DecisionRuntime.GateCommitment
import DecisionRuntime.ResultInvariants

set_option autoImplicit false

namespace DecisionRuntime

/-- If the decision is confirmed, a decision node has matched. -/
def DecisionResult.Matched (r : DecisionResult) : Prop :=
  r.status = .confirmed → r.outcome = .pass ∧ 1 ≤ r.conditions_passed

namespace PureEvaluate

open BoundaryEngine

variable {P : Platform} {draws : Draws} {signal : Signal} {flow : DecisionFlow}
  {core : DecisionResult} {evaluated_nodes : List PyDict}

/-- The outcome of a computed decision is `PASS` only when some node has matched, and its status is
`CONFIRMED` only then. -/
theorem matched_of_computed
    (h : pure_evaluate P draws signal flow = .ok (core, evaluated_nodes)) :
    (core.outcome = .pass → 1 ≤ core.conditions_passed) ∧ core.Matched := by
  obtain ⟨outcomes, sel, version, brs, -, hsel, -, -, rfl, -⟩ := pure_evaluate_eq_ok.mp h
  have hpassed : (initial draws signal flow outcomes sel version).outcome = .pass →
      1 ≤ (initial draws signal flow outcomes sel version).conditions_passed := by
    intro hpass
    have houtcome : sel.outcome = .pass := hpass
    show 1 ≤ (matched outcomes).length
    rcases select_eq_ok hsel with ⟨hne, -⟩ | ⟨-, -, hfail, -⟩
    · exact List.length_pos_iff.mpr hne
    · simp [hfail] at houtcome
  have hconfirmed : (apply_dominant (initial draws signal flow outcomes sel version) brs).status
      = .confirmed → (initial draws signal flow outcomes sel version).outcome = .pass := by
    -- no boundary confirms, so the selection did
    intro hstatus
    have hinit : (initial draws signal flow outcomes sel version).status = .confirmed := by
      rcases apply_dominant_status (initial draws signal flow outcomes sel version) brs with
        hsame | hother | hother
      · rw [← hsame]
        exact hstatus
      · exact absurd (hother.symm.trans hstatus) (by decide)
      · exact absurd (hother.symm.trans hstatus) (by decide)
    have hselected : sel.status = .confirmed := hinit
    rcases select_eq_ok hsel with ⟨-, -, hpass, -⟩ | ⟨-, hfallback, -⟩
    · exact hpass
    · simp [hfallback] at hselected
  obtain ⟨status, action, selected, heq⟩ :=
    apply_dominant_eq (initial draws signal flow outcomes sel version) brs
  rw [DecisionResult.Matched]
  rw [heq] at hconfirmed ⊢
  exact ⟨hpassed, fun hstatus => ⟨hconfirmed hstatus, hpassed (hconfirmed hstatus)⟩⟩

end PureEvaluate

namespace DecisionRuntimeEngine

open HumanGateManager

variable {σ : Type} {P : Platform} {C : LedgerBackend σ} {cfg : EngineConfig}
  {core : DecisionResult} {w : World σ}

/-! ## The results of a world -/

/-- The result is remembered under some key, or that of a stored trace, or held back by a gate. -/
def Holds (w : World σ) (r : DecisionResult) : Prop :=
  (∃ key, w.idempotency_store.get key = some r) ∨
    (∃ decision_id trace, w.trace_store.get_by_decision_id decision_id = .ok trace
      ∧ trace.decision_results.head? = some r) ∨
    ∃ key, w.human_gate_manager.results.get key = some r

/-- Of every result that the call returns, or that is there when it ends, `CONFIRMED` says that a
decision node has matched. -/
def AllMatched (t : EngineEntry σ) : Prop :=
  (∀ result, t.answer = .ok result → result.Matched) ∧
    ∀ result, Holds t.after result → result.Matched

/-- The call approves a decision whose outcome is not `PASS`. -/
def ApprovesUnmatched (c : EngineCall) (m : HumanGateManager) : Prop :=
  ∃ result, c.Approves m result ∧ result.outcome ≠ .pass

/-- What a gate holds back. -/
structure Awaiting (r : DecisionResult) : Prop where
  passed : r.outcome = .pass → 1 ≤ r.conditions_passed
  matched : r.Matched

/-- Every result that is there has a matching node if it is confirmed. -/
structure Supported (w : World σ) : Prop where
  stored : Stored DecisionResult.Matched w
  held_back : HeldBack Awaiting w.human_gate_manager

theorem Supported.of_holds (h : Supported w) {result : DecisionResult} (hr : Holds w result) :
    result.Matched := by
  rcases hr with ⟨key, hget⟩ | ⟨d, trace, hget, hhead⟩ | ⟨key, hget⟩
  · exact h.stored.remembered key result hget
  · exact h.stored.traced d trace hget result hhead
  · exact (h.held_back.results key result hget).matched

/-! ## One call -/

theorem carried_matched : Carried DecisionResult.Matched where
  opened cfg env result h := by
    unfold DecisionRuntimeEngine.opened
    split_ifs
    · exact h
    · exact h
  canonical _ h := h
  requested _ _ h := h

theorem awaiting_computes {c : EngineCall} (h : c.Computes P core) : Awaiting core := by
  obtain ⟨draws, signal, flow, evaluated_nodes, computed⟩ := h.computed
  obtain ⟨hpassed, hmatched⟩ := PureEvaluate.matched_of_computed computed
  exact ⟨hpassed, hmatched⟩

/-- An approval supports a decision exactly when its outcome is `PASS`. -/
theorem approved_matched_iff {r : DecisionResult} (h : Awaiting r) (now : Datetime) :
    (approval.update now r).Matched ↔ r.outcome = .pass := by
  constructor
  · exact fun hmatched => (hmatched rfl).1
  · exact fun hpass _ => ⟨hpass, h.passed hpass⟩

theorem rejected_matched (r : DecisionResult) (now : Datetime) :
    (rejection.update now r).Matched := by
  intro hstatus
  cases hstatus

/-- **The step lemma.** A call that approves no unmatched decision keeps everything supported. -/
theorem Supported.call (h : Supported w) {c : EngineCall}
    (hnot : ¬ ApprovesUnmatched c w.human_gate_manager) : Supported (c.run P C cfg w).2 := by
  refine ⟨carried_matched.stored h.stored c (fun core hcore => (awaiting_computes hcore).matched),
    heldBack_call h.held_back c ?_ ?_ ?_⟩
  · exact fun core hcore _ => awaiting_computes hcore
  · intro held now hheld happroves
    refine ⟨hheld.passed, (approved_matched_iff hheld now).mpr ?_⟩
    by_contra hfail
    exact hnot ⟨held, happroves, hfail⟩
  · intro held now hheld _
    exact ⟨hheld.passed, rejected_matched held now⟩

/-- What a call returns, when everything before was supported. -/
theorem answer_matched_iff (h : Supported w) (c : EngineCall) :
    (∀ result, (Run.entry (EngineCall.run P C cfg) w c).answer = .ok result → result.Matched) ↔
      ¬ ApprovesUnmatched c w.human_gate_manager := by
  rcases c with ⟨env, signal, flow⟩ | ⟨draws, completed_at, signal, flow⟩
    | ⟨now, request_id, actor_id, comment, actor_roles⟩
    | ⟨now, request_id, actor_id, comment, actor_roles⟩
  case evaluate =>
    refine iff_of_true ?_ (fun ⟨_, happroves, _⟩ => happroves)
    intro result hok
    refine carried_matched.evaluate ?_ h.stored
      (fun core hcore => (awaiting_computes hcore).matched) hok
    -- a refused result is an error, and not confirmed
    intro env status r _ hstatus
    cases hstatus
  case simulate =>
    refine iff_of_true ?_ (fun ⟨_, happroves, _⟩ => happroves)
    intro result hok
    obtain ⟨core, hcore, rfl⟩ := simulate_eq_ok.mp hok
    exact carried_matched.canonical core (awaiting_computes hcore).matched
  case approve =>
    constructor
    · rintro hmatched ⟨held, hheld, hfail⟩
      have happroved := hmatched _
        ((approve_eq_ok_iff h.held_back.same_keys).mpr ⟨held, hheld, rfl⟩)
      exact hfail ((approved_matched_iff (h.held_back.resolvable hheld) now).mp happroved)
    · intro hnot result hok
      obtain ⟨held, hheld, rfl⟩ := (approve_eq_ok_iff h.held_back.same_keys).mp hok
      rw [approved_matched_iff (h.held_back.resolvable hheld)]
      by_contra hfail
      exact hnot ⟨held, hheld, hfail⟩
  case reject =>
    refine iff_of_true ?_ (fun ⟨_, happroves, _⟩ => happroves)
    intro result hok
    obtain ⟨held, -, rfl⟩ := (reject_eq_ok_iff h.held_back.same_keys).mp hok
    exact rejected_matched held now

/-- **Whole runs.** In every result that a run returns or leaves behind, `CONFIRMED` says that a
decision node has matched, exactly when no call approves a decision whose outcome is not `PASS`. -/
theorem confirmed_matched_iff (P : Platform) (C : LedgerBackend σ) (cfg : EngineConfig) (s : σ)
    (calls : List EngineCall) :
    (∀ t ∈ Run.entries (EngineCall.run P C cfg) (World.init s) calls, AllMatched t) ↔
      ∀ t ∈ Run.entries (EngineCall.run P C cfg) (World.init s) calls,
        ¬ ApprovesUnmatched t.call t.before.human_gate_manager := by
  refine Run.forall_iff (I := Supported) ⟨stored_init _ s, heldBack_init _⟩ ?_ ?_
  · intro c w h
    constructor
    · exact fun hmatched => (answer_matched_iff h c).mp hmatched.1
    · intro hnot
      exact ⟨(answer_matched_iff h c).mpr hnot, fun result hr => (h.call hnot).of_holds hr⟩
  · exact fun c w h hmatched => h.call ((answer_matched_iff h c).mp hmatched.1)

end DecisionRuntimeEngine

namespace Recorded

/-- The flow in which no decision node matches, with a boundary that escalates. -/
def undecided : DecisionFlow :=
  { flow (some "False") with
    nodes := (flow (some "False")).nodes ++
      [{ id := "amount_limit", node_type := .boundary, effect := some "escalate" }] }

/-- An escalated fallback decision, and its approval. -/
def approved_fallback : List EngineCall :=
  [.evaluate (env (UUID.repeated 0xa) (UUID.repeated 0xc)) signal undecided,
    .approve ⟨20, some 0⟩ (UUID.repeated 1).str "reviewer" none none]

end Recorded

/-- No node matches, the fallback decision is escalated, and its approval confirms it. -/
theorem DecisionRuntimeEngine.confirmed_matched_fallback :
    let history := Run.entries (EngineCall.run Recorded.platform LedgerClient.backend
      (Recorded.config "strict")) (World.init LedgerClient.init) Recorded.approved_fallback
    history.map (fun t => t.answer.toOption.map (fun result =>
        (result.status, result.outcome, result.conditions_passed)))
        = [some (.pending_human, .fail, 0), some (.confirmed, .fail, 0)]
      ∧ ¬ ∀ t ∈ history, DecisionRuntimeEngine.AllMatched t := by
  intro history
  refine ⟨by decide +kernel, ?_⟩
  intro hmatched
  let run := EngineCall.run Recorded.platform LedgerClient.backend (Recorded.config "strict")
  let approved := Run.entry run (run Recorded.approved_fallback[0]
    (World.init LedgerClient.init)).2 Recorded.approved_fallback[1]
  have hconfirmed : approved.answer.toOption.map (fun result => (result.status, result.outcome))
      = some (.confirmed, .fail) := by decide +kernel
  obtain ⟨result, hanswer, hsays⟩ := except_of_toOption_map hconfirmed
  obtain ⟨hstatus, hfail⟩ := Prod.mk.inj hsays
  have hpass := ((hmatched approved (.tail _ (.head _))).1 result hanswer hstatus).1
  rw [hfail] at hpass
  cases hpass

end DecisionRuntime
