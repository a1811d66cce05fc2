/-
Human gates and the strict commit.

`evaluate` opens the gate of an escalated decision before it commits. When the
ledger then refuses, `evaluate` answers with an `ERROR` or raises, and the gate
stays: it is `PENDING`, and `approve` turns the refused decision into a confirmed
one. `commitment_iff` says exactly when a run is free of this: when no escalated
decision meets a ledger that does not accept one of its appends.

A decision is either one whose commit was accepted (`Owns`) or one whose commit
was not (`Refused`); that these exclude each other over a whole run is where the
freshness of the drawn ids goes in.
-/
import DecisionRuntime.EngineRuns
import DecisionRuntime.HumanGateLifecycle
import DecisionRuntime.LedgerCommit

set_option autoImplicit false

namespace DecisionRuntime.DecisionRuntimeEngine

open RuntimeLedgerAdapter

variable {σ : Type} {P : Platform} {C : LedgerBackend σ} {cfg : EngineConfig}

/-! ## Refused decisions -/

/-- The entry is the evaluation of the decision `d`, and its strict commit did not return
`ACCEPTED`. -/
def Refused (P : Platform) (C : LedgerBackend σ) (cfg : EngineConfig) (t : EngineEntry σ)
    (d : UUID) : Prop :=
  ∃ env signal flow core evaluated_nodes, t.call = .evaluate env signal flow
    ∧ PureEvaluate.pure_evaluate P env.draws signal flow = .ok (core, evaluated_nodes)
    ∧ core.id = d
    ∧ ¬ Accepted P C cfg env signal flow (opened cfg env core) evaluated_nodes
      (gated cfg env core t.before)

/-- No refused decision is ever confirmed, and none leaves a gate that could confirm it. -/
def NeverConfirmed (P : Platform) (C : LedgerBackend σ) (cfg : EngineConfig)
    (history : List (EngineEntry σ)) : Prop :=
  ∀ t ∈ history, ∀ d, Refused P C cfg t d →
    (∀ u ∈ history, ∀ result, u.answer = .ok result → result.id = d →
      result.status ≠ .confirmed) ∧
    ∀ key gate, t.after.human_gate_manager.store.get key = some gate →
      gate.decision_id = some d → gate.status ≠ .pending

/-- Whenever a decision is escalated to a human, the ledger accepts its events. -/
def EscalationsAccepted (P : Platform) (C : LedgerBackend σ) (cfg : EngineConfig)
    (history : List (EngineEntry σ)) : Prop :=
  ∀ t ∈ history, ∀ env signal flow core evaluated_nodes, t.call = .evaluate env signal flow →
    PureEvaluate.pure_evaluate P env.draws signal flow = .ok (core, evaluated_nodes) →
    core.status = .pending_human →
    ∀ events, build_events P cfg.schema_version
        (commit_trace env signal flow (opened cfg env core) evaluated_nodes).1
        (commit_trace env signal flow (opened cfg env core) evaluated_nodes).2 = .ok events →
      LedgerAccepts C events t.before.ledger

/-! ## Accepted decisions -/

/-- The entry is the evaluation of the decision `d`, and its strict commit was accepted; or it is
the simulation of `d`, which has no commit. -/
def Owns (P : Platform) (C : LedgerBackend σ) (cfg : EngineConfig) (t : EngineEntry σ)
    (d : UUID) : Prop :=
  (∃ env signal flow core evaluated_nodes, t.call = .evaluate env signal flow
    ∧ PureEvaluate.pure_evaluate P env.draws signal flow = .ok (core, evaluated_nodes)
    ∧ core.id = d
    ∧ Accepted P C cfg env signal flow (opened cfg env core) evaluated_nodes
      (gated cfg env core t.before)) ∨
  ∃ draws completed_at signal flow, t.call = .simulate draws completed_at signal flow
    ∧ draws.decision_id = d

theorem Refused.drawn {t : EngineEntry σ} {d : UUID} (h : Refused P C cfg t d) :
    d ∈ t.call.drawn := by
  obtain ⟨env, signal, flow, core, nodes, hcall, computed, rfl, -⟩ := h
  rw [hcall, (PureEvaluate.stamped computed).id]
  simp [EngineCall.drawn, Env.drawn]

theorem Owns.drawn {t : EngineEntry σ} {d : UUID} (h : Owns P C cfg t d) :
    d ∈ t.call.drawn := by
  rcases h with ⟨env, signal, flow, core, nodes, hcall, computed, rfl, -⟩ |
    ⟨draws, _, _, _, hcall, rfl⟩
  · rw [hcall, (PureEvaluate.stamped computed).id]
    simp [EngineCall.drawn, Env.drawn]
  · rw [hcall]
    simp [EngineCall.drawn]

/-- An entry does not both own a decision and refuse it. -/
theorem Refused.not_owns {t : EngineEntry σ} {d : UUID} (h : Refused P C cfg t d) :
    ¬ Owns P C cfg t d := by
  obtain ⟨env, signal, flow, core, nodes, hcall, computed, rfl, hnot⟩ := h
  rintro (⟨env', signal', flow', core', nodes', hcall', computed', -, hacc⟩ |
    ⟨_, _, _, _, hcall', -⟩)
  · obtain ⟨rfl, rfl, rfl⟩ := EngineCall.evaluate.inj (hcall.symm.trans hcall')
    obtain ⟨rfl, rfl⟩ := except_pair_unique computed computed'
    exact hnot hacc
  · exact nomatch hcall.symm.trans hcall'

/-- Some entry of the history owns the decision. -/
def Owned (P : Platform) (C : LedgerBackend σ) (cfg : EngineConfig)
    (history : List (EngineEntry σ)) (d : UUID) : Prop :=
  ∃ t ∈ history, Owns P C cfg t d

theorem Owned.mono {history : List (EngineEntry σ)} {d : UUID} (h : Owned P C cfg history d)
    (t : EngineEntry σ) : Owned P C cfg (history ++ [t]) d := by
  obtain ⟨u, hu, hown⟩ := h
  exact ⟨u, List.mem_append_left _ hu, hown⟩

theorem Owns.owned {history : List (EngineEntry σ)} {t : EngineEntry σ} {d : UUID}
    (h : Owns P C cfg t d) : Owned P C cfg (history ++ [t]) d :=
  ⟨t, List.mem_append_right _ (List.mem_singleton_self t), h⟩

/-! ## The gates and their decisions -/

section Gates

variable {p : UUID → Prop} {m : HumanGateManager}

/-- Every gate is for a decision that satisfies `p`, and so is every result held back. -/
structure GatesFor (p : UUID → Prop) (m : HumanGateManager) : Prop where
  same_keys : HumanGateManager.SameKeys m
  gates : ∀ key gate, m.store.get key = some gate → ∃ d, gate.decision_id = some d ∧ p d
  results : ∀ key result, m.results.get key = some result → p result.id

theorem gatesFor_init (p : UUID → Prop) : GatesFor p HumanGateManager.init where
  same_keys := HumanGateManager.sameKeys_init
  gates _ _ h := nomatch h
  results _ _ h := nomatch h

theorem GatesFor.mono {q : UUID → Prop} (h : GatesFor p m) (hpq : ∀ u, p u → q u) :
    GatesFor q m := by
  refine ⟨h.same_keys, ?_, ?_⟩
  · intro key gate hget
    obtain ⟨d, hd, hp⟩ := h.gates key gate hget
    exact ⟨d, hd, hpq d hp⟩
  · intro key result hget
    exact hpq _ (h.results key result hget)

/-- A gate and a result of one decision are put under one key. -/
theorem GatesFor.set (h : GatesFor p m) (key : String) {gate : HumanGateRequest}
    {result : DecisionResult} (hgate : ∃ d, gate.decision_id = some d ∧ p d)
    (hresult : p result.id) : GatesFor p ⟨m.store.set key gate, m.results.set key result⟩ := by
  refine ⟨HumanGateManager.sameKeys_set h.same_keys key gate result, ?_, ?_⟩
  · intro key' gate' hget
    dsimp only at hget
    rw [Dict.get_set] at hget
    split_ifs at hget with hkey
    · rw [← Option.some.inj hget]
      exact hgate
    · exact h.gates key' gate' hget
  · intro key' result' hget
    dsimp only at hget
    rw [Dict.get_set] at hget
    split_ifs at hget with hkey
    · rw [← Option.some.inj hget]
      exact hresult
    · exact h.results key' result' hget

/-- `evaluate` opens a gate for the decision it computed. -/
theorem GatesFor.opened (h : GatesFor p m) {env : Env} {core : DecisionResult}
    (hcore : core.status = .pending_human → p core.id) :
    GatesFor p (gates_opened cfg env core m) := by
  unfold gates_opened
  split_ifs with hopen
  · have hp := hcore hopen.1
    exact h.set env.gate_id.str ⟨core.id, rfl, hp⟩ hp
  · exact h

/-- Resolving a gate leaves the decision it is for, and answers with that decision. -/
theorem GatesFor.resolve (h : GatesFor p m) (res : HumanGateManager.Resolution)
    (hid : ∀ now result, (res.update now result).id = result.id) (now : Datetime)
    (request_id : String) (comment : Option String) (actor_roles : Option (List String)) :
    GatesFor p (HumanGateManager.resolve res now request_id comment actor_roles m).2 ∧
      ∀ result, (HumanGateManager.resolve res now request_id comment actor_roles m).1
        = .ok result → p result.id := by
  rcases HumanGateManager.resolve_run res now request_id comment actor_roles h.same_keys with
    ⟨e, hrun⟩ | ⟨request, result, hrequest, hresult, -, -, hrun⟩
  · rw [hrun]
    exact ⟨h, fun _ hok => nomatch hok⟩
  · have hp : p (res.update now result).id := by
      rw [hid]
      exact h.results request_id result hresult
    rw [hrun]
    refine ⟨h.set request_id (h.gates request_id request hrequest) hp, ?_⟩
    intro updated hok
    rw [← Except.ok.inj hok]
    exact hp

end Gates

/-! ## The invariant -/

/-- Every decision that is in a gate, in a store or confirmed in an answer is owned; so were those
in the gates when a call ended. -/
structure Settled (P : Platform) (C : LedgerBackend σ) (cfg : EngineConfig)
    (history : List (EngineEntry σ)) (w : World σ) : Prop where
  gates : GatesFor (Owned P C cfg history) w.human_gate_manager
  known : Known (Owned P C cfg history) w
  confirmed : ∀ t ∈ history, ∀ result, t.answer = .ok result → result.status = .confirmed →
    Owned P C cfg history result.id
  after : ∀ t ∈ history, GatesFor (Owned P C cfg history) t.after.human_gate_manager

section Step

variable {history : List (EngineEntry σ)} {w : World σ} {t : EngineEntry σ}

theorem settled_init (s : σ) : Settled P C cfg [] (World.init s) where
  gates := gatesFor_init _
  known := known_init _ s
  confirmed _ ht := absurd ht (by simp)
  after _ ht := absurd ht (by simp)

/-- One more entry, given what it leaves and what it answers. -/
theorem Settled.extend (h : Settled P C cfg history w)
    (hgates : GatesFor (Owned P C cfg (history ++ [t])) t.after.human_gate_manager)
    (hknown : Known (Owned P C cfg (history ++ [t])) t.after)
    (hconfirmed : ∀ result, t.answer = .ok result → result.status = .confirmed →
      Owned P C cfg (history ++ [t]) result.id) :
    Settled P C cfg (history ++ [t]) t.after := by
  refine ⟨hgates, hknown, ?_, ?_⟩
  · intro u hu result hok hst
    rcases List.mem_append.mp hu with hu | hu
    · exact (h.confirmed u hu result hok hst).mono t
    · rw [List.mem_singleton.mp hu] at hok
      exact hconfirmed result hok hst
  · intro u hu
    rcases List.mem_append.mp hu with hu | hu
    · exact (h.after u hu).mono (fun d hd => hd.mono t)
    · rw [List.mem_singleton.mp hu]
      exact hgates

/-- An `evaluate` whose escalated decision, if it computes one, is accepted. -/
theorem Settled.evaluate (hs : cfg.strict) (h : Settled P C cfg history w) {env : Env}
    {signal : Signal} {flow : DecisionFlow}
    (hesc : ∀ core evaluated_nodes,
      PureEvaluate.pure_evaluate P env.draws signal flow = .ok (core, evaluated_nodes) →
      core.status = .pending_human →
      Accepted P C cfg env signal flow (opened cfg env core) evaluated_nodes
        (gated cfg env core w))
    (ht : t = Run.entry (EngineCall.run P C cfg) w (.evaluate env signal flow)) :
    Settled P C cfg (history ++ [t]) t.after := by
  have hcall : t.call = .evaluate env signal flow := by rw [ht, Run.entry_call]
  have hbefore : t.before = w := by rw [ht, Run.entry_before]
  have hafter : t.after = (DecisionRuntimeEngine.evaluate P C cfg env signal flow w).2 := by
    rw [ht]
    rfl
  -- an accepted commit makes the decision one of this entry's own
  have hown : ∀ {core evaluated_nodes},
      PureEvaluate.pure_evaluate P env.draws signal flow = .ok (core, evaluated_nodes) →
      Accepted P C cfg env signal flow (opened cfg env core) evaluated_nodes
        (gated cfg env core w) → Owned P C cfg (history ++ [t]) core.id := by
    intro core evaluated_nodes computed hacc
    rw [← hbefore] at hacc
    exact Owns.owned (Or.inl ⟨env, signal, flow, core, evaluated_nodes, hcall, computed, rfl, hacc⟩)
  have hgates := h.gates.mono (fun d hd => hd.mono t)
  have hknown := h.known.mono (fun d hd => hd.mono t)
  refine h.extend ?_ ?_ ?_
  · rw [hafter]
    rcases computed : PureEvaluate.pure_evaluate P env.draws signal flow with
      e | ⟨core, evaluated_nodes⟩
    · rw [DecisionRuntimeEngine.evaluate, computed]
      exact hgates
    · rw [evaluate_gates computed]
      exact hgates.opened (fun hst => hown computed (hesc core evaluated_nodes computed hst))
  · rw [hafter]
    exact known_evaluate hknown env signal flow
      (fun computed passed => hown computed (passed.strict hs).1)
  · intro result hok hst
    rw [ht] at hok
    have hrun := evaluate_run P C cfg env signal flow w
    have hanswer : (DecisionRuntimeEngine.evaluate P C cfg env signal flow w).1 = .ok result := hok
    rw [hanswer] at hrun
    generalize (DecisionRuntimeEngine.evaluate P C cfg env signal flow w).2 = w' at hrun
    rcases hrun with _ | ⟨_, _, _, _, hstopped⟩ | _ | _ | ⟨computed, passed, _, hd⟩
    · -- a refused decision is an `ERROR`, and a recovered one is known
      rcases hstopped with status | hrec
      · cases hst
      · exact hknown.recoverable hrec
    · rw [persisted_id, hd.ids.1, ready_id]
      exact hown computed (passed.strict hs).1

/-- A call of the gate manager. -/
theorem Settled.resolve (h : Settled P C cfg history w) {res : HumanGateManager.Resolution}
    (hid : ∀ now result, (res.update now result).id = result.id) {now : Datetime}
    {request_id : String} {comment : Option String} {actor_roles : Option (List String)}
    (hafter : t.after = (EngineCall.on_gates
      (HumanGateManager.resolve res now request_id comment actor_roles) w).2)
    (hanswer : t.answer = (EngineCall.on_gates
      (HumanGateManager.resolve res now request_id comment actor_roles) w).1) :
    Settled P C cfg (history ++ [t]) t.after := by
  obtain ⟨hgates, hresult⟩ := (h.gates.mono (fun d hd => hd.mono t)).resolve res hid now
    request_id comment actor_roles
  have hknown := h.known.mono (fun d hd => hd.mono t)
  refine h.extend ?_ ?_ ?_
  · rw [hafter]
    exact hgates
  · rw [hafter]
    exact hknown.of_eq rfl rfl
  · intro result hok _
    rw [hanswer] at hok
    exact hresult result hok

/-- **The step lemma.** -/
theorem Settled.step (hs : cfg.strict) (h : Settled P C cfg history w) (c : EngineCall)
    (hesc : EscalationsAccepted P C cfg [Run.entry (EngineCall.run P C cfg) w c]) :
    Settled P C cfg (history ++ [Run.entry (EngineCall.run P C cfg) w c])
      (c.run P C cfg w).2 := by
  rcases c with ⟨env, signal, flow⟩ | ⟨draws, completed_at, signal, flow⟩ | _ | _
  case evaluate =>
    refine h.evaluate hs ?_ rfl
    intro core evaluated_nodes computed hst
    obtain ⟨events, hbuild⟩ := exists_events cfg computed (opened cfg env core)
    rw [accepted_iff_ledgerAccepts hbuild]
    exact hesc _ (List.mem_singleton_self _) env signal flow core evaluated_nodes rfl computed hst
      events hbuild
  case simulate =>
    refine h.extend (h.gates.mono (fun d hd => hd.mono _)) (h.known.mono (fun d hd => hd.mono _)) ?_
    intro result hok _
    have hsim : (DecisionRuntimeEngine.simulate P signal flow draws completed_at).map Prod.fst
        = .ok result := hok
    rcases computed : PureEvaluate.pure_evaluate P draws signal flow with
      e | ⟨core, evaluated_nodes⟩
    · rw [DecisionRuntimeEngine.simulate, computed] at hsim
      exact nomatch hsim
    · rw [DecisionRuntimeEngine.simulate, computed] at hsim
      rw [← Except.ok.inj hsim]
      refine Owns.owned (Or.inr ⟨draws, completed_at, signal, flow, rfl, ?_⟩)
      exact (PureEvaluate.stamped computed).id.symm
  case approve => exact h.resolve (fun _ _ => rfl) rfl rfl
  case reject => exact h.resolve (fun _ _ => rfl) rfl rfl

end Step

/-! ## Whole runs -/

/-- A run in which every escalated decision is accepted is settled throughout. -/
theorem settled_run (hs : cfg.strict) (s : σ) (calls : List EngineCall)
    (hesc : EscalationsAccepted P C cfg
      (Run.entries (EngineCall.run P C cfg) (World.init s) calls)) :
    Settled P C cfg (Run.entries (EngineCall.run P C cfg) (World.init s) calls)
      (Run.final (EngineCall.run P C cfg) (World.init s) calls) := by
  refine Run.entries_invariant (Settled P C cfg) (settled_init s) ?_
  intro pre c post hcs h
  refine h.step hs c ?_
  intro t ht
  rw [List.mem_singleton.mp ht]
  exact hesc _ (Run.mem_entries.mpr ⟨pre, c, post, hcs, rfl⟩)

/-- An escalated decision that the ledger refuses leaves its gate, pending. -/
theorem pending_of_refused (hgates : cfg.human_gate_manager = true) {env : Env}
    {signal : Signal} {flow : DecisionFlow} {core : DecisionResult} {evaluated_nodes : List PyDict}
    (computed : PureEvaluate.pure_evaluate P env.draws signal flow = .ok (core, evaluated_nodes))
    (hst : core.status = .pending_human) (w : World σ) :
    ∃ gate, (evaluate P C cfg env signal flow w).2.human_gate_manager.store.get env.gate_id.str
        = some gate ∧ gate.decision_id = some core.id ∧ gate.status = .pending := by
  refine ⟨HumanGateManager.gate_request env.gate_id env.gate_created_at core none none, ?_, rfl,
    rfl⟩
  rw [evaluate_gates computed, gates_opened, if_pos ⟨hst, hgates⟩]
  exact Dict.get_set_same _ _ _

/-- **Refused decisions and their gates.** In a run that draws no id twice, no decision whose
strict commit was not accepted is ever confirmed or left with a pending gate, if and only if the
ledger accepts the events of every decision that is escalated to a human. -/
theorem commitment_iff (P : Platform) (C : LedgerBackend σ) (cfg : EngineConfig)
    (hs : cfg.strict) (hgates : cfg.human_gate_manager = true) (s : σ) (calls : List EngineCall)
    (hfresh : (calls.flatMap EngineCall.drawn).Nodup) :
    NeverConfirmed P C cfg (Run.entries (EngineCall.run P C cfg) (World.init s) calls) ↔
      EscalationsAccepted P C cfg
        (Run.entries (EngineCall.run P C cfg) (World.init s) calls) := by
  constructor
  · intro hnever t ht env signal flow core evaluated_nodes hcall computed hst events hbuild
    by_contra hrefuses
    obtain ⟨pre, c, post, -, rfl⟩ := Run.mem_entries.mp ht
    obtain rfl : c = .evaluate env signal flow := hcall
    have hrefused : Refused P C cfg (Run.entry (EngineCall.run P C cfg)
        (Run.final (EngineCall.run P C cfg) (World.init s) pre) (.evaluate env signal flow))
        core.id := by
      refine ⟨env, signal, flow, core, evaluated_nodes, rfl, computed, rfl, ?_⟩
      rw [accepted_iff_ledgerAccepts hbuild]
      exact hrefuses
    obtain ⟨gate, hget, hid, hpending⟩ := pending_of_refused hgates computed hst
      (Run.final (EngineCall.run P C cfg) (World.init s) pre)
    exact (hnever _ ht core.id hrefused).2 _ gate hget hid hpending
  · intro hesc
    have hsettled := settled_run hs s calls hesc
    -- a refused decision is owned by no entry: the two would be one entry
    have hnot : ∀ t ∈ Run.entries (EngineCall.run P C cfg) (World.init s) calls, ∀ d,
        Refused P C cfg t d → ¬ Owned P C cfg
          (Run.entries (EngineCall.run P C cfg) (World.init s) calls) d := by
      rintro t ht d hrefused ⟨u, hu, howns⟩
      obtain rfl := Run.entry_unique EngineCall.drawn hfresh ht hu hrefused.drawn howns.drawn
      exact hrefused.not_owns howns
    intro t ht d hrefused
    refine ⟨?_, ?_⟩
    · intro u hu result hok hid hst
      have howned := hsettled.confirmed u hu result hok hst
      rw [hid] at howned
      exact hnot t ht d hrefused howned
    · intro key gate hget hid _
      obtain ⟨d', hd', howned⟩ := (hsettled.after t ht).gates key gate hget
      obtain rfl : d' = d := Option.some.inj (hd'.symm.trans hid)
      exact hnot t ht d' hrefused howned

end DecisionRuntime.DecisionRuntimeEngine

namespace DecisionRuntime

namespace Recorded

/-- A ledger that answers every append with `INVALID`. -/
def refusing : LedgerBackend Unit where
  append event := return { status := .invalid, event_id := event.event_id }
  get_by_event_id _ := return none
  get_events_by_trace_id _ := return []

/-- The flow with a boundary that escalates every decision. -/
def escalating : DecisionFlow :=
  { flow none with
    nodes := (flow none).nodes ++
      [{ id := "amount_limit", node_type := .boundary, effect := some "escalate" }] }

/-- The evaluation of an escalated decision, and the approval of its gate. -/
def escalation : List EngineCall :=
  [.evaluate (env (UUID.repeated 0xa) (UUID.repeated 0xc)) signal escalating,
    .approve ⟨20, some 0⟩ (UUID.repeated 1).str "reviewer" none none]

/-- The events of the escalated decision. -/
def escalation_events : Except PyError (List LedgerEvent) := do
  let env := env (UUID.repeated 0xa) (UUID.repeated 0xc)
  let (core, evaluated_nodes) ←
    PureEvaluate.pure_evaluate platform env.draws signal escalating
  let (trace, result) := DecisionRuntimeEngine.commit_trace env signal escalating
    (DecisionRuntimeEngine.opened (config "strict") env core) evaluated_nodes
  RuntimeLedgerAdapter.build_events platform (config "strict").schema_version trace result

/-- An empty `LedgerClient` accepts them. -/
theorem escalation_accepted : escalation_events.toOption.map (fun events =>
      (RuntimeLedgerAdapter.append_all LedgerClient.backend events
        LedgerClient.init).1.toOption.map (fun answers => answers.all (·.status = .accepted)))
    = some (some true) := by decide +kernel

end Recorded

namespace DecisionRuntimeEngine

open RuntimeLedgerAdapter

theorem refusing_refuses {events : List LedgerEvent} (h : events ≠ []) (s : Unit) :
    ¬ LedgerAccepts Recorded.refusing events s := by
  obtain ⟨event, events, rfl⟩ := List.exists_cons_of_ne_nil h
  rw [ledgerAccepts_cons]
  rintro ⟨answer, s', happ, hacc, -⟩
  have hinvalid : { status := .invalid, event_id := event.event_id } = answer :=
    Except.ok.inj (congrArg Prod.fst happ)
  rw [← hinvalid] at hacc
  cases hacc

/-- The ledger refuses an escalated decision, `evaluate` answers with an `ERROR`, and the approval
of the gate that is left confirms the decision. -/
theorem commitment_iff_refusing :
    let run := EngineCall.run Recorded.platform Recorded.refusing (Recorded.config "strict")
    let history := Run.entries run (World.init ()) Recorded.escalation
    history.map (fun t => t.answer.toOption.map (fun result => (result.id, result.status)))
        = [some (UUID.repeated 0xc, .error), some (UUID.repeated 0xc, .confirmed)]
      ∧ ¬ NeverConfirmed Recorded.platform Recorded.refusing (Recorded.config "strict")
        history := by
  intro run history
  refine ⟨by decide +kernel, ?_⟩
  intro hnever
  let env := Recorded.env (UUID.repeated 0xa) (UUID.repeated 0xc)
  let evaluated := EngineCall.evaluate env Recorded.signal Recorded.escalating
  -- the commit of the evaluation is refused
  have hrefused : Refused Recorded.platform Recorded.refusing (Recorded.config "strict")
      (Run.entry run (World.init ()) evaluated) (UUID.repeated 0xc) := by
    have hok : (PureEvaluate.pure_evaluate Recorded.platform env.draws Recorded.signal
        Recorded.escalating).toOption.isSome = true := by decide +kernel
    obtain ⟨⟨core, evaluated_nodes⟩, computed⟩ := except_of_isSome hok
    obtain ⟨events, hbuild⟩ := exists_events (Recorded.config "strict") computed
      (opened (Recorded.config "strict") env core)
    refine ⟨env, _, _, core, evaluated_nodes, rfl, computed, (PureEvaluate.stamped computed).id, ?_⟩
    rw [accepted_iff_ledgerAccepts hbuild]
    exact refusing_refuses (List.ne_nil_of_mem (outcome_event_mem hbuild)) _
  -- and the approval of its gate answers with a confirmed result
  let approval := Run.entry run (run evaluated (World.init ())).2
    (.approve ⟨20, some 0⟩ (UUID.repeated 1).str "reviewer" none none)
  have hconfirmed : approval.answer.toOption.map (fun result => (result.id, result.status))
      = some (UUID.repeated 0xc, .confirmed) := by decide +kernel
  obtain ⟨result, hanswer, hsays⟩ := except_of_toOption_map hconfirmed
  obtain ⟨hid, hst⟩ := Prod.mk.inj hsays
  exact (hnever _ (.head _) _ hrefused).1 approval (.tail _ (.head _)) result hanswer hid hst

end DecisionRuntimeEngine

/-- With `LedgerClient`, which accepts the events of the escalated decision, no decision that was
refused is ever confirmed. -/
theorem DecisionRuntimeEngine.commitment_iff_recorded :
    DecisionRuntimeEngine.NeverConfirmed Recorded.platform LedgerClient.backend
      (Recorded.config "strict") (Run.entries (EngineCall.run Recorded.platform
        LedgerClient.backend (Recorded.config "strict")) (World.init LedgerClient.init)
        Recorded.escalation) := by
  apply (DecisionRuntimeEngine.commitment_iff Recorded.platform LedgerClient.backend
    (Recorded.config "strict") ⟨rfl, rfl⟩ rfl LedgerClient.init Recorded.escalation
    (by decide)).mpr
  intro t ht env signal flow core evaluated_nodes hcall computed _ events hbuild
  -- of the two calls one is an evaluation
  obtain rfl | rfl := List.mem_pair.mp ht
  · obtain ⟨rfl, rfl, rfl⟩ := EngineCall.evaluate.inj hcall
    have hevents : Recorded.escalation_events = .ok events := by
      rw [Recorded.escalation_events, computed]
      exact hbuild
    have hall := Recorded.escalation_accepted
    rw [hevents] at hall
    obtain ⟨answers, hanswers, haccepted⟩ := except_of_toOption_map (Option.some.inj hall)
    exact ⟨answers, hanswers, by simpa using haccepted⟩
  · exact nomatch hcall

end DecisionRuntime
