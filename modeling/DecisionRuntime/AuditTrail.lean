/-
The audit trail of the gates: what the resolution events of the ledger say of a run.

`resolution` is the event of the resolution that a request carries out, and `audited`
is the same when the ledger takes it. The trail is exact: its events are, one by one
and in order, those of the requests that resolved a gate and whose event was taken
(`resolutions_audited`). Besides:

* with authentication on, every gate that was resolved and every event belongs to a
  holder of a key (`resolutions_attributed`);
* a gate is resolved once, and every other request about it fails, so that an event
  the ledger did not take is never made up for (`resolutions_final`).
-/
import DecisionRuntime.GateTransitions
import DecisionRuntime.ResolutionEvents
import Mathlib.Data.List.Pairwise

set_option autoImplicit false

namespace DecisionRuntime

namespace RuntimeCall

open Routes DecisionRuntimeEngine HumanGateManager

variable {σ : Type} {P : Platform} {L : AppendOnlyLedger σ} {settings : Settings}
  {auth : AuthSettings} {registry : FlowRegistry}

/-! ## Resolutions -/

/-- The event of the resolution that the request carries out in `w`. -/
def resolution (P : Platform) (settings : Settings) (auth : AuthSettings) (c : RuntimeCall)
    (w : World σ) : Option LedgerEvent := do
  let (action, draws, request) ← c.gate_action
  let actor ← (get_actor auth request.api_key).toOption
  let gate ← w.human_gate_manager.store.get request.request_id
  let held ← w.human_gate_manager.results.get request.request_id
  if gate.status = .pending ∧ role_allows gate.required_role (actor.map Actor.roles) then
    some (resolution_event P settings action draws request actor gate held)
  else none

/-- The event that the ledger takes, when it is there and takes it. -/
def audited (P : Platform) (L : AppendOnlyLedger σ) (settings : Settings) (auth : AuthSettings)
    (t : RuntimeEntry σ) : Option LedgerEvent :=
  (t.call.resolution P settings auth t.before).filter fun event =>
    settings.ledger_enabled
      ∧ (L.events (L.append event t.before.ledger).2).length ≠ (L.events t.before.ledger).length

theorem resolution_eq_some {c : RuntimeCall} {w : World σ} {event : LedgerEvent} :
    c.resolution P settings auth w = some event ↔
      ∃ action draws request actor gate held, c.gate_action = some (action, draws, request)
        ∧ Resolves auth request w.human_gate_manager actor gate held
        ∧ event = resolution_event P settings action draws request actor gate held := by
  constructor
  · intro h
    simp only [resolution, Option.bind_eq_bind, Option.bind_eq_some_iff] at h
    obtain ⟨⟨action, draws, request⟩, hcall, actor, hactor, gate, hgate, held, hheld, hevent⟩ := h
    split_ifs at hevent with hallowed
    have hok : get_actor auth request.api_key = .ok actor := by
      rcases hget : get_actor auth request.api_key with e | actor'
      · rw [hget] at hactor
        cases hactor
      · rw [hget] at hactor
        rw [Option.some.inj hactor]
    exact ⟨action, draws, request, actor, gate, held, hcall,
      ⟨hok, hgate, hheld, hallowed.1, hallowed.2⟩, (Option.some.inj hevent).symm⟩
  · rintro ⟨action, draws, request, actor, gate, held, hcall, hresolves, rfl⟩
    simp only [resolution, Option.bind_eq_bind, hcall, hresolves.authenticated, hresolves.stored,
      hresolves.held, Option.bind_some, Except.toOption]
    rw [if_pos ⟨hresolves.pending, hresolves.allowed⟩]

theorem resolution_eq_none {c : RuntimeCall} {w : World σ}
    (h : ∀ action draws request, c.gate_action = some (action, draws, request) →
      ∀ actor gate held, ¬ Resolves auth request w.human_gate_manager actor gate held) :
    c.resolution P settings auth w = none := by
  rcases hevent : c.resolution P settings auth w with _ | event
  · rfl
  · obtain ⟨action, draws, request, actor, gate, held, hcall, hresolves, -⟩ :=
      resolution_eq_some.mp hevent
    exact absurd hresolves (h action draws request hcall actor gate held)

theorem audited_eq_some {t : RuntimeEntry σ} {event : LedgerEvent}
    (h : audited P L settings auth t = some event) :
    t.call.resolution P settings auth t.before = some event :=
  (Option.filter_eq_some_iff.mp h).1

/-! ## The trail -/

/-- The resolution events in the ledger. -/
def trail (L : AppendOnlyLedger σ) (w : World σ) : List LedgerEvent :=
  (recorded_events L w).filter fun event => event.IsResolution

theorem trail_of_addsOther {w w' : World σ} (h : AddsOther L w w') : trail L w' = trail L w := by
  obtain ⟨added, hadds, hnone⟩ := h
  unfold trail
  rw [hadds, List.filter_append, List.append_right_eq_self, List.filter_eq_nil_iff]
  intro event hevent
  simp [hnone event hevent]

/-- A resolution adds its event, if the ledger takes it. -/
theorem trail_logged {w : World σ} {event : LedgerEvent} (hevent : event.IsResolution) :
    trail L (logged L.toLedgerBackend settings event w) = trail L w
      ++ (if settings.ledger_enabled ∧ (L.events (L.append event w.ledger).2).length
          ≠ (L.events w.ledger).length then [event] else []) := by
  by_cases hon : settings.ledger_enabled = true
  · have hrecorded : recorded_events L (logged L.toLedgerBackend settings event w)
        = L.events (L.append event w.ledger).2 := recorded_events_logged hon event
    unfold trail
    rcases takes_or_same L event w.ledger with htakes | hsame
    · have hlonger : (L.events (L.append event w.ledger).2).length
          ≠ (L.events w.ledger).length := by
        rw [htakes, List.length_append, List.length_singleton]
        omega
      rw [if_pos ⟨hon, hlonger⟩, hrecorded, htakes, List.filter_append]
      simp [hevent, recorded_events]
    · rw [if_neg (fun h => h.2 (congrArg List.length hsame)), hrecorded, hsame, List.append_nil]
      rfl
  · rw [if_neg (fun h => hon h.1), List.append_nil, logged, if_neg hon]

/-- **The step lemma.** A request adds to the trail the event that it is audited with. -/
theorem trail_step (P : Platform) (L : AppendOnlyLedger σ) (settings : Settings)
    (auth : AuthSettings) (registry : FlowRegistry) (c : RuntimeCall) {w : World σ}
    (hkeys : SameKeys w.human_gate_manager) :
    trail L (c.run P L.toLedgerBackend settings auth registry w).2
      = trail L w ++ (audited P L settings auth
          (Run.entry (run P L.toLedgerBackend settings auth registry) w c)).toList := by
  have hidle : c.resolution P settings auth w = none → audited P L settings auth
      (Run.entry (run P L.toLedgerBackend settings auth registry) w c) = none := by
    intro hnone
    show (c.resolution P settings auth w).filter _ = none
    rw [hnone]
    rfl
  rcases cases_on c with ⟨e, rfl⟩ | ⟨action, draws, request, haction⟩ | ⟨draws, body, rfl⟩
  · rw [hidle rfl, Option.toList_none, List.append_nil]
    exact trail_of_addsOther (Routes.evaluate_adds P L settings registry e w)
  · rw [run_of_gate_action haction]
    rcases resolve_gate_run P L.toLedgerBackend settings auth action draws request hkeys with
      ⟨e, hrun, hnot⟩ | ⟨actor, gate, held, hresolves, hrun, -⟩
    · -- the request is refused
      rw [hrun, hidle, Option.toList_none, List.append_nil]
      apply resolution_eq_none
      intro action' draws' request' haction'
      obtain ⟨rfl, rfl, rfl⟩ : action = action' ∧ draws = draws' ∧ request = request' := by
        simpa using haction.symm.trans haction'
      exact hnot
    · -- the gate is resolved, and the trail gains the event if the ledger does
      let event := resolution_event P settings action draws request actor gate held
      have hevent : c.resolution P settings auth w = some event :=
        resolution_eq_some.mpr ⟨action, draws, request, actor, gate, held, haction, hresolves, rfl⟩
      have hlogged : trail L (logged L.toLedgerBackend settings event
            (gate_resolved action draws request gate held w))
          = trail L w ++ (if settings.ledger_enabled = true
            ∧ (L.events (L.append event w.ledger).2).length ≠ (L.events w.ledger).length
            then [event] else []) :=
        trail_logged isResolution_resolution_event
      have haudited : audited P L settings auth
            (Run.entry (run P L.toLedgerBackend settings auth registry) w c)
          = if decide (settings.ledger_enabled = true
            ∧ (L.events (L.append event w.ledger).2).length ≠ (L.events w.ledger).length)
            then some event else none := by
        show (c.resolution P settings auth w).filter _ = _
        rw [hevent, Option.filter_some]
        rfl
      rw [hrun, hlogged, haudited]
      by_cases htaken : settings.ledger_enabled = true
          ∧ (L.events (L.append event w.ledger).2).length ≠ (L.events w.ledger).length
      · rw [if_pos htaken, if_pos (decide_eq_true htaken)]
        rfl
      · rw [if_neg htaken, if_neg (fun h => htaken (of_decide_eq_true h))]
        rfl
  · rw [hidle rfl, run_simulate, Option.toList_none, List.append_nil]

/-- The run lemma. -/
theorem trail_run (P : Platform) (L : AppendOnlyLedger σ) (settings : Settings)
    (auth : AuthSettings) (registry : FlowRegistry) (s : σ) (calls : List RuntimeCall) :
    trail L (Run.final (run P L.toLedgerBackend settings auth registry) (World.init s) calls)
      = trail L (World.init s)
        ++ (Run.entries (run P L.toLedgerBackend settings auth registry) (World.init s)
            calls).filterMap (audited P L settings auth) := by
  induction calls using List.reverseRecOn with
  | nil => exact (List.append_nil _).symm
  | append_singleton calls c ih =>
      have hkeys := (gates_run P L.toLedgerBackend settings auth registry s calls).1
      rw [Run.final_concat, trail_step P L settings auth registry c hkeys, ih, Run.entries_concat,
        List.filterMap_append, List.append_assoc]
      congr 2

/-- Without earlier resolution events the trail is what the requests were audited with. -/
theorem trail_run_new (P : Platform) (L : AppendOnlyLedger σ) (settings : Settings)
    (auth : AuthSettings) (registry : FlowRegistry) {s : σ}
    (hs : ∀ event ∈ L.events s, ¬ event.IsResolution) (calls : List RuntimeCall) :
    trail L (Run.final (run P L.toLedgerBackend settings auth registry) (World.init s) calls)
      = (Run.entries (run P L.toLedgerBackend settings auth registry) (World.init s)
          calls).filterMap (audited P L settings auth) := by
  have hnone : trail L (World.init s) = [] := by
    apply List.filter_eq_nil_iff.mpr
    intro event hevent
    simp [hs event hevent]
  rw [trail_run, hnone, List.nil_append]

/-! ## Who resolved a gate -/

/-- The request asks for the action on the gate, with a key that the map gives to the actor. -/
def ActedBy (auth : AuthSettings) (c : RuntimeCall) (gate_id : String) (action : GateAction)
    (actor : Actor) : Prop :=
  ∃ draws request entry, c.gate_action = some (action, draws, request)
    ∧ request.request_id = gate_id
    ∧ auth.api_key_role_map.get (request.api_key.getD "") = some entry
    ∧ Actor.of_entry entry = .ok actor

/-- With authentication on, whoever is let in holds a key. -/
theorem get_actor_eq_ok (hauth : auth.auth_enabled = true) {api_key : Option String}
    {actor : Option Actor} (h : get_actor auth api_key = .ok actor) :
    ∃ entry holder, auth.api_key_role_map.get (api_key.getD "") = some entry
      ∧ Actor.of_entry entry = .ok holder ∧ actor = some holder := by
  unfold get_actor at h
  rw [if_neg (by simp [hauth])] at h
  split_ifs at h with hkey
  rcases hentry : auth.api_key_role_map.get (api_key.getD "") with _ | entry
  · rw [hentry] at h
    cases h
  · rw [hentry] at h
    rcases hholder : Actor.of_entry entry with e | holder
    · simp [hholder, Except.map] at h
    · refine ⟨entry, holder, rfl, hholder, ?_⟩
      simpa [hholder, Except.map] using h.symm

/-- Every gate that is not pending was resolved by one of the requests. -/
def ResolvedBy (auth : AuthSettings) (ts : List (RuntimeEntry σ)) (m : HumanGateManager) : Prop :=
  ∀ gate_id gate, m.store.get gate_id = some gate → gate.status ≠ .pending →
    ∃ t ∈ ts, ∃ action draws request actor before held,
      t.call.gate_action = some (action, draws, request) ∧ request.request_id = gate_id
      ∧ Resolves auth request t.before.human_gate_manager actor before held
      ∧ gate.status = action.resolution.status

/-- **The step lemma.** The status of a gate changes when a request resolves it, and then only. -/
theorem ResolvedBy.step {ts : List (RuntimeEntry σ)} {t : RuntimeEntry σ}
    (h : ResolvedBy auth ts t.before.human_gate_manager)
    (hstep : GateStep auth t.call t.before.human_gate_manager t.after.human_gate_manager) :
    ResolvedBy auth (ts ++ [t]) t.after.human_gate_manager := by
  have hold : ResolvedBy auth (ts ++ [t]) t.before.human_gate_manager := by
    intro gate_id gate hget hst
    obtain ⟨t', ht', hresolved⟩ := h gate_id gate hget hst
    exact ⟨t', List.mem_append_left _ ht', hresolved⟩
  generalize hafter : t.after.human_gate_manager = m' at hstep ⊢
  cases hstep with
  | none => exact hold
  | @opened e held hcall =>
      intro gate_id gate hget hst
      unfold created at hget
      dsimp only at hget
      rw [Dict.get_set] at hget
      split_ifs at hget with hkey
      · -- a gate that was just opened is pending
        rw [← Option.some.inj hget] at hst
        exact absurd rfl hst
      · exact hold gate_id gate hget hst
  | @resolved action draws request actor gate' held hcall hresolves =>
      intro gate_id gate hget hst
      unfold HumanGateManager.resolved at hget
      dsimp only at hget
      rw [Dict.get_set] at hget
      split_ifs at hget with hkey
      · rw [← Option.some.inj hget]
        exact ⟨t, List.mem_append_right _ (List.mem_singleton_self t), action, draws, request,
          actor, gate', held, hcall, hkey.symm, hresolves, rfl⟩
      · exact hold gate_id gate hget hst

/-- The run lemma. -/
theorem resolvedBy_run (P : Platform) (C : LedgerBackend σ) (settings : Settings)
    (auth : AuthSettings) (registry : FlowRegistry) (s : σ) (calls : List RuntimeCall) :
    ResolvedBy auth (Run.entries (run P C settings auth registry) (World.init s) calls)
      (Run.final (run P C settings auth registry) (World.init s) calls).human_gate_manager := by
  induction calls using List.reverseRecOn with
  | nil => exact fun _ _ h => nomatch h
  | append_singleton calls c ih =>
      rw [Run.final_concat, Run.entries_concat]
      have hkeys := (gates_run P C settings auth registry s calls).1
      exact ResolvedBy.step (t := Run.entry _ _ c) ih
        (gate_step P C settings auth registry c hkeys)

/-- A request of a run that resolves a gate does so with a key of the map, and its event is about
that gate. -/
theorem acted_by (P : Platform) (C : LedgerBackend σ) (settings : Settings) {auth : AuthSettings}
    (hauth : auth.auth_enabled = true) (registry : FlowRegistry) (s : σ)
    {calls : List RuntimeCall} {t : RuntimeEntry σ}
    (ht : t ∈ Run.entries (run P C settings auth registry) (World.init s) calls)
    {action : GateAction} {draws : GateDraws} {request : GateRequest} {actor : Option Actor}
    {gate : HumanGateRequest} {held : DecisionResult}
    (hcall : t.call.gate_action = some (action, draws, request))
    (hresolves : Resolves auth request t.before.human_gate_manager actor gate held) :
    ∃ holder, actor = some holder ∧ ActedBy auth t.call request.request_id action holder
      ∧ (resolution_event P settings action draws request actor gate held).step_id
        = request.request_id := by
  obtain ⟨entry, holder, hentry, hholder, rfl⟩ := get_actor_eq_ok hauth hresolves.authenticated
  -- a gate is found under its own id
  obtain ⟨pre, c, post, -, rfl⟩ := Run.mem_entries.mp ht
  have hdrawn := (gates_run P C settings auth registry s pre).2
  exact ⟨holder, rfl, ⟨draws, request, entry, hcall, rfl, hentry, hholder⟩,
    (hdrawn _ _ hresolves.stored).1⟩

/-- **Attribution.** With authentication on, every gate of a run that is not pending was resolved by
a request with a key of the map; and every resolution event in the ledger is that of a request which
resolved the gate, and names, with its roles, the actor whom the map gives the key of this
request. -/
theorem resolutions_attributed (P : Platform) (L : AppendOnlyLedger σ) (settings : Settings)
    (auth : AuthSettings) (hauth : auth.auth_enabled = true) (registry : FlowRegistry) (s : σ)
    (hs : ∀ event ∈ L.events s, ¬ event.IsResolution) (calls : List RuntimeCall) :
    (∀ gate_id gate,
        (Run.final (run P L.toLedgerBackend settings auth registry) (World.init s)
          calls).human_gate_manager.store.get gate_id = some gate → gate.status ≠ .pending →
        ∃ t ∈ Run.entries (run P L.toLedgerBackend settings auth registry) (World.init s) calls,
          ∃ event action actor, t.call.resolution P settings auth t.before = some event
            ∧ event.step_id = gate_id ∧ ActedBy auth t.call gate_id action actor
            ∧ gate.status = action.resolution.status)
      ∧ ∀ event ∈ trail L (Run.final (run P L.toLedgerBackend settings auth registry)
          (World.init s) calls),
        ∃ t ∈ Run.entries (run P L.toLedgerBackend settings auth registry) (World.init s) calls,
          ∃ action actor, t.call.resolution P settings auth t.before = some event
            ∧ ActedBy auth t.call event.step_id action actor
            ∧ PyDict.get event.payload "action" = some (.str action.word)
            ∧ PyDict.get event.payload "actor_id" = some (.str actor.actor_id)
            ∧ PyDict.get event.payload "actor_roles" = some (.list (actor.roles.map .str)) := by
  constructor
  · intro gate_id gate hget hst
    obtain ⟨t, ht, action, draws, request, actor, before, held, hcall, rfl, hresolves, hstatus⟩ :=
      resolvedBy_run P L.toLedgerBackend settings auth registry s calls gate_id gate hget hst
    obtain ⟨holder, -, hacted, hid⟩ :=
      acted_by P L.toLedgerBackend settings hauth registry s ht hcall hresolves
    exact ⟨t, ht, _, action, holder, resolution_eq_some.mpr ⟨action, draws, request, actor, before,
      held, hcall, hresolves, rfl⟩, hid, hacted, hstatus⟩
  · intro event hevent
    rw [trail_run_new P L settings auth registry hs] at hevent
    obtain ⟨t, ht, haudited⟩ := List.mem_filterMap.mp hevent
    have hresolution := audited_eq_some haudited
    obtain ⟨action, draws, request, actor, gate, held, hcall, hresolves, rfl⟩ :=
      resolution_eq_some.mp hresolution
    obtain ⟨holder, rfl, hacted, hid⟩ :=
      acted_by P L.toLedgerBackend settings hauth registry s ht hcall hresolves
    rw [← hid] at hacted
    exact ⟨t, ht, action, holder, hresolution, hacted, rfl, rfl, rfl⟩

/-! ## One resolution for each gate -/

/-- The resolutions that the requests carried out. -/
def resolutions (P : Platform) (settings : Settings) (auth : AuthSettings)
    (ts : List (RuntimeEntry σ)) : List LedgerEvent :=
  ts.filterMap fun t => t.call.resolution P settings auth t.before

/-- The gates that were resolved are not pending, and each was resolved once. -/
structure Settled (P : Platform) (settings : Settings) (auth : AuthSettings)
    (ts : List (RuntimeEntry σ)) (m : HumanGateManager) : Prop where
  not_pending : ∀ event ∈ resolutions P settings auth ts,
    ∃ gate, m.store.get event.step_id = some gate ∧ gate.status ≠ .pending
  once : ((resolutions P settings auth ts).map LedgerEvent.step_id).Nodup

theorem resolutions_concat (ts : List (RuntimeEntry σ)) (t : RuntimeEntry σ) :
    resolutions P settings auth (ts ++ [t]) = resolutions P settings auth ts
      ++ (t.call.resolution P settings auth t.before).toList := by
  unfold resolutions
  rw [List.filterMap_append]
  rfl

/-- A resolution leaves its gate with a status other than pending. -/
theorem gate_action_status {c : RuntimeCall} {action : GateAction} {draws : GateDraws}
    {request : GateRequest} (h : c.gate_action = some (action, draws, request)) :
    action.resolution.status ≠ .pending := by
  rcases action_cases h with rfl | rfl
  · decide
  · decide

/-- **The step lemma.** A gate that was resolved is neither opened nor resolved again. -/
theorem Settled.step {ts : List (RuntimeEntry σ)} {t : RuntimeEntry σ}
    (h : Settled P settings auth ts t.before.human_gate_manager)
    (hdrawn : GatesDrawn (ts.map Entry.call) t.before.human_gate_manager)
    (hstep : GateStep auth t.call t.before.human_gate_manager t.after.human_gate_manager)
    (hfresh : ∀ e, t.call = .evaluate e → e.draws.env.gate_id
      ∉ (ts.map Entry.call).flatMap RuntimeCall.drawn) :
    Settled P settings auth (ts ++ [t]) t.after.human_gate_manager := by
  have hkeep : ∀ {m : HumanGateManager}, t.call.resolution P settings auth t.before = none →
      (∀ event ∈ resolutions P settings auth ts, m.store.get event.step_id
        = t.before.human_gate_manager.store.get event.step_id) →
      Settled P settings auth (ts ++ [t]) m := by
    intro m hnone hsame
    have hresolutions : resolutions P settings auth (ts ++ [t])
        = resolutions P settings auth ts := by
      rw [resolutions_concat, hnone, Option.toList_none, List.append_nil]
    constructor
    · rw [hresolutions]
      intro event hevent
      rw [hsame event hevent]
      exact h.not_pending event hevent
    · rw [hresolutions]
      exact h.once
  generalize hafter : t.after.human_gate_manager = m' at hstep ⊢
  cases hstep with
  | none hidle => exact hkeep (resolution_eq_none hidle) fun _ _ => rfl
  | @opened e held hcall =>
      apply hkeep
      · apply resolution_eq_none
        intro action draws request haction
        rw [hcall] at haction
        cases haction
      · -- the new gate has an id that no gate had
        intro event hevent
        obtain ⟨gate, hget, -⟩ := h.not_pending event hevent
        refine Dict.get_set_other _ ?_ _
        intro hkey
        rw [hkey, hdrawn.fresh (hfresh e hcall)] at hget
        cases hget
  | @resolved action draws request actor gate held hcall hresolves =>
      let new := resolution_event P settings action draws request actor gate held
      have hresolution : t.call.resolution P settings auth t.before = some new :=
        resolution_eq_some.mpr ⟨action, draws, request, actor, gate, held, hcall, hresolves, rfl⟩
      have hid : new.step_id = request.request_id := (hdrawn _ _ hresolves.stored).1
      -- the gate was pending, so that none of the earlier resolutions is its
      have hother : ∀ event ∈ resolutions P settings auth ts,
          event.step_id ≠ request.request_id := by
        intro event hevent hkey
        obtain ⟨gate', hget, hst⟩ := h.not_pending event hevent
        rw [hkey, hresolves.stored] at hget
        rw [← Option.some.inj hget] at hst
        exact hst hresolves.pending
      have hresolutions : resolutions P settings auth (ts ++ [t])
          = resolutions P settings auth ts ++ [new] := by
        rw [resolutions_concat, hresolution]
        rfl
      constructor
      · rw [hresolutions]
        intro event hevent
        rcases List.mem_append.mp hevent with hold | hnew
        · obtain ⟨gate', hget, hst⟩ := h.not_pending event hold
          refine ⟨gate', ?_, hst⟩
          rw [← hget]
          exact Dict.get_set_other _ (hother event hold) _
        · rw [List.mem_singleton.mp hnew, hid]
          exact ⟨_, Dict.get_set_same _ _ _, gate_action_status hcall⟩
      · rw [hresolutions, List.map_append, List.nodup_append]
        refine ⟨h.once, List.nodup_singleton _, ?_⟩
        intro gate_id hmem gate_id' hmem' hsame
        obtain ⟨event, hevent, rfl⟩ := List.mem_map.mp hmem
        rw [List.map_singleton, List.mem_singleton, hid] at hmem'
        exact hother event hevent (hsame.trans hmem')

/-- **The run lemma.** -/
theorem settled_run (P : Platform) (C : LedgerBackend σ) (settings : Settings)
    (auth : AuthSettings) (registry : FlowRegistry) (s : σ) {calls : List RuntimeCall}
    (hfresh : (calls.flatMap RuntimeCall.drawn).Nodup) :
    Settled P settings auth (Run.entries (run P C settings auth registry) (World.init s) calls)
      (Run.final (run P C settings auth registry) (World.init s) calls).human_gate_manager := by
  induction calls using List.reverseRecOn with
  | nil =>
      constructor
      · exact fun _ h => absurd h List.not_mem_nil
      · exact List.nodup_nil
  | append_singleton calls c ih =>
      rw [List.flatMap_append, List.nodup_append] at hfresh
      obtain ⟨hkeys, hdrawn⟩ := gates_run P C settings auth registry s calls
      rw [Run.final_concat, Run.entries_concat]
      refine Settled.step (t := Run.entry _ _ c) (ih hfresh.1) ?_
        (gate_step P C settings auth registry c hkeys) ?_
      · rw [Run.map_call_entries]
        exact hdrawn
      · intro e he hmem
        rw [Run.map_call_entries] at hmem
        have hcall : c = .evaluate e := he
        refine hfresh.2.2 _ hmem _ ?_ rfl
        rw [hcall]
        simp [RuntimeCall.drawn, EvaluateCall.drawn, Env.drawn]

/-- Two requests that resolved gates with one id are one request. -/
theorem eq_of_step_id {ts : List (RuntimeEntry σ)}
    (honce : ((resolutions P settings auth ts).map LedgerEvent.step_id).Nodup)
    {t t' : RuntimeEntry σ} (ht : t ∈ ts) (ht' : t' ∈ ts) {event event' : LedgerEvent}
    (hevent : t.call.resolution P settings auth t.before = some event)
    (hevent' : t'.call.resolution P settings auth t'.before = some event')
    (hsame : event.step_id = event'.step_id) : t = t' := by
  by_contra hne
  rw [List.Nodup, List.pairwise_map, resolutions, List.pairwise_filterMap] at honce
  have hsymm : Std.Symm fun a a' : RuntimeEntry σ =>
      ∀ e, a.call.resolution P settings auth a.before = some e →
        ∀ e', a'.call.resolution P settings auth a'.before = some e' → e.step_id ≠ e'.step_id :=
    ⟨fun a a' h e he e' he' hid => h e' he' e he hid.symm⟩
  exact honce.forall ht ht' hne event hevent event' hevent' hsame

/-- The request is about the gate. -/
def About (c : RuntimeCall) (gate_id : String) : Prop :=
  ∃ action draws request, c.gate_action = some (action, draws, request)
    ∧ request.request_id = gate_id

/-- **The trail is exact.** After any run in which no id is drawn twice, the resolution events in
the ledger are, in order, those of the requests that resolved a gate and whose event the ledger
took, and no two of them are about one gate. -/
theorem resolutions_audited (P : Platform) (L : AppendOnlyLedger σ) (settings : Settings)
    (auth : AuthSettings) (registry : FlowRegistry) (s : σ)
    (hs : ∀ event ∈ L.events s, ¬ event.IsResolution) (calls : List RuntimeCall)
    (hfresh : (calls.flatMap RuntimeCall.drawn).Nodup) :
    trail L (Run.final (run P L.toLedgerBackend settings auth registry) (World.init s) calls)
        = (Run.entries (run P L.toLedgerBackend settings auth registry) (World.init s)
            calls).filterMap (audited P L settings auth)
      ∧ ((trail L (Run.final (run P L.toLedgerBackend settings auth registry) (World.init s)
            calls)).map LedgerEvent.step_id).Nodup := by
  have htrail := trail_run_new P L settings auth registry hs calls
  refine ⟨htrail, ?_⟩
  have honce := (settled_run P L.toLedgerBackend settings auth registry s hfresh).once
  rw [htrail]
  rw [List.Nodup, List.pairwise_map, resolutions, List.pairwise_filterMap] at honce
  rw [List.Nodup, List.pairwise_map, List.pairwise_filterMap]
  refine honce.imp ?_
  intro t t' h event hevent event' hevent'
  exact h event (audited_eq_some hevent) event' (audited_eq_some hevent')

/-- **A gate is resolved once.** In a run in which no id is drawn twice, when a request resolves a
gate, every other request about the gate raises, whatever the answer of the first one was; and when
the ledger does not take the event of the resolution, it never has a resolution event of the
gate. -/
theorem resolutions_final (P : Platform) (L : AppendOnlyLedger σ) (settings : Settings)
    (auth : AuthSettings) (registry : FlowRegistry) (s : σ)
    (hs : ∀ event ∈ L.events s, ¬ event.IsResolution) (calls : List RuntimeCall)
    (hfresh : (calls.flatMap RuntimeCall.drawn).Nodup) :
    ∀ t ∈ Run.entries (run P L.toLedgerBackend settings auth registry) (World.init s) calls,
      ∀ event, t.call.resolution P settings auth t.before = some event →
        (∀ t' ∈ Run.entries (run P L.toLedgerBackend settings auth registry) (World.init s) calls,
          t' ≠ t → About t'.call event.step_id → t'.Raised)
        ∧ (audited P L settings auth t = none → ∀ event' ∈ trail L (Run.final
            (run P L.toLedgerBackend settings auth registry) (World.init s) calls),
          event'.step_id ≠ event.step_id) := by
  intro t ht event hevent
  have honce := (settled_run P L.toLedgerBackend settings auth registry s hfresh).once
  constructor
  · rintro t' ht' hne ⟨action, draws, request, hcall, hid⟩
    obtain ⟨pre, c, post, -, rfl⟩ := Run.mem_entries.mp ht'
    obtain ⟨hkeys, hdrawn⟩ := gates_run P L.toLedgerBackend settings auth registry s pre
    have hrun : c.run P L.toLedgerBackend settings auth registry
        = resolve_gate P L.toLedgerBackend settings auth action draws request :=
      run_of_gate_action hcall
    rcases resolve_gate_run P L.toLedgerBackend settings auth action draws request hkeys with
      ⟨e, hraised, -⟩ | ⟨actor, gate, held, hresolves, -⟩
    · refine ⟨e, ?_⟩
      show (c.run P L.toLedgerBackend settings auth registry _).1 = _
      rw [hrun, hraised]
    · -- it would have resolved the gate as well
      have hevent' : c.resolution P settings auth _
          = some (resolution_event P settings action draws request actor gate held) :=
        resolution_eq_some.mpr ⟨action, draws, request, actor, gate, held, hcall, hresolves, rfl⟩
      have hsame : (resolution_event P settings action draws request actor gate held).step_id
          = event.step_id := (hdrawn _ _ hresolves.stored).1.trans hid
      exact absurd (eq_of_step_id honce ht' ht hevent' hevent hsame) hne
  · intro hlost event' hevent' hsame
    rw [trail_run_new P L settings auth registry hs] at hevent'
    obtain ⟨t', ht', haudited⟩ := List.mem_filterMap.mp hevent'
    obtain rfl := eq_of_step_id honce ht' ht (audited_eq_some haudited) hevent hsame
    rw [hlost] at haudited
    cases haudited

end RuntimeCall

/-! ## A run -/

namespace Recorded

/-- One key, of one reviewer. -/
def key_access : AuthSettings :=
  ⟨true, Dict.empty.set "secret" [("actor_id", .str "ann"), ("roles", .list [.str "reviewer"])]⟩

/-- The approval of the gate with that key, and the rejection that comes too late. -/
def reviewed_calls : List RuntimeCall :=
  [recorded_call,
    .approve_gate resolution_draws { resolution_request with api_key := some "secret" },
    .reject_gate resolution_draws { resolution_request with api_key := some "secret" }]

theorem no_resolutions : ∀ event ∈ LedgerClient.append_only.events LedgerClient.init,
    ¬ event.IsResolution :=
  fun _ h => absurd h List.not_mem_nil

end Recorded

namespace RuntimeCall

open Recorded

theorem resolutions_audited_reviewed :
    (trail LedgerClient.append_only (Run.final (run platform LedgerClient.backend
        (settings "strict") key_access escalating_registry) (World.init LedgerClient.init)
        reviewed_calls)).map (fun event => event.step_id) = [(UUID.repeated 1).str] := by
  have haudited := resolutions_audited platform LedgerClient.append_only (settings "strict")
    key_access escalating_registry LedgerClient.init no_resolutions reviewed_calls
    (by decide +kernel)
  have hrun : LedgerClient.append_only.toLedgerBackend = LedgerClient.backend := rfl
  rw [hrun] at haudited
  rw [haudited.1]
  decide +kernel

theorem resolutions_attributed_reviewed :
    ∃ event, trail LedgerClient.append_only (Run.final (run platform LedgerClient.backend
        (settings "strict") key_access escalating_registry) (World.init LedgerClient.init)
        reviewed_calls) = [event]
      ∧ ∃ t ∈ Run.entries (run platform LedgerClient.backend (settings "strict") key_access
          escalating_registry) (World.init LedgerClient.init) reviewed_calls,
        ∃ action actor,
          t.call.resolution platform (settings "strict") key_access t.before = some event
          ∧ ActedBy key_access t.call event.step_id action actor
          ∧ PyDict.get event.payload "action" = some (.str action.word)
          ∧ PyDict.get event.payload "actor_id" = some (.str actor.actor_id)
          ∧ PyDict.get event.payload "actor_roles" = some (.list (actor.roles.map .str)) := by
  have hattributed := (resolutions_attributed platform LedgerClient.append_only
    (settings "strict") key_access rfl escalating_registry LedgerClient.init no_resolutions
    reviewed_calls).2
  have hone : (trail LedgerClient.append_only (Run.final (run platform LedgerClient.backend
      (settings "strict") key_access escalating_registry) (World.init LedgerClient.init)
      reviewed_calls)).length = 1 := by decide +kernel
  obtain ⟨event, htrail⟩ := List.length_eq_one_iff.mp hone
  refine ⟨event, htrail, hattributed event ?_⟩
  show event ∈ trail LedgerClient.append_only (Run.final (run platform LedgerClient.backend _ _ _)
    _ _)
  rw [htrail]
  exact List.mem_singleton_self event

theorem resolutions_final_reviewed :
    ∃ t ∈ Run.entries (run platform LedgerClient.backend (settings "strict") key_access
        escalating_registry) (World.init LedgerClient.init) reviewed_calls,
      ∃ event, t.call.resolution platform (settings "strict") key_access t.before = some event
        ∧ ∀ t' ∈ Run.entries (run platform LedgerClient.backend (settings "strict") key_access
            escalating_registry) (World.init LedgerClient.init) reviewed_calls,
          t' ≠ t → About t'.call event.step_id → t'.Raised := by
  have hone : (resolutions platform (settings "strict") key_access (Run.entries
      (run platform LedgerClient.backend (settings "strict") key_access escalating_registry)
      (World.init LedgerClient.init) reviewed_calls)).length = 1 := by decide +kernel
  obtain ⟨event, hresolved⟩ := List.length_eq_one_iff.mp hone
  have hmem := List.mem_singleton_self event
  rw [← hresolved] at hmem
  obtain ⟨t, ht, hevent⟩ := List.mem_filterMap.mp hmem
  exact ⟨t, ht, event, hevent, (resolutions_final platform LedgerClient.append_only
    (settings "strict") key_access escalating_registry LedgerClient.init no_resolutions
    reviewed_calls (by decide +kernel) t ht event hevent).1⟩

end RuntimeCall

end DecisionRuntime
