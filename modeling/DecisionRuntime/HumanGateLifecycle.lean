/-
The human gates of one manager, over any sequence of calls.

A gate moves once, from pending to approved or to rejected, and the result held
back under the same key moves with it. `Phase` is that machine for one gate, with
the result given at creation as its parameter; `Tracked` says which gate of which
manager is in which phase, and that the calls made so far account for it. The
manager keeps the two halves in two dictionaries written by separate statements,
so the first thing carried along a run is that their keys agree.
-/
import DecisionRuntime.History
import DecisionRuntime.HumanGateManager

set_option autoImplicit false

namespace DecisionRuntime.HumanGateManager

/-! ## The calls -/

/-- A call of the manager, with what it draws (an id, the time). -/
inductive GateCall
  | create_request (uuid : UUID) (now : Datetime) (decision_result : DecisionResult)
      (required_role reason : Option String)
  | approve (now : Datetime) (request_id actor_id : String) (comment : Option String)
      (actor_roles : Option (List String))
  | reject (now : Datetime) (request_id actor_id : String) (comment : Option String)
      (actor_roles : Option (List String))

/-- What a call returns: `create_request` the gate, the other two the updated result. -/
inductive GateAnswer
  | created (request : HumanGateRequest)
  | resolved (result : DecisionResult)

namespace GateCall

/-- The call itself. -/
def run : GateCall → Exec PyError HumanGateManager GateAnswer
  | .create_request uuid now decision_result required_role reason =>
    GateAnswer.created <$> HumanGateManager.create_request uuid now decision_result required_role
      reason
  | .approve now request_id _ comment actor_roles =>
    GateAnswer.resolved <$> HumanGateManager.approve now request_id comment actor_roles
  | .reject now request_id _ comment actor_roles =>
    GateAnswer.resolved <$> HumanGateManager.reject now request_id comment actor_roles

/-- The ids the call draws. -/
def drawn : GateCall → List UUID
  | .create_request uuid _ _ _ _ => [uuid]
  | _ => []

/-- The key of the gate the call is about. -/
def gate : GateCall → String
  | .create_request uuid _ _ _ _ => uuid.str
  | .approve _ request_id _ _ _ => request_id
  | .reject _ request_id _ _ _ => request_id

/-- The roles of the actor. -/
def actor_roles : GateCall → Option (List String)
  | .create_request _ _ _ _ _ => none
  | .approve _ _ _ _ roles => roles
  | .reject _ _ _ _ roles => roles

/-- The decision that is given to a new gate. -/
def given : GateCall → Option DecisionResult
  | .create_request _ _ decision_result _ _ => some decision_result
  | _ => none

/-- The call is an `approve` or a `reject`, as the resolution it writes. -/
def resolution : GateCall → Option Resolution
  | .create_request _ _ _ _ _ => none
  | .approve _ _ _ _ _ => some approval
  | .reject _ _ _ _ _ => some rejection

end GateCall

/-- One call of a run, with the manager before and after it. -/
abbrev GateEntry := Entry GateCall PyError HumanGateManager GateAnswer

/-- The entry is a successful `approve` or `reject` of the gate `k`. -/
def Resolves (k : String) (t : GateEntry) : Prop :=
  t.call.gate = k ∧ t.call.resolution.isSome ∧ t.Succeeded

instance (k : String) (t : GateEntry) : Decidable (Resolves k t) :=
  inferInstanceAs (Decidable (_ ∧ _ ∧ _))

/-! ## What one call can do -/

/-- A call raises and changes nothing, or opens the gate it drew, or resolves a pending gate
that allows the actor. -/
theorem run_cases {m : HumanGateManager} (hkeys : SameKeys m) (c : GateCall) :
    (∃ e, c.run m = (.error e, m)) ∨
    (∃ uuid now given required_role reason,
      c = .create_request uuid now given required_role reason
      ∧ c.run m = (.ok (.created (gate_request uuid now given required_role reason)),
          created uuid now given required_role reason m)) ∨
    (∃ res now comment request result, c.resolution = some res
      ∧ m.store.get c.gate = some request ∧ m.results.get c.gate = some result
      ∧ request.status = .pending ∧ role_allows request.required_role c.actor_roles = true
      ∧ c.run m = (.ok (.resolved (res.update now result)),
          resolved res now c.gate comment request result m)) := by
  -- `approve` and `reject` are both `resolve`, so one argument serves the two
  have hres : ∀ (res : Resolution) (now : Datetime) (comment : Option String),
      c.resolution = some res →
      c.run = GateAnswer.resolved <$> resolve res now c.gate comment c.actor_roles →
      (∃ e, c.run m = (.error e, m)) ∨
      (∃ res now comment request result, c.resolution = some res
        ∧ m.store.get c.gate = some request ∧ m.results.get c.gate = some result
        ∧ request.status = .pending ∧ role_allows request.required_role c.actor_roles = true
        ∧ c.run m = (.ok (.resolved (res.update now result)),
            resolved res now c.gate comment request result m)) := by
    intro res now comment hc hrun
    rcases resolve_run res now c.gate comment c.actor_roles hkeys with
      ⟨e, he⟩ | ⟨request, result, hg, hr, hp, ha, hok⟩
    · left
      refine ⟨e, ?_⟩
      rw [hrun, Exec.run_map, he]
      rfl
    · right
      refine ⟨res, now, comment, request, result, hc, hg, hr, hp, ha, ?_⟩
      rw [hrun, Exec.run_map, hok]
      rfl
  rcases c with ⟨uuid, now, given, role, reason⟩ | ⟨now, id, actor, comment, roles⟩ |
    ⟨now, id, actor, comment, roles⟩
  · by_cases h : 512 < (title_of reason).length
    -- the title is too long
    · left
      refine ⟨.validationError "HumanGateRequest", ?_⟩
      rw [GateCall.run, Exec.run_map, create_request_run, if_pos h]
      rfl
    · right
      left
      refine ⟨uuid, now, given, role, reason, rfl, ?_⟩
      rw [GateCall.run, Exec.run_map, create_request_run, if_neg h]
      rfl
  · rcases hres approval now comment rfl rfl with h | h
    · exact Or.inl h
    · exact Or.inr (Or.inr h)
  · rcases hres rejection now comment rfl rfl with h | h
    · exact Or.inl h
    · exact Or.inr (Or.inr h)

theorem sameKeys_init : SameKeys init := fun _ => Iff.rfl

/-- The dictionaries are written under one key at a time, both of them. -/
theorem sameKeys_set {m : HumanGateManager} (hkeys : SameKeys m) (k : String)
    (request : HumanGateRequest) (result : DecisionResult) :
    SameKeys ⟨m.store.set k request, m.results.set k result⟩ := by
  intro k'
  rw [Dict.mem_keys_set, Dict.mem_keys_set, hkeys k']

theorem preserves_sameKeys (c : GateCall) : Exec.Preserves SameKeys c.run := by
  intro m hkeys
  rcases run_cases hkeys c with ⟨e, h⟩ | ⟨_, _, _, _, _, _, h⟩ | ⟨_, _, _, _, _, _, _, _, _, _, h⟩
  · rw [h]
    exact hkeys
  · rw [h]
    exact sameKeys_set hkeys _ _ _
  · rw [h]
    exact sameKeys_set hkeys _ _ _

/-- A call that raises changes nothing. -/
theorem raised_unchanged {m : HumanGateManager} (hkeys : SameKeys m) (c : GateCall)
    (h : ∃ e, (c.run m).1 = .error e) : (c.run m).2 = m := by
  obtain ⟨e, he⟩ := h
  rcases run_cases hkeys c with ⟨_, h⟩ | ⟨_, _, _, _, _, _, h⟩ | ⟨_, _, _, _, _, _, _, _, _, _, h⟩
  · rw [h]
  · rw [h] at he
    cases he
  · rw [h] at he
    cases he

/-- A call reaches no other gate than its own. -/
theorem other_gates_unchanged {m : HumanGateManager} (hkeys : SameKeys m) (c : GateCall)
    {k : String} (hk : k ≠ c.gate) :
    (c.run m).2.store.get k = m.store.get k ∧ (c.run m).2.results.get k = m.results.get k := by
  rcases run_cases hkeys c with ⟨_, h⟩ | ⟨uuid, _, _, _, _, rfl, h⟩ |
    ⟨_, _, _, _, _, _, _, _, _, _, h⟩
  · rw [h]
    exact ⟨rfl, rfl⟩
  · rw [h]
    exact ⟨Dict.get_set_other _ hk _, Dict.get_set_other _ hk _⟩
  · rw [h]
    exact ⟨Dict.get_set_other _ hk _, Dict.get_set_other _ hk _⟩

/-- The roles a gate without a required role, or with one the actor has, lets pass. -/
theorem role_allows_iff {required_role : Option String} {actor_roles : Option (List String)} :
    role_allows required_role actor_roles = true ↔
      required_role = none ∨ ∃ role, required_role = some role ∧ role ∈ actor_roles.getD [] := by
  rcases required_role with _ | role
  · simp [role_allows]
  · simp [role_allows]

/-! ## One gate -/

/-- `result` is `given` with this status, state and action, and another time of update. -/
def ChangedTo (status : DecisionStatus) (state : RuntimeState) (action : Option PyDict)
    (given result : DecisionResult) : Prop :=
  ∃ now, result = { given with status := status, state := state, action := action,
                               updated_at := now }

/-- The machine of one gate: the status of the request and the result held under its key. -/
inductive Phase (given : DecisionResult) : HumanGateStatus → DecisionResult → Prop
  | pending : Phase given .pending given
  | approved {result : DecisionResult}
      (h : ChangedTo .confirmed .confirmed given.action given result) :
      Phase given .approved result
  | rejected {result : DecisionResult} (h : ChangedTo .rejected .rejected none given result) :
      Phase given .rejected result

namespace Phase

variable {given result : DecisionResult} {status : HumanGateStatus}

/-- A pending gate holds the result it was given. -/
theorem of_pending (h : Phase given .pending result) : result = given := by
  cases h
  rfl

/-- Resolving a pending gate leads to the phase of the resolution. -/
theorem resolve {c : GateCall} {res : Resolution} (hc : c.resolution = some res)
    (h : Phase given .pending result) (now : Datetime) :
    Phase given res.status (res.update now result) ∧ res.status ≠ .pending := by
  -- the result is still the one given, and the update is applied to it
  rw [h.of_pending]
  rcases c with _ | _ | _
  · cases hc
  · obtain rfl : approval = res := by simpa [GateCall.resolution] using hc
    exact ⟨.approved ⟨now, rfl⟩, by decide⟩
  · obtain rfl : rejection = res := by simpa [GateCall.resolution] using hc
    exact ⟨.rejected ⟨now, rfl⟩, by decide⟩

/-- A gate is in one of three of the statuses. -/
theorem status_cases (h : Phase given status result) :
    status = .pending ∨ status = .approved ∨ status = .rejected := by
  cases h with
  | pending => exact Or.inl rfl
  | approved => exact Or.inr (Or.inl rfl)
  | rejected => exact Or.inr (Or.inr rfl)

/-- For a decision given as `PENDING_HUMAN`, the status of the gate can be read off the result
and the other way round. -/
theorem status_iff (hgiven : given.status = .pending_human) (h : Phase given status result) :
    (status = .pending ↔ result = given)
    ∧ (status = .approved ↔ ChangedTo .confirmed .confirmed given.action given result)
    ∧ (status = .rejected ↔ ChangedTo .rejected .rejected none given result) := by
  -- the three phases differ in the status of the result
  have hstatus : ∀ {s state action}, ChangedTo s state action given result → result.status = s := by
    rintro s state action ⟨now, rfl⟩
    rfl
  have hnot : ∀ {s state action}, ChangedTo s state action given result → s ≠ .pending_human →
      result ≠ given := by
    intro s state action hch hs heq
    rw [← hstatus hch, heq, hgiven] at hs
    exact hs rfl
  cases h with
  | pending =>
      refine ⟨by simp, ?_, ?_⟩
      · exact ⟨fun h => by simp at h, fun h => absurd rfl (hnot h (by decide))⟩
      · exact ⟨fun h => by simp at h, fun h => absurd rfl (hnot h (by decide))⟩
  | approved hch =>
      refine ⟨?_, by simp [hch], ?_⟩
      · exact ⟨fun h => by simp at h, fun h => absurd h (hnot hch (by decide))⟩
      · refine ⟨fun h => by simp at h, fun h => ?_⟩
        have := (hstatus hch).symm.trans (hstatus h)
        simp at this
  | rejected hch =>
      refine ⟨?_, ?_, by simp [hch]⟩
      · exact ⟨fun h => by simp at h, fun h => absurd h (hnot hch (by decide))⟩
      · refine ⟨fun h => by simp at h, fun h => ?_⟩
        have := (hstatus hch).symm.trans (hstatus h)
        simp at this

end Phase

/-! ## All gates, along a run -/

/-- How often a gate was resolved, as its status tells it. -/
def times_resolved (m : HumanGateManager) (k : String) : ℕ :=
  match m.store.get k with
  | none => 0
  | some request => if request.status = .pending then 0 else 1

theorem times_resolved_none {m : HumanGateManager} {k : String} (h : m.store.get k = none) :
    times_resolved m k = 0 := by
  rw [times_resolved, h]

theorem times_resolved_some {m : HumanGateManager} {k : String} {request : HumanGateRequest}
    (h : m.store.get k = some request) :
    times_resolved m k = if request.status = .pending then 0 else 1 := by
  rw [times_resolved, h]

theorem times_resolved_congr {m m' : HumanGateManager} {k : String}
    (h : m.store.get k = m'.store.get k) : times_resolved m k = times_resolved m' k := by
  rw [times_resolved, times_resolved, h]

/-- The gates of `m` are those the calls in `h` opened, each in a phase of its machine, and its
status counts the calls that resolved it. -/
structure Tracked (h : List GateEntry) (m : HumanGateManager) : Prop where
  same_keys : SameKeys m
  accounted : ∀ k ∈ m.store.keys, ∃ t ∈ h, t.call.gate = k ∧ t.call.given.isSome ∧ t.Succeeded
  opened : ∀ t ∈ h, ∀ given, t.call.given = some given → t.Succeeded →
    ∃ request result, m.store.get t.call.gate = some request
      ∧ m.results.get t.call.gate = some result ∧ Phase given request.status result
  counted : ∀ k, (h.filter (fun t => Resolves k t)).length = times_resolved m k

/-- A call that is given a decision drew the key of its gate. -/
theorem gate_of_given {c : GateCall} (h : c.given.isSome) :
    ∃ u, c.drawn = [u] ∧ c.gate = u.str := by
  rcases c with ⟨uuid, _, _, _, _⟩ | _ | _
  · exact ⟨uuid, rfl, rfl⟩
  · cases h
  · cases h

/-- An id that no earlier call drew names no gate yet. -/
theorem Tracked.fresh_gate {h : List GateEntry} {m : HumanGateManager} (ht : Tracked h m)
    {u : UUID} (hu : ∀ t ∈ h, u ∉ t.call.drawn) : u.str ∉ m.store.keys := by
  intro hk
  obtain ⟨t, hmem, hgate, hgiven, -⟩ := ht.accounted _ hk
  obtain ⟨v, hdrawn, hv⟩ := gate_of_given hgiven
  -- one key, so one id, which the earlier call drew
  have huv : u = v := UUID.str_inj.mp (hgate.symm.trans hv)
  exact hu t hmem (by rw [hdrawn, huv, List.mem_singleton])

theorem tracked_init : Tracked [] init where
  same_keys := sameKeys_init
  accounted := by
    intro k hk
    simp [init] at hk
  opened := by
    intro t ht
    simp at ht
  counted := by
    intro k
    rfl

/-- A new entry that resolves nothing leaves the count of the old ones. -/
theorem filter_concat_of_not {h : List GateEntry} {k : String} {t : GateEntry}
    (ht : ¬Resolves k t) :
    ((h ++ [t]).filter (fun t => Resolves k t)).length
      = (h.filter (fun t => Resolves k t)).length := by
  rw [List.filter_append, List.filter_cons_of_neg (by simpa using ht)]
  simp

theorem filter_concat_of {h : List GateEntry} {k : String} {t : GateEntry} (ht : Resolves k t) :
    ((h ++ [t]).filter (fun t => Resolves k t)).length
      = (h.filter (fun t => Resolves k t)).length + 1 := by
  rw [List.filter_append, List.filter_cons_of_pos (by simpa using ht)]
  simp

section Step

variable {h : List GateEntry} {m : HumanGateManager} {c : GateCall}

/-- A call that raised is no success, and the manager is the one before. -/
theorem Tracked.raised (ht : Tracked h m) (hraised : ¬(Run.entry GateCall.run m c).Succeeded) :
    Tracked (h ++ [Run.entry GateCall.run m c]) m := by
  refine ⟨ht.same_keys, ?_, ?_, ?_⟩
  · intro k hk
    obtain ⟨t, hmem, hrest⟩ := ht.accounted k hk
    exact ⟨t, List.mem_append_left _ hmem, hrest⟩
  · intro t hmem given hgiven hok
    rcases List.mem_append.mp hmem with hmem | hmem
    · exact ht.opened t hmem given hgiven hok
    · rw [List.mem_singleton] at hmem
      exact absurd (hmem ▸ hok) hraised
  · intro k
    rw [filter_concat_of_not (fun hr => hraised hr.2.2), ht.counted]

/-- A call that opens a gate does so under a key that was not in use. -/
theorem Tracked.opens (ht : Tracked h m) {uuid : UUID} {now : Datetime} {given : DecisionResult}
    {role reason : Option String}
    (hfresh : ∀ t ∈ h, uuid ∉ t.call.drawn)
    (hok : (Run.entry GateCall.run m (.create_request uuid now given role reason)).Succeeded) :
    Tracked (h ++ [Run.entry GateCall.run m (.create_request uuid now given role reason)])
      (created uuid now given role reason m) := by
  have hnew : m.store.get uuid.str = none := Dict.get_eq_none.mpr (ht.fresh_gate hfresh)
  have hother : ∀ t ∈ h, t.call.given.isSome → t.call.gate ≠ uuid.str := by
    intro t hmem hgiven heq
    obtain ⟨v, hdrawn, hv⟩ := gate_of_given hgiven
    have huv : uuid = v := UUID.str_inj.mp (heq.symm.trans hv)
    exact hfresh t hmem (by simp [hdrawn, huv])
  refine ⟨sameKeys_set ht.same_keys _ _ _, ?_, ?_, ?_⟩
  · intro k hk
    rcases Dict.mem_keys_set.mp hk with rfl | hk
    · exact ⟨_, List.mem_append_right _ (List.mem_singleton_self _), rfl, rfl, hok⟩
    · obtain ⟨t, hmem, hrest⟩ := ht.accounted k hk
      exact ⟨t, List.mem_append_left _ hmem, hrest⟩
  · intro t hmem given' hgiven hsucc
    rcases List.mem_append.mp hmem with hmem | hmem
    · obtain ⟨request, result, hreq, hresult, hphase⟩ := ht.opened t hmem given' hgiven hsucc
      have hne := hother t hmem (by rw [hgiven]; rfl)
      refine ⟨request, result, ?_, ?_, hphase⟩
      · exact (Dict.get_set_other _ hne _).trans hreq
      · exact (Dict.get_set_other _ hne _).trans hresult
    · rw [List.mem_singleton] at hmem
      subst hmem
      obtain rfl : given = given' := by simpa [GateCall.given] using hgiven
      exact ⟨_, _, Dict.get_set_same _ _ _, Dict.get_set_same _ _ _, .pending⟩
  · -- opening a gate is no resolution of any
    intro k
    have hnot : ¬Resolves k (Run.entry GateCall.run m
        (.create_request uuid now given role reason)) := by
      rintro ⟨-, hres, -⟩
      cases hres
    rw [filter_concat_of_not hnot, ht.counted]
    by_cases hk : k = uuid.str
    · subst hk
      have hset : (created uuid now given role reason m).store.get uuid.str
          = some (gate_request uuid now given role reason) := Dict.get_set_same _ _ _
      rw [times_resolved_none hnew, times_resolved_some hset]
      rfl
    · exact times_resolved_congr (Dict.get_set_other _ hk _).symm

/-- A call that resolves a gate moves it out of the pending phase and no other gate anywhere. -/
theorem Tracked.resolves (ht : Tracked h m) {res : Resolution} {now : Datetime}
    {comment : Option String} {request : HumanGateRequest} {result : DecisionResult}
    (hc : c.resolution = some res) (hreq : m.store.get c.gate = some request)
    (hresult : m.results.get c.gate = some result) (hpending : request.status = .pending)
    (hok : (Run.entry GateCall.run m c).Succeeded) :
    Tracked (h ++ [Run.entry GateCall.run m c])
      (resolved res now c.gate comment request result m) := by
  have hisSome : c.resolution.isSome := by
    rw [hc]
    rfl
  have hnotgiven : c.given = none := by
    rcases c with _ | _ | _
    · cases hc
    · rfl
    · rfl
  refine ⟨sameKeys_set ht.same_keys _ _ _, ?_, ?_, ?_⟩
  · intro k hk
    have hk' : k ∈ m.store.keys := by
      rcases Dict.mem_keys_set.mp hk with rfl | hk
      · exact Dict.mem_keys_of_get hreq
      · exact hk
    obtain ⟨t, hmem, hrest⟩ := ht.accounted k hk'
    exact ⟨t, List.mem_append_left _ hmem, hrest⟩
  · intro t hmem given hgiven hsucc
    rcases List.mem_append.mp hmem with hmem | hmem
    · obtain ⟨request', result', hreq', hresult', hphase⟩ := ht.opened t hmem given hgiven hsucc
      -- the gate that is resolved moves on; every other one is as it was
      by_cases hk : t.call.gate = c.gate
      · rw [hk] at hreq' hresult' ⊢
        obtain rfl : request = request' := Option.some.inj (hreq.symm.trans hreq')
        obtain rfl : result = result' := Option.some.inj (hresult.symm.trans hresult')
        rw [hpending] at hphase
        exact ⟨_, _, Dict.get_set_same _ _ _, Dict.get_set_same _ _ _,
          (hphase.resolve hc now).1⟩
      · refine ⟨request', result', ?_, ?_, hphase⟩
        · exact (Dict.get_set_other _ hk _).trans hreq'
        · exact (Dict.get_set_other _ hk _).trans hresult'
    · rw [List.mem_singleton] at hmem
      subst hmem
      have hgiven' : c.given = some given := hgiven
      rw [hnotgiven] at hgiven'
      cases hgiven'
  · intro k
    by_cases hk : k = c.gate
    · subst hk
      have hres : Resolves c.gate (Run.entry GateCall.run m c) := ⟨rfl, hisSome, hok⟩
      have hphase : Phase result .pending result := .pending
      -- the count and the status go up together
      have hleft : (res.gate now comment request).status ≠ .pending := (hphase.resolve hc now).2
      have hset : (resolved res now c.gate comment request result m).store.get c.gate
          = some (res.gate now comment request) := Dict.get_set_same _ _ _
      rw [filter_concat_of hres, ht.counted, times_resolved_some hreq, if_pos hpending,
        times_resolved_some hset, if_neg hleft]
    · rw [filter_concat_of_not (fun hr => hk hr.1.symm), ht.counted]
      exact times_resolved_congr (Dict.get_set_other _ hk _).symm

/-- **The step.** One more call keeps the gates accounted for. -/
theorem Tracked.step (ht : Tracked h m) (hfresh : ∀ u ∈ c.drawn, ∀ t ∈ h, u ∉ t.call.drawn) :
    Tracked (h ++ [Run.entry GateCall.run m c]) (c.run m).2 := by
  rcases run_cases ht.same_keys c with ⟨e, hrun⟩ | ⟨uuid, now, given, role, reason, rfl, hrun⟩ |
    ⟨res, now, comment, request, result, hc, hreq, hresult, hpending, -, hrun⟩
  · have hraised : ¬(Run.entry GateCall.run m c).Succeeded := by
      rintro ⟨a, ha⟩
      have ha' : (c.run m).1 = .ok a := ha
      rw [hrun] at ha'
      cases ha'
    rw [hrun]
    exact ht.raised hraised
  · rw [hrun]
    exact ht.opens (hfresh uuid (by simp [GateCall.drawn])) ⟨_, congrArg Prod.fst hrun⟩
  · rw [hrun]
    exact ht.resolves hc hreq hresult hpending ⟨_, congrArg Prod.fst hrun⟩

end Step

/-- **The run.** When the ids drawn are fresh, the gates are accounted for after any calls. -/
theorem tracked_run {cs : List GateCall} (hfresh : (cs.flatMap GateCall.drawn).Nodup) :
    Tracked (Run.entries GateCall.run init cs) (Run.final GateCall.run init cs) := by
  refine Run.entries_invariant Tracked tracked_init ?_
  intro pre c post hcs ht
  rw [hcs] at hfresh
  exact ht.step (fun u hu => Run.fresh_of_nodup GateCall.drawn hfresh hu)

/-- A gate that is not pending any more is left alone by every later call. -/
theorem resolved_stable {pre post : List GateCall}
    (hfresh : ((pre ++ post).flatMap GateCall.drawn).Nodup) {k : String}
    {request : HumanGateRequest}
    (hreq : (Run.final GateCall.run init pre).store.get k = some request)
    (hdone : request.status ≠ .pending) :
    (Run.final GateCall.run init (pre ++ post)).store.get k = some request
    ∧ (Run.final GateCall.run init (pre ++ post)).results.get k
      = (Run.final GateCall.run init pre).results.get k := by
  induction post using List.reverseRecOn with
  | nil =>
      rw [List.append_nil]
      exact ⟨hreq, rfl⟩
  | append_singleton post c ih =>
      rw [← List.append_assoc] at hfresh ⊢
      have hfresh' : ((pre ++ post).flatMap GateCall.drawn).Nodup := by
        rw [List.flatMap_append] at hfresh
        exact (List.nodup_append.mp hfresh).1
      obtain ⟨ih₁, ih₂⟩ := ih hfresh'
      have ht := tracked_run hfresh'
      rw [Run.final_concat]
      by_cases hk : k = c.gate
      · -- a call about the gate itself raises: it is there, and it is not pending
        rcases run_cases ht.same_keys c with ⟨e, hrun⟩ | ⟨uuid, _, _, _, _, rfl, -⟩ |
          ⟨_, _, _, request', _, -, hreq', -, hpending, -, -⟩
        · rw [hrun]
          exact ⟨ih₁, ih₂⟩
        · exfalso
          have hnew := ht.fresh_gate (u := uuid)
            (Run.fresh_of_nodup GateCall.drawn hfresh (by simp [GateCall.drawn]))
          exact hnew (Dict.mem_keys_of_get (hk ▸ ih₁))
        · exfalso
          rw [← hk, ih₁] at hreq'
          exact hdone (Option.some.inj hreq' ▸ hpending)
      · obtain ⟨h₁, h₂⟩ := other_gates_unchanged ht.same_keys c hk
        exact ⟨h₁.trans ih₁, h₂.trans ih₂⟩

/-- What holds after the calls `cs` on a new manager. -/
structure GateLaws (cs : List GateCall) : Prop where
  /-- The two dictionaries have the same keys, those of the gates that were created. -/
  keys : SameKeys (Run.final GateCall.run init cs) ∧
    ∀ k, k ∈ (Run.final GateCall.run init cs).store.keys ↔
      ∃ t ∈ Run.entries GateCall.run init cs,
        t.call.gate = k ∧ t.call.given.isSome ∧ t.Succeeded
  /-- The status of a gate says what became of the result given to it. -/
  status : ∀ t ∈ Run.entries GateCall.run init cs, ∀ given,
    t.call.given = some given → t.Succeeded →
    ∃ request result, (Run.final GateCall.run init cs).store.get t.call.gate = some request
      ∧ (Run.final GateCall.run init cs).results.get t.call.gate = some result
      ∧ (request.status = .pending ∨ request.status = .approved ∨ request.status = .rejected)
      ∧ (request.status = .pending ↔ result = given)
      ∧ (request.status = .approved ↔
          ChangedTo .confirmed .confirmed given.action given result)
      ∧ (request.status = .rejected ↔ ChangedTo .rejected .rejected none given result)
  /-- A resolved gate never changes again. -/
  stable : ∀ pre post, cs = pre ++ post → ∀ k request,
    (Run.final GateCall.run init pre).store.get k = some request → request.status ≠ .pending →
    (Run.final GateCall.run init cs).store.get k = some request
      ∧ (Run.final GateCall.run init cs).results.get k
        = (Run.final GateCall.run init pre).results.get k
  /-- A gate has at most one successful `approve` or `reject`. -/
  once : ∀ k, ((Run.entries GateCall.run init cs).filter (fun t => Resolves k t)).length ≤ 1
  /-- It found the gate without a required role, or with one the actor has. -/
  role : ∀ t ∈ Run.entries GateCall.run init cs, ∀ k, Resolves k t →
    ∃ request, t.before.store.get k = some request ∧
      (request.required_role = none ∨
        ∃ role, request.required_role = some role ∧ role ∈ t.call.actor_roles.getD [])
  /-- A call that raises leaves both dictionaries as they were. -/
  raised : ∀ t ∈ Run.entries GateCall.run init cs, t.Raised → t.after = t.before
  /-- A call leaves the other gates and results as they were. -/
  frame : ∀ t ∈ Run.entries GateCall.run init cs, ∀ k, k ≠ t.call.gate →
    t.after.store.get k = t.before.store.get k ∧ t.after.results.get k = t.before.results.get k

/-- **The gates of a manager**, for all calls in all orders: the ids drawn for the gates are
fresh, and the decisions given to them are waiting for a human. -/
theorem gate_state_machine (cs : List GateCall) (hfresh : (cs.flatMap GateCall.drawn).Nodup)
    (hpending : ∀ c ∈ cs, ∀ given, c.given = some given → given.status = .pending_human) :
    GateLaws cs := by
  have ht : Tracked (Run.entries GateCall.run init cs) (Run.final GateCall.run init cs) :=
    tracked_run hfresh
  have hkeys : ∀ t ∈ Run.entries GateCall.run init cs, SameKeys t.before := fun t hmem =>
    (Run.invariant_entry sameKeys_init (fun c _ => preserves_sameKeys c) hmem).1
  refine ⟨⟨ht.same_keys, ?_⟩, ?_, ?_, ?_, ?_, ?_, ?_⟩
  · intro k
    refine ⟨ht.accounted k, ?_⟩
    rintro ⟨t, hmem, rfl, hgiven, hok⟩
    obtain ⟨given, hgiven⟩ := Option.isSome_iff_exists.mp hgiven
    obtain ⟨request, -, hreq, -⟩ := ht.opened t hmem given hgiven hok
    exact Dict.mem_keys_of_get hreq
  · intro t hmem given hgiven hok
    obtain ⟨request, result, hreq, hresult, hphase⟩ := ht.opened t hmem given hgiven hok
    have hcall : t.call ∈ cs := Run.call_mem hmem
    exact ⟨request, result, hreq, hresult, hphase.status_cases,
      hphase.status_iff (hpending t.call hcall given hgiven)⟩
  · intro pre post hcs k request hreq hdone
    subst hcs
    exact resolved_stable hfresh hreq hdone
  · intro k
    rw [ht.counted k, times_resolved]
    split
    · exact Nat.zero_le 1
    · split
      · exact Nat.zero_le 1
      · exact Nat.le_refl 1
  -- a successful resolution is the third of `run_cases`, where the role was checked
  · rintro t hmem k ⟨rfl, hres, a, ha⟩
    obtain ⟨pre, c, post, -, rfl⟩ := Run.mem_entries.mp hmem
    have ha' : (c.run (Run.final GateCall.run init pre)).1 = .ok a := ha
    rcases run_cases (hkeys _ hmem) c with ⟨e, hrun⟩ | ⟨_, _, _, _, _, rfl, -⟩ |
      ⟨_, _, _, request, _, -, hreq, -, -, hrole, -⟩
    · rw [Run.entry_before] at hrun
      rw [hrun] at ha'
      cases ha'
    · cases hres
    · exact ⟨request, hreq, role_allows_iff.mp hrole⟩
  · intro t hmem hraised
    obtain ⟨pre, c, post, -, rfl⟩ := Run.mem_entries.mp hmem
    exact raised_unchanged (hkeys _ hmem) c hraised
  · intro t hmem k hk
    obtain ⟨pre, c, post, -, rfl⟩ := Run.mem_entries.mp hmem
    exact other_gates_unchanged (hkeys _ hmem) c hk

/-- A decision a boundary escalated. -/
def escalated : DecisionResult :=
  { id := UUID.repeated 1
    trace_id := UUID.repeated 2
    flow_id := UUID.repeated 3
    flow_version := "1.0.0"
    selected_node_id := "amount_limit"
    source_signal_id := UUID.repeated 4
    state := .confirmed
    status := .pending_human
    outcome := .pass
    confidence := Confidence.certain
    evaluated_at := ⟨0, some 0⟩
    created_at := ⟨0, some 0⟩
    updated_at := ⟨0, some 0⟩ }

/-- Two gates on it; the first is approved, rejected in vain, and the second lacks the role. -/
def two_gates : List GateCall :=
  [.create_request (UUID.repeated 5) ⟨1, some 0⟩ escalated none none,
    .create_request (UUID.repeated 6) ⟨2, some 0⟩ escalated (some "risk") none,
    .approve ⟨3, some 0⟩ (UUID.repeated 5).str "ann" none none,
    .reject ⟨4, some 0⟩ (UUID.repeated 5).str "ben" none (some ["risk"]),
    .approve ⟨5, some 0⟩ (UUID.repeated 6).str "ben" none (some ["ops"])]

theorem gate_state_machine_two_gates : GateLaws two_gates := by
  refine gate_state_machine two_gates (by decide) ?_
  intro c hc given hgiven
  simp only [two_gates, List.mem_cons, List.not_mem_nil, or_false] at hc
  rcases hc with rfl | rfl | rfl | rfl | rfl
  · exact Option.some.inj hgiven ▸ rfl
  · exact Option.some.inj hgiven ▸ rfl
  · cases hgiven
  · cases hgiven
  · cases hgiven

end DecisionRuntime.HumanGateManager
