/-
`backend/app/runtime/human_gate_manager.py`: the in-memory gates and the results
they hold back.

The manager is two dictionaries written by separate statements, and `approve` and
`reject` look the result up after they have written the gate. That the second
look-up never fails, so that a call that raises has changed nothing, depends on
the two dictionaries having the same keys; it is proved in `HumanGateLifecycle`.

`approve` and `reject` differ in what they write and in nothing else: both are
`resolve` with their own `Resolution`.
-/
import DecisionRuntime.Dict
import DecisionRuntime.Exec
import DecisionRuntime.Models

set_option autoImplicit false

namespace DecisionRuntime

/-- The two dictionaries of a `HumanGateManager`. -/
structure HumanGateManager where
  store : Dict String HumanGateRequest
  results : Dict String DecisionResult

namespace HumanGateManager

/-- A manager that has seen no call. -/
def init : HumanGateManager := ⟨Dict.empty, Dict.empty⟩

/-! ## Creating a gate -/

/-- `_APPROVE_OPTION`. -/
def APPROVE_OPTION : HumanGateOption :=
  { value := "approve"
    label := "Approve"
    description := some "Confirm the escalated decision and allow it to proceed"
    is_default := true }

/-- `_REJECT_OPTION`. -/
def REJECT_OPTION : HumanGateOption :=
  { value := "reject"
    label := "Reject"
    description := some "Deny the escalated decision and mark it as rejected"
    is_default := false }

/-- `reason or "..."`. -/
def title_of (reason : Option String) : String :=
  if nonempty reason then reason.getD "" else "Human review required for escalated decision"

/-- The gate `create_request` builds, with the id and the time it draws. -/
def gate_request (uuid : UUID) (now : Datetime) (result : DecisionResult)
    (required_role reason : Option String) : HumanGateRequest :=
  { id := uuid
    flow_id := result.flow_id
    decision_id := some result.id
    trace_id := some result.trace_id
    node_id := result.selected_node_id
    required_role := required_role
    title := title_of reason
    question := "Review the escalated decision and choose to approve or reject it"
    options := [APPROVE_OPTION, REJECT_OPTION]
    created_at := now }

/-- `create_request`. A title of more than 512 characters does not validate. -/
def create_request (uuid : UUID) (now : Datetime) (result : DecisionResult)
    (required_role reason : Option String) : Exec PyError HumanGateManager HumanGateRequest :=
  if 512 < (title_of reason).length then Exec.raise (.validationError "HumanGateRequest")
  else do
    let request := gate_request uuid now result required_role reason
    -- two assignments, as in the source: the gate first, then the result
    Exec.modify (fun m => { m with store := m.store.set uuid.str request })
    Exec.modify (fun m => { m with results := m.results.set uuid.str result })
    return request

/-! ## Resolving a gate -/

/-- `_get_request`. -/
def get_request (request_id : String) : Exec PyError HumanGateManager HumanGateRequest := do
  let m ← Exec.get
  match m.store.get request_id with
  | some request => return request
  | none =>
    Exec.raise (.humanGateNotFoundError ("HumanGateRequest '" ++ request_id ++ "' not found"))

/-- `_require_pending`. -/
def require_pending (request : HumanGateRequest) : Exec PyError HumanGateManager Unit :=
  if request.status ≠ .pending then
    Exec.raise (.humanGateInvalidStateError ("HumanGateRequest '" ++ request.id.str
      ++ "' is in state '" ++ request.status.value ++ "'; only PENDING requests can be resolved"))
  else return ()

/-- `required_role in (actor_roles or [])`, where a gate without a role lets everyone pass. -/
def role_allows (required_role : Option String) (actor_roles : Option (List String)) : Bool :=
  match required_role with
  | none => true
  | some role => role ∈ actor_roles.getD []

/-- `_require_role`. -/
def require_role (request : HumanGateRequest) (actor_roles : Option (List String)) :
    Exec PyError HumanGateManager Unit :=
  if role_allows request.required_role actor_roles then return ()
  else Exec.raise (.humanGateInsufficientRoleError ("Role '" ++ request.required_role.getD ""
    ++ "' required to resolve gate '" ++ request.id.str ++ "'"))

/-- What resolving a gate writes: the status and the response value of the gate, and the update
of the result. -/
structure Resolution where
  status : HumanGateStatus
  response_value : String
  update : Datetime → DecisionResult → DecisionResult

/-- The resolved gate. -/
def Resolution.gate (res : Resolution) (now : Datetime) (comment : Option String)
    (request : HumanGateRequest) : HumanGateRequest :=
  { request with
    status := res.status
    response_value := some res.response_value
    response_note := comment
    responded_at := some now }

/-- The body `approve` and `reject` share: three guards, then the gate, then the result. -/
def resolve (res : Resolution) (now : Datetime) (request_id : String) (comment : Option String)
    (actor_roles : Option (List String)) : Exec PyError HumanGateManager DecisionResult := do
  let request ← get_request request_id
  require_pending request
  require_role request actor_roles
  -- from here on the gate is resolved, even if the look-up below were to raise
  Exec.modify (fun m => { m with store := m.store.set request_id (res.gate now comment request) })
  let m ← Exec.get
  match m.results.get request_id with
  | none => Exec.raise (.keyError request_id)
  | some result =>
    let updated := res.update now result
    Exec.modify (fun m => { m with results := m.results.set request_id updated })
    return updated

/-- What `approve` writes: status and state confirmed, the action kept. -/
def approval : Resolution where
  status := .approved
  response_value := "approve"
  update now r := { r with state := .confirmed, status := .confirmed, updated_at := now }

/-- What `reject` writes: status and state rejected, the action cleared. -/
def rejection : Resolution where
  status := .rejected
  response_value := "reject"
  update now r :=
    { r with state := .rejected, status := .rejected, action := none, updated_at := now }

/-- `approve`. -/
def approve (now : Datetime) (request_id : String) (comment : Option String)
    (actor_roles : Option (List String)) : Exec PyError HumanGateManager DecisionResult :=
  resolve approval now request_id comment actor_roles

/-- `reject`. -/
def reject (now : Datetime) (request_id : String) (comment : Option String)
    (actor_roles : Option (List String)) : Exec PyError HumanGateManager DecisionResult :=
  resolve rejection now request_id comment actor_roles

/-! ## One specification for each operation

Every later argument goes through these: `create_request` either raises and changes
nothing or stores the gate and the result under the new id; `resolve` on a manager
whose dictionaries have the same keys either raises and changes nothing or replaces
one gate and one result, both of them present before. -/

/-- The manager after a gate was created. -/
def created (uuid : UUID) (now : Datetime) (result : DecisionResult)
    (required_role reason : Option String) (m : HumanGateManager) : HumanGateManager :=
  ⟨m.store.set uuid.str (gate_request uuid now result required_role reason),
    m.results.set uuid.str result⟩

theorem create_request_run (uuid : UUID) (now : Datetime) (result : DecisionResult)
    (required_role reason : Option String) (m : HumanGateManager) :
    create_request uuid now result required_role reason m =
      if 512 < (title_of reason).length then (.error (.validationError "HumanGateRequest"), m)
      else (.ok (gate_request uuid now result required_role reason),
        created uuid now result required_role reason m) := by
  unfold create_request
  split_ifs with h
  · rfl
  · rfl

/-- Without a reason the title is the default one, and the call succeeds. -/
theorem create_request_default (uuid : UUID) (now : Datetime) (result : DecisionResult)
    (m : HumanGateManager) :
    create_request uuid now result none none m =
      (.ok (gate_request uuid now result none none), created uuid now result none none m) := by
  rw [create_request_run, if_neg (by decide)]

/-- The two dictionaries have the same keys. -/
def SameKeys (m : HumanGateManager) : Prop := ∀ k, k ∈ m.store.keys ↔ k ∈ m.results.keys

/-- The manager after `res` was written for the gate and the result under `request_id`. -/
def resolved (res : Resolution) (now : Datetime) (request_id : String) (comment : Option String)
    (request : HumanGateRequest) (result : DecisionResult) (m : HumanGateManager) :
    HumanGateManager :=
  ⟨m.store.set request_id (res.gate now comment request),
    m.results.set request_id (res.update now result)⟩

/-- A call whose three guards pass, on a gate whose result is there, resolves the gate. -/
theorem resolve_success (res : Resolution) (now : Datetime) {request_id : String}
    (comment : Option String) {actor_roles : Option (List String)} {m : HumanGateManager}
    {request : HumanGateRequest} {result : DecisionResult}
    (hg : m.store.get request_id = some request) (hr : m.results.get request_id = some result)
    (hp : request.status = .pending)
    (ha : role_allows request.required_role actor_roles = true) :
    resolve res now request_id comment actor_roles m
      = (.ok (res.update now result), resolved res now request_id comment request result m) := by
  have hget : get_request request_id m = (.ok request, m) := by
    rw [get_request, Exec.run_get_bind, hg]
    rfl
  have hpend : require_pending request m = (.ok (), m) := by
    rw [require_pending, if_neg (not_not.mpr hp)]
    rfl
  have hrole : require_role request actor_roles m = (.ok (), m) := by
    rw [require_role, if_pos ha]
    rfl
  rw [resolve, Exec.run_bind_ok _ hget, Exec.run_bind_ok _ hpend, Exec.run_bind_ok _ hrole,
    Exec.run_modify_bind, Exec.run_get_bind]
  dsimp only
  rw [hr]
  rfl

/-- A call of `approve` or `reject` either raises and changes nothing, or the gate was pending
and allowed the actor, and one gate and one result are replaced. -/
theorem resolve_run (res : Resolution) (now : Datetime) (request_id : String)
    (comment : Option String) (actor_roles : Option (List String)) {m : HumanGateManager}
    (hkeys : SameKeys m) :
    (∃ e, resolve res now request_id comment actor_roles m = (.error e, m)) ∨
    ∃ request result, m.store.get request_id = some request
      ∧ m.results.get request_id = some result
      ∧ request.status = .pending
      ∧ role_allows request.required_role actor_roles = true
      ∧ resolve res now request_id comment actor_roles m
        = (.ok (res.update now result), resolved res now request_id comment request result m) := by
  rcases hg : m.store.get request_id with _ | request
  -- no such gate
  · left
    have hr : get_request request_id m = (.error (.humanGateNotFoundError
        ("HumanGateRequest '" ++ request_id ++ "' not found")), m) := by
      rw [get_request, Exec.run_get_bind, hg]
      rfl
    exact ⟨_, Exec.run_bind_error _ hr⟩
  have hr : get_request request_id m = (.ok request, m) := by
    rw [get_request, Exec.run_get_bind, hg]
    rfl
  by_cases hp : request.status = .pending
  swap
  -- resolved before
  · left
    obtain ⟨e, hpend⟩ : ∃ e, require_pending request m = (.error e, m) := by
      rw [require_pending, if_pos hp]
      exact ⟨_, rfl⟩
    rw [resolve, Exec.run_bind_ok _ hr]
    exact ⟨e, Exec.run_bind_error _ hpend⟩
  have hpend : require_pending request m = (.ok (), m) := by
    rw [require_pending, if_neg (not_not.mpr hp)]
    rfl
  by_cases ha : role_allows request.required_role actor_roles = true
  swap
  -- the actor lacks the role
  · left
    obtain ⟨e, hrole⟩ : ∃ e, require_role request actor_roles m = (.error e, m) := by
      rw [require_role, if_neg ha]
      exact ⟨_, rfl⟩
    rw [resolve, Exec.run_bind_ok _ hr, Exec.run_bind_ok _ hpend]
    exact ⟨e, Exec.run_bind_error _ hrole⟩
  -- the key is in the store, so the second look-up cannot miss
  obtain ⟨result, hres⟩ :=
    Dict.exists_get_of_mem_keys ((hkeys request_id).mp (Dict.mem_keys_of_get hg))
  right
  exact ⟨request, result, rfl, hres, hp, ha, resolve_success res now comment hg hres hp ha⟩

end HumanGateManager

end DecisionRuntime
