/-
Idempotent responses: `POST /evaluate` as a component that remembers its answers.

Two things are shown of a run of requests. A request whose key has been answered
gets that answer again and changes nothing, whatever the ledger does and whichever
call fails (`replays_run`). And when nothing outside fails, the run is one of the
abstract component of `Memo`, with what a request is answered on its own as `solo`
(`refines_run`): the requests of one key are answered as if those of the other keys
had not been made.

The engine writes the same store under the same key, in strict mode and earlier.
That the two writes agree on which keys are remembered is part of the refinement.
-/
import DecisionRuntime.EngineAnswers
import DecisionRuntime.LedgerCommit
import DecisionRuntime.Memo
import DecisionRuntime.Routes
import Mathlib.Data.List.Flatten

set_option autoImplicit false

namespace DecisionRuntime

namespace Routes

open DecisionRuntimeEngine RuntimeLedgerAdapter

variable {σ : Type} {P : Platform} {settings : Settings} {registry : FlowRegistry}

/-! ## A remembered key -/

section Replay

variable (P : Platform) (C : LedgerBackend σ) (settings : Settings) (registry : FlowRegistry)
  {c : EvaluateCall} {key : String} {result : DecisionResult} {w : World σ}

/-- A request with a remembered key gets the remembered result and changes nothing. -/
theorem run_hit (hkey : c.key = some key) (hget : w.idempotency_store.get key = some result) :
    c.run P C settings registry w = (.ok result, w) := by
  have hhit : c.key.bind w.idempotency_store.get = some result := by
    rw [hkey]
    exact hget
  rw [EvaluateCall.run, evaluate, Exec.run_get_bind, hhit]
  rfl

/-- What is remembered stays. -/
theorem run_keeps (hne : key ≠ "") (hget : w.idempotency_store.get key = some result)
    (c : EvaluateCall) :
    (c.run P C settings registry w).2.idempotency_store.get key = some result := by
  by_cases hkey : c.key = some key
  · rw [run_hit P C settings registry hkey hget]
    exact hget
  have hsignal : c.body.signal.idempotency_key ≠ some key :=
    fun h => hkey (key_eq_some.mpr ⟨h, hne⟩)
  have hrun := route_run P C settings registry c.draws c.body w
  unfold EvaluateCall.run
  generalize (evaluate P C settings registry c.draws c.body w).1 = answer at hrun
  generalize (evaluate P C settings registry c.draws c.body w).2 = w' at hrun ⊢
  rcases hrun with _ | _ | ⟨_, prepared, answer, w₁, run⟩
  case cached => exact hget
  case unprepared => exact hget
  case evaluated signal flow _ =>
    rw [← prepare_key prepared] at hsignal
    have hother := evaluate_store_other P C settings.engine c.draws.env flow w hsignal
    rw [run, hget] at hother
    rcases answer with e | r
    · exact hother
    · dsimp only
      rw [store_result_get, if_neg hkey]
      exact hother

/-- A request that returns has its result remembered under its key. -/
theorem run_returned (hkey : c.key = some key)
    (h : (c.run P C settings registry w).1 = .ok result) :
    (c.run P C settings registry w).2.idempotency_store.get key = some result := by
  have hbody : c.body.key = some key := hkey
  have hrun := route_run P C settings registry c.draws c.body w
  unfold EvaluateCall.run at h ⊢
  rw [h] at hrun
  generalize (evaluate P C settings registry c.draws c.body w).2 = w' at hrun ⊢
  generalize hanswer : (Except.ok result : Except PyError DecisionResult) = answer at hrun
  rcases hrun with ⟨hit⟩ | _ | ⟨_, _, answer, w₁, run⟩
  case cached =>
    rw [hbody] at hit
    obtain rfl := Except.ok.inj hanswer
    exact hit
  case unprepared => exact nomatch hanswer
  case evaluated =>
    rcases answer with e | r
    · exact nomatch hanswer
    · obtain rfl := Except.ok.inj hanswer
      dsimp only
      rw [store_result_get, if_pos hbody]

end Replay

/-- Once a request with a key has returned, every later request with that key returns the same
result and changes nothing. -/
def Replays (history : List (RouteEntry σ)) : Prop :=
  ∀ pre t mid u post, history = pre ++ t :: (mid ++ u :: post) →
    ∀ key, t.call.key = some key → u.call.key = some key →
      ∀ result, t.answer = .ok result → u.answer = .ok result ∧ u.after = u.before

/-- **Replay.** Whatever the ledger does and whichever call fails. -/
theorem replays_run (P : Platform) (C : LedgerBackend σ) (settings : Settings)
    (registry : FlowRegistry) (w : World σ) (calls : List EvaluateCall) :
    Replays (Run.entries (EvaluateCall.run P C settings registry) w calls) := by
  intro pre t mid u post hsplit key ht hu result hanswer
  obtain ⟨as, c, bs, -, -, rfl, hrest⟩ := Run.entries_split hsplit
  obtain ⟨as', c', bs', -, -, rfl, -⟩ := Run.entries_split hrest.symm
  have hne : key ≠ "" := (key_eq_some.mp ht).2
  -- the result is remembered when `t` returns, and still is when `u` is made
  have hstored : (Run.final (EvaluateCall.run P C settings registry)
      (Run.entry (EvaluateCall.run P C settings registry)
        (Run.final (EvaluateCall.run P C settings registry) w as) c).after
      as').idempotency_store.get key = some result := by
    refine Run.invariant (I := fun v : World σ => v.idempotency_store.get key = some result) ?_ ?_
    · exact run_returned P C settings registry ht hanswer
    · exact fun d _ v hv => run_keeps P C settings registry hne hv d
  have hhit := run_hit P C settings registry hu hstored
  exact ⟨congrArg Prod.fst hhit, congrArg Prod.snd hhit⟩

/-! ## The abstract component -/

section Refinement

variable (L : DeduplicatingLedger σ) (P : Platform) (settings : Settings)
  (registry : FlowRegistry) (s : σ)

/-- What a request is answered when it is the only one. -/
def solo (c : EvaluateCall) : Except PyError DecisionResult :=
  (c.run P L.toLedgerBackend settings registry (World.init s)).1

/-- The names that the ledger ids of a request are hashes of. -/
def names (c : EvaluateCall) : List String :=
  match prepare P registry c.draws c.body with
  | .ok (signal, flow) => commit_names P settings.engine c.draws.env signal flow
  | .error _ => []

/-- The hash of a name. -/
def hash (name : String) : UUID := P.uuid5 (LEDGER_NS P) name

/-- One request of the abstract component. -/
def memo (c : EvaluateCall) : Exec PyError (String → Option DecisionResult) DecisionResult :=
  Memo.handle EvaluateCall.key (solo L P settings registry s) c

/-- What the abstract component remembers after these requests. -/
def memory (calls : List EvaluateCall) : String → Option DecisionResult :=
  Run.final (memo L P settings registry s) (fun _ => none) calls

/-- The route has answered as the abstract component, and remembers what it remembers. What the
ledger records are the names of the requests. -/
structure Refines (history : List (RouteEntry σ)) (w : World σ) : Prop where
  answers : history.map Entry.answer = Memo.answers EvaluateCall.key
    (solo L P settings registry s) (fun _ => none) (history.map Entry.call)
  store : ∀ key, key ≠ "" → w.idempotency_store.get key
    = memory L P settings registry s (history.map Entry.call) key
  recorded : settings.engine.strict → ∀ u, L.recorded w.ledger u → L.recorded s u ∨
    ∃ t ∈ history, ∃ name ∈ names P settings registry t.call, u = hash P name

/-- On its own, a request is answered by the engine, if it gets there. -/
theorem solo_eq (c : EvaluateCall) :
    solo L P settings registry s c = match prepare P registry c.draws c.body with
      | .error e => .error e
      | .ok (signal, flow) =>
        (DecisionRuntimeEngine.evaluate P L.toLedgerBackend settings.engine c.draws.env signal
          flow (World.init s)).1.mapError http_error := by
  have hrun := route_run P L.toLedgerBackend settings registry c.draws c.body (World.init s)
  unfold solo EvaluateCall.run
  generalize (evaluate P L.toLedgerBackend settings registry c.draws c.body
    (World.init s)).1 = answer at hrun ⊢
  generalize (evaluate P L.toLedgerBackend settings registry c.draws c.body
    (World.init s)).2 = w' at hrun
  rcases hrun with ⟨hit⟩ | ⟨_, prepared⟩ | ⟨_, prepared, answer, w₁, run⟩
  case cached =>
    rcases hkey : c.body.key with _ | key
    · rw [hkey] at hit
      exact nomatch hit
    · rw [hkey] at hit
      exact nomatch hit
  case unprepared => rw [prepared]
  case evaluated =>
    rw [prepared]
    dsimp only
    rw [run]

variable {L P settings registry s}

section Step

variable {c : EvaluateCall} {w : World σ} {calls : List EvaluateCall}

/-- The two components look the key up in the same memory. -/
theorem lookup_eq (hstore : ∀ key, key ≠ "" → w.idempotency_store.get key
      = memory L P settings registry s calls key) :
    c.key.bind w.idempotency_store.get
      = c.key.bind (memory L P settings registry s calls) := by
  rcases hkey : c.key with _ | key
  · rfl
  · exact hstore key (key_eq_some.mp hkey).2

/-- **One request**, on a store that remembers what the abstract component does. -/
theorem step_refines (hclean : c.draws.env.Clean)
    (hstore : ∀ key, key ≠ "" → w.idempotency_store.get key
      = memory L P settings registry s calls key)
    (hnew : settings.engine.strict → ∀ name ∈ names P settings registry c,
      ¬ L.recorded w.ledger (hash P name) ∧ ¬ L.recorded s (hash P name)) :
    (c.run P L.toLedgerBackend settings registry w).1
        = (memo L P settings registry s c (memory L P settings registry s calls)).1
      ∧ ∀ key, key ≠ "" →
        (c.run P L.toLedgerBackend settings registry w).2.idempotency_store.get key
          = (memo L P settings registry s c (memory L P settings registry s calls)).2 key := by
  have hlookup := lookup_eq (c := c) hstore
  have hrun := route_run P L.toLedgerBackend settings registry c.draws c.body w
  unfold EvaluateCall.run memo
  generalize (evaluate P L.toLedgerBackend settings registry c.draws c.body w).1 = answer
    at hrun ⊢
  generalize (evaluate P L.toLedgerBackend settings registry c.draws c.body w).2 = w'
    at hrun ⊢
  rcases hrun with ⟨hit⟩ | ⟨miss, prepared⟩ | ⟨miss, prepared, answer, w₁, run⟩
  case cached =>
    -- both have it in their memory
    rw [Memo.handle_hit (hlookup ▸ hit)]
    exact ⟨rfl, hstore⟩
  case unprepared =>
    have hsolo := solo_eq L P settings registry s c
    rw [prepared] at hsolo
    -- the request fails on its own as well, and nothing is remembered
    rw [Memo.handle_error (hlookup ▸ miss) hsolo]
    exact ⟨rfl, hstore⟩
  case evaluated signal flow =>
    have hnames : names P settings registry c
        = commit_names P settings.engine c.draws.env signal flow := by
      rw [names, prepared]
    rw [hnames] at hnew
    -- the answer is the one the request gets on its own
    have hown : settings.engine.strict →
        NewTo L P settings.engine c.draws.env signal flow (World.init s).ledger :=
      fun hs name hn => (hnew hs name hn).2
    have hanswer := evaluate_answer L (fun hs name hn => (hnew hs name hn).1) hown
    have hsolo := solo_eq L P settings registry s c
    rw [prepared] at hsolo
    dsimp only at hsolo
    rw [← hanswer, run] at hsolo
    rcases answer with e | result
    · rw [Memo.handle_error (hlookup ▸ miss) hsolo]
      refine ⟨rfl, ?_⟩
      intro key hne
      dsimp only
      rw [evaluate_store_raised hclean run]
      exact hstore key hne
    · rw [Memo.handle_ok (hlookup ▸ miss) hsolo]
      refine ⟨rfl, ?_⟩
      intro key hne
      dsimp only
      rw [store_result_get]
      by_cases hkey : c.key = some key
      · rw [if_pos hkey, Memo.remember_self hkey]
      · -- the engine has not written under any other key either
        have hsignal : signal.idempotency_key ≠ some key := by
          rw [prepare_key prepared]
          exact fun h => hkey (key_eq_some.mpr ⟨h, hne⟩)
        have hother := evaluate_store_other P L.toLedgerBackend settings.engine c.draws.env flow
          w hsignal
        rw [run] at hother
        rw [if_neg hkey, hother, hstore key hne, Memo.remember_other hkey]

/-- What a request adds to the ledger are hashes of its own names. -/
theorem step_recorded (hs : settings.engine.strict)
    (hnew : ∀ name ∈ names P settings registry c, ¬ L.recorded w.ledger (hash P name)) {u : UUID}
    (h : L.recorded (c.run P L.toLedgerBackend settings registry w).2.ledger u) :
    L.recorded w.ledger u ∨ ∃ name ∈ names P settings registry c, u = hash P name := by
  have hrun := route_run P L.toLedgerBackend settings registry c.draws c.body w
  unfold EvaluateCall.run at h
  generalize (evaluate P L.toLedgerBackend settings registry c.draws c.body w).1 = answer at hrun
  generalize (evaluate P L.toLedgerBackend settings registry c.draws c.body w).2 = w' at hrun h
  rcases hrun with _ | _ | ⟨_, prepared, answer, w₁, run⟩
  case cached => exact Or.inl h
  case unprepared => exact Or.inl h
  case evaluated signal flow _ =>
    have hnames : names P settings registry c
        = commit_names P settings.engine c.draws.env signal flow := by
      rw [names, prepared]
    have hledger : L.recorded w₁.ledger u := by
      rcases answer with e | result
      · exact h
      · dsimp only at h
        rwa [store_result_ledger] at h
    rw [hnames] at hnew ⊢
    apply evaluate_recorded L hs hnew
    rw [run]
    exact hledger

end Step

theorem names_trace {c : EvaluateCall} {name : String} (h : name ∈ names P settings registry c) :
    ∃ key, name = event_name c.draws.env.draws.trace_id key := by
  unfold names at h
  split at h
  · exact commit_names_trace h
  · exact absurd h (by simp)

/-- Requests that hash one name have drawn one trace id. -/
theorem names_trace_eq {c d : EvaluateCall} {name : String}
    (hc : name ∈ names P settings registry c) (hd : name ∈ names P settings registry d) :
    c.draws.env.draws.trace_id = d.draws.env.draws.trace_id := by
  obtain ⟨key, rfl⟩ := names_trace hc
  obtain ⟨key', heq⟩ := names_trace hd
  -- a name tells its trace
  exact (event_name_inj heq).1

theorem trace_id_drawn (c : EvaluateCall) : c.draws.env.draws.trace_id ∈ c.drawn := by
  simp [EvaluateCall.drawn, Env.drawn]

/-- No request hashes a name that an earlier one has hashed: the trace ids differ. -/
theorem names_fresh {pre post : List EvaluateCall} {c : EvaluateCall} {w : World σ}
    (hfresh : ((pre ++ c :: post).flatMap EvaluateCall.drawn).Nodup)
    {t : RouteEntry σ}
    (ht : t ∈ Run.entries (EvaluateCall.run P L.toLedgerBackend settings registry) w pre)
    {name : String} (hname : name ∈ names P settings registry c)
    (hname' : name ∈ names P settings registry t.call) : False := by
  refine Run.fresh_of_nodup EvaluateCall.drawn hfresh (trace_id_drawn c) t ht ?_
  rw [names_trace_eq hname hname']
  exact trace_id_drawn t.call

/-- **The run refines the abstract one.** Nothing outside fails, no id is drawn twice, `uuid5` does
not collide on the names that are hashed, and the ledger starts without any of them. -/
theorem refines_run {calls : List EvaluateCall} (hclean : ∀ c ∈ calls, c.draws.env.Clean)
    (hfresh : (calls.flatMap EvaluateCall.drawn).Nodup)
    (hinj : Set.InjOn (hash P) {n | ∃ c ∈ calls, n ∈ names P settings registry c})
    (hnew : ∀ c ∈ calls, ∀ n ∈ names P settings registry c, ¬ L.recorded s (hash P n)) :
    Refines L P settings registry s
      (Run.entries (EvaluateCall.run P L.toLedgerBackend settings registry) (World.init s) calls)
      (Run.final (EvaluateCall.run P L.toLedgerBackend settings registry) (World.init s)
        calls) := by
  refine Run.entries_invariant (Refines L P settings registry s) ?_ ?_
  · exact ⟨rfl, fun _ _ => rfl, fun _ u hu => Or.inl hu⟩
  intro pre c post hcs h
  have hmem : ∀ t ∈ Run.entries (EvaluateCall.run P L.toLedgerBackend settings registry)
      (World.init s) pre, t.call ∈ calls := by
    intro t ht
    have hcall : t.call ∈ pre := Run.call_mem ht
    rw [hcs]
    exact List.mem_append_left _ hcall
  have hc : c ∈ calls := by
    rw [hcs]
    exact List.mem_append_right _ List.mem_cons_self
  have hunrecorded : settings.engine.strict → ∀ name ∈ names P settings registry c,
      ¬ L.recorded (Run.final (EvaluateCall.run P L.toLedgerBackend settings registry)
        (World.init s) pre).ledger (hash P name) ∧ ¬ L.recorded s (hash P name) := by
    intro hs name hname
    refine ⟨?_, hnew c hc name hname⟩
    intro hrec
    rcases h.recorded hs _ hrec with hinit | ⟨t, ht, name', hname', heq⟩
    · exact hnew c hc name hname hinit
    -- no collision: the two names are one, hashed by an earlier request
    · have hsame : name = name' :=
        hinj ⟨c, hc, hname⟩ ⟨t.call, hmem t ht, hname'⟩ heq
      rw [← hsame] at hname'
      rw [hcs] at hfresh
      exact names_fresh hfresh ht hname hname'
  obtain ⟨hanswer, hstore⟩ := step_refines (hclean c hc) h.store hunrecorded
  refine ⟨?_, ?_, ?_⟩
  · rw [List.map_append, List.map_append, List.map_singleton, List.map_singleton,
      Memo.answers_concat, h.answers]
    exact congrArg (fun a => _ ++ [a]) hanswer
  · rw [List.map_append, List.map_singleton, memory, Run.final_concat]
    exact hstore
  · intro hs u hu
    rcases step_recorded hs (fun name hname => (hunrecorded hs name hname).1) hu with
      hrec | ⟨name, hname, heq⟩
    · rcases h.recorded hs u hrec with hinit | ⟨t, ht, hold⟩
      · exact Or.inl hinit
      · exact Or.inr ⟨t, List.mem_append_left _ ht, hold⟩
    · exact Or.inr ⟨_, List.mem_append_right _ (List.mem_singleton_self _), name, hname, heq⟩

end Refinement

/-! ## Independence of the keys -/

/-- The requests of some keys are answered as if all other requests had not been made. -/
def Independent (P : Platform) (C : LedgerBackend σ) (settings : Settings)
    (registry : FlowRegistry) (s : σ) (calls : List EvaluateCall) : Prop :=
  ∀ keep : EvaluateCall → Bool,
    (∀ c ∈ calls, ∀ c' ∈ calls, ∀ key, c.key = some key → c'.key = some key →
      keep c = keep c') →
    ((Run.entries (EvaluateCall.run P C settings registry) (World.init s) calls).filter
        (fun t => keep t.call)).map Entry.answer
      = (Run.entries (EvaluateCall.run P C settings registry) (World.init s)
          (calls.filter keep)).map Entry.answer

/-- The answers to some of the calls are read off the calls and the answers. -/
theorem filter_map_answer {ι ε τ α : Type} (keep : ι → Bool) (history : List (Entry ι ε τ α)) :
    (history.filter (fun t => keep t.call)).map Entry.answer
      = (((history.map Entry.call).zip (history.map Entry.answer)).filter
          (fun p => keep p.1)).map Prod.snd := by
  induction history with
  | nil => rfl
  | cons t history ih =>
      by_cases hkeep : keep t.call = true
      · simp [hkeep, ih]
      · simp [hkeep, ih]

/-- **Idempotent responses.** A request with a key that has been answered gets the same answer and
changes nothing; and requests with other keys make no difference to it. -/
theorem idempotent_responses (P : Platform) (L : DeduplicatingLedger σ) (settings : Settings)
    (registry : FlowRegistry) (s : σ) (calls : List EvaluateCall)
    (hclean : ∀ c ∈ calls, c.draws.env.Clean)
    (hfresh : (calls.flatMap EvaluateCall.drawn).Nodup)
    (hinj : Set.InjOn (hash P) {n | ∃ c ∈ calls, n ∈ names P settings registry c})
    (hnew : ∀ c ∈ calls, ∀ n ∈ names P settings registry c, ¬ L.recorded s (hash P n)) :
    Replays (Run.entries (EvaluateCall.run P L.toLedgerBackend settings registry) (World.init s)
        calls) ∧
      Independent P L.toLedgerBackend settings registry s calls := by
  refine ⟨replays_run P L.toLedgerBackend settings registry _ calls, ?_⟩
  intro keep hkeep
  have hsub : ∀ {c}, c ∈ calls.filter keep → c ∈ calls := fun h => List.mem_of_mem_filter h
  have hsublist : (calls.filter keep).Sublist calls := List.filter_sublist
  have hfull : (Run.entries (EvaluateCall.run P L.toLedgerBackend settings registry)
      (World.init s) calls).map Entry.answer
      = Memo.answers EvaluateCall.key (solo L P settings registry s) (fun _ => none) calls := by
    have h := (refines_run hclean hfresh hinj hnew).answers
    rwa [Run.map_call_entries] at h
  have hfiltered : (Run.entries (EvaluateCall.run P L.toLedgerBackend settings registry)
      (World.init s) (calls.filter keep)).map Entry.answer
      = Memo.answers EvaluateCall.key (solo L P settings registry s) (fun _ => none)
        (calls.filter keep) := by
    have h := (refines_run (fun c hc => hclean c (hsub hc))
      (hfresh.sublist (hsublist.flatMap EvaluateCall.drawn))
      (hinj.mono (fun n ⟨c, hc, hn⟩ => ⟨c, hsub hc, hn⟩))
      (fun c hc => hnew c (hsub hc))).answers
    rwa [Run.map_call_entries] at h
  -- the abstract run isolates the keys
  have hmemo := Memo.answers_filter EvaluateCall.key (solo L P settings registry s) keep calls
    hkeep (fun _ => none) (fun _ => none) (fun _ _ _ _ _ => rfl)
  rw [hfiltered, ← hmemo, filter_map_answer, filter_map_answer, Run.map_call_entries,
    Run.map_call_entries, hfull]
  rfl

end Routes

namespace Recorded

/-- A service with the ledger enabled. -/
def settings (ledger_mode : String) : Settings where
  ledger_enabled := true
  ledger_mode := ledger_mode
  ledger_schema_version := "1.0"

/-- The registry with the one flow. -/
def registry : FlowRegistry := FlowRegistry.init.cache (flow none)

/-- The request for the recorded signal, under a key. -/
def request (key : String) : EvaluateRequest where
  flow_id := "payment"
  signal :=
    { signal_id := some "bbbbbbbb-bbbb-bbbb-bbbb-bbbbbbbbbbbb"
      name := some "payment"
      type := "payment_request"
      confidence := signal.confidence
      payload := signal.payload
      source := "shop"
      created_at := some ⟨0, some 0⟩
      idempotency_key := some key }

/-- What handling a request draws, the ids of the gate, the execution and the event from `n` on. -/
def request_draws (trace_id decision_id : UUID) (n : ℕ) : RequestDraws where
  signal_id := UUID.ofInt n
  received_at := ⟨9, some 0⟩
  env := { env trace_id decision_id with
    gate_id := UUID.ofInt (n + 1)
    execution_id := UUID.ofInt (n + 2)
    event_id := UUID.ofInt (n + 3) }

/-- A request, one with another key, and the first one again. -/
def requests : List EvaluateCall :=
  [⟨request_draws (UUID.repeated 0xa) (UUID.repeated 0xc) 10, request "first"⟩,
    ⟨request_draws (UUID.repeated 0xd) (UUID.repeated 0xe) 20, request "second"⟩,
    ⟨request_draws (UUID.repeated 4) (UUID.repeated 5) 30, request "first"⟩]

end Recorded

theorem Routes.idempotent_responses_recorded :
    let history := Run.entries (EvaluateCall.run Recorded.platform LedgerClient.backend
      (Recorded.settings "strict") Recorded.registry) (World.init LedgerClient.init)
      Recorded.requests
    history.map (fun t => t.answer.toOption.map DecisionResult.id)
        = [some (UUID.repeated 0xc), some (UUID.repeated 0xe), some (UUID.repeated 0xc)]
      ∧ Routes.Replays history
      ∧ Routes.Independent Recorded.platform LedgerClient.backend (Recorded.settings "strict")
        Recorded.registry LedgerClient.init Recorded.requests := by
  refine ⟨by decide +kernel, ?_⟩
  have hnodup : ((Recorded.requests.flatMap (Routes.names Recorded.platform
      (Recorded.settings "strict") Recorded.registry)).map
        (Routes.hash Recorded.platform)).Nodup := by decide +kernel
  refine Routes.idempotent_responses Recorded.platform LedgerClient.deduplicating
    (Recorded.settings "strict") Recorded.registry LedgerClient.init Recorded.requests ?_
    (by decide +kernel) ?_ ?_
  · intro c hc
    simp only [Recorded.requests, List.mem_cons, List.not_mem_nil, or_false] at hc
    rcases hc with rfl | rfl | rfl
    · exact ⟨rfl, rfl, rfl⟩
    · exact ⟨rfl, rfl, rfl⟩
    · exact ⟨rfl, rfl, rfl⟩
  · exact Run.injOn_of_nodup _ _ hnodup
  · intro c _ n _
    exact LedgerClient.not_recorded_init _

end DecisionRuntime
