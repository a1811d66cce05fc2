/-
Logs that are read page by page, with a cursor.

A server holds a log; a reader asks for what comes after the last entry it has, adds
the page to what it has, and stops at an empty page. Others publish to the log in
between. Nothing here depends on how a cursor finds its place. A server has to do three
things (`Serves`): publishing appends, an assumption about what is still to be published
survives what is published, and a page after the last entry of any prefix is the
beginning of the rest.

Of such a server the reader has, at every moment of every run, a prefix of the log as it
was at the last call (`faithful_run`), and when it stops it has all of it. It stops when
the publishing does (`stopped_of_calls`).
-/
import Mathlib.Data.List.Basic
import Mathlib.Data.List.Forall2
import Mathlib.Data.List.Infix

set_option autoImplicit false

namespace DecisionRuntime

namespace CursorLog

/-- A log server: what publishing does to its state, and what is read after a cursor. -/
structure Server (σ ι R K ε : Type) where
  publish : ι → σ → σ
  get : Option K → σ → Except ε (List R)
  cursor : R → Option K

/-- One move of a run: somebody publishes, or the reader calls. -/
inductive Move (ι : Type)
  | publish (e : ι)
  | call

/-- What is published in a run. -/
def published {ι : Type} : List (Move ι) → List ι
  | [] => []
  | .publish e :: moves => e :: published moves
  | .call :: moves => published moves

theorem published_append {ι : Type} (moves others : List (Move ι)) :
    published (moves ++ others) = published moves ++ published others := by
  induction moves with
  | nil => rfl
  | cons move moves ih =>
      cases move with
      | publish e => exact congrArg (e :: ·) ih
      | call => exact ih

theorem published_calls {ι : Type} (n : ℕ) :
    published (List.replicate n (.call : Move ι)) = [] := by
  induction n with
  | zero => rfl
  | succ n ih => exact ih

/-- The server and its reader: what the reader has received, the server as it was at the reader's
last call, and whether the reader has stopped. -/
structure Session (σ R : Type) where
  server : σ
  received : List R
  last : σ
  stopped : Bool

/-- A reader that has not called yet. -/
def Session.start {σ R : Type} (s : σ) : Session σ R := ⟨s, [], s, false⟩

variable {σ ι R K ε : Type}

/-- The cursor of the last entry received. -/
def since (B : Server σ ι R K ε) (received : List R) : Option K :=
  received.getLast?.bind B.cursor

/-- One move. A reader that has stopped does not call any more, and a call that raises is no
call. -/
def step (B : Server σ ι R K ε) (s : Session σ R) : Move ι → Session σ R
  | .publish e => { s with server := B.publish e s.server }
  | .call =>
    if s.stopped then s
    else
      match B.get (since B s.received) s.server with
      | .ok page =>
        { s with received := s.received ++ page, last := s.server, stopped := page.isEmpty }
      | .error _ => s

/-- A run. -/
def run (B : Server σ ι R K ε) (s : Session σ R) (moves : List (Move ι)) : Session σ R :=
  moves.foldl (step B) s

/-- What a server owes its readers, for a reading `items` of its log. -/
structure Serves (B : Server σ ι R K ε) (items : σ → List R) (Shows : ι → R → Prop)
    (Admissible : σ → List ι → Prop) (limit : ℕ) : Prop where
  /-- Publishing appends one entry. -/
  appends : ∀ {e es s}, Admissible s (e :: es) →
    ∃ r, Shows e r ∧ items (B.publish e s) = items s ++ [r]
  /-- What is still to be published stays admissible. -/
  keeps : ∀ {e es s}, Admissible s (e :: es) → Admissible (B.publish e s) es
  /-- After the last entry of a prefix comes the rest. -/
  page : ∀ {es s seen rest}, Admissible s es → items s = seen ++ rest →
    B.get (since B seen) s = .ok (rest.take limit)

/-- The reader has a prefix of the log as it was at the last call, and all of it when it has
stopped. -/
structure Faithful (items : σ → List R) (s : Session σ R) : Prop where
  received : s.received <+: items s.last
  last : items s.last <+: items s.server
  complete : s.stopped = true → s.received = items s.last

section Runs

variable {B : Server σ ι R K ε} {items : σ → List R} {Shows : ι → R → Prop}
  {Admissible : σ → List ι → Prop} {limit : ℕ} {s : Session σ R}

theorem faithful_start (s : σ) : Faithful items (Session.start s) :=
  ⟨List.nil_prefix, List.prefix_rfl, fun h => absurd h (by simp [Session.start])⟩

theorem faithful_publish (hserves : Serves B items Shows Admissible limit) {e : ι} {es : List ι}
    (hadmissible : Admissible s.server (e :: es)) (h : Faithful items s) :
    Faithful items (step B s (.publish e)) := by
  obtain ⟨r, -, happend⟩ := hserves.appends hadmissible
  refine ⟨h.received, ?_, h.complete⟩
  show items s.last <+: items (B.publish e s.server)
  rw [happend]
  exact h.last.trans (List.prefix_append _ _)

/-- Reading changes nothing. -/
theorem server_call (s : Session σ R) : (step B s .call).server = s.server := by
  rw [step]
  by_cases hstopped : s.stopped = true
  · rw [if_pos hstopped]
  · rw [if_neg hstopped]
    rcases B.get (since B s.received) s.server with e | page
    · rfl
    · rfl

/-- What a call of a reader that has not stopped does. -/
theorem step_call (hserves : Serves B items Shows Admissible limit) {es : List ι}
    (hadmissible : Admissible s.server es) (hstopped : s.stopped = false) {rest : List R}
    (hrest : items s.server = s.received ++ rest) :
    step B s .call = { s with received := s.received ++ rest.take limit
                              last := s.server
                              stopped := (rest.take limit).isEmpty } := by
  rw [step, if_neg (by simp [hstopped]), hserves.page hadmissible hrest]

theorem faithful_call (hserves : Serves B items Shows Admissible limit) (hlimit : 1 ≤ limit)
    {es : List ι} (hadmissible : Admissible s.server es) (h : Faithful items s) :
    Faithful items (step B s .call) := by
  by_cases hstopped : s.stopped = true
  · rw [step, if_pos hstopped]
    exact h
  · obtain ⟨rest, hrest⟩ := h.received.trans h.last
    rw [step_call hserves hadmissible (Bool.not_eq_true _ ▸ hstopped) hrest.symm]
    refine ⟨?_, List.prefix_rfl, ?_⟩
    · show s.received ++ rest.take limit <+: items s.server
      rw [← hrest]
      exact (List.prefix_append_right_inj _).mpr (List.take_prefix limit rest)
    · -- an empty page means that there is no rest
      intro hempty
      have hnil : rest = [] := by
        rcases rest with _ | ⟨r, rest⟩
        · rfl
        · obtain ⟨n, rfl⟩ : ∃ n, limit = n + 1 := ⟨limit - 1, by omega⟩
          cases hempty
      show s.received ++ rest.take limit = items s.server
      rw [← hrest, hnil, List.take_nil]

/-- **A run.** At every moment the reader has a prefix of the log as it was at the last call. -/
theorem faithful_run (hserves : Serves B items Shows Admissible limit) (hlimit : 1 ≤ limit) :
    ∀ (moves : List (Move ι)) {s : Session σ R} {es : List ι},
      Admissible s.server (published moves ++ es) → Faithful items s →
      Faithful items (run B s moves) ∧ Admissible (run B s moves).server es
  | [], _, _, hadmissible, h => ⟨h, hadmissible⟩
  | .publish e :: moves, _, _, hadmissible, h =>
      faithful_run hserves hlimit moves (hserves.keeps hadmissible)
        (faithful_publish hserves hadmissible h)
  | .call :: moves, s, es, hadmissible, h => by
      have hcall : Admissible (step B s .call).server (published moves ++ es) := by
        rw [server_call]
        exact hadmissible
      exact faithful_run hserves hlimit moves hcall (faithful_call hserves hlimit hadmissible h)

theorem run_append (s : Session σ R) (moves others : List (Move ι)) :
    run B s (moves ++ others) = run B (run B s moves) others :=
  List.foldl_append

theorem run_stopped (hstopped : s.stopped = true) (n : ℕ) :
    run B s (List.replicate n .call) = s := by
  induction n with
  | zero => rfl
  | succ n ih =>
      rw [List.replicate_succ, run, List.foldl_cons, step, if_pos hstopped]
      exact ih

/-- **Termination.** When nothing is published any more, a reader that calls once more than there
are entries left has stopped. Each call of a reader that goes on takes an entry at least. -/
theorem stopped_of_calls (hserves : Serves B items Shows Admissible limit) (hlimit : 1 ≤ limit)
    {es : List ι} :
    ∀ (n : ℕ) {s : Session σ R}, Admissible s.server es → Faithful items s →
      (items s.server).length < s.received.length + n →
      (run B s (List.replicate n .call)).stopped = true
  | 0, s, _, h, hn => by
      have hle := (h.received.trans h.last).length_le
      omega
  | n + 1, s, hadmissible, h, hn => by
      by_cases hstopped : s.stopped = true
      · rw [run_stopped hstopped]
        exact hstopped
      obtain ⟨rest, hrest⟩ := h.received.trans h.last
      have hstep := step_call hserves hadmissible (Bool.not_eq_true _ ▸ hstopped) hrest.symm
      have hnext := faithful_call hserves hlimit hadmissible h
      rw [List.replicate_succ, run, List.foldl_cons]
      rw [hstep] at hnext ⊢
      rcases rest with _ | ⟨r, rest⟩
      · -- the page is empty
        rw [List.take_nil]
        exact congrArg Session.stopped (run_stopped rfl n)
      · refine stopped_of_calls hserves hlimit n hadmissible hnext ?_
        show (items s.server).length < (s.received ++ (r :: rest).take limit).length + n
        have htake : 1 ≤ ((r :: rest).take limit).length := by
          rw [List.length_take, List.length_cons]
          omega
        rw [List.length_append]
        omega

/-- The log after a run holds one entry for everything published, in order. -/
theorem items_run (hserves : Serves B items Shows Admissible limit) :
    ∀ (moves : List (Move ι)) {s : Session σ R} {es : List ι},
      Admissible s.server (published moves ++ es) → ∃ rs,
        items (run B s moves).server = items s.server ++ rs
          ∧ List.Forall₂ Shows (published moves) rs
  | [], s, _, _ => ⟨[], (List.append_nil _).symm, .nil⟩
  | .publish e :: moves, s, es, hadmissible => by
      obtain ⟨r, hshows, happend⟩ := hserves.appends hadmissible
      obtain ⟨rs, hitems, hall⟩ := items_run hserves moves (s := step B s (.publish e))
        (hserves.keeps hadmissible)
      refine ⟨r :: rs, hitems.trans ?_, .cons hshows hall⟩
      show items (B.publish e s.server) ++ rs = _
      rw [happend, List.append_assoc]
      rfl
  | .call :: moves, s, es, hadmissible => by
      have hcall : Admissible (step B s .call).server (published moves ++ es) := by
        rw [server_call]
        exact hadmissible
      obtain ⟨rs, hitems, hall⟩ := items_run hserves moves hcall
      rw [server_call] at hitems
      exact ⟨rs, hitems, hall⟩

/-- The reader made its last call in the run behind `pre`: that call made it stop. -/
def StoppedAfter (B : Server σ ι R K ε) (s : σ) (moves pre : List (Move ι)) : Prop :=
  (∃ post, moves = pre ++ .call :: post) ∧ (run B (Session.start s) pre).stopped = false
    ∧ (run B (Session.start s) (pre ++ [.call])).stopped = true

/-- A reader that has stopped made its last call at some move, and has the log as it was then. -/
theorem last_call (hserves : Serves B items Shows Admissible limit) (hlimit : 1 ≤ limit) {s : σ}
    {moves : List (Move ι)} {es : List ι} (hadmissible : Admissible s (published moves ++ es))
    (hstop : (run B (Session.start s) moves).stopped = true) :
    ∃ pre, StoppedAfter B s moves pre
      ∧ (run B (Session.start s) moves).received
        = items (run B (Session.start s) pre).server := by
  induction moves using List.reverseRecOn generalizing es with
  | nil => cases hstop
  | append_singleton moves move ih =>
      rw [published_append, List.append_assoc] at hadmissible
      obtain ⟨hfaithful, hadmissible'⟩ :=
        faithful_run hserves hlimit moves hadmissible (faithful_start s)
      have hrun : run B (Session.start s) (moves ++ [move])
          = step B (run B (Session.start s) moves) move := run_append _ moves [move]
      rw [hrun] at hstop ⊢
      by_cases hstopped : (run B (Session.start s) moves).stopped = true
      · -- the last call is further back, and nothing was received since
        obtain ⟨pre, ⟨⟨post, hmoves⟩, hcalls⟩, hreceived⟩ := ih hadmissible hstopped
        refine ⟨pre, ⟨⟨post ++ [move], by simp [hmoves]⟩, hcalls⟩, ?_⟩
        rw [← hreceived]
        cases move with
        | publish e => rfl
        | call => rw [step, if_pos hstopped]
      · cases move with
        | publish e => exact absurd hstop hstopped
        | call =>
            refine ⟨moves, ⟨⟨[], rfl⟩, Bool.not_eq_true _ ▸ hstopped, hrun ▸ hstop⟩, ?_⟩
            have hcall := faithful_call hserves hlimit hadmissible' hfaithful
            obtain ⟨rest, hrest⟩ := hfaithful.received.trans hfaithful.last
            have hstep := step_call hserves hadmissible' (Bool.not_eq_true _ ▸ hstopped)
              hrest.symm
            rw [hcall.complete hstop, hstep]

/-- **Nothing is lost and nothing repeated.** Once publishing has stopped, a reader that goes on
calling stops, and what it has received is what was published before its last call, each entry
once and in order. -/
theorem read_all (hserves : Serves B items Shows Admissible limit) (hlimit : 1 ≤ limit) {s : σ}
    (hempty : items s = []) {moves : List (Move ι)} (hadmissible : Admissible s (published moves))
    {n : ℕ} (hn : (published moves).length < n) :
    ∃ pre, StoppedAfter B s (moves ++ List.replicate n .call) pre
      ∧ List.Forall₂ Shows (published pre)
          (run B (Session.start s) (moves ++ List.replicate n .call)).received := by
  have hmoves : Admissible s (published moves ++ []) := by rwa [List.append_nil]
  have hall : Admissible s (published (moves ++ List.replicate n .call) ++ []) := by
    rwa [published_append, published_calls, List.append_nil]
  obtain ⟨hfaithful, hafter⟩ := faithful_run hserves hlimit moves hmoves (faithful_start s)
  have hstop : (run B (Session.start s) (moves ++ List.replicate n .call)).stopped = true := by
    rw [run_append]
    apply stopped_of_calls hserves hlimit n hafter hfaithful
    obtain ⟨rs, hitems, hshows⟩ := items_run hserves moves (s := Session.start s) hmoves
    have hserver : items (Session.start s : Session σ R).server = [] := hempty
    rw [hitems, hserver, List.nil_append, ← hshows.length_eq]
    omega
  obtain ⟨pre, hpre, hreceived⟩ := last_call hserves hlimit hall hstop
  refine ⟨pre, hpre, ?_⟩
  obtain ⟨post, hsplit⟩ := hpre.1
  have hbefore : Admissible s (published pre ++ published (.call :: post)) := by
    rw [← published_append, ← hsplit]
    rwa [List.append_nil] at hall
  obtain ⟨rs, hitems, hshows⟩ := items_run hserves pre (s := Session.start s) hbefore
  have hserver : items (Session.start s : Session σ R).server = [] := hempty
  rw [hreceived, hitems, hserver]
  exact hshows

end Runs

end CursorLog

end DecisionRuntime
