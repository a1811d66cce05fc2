/-
Concurrent transactions at READ COMMITTED, over one table with a uniqueness
constraint.

A transaction is the sequence of statements its client issues, each depending on
what the ones before it returned (`Txn`). A system runs one transaction for each
index, and the statements of different transactions interleave in any order:

* a `select` sees the rows committed when it runs, and the rows of its own
  transaction;
* an `insert` that conflicts with a row it can see is a violation, one that
  conflicts with a row of another open transaction waits for that transaction,
  and any other one is done;
* any statement may raise, and a client that raises has rolled back.

A committed row remembers the transaction that wrote it, so "this transaction
changed nothing" is a statement about the table.
-/
import Mathlib.Data.List.Basic
import Mathlib.Logic.Function.Basic
import Mathlib.Logic.Relation

set_option autoImplicit false

namespace DecisionRuntime

namespace ReadCommitted

/-- The statements of one transaction. It ends with a `COMMIT` and a result, or with a
`ROLLBACK` and a result or an exception. -/
inductive Txn (ε ρ α : Type)
  | select (next : List ρ → Txn ε ρ α)
  | insert (row : ρ) (next : Txn ε ρ α)
  | commit (result : α)
  | rollback (answer : Except ε α)

/-- Where a transaction is: not begun, open with the rows it has inserted and the statements
that are left, or closed. -/
inductive Session (ε ρ α : Type)
  | waiting
  | running (pending : List ρ) (rest : Txn ε ρ α)
  | closed (answer : Except ε α)

/-- The rows of an open transaction. -/
def Session.pending {ε ρ α : Type} : Session ε ρ α → List ρ
  | .running pending _ => pending
  | .waiting | .closed _ => []

/-- The transactions, and the constraint of the table. -/
structure System (ι ε ρ α : Type) where
  program : ι → Txn ε ρ α
  conflict : ρ → ρ → Prop
  conflict_symm : ∀ a b, conflict a b → conflict b a
  violation : ε

/-- The table and the transactions. -/
structure Db (ι ε ρ α : Type) where
  committed : List (ι × ρ)
  sessions : ι → Session ε ρ α

variable {ι ε ρ α : Type} [DecidableEq ι]

namespace Db

/-- An empty table, and nothing begun. -/
def init : Db ι ε ρ α := ⟨[], fun _ => .waiting⟩

/-- The committed rows. -/
def rows (db : Db ι ε ρ α) : List ρ := db.committed.map Prod.snd

/-- The committed rows that transaction `i` wrote. -/
def written (db : Db ι ε ρ α) (i : ι) : List ρ :=
  (db.committed.filter (fun w => w.1 = i)).map Prod.snd

/-- The state of transaction `i` becomes `s`. -/
def move (db : Db ι ε ρ α) (i : ι) (s : Session ε ρ α) : Db ι ε ρ α :=
  { db with sessions := Function.update db.sessions i s }

/-- The rows of transaction `i` become visible, and it ends. -/
def publish (db : Db ι ε ρ α) (i : ι) (pending : List ρ) (result : α) : Db ι ε ρ α :=
  { committed := db.committed ++ pending.map (fun r => (i, r))
    sessions := Function.update db.sessions i (.closed (.ok result)) }

variable (db : Db ι ε ρ α) (i : ι)

@[simp] theorem rows_move (s : Session ε ρ α) : (db.move i s).rows = db.rows := rfl

@[simp] theorem sessions_move_same (s : Session ε ρ α) : (db.move i s).sessions i = s := by
  simp only [move, Function.update_self]

theorem sessions_move_other (s : Session ε ρ α) {j : ι} (h : j ≠ i) :
    (db.move i s).sessions j = db.sessions j := by
  simp only [move, Function.update_of_ne h]

@[simp] theorem sessions_publish_same (pending : List ρ) (result : α) :
    (db.publish i pending result).sessions i = .closed (.ok result) := by
  simp only [publish, Function.update_self]

theorem sessions_publish_other (pending : List ρ) (result : α) {j : ι} (h : j ≠ i) :
    (db.publish i pending result).sessions j = db.sessions j := by
  simp only [publish, Function.update_of_ne h]

omit [DecidableEq ι] in
theorem rows_append (pending : List ρ) :
    (db.committed ++ pending.map (fun r => (i, r))).map Prod.snd = db.rows ++ pending := by
  rw [List.map_append, List.map_map]
  exact congrArg (db.rows ++ ·) (List.map_id pending)

@[simp] theorem rows_publish (pending : List ρ) (result : α) :
    (db.publish i pending result).rows = db.rows ++ pending :=
  rows_append db i pending

theorem written_publish_same (pending : List ρ) (result : α) :
    (db.publish i pending result).written i = db.written i ++ pending := by
  rw [written, publish, List.filter_append, List.map_append]
  have hall : (pending.map (fun r => (i, r))).filter (fun w => w.1 = i)
      = pending.map (fun r => (i, r)) := by
    rw [List.filter_eq_self]
    intro w hw
    obtain ⟨r, -, rfl⟩ := List.mem_map.mp hw
    simp
  rw [hall, List.map_map]
  exact congrArg (db.written i ++ ·) (List.map_id pending)

theorem written_publish_other (pending : List ρ) (result : α) {j : ι} (h : j ≠ i) :
    (db.publish i pending result).written j = db.written j := by
  rw [written, publish, List.filter_append, List.map_append]
  have hnone : (pending.map (fun r => (i, r))).filter (fun w => w.1 = j) = [] := by
    rw [List.filter_eq_nil_iff]
    intro w hw
    obtain ⟨r, -, rfl⟩ := List.mem_map.mp hw
    simpa using Ne.symm h
  rw [hnone, List.map_nil, List.append_nil]
  rfl

end Db

/-! ## Steps -/

/-- One statement of transaction `i`. -/
inductive Step (S : System ι ε ρ α) (i : ι) (db : Db ι ε ρ α) : Db ι ε ρ α → Prop
  | begin (h : db.sessions i = .waiting) : Step S i db (db.move i (.running [] (S.program i)))
  | select {pending : List ρ} {next : List ρ → Txn ε ρ α}
      (h : db.sessions i = .running pending (.select next)) :
      Step S i db (db.move i (.running pending (next (db.rows ++ pending))))
  | insert {pending : List ρ} {row : ρ} {next : Txn ε ρ α}
      (h : db.sessions i = .running pending (.insert row next))
      (seen : ∀ r ∈ db.rows ++ pending, ¬ S.conflict row r)
      (others : ∀ j, j ≠ i → ∀ r ∈ (db.sessions j).pending, ¬ S.conflict row r) :
      Step S i db (db.move i (.running (pending ++ [row]) next))
  | violate {pending : List ρ} {row : ρ} {next : Txn ε ρ α}
      (h : db.sessions i = .running pending (.insert row next))
      (seen : ∃ r ∈ db.rows ++ pending, S.conflict row r) :
      Step S i db (db.move i (.closed (.error S.violation)))
  | commit {pending : List ρ} {result : α}
      (h : db.sessions i = .running pending (.commit result)) :
      Step S i db (db.publish i pending result)
  | rollback {pending : List ρ} {answer : Except ε α}
      (h : db.sessions i = .running pending (.rollback answer)) :
      Step S i db (db.move i (.closed answer))
  | fail {pending : List ρ} {rest : Txn ε ρ α} (e : ε)
      (h : db.sessions i = .running pending rest) :
      Step S i db (db.move i (.closed (.error e)))

/-- The states that some interleaving reaches. -/
inductive Reachable (S : System ι ε ρ α) : Db ι ε ρ α → Prop
  | init : Reachable S Db.init
  | step {db db' : Db ι ε ρ α} {i : ι} (h : Reachable S db) (hs : Step S i db db') :
      Reachable S db'

variable {S : System ι ε ρ α} {db db' : Db ι ε ρ α} {i : ι}

/-- **What a step does to the table.** It leaves it alone, or it is the commit of a transaction
that ends with a result. -/
theorem Step.table (h : Step S i db db') :
    db'.committed = db.committed ∨
      ∃ pending result, db.sessions i = .running pending (.commit result)
        ∧ db' = db.publish i pending result := by
  rcases h with _ | _ | _ | _ | h | _ | _
  case commit => exact Or.inr ⟨_, _, h, rfl⟩
  all_goals exact Or.inl rfl

/-- The other transactions stay where they are. -/
theorem Step.other (h : Step S i db db') {j : ι} (hj : j ≠ i) : db'.sessions j = db.sessions j := by
  rcases h with _ | _ | _ | _ | _ | _ | _
  case commit => exact Db.sessions_publish_other db i _ _ hj
  all_goals exact Db.sessions_move_other db i _ hj

/-- A closed transaction takes no step. -/
theorem Step.not_closed (h : Step S i db db') (answer : Except ε α) :
    db.sessions i ≠ .closed answer := by
  rcases h with h | h | h | h | h | h | ⟨_, h⟩
  all_goals
    rw [h]
    exact fun hcl => by cases hcl

/-! ## The constraint holds, also of the rows that are not committed yet -/

/-- No two rows conflict, committed or pending. -/
structure ConflictFree (S : System ι ε ρ α) (db : Db ι ε ρ α) : Prop where
  rows : db.rows.Pairwise (fun a b => ¬ S.conflict a b)
  pending : ∀ i, (db.rows ++ (db.sessions i).pending).Pairwise (fun a b => ¬ S.conflict a b)
  across : ∀ i j, i ≠ j → ∀ a ∈ (db.sessions i).pending, ∀ b ∈ (db.sessions j).pending,
    ¬ S.conflict a b

omit [DecidableEq ι] in
theorem conflictFree_init : ConflictFree S Db.init where
  rows := List.Pairwise.nil
  pending _ := List.Pairwise.nil
  across _ _ _ _ ha := absurd ha (by simp [Db.init, Session.pending])

/-- A step that only moves a transaction keeps the constraint, when the rows the transaction
now holds conflict with none. -/
theorem conflictFree_move (hc : ConflictFree S db) (s : Session ε ρ α)
    (hown : (db.rows ++ s.pending).Pairwise (fun a b => ¬ S.conflict a b))
    (hothers : ∀ j, j ≠ i → ∀ a ∈ s.pending, ∀ b ∈ (db.sessions j).pending, ¬ S.conflict a b) :
    ConflictFree S (db.move i s) where
  rows := hc.rows
  pending j := by
    rw [Db.rows_move]
    by_cases hj : j = i
    · rw [hj, Db.sessions_move_same]
      exact hown
    · rw [Db.sessions_move_other db i s hj]
      exact hc.pending j
  across j k hjk a ha b hb := by
    by_cases hj : j = i
    · subst hj
      rw [Db.sessions_move_same] at ha
      rw [Db.sessions_move_other db j s (Ne.symm hjk)] at hb
      exact hothers k (Ne.symm hjk) a ha b hb
    · rw [Db.sessions_move_other db i s hj] at ha
      by_cases hk : k = i
      · subst hk
        rw [Db.sessions_move_same] at hb
        exact fun hab => hothers j hj b hb a ha (S.conflict_symm a b hab)
      · rw [Db.sessions_move_other db i s hk] at hb
        exact hc.across j k hjk a ha b hb

/-- A transaction that gives up its rows, or keeps those it had. -/
theorem conflictFree_move_sub (hc : ConflictFree S db) (s : Session ε ρ α)
    (hsub : s.pending = [] ∨ s.pending = (db.sessions i).pending) :
    ConflictFree S (db.move i s) := by
  rcases hsub with h | h
  · refine conflictFree_move hc s ?_ ?_
    · rw [h, List.append_nil]
      exact hc.rows
    · intro j _ a ha
      rw [h] at ha
      exact absurd ha (by simp)
  · refine conflictFree_move hc s ?_ ?_
    · rw [h]
      exact hc.pending i
    · intro j hj a ha b hb
      rw [h] at ha
      exact hc.across i j (Ne.symm hj) a ha b hb

theorem conflictFree_publish (hc : ConflictFree S db) {pending : List ρ} {result : α}
    (h : db.sessions i = .running pending (.commit result)) :
    ConflictFree S (db.publish i pending result) := by
  have hpend : (db.sessions i).pending = pending := by rw [h]; rfl
  have hrows : (db.rows ++ pending).Pairwise (fun a b => ¬ S.conflict a b) := hpend ▸ hc.pending i
  have hclosed : ∀ j, j ≠ i →
      ((db.publish i pending result).sessions j).pending = (db.sessions j).pending := by
    intro j hj
    rw [Db.sessions_publish_other db i pending result hj]
  have hnone : ((db.publish i pending result).sessions i).pending = [] := by
    rw [Db.sessions_publish_same]
    rfl
  constructor
  · rw [Db.rows_publish]
    exact hrows
  · intro j
    rw [Db.rows_publish]
    by_cases hj : j = i
    · rw [hj, hnone, List.append_nil]
      exact hrows
    · -- the rows of `j` conflict neither with the table nor with the rows just published
      rw [hclosed j hj, List.pairwise_append]
      have hpj := hc.pending j
      rw [List.pairwise_append] at hpj
      refine ⟨hrows, hpj.2.1, ?_⟩
      intro a ha b hb
      rw [List.mem_append] at ha
      rcases ha with ha | ha
      · exact hpj.2.2 a ha b hb
      · exact hc.across i j (Ne.symm hj) a (hpend ▸ ha) b hb
  · intro j k hjk a ha b hb
    by_cases hj : j = i
    · rw [hj, hnone] at ha
      exact absurd ha (by simp)
    · by_cases hk : k = i
      · rw [hk, hnone] at hb
        exact absurd hb (by simp)
      · rw [hclosed j hj] at ha
        rw [hclosed k hk] at hb
        exact hc.across j k hjk a ha b hb

/-- **The step lemma.** -/
theorem conflictFree_step (hc : ConflictFree S db) (h : Step S i db db') : ConflictFree S db' := by
  rcases h with h | h | ⟨h, seen, others⟩ | h | h | h | ⟨e, h⟩
  · exact conflictFree_move_sub hc _ (Or.inl rfl)
  · exact conflictFree_move_sub hc _ (Or.inr (by rw [h]; rfl))
  · rename_i pending row next
    have hpi := hc.pending i
    rw [h] at hpi
    refine conflictFree_move hc _ ?_ ?_
    · show (db.rows ++ (pending ++ [row])).Pairwise _
      rw [← List.append_assoc, List.pairwise_append]
      refine ⟨hpi, List.pairwise_singleton _ _, ?_⟩
      intro a ha b hb
      obtain rfl := List.mem_singleton.mp hb
      exact fun hab => seen a ha (S.conflict_symm a b hab)
    · intro j hj a ha b hb
      rcases List.mem_append.mp (show a ∈ pending ++ [row] from ha) with ha | ha
      · refine hc.across i j (Ne.symm hj) a ?_ b hb
        rw [h]
        exact ha
      · obtain rfl := List.mem_singleton.mp ha
        exact others j hj b hb
  · exact conflictFree_move_sub hc _ (Or.inl rfl)
  · exact conflictFree_publish hc h
  · exact conflictFree_move_sub hc _ (Or.inl rfl)
  · exact conflictFree_move_sub hc _ (Or.inl rfl)

theorem reachable_conflictFree (h : Reachable S db) : ConflictFree S db := by
  induction h with
  | init => exact conflictFree_init
  | step _ hs ih => exact conflictFree_step ih hs

/-! ## Who wrote what -/

/-- Only a transaction that committed has written rows. -/
theorem reachable_written (h : Reachable S db) :
    ∀ i, db.written i = [] ∨ ∃ result, db.sessions i = .closed (.ok result) := by
  induction h with
  | init => exact fun _ => Or.inl rfl
  | @step db db' j _ hs ih =>
      intro i
      rcases hs.table with htab | ⟨pending, result, -, rfl⟩
      · have hw : db'.written i = db.written i := by rw [Db.written, htab]; rfl
        rw [hw]
        by_cases hij : i = j
        · subst hij
          rcases ih i with hnil | ⟨result, hcl⟩
          · exact Or.inl hnil
          · exact absurd hcl (hs.not_closed _)
        · rw [hs.other hij]
          exact ih i
      · by_cases hij : i = j
        · subst hij
          exact Or.inr ⟨result, Db.sessions_publish_same db i pending result⟩
        · rw [Db.written_publish_other db j pending result hij,
            Db.sessions_publish_other db j pending result hij]
          exact ih i

/-! ## One transaction at a time -/

section Alone

variable (conflict : ρ → ρ → Prop) [DecidableRel conflict] (violation : ε)

/-- The answer of a transaction that nobody interrupts, and the table it leaves. -/
def Txn.run_alone (rows : List ρ) : Txn ε ρ α → List ρ → Except ε α × List ρ
  | .select next, pending => (next (rows ++ pending)).run_alone rows pending
  | .insert row next, pending =>
    if ∃ r ∈ rows ++ pending, conflict row r then (.error violation, rows)
    else next.run_alone rows (pending ++ [row])
  | .commit result, pending => (.ok result, rows ++ pending)
  | .rollback answer, _ => (answer, rows)

end Alone

/-- Running alone is one of the interleavings: the one in which transaction `i` takes every step,
while no other holds a row. -/
theorem run_alone_steps [DecidableRel S.conflict] {rest : Txn ε ρ α} {pending : List ρ}
    (h : db.sessions i = .running pending rest)
    (hothers : ∀ j, j ≠ i → (db.sessions j).pending = []) :
    ∃ db', Relation.ReflTransGen (Step S i) db db'
      ∧ db'.sessions i = .closed (rest.run_alone S.conflict S.violation db.rows pending).1
      ∧ db'.rows = (rest.run_alone S.conflict S.violation db.rows pending).2 := by
  have hmove : ∀ (db : Db ι ε ρ α) s, (∀ j, j ≠ i → (db.sessions j).pending = []) →
      ∀ j, j ≠ i → ((db.move i s).sessions j).pending = [] := by
    intro db s hnone j hj
    rw [Db.sessions_move_other db i s hj]
    exact hnone j hj
  induction rest generalizing db pending with
  | select next ih =>
      obtain ⟨db', hsteps, hclosed, hrows⟩ := ih (db.rows ++ pending)
        (Db.sessions_move_same db i _) (hmove db _ hothers)
      exact ⟨db', hsteps.head (Step.select h), hclosed, hrows⟩
  | insert row next ih =>
      rw [Txn.run_alone]
      by_cases hseen : ∃ r ∈ db.rows ++ pending, S.conflict row r
      · rw [if_pos hseen]
        exact ⟨_, .single (Step.violate h hseen), Db.sessions_move_same db i _, rfl⟩
      · rw [if_neg hseen]
        -- no other transaction has a row to wait for
        have hstep : Step S i db (db.move i (.running (pending ++ [row]) next)) := by
          apply Step.insert h
          · exact fun r hr hrow => hseen ⟨r, hr, hrow⟩
          · intro j hj r hr
            rw [hothers j hj] at hr
            exact absurd hr List.not_mem_nil
        obtain ⟨db', hsteps, hclosed, hrows⟩ := ih (Db.sessions_move_same db i _)
          (hmove db _ hothers)
        exact ⟨db', hsteps.head hstep, hclosed, hrows⟩
  | commit result =>
      exact ⟨_, .single (Step.commit h), Db.sessions_publish_same db i _ _,
        Db.rows_publish db i _ _⟩
  | rollback answer =>
      exact ⟨_, .single (Step.rollback h), Db.sessions_move_same db i _, rfl⟩

/-! ## Undisturbed runs -/

/-- A statement of transaction `i` that raises only where the constraint or the transaction itself
makes it. -/
structure Statement (S : System ι ε ρ α) (i : ι) (db db' : Db ι ε ρ α) : Prop where
  step : Step S i db db'
  raises : ∀ e, db'.sessions i = .closed (.error e) →
    (∃ pending row next, db.sessions i = .running pending (.insert row next)
      ∧ (∃ r ∈ db.rows ++ pending, S.conflict row r)
      ∧ db' = db.move i (.closed (.error S.violation)))
    ∨ ∃ pending, db.sessions i = .running pending (.rollback (.error e))

namespace Statement

/-! What a statement does, by what the transaction was about to do. -/

variable {pending : List ρ}

theorem of_waiting (hs : Statement S i db db') (h : db.sessions i = .waiting) :
    db' = db.move i (.running [] (S.program i)) := by
  rcases hs.step with _ | h' | h' | h' | h' | h' | ⟨_, h'⟩
  case begin => rfl
  all_goals
    rw [h] at h'
    cases h'

/-- Only an insertion and a rollback raise: the one by the constraint, the other by itself. -/
theorem not_failed (hs : Statement S i db db') {rest : Txn ε ρ α}
    (h : db.sessions i = .running pending rest) (hinsert : ∀ row next, rest ≠ .insert row next)
    (hrollback : ∀ answer, rest ≠ .rollback answer) {e : ε} :
    db' ≠ db.move i (.closed (.error e)) := by
  rintro rfl
  rcases hs.raises e (Db.sessions_move_same db i _) with ⟨_, row, next, hins, -⟩ | ⟨_, hroll⟩
  · rw [h] at hins
    exact hinsert row next (Session.running.inj hins).2
  · rw [h] at hroll
    exact hrollback _ (Session.running.inj hroll).2

theorem of_select {next : List ρ → Txn ε ρ α} (hs : Statement S i db db')
    (h : db.sessions i = .running pending (.select next)) :
    db' = db.move i (.running pending (next (db.rows ++ pending))) := by
  rcases hs.step with h' | h' | h' | h' | h' | h' | ⟨e, h'⟩
  case select =>
    rw [h] at h'
    cases h'
    rfl
  case fail => exact absurd rfl (hs.not_failed h (by simp) (by simp))
  all_goals
    rw [h] at h'
    cases h'

theorem of_insert {row : ρ} {next : Txn ε ρ α} (hs : Statement S i db db')
    (h : db.sessions i = .running pending (.insert row next)) :
    db' = db.move i (.running (pending ++ [row]) next)
      ∨ (∃ r ∈ db.rows ++ pending, S.conflict row r)
        ∧ db' = db.move i (.closed (.error S.violation)) := by
  rcases hs.step with h' | h' | h' | ⟨h', hseen⟩ | h' | h' | ⟨e, h'⟩
  case insert =>
    rw [h] at h'
    cases h'
    exact Or.inl rfl
  case violate =>
    rw [h] at h'
    cases h'
    exact Or.inr ⟨hseen, rfl⟩
  case fail =>
    rcases hs.raises e (Db.sessions_move_same db i _) with ⟨_, _, _, hins, hseen, heq⟩ | ⟨_, hroll⟩
    · rw [h] at hins
      cases hins
      exact Or.inr ⟨hseen, heq⟩
    · rw [h] at hroll
      cases hroll
  all_goals
    rw [h] at h'
    cases h'

theorem of_commit {result : α} (hs : Statement S i db db')
    (h : db.sessions i = .running pending (.commit result)) :
    db' = db.publish i pending result := by
  rcases hs.step with h' | h' | h' | h' | h' | h' | ⟨e, h'⟩
  case commit =>
    rw [h] at h'
    cases h'
    rfl
  case fail => exact absurd rfl (hs.not_failed h (by simp) (by simp))
  all_goals
    rw [h] at h'
    cases h'

theorem of_rollback {answer : Except ε α} (hs : Statement S i db db')
    (h : db.sessions i = .running pending (.rollback answer)) :
    db' = db.move i (.closed answer) := by
  rcases hs.step with h' | h' | h' | h' | h' | h' | ⟨e, h'⟩
  case rollback =>
    rw [h] at h'
    cases h'
    rfl
  case fail =>
    rcases hs.raises e (Db.sessions_move_same db i _) with ⟨_, _, _, hins, -⟩ | ⟨_, hroll⟩
    · rw [h] at hins
      cases hins
    · rw [h] at hroll
      cases hroll
      rfl
  all_goals
    rw [h] at h'
    cases h'

/-- A step that leaves the transaction without an exception is a statement. -/
theorem of_ok (hs : Step S i db db') (h : ∀ e, db'.sessions i ≠ .closed (.error e)) :
    Statement S i db db' :=
  ⟨hs, fun e he => absurd he (h e)⟩

/-- So is the violation of the constraint. -/
theorem of_violation {row : ρ} {next : Txn ε ρ α}
    (h : db.sessions i = .running pending (.insert row next))
    (hseen : ∃ r ∈ db.rows ++ pending, S.conflict row r) :
    Statement S i db (db.move i (.closed (.error S.violation))) :=
  ⟨Step.violate h hseen, fun _ _ => Or.inl ⟨_, _, _, h, hseen, rfl⟩⟩

end Statement

/-- One statement of a run. -/
structure Transition (ι ε ρ α : Type) where
  who : ι
  before : Db ι ε ρ α
  after : Db ι ε ρ α

/-- The runs from `db₀`, with their statements in order. -/
inductive Interleaving (S : System ι ε ρ α) (db₀ : Db ι ε ρ α) :
    List (Transition ι ε ρ α) → Db ι ε ρ α → Prop
  | nil : Interleaving S db₀ [] db₀
  | step {ts : List (Transition ι ε ρ α)} {db db' : Db ι ε ρ α} {i : ι}
      (h : Interleaving S db₀ ts db) (hs : Statement S i db db') :
      Interleaving S db₀ (ts ++ [⟨i, db, db'⟩]) db'

/-! ## What a transaction can insert -/

/-- Every row the transaction can insert has the property. -/
def Txn.Inserts (p : ρ → Prop) : Txn ε ρ α → Prop
  | .select next => ∀ rows, (next rows).Inserts p
  | .insert row next => p row ∧ next.Inserts p
  | .commit _ | .rollback _ => True

/-- The rows of the session have the property, and so do those that are still to come. -/
def Session.Inserts (p : ρ → Prop) : Session ε ρ α → Prop
  | .running pending rest => (∀ r ∈ pending, p r) ∧ rest.Inserts p
  | .waiting | .closed _ => True

/-- A step keeps it. -/
theorem Step.inserts {p : ρ → Prop} (hs : Step S i db db') (hprogram : (S.program i).Inserts p)
    (h : (db.sessions i).Inserts p) : (db'.sessions i).Inserts p := by
  rcases hs with _ | h' | ⟨h', -, -⟩ | _ | _ | _ | ⟨_, _⟩
  case begin =>
    rw [Db.sessions_move_same]
    exact ⟨fun r hr => absurd hr List.not_mem_nil, hprogram⟩
  case select =>
    rw [h'] at h
    rw [Db.sessions_move_same]
    exact ⟨h.1, h.2 _⟩
  case insert =>
    rw [h'] at h
    rw [Db.sessions_move_same]
    refine ⟨?_, h.2.2⟩
    intro r hr
    rcases List.mem_append.mp hr with hr | hr
    · exact h.1 r hr
    · rw [List.mem_singleton.mp hr]
      exact h.2.1
  case commit =>
    rw [Db.sessions_publish_same]
    trivial
  all_goals
    rw [Db.sessions_move_same]
    trivial

end ReadCommitted

end DecisionRuntime
