/-
Linearizability at READ COMMITTED.

An object answers its operations one at a time (`handle`). A system of concurrent
transactions stands for it when the transactions that have answered can be put in
an order in which the object, asked one operation after the other, gives each of
them the same answer and ends in a state that the table stands for (`Linearized`).

For this it is enough to look at single statements (`Linearizes`): a statement that
ends its transaction with an answer is the operation of the object, on whatever
state the table stands for at that moment. All other statements leave the table
alone. The order is that of the last statements, so it only grows: a transaction
that has answered comes before every one that begins later.
-/
import DecisionRuntime.History
import DecisionRuntime.ReadCommitted

set_option autoImplicit false

namespace DecisionRuntime

namespace ReadCommitted

variable {ι ε ρ α σ : Type} [DecidableEq ι]

/-- The transactions that have answered, in an order in which the object answers alike. -/
structure Linearized (handle : ι → Exec ε σ α) (s₀ : σ) (R : σ → List ρ → Prop)
    (db : Db ι ε ρ α) (order : List ι) : Prop where
  once : order.Nodup
  mem_iff : ∀ i, i ∈ order ↔ ∃ a, db.sessions i = .closed (.ok a)
  answers : ∀ t ∈ Run.entries handle s₀ order, db.sessions t.call = .closed t.answer
  table : R (Run.final handle s₀ order) db.rows

/-- A statement that ends its transaction with an answer is the operation of the object. -/
def Linearizes (S : System ι ε ρ α) (handle : ι → Exec ε σ α) (R : σ → List ρ → Prop) : Prop :=
  ∀ db i db' s a, Reachable S db → R s db.rows → Step S i db db' →
    db'.sessions i = .closed (.ok a) → ∃ s', handle i s = (.ok a, s') ∧ R s' db'.rows

/-- One state leads to the other. -/
abbrev Steps (S : System ι ε ρ α) : Db ι ε ρ α → Db ι ε ρ α → Prop :=
  Relation.ReflTransGen fun db db' => ∃ i, Step S i db db'

variable {S : System ι ε ρ α} {handle : ι → Exec ε σ α} {s₀ : σ} {R : σ → List ρ → Prop}
  {db db' : Db ι ε ρ α} {i : ι} {order : List ι}

/-- Only a transaction that ends with an answer changes the table. -/
theorem Step.rows_of_unanswered (hs : Step S i db db')
    (hno : ∀ a, db'.sessions i ≠ .closed (.ok a)) : db'.rows = db.rows := by
  rcases hs.table with htable | ⟨pending, result, -, rfl⟩
  · rw [Db.rows, htable]
    rfl
  · exact absurd (Db.sessions_publish_same db i pending result) (hno result)

/-- What the transactions have answered so far, they go on having answered. -/
theorem Step.keeps_closed (hs : Step S i db db') {j : ι} {answer : Except ε α}
    (h : db.sessions j = .closed answer) : db'.sessions j = .closed answer := by
  have hji : j ≠ i := by
    rintro rfl
    exact hs.not_closed answer h
  rw [hs.other hji, h]

/-- **The step lemma.** The transaction that ends with an answer comes last. -/
theorem Linearized.step (hlin : Linearizes S handle R) (hr : Reachable S db)
    (h : Linearized handle s₀ R db order) (hs : Step S i db db') :
    ∃ more, Linearized handle s₀ R db' (order ++ more) := by
  by_cases hanswer : ∃ a, db'.sessions i = .closed (.ok a)
  · obtain ⟨a, ha⟩ := hanswer
    obtain ⟨s', hop, hR⟩ := hlin db i db' _ a hr h.table hs ha
    have hentry : Run.entry handle (Run.final handle s₀ order) i
        = ⟨Run.final handle s₀ order, i, .ok a, s'⟩ := by
      rw [Run.entry, hop]
    have hnew : i ∉ order := by
      intro hi
      obtain ⟨b, hb⟩ := (h.mem_iff i).mp hi
      exact hs.not_closed _ hb
    refine ⟨[i], ?_, ?_, ?_, ?_⟩
    · rw [List.nodup_append]
      refine ⟨h.once, List.nodup_singleton i, ?_⟩
      intro j hj k hk hjk
      rw [List.mem_singleton.mp hk] at hjk
      exact hnew (hjk ▸ hj)
    · intro j
      rw [List.mem_append, List.mem_singleton]
      by_cases hji : j = i
      · rw [hji]
        exact iff_of_true (Or.inr rfl) ⟨a, ha⟩
      · rw [hs.other hji, or_iff_left hji]
        exact h.mem_iff j
    · intro t ht
      rw [Run.entries_concat, List.mem_append, List.mem_singleton, hentry] at ht
      rcases ht with ht | rfl
      · exact hs.keeps_closed (h.answers t ht)
      · exact ha
    · rw [Run.final_concat, hop]
      exact hR
  · -- nobody has answered, and the table is what it was
    have hno : ∀ a, db'.sessions i ≠ .closed (.ok a) := fun a ha => hanswer ⟨a, ha⟩
    refine ⟨[], ?_⟩
    rw [List.append_nil]
    refine ⟨h.once, ?_, ?_, ?_⟩
    · intro j
      rw [h.mem_iff j]
      by_cases hji : j = i
      · rw [hji]
        apply iff_of_false
        · rintro ⟨a, ha⟩
          exact hs.not_closed _ ha
        · exact hanswer
      · rw [hs.other hji]
    · exact fun t ht => hs.keeps_closed (h.answers t ht)
    · rw [hs.rows_of_unanswered hno]
      exact h.table

omit [DecidableEq ι] in
theorem linearized_init (hinit : R s₀ []) :
    Linearized handle s₀ R (Db.init : Db ι ε ρ α) [] where
  once := List.nodup_nil
  mem_iff i := by simp [Db.init]
  answers t ht := absurd ht List.not_mem_nil
  table := hinit

/-- **The run lemma.** -/
theorem linearized_reachable (hlin : Linearizes S handle R) (hinit : R s₀ [])
    (h : Reachable S db) : ∃ order, Linearized handle s₀ R db order := by
  induction h with
  | init => exact ⟨[], linearized_init hinit⟩
  | step hr hs ih =>
      obtain ⟨order, h⟩ := ih
      obtain ⟨more, hmore⟩ := h.step hlin hr hs
      exact ⟨order ++ more, hmore⟩

theorem Reachable.steps (h : Reachable S db) (hsteps : Steps S db db') : Reachable S db' := by
  induction hsteps with
  | refl => exact h
  | tail _ hs ih => exact ih.step hs.choose_spec

/-- The order only grows. -/
theorem Linearized.grows (hlin : Linearizes S handle R) (hr : Reachable S db)
    (h : Linearized handle s₀ R db order) (hsteps : Steps S db db') :
    ∃ more, Linearized handle s₀ R db' (order ++ more) := by
  induction hsteps with
  | refl => exact ⟨[], by rwa [List.append_nil]⟩
  | tail hbefore hs ih =>
      obtain ⟨i, hs⟩ := hs
      obtain ⟨more, hmore⟩ := ih
      obtain ⟨last, hlast⟩ := hmore.step hlin (hr.steps hbefore) hs
      exact ⟨more ++ last, by rwa [← List.append_assoc]⟩

end ReadCommitted

end DecisionRuntime
