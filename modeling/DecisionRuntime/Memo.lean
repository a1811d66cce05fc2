/-
A component that answers a request by itself and remembers the answer.

A request may carry a key. The first answer that is returned under a key is
remembered, and every later request with that key gets it; a request that raises
leaves nothing behind. `solo` is the answer a request gets when nothing is
remembered for it.

`answers_filter` is the isolation of the keys: what the requests of some keys are
answered does not change when all other requests are taken out of the run.
-/
import DecisionRuntime.History
import Mathlib.Logic.Function.Basic

set_option autoImplicit false

namespace DecisionRuntime

namespace Memo

variable {ι κ ε α : Type} [DecidableEq κ]

/-- What is remembered after `c` was answered with `a`. -/
def remember (key : ι → Option κ) (c : ι) (a : α) (memory : κ → Option α) : κ → Option α :=
  match key c with
  | some k => Function.update memory k (some a)
  | none => memory

theorem remember_self {key : ι → Option κ} {c : ι} {k : κ} (h : key c = some k) (a : α)
    (memory : κ → Option α) : remember key c a memory k = some a := by
  rw [remember, h]
  exact Function.update_self ..

theorem remember_other {key : ι → Option κ} {c : ι} {k : κ} (h : key c ≠ some k) (a : α)
    (memory : κ → Option α) : remember key c a memory k = memory k := by
  unfold remember
  rcases hk : key c with _ | k'
  · rfl
  · apply Function.update_of_ne
    rintro rfl
    exact h hk

/-- One request. -/
def handle (key : ι → Option κ) (solo : ι → Except ε α) (c : ι) : Exec ε (κ → Option α) α :=
  fun memory =>
    match (key c).bind memory with
    | some a => (.ok a, memory)
    | none =>
      match solo c with
      | .ok a => (.ok a, remember key c a memory)
      | .error e => (.error e, memory)

/-- The answers of a run. -/
def answers (key : ι → Option κ) (solo : ι → Except ε α) (memory : κ → Option α) (cs : List ι) :
    List (Except ε α) :=
  (Run.entries (handle key solo) memory cs).map Entry.answer

theorem answers_concat (key : ι → Option κ) (solo : ι → Except ε α) (memory : κ → Option α)
    (cs : List ι) (c : ι) :
    answers key solo memory (cs ++ [c]) = answers key solo memory cs
      ++ [(handle key solo c (Run.final (handle key solo) memory cs)).1] := by
  rw [answers, Run.entries_concat, List.map_append]
  rfl

section Handle

variable {key : ι → Option κ} {solo : ι → Except ε α} {c : ι} {memory : κ → Option α}

theorem handle_hit {a : α} (h : (key c).bind memory = some a) :
    handle key solo c memory = (.ok a, memory) := by
  rw [handle, h]

theorem handle_ok {a : α} (h : (key c).bind memory = none) (hsolo : solo c = .ok a) :
    handle key solo c memory = (.ok a, remember key c a memory) := by
  rw [handle, h, hsolo]

theorem handle_error {e : ε} (h : (key c).bind memory = none) (hsolo : solo c = .error e) :
    handle key solo c memory = (.error e, memory) := by
  rw [handle, h, hsolo]

/-- A request touches what is remembered for its own key, and nothing else. -/
theorem handle_other {k : κ} (h : key c ≠ some k) :
    (handle key solo c memory).2 k = memory k := by
  rcases hit : (key c).bind memory with _ | a
  · rcases hsolo : solo c with e | a
    · rw [handle_error hit hsolo]
    · rw [handle_ok hit hsolo]
      exact remember_other h a memory
  · rw [handle_hit hit]

/-- What a request is answered, and what it leaves for its own key, depends on what is remembered
for that key alone. -/
theorem handle_congr (solo : ι → Except ε α) {memory' : κ → Option α}
    (h : ∀ k, key c = some k → memory k = memory' k) :
    (handle key solo c memory).1 = (handle key solo c memory').1 ∧
      ∀ k, key c = some k →
        (handle key solo c memory).2 k = (handle key solo c memory').2 k := by
  have hbind : (key c).bind memory = (key c).bind memory' := by
    rcases hk : key c with _ | k
    · rfl
    · exact h k hk
  rcases hit : (key c).bind memory with _ | a
  · have hit' := hbind ▸ hit
    rcases hsolo : solo c with e | a
    · rw [handle_error hit hsolo, handle_error hit' hsolo]
      exact ⟨rfl, h⟩
    · rw [handle_ok hit hsolo, handle_ok hit' hsolo]
      refine ⟨rfl, ?_⟩
      intro k hk
      dsimp only
      rw [remember_self hk, remember_self hk]
  · rw [handle_hit hit, handle_hit (hbind ▸ hit)]
    exact ⟨rfl, h⟩

end Handle

/-- **Isolation.** When requests with one key are kept or dropped together, those that are kept
are answered as if the others had not been made. -/
theorem answers_filter (key : ι → Option κ) (solo : ι → Except ε α) (keep : ι → Bool) (cs : List ι)
    (hkeep : ∀ c ∈ cs, ∀ c' ∈ cs, ∀ k, key c = some k → key c' = some k → keep c = keep c')
    (memory memory' : κ → Option α)
    (hagree : ∀ c ∈ cs, keep c = true → ∀ k, key c = some k → memory k = memory' k) :
    ((Run.entries (handle key solo) memory cs).filter (fun t => keep t.call)).map Entry.answer
      = answers key solo memory' (cs.filter keep) := by
  induction cs generalizing memory memory' with
  | nil => rfl
  | cons c cs ih =>
      have htail : ∀ d ∈ cs, ∀ d' ∈ cs, ∀ k, key d = some k → key d' = some k →
          keep d = keep d' :=
        fun d hd d' hd' => hkeep d (List.mem_cons_of_mem c hd) d' (List.mem_cons_of_mem c hd')
      have hrest : ∀ d ∈ cs, keep d = true → ∀ k, key d = some k → memory k = memory' k :=
        fun d hd => hagree d (List.mem_cons_of_mem c hd)
      by_cases hc : keep c = true
      · obtain ⟨hanswer, hown⟩ := handle_congr solo (hagree c (by simp) hc)
        -- after the request the memories still agree, under its key and under the others
        have hnext := ih htail (handle key solo c memory).2 (handle key solo c memory').2 (by
          intro d hd hkd k hk
          by_cases hck : key c = some k
          · exact hown k hck
          · rw [handle_other hck, handle_other hck]
            exact hrest d hd hkd k hk)
        have hentry : keep (Run.entry (handle key solo) memory c).call = true := hc
        rw [Run.entries, List.filter_cons, if_pos hentry, List.map_cons, hnext,
          List.filter_cons_of_pos hc, answers, answers, Run.entries, List.map_cons]
        exact congrArg (fun a => a :: _) hanswer
      · -- a request that is dropped has a key that no kept request has
        have hnext := ih htail (handle key solo c memory).2 memory' (by
          intro d hd hkd k hk
          have hck : key c ≠ some k := by
            intro hck
            exact hc ((hkeep c (by simp) d (List.mem_cons_of_mem c hd) k hck hk).trans hkd)
          rw [handle_other hck]
          exact hrest d hd hkd k hk)
        have hentry : ¬ keep (Run.entry (handle key solo) memory c).call = true := hc
        rw [Run.entries, List.filter_cons, if_neg hentry, List.filter_cons_of_neg hc]
        exact hnext

end Memo

end DecisionRuntime
