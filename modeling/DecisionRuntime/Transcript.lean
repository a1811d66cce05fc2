/-
Transcripts of an operation: what it was called with, and what came of each call.

`transcribed f` is the operation `f` that writes its calls down. It does to the state
what `f` does and returns what `f` returns, so a program over `transcribed f` is the
program over `f` with its calls made visible, whatever `f` is.

`Transcript` says what the calls of a loop over a list are: the elements of the list in
order, one call each, up to the first one that raises. `scripted` is an operation that
gives any answers one likes.
-/
import DecisionRuntime.Exec

set_option autoImplicit false

namespace DecisionRuntime

namespace Exec

variable {ε σ α β : Type}

/-- One call: what it was given, and what it returned or raised. -/
structure Call (ε α β : Type) where
  input : α
  outcome : Except ε β

/-- The operation `f`, writing down each of its calls. -/
def transcribed (f : α → Exec ε σ β) (a : α) : Exec ε (σ × List (Call ε α β)) β := fun s =>
  ((f a s.1).1, (f a s.1).2, s.2 ++ [⟨a, (f a s.1).1⟩])

/-- The calls of a loop over these elements that came to this. -/
inductive Transcript : List α → Except ε (List β) → List (Call ε α β) → Prop
  | nil : Transcript [] (.ok []) []
  | raised {a : α} {as : List α} {e : ε} : Transcript (a :: as) (.error e) [⟨a, .error e⟩]
  | returned {a : α} {as : List α} {b : β} {r : Except ε (List β)} {calls : List (Call ε α β)}
      (later : Transcript as r calls) :
      Transcript (a :: as) (r.map (b :: ·)) (⟨a, .ok b⟩ :: calls)

namespace Transcript

variable {as : List α} {r : Except ε (List β)} {calls : List (Call ε α β)}

/-- The elements are taken in order, and none is taken twice. -/
theorem inputs_in_order (h : Transcript as r calls) : calls.map Call.input <+: as := by
  induction h with
  | nil => exact List.prefix_rfl
  | raised =>
      rw [List.map_singleton, List.prefix_cons_inj]
      exact List.nil_prefix
  | returned _ ih =>
      rw [List.map_cons, List.prefix_cons_inj]
      exact ih

/-- The loop returns what its calls do, when they all return. -/
theorem eq_ok_iff (h : Transcript as r calls) {bs : List β} :
    r = .ok bs ↔ calls.map Call.outcome = bs.map .ok := by
  induction h generalizing bs with
  | nil =>
      rw [Except.ok.injEq, List.map_nil, eq_comm, eq_comm (a := []), List.map_eq_nil_iff]
  | raised => rcases bs with _ | ⟨b, bs⟩ <;> simp
  | @returned a as b r calls _ ih =>
      rcases bs with _ | ⟨b', bs⟩
      · rcases r with e | rest <;> simp [Except.map]
      · rw [List.map_cons, List.map_cons, List.cons.injEq, Except.ok.injEq, ← ih]
        rcases r with e | rest <;> simp [Except.map]

/-- A loop that returns has taken every element. -/
theorem inputs_of_ok (h : Transcript as r calls) {bs : List β} (hr : r = .ok bs) :
    calls.map Call.input = as := by
  induction h generalizing bs with
  | nil => rfl
  | raised => cases hr
  | @returned a as b r calls _ ih =>
      rcases r with e | bs'
      · cases hr
      · rw [List.map_cons, ih rfl]

end Transcript

/-- **A loop over an operation and its transcript.** -/
theorem mapM_transcribed (f : α → Exec ε σ β) (as : List α) (s : σ) (made : List (Call ε α β)) :
    ∃ calls, as.mapM (transcribed f) (s, made) = ((as.mapM f s).1, (as.mapM f s).2, made ++ calls)
      ∧ Transcript as (as.mapM f s).1 calls := by
  induction as generalizing s made with
  | nil => exact ⟨[], by simp, .nil⟩
  | cons a as ih =>
      rw [List.mapM_cons, List.mapM_cons]
      rcases ha : f a s with ⟨e | b, s'⟩
      · -- the first call raises, and there is no other
        have hcall : transcribed f a (s, made) = (.error e, s', made ++ [⟨a, .error e⟩]) := by
          rw [transcribed, ha]
        rw [run_bind_error _ hcall, run_bind_error _ ha]
        exact ⟨_, rfl, .raised⟩
      · have hcall : transcribed f a (s, made) = (.ok b, s', made ++ [⟨a, .ok b⟩]) := by
          rw [transcribed, ha]
        rw [run_bind_ok _ hcall, run_bind_ok _ ha, run_bind_pure, run_bind_pure]
        obtain ⟨calls, hrun, hcalls⟩ := ih s' (made ++ [⟨a, .ok b⟩])
        refine ⟨⟨a, .ok b⟩ :: calls, ?_, .returned hcalls⟩
        rw [hrun, List.append_assoc]
        rfl

/-- The operation that gives these answers, one after the other, and then raises. -/
def scripted (e : ε) (_ : α) : Exec ε (List β) β
  | [] => (.error e, [])
  | b :: bs => (.ok b, bs)

/-- Every list of answers is what some operation answers. -/
theorem mapM_scripted (e : ε) {as : List α} {bs : List β} (h : bs.length = as.length) :
    as.mapM (scripted e) bs = (.ok bs, []) := by
  induction as generalizing bs with
  | nil =>
      rw [List.length_eq_zero_iff.mp h]
      rfl
  | cons a as ih =>
      rcases bs with _ | ⟨b, bs⟩
      · simp at h
      · have hcall : scripted e a (b :: bs) = (.ok b, bs) := rfl
        have hlen : bs.length = as.length := by simpa using h
        rw [List.mapM_cons, run_bind_ok _ hcall, run_bind_pure, ih hlen]
        rfl

end Exec

end DecisionRuntime
