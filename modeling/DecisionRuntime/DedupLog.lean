/-
Append-only logs that drop an entry whose identifier they already hold.

This is the abstract content of "deterministic identifiers make a retry
harmless". Nothing here depends on what an entry is: `key` is the identifier of
an entry, a log has no two entries with one identifier, and the laws are

* appending entries with new, distinct identifiers appends exactly them
  (`appendAll_fresh`);
* appending a batch again changes nothing (`appendAll_again`), and appending it
  after any prefix of it gives what one uninterrupted batch gives
  (`appendAll_resume`).
-/
import Mathlib.Data.List.Nodup
import Mathlib.Data.List.Basic

set_option autoImplicit false

namespace DecisionRuntime

/-- A log without two entries of one identifier. -/
structure DedupLog {E I : Type} (key : E → I) where
  entries : List E
  nodup : (entries.map key).Nodup

namespace DedupLog

variable {E I : Type} [DecidableEq I] {key : E → I}

/-- The identifiers in the log. -/
def keys (L : DedupLog key) : List I := L.entries.map key

/-- Append `e`, unless its identifier is there already. -/
def append (L : DedupLog key) (e : E) : DedupLog key :=
  if h : key e ∈ L.keys then L
  else ⟨L.entries ++ [e], by
    rw [List.map_append, List.nodup_append]
    refine ⟨L.nodup, by simp, ?_⟩
    intro a ha b hb
    rw [List.map_singleton, List.mem_singleton] at hb
    rintro rfl
    exact h (hb ▸ ha)⟩

/-- Append every entry of the batch. -/
def appendAll (L : DedupLog key) (es : List E) : DedupLog key := es.foldl append L

/-- Which entries of the batch are accepted. -/
def answers (L : DedupLog key) : List E → List Bool
  | [] => []
  | e :: es => decide (key e ∉ L.keys) :: answers (L.append e) es

/-! ## One append -/

theorem append_of_mem {L : DedupLog key} {e : E} (h : key e ∈ L.keys) : L.append e = L := by
  rw [append, dif_pos h]

theorem entries_append_of_not_mem {L : DedupLog key} {e : E} (h : key e ∉ L.keys) :
    (L.append e).entries = L.entries ++ [e] := by
  rw [append, dif_neg h]

theorem mem_keys_append {L : DedupLog key} {e : E} {i : I} :
    i ∈ (L.append e).keys ↔ i ∈ L.keys ∨ i = key e := by
  by_cases h : key e ∈ L.keys
  · rw [append_of_mem h]
    constructor
    · exact Or.inl
    · rintro (hi | rfl)
      · exact hi
      · exact h
  · rw [keys, entries_append_of_not_mem h, List.map_append, List.mem_append, List.map_singleton,
      List.mem_singleton]
    rfl

/-! ## A batch -/

@[simp] theorem appendAll_nil (L : DedupLog key) : L.appendAll [] = L := rfl

@[simp] theorem appendAll_cons (L : DedupLog key) (e : E) (es : List E) :
    L.appendAll (e :: es) = (L.append e).appendAll es := rfl

theorem appendAll_append (L : DedupLog key) (es fs : List E) :
    L.appendAll (es ++ fs) = (L.appendAll es).appendAll fs :=
  List.foldl_append

/-- A batch adds its identifiers and no other. -/
theorem mem_keys_appendAll {L : DedupLog key} {es : List E} {i : I} :
    i ∈ (L.appendAll es).keys ↔ i ∈ L.keys ∨ i ∈ es.map key := by
  induction es generalizing L with
  | nil => simp
  | cons e es ih =>
      rw [appendAll_cons, ih, mem_keys_append, List.map_cons, List.mem_cons, or_assoc]

/-- A batch adds entries of its own and no other. -/
theorem mem_entries_appendAll {L : DedupLog key} {es : List E} {e : E}
    (h : e ∈ (L.appendAll es).entries) : e ∈ L.entries ∨ e ∈ es := by
  induction es generalizing L with
  | nil => exact Or.inl h
  | cons f es ih =>
      rw [appendAll_cons] at h
      rcases ih h with h | h
      · by_cases hf : key f ∈ L.keys
        · rw [append_of_mem hf] at h
          exact Or.inl h
        · rw [entries_append_of_not_mem hf, List.mem_append, List.mem_singleton] at h
          rcases h with h | rfl
          · exact Or.inl h
          · exact Or.inr (by simp)
      · exact Or.inr (List.mem_cons_of_mem _ h)

/-- A batch whose identifiers are all there changes nothing. -/
theorem appendAll_of_subset {L : DedupLog key} {es : List E} (h : ∀ e ∈ es, key e ∈ L.keys) :
    L.appendAll es = L := by
  induction es with
  | nil => rfl
  | cons e es ih =>
      rw [appendAll_cons, append_of_mem (h e (by simp))]
      exact ih (fun f hf => h f (List.mem_cons_of_mem _ hf))

/-- New and distinct identifiers are appended as they are. -/
theorem appendAll_fresh {L : DedupLog key} {es : List E} (hnd : (es.map key).Nodup)
    (hnew : ∀ e ∈ es, key e ∉ L.keys) :
    (L.appendAll es).entries = L.entries ++ es
      ∧ L.answers es = List.replicate es.length true := by
  induction es generalizing L with
  | nil => simp [answers]
  | cons e es ih =>
      rw [List.map_cons, List.nodup_cons] at hnd
      have he : key e ∉ L.keys := hnew e (by simp)
      -- the rest of the batch is still new after its first entry is in
      have hstep : ∀ f ∈ es, key f ∉ (L.append e).keys := by
        intro f hf
        rw [mem_keys_append, not_or]
        refine ⟨hnew f (List.mem_cons_of_mem _ hf), ?_⟩
        intro hfe
        exact hnd.1 (hfe ▸ List.mem_map_of_mem hf)
      obtain ⟨hent, hans⟩ := ih hnd.2 hstep
      constructor
      · rw [appendAll_cons, hent, entries_append_of_not_mem he, List.append_assoc]
        rfl
      · rw [answers, hans, List.length_cons, List.replicate_succ]
        simp only [List.cons.injEq, and_true]
        exact decide_eq_true he

/-- A batch of which every entry was accepted is appended as it is. -/
theorem entries_of_answers {L : DedupLog key} {es : List E} (h : ∀ b ∈ L.answers es, b = true) :
    (L.appendAll es).entries = L.entries ++ es := by
  induction es generalizing L with
  | nil => simp
  | cons e es ih =>
      rw [answers, List.forall_mem_cons, decide_eq_true_eq] at h
      rw [appendAll_cons, ih h.2, entries_append_of_not_mem h.1, List.append_assoc]
      rfl

/-- Appending a batch a second time changes nothing. -/
theorem appendAll_again (L : DedupLog key) (es : List E) :
    (L.appendAll es).appendAll es = L.appendAll es :=
  appendAll_of_subset (fun _ he => mem_keys_appendAll.mpr (Or.inr (List.mem_map_of_mem he)))

/-- A batch that was interrupted after `done` is completed by appending all of it. -/
theorem appendAll_resume (L : DedupLog key) (done rest : List E) :
    (L.appendAll done).appendAll (done ++ rest) = L.appendAll (done ++ rest) := by
  rw [appendAll_append, appendAll_again, appendAll_append]

end DedupLog

end DecisionRuntime
