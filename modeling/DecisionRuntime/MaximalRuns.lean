/-
Rewriting the maximal runs of a list.

A substitution that respects word boundaries looks at a text as runs of word
characters with other characters between them, and rewrites each run as a whole.
Here the elements are arbitrary and `p` says which of them make up runs.
`map_runs f` puts `f run` in the place of every maximal run; what it does to a list
in two halves (`map_runs_append`), done twice (`map_runs_map_runs`), and where it does
nothing (`map_runs_eq_self_iff`) is all a user needs.
-/
import Mathlib.Data.List.Basic

set_option autoImplicit false

namespace DecisionRuntime

variable {α : Type} (p : α → Bool)

/-- Every maximal run replaced by its image, `run` being what was read of the first one. -/
def map_runs (f : List α → List α) : List α → List α → List α
  | run, [] => f run
  | run, a :: as => if p a then map_runs f (run ++ [a]) as else f run ++ a :: map_runs f [] as

/-- The maximal runs, with empty ones where no run stands between two other elements. -/
def runs : List α → List α → List (List α)
  | run, [] => [run]
  | run, a :: as => if p a then runs (run ++ [a]) as else run :: runs [] as

/-- No run of `as` goes on in `bs`. -/
def Breaks (as bs : List α) : Prop :=
  (∀ a, as.getLast? = some a → p a = false) ∨ ∀ b, bs.head? = some b → p b = false

variable {p} {f g : List α → List α} {run as bs : List α}

theorem run_snoc {a : α} (hrun : ∀ a ∈ run, p a = true) (ha : p a = true) :
    ∀ b ∈ run ++ [a], p b = true := by
  intro b hb
  rcases List.mem_append.mp hb with hb | hb
  · exact hrun b hb
  · rw [List.mem_singleton.mp hb]
    exact ha

/-- What is in runs throughout is part of the run. -/
theorem map_runs_append_run (h : ∀ b ∈ bs, p b = true) :
    map_runs p f run (bs ++ as) = map_runs p f (run ++ bs) as := by
  induction bs generalizing run with
  | nil => rw [List.nil_append, List.append_nil]
  | cons b bs ih =>
      rw [List.forall_mem_cons] at h
      rw [List.cons_append, map_runs, if_pos h.1, ih h.2, List.append_assoc, List.singleton_append]

/-- A run ends before an element that belongs to none. -/
theorem map_runs_of_head (hf : f [] = []) (h : ∀ b, bs.head? = some b → p b = false) :
    map_runs p f run bs = f run ++ map_runs p f [] bs := by
  rcases bs with _ | ⟨b, bs⟩
  · simp [map_runs, hf]
  · have hb : p b = false := h b rfl
    simp [map_runs, hb, hf]

/-- **Two halves** that no run spans are rewritten separately. -/
theorem map_runs_append (hf : f [] = []) (hrun : ∀ a ∈ run, p a = true)
    (h : Breaks p (run ++ as) bs) :
    map_runs p f run (as ++ bs) = map_runs p f run as ++ map_runs p f [] bs := by
  induction as generalizing run with
  | nil =>
      rw [List.nil_append, map_runs]
      rcases h with hlast | hhead
      · -- a run that does not end with an element of it is empty
        have hnil : run = [] := by
          by_contra hne
          rw [List.append_nil, List.getLast?_eq_some_getLast hne] at hlast
          have hfalse := hlast _ rfl
          rw [hrun _ (List.getLast_mem hne)] at hfalse
          cases hfalse
        rw [hnil, hf, List.nil_append]
      · exact map_runs_of_head hf hhead
  | cons a as ih =>
      rw [List.cons_append, map_runs, map_runs]
      by_cases ha : p a = true
      · rw [if_pos ha, if_pos ha]
        apply ih (run_snoc hrun ha)
        simpa using h
      · rw [if_neg ha, if_neg ha, ih (by simp), List.append_assoc, List.cons_append]
        rcases h with hlast | hhead
        · left
          intro b hb
          apply hlast
          simp only [List.nil_append] at hb
          simp [List.getLast?_append, List.getLast?_cons, hb]
        · exact Or.inr hhead

/-- **Twice**: the images of runs are runs again. -/
theorem map_runs_map_runs (hf : ∀ run, (∀ a ∈ run, p a = true) → ∀ a ∈ f run, p a = true)
    (hrun : ∀ a ∈ run, p a = true) :
    map_runs p g [] (map_runs p f run as) = map_runs p (fun run => g (f run)) run as := by
  induction as generalizing run with
  | nil =>
      have h : map_runs p g [] (f run ++ []) = map_runs p g ([] ++ f run) [] :=
        map_runs_append_run (hf run hrun)
      rw [List.append_nil, List.nil_append] at h
      rw [map_runs, h, map_runs, map_runs]
  | cons a as ih =>
      rw [map_runs, map_runs]
      by_cases ha : p a = true
      · rw [if_pos ha, if_pos ha]
        exact ih (run_snoc hrun ha)
      · rw [if_neg ha, if_neg ha, map_runs_append_run (hf run hrun), List.nil_append, map_runs,
          if_neg ha, ih (by simp)]

/-- Between two halves that an element of no run separates nothing is shared. -/
theorem map_runs_append_sep {a : α} (ha : p a = false) :
    map_runs p f run (as ++ a :: bs) = map_runs p f run as ++ a :: map_runs p f [] bs := by
  induction as generalizing run with
  | nil => simp [map_runs, ha]
  | cons b as ih =>
      rw [List.cons_append, map_runs, map_runs]
      by_cases hb : p b = true
      · rw [if_pos hb, if_pos hb, ih]
      · rw [if_neg hb, if_neg hb, ih, List.append_assoc, List.cons_append]

theorem runs_append_sep {a : α} (ha : p a = false) :
    runs p run (as ++ a :: bs) = runs p run as ++ runs p [] bs := by
  induction as generalizing run with
  | nil => simp [runs, ha]
  | cons b as ih =>
      rw [List.cons_append, runs, runs]
      by_cases hb : p b = true
      · rw [if_pos hb, if_pos hb, ih]
      · rw [if_neg hb, if_neg hb, ih, List.cons_append]

/-- What makes up runs is asked of the elements of the list only. -/
theorem runs_congr {q : α → Bool} (h : ∀ a ∈ as, p a = q a) : runs p run as = runs q run as := by
  induction as generalizing run with
  | nil => rfl
  | cons a as ih =>
      rw [List.forall_mem_cons] at h
      rw [runs, runs, h.1, ih h.2, ih h.2]

/-- A run is made of what is in the list. -/
theorem mem_of_mem_runs {r : List α} {a : α} (hr : r ∈ runs p run as) (ha : a ∈ r) :
    a ∈ run ++ as := by
  induction as generalizing run with
  | nil =>
      rw [runs, List.mem_singleton] at hr
      rw [List.append_nil, ← hr]
      exact ha
  | cons b as ih =>
      rw [runs] at hr
      by_cases hb : p b = true
      · rw [if_pos hb] at hr
        simpa using ih hr
      · rw [if_neg hb, List.mem_cons] at hr
        rcases hr with rfl | hr
        · exact List.mem_append_left _ ha
        · have h := ih hr
          rw [List.nil_append] at h
          exact List.mem_append_right _ (List.mem_cons_of_mem _ h)

/-- What is in no run was there before, and is still there. -/
theorem mem_map_runs_iff (hf : ∀ run, (∀ a ∈ run, p a = true) → ∀ a ∈ f run, p a = true)
    (hrun : ∀ a ∈ run, p a = true) {a : α} (ha : p a = false) :
    a ∈ map_runs p f run as ↔ a ∈ as := by
  have hnot : ∀ {run : List α}, (∀ b ∈ run, p b = true) → a ∉ f run := by
    intro run hrun hmem
    rw [hf run hrun a hmem] at ha
    cases ha
  induction as generalizing run with
  | nil => simp [map_runs, hnot hrun]
  | cons b as ih =>
      rw [map_runs]
      by_cases hb : p b = true
      · have hne : a ≠ b := by
          rintro rfl
          rw [hb] at ha
          cases ha
        have hrest : a ∈ map_runs p f (run ++ [b]) as ↔ a ∈ as := ih (run_snoc hrun hb)
        rw [if_pos hb, hrest]
        simp [hne]
      · have hrest : a ∈ map_runs p f [] as ↔ a ∈ as := ih (by simp)
        rw [if_neg hb, List.mem_append, List.mem_cons, List.mem_cons, hrest]
        simp [hnot hrun]

theorem length_map_runs (hf : ∀ run, (f run).length = run.length) :
    (map_runs p f run as).length = run.length + as.length := by
  induction as generalizing run with
  | nil => rw [map_runs, hf, List.length_nil, Nat.add_zero]
  | cons a as ih =>
      rw [map_runs]
      by_cases ha : p a = true
      · rw [if_pos ha, ih, List.length_append, List.length_singleton, List.length_cons]
        omega
      · rw [if_neg ha, List.length_append, List.length_cons, hf, ih, List.length_nil,
          List.length_cons]
        omega

/-- **Nothing happens** exactly when every run is its own image. -/
theorem map_runs_eq_self_iff (hf : ∀ run, (f run).length = run.length) :
    map_runs p f run as = run ++ as ↔ ∀ r ∈ runs p run as, f r = r := by
  induction as generalizing run with
  | nil => simp [map_runs, runs]
  | cons a as ih =>
      rw [map_runs, runs]
      by_cases ha : p a = true
      · rw [if_pos ha, if_pos ha, ← ih, List.append_assoc, List.singleton_append]
      · have hrest : map_runs p f [] as = [] ++ as ↔ ∀ r ∈ runs p [] as, f r = r := ih
        rw [List.nil_append] at hrest
        rw [if_neg ha, if_neg ha, List.forall_mem_cons, ← hrest]
        constructor
        · intro h
          obtain ⟨hrun, htail⟩ := List.append_inj h (hf run)
          exact ⟨hrun, (List.cons_eq_cons.mp htail).2⟩
        · rintro ⟨hrun, htail⟩
          rw [hrun, htail]

/-- A single run is rewritten as a whole. -/
theorem map_runs_of_all (h : ∀ a ∈ as, p a = true) : map_runs p f [] as = f as := by
  have happ : map_runs p f [] (as ++ []) = map_runs p f ([] ++ as) [] := map_runs_append_run h
  rw [List.append_nil, List.nil_append] at happ
  rw [happ, map_runs]

end DecisionRuntime
