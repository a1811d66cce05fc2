/-
The first of the greatest elements of a list.

Programs find it in two ways: they sort the list by a key, greatest first, and take
the head, or they go through it and keep the best element so far. Both find the
first of the greatest ones, the sort because it is stable (`firstGreatest_insertionSort`)
and the loop because it replaces the best element by a better one only
(`firstGreatest_keep_best`).

The order in which elements of different keys are listed does not matter
(`firstGreatest_congr`).
-/
import Mathlib.Data.List.MinMax
import Mathlib.Data.List.Sort

set_option autoImplicit false

namespace DecisionRuntime

variable {α β : Type} [LinearOrder β] {f : α → β} {l : List α} {a : α}

/-- `a` is in the list, what is before it is smaller, and what is after it is not greater. -/
def FirstGreatest (f : α → β) (l : List α) (a : α) : Prop :=
  ∃ pre post, l = pre ++ a :: post ∧ (∀ x ∈ pre, f x < f a) ∧ ∀ x ∈ post, f x ≤ f a

theorem FirstGreatest.mem (h : FirstGreatest f l a) : a ∈ l := by
  obtain ⟨pre, post, rfl, -, -⟩ := h
  exact List.mem_append_right pre List.mem_cons_self

theorem FirstGreatest.le (h : FirstGreatest f l a) {x : α} (hx : x ∈ l) : f x ≤ f a := by
  obtain ⟨pre, post, rfl, hpre, hpost⟩ := h
  rcases List.mem_append.mp hx with hx | hx
  · exact (hpre x hx).le
  · rcases List.mem_cons.mp hx with rfl | hx
    · exact le_rfl
    · exact hpost x hx

/-! ## As the head of a filtered list -/

/-- It is the first of the elements that are as great as it, and no element is greater. -/
theorem firstGreatest_iff_head : FirstGreatest f l a ↔
    (∀ x ∈ l, f x ≤ f a) ∧ (l.filter (fun x => f x = f a)).head? = some a := by
  constructor
  · intro h
    refine ⟨fun x hx => h.le hx, ?_⟩
    obtain ⟨pre, post, rfl, hpre, -⟩ := h
    have hnone : pre.filter (fun x => f x = f a) = [] := by
      rw [List.filter_eq_nil_iff]
      intro x hx
      simpa using (hpre x hx).ne
    rw [List.filter_append, hnone, List.nil_append, List.filter_cons_of_pos (by simp)]
    rfl
  · rintro ⟨hle, hhead⟩
    obtain ⟨rest, hrest⟩ := List.head?_eq_some_iff.mp hhead
    rw [List.filter_eq_cons_iff] at hrest
    obtain ⟨pre, post, rfl, hpre, -, -⟩ := hrest
    refine ⟨pre, post, rfl, ?_, ?_⟩
    · intro x hx
      have hne : f x ≠ f a := by simpa using hpre x hx
      exact lt_of_le_of_ne (hle x (List.mem_append_left _ hx)) hne
    · intro x hx
      exact hle x (List.mem_append_right pre (List.mem_cons_of_mem a hx))

/-- There is only one. -/
theorem FirstGreatest.unique {b : α} (ha : FirstGreatest f l a) (hb : FirstGreatest f l b) :
    a = b := by
  have heq : f a = f b := le_antisymm (hb.le ha.mem) (ha.le hb.mem)
  have hfirst := (firstGreatest_iff_head.mp ha).2
  rw [heq, (firstGreatest_iff_head.mp hb).2] at hfirst
  exact (Option.some.inj hfirst).symm

/-- **Reordering.** Lists that agree on the elements of each key have the same one. -/
theorem firstGreatest_congr {l' : List α}
    (h : ∀ k, l.filter (fun x => f x = k) = l'.filter (fun x => f x = k)) :
    FirstGreatest f l a ↔ FirstGreatest f l' a := by
  have hmem : ∀ x, x ∈ l ↔ x ∈ l' := by
    intro x
    have hx : x ∈ l.filter (fun y => f y = f x) ↔ x ∈ l'.filter (fun y => f y = f x) := by
      rw [h (f x)]
    simpa using hx
  rw [firstGreatest_iff_head, firstGreatest_iff_head, h (f a)]
  simp only [hmem]

/-! ## Element by element -/

theorem firstGreatest_singleton (f : α → β) (a : α) : FirstGreatest f [a] a :=
  ⟨[], [], rfl, fun _ h => absurd h List.not_mem_nil, fun _ h => absurd h List.not_mem_nil⟩

/-- In front of a list, an element wins against what is not greater. -/
theorem firstGreatest_cons {b : α} (h : FirstGreatest f l b) (a : α) :
    FirstGreatest f (a :: l) (if f b ≤ f a then a else b) := by
  by_cases hle : f b ≤ f a
  · rw [if_pos hle]
    refine ⟨[], l, rfl, fun _ h => absurd h List.not_mem_nil, ?_⟩
    intro x hx
    exact (h.le hx).trans hle
  · rw [if_neg hle]
    obtain ⟨pre, post, rfl, hpre, hpost⟩ := h
    exact ⟨a :: pre, post, rfl, List.forall_mem_cons.mpr ⟨not_le.mp hle, hpre⟩, hpost⟩

/-- A list that is not empty has one. -/
theorem exists_firstGreatest (f : α → β) (hl : l ≠ []) : ∃ a, FirstGreatest f l a := by
  induction l with
  | nil => exact absurd rfl hl
  | cons a l ih =>
      by_cases hnil : l = []
      · rw [hnil]
        exact ⟨a, firstGreatest_singleton f a⟩
      · obtain ⟨b, hb⟩ := ih hnil
        exact ⟨_, firstGreatest_cons hb a⟩

/-- It is what `argmax` finds. -/
theorem firstGreatest_iff_argmax : FirstGreatest f l a ↔ l.argmax f = some a := by
  have hsound : ∀ (l : List α) (b : α), l.argmax f = some b → FirstGreatest f l b := by
    intro l
    induction l with
    | nil => intro b hb; cases hb
    | cons first l ih =>
        intro b hb
        rw [List.argmax_cons] at hb
        cases hrest : l.argmax f with
        | none =>
            rw [hrest] at hb
            rw [List.argmax_eq_none.mp hrest, ← Option.some.inj hb]
            exact firstGreatest_singleton f first
        | some c =>
            have hcons := firstGreatest_cons (ih c hrest) first
            rw [hrest] at hb
            dsimp only at hb
            by_cases hle : f c ≤ f first
            · rw [if_neg (not_lt.mpr hle)] at hb
              rw [if_pos hle] at hcons
              rwa [← Option.some.inj hb]
            · rw [if_pos (not_le.mp hle)] at hb
              rw [if_neg hle] at hcons
              rwa [← Option.some.inj hb]
  refine ⟨?_, hsound l a⟩
  intro h
  cases hmax : l.argmax f with
  | none => exact absurd h.mem (by simp [List.argmax_eq_none.mp hmax])
  | some b => rw [h.unique (hsound l b hmax)]

/-- It is still the first when nothing greater is added at the end. -/
theorem FirstGreatest.append {l' : List α} (h : FirstGreatest f l a)
    (hle : ∀ x ∈ l', f x ≤ f a) : FirstGreatest f (l ++ l') a := by
  obtain ⟨pre, post, rfl, hpre, hpost⟩ := h
  refine ⟨pre, post ++ l', by simp, hpre, ?_⟩
  intro x hx
  rcases List.mem_append.mp hx with hx | hx
  · exact hpost x hx
  · exact hle x hx

/-- It is kept by a function that keeps the keys. -/
theorem FirstGreatest.map {γ : Type} {g : α → γ} {h : γ → β} (hfirst : FirstGreatest f l a)
    (hkey : ∀ x, h (g x) = f x) : FirstGreatest h (l.map g) (g a) := by
  obtain ⟨pre, post, rfl, hpre, hpost⟩ := hfirst
  refine ⟨pre.map g, post.map g, by simp, ?_, ?_⟩
  · simpa [hkey] using hpre
  · simpa [hkey] using hpost

/-! ## By sorting -/

/-- **Sorting, greatest first.** The head of the sorted list is the first of the greatest elements.
The induction follows the sort, which inserts the elements from the last to the first. -/
theorem head_insertionSort_iff :
    (l.insertionSort (fun x y => f y ≤ f x)).head? = some a ↔ FirstGreatest f l a := by
  induction l generalizing a with
  | nil =>
      constructor
      · intro h
        cases h
      · intro h
        exact absurd h.mem List.not_mem_nil
  | cons c l ih =>
      rw [List.insertionSort_cons]
      rcases hsort : l.insertionSort (fun x y => f y ≤ f x) with _ | ⟨b, sorted⟩
      · have hnil : l = [] := by
          have hlength := List.length_insertionSort (fun x y => f y ≤ f x) l
          rw [hsort] at hlength
          exact List.length_eq_zero_iff.mp hlength.symm
        rw [hnil, List.orderedInsert_nil, List.head?_cons, Option.some.injEq]
        constructor
        · rintro rfl
          exact firstGreatest_singleton f c
        · exact (firstGreatest_singleton f c).unique
      · have hb : FirstGreatest f l b := ih.mp (by rw [hsort, List.head?_cons])
        have hcons := firstGreatest_cons hb c
        -- the new element goes in front of the list, or behind its head
        have hhead : (List.orderedInsert (fun x y => f y ≤ f x) c (b :: sorted)).head?
            = some (if f b ≤ f c then c else b) := by
          rw [List.orderedInsert_cons]
          by_cases hle : f b ≤ f c
          · rw [if_pos hle, if_pos hle, List.head?_cons]
          · rw [if_neg hle, if_neg hle, List.head?_cons]
        rw [hhead, Option.some.injEq]
        constructor
        · rintro rfl
          exact hcons
        · exact hcons.unique

/-! ## By keeping the best -/

/-- **Keeping the best.** A loop that replaces the best element by a greater one ends with the first
of the greatest elements. -/
theorem firstGreatest_keep_best (f : α → β) (best : α) (l : List α) :
    FirstGreatest f (best :: l)
      (l.foldl (fun best x => if f best < f x then x else best) best) := by
  induction l generalizing best with
  | nil => exact firstGreatest_singleton f best
  | cons x l ih =>
      rw [List.foldl_cons]
      obtain ⟨pre, post, hsplit, hpre, hpost⟩ := ih (if f best < f x then x else best)
      generalize l.foldl (fun best x => if f best < f x then x else best)
        (if f best < f x then x else best) = winner at hsplit hpre hpost ⊢
      by_cases hlt : f best < f x
      · rw [if_pos hlt] at hsplit
        -- the old best element is smaller than the one that replaced it
        refine ⟨best :: pre, post, by rw [hsplit, List.cons_append], ?_, hpost⟩
        have hx : f x ≤ f winner := by
          have hfirst : FirstGreatest f (x :: l) winner := ⟨pre, post, hsplit, hpre, hpost⟩
          exact hfirst.le List.mem_cons_self
        exact List.forall_mem_cons.mpr ⟨hlt.trans_le hx, hpre⟩
      · rw [if_neg hlt] at hsplit
        have hle : f x ≤ f best := not_lt.mp hlt
        rcases pre with _ | ⟨first, pre⟩
        · -- the best element so far stays in front
          rw [List.nil_append, List.cons.injEq] at hsplit
          obtain ⟨rfl, rfl⟩ := hsplit
          exact ⟨[], x :: l, rfl, hpre, List.forall_mem_cons.mpr ⟨hle, hpost⟩⟩
        · rw [List.cons_append, List.cons.injEq] at hsplit
          obtain ⟨rfl, rfl⟩ := hsplit
          obtain ⟨hbest, hpre⟩ := List.forall_mem_cons.mp hpre
          refine ⟨best :: x :: pre, post, rfl, ?_, hpost⟩
          exact List.forall_mem_cons.mpr
            ⟨hbest, List.forall_mem_cons.mpr ⟨hle.trans_lt hbest, hpre⟩⟩

end DecisionRuntime
