/-
Sorting by a key, greatest first, and ties in the order given.

`Descending key given l` says what such a sort returns without saying how: `l` is
`given` rearranged, the keys descend, and the items of one key stand as they
stood. There is exactly one such list, and insertion sort finds it.

Last come `sorted` and `sorted(set(...))` on strings, which are ordered by code
points.
-/
import Mathlib.Data.List.Dedup
import Mathlib.Data.List.Sort
import Mathlib.Data.String.Basic
import Mathlib.Order.Defs.LinearOrder

set_option autoImplicit false

namespace DecisionRuntime

variable {α κ : Type} [LinearOrder κ]

/-- `l` is `given` by descending keys, and of two items of one key the one given first. -/
structure Descending (key : α → κ) (given l : List α) : Prop where
  perm : l.Perm given
  sorted : l.Pairwise (fun a b => key b ≤ key a)
  stable : ∀ k, l.filter (fun a => key a = k) = given.filter (fun a => key a = k)

variable {key : α → κ} {given l l' : List α}

/-! ## There is one such list -/

/-- The head of a list by descending keys has the greatest key. -/
theorem key_le_of_sorted {a : α} (h : (a :: l).Pairwise (fun a b => key b ≤ key a)) :
    ∀ b ∈ a :: l, key b ≤ key a := by
  intro b hb
  by_cases hba : b = a
  · rw [hba]
  · apply List.rel_of_pairwise_cons h
    simpa [hba] using hb

/-- Lists by descending keys that have the same items of every key are the same. -/
theorem eq_of_sorted (h : l.Pairwise (fun a b => key b ≤ key a))
    (h' : l'.Pairwise (fun a b => key b ≤ key a))
    (hkey : ∀ k, l.filter (fun a => key a = k) = l'.filter (fun a => key a = k)) : l = l' := by
  have hmem : ∀ a, a ∈ l ↔ a ∈ l' := by
    intro a
    have hfilter : a ∈ l.filter (fun b => key b = key a) ↔ a ∈ l'.filter (fun b => key b = key a) :=
      by rw [hkey]
    simpa using hfilter
  induction l generalizing l' with
  | nil =>
      by_cases hnil : l' = []
      · rw [hnil]
      · obtain ⟨a, ha⟩ := List.exists_mem_of_ne_nil l' hnil
        exact absurd ((hmem a).mpr ha) (by simp)
  | cons a l ih =>
      cases l' with
      | nil => exact absurd ((hmem a).mp (by simp)) (by simp)
      | cons b l' =>
          -- both heads have the greatest key, and are the first of their key
          have hab : key a = key b := by
            apply le_antisymm
            · exact key_le_of_sorted h' a ((hmem a).mp (by simp))
            · exact key_le_of_sorted h b ((hmem b).mpr (by simp))
          have hheads : a :: l.filter (fun c => key c = key a)
              = b :: l'.filter (fun c => key c = key a) := by
            simpa [hab] using hkey (key a)
          obtain rfl : a = b := (List.cons.inj hheads).1
          have htails : ∀ k, l.filter (fun c => key c = k) = l'.filter (fun c => key c = k) := by
            intro k
            by_cases hk : key a = k
            · rw [← hk]
              exact (List.cons.inj hheads).2
            · simpa [hk] using hkey k
          rw [ih h.of_cons h'.of_cons htails]
          intro c
          have hfilter : c ∈ l.filter (fun d => key d = key c)
              ↔ c ∈ l'.filter (fun d => key d = key c) := by rw [htails]
          simpa using hfilter

theorem Descending.unique (h : Descending key given l) (h' : Descending key given l') : l = l' := by
  apply eq_of_sorted h.sorted h'.sorted
  intro k
  rw [h.stable, h'.stable]

/-! ## Insertion sort finds it -/

/-- An item is inserted in front of those of its own key. -/
theorem filter_orderedInsert (k : κ) (a : α) (l : List α) :
    (l.orderedInsert (fun a b => key b ≤ key a) a).filter (fun c => key c = k)
      = (a :: l).filter (fun c => key c = k) := by
  induction l with
  | nil => simp
  | cons b l ih =>
      by_cases hba : key b ≤ key a
      · rw [List.orderedInsert_cons_of_le (fun a b => key b ≤ key a) l hba]
      · rw [List.orderedInsert_of_not_le (fun a b => key b ≤ key a) l hba, List.filter_cons, ih]
        by_cases hak : key a = k
        · -- the two keys differ, so the item that is passed is not of this key
          have hbk : key b ≠ k := by
            rintro rfl
            exact hba (le_of_eq hak.symm)
          simp [List.filter_cons, hbk]
        · simp [List.filter_cons, hak]

theorem descending_insertionSort (key : α → κ) (given : List α) :
    Descending key given (given.insertionSort (fun a b => key b ≤ key a)) := by
  have : Std.Total (fun a b : α => key b ≤ key a) := ⟨fun a b => le_total (key b) (key a)⟩
  have : IsTrans α (fun a b : α => key b ≤ key a) := ⟨fun _ _ _ hab hbc => le_trans hbc hab⟩
  refine ⟨List.perm_insertionSort _ given, List.pairwise_insertionSort _ given, ?_⟩
  intro k
  induction given with
  | nil => rfl
  | cons a given ih =>
      rw [List.insertionSort_cons, filter_orderedInsert, List.filter_cons, List.filter_cons, ih]

/-! ## Sorted strings -/

/-- `sorted(xs)`. -/
def sorted (xs : List String) : List String := xs.insertionSort (· ≤ ·)

/-- `sorted(set(xs))`. -/
def sorted_set (xs : List String) : List String := sorted xs.dedup

theorem sorted_perm (xs : List String) : (sorted xs).Perm xs := List.perm_insertionSort _ xs

/-- Sorting forgets the order and nothing else. -/
theorem sorted_eq_iff {xs ys : List String} : sorted xs = sorted ys ↔ xs.Perm ys := by
  constructor
  · intro h
    exact (sorted_perm xs).symm.trans (h ▸ sorted_perm ys)
  · intro h
    apply List.Perm.eq_of_pairwise' (List.pairwise_insertionSort _ xs)
      (List.pairwise_insertionSort _ ys)
    exact (sorted_perm xs).trans (h.trans (sorted_perm ys).symm)

theorem mem_sorted_set {xs : List String} {x : String} : x ∈ sorted_set xs ↔ x ∈ xs := by
  rw [sorted_set, (sorted_perm _).mem_iff, List.mem_dedup]

theorem nodup_sorted_set (xs : List String) : (sorted_set xs).Nodup :=
  (sorted_perm _).nodup_iff.mpr (List.nodup_dedup xs)

/-- The union of two sets does not depend on the side. -/
theorem sorted_set_append_comm (xs ys : List String) :
    sorted_set (xs ++ ys) = sorted_set (ys ++ xs) :=
  sorted_eq_iff.mpr (List.Perm.dedup List.perm_append_comm)

end DecisionRuntime
