/-
Splitting a text at a separator, and what the parts are.
-/
import DecisionRuntime.Platform
import Mathlib.Data.List.Basic

set_option autoImplicit false

namespace DecisionRuntime

theorem split_of_not_mem {sep : Char} {cs : List Char} (h : sep ∉ cs) : split sep cs = [cs] := by
  induction cs with
  | nil => rfl
  | cons c cs ih =>
      rw [List.mem_cons, not_or] at h
      rw [split, if_neg (Ne.symm h.1), ih h.2]

/-- The part before the first separator is split off. -/
theorem split_append {sep : Char} {cs : List Char} (h : sep ∉ cs) (rest : List Char) :
    split sep (cs ++ sep :: rest) = cs :: split sep rest := by
  induction cs with
  | nil => rw [List.nil_append, split, if_pos rfl]
  | cons c cs ih =>
      rw [List.mem_cons, not_or] at h
      rw [List.cons_append, split, if_neg (Ne.symm h.1), ih h.2]

theorem split_ne_nil (sep : Char) (cs : List Char) : split sep cs ≠ [] := by
  by_cases h : sep ∈ cs
  · obtain ⟨pre, post, rfl, hpre⟩ := List.eq_append_cons_of_mem h
    rw [split_append hpre]
    exact List.cons_ne_nil _ _
  · rw [split_of_not_mem h]
    exact List.cons_ne_nil _ _

/-- A text of three parts is their join. -/
theorem split_length_three {sep : Char} {cs : List Char} (h : (split sep cs).length = 3) :
    ∃ a b c, cs = a ++ sep :: (b ++ sep :: c) ∧ split sep cs = [a, b, c] := by
  -- the length leaves two separators
  have hcut : ∀ {n : ℕ} {cs : List Char}, (split sep cs).length = n + 2 →
      ∃ a rest, cs = a ++ sep :: rest ∧ sep ∉ a ∧ (split sep rest).length = n + 1 := by
    intro n cs hlength
    by_cases hmem : sep ∈ cs
    · obtain ⟨a, rest, rfl, ha⟩ := List.eq_append_cons_of_mem hmem
      rw [split_append ha, List.length_cons] at hlength
      exact ⟨a, rest, rfl, ha, by omega⟩
    · rw [split_of_not_mem hmem, List.length_singleton] at hlength
      omega
  obtain ⟨a, rest, rfl, ha, hrest⟩ := hcut h
  obtain ⟨b, c, rfl, hb, hc⟩ := hcut hrest
  have hlast : sep ∉ c := by
    intro hmem
    obtain ⟨d, rest, rfl, hd⟩ := List.eq_append_cons_of_mem hmem
    rw [split_append hd, List.length_cons] at hc
    exact split_ne_nil sep rest (List.length_eq_zero_iff.mp (by omega))
  refine ⟨a, b, c, rfl, ?_⟩
  rw [split_append ha, split_append hb, split_of_not_mem hlast]

/-- No part contains the separator. -/
theorem not_mem_of_mem_split {sep : Char} {cs part : List Char} (h : part ∈ split sep cs) :
    sep ∉ part := by
  induction hlength : cs.length using Nat.strongRecOn generalizing cs with
  | ind n ih =>
      by_cases hmem : sep ∈ cs
      · obtain ⟨pre, post, rfl, hpre⟩ := List.eq_append_cons_of_mem hmem
        rw [split_append hpre, List.mem_cons] at h
        cases h with
        | inl h => rwa [h]
        | inr h =>
            apply ih post.length _ h rfl
            rw [← hlength, List.length_append, List.length_cons]
            omega
      · rw [split_of_not_mem hmem, List.mem_singleton] at h
        rwa [h]

/-- Parts without the separator are read back from the text that ends each of them with it. -/
theorem split_lines {sep : Char} {parts : List (List Char)} (h : ∀ part ∈ parts, sep ∉ part) :
    split sep (parts.flatMap fun part => part ++ [sep]) = parts ++ [[]] := by
  induction parts with
  | nil => rfl
  | cons part parts ih =>
      obtain ⟨hpart, hparts⟩ := List.forall_mem_cons.mp h
      rw [List.flatMap_cons, List.append_assoc, List.singleton_append, split_append hpart,
        ih hparts, List.cons_append]

/-- Parts that are joined with a separator, which also stands at the end. -/
theorem intercalate_append_separator {sep : Char} {parts : List (List Char)} (h : parts ≠ []) :
    [sep].intercalate parts ++ [sep] = parts.flatMap fun part => part ++ [sep] := by
  induction parts with
  | nil => exact absurd rfl h
  | cons part parts ih =>
      by_cases hnil : parts = []
      · simp [hnil]
      · rw [List.intercalate_cons_of_ne_nil hnil, List.append_assoc, List.append_assoc, ih hnil,
          List.flatMap_cons, List.append_assoc]

/-- The text before the first separator is read back, and so is what comes after it. -/
theorem first_separator_inj {sep : Char} {as bs cs ds : List Char} (ha : sep ∉ as)
    (hc : sep ∉ cs) (h : as ++ sep :: bs = cs ++ sep :: ds) : as = cs ∧ bs = ds := by
  induction as generalizing cs with
  | nil =>
      cases cs with
      | nil => exact ⟨rfl, (List.cons.inj h).2⟩
      | cons c cs => exact absurd (List.mem_cons.mpr (Or.inl (List.cons.inj h).1)) hc
  | cons a as ih =>
      cases cs with
      | nil => exact absurd (List.mem_cons.mpr (Or.inl (List.cons.inj h).1.symm)) ha
      | cons c cs =>
          obtain ⟨hhead, htail⟩ := List.cons.inj h
          rw [List.mem_cons, not_or] at ha hc
          obtain ⟨hsame, hrest⟩ := ih ha.2 hc.2 htail
          exact ⟨by rw [hhead, hsame], hrest⟩

end DecisionRuntime
