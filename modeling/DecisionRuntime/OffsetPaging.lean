/-
Paging by offset.

A listing answers an offset with the next `limit` items, each shown by a function
that may raise. A client walks it: offset 0, then `limit`, then `2 * limit`, until
a page is empty. When every page is the window of one list, what the client reads
is that list, and nothing else (`walk_iff`); the walk has an end by itself, since
the offset passes the end of the list.
-/
import DecisionRuntime.Exec

set_option autoImplicit false

namespace DecisionRuntime

variable {ε α β : Type}

/-! ## Windows -/

/-- The `limit` items from `offset` on. -/
def window (limit offset : ℕ) (items : List α) : List α := (items.drop offset).take limit

theorem length_window (limit offset : ℕ) (items : List α) :
    (window limit offset items).length = min limit (items.length - offset) := by
  rw [window, List.length_take, List.length_drop]

/-- A window, and what comes after it. -/
theorem window_append_drop (limit offset : ℕ) (items : List α) :
    window limit offset items ++ items.drop (offset + limit) = items.drop offset := by
  rw [window, ← List.drop_drop, List.take_append_drop]

/-- The window of a list that was cut short. -/
theorem window_take (limit offset n : ℕ) (items : List α) :
    window limit offset (items.take n) = (items.drop offset).take (min limit (n - offset)) := by
  rw [window, List.drop_take, List.take_take]

/-- Cutting a list behind the window does not change the window. -/
theorem window_take_cap (limit offset cap : ℕ) (items : List α) :
    window limit offset (items.take (min (limit + offset) cap))
      = window limit offset (items.take cap) := by
  have hcut : min limit (min (limit + offset) cap - offset) = min limit (cap - offset) := by
    omega
  rw [window_take, window_take, hcut]

/-! ## Walks -/

/-- A client that fetches one page after the other from `offset` on, until one is empty, and what
it has read by then. -/
inductive Walk (fetch : ℕ → Except ε (List β)) (limit : ℕ) : ℕ → List β → Prop
  | stop {offset : ℕ} (fetched : fetch offset = .ok []) : Walk fetch limit offset []
  | next {offset : ℕ} {page rest : List β} (fetched : fetch offset = .ok page) (more : page ≠ [])
      (walk : Walk fetch limit (offset + limit) rest) : Walk fetch limit offset (page ++ rest)

section Walk

variable {fetch : ℕ → Except ε (List β)} {limit : ℕ} {f : α → Except ε β} {items : List α}
  {offset : ℕ} {read : List β}

theorem Walk.shows (hlimit : 1 ≤ limit)
    (hfetch : ∀ offset, fetch offset = (window limit offset items).mapM f)
    (h : Walk fetch limit offset read) : (items.drop offset).mapM f = .ok read := by
  induction h with
  | @stop offset fetched =>
      -- an empty page is past the end
      rw [hfetch, except_mapM_eq_ok, List.forall₂_nil_right_iff] at fetched
      have hlength := length_window limit offset items
      rw [fetched, List.length_nil] at hlength
      have hpast : items.drop offset = [] := by
        apply List.drop_eq_nil_of_le
        omega
      rw [hpast]
      rfl
  | @next offset page rest fetched more walk ih =>
      rw [hfetch, except_mapM_eq_ok] at fetched
      rw [except_mapM_eq_ok] at ih ⊢
      rw [← window_append_drop limit offset items]
      exact List.rel_append fetched ih

theorem walk_of_shows (hlimit : 1 ≤ limit)
    (hfetch : ∀ offset, fetch offset = (window limit offset items).mapM f) :
    ∀ (offset : ℕ) (read : List β), (items.drop offset).mapM f = .ok read →
      Walk fetch limit offset read := by
  intro offset
  -- the induction is on what lies between the offset and the end
  induction hleft : items.length - offset using Nat.strongRecOn generalizing offset with
  | ind left ih =>
      intro read hread
      rw [except_mapM_eq_ok] at hread
      by_cases hpast : items.length ≤ offset
      · have hnil : items.drop offset = [] := List.drop_eq_nil_of_le hpast
        rw [hnil, List.forall₂_nil_left_iff] at hread
        rw [hread]
        apply Walk.stop
        rw [hfetch, window, hnil, List.take_nil]
        rfl
      · have hpage : List.Forall₂ (fun a b => f a = .ok b) (window limit offset items)
            (read.take limit) := List.forall₂_take limit hread
        have hrest : List.Forall₂ (fun a b => f a = .ok b) (items.drop (offset + limit))
            (read.drop limit) := by
          rw [← List.drop_drop]
          exact List.forall₂_drop limit hread
        rw [← List.take_append_drop limit read]
        apply Walk.next
        · rw [hfetch, except_mapM_eq_ok]
          exact hpage
        · intro hnil
          have hlength := hpage.length_eq
          rw [hnil, length_window, List.length_nil] at hlength
          omega
        · apply ih (items.length - (offset + limit)) (by omega) (offset + limit) rfl
          rw [except_mapM_eq_ok]
          exact hrest

/-- A client that walks the windows of a list reads the list. -/
theorem walk_iff (hlimit : 1 ≤ limit)
    (hfetch : ∀ offset, fetch offset = (window limit offset items).mapM f) :
    Walk fetch limit offset read ↔ (items.drop offset).mapM f = .ok read :=
  ⟨Walk.shows hlimit hfetch, walk_of_shows hlimit hfetch offset read⟩

end Walk

end DecisionRuntime
