/-
Runs of a component that is called again and again, with the whole history kept.

A component is a function from a call to a computation over its state. A run is
the list of calls it received; each becomes an `Entry` with the state before, the
answer and the state after, and a property of runs is a property of the list of
entries. A call that raises is an entry like any other: the run goes on from the
state it left.

`entries_invariant` is the induction principle of the development: what holds of
the empty history and survives one more entry holds of every history. The prefix
of calls already made is in its hypothesis, so an assumption on the whole list of
calls (that what it drew is fresh) is available at every step.

Two components are compared by `Run.simulates`: where every call of the one is, seen
through `f`, a call of the other, it is enough to follow the text of the two.
-/
import DecisionRuntime.Exec
import Mathlib.Data.List.Induction
import Mathlib.Data.List.Nodup
import Mathlib.Data.Set.Function

set_option autoImplicit false

namespace DecisionRuntime

/-- One call of a run. -/
structure Entry (ι ε σ α : Type) where
  before : σ
  call : ι
  answer : Except ε α
  after : σ

namespace Entry

variable {ι ε σ α : Type}

/-- The call ended normally with `a`. -/
def Returned (t : Entry ι ε σ α) (a : α) : Prop := t.answer = .ok a

/-- The call ended normally. -/
def Succeeded (t : Entry ι ε σ α) : Prop := ∃ a, t.Returned a

/-- The call raised. -/
def Raised (t : Entry ι ε σ α) : Prop := ∃ e, t.answer = .error e

instance (t : Entry ι ε σ α) : Decidable t.Succeeded :=
  match h : t.answer with
  | .ok a => .isTrue ⟨a, h⟩
  | .error e => .isFalse (fun ⟨a, ha⟩ => by simp [Returned, h] at ha)

end Entry

namespace Run

variable {ι ε σ α : Type} (handle : ι → Exec ε σ α)

/-- The entry of one call made in `s`. -/
def entry (s : σ) (c : ι) : Entry ι ε σ α := ⟨s, c, (handle c s).1, (handle c s).2⟩

/-- The state after the calls. -/
def final (s : σ) (cs : List ι) : σ := cs.foldl (fun s c => (handle c s).2) s

/-- The entries of the calls. -/
def entries : σ → List ι → List (Entry ι ε σ α)
  | _, [] => []
  | s, c :: cs => entry handle s c :: entries (handle c s).2 cs

variable {handle}

@[simp] theorem entry_call (s : σ) (c : ι) : (entry handle s c).call = c := rfl

@[simp] theorem entry_before (s : σ) (c : ι) : (entry handle s c).before = s := rfl

@[simp] theorem final_nil (s : σ) : final handle s [] = s := rfl

@[simp] theorem entries_nil (s : σ) : entries handle s [] = [] := rfl

/-- The second call is made in the state the first one leaves. -/
theorem second_mem (s : σ) (a b : ι) :
    entry handle (handle a s).2 b ∈ entries handle s [a, b] :=
  List.mem_cons_of_mem _ List.mem_cons_self

/-- It is the last of two. -/
theorem second_after (s : σ) (a b : ι) :
    ∃ t ∈ entries handle s [a, b], t.after = final handle s [a, b] :=
  ⟨_, second_mem s a b, rfl⟩

theorem entries_three (s : σ) (a b c : ι) : entries handle s [a, b, c] =
    [entry handle s a, entry handle (entry handle s a).after b,
      entry handle (entry handle (entry handle s a).after b).after c] := rfl

theorem final_append (s : σ) (cs ds : List ι) :
    final handle s (cs ++ ds) = final handle (final handle s cs) ds :=
  List.foldl_append

theorem final_concat (s : σ) (cs : List ι) (c : ι) :
    final handle s (cs ++ [c]) = (handle c (final handle s cs)).2 := by
  rw [final_append]
  rfl

theorem entries_append (s : σ) (cs ds : List ι) :
    entries handle s (cs ++ ds) = entries handle s cs ++ entries handle (final handle s cs) ds := by
  induction cs generalizing s with
  | nil => rfl
  | cons c cs ih =>
      rw [List.cons_append, entries, entries, ih]
      rfl

theorem entries_concat (s : σ) (cs : List ι) (c : ι) :
    entries handle s (cs ++ [c])
      = entries handle s cs ++ [entry handle (final handle s cs) c] := by
  rw [entries_append]
  rfl

theorem map_call_entries (s : σ) (cs : List ι) : (entries handle s cs).map Entry.call = cs := by
  induction cs generalizing s with
  | nil => rfl
  | cons c cs ih =>
      rw [entries, List.map_cons, ih]
      rfl

theorem call_mem {s : σ} {cs : List ι} {t : Entry ι ε σ α} (ht : t ∈ entries handle s cs) :
    t.call ∈ cs := by
  have hmem : t.call ∈ (entries handle s cs).map Entry.call := List.mem_map_of_mem ht
  rwa [map_call_entries] at hmem

/-- An entry of a run is one call of it, made in the state the calls before it left. -/
theorem mem_entries {s : σ} {cs : List ι} {t : Entry ι ε σ α} :
    t ∈ entries handle s cs ↔
      ∃ pre c post, cs = pre ++ c :: post ∧ t = entry handle (final handle s pre) c := by
  induction cs generalizing s with
  | nil => simp
  | cons c cs ih =>
      rw [entries, List.mem_cons, ih]
      constructor
      · rintro (rfl | ⟨pre, d, post, rfl, rfl⟩)
        · exact ⟨[], c, cs, rfl, rfl⟩
        · exact ⟨c :: pre, d, post, rfl, rfl⟩
      · rintro ⟨pre, d, post, hcs, rfl⟩
        rcases pre with _ | ⟨c', pre⟩
        · obtain ⟨rfl, rfl⟩ : c = d ∧ cs = post := by simpa using hcs
          exact Or.inl rfl
        · obtain ⟨rfl, rfl⟩ : c = c' ∧ cs = pre ++ d :: post := by simpa using hcs
          exact Or.inr ⟨pre, d, post, rfl, rfl⟩

/-- The same, without the calls: entries of a prefix come before. -/
theorem entries_split {s : σ} {cs : List ι} {pre post : List (Entry ι ε σ α)}
    {t : Entry ι ε σ α} (h : entries handle s cs = pre ++ t :: post) :
    ∃ as c bs, cs = as ++ c :: bs ∧ pre = entries handle s as
      ∧ t = entry handle (final handle s as) c
      ∧ post = entries handle t.after bs := by
  induction cs generalizing s pre with
  | nil => simp at h
  | cons c cs ih =>
      rw [entries] at h
      rcases pre with _ | ⟨t', pre⟩
      · obtain ⟨rfl, rfl⟩ : entry handle s c = t ∧ entries handle (handle c s).2 cs = post := by
          simpa using h
        exact ⟨[], c, cs, rfl, rfl, rfl, rfl⟩
      · obtain ⟨rfl, hrest⟩ : entry handle s c = t'
            ∧ entries handle (handle c s).2 cs = pre ++ t :: post := by
          simpa using h
        obtain ⟨as, d, bs, rfl, rfl, rfl, rfl⟩ := ih hrest
        exact ⟨c :: as, d, bs, rfl, rfl, rfl, rfl⟩

/-- When the calls of a run draw no value twice, what one call draws no call before it drew. -/
theorem fresh_of_nodup {υ : Type} (draws : ι → List υ) {s : σ} {pre post : List ι} {c : ι}
    (h : ((pre ++ c :: post).flatMap draws).Nodup) {u : υ} (hu : u ∈ draws c) :
    ∀ t ∈ entries handle s pre, u ∉ draws t.call := by
  intro t ht hut
  -- the draws of the calls before and those of the others are disjoint
  rw [List.flatMap_append, List.nodup_append] at h
  refine h.2.2 u ?_ u ?_ rfl
  · exact List.mem_flatMap.mpr ⟨t.call, call_mem ht, hut⟩
  · rw [List.flatMap_cons]
    exact List.mem_append_left _ hu

/-- What the calls of a run name has different images, when these are all different. -/
theorem injOn_of_nodup {υ γ : Type} (names : ι → List υ) (g : υ → γ) {cs : List ι}
    (h : ((cs.flatMap names).map g).Nodup) : Set.InjOn g {m | ∃ c ∈ cs, m ∈ names c} := by
  rintro m ⟨c, hc, hm⟩ n ⟨d, hd, hn⟩ heq
  have hmem : ∀ {c x}, c ∈ cs → x ∈ names c → x ∈ cs.flatMap names := by
    intro c x hc hx
    exact List.mem_flatMap.mpr ⟨c, hc, hx⟩
  exact List.inj_on_of_nodup_map h (hmem hc hm) (hmem hd hn) heq

/-- When no value is drawn twice, calls that draw the same one are equal. -/
theorem call_unique {υ : Type} (draws : ι → List υ) {cs : List ι} (h : (cs.flatMap draws).Nodup)
    {c d : ι} (hc : c ∈ cs) (hd : d ∈ cs) {x : υ} (hxc : x ∈ draws c) (hxd : x ∈ draws d) :
    c = d := by
  induction cs with
  | nil => simp at hc
  | cons first cs ih =>
      rw [List.flatMap_cons, List.nodup_append] at h
      -- what the first call draws, none of the others does
      have hfirst : ∀ e ∈ cs, x ∈ draws first → x ∉ draws e := fun e he hx hxe =>
        h.2.2 x hx x (List.mem_flatMap.mpr ⟨e, he, hxe⟩) rfl
      rcases List.mem_cons.mp hc with rfl | hc' <;> rcases List.mem_cons.mp hd with rfl | hd'
      · rfl
      · exact absurd hxd (hfirst d hd' hxc)
      · exact absurd hxc (hfirst c hc' hxd)
      · exact ih h.2.1 hc' hd'

/-- When the calls of a run draw no value twice, a value tells its call. -/
theorem entry_unique {υ : Type} (draws : ι → List υ) {s : σ} {cs : List ι}
    (h : (cs.flatMap draws).Nodup) {t u : Entry ι ε σ α} (ht : t ∈ entries handle s cs)
    (hu : u ∈ entries handle s cs) {x : υ} (hxt : x ∈ draws t.call) (hxu : x ∈ draws u.call) :
    t = u := by
  obtain ⟨pre, c, post, hcs, rfl⟩ := mem_entries.mp ht
  obtain ⟨pre', c', post', hcs', rfl⟩ := mem_entries.mp hu
  -- the two calls are one, or one of them is made before the other and drew `x` first
  have hsplit : pre ++ c :: post = pre' ++ c' :: post' := hcs.symm.trans hcs'
  rcases List.append_eq_append_iff.mp hsplit with ⟨mid, hpre, hrest⟩ | ⟨mid, hpre, hrest⟩
  · rcases mid with _ | ⟨d, mid⟩
    · obtain ⟨rfl, -⟩ := List.cons_eq_cons.mp hrest
      rw [hpre, List.append_nil]
    · -- the call of `t` comes before that of `u`
      obtain ⟨rfl, -⟩ := List.cons_eq_cons.mp hrest
      rw [hcs'] at h
      exact absurd hxt (fresh_of_nodup draws h hxu _ (mem_entries.mpr ⟨pre, c, mid, hpre, rfl⟩))
  · rcases mid with _ | ⟨d, mid⟩
    · obtain ⟨rfl, -⟩ := List.cons_eq_cons.mp hrest
      rw [hpre, List.append_nil]
    · obtain ⟨rfl, -⟩ := List.cons_eq_cons.mp hrest
      rw [hcs] at h
      exact absurd hxu (fresh_of_nodup draws h hxt _ (mem_entries.mpr ⟨pre', c', mid, hpre, rfl⟩))

/-- **Induction over a run.** What holds of the empty history and survives one more call holds
of the whole history and the state at its end. -/
theorem entries_invariant {s : σ} {cs : List ι} (H : List (Entry ι ε σ α) → σ → Prop)
    (hnil : H [] s)
    (hstep : ∀ pre c post, cs = pre ++ c :: post →
      H (entries handle s pre) (final handle s pre) →
      H (entries handle s pre ++ [entry handle (final handle s pre) c])
        (handle c (final handle s pre)).2) :
    H (entries handle s cs) (final handle s cs) := by
  -- the prefixes of `cs`, from the left
  have key : ∀ pre post, cs = pre ++ post → H (entries handle s pre) (final handle s pre) := by
    intro pre
    induction pre using List.reverseRecOn with
    | nil =>
        intro post _
        exact hnil
    | append_singleton pre c ih =>
        intro post hcs
        have hcs' : cs = pre ++ c :: post := by simpa using hcs
        rw [entries_concat, final_concat]
        exact hstep pre c post hcs' (ih (c :: post) hcs')
  exact key cs [] (by simp)

/-- The special case of an invariant of the state alone. -/
theorem invariant {s : σ} {cs : List ι} {I : σ → Prop} (hs : I s)
    (hstep : ∀ c ∈ cs, Exec.Preserves I (handle c)) : I (final handle s cs) := by
  let H : List (Entry ι ε σ α) → σ → Prop := fun _ s' => I s'
  have h : H (entries handle s cs) (final handle s cs) := by
    refine entries_invariant H hs ?_
    intro pre c post hcs hI
    exact hstep c (by simp [hcs]) _ hI
  exact h

/-- An invariant holds before and after every entry. -/
theorem invariant_entry {s : σ} {cs : List ι} {I : σ → Prop} (hs : I s)
    (hstep : ∀ c ∈ cs, Exec.Preserves I (handle c)) {t : Entry ι ε σ α}
    (ht : t ∈ entries handle s cs) : I t.before ∧ I t.after := by
  obtain ⟨pre, c, post, rfl, rfl⟩ := mem_entries.mp ht
  have hpre : I (final handle s pre) := invariant hs (fun d hd => hstep d (by simp [hd]))
  exact ⟨hpre, hstep c (by simp) _ hpre⟩

/-- What every entry of a run keeps holds after each of them. -/
theorem invariant_after {s : σ} {cs : List ι} {I : σ → Prop} (hs : I s)
    (hstep : ∀ t ∈ entries handle s cs, I t.before → I t.after) :
    ∀ t ∈ entries handle s cs, I t.after := by
  induction cs generalizing s with
  | nil => simp
  | cons c cs ih =>
      rw [entries, List.forall_mem_cons] at hstep ⊢
      have hnext : I (entry handle s c).after := hstep.1 hs
      exact ⟨hnext, ih hnext hstep.2⟩

/-- When, wherever an invariant holds, a call is good exactly when it is fine, and a good call keeps
the invariant, all calls of a run are good exactly when all are fine. -/
theorem forall_iff {s : σ} {cs : List ι} {I : σ → Prop} {Good Fine : Entry ι ε σ α → Prop}
    (hs : I s) (hiff : ∀ c s, I s → (Good (entry handle s c) ↔ Fine (entry handle s c)))
    (hkeep : ∀ c s, I s → Good (entry handle s c) → I (handle c s).2) :
    (∀ t ∈ entries handle s cs, Good t) ↔ ∀ t ∈ entries handle s cs, Fine t := by
  induction cs generalizing s with
  | nil => simp
  | cons c cs ih =>
      rw [entries, List.forall_mem_cons, List.forall_mem_cons, ← hiff c s hs]
      apply and_congr_right
      exact fun hgood => ih (hkeep c s hs hgood)

/-! ## Two runs of the same calls -/

/-- When related states answer a call alike exactly if the call is fine, and are related again
after it, two runs answer alike exactly if every call is fine, and end in related states. -/
theorem answers_eq_iff {τ : Type} {handle' : ι → Exec ε τ α} {R : σ → τ → Prop} {Fine : ι → Prop}
    (hstep : ∀ c s t, R s t → ((handle c s).1 = (handle' c t).1 ↔ Fine c)
      ∧ R (handle c s).2 (handle' c t).2) {s : σ} {t : τ} (h : R s t) (cs : List ι) :
    ((entries handle s cs).map Entry.answer = (entries handle' t cs).map Entry.answer ↔
        ∀ c ∈ cs, Fine c)
      ∧ R (final handle s cs) (final handle' t cs) := by
  induction cs generalizing s t with
  | nil => exact ⟨by simp, h⟩
  | cons c cs ih =>
      obtain ⟨hanswer, hnext⟩ := hstep c s t h
      obtain ⟨hrest, hend⟩ := ih hnext
      refine ⟨?_, hend⟩
      rw [entries, entries, List.map_cons, List.map_cons, List.cons.injEq, hrest,
        List.forall_mem_cons]
      exact and_congr_left' hanswer

section Simulates

variable {κ τ : Type} {handle' : κ → Exec ε τ α} {f : σ → τ} {g : ι → κ}

/-- When every call simulates a call, a run does. -/
theorem simulates (h : ∀ c, Exec.Simulates f (handle c) (handle' (g c))) (s : σ) (cs : List ι) :
    (entries handle s cs).map Entry.answer
        = (entries handle' (f s) (cs.map g)).map Entry.answer
      ∧ f (final handle s cs) = final handle' (f s) (cs.map g) := by
  induction cs generalizing s with
  | nil => exact ⟨rfl, rfl⟩
  | cons c cs ih =>
      obtain ⟨hanswer, hnext⟩ := h c s
      obtain ⟨hanswers, hend⟩ := ih (handle c s).2
      rw [hnext] at hanswers hend
      refine ⟨?_, hend⟩
      rw [entries, List.map_cons, hanswers, List.map_cons, entries, List.map_cons]
      exact congrArg (· :: _) hanswer

end Simulates

end Run

end DecisionRuntime
