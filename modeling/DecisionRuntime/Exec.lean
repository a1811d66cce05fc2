/-
Computations that may raise and that **keep the state they had when they raised**.

A Python method that assigns to a dictionary and then raises has made the
assignment: the caller that catches the exception sees the new dictionary. The
carrier here is therefore `σ → Except ε α × σ`, with the state outside the
`Except`, and a statement "the call that raises changes nothing" is a theorem
about a function and never a consequence of the types.

What a computation does to a state is said in two ways:

* `Keeps f x` -- whatever the outcome, the part of the state that `f` reads is
  unchanged (the frame rules, one for each way of building a computation);
* `Preserves I x` -- whatever the outcome, the invariant `I` survives.

`Simulates f x y` compares two computations: seen through `f`, the state of `x`
and its outcome are those of `y`. `Oblivious x` compares two runs of one: the
outcome of `x` does not depend on the state.
-/
import Mathlib.Data.List.Forall2
import Mathlib.Logic.Basic

set_option autoImplicit false

namespace DecisionRuntime

theorem except_ok_bind {ε α β : Type} (a : α) (f : α → Except ε β) : (.ok a >>= f) = f a := rfl

/-- A pure computation returns one pair. -/
theorem except_pair_unique {ε α β : Type} {x : Except ε (α × β)} {a a' : α} {b b' : β}
    (h : x = .ok (a, b)) (h' : x = .ok (a', b')) : a = a' ∧ b = b' :=
  Prod.mk.inj (Except.ok.inj (h.symm.trans h'))

/-- A pure computation in two halves returns exactly when both do. -/
theorem except_bind_eq_ok {ε α β : Type} {x : Except ε α} {f : α → Except ε β} {b : β} :
    (x >>= f) = .ok b ↔ ∃ a, x = .ok a ∧ f a = .ok b := by
  rcases x with e | a
  · constructor
    · intro h
      cases h
    · rintro ⟨a, h, -⟩
      cases h
  · constructor
    · intro h
      exact ⟨a, rfl, h⟩
    · rintro ⟨a', ha, h⟩
      rwa [← Except.ok.inj ha] at h

/-- Computations that are the same under a function raise the same, and return what it takes to the
same. -/
theorem except_of_map_eq {ε α β γ : Type} {x : Except ε α} {y : Except ε β} {f : α → γ} {g : β → γ}
    (h : x.map f = y.map g) :
    (∀ e, y = .error e → x = .error e) ∧ ∀ b, y = .ok b → ∃ a, x = .ok a ∧ f a = g b := by
  rcases x with e | a
  · rcases y with e' | b
    · have heq : e = e' := Except.error.inj h
      refine ⟨?_, ?_⟩
      · intro e'' he
        rw [heq, Except.error.inj he]
      · intro b hb
        cases hb
    · cases h
  · rcases y with e' | b
    · cases h
    · have hab : f a = g b := Except.ok.inj h
      refine ⟨?_, ?_⟩
      · intro e he
        cases he
      · intro b' hb
        rw [← Except.ok.inj hb]
        exact ⟨a, rfl, hab⟩

/-- A computation of whose value something is known has returned it. -/
theorem except_of_toOption_map {ε α β : Type} {x : Except ε α} {f : α → β} {b : β}
    (h : x.toOption.map f = some b) : ∃ a, x = .ok a ∧ f a = b := by
  rcases x with e | a
  · cases h
  · exact ⟨a, rfl, Option.some.inj h⟩

theorem except_of_isSome {ε α : Type} {x : Except ε α} (h : x.toOption.isSome = true) :
    ∃ a, x = .ok a := by
  obtain ⟨a, ha⟩ := Option.isSome_iff_exists.mp h
  obtain ⟨a, hx, -⟩ := except_of_toOption_map (f := id) (b := a) (by simpa using ha)
  exact ⟨a, hx⟩

/-- A computation that returns can be named by its value. -/
theorem except_eq_ok_getD {ε α : Type} {x : Except ε α} (h : x.toOption.isSome = true) (b : α) :
    x = .ok (x.toOption.getD b) := by
  obtain ⟨a, hx⟩ := except_of_isSome h
  rw [hx]
  rfl

/-- A loop returns exactly when every round of it does. -/
theorem except_forM_eq_ok {ε α : Type} {f : α → Except ε Unit} {as : List α} :
    as.forM f = .ok () ↔ ∀ a ∈ as, f a = .ok () := by
  induction as with
  | nil => exact ⟨fun _ _ => nofun, fun _ => rfl⟩
  | cons a as ih =>
      rw [List.forall_mem_cons, ← ih]
      constructor
      · intro h
        obtain ⟨_, ha, has⟩ := except_bind_eq_ok.mp h
        exact ⟨ha, has⟩
      · rintro ⟨ha, has⟩
        exact except_bind_eq_ok.mpr ⟨(), ha, has⟩

/-- A loop raises what the first round that raises does. -/
theorem except_forM_eq_error {ε α : Type} {f : α → Except ε Unit} {as : List α} {e : ε} :
    as.forM f = .error e ↔ ∃ pre a post, as = pre ++ a :: post
      ∧ (∀ x ∈ pre, f x = .ok ()) ∧ f a = .error e := by
  induction as with
  | nil =>
      constructor
      · intro h
        cases h
      · rintro ⟨pre, a, post, hnil, -⟩
        simp at hnil
  | cons first as ih =>
      have hloop : (first :: as).forM f = (f first >>= fun _ => as.forM f) := rfl
      rw [hloop]
      cases hfirst : f first with
      | error e' =>
          constructor
          · intro h
            have he : e' = e := Except.error.inj h
            rw [he] at hfirst
            exact ⟨[], first, as, rfl, fun _ hx => absurd hx List.not_mem_nil, hfirst⟩
          · rintro ⟨pre, a, post, hsplit, hpre, hraised⟩
            cases pre with
            | nil =>
                rw [← (List.cons_eq_cons.mp hsplit).1, hfirst] at hraised
                exact hraised
            | cons x pre =>
                rw [← (List.cons_eq_cons.mp hsplit).1] at hpre
                have hok := hpre first List.mem_cons_self
                rw [hfirst] at hok
                cases hok
      | ok u =>
          rw [except_ok_bind, ih]
          constructor
          · rintro ⟨pre, a, post, hsplit, hpre, hraised⟩
            refine ⟨first :: pre, a, post, by rw [hsplit, List.cons_append], ?_, hraised⟩
            exact List.forall_mem_cons.mpr ⟨hfirst, hpre⟩
          · rintro ⟨pre, a, post, hsplit, hpre, hraised⟩
            -- the first round returned, so it is not the one that raised
            cases pre with
            | nil =>
                rw [← (List.cons_eq_cons.mp hsplit).1, hfirst] at hraised
                cases hraised
            | cons x pre =>
                exact ⟨pre, a, post, (List.cons_eq_cons.mp hsplit).2,
                  (List.forall_mem_cons.mp hpre).2, hraised⟩

section MapM

variable {ε α β : Type} {f : α → Except ε β} {as : List α}

/-- A loop that collects results returns exactly when every round does. -/
theorem except_mapM_returns_iff :
    (∃ bs, as.mapM f = .ok bs) ↔ ∀ a ∈ as, ∃ b, f a = .ok b := by
  induction as with
  | nil => exact ⟨fun _ _ => nofun, fun _ => ⟨[], rfl⟩⟩
  | cons a as ih =>
      rw [List.forall_mem_cons, ← ih]
      simp only [List.mapM_cons, except_bind_eq_ok]
      constructor
      · rintro ⟨_, b, hb, bs, hbs, -⟩
        exact ⟨⟨b, hb⟩, bs, hbs⟩
      · rintro ⟨⟨b, hb⟩, bs, hbs⟩
        exact ⟨b :: bs, b, hb, bs, hbs, rfl⟩

/-- It returns the values of its rounds, in order. -/
theorem except_mapM_eq_ok {bs : List β} :
    as.mapM f = .ok bs ↔ List.Forall₂ (fun a b => f a = .ok b) as bs := by
  induction as generalizing bs with
  | nil =>
      rw [List.forall₂_nil_left_iff]
      exact ⟨fun h => (Except.ok.inj h).symm, fun h => h ▸ rfl⟩
  | cons a as ih =>
      rw [List.forall₂_cons_left_iff, List.mapM_cons, except_bind_eq_ok]
      simp only [except_bind_eq_ok, ih]
      constructor
      · rintro ⟨b, hb, rest, hrest, hbs⟩
        exact ⟨b, rest, hb, hrest, (Except.ok.inj hbs).symm⟩
      · rintro ⟨b, rest, hb, hrest, rfl⟩
        exact ⟨b, hb, rest, hrest, rfl⟩

/-- It collects what the rounds return. -/
theorem except_mapM_eq_map {g : α → β} (h : ∀ a ∈ as, f a = .ok (g a)) :
    as.mapM f = .ok (as.map g) := by
  induction as with
  | nil => rfl
  | cons a as ih =>
      rw [List.forall_mem_cons] at h
      rw [List.mapM_cons, h.1, ih h.2]
      rfl

theorem except_mapM_congr {g : α → Except ε β} (h : ∀ a ∈ as, f a = g a) :
    as.mapM f = as.mapM g := by
  induction as with
  | nil => rfl
  | cons a as ih =>
      rw [List.forall_mem_cons] at h
      rw [List.mapM_cons, List.mapM_cons, h.1, ih h.2]

/-- What it returns are the values of its rounds. -/
theorem except_mapM_mem {bs : List β} (h : as.mapM f = .ok bs) :
    (∀ b ∈ bs, ∃ a ∈ as, f a = .ok b) ∧ ∀ a ∈ as, ∃ b ∈ bs, f a = .ok b := by
  induction as generalizing bs with
  | nil =>
      obtain rfl : [] = bs := Except.ok.inj h
      exact ⟨fun _ hb => absurd hb (by simp), fun _ ha => absurd ha (by simp)⟩
  | cons a as ih =>
      rw [List.mapM_cons, except_bind_eq_ok] at h
      obtain ⟨b, hb, h⟩ := h
      obtain ⟨rest, hrest, h⟩ := except_bind_eq_ok.mp h
      obtain rfl : b :: rest = bs := Except.ok.inj h
      obtain ⟨hfrom, hto⟩ := ih hrest
      constructor
      · intro b' hb'
        rcases List.mem_cons.mp hb' with rfl | hb'
        · exact ⟨a, by simp, hb⟩
        · obtain ⟨a', ha', hab⟩ := hfrom b' hb'
          exact ⟨a', List.mem_cons_of_mem a ha', hab⟩
      · intro a' ha'
        rcases List.mem_cons.mp ha' with rfl | ha'
        · exact ⟨b, by simp, hb⟩
        · obtain ⟨b', hb', hab⟩ := hto a' ha'
          exact ⟨b', List.mem_cons_of_mem b hb', hab⟩

/-- It raises what the first round that raises does. -/
theorem except_mapM_eq_error {e : ε} :
    as.mapM f = .error e ↔ ∃ pre a post, as = pre ++ a :: post
      ∧ (∀ x ∈ pre, ∃ b, f x = .ok b) ∧ f a = .error e := by
  induction as with
  | nil =>
      constructor
      · exact nofun
      · rintro ⟨pre, a, post, hnil, -⟩
        simp at hnil
  | cons first as ih =>
      rw [List.mapM_cons]
      rcases hfirst : f first with e' | b
      · -- the first round raises, and there is no other
        constructor
        · intro h
          obtain rfl : e' = e := Except.error.inj h
          exact ⟨[], first, as, rfl, nofun, hfirst⟩
        · rintro ⟨pre, a, post, hsplit, hpre, hraised⟩
          rcases pre with _ | ⟨x, pre⟩
          · obtain ⟨rfl, -⟩ := List.cons_eq_cons.mp hsplit
            obtain rfl := Except.error.inj (hfirst.symm.trans hraised)
            rfl
          · obtain ⟨rfl, -⟩ := List.cons_eq_cons.mp hsplit
            obtain ⟨b, hb⟩ := hpre first List.mem_cons_self
            cases hfirst.symm.trans hb
      · have hrest : ((Except.ok b >>= fun b => as.mapM f >>= fun bs => pure (b :: bs))
            = .error e) ↔ as.mapM f = .error e := by
          show ((as.mapM f >>= _) = _) ↔ _
          rcases as.mapM f with e' | bs
          · exact Iff.rfl
          · exact ⟨nofun, nofun⟩
        rw [hrest, ih]
        constructor
        · rintro ⟨pre, a, post, rfl, hpre, hraised⟩
          refine ⟨first :: pre, a, post, rfl, ?_, hraised⟩
          exact List.forall_mem_cons.mpr ⟨⟨b, hfirst⟩, hpre⟩
        · rintro ⟨pre, a, post, hsplit, hpre, hraised⟩
          rcases pre with _ | ⟨x, pre⟩
          · obtain ⟨rfl, -⟩ := List.cons_eq_cons.mp hsplit
            cases hfirst.symm.trans hraised
          · obtain ⟨rfl, rfl⟩ := List.cons_eq_cons.mp hsplit
            exact ⟨pre, a, post, rfl, (List.forall_mem_cons.mp hpre).2, hraised⟩

end MapM

/-- A computation over the state `σ` that returns an `α` or raises an `ε`. -/
def Exec (ε σ α : Type) : Type := σ → Except ε α × σ

namespace Exec

variable {ε σ τ α β : Type}

/-! ## The operations -/

/-- Run `x`, and `f` on its value; a raise skips `f` and keeps the state. -/
protected def bind (x : Exec ε σ α) (f : α → Exec ε σ β) : Exec ε σ β := fun s =>
  match x s with
  | (.ok a, s') => f a s'
  | (.error e, s') => (.error e, s')

instance : Monad (Exec ε σ) where
  pure a := fun s => (.ok a, s)
  bind := Exec.bind

/-- Raise `e`. -/
def raise (e : ε) : Exec ε σ α := fun s => (.error e, s)

/-- Read the state. -/
def get : Exec ε σ σ := fun s => (.ok s, s)

/-- Update the state. -/
def modify (f : σ → σ) : Exec ε σ Unit := fun s => (.ok (), f s)

/-- A pure result that may already be an error. -/
def lift (r : Except ε α) : Exec ε σ α := fun s => (r, s)

/-- `try: x  except: h`, where the handler sees the state the raise left. -/
def tryExcept (x : Exec ε σ α) (h : ε → Exec ε σ α) : Exec ε σ α := fun s =>
  match x s with
  | (.ok a, s') => (.ok a, s')
  | (.error e, s') => h e s'

/-- A computation over a component `τ` of the state. -/
def zoom (view : σ → τ) (put : τ → σ → σ) (x : Exec ε τ α) : Exec ε σ α := fun s =>
  ((x (view s)).1, put (x (view s)).2 s)

/-! ## What each operation does to a state -/

section Run

variable (x : Exec ε σ α) (f : α → Exec ε σ β) (s s' : σ)

@[simp] theorem run_pure (a : α) : (pure a : Exec ε σ α) s = (.ok a, s) := rfl

@[simp] theorem run_lift (r : Except ε α) : (lift r : Exec ε σ α) s = (r, s) := rfl

variable {x s s'}

theorem run_bind_ok {a : α} (h : x s = (.ok a, s')) : (x >>= f) s = f a s' := by
  show Exec.bind x f s = f a s'
  rw [Exec.bind, h]

theorem run_bind_error {e : ε} (h : x s = (.error e, s')) : (x >>= f) s = (.error e, s') := by
  show Exec.bind x f s = (.error e, s')
  rw [Exec.bind, h]

theorem run_tryExcept_ok {h : ε → Exec ε σ α} {a : α} (hx : x s = (.ok a, s')) :
    tryExcept x h s = (.ok a, s') := by
  rw [tryExcept, hx]

theorem run_tryExcept_error {h : ε → Exec ε σ α} {e : ε} (hx : x s = (.error e, s')) :
    tryExcept x h s = h e s' := by
  rw [tryExcept, hx]

@[simp] theorem run_get_bind (g : σ → Exec ε σ β) : ((get : Exec ε σ σ) >>= g) s = g s s := rfl

@[simp] theorem run_modify_bind (u : σ → σ) (g : Unit → Exec ε σ β) :
    ((modify u : Exec ε σ Unit) >>= g) s = g () (u s) := rfl

@[simp] theorem run_lift_bind_ok (a : α) :
    ((lift (.ok a) : Exec ε σ α) >>= f) s = f a s := rfl

@[simp] theorem run_map (g : α → β) : (g <$> x) s = ((x s).1.map g, (x s).2) := by
  show Exec.bind x (fun a => pure (g a)) s = _
  unfold Exec.bind
  rcases x s with ⟨_ | a, s'⟩ <;> rfl

/-- The same, written as a bind. -/
theorem run_bind_pure (x : Exec ε σ α) (g : α → β) (s : σ) :
    (x >>= fun a => pure (g a)) s = ((x s).1.map g, (x s).2) :=
  run_map g

end Run

/-- A raise in the first or the second of three computations skips the third. -/
protected theorem bind_assoc {γ : Type} (x : Exec ε σ α) (f : α → Exec ε σ β)
    (g : β → Exec ε σ γ) : x >>= f >>= g = x >>= fun a => f a >>= g := by
  funext s
  rcases h : x s with ⟨e | a, s'⟩
  · rw [run_bind_error g (run_bind_error f h), run_bind_error _ h]
  · have hf : (x >>= f) s = f a s' := run_bind_ok f h
    rw [run_bind_ok _ h]
    show Exec.bind (x >>= f) g s = Exec.bind (f a) g s'
    rw [Exec.bind, Exec.bind, hf]

instance : LawfulMonad (Exec ε σ) :=
  LawfulMonad.mk' (Exec ε σ)
    (fun x => by
      funext s
      rw [run_map]
      rcases x s with ⟨_ | a, s'⟩ <;> rfl)
    (fun _ _ => rfl) Exec.bind_assoc

/-- A bind returns exactly when both halves do. -/
theorem run_bind_eq_ok {x : Exec ε σ α} {f : α → Exec ε σ β} {s s'' : σ} {b : β} :
    (x >>= f) s = (.ok b, s'') ↔
      ∃ a s', x s = (.ok a, s') ∧ f a s' = (.ok b, s'') := by
  rcases hx : x s with ⟨e | a, s'⟩
  · rw [run_bind_error f hx]
    simp
  · rw [run_bind_ok f hx]
    constructor
    · intro h
      exact ⟨a, s', rfl, h⟩
    · rintro ⟨a', t, ha, h⟩
      obtain ⟨rfl, rfl⟩ : a = a' ∧ s' = t := by simpa using ha
      exact h

/-- What is said of the value and the state that a computation returns, when they are known. -/
theorem exists_run_iff {x : Exec ε σ α} {s s' : σ} {a : α} (h : x s = (.ok a, s'))
    {p : α → σ → Prop} : (∃ a' s'', x s = (.ok a', s'') ∧ p a' s'') ↔ p a s' := by
  constructor
  · rintro ⟨a', s'', hrun, hp⟩
    obtain ⟨hval, rfl⟩ := Prod.mk.inj (h.symm.trans hrun)
    rwa [Except.ok.inj hval]
  · intro hp
    exact ⟨a, s', h, hp⟩

/-! ## Frames -/

/-- Whatever the outcome, what `f` reads of the state is unchanged. -/
def Keeps (f : σ → τ) (x : Exec ε σ α) : Prop := ∀ s, f (x s).2 = f s

section Keeps

variable {f : σ → τ} {x : Exec ε σ α} {g : α → Exec ε σ β}

theorem keeps_pure (a : α) : Keeps f (pure a : Exec ε σ α) := fun _ => rfl

theorem keeps_raise (e : ε) : Keeps f (raise e : Exec ε σ α) := fun _ => rfl

theorem keeps_modify {u : σ → σ} (h : ∀ s, f (u s) = f s) :
    Keeps f (modify u : Exec ε σ Unit) := h

/-- When the second half of a bind keeps `f`, what `f` reads is up to the first. -/
theorem keeps_second (hg : ∀ a, Keeps f (g a)) (s : σ) : f ((x >>= g) s).2 = f (x s).2 := by
  rcases h : x s with ⟨e | a, s'⟩
  · rw [run_bind_error g h]
  · rw [run_bind_ok g h, hg a s']

theorem keeps_bind (hx : Keeps f x) (hg : ∀ a, Keeps f (g a)) : Keeps f (x >>= g) :=
  fun s => (keeps_second hg s).trans (hx s)

theorem keeps_ite {c : Prop} [Decidable c] {y : Exec ε σ α} (hx : Keeps f x) (hy : Keeps f y) :
    Keeps f (if c then x else y) := by
  split
  · exact hx
  · exact hy

end Keeps

/-! ## Invariants -/

/-- Whatever the outcome, the invariant `I` survives. -/
def Preserves (I : σ → Prop) (x : Exec ε σ α) : Prop := ∀ s, I s → I (x s).2

/-! ## Simulation -/

/-- Seen through `f`, the computation `x` is `y`. There is a rule for each way of building a
computation, and for what only `x` writes. -/
def Simulates (f : σ → τ) (x : Exec ε σ α) (y : Exec ε τ α) : Prop :=
  ∀ s, (x s).1 = (y (f s)).1 ∧ f (x s).2 = (y (f s)).2

section Simulates

variable {f : σ → τ} {x : Exec ε σ α} {y : Exec ε τ α} {g : α → Exec ε σ β} {h : α → Exec ε τ β}

theorem simulates_pure (a : α) : Simulates f (pure a : Exec ε σ α) (pure a) :=
  fun _ => ⟨rfl, rfl⟩

theorem simulates_lift (r : Except ε α) : Simulates f (lift r : Exec ε σ α) (lift r) :=
  fun _ => ⟨rfl, rfl⟩

theorem simulates_bind (hx : Simulates f x y) (hg : ∀ a, Simulates f (g a) (h a)) :
    Simulates f (x >>= g) (y >>= h) := by
  intro s
  obtain ⟨hres, hst⟩ := hx s
  rcases hr : x s with ⟨e | a, s'⟩
  · rw [hr] at hres hst
    -- both raise the same exception
    have hy : y (f s) = (.error e, f s') := Prod.ext hres.symm hst.symm
    rw [run_bind_error g hr, run_bind_error h hy]
    exact ⟨rfl, rfl⟩
  · rw [hr] at hres hst
    -- both return the same value, and `g` and `h` go on from related states
    have hy : y (f s) = (.ok a, f s') := Prod.ext hres.symm hst.symm
    rw [run_bind_ok g hr, run_bind_ok h hy]
    exact hg a s'

theorem simulates_raise (e : ε) :
    Simulates f (raise e : Exec ε σ α) (raise e) :=
  fun _ => ⟨rfl, rfl⟩

theorem simulates_ite {c : Prop} [Decidable c] {x' : Exec ε σ α} {y' : Exec ε τ α}
    (h : Simulates f x y) (h' : Simulates f x' y') :
    Simulates f (if c then x else x') (if c then y else y') := by
  by_cases hc : c
  · rw [if_pos hc, if_pos hc]
    exact h
  · rw [if_neg hc, if_neg hc]
    exact h'

/-- The handler runs in the state that the raise left, which is the same seen through `f`. -/
theorem simulates_tryExcept {h : ε → Exec ε σ α} {k : ε → Exec ε τ α} (hx : Simulates f x y)
    (hh : ∀ e, Simulates f (h e) (k e)) : Simulates f (tryExcept x h) (tryExcept y k) := by
  intro s
  obtain ⟨hres, hst⟩ := hx s
  rcases hr : x s with ⟨e | a, s'⟩
  · rw [hr] at hres hst
    have hy : y (f s) = (.error e, f s') := Prod.ext hres.symm hst.symm
    rw [run_tryExcept_error hr, run_tryExcept_error hy]
    exact hh e s'
  · rw [hr] at hres hst
    have hy : y (f s) = (.ok a, f s') := Prod.ext hres.symm hst.symm
    rw [run_tryExcept_ok hr, run_tryExcept_ok hy]
    exact ⟨rfl, rfl⟩

/-- A computation over the part that `f` sees. -/
theorem simulates_zoom {put : τ → σ → σ} (hput : ∀ t s, f (put t s) = t) (y : Exec ε τ α) :
    Simulates f (zoom f put y) y :=
  fun s => ⟨rfl, hput _ s⟩

/-- An update that `f` does not see, before another computation. -/
theorem simulates_modify_bind {u : σ → σ} (hu : ∀ s, f (u s) = f s) (hx : Simulates f x y) :
    Simulates f ((modify u : Exec ε σ Unit) >>= fun _ => x) y := by
  intro s
  rw [run_modify_bind, ← hu s]
  exact hx (u s)

end Simulates

/-! ## Oblivious computations -/

/-- The outcome does not depend on the state. -/
def Oblivious (x : Exec ε σ α) : Prop := ∀ s s', (x s).1 = (x s').1

section Oblivious

variable {x y : Exec ε σ α} {g : α → Exec ε σ β}

theorem oblivious_pure (a : α) : Oblivious (pure a : Exec ε σ α) := fun _ _ => rfl

theorem oblivious_raise (e : ε) : Oblivious (raise e : Exec ε σ α) := fun _ _ => rfl

theorem oblivious_modify (u : σ → σ) : Oblivious (modify u : Exec ε σ Unit) := fun _ _ => rfl

/-- A computation whose outcome is the same from both states, followed by oblivious ones. -/
theorem bind_congr {s s' : σ} (hx : (x s).1 = (x s').1) (hg : ∀ a, Oblivious (g a)) :
    ((x >>= g) s).1 = ((x >>= g) s').1 := by
  rcases hr : x s with ⟨e | a, t⟩
  · rcases hr' : x s' with ⟨e' | a', t'⟩
    · rw [hr, hr'] at hx
      obtain rfl : e = e' := Except.error.inj hx
      rw [run_bind_error g hr, run_bind_error g hr']
    · rw [hr, hr'] at hx
      exact nomatch hx
  · rcases hr' : x s' with ⟨e' | a', t'⟩
    · rw [hr, hr'] at hx
      exact nomatch hx
    · rw [hr, hr'] at hx
      -- the values agree, and what follows does not look at the states
      obtain rfl : a = a' := Except.ok.inj hx
      rw [run_bind_ok g hr, run_bind_ok g hr']
      exact hg a t t'

theorem oblivious_bind (hx : Oblivious x) (hg : ∀ a, Oblivious (g a)) : Oblivious (x >>= g) :=
  fun s s' => bind_congr (hx s s') hg

theorem oblivious_ite {c : Prop} [Decidable c] (hx : Oblivious x) (hy : Oblivious y) :
    Oblivious (if c then x else y) := by
  split
  · exact hx
  · exact hy

end Oblivious

end Exec

end DecisionRuntime
