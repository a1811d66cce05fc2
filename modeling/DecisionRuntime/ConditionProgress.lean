/-
Conditions as a language: what a tree denotes, and when evaluating one gets stuck.

The checker and the evaluator are two traversals written independently. They are
compared through a third one, `value`, which gives every tree a value and has no
error at all: a comparison that cannot be made does not hold. A tree that passed
the checker evaluates to its value, with a single exception. An integer outside
`range(256)` that is looked for in a `bytes` object makes Python raise a
`ValueError`, and `_apply_cmp` catches the `TypeError` only. `Overflows` says that
the evaluation comes to such a comparison.

`Outcome` carries the argument: a computation that either returns a known value or
raises a `ValueError`, and a proposition that tells which. Its rules follow the
shape of the evaluator, so the induction over trees has one step a constructor.
-/
import DecisionRuntime.ConditionEvaluator
import DecisionRuntime.Exec

set_option autoImplicit false

namespace DecisionRuntime.ConditionEvaluator

/-! ## Computations with one way to fail -/

/-- The computation raises a `ValueError` if `stuck`, and returns `a` if not. -/
structure Outcome {α : Type} (x : Except PyError α) (stuck : Prop) (a : α) : Prop where
  returns : ¬ stuck → x = .ok a
  raises : stuck → ∃ msg, x = .error (.valueError msg)

section Outcome

variable {α β : Type} {x : Except PyError α} {f : α → Except PyError β} {p q : Prop} {a : α}
  {b : β}

theorem outcome_ok (a : α) : Outcome (.ok a) False a :=
  ⟨fun _ => rfl, fun h => h.elim⟩

theorem Outcome.congr (h : Outcome x p a) (hpq : p ↔ q) : Outcome x q a :=
  ⟨fun hq => h.returns (fun hp => hq (hpq.mp hp)), fun hq => h.raises (hpq.mpr hq)⟩

/-- A bind is stuck when its first half is, or when that returns and its second half is. -/
theorem Outcome.bind (hx : Outcome x p a) (hf : Outcome (f a) q b) :
    Outcome (x >>= f) (p ∨ q) b := by
  constructor
  · intro h
    obtain ⟨hp, hq⟩ := not_or.mp h
    rw [hx.returns hp]
    exact hf.returns hq
  · intro h
    by_cases hp : p
    · obtain ⟨msg, hmsg⟩ := hx.raises hp
      refine ⟨msg, ?_⟩
      rw [hmsg]
      rfl
    · rw [hx.returns hp]
      exact hf.raises (h.resolve_left hp)

/-- What is done with the value cannot fail. -/
theorem Outcome.map (hx : Outcome x p a) (g : α → β) :
    Outcome (x >>= fun a => pure (g a)) p (g a) :=
  (hx.bind (outcome_ok (g a))).congr (iff_of_eq (or_false p))

/-- It returns some value exactly when it is not stuck. -/
theorem Outcome.returns_iff (h : Outcome x p a) : (∃ v, x = .ok v) ↔ ¬ p := by
  constructor
  · rintro ⟨v, hv⟩ hp
    obtain ⟨msg, hmsg⟩ := h.raises hp
    exact nomatch hv.symm.trans hmsg
  · intro hp
    exact ⟨a, h.returns hp⟩

end Outcome

/-! ## What a tree denotes -/

/-- Whether a comparison holds, where one that raises does not. -/
def holds (left : Option Value) (op : CmpOp) (right : Option Value) : Bool :=
  match apply_cmp left op right with
  | .ok b => b
  | .error _ => false

mutual

/-- The value of a tree. -/
def value (ctx : PyDict) : Expr → Option Value
  | .boolOp .and values => some (.bool (all_hold ctx values))
  | .boolOp .or values => some (.bool (any_holds ctx values))
  | .unaryOp _ operand => some (.bool !coerce_bool (value ctx operand))
  | .compare left ops comparators =>
    some (.bool (chain_holds ctx (value ctx left) ops comparators))
  | .name id _ => PyDict.get ctx id
  | .constant v => some v
  | .attribute v attr _ =>
    match value ctx v with
    | some (.dict kvs) => PyDict.get kvs attr
    | _ => none
  | .other _ _ => none

/-- Every tree has a true value. -/
def all_hold (ctx : PyDict) : List Expr → Bool
  | [] => true
  | e :: es => coerce_bool (value ctx e) && all_hold ctx es

/-- Some tree has a true value. -/
def any_holds (ctx : PyDict) : List Expr → Bool
  | [] => false
  | e :: es => coerce_bool (value ctx e) || any_holds ctx es

/-- Every comparison of a chain holds. -/
def chain_holds (ctx : PyDict) (left : Option Value) : List CmpOp → List Expr → Bool
  | op :: ops, e :: es =>
    holds left op (value ctx e) && chain_holds ctx (value ctx e) ops es
  | _, _ => true

end

/-! ## When evaluating a tree gets stuck -/

/-- An integer that is no byte, and a `bytes` object to look for it in. -/
def NoByte : Value → Value → Prop
  | .int i, .bytes _ => ¬ (0 ≤ i ∧ i < 256)
  | _, _ => False

/-- A comparison that looks for an integer that is no byte in a `bytes` object. -/
def OutOfRange : Option Value → CmpOp → Option Value → Prop
  | some l, .in, some r => NoByte l r
  | some l, .not_in, some r => NoByte l r
  | _, _, _ => False

mutual

/-- Evaluating the tree comes to a comparison that is out of range. -/
def Overflows (ctx : PyDict) : Expr → Prop
  | .boolOp .and values => AndOverflows ctx values
  | .boolOp .or values => OrOverflows ctx values
  | .unaryOp _ operand => Overflows ctx operand
  | .compare left ops comparators =>
    Overflows ctx left ∨ ChainOverflows ctx (value ctx left) ops comparators
  | .name _ _ => False
  | .constant _ => False
  | .attribute v _ _ => Overflows ctx v
  | .other _ _ => False

/-- The same for the operands of `and`, up to the first that is false. -/
def AndOverflows (ctx : PyDict) : List Expr → Prop
  | [] => False
  | e :: es => Overflows ctx e ∨ coerce_bool (value ctx e) = true ∧ AndOverflows ctx es

/-- The same for the operands of `or`, up to the first that is true. -/
def OrOverflows (ctx : PyDict) : List Expr → Prop
  | [] => False
  | e :: es => Overflows ctx e ∨ coerce_bool (value ctx e) = false ∧ OrOverflows ctx es

/-- The same for a chain of comparisons, up to the first that does not hold. -/
def ChainOverflows (ctx : PyDict) (left : Option Value) : List CmpOp → List Expr → Prop
  | op :: ops, e :: es =>
    Overflows ctx e ∨ OutOfRange left op (value ctx e)
      ∨ holds left op (value ctx e) = true ∧ ChainOverflows ctx (value ctx e) ops es
  | _, _ => False

end

/-! ## One comparison -/

/-- What comparing two values can come to: an answer, a `TypeError`, or a `ValueError` if
`stuck`. -/
inductive Compared (stuck : Prop) : Except PyError Bool → Prop
  | made (b : Bool) (h : ¬ stuck) : Compared stuck (.ok b)
  | incompatible (msg : String) (h : ¬ stuck) : Compared stuck (.error (.typeError msg))
  | out_of_range (msg : String) (h : stuck) : Compared stuck (.error (.valueError msg))

theorem contains_compared (left right : Value) :
    Compared (NoByte left right) (contains left right) := by
  cases right with
  | bytes r =>
      cases left with
      | int i =>
          rw [contains]
          split_ifs with hi
          · exact .made _ (not_not.mpr hi)
          · exact .out_of_range _ hi
      | bool b => exact .made _ id
      | bytes l => exact .made _ id
      | _ => exact .incompatible _ id
  | str r =>
      cases left with
      | str l => exact .made _ id
      | _ => exact .incompatible _ id
  | list xs => cases left <;> exact .made _ id
  | dict kvs =>
      cases left with
      | list ys => exact .incompatible _ id
      | dict ys => exact .incompatible _ id
      | _ => exact .made _ id
  | _ => cases left <;> exact .incompatible _ id

theorem compare_values_compared {op : CmpOp} (hop : check_cmp op = .ok ()) (l r : Value) :
    Compared (OutOfRange (some l) op (some r)) (compare_values l op r) := by
  unfold compare_values
  cases op with
  | eq => exact .made _ id
  | not_eq => exact .made _ id
  | lt | lt_e | gt | gt_e =>
      dsimp only
      rcases l.pyCmp r with _ | o
      · exact .incompatible _ id
      · exact .made _ id
  | is => cases hop
  | is_not => cases hop
  | «in» => exact contains_compared l r
  | not_in =>
      have h := contains_compared l r
      dsimp only
      generalize contains l r = x at h
      -- negating the answer changes neither exception
      cases h with
      | made b hb => exact .made _ hb
      | incompatible msg hmsg => exact .incompatible _ hmsg
      | out_of_range msg hmsg => exact .out_of_range _ hmsg

/-- **One comparison.** Of the operators the checker lets through, `_apply_cmp` raises only out of
range. -/
theorem apply_cmp_outcome {op : CmpOp} (hop : check_cmp op = .ok ())
    (left right : Option Value) :
    Outcome (apply_cmp left op right) (OutOfRange left op right) (holds left op right) := by
  rcases left with _ | l
  · exact ⟨fun _ => rfl, fun h => by cases op <;> exact h.elim⟩
  rcases right with _ | r
  · exact ⟨fun _ => rfl, fun h => by cases l <;> cases op <;> exact h.elim⟩
  have h := compare_values_compared hop l r
  rw [holds, apply_cmp]
  generalize compare_values l op r = x at h
  cases h with
  | made b hb => exact ⟨fun _ => rfl, fun h => absurd h hb⟩
  | incompatible msg hmsg => exact ⟨fun _ => rfl, fun h => absurd h hmsg⟩
  | out_of_range msg hmsg => exact ⟨fun h => absurd hmsg h, fun _ => ⟨msg, rfl⟩⟩

/-! ## Progress -/

theorem check_list_cons {e : Expr} {es : List Expr} (h : check_list (e :: es) = .ok ()) :
    check e = .ok () ∧ check_list es = .ok () := by
  rw [check_list, except_bind_eq_ok] at h
  obtain ⟨_, he, hes⟩ := h
  exact ⟨he, hes⟩

mutual

/-- **Progress.** A tree that passed the checker evaluates to its value, or comes to a comparison
that is out of range. The induction is on the tree, and each constructor is a rule of `Outcome`. -/
theorem eval_outcome (ctx : PyDict) : ∀ e : Expr, check e = .ok () →
    Outcome (eval ctx e) (Overflows ctx e) (value ctx e)
  | .boolOp .and values, h => by
      rw [check] at h
      exact (eval_and_outcome ctx values h).map _
  | .boolOp .or values, h => by
      rw [check] at h
      exact (eval_or_outcome ctx values h).map _
  | .unaryOp .not operand, h => by
      rw [check, except_bind_eq_ok] at h
      obtain ⟨_, -, hoperand⟩ := h
      exact (eval_outcome ctx operand hoperand).map _
  | .unaryOp (.other type_name) operand, h => by
      rw [check, except_bind_eq_ok] at h
      obtain ⟨_, hop, -⟩ := h
      exact nomatch hop
  | .compare left ops comparators, h => by
      rw [check, except_bind_eq_ok] at h
      obtain ⟨_, hleft, h⟩ := h
      obtain ⟨_, hops, hcomparators⟩ := except_bind_eq_ok.mp h
      have hchain := eval_chain_outcome ctx (value ctx left) ops comparators
        (except_forM_eq_ok.mp hops) hcomparators
      exact (eval_outcome ctx left hleft).bind (hchain.map _)
  | .name _ _, _ => outcome_ok _
  | .constant _, _ => outcome_ok _
  | .attribute v attr _, h => by
      rw [check, except_bind_eq_ok] at h
      obtain ⟨_, -, h⟩ := h
      obtain ⟨_, hv, -⟩ := except_bind_eq_ok.mp h
      rw [eval, value, Overflows]
      refine ((eval_outcome ctx v hv).bind ?_).congr (iff_of_eq (or_false _))
      rcases value ctx v with _ | v
      · exact outcome_ok none
      · cases v <;> exact outcome_ok _
  | .other type_name _, h => by
      rw [check] at h
      exact nomatch h

/-- The operands of `and`: those after a false one are not evaluated. -/
theorem eval_and_outcome (ctx : PyDict) : ∀ es : List Expr, check_list es = .ok () →
    Outcome (eval_and ctx es) (AndOverflows ctx es) (all_hold ctx es)
  | [], _ => outcome_ok true
  | e :: es, h => by
      obtain ⟨he, hes⟩ := check_list_cons h
      rw [eval_and, AndOverflows, all_hold]
      refine (eval_outcome ctx e he).bind ?_
      by_cases hv : coerce_bool (value ctx e) = true
      · rw [if_pos hv, hv, Bool.true_and]
        exact (eval_and_outcome ctx es hes).congr ⟨fun h => ⟨rfl, h⟩, And.right⟩
      · rw [if_neg hv, Bool.eq_false_iff.mpr hv, Bool.false_and]
        exact (outcome_ok false).congr ⟨False.elim, fun h => nomatch h.1⟩

/-- The operands of `or`: those after a true one are not evaluated. -/
theorem eval_or_outcome (ctx : PyDict) : ∀ es : List Expr, check_list es = .ok () →
    Outcome (eval_or ctx es) (OrOverflows ctx es) (any_holds ctx es)
  | [], _ => outcome_ok false
  | e :: es, h => by
      obtain ⟨he, hes⟩ := check_list_cons h
      rw [eval_or, OrOverflows, any_holds]
      refine (eval_outcome ctx e he).bind ?_
      by_cases hv : coerce_bool (value ctx e) = true
      · rw [if_pos hv, hv, Bool.true_or]
        exact (outcome_ok true).congr ⟨False.elim, fun h => nomatch h.1⟩
      · rw [if_neg hv, Bool.eq_false_iff.mpr hv, Bool.false_or]
        exact (eval_or_outcome ctx es hes).congr ⟨fun h => ⟨rfl, h⟩, And.right⟩

/-- A chain of comparisons: it ends at the first that does not hold. -/
theorem eval_chain_outcome (ctx : PyDict) (left : Option Value) :
    ∀ (ops : List CmpOp) (es : List Expr), (∀ op ∈ ops, check_cmp op = .ok ()) →
      check_list es = .ok () → Outcome (eval_chain ctx left ops es)
        (ChainOverflows ctx left ops es) (chain_holds ctx left ops es)
  | op :: ops, e :: es, hops, hes => by
      obtain ⟨hop, hops⟩ := List.forall_mem_cons.mp hops
      obtain ⟨he, hes⟩ := check_list_cons hes
      rw [eval_chain, ChainOverflows, chain_holds]
      refine (eval_outcome ctx e he).bind ((apply_cmp_outcome hop left (value ctx e)).bind ?_)
      by_cases hv : holds left op (value ctx e) = true
      · rw [if_pos hv, hv, Bool.true_and]
        exact (eval_chain_outcome ctx (value ctx e) ops es hops hes).congr
          ⟨fun h => ⟨rfl, h⟩, And.right⟩
      · rw [if_neg hv, Bool.eq_false_iff.mpr hv, Bool.false_and]
        exact (outcome_ok false).congr ⟨False.elim, fun h => nomatch h.1⟩
  | [], es, _, _ => by cases es <;> exact outcome_ok true
  | _ :: _, [], _, _ => outcome_ok true

end

/-! ## Whole conditions -/

/-- Evaluating the condition comes to a comparison that is out of range. -/
def ConditionOverflows (P : Platform) (ctx : PyDict) : Option String → Prop
  | none => False
  | some text => (strip text.toList).isEmpty = false
      ∧ ∃ tree, parse_condition P text = .ok tree ∧ Overflows ctx tree

/-! ### Rejected conditions -/

/-- The computation raises a `ConditionEvaluationError` or nothing. -/
def Rejects {α : Type} (x : Except PyError α) : Prop :=
  ∀ e, x = .error e → ∃ msg, e = .conditionEvaluationError msg

section Rejects

variable {α β : Type} {x : Except PyError α} {f : α → Except PyError β}

theorem rejects_ok (a : α) : Rejects (.ok a : Except PyError α) :=
  fun _ h => nomatch h

theorem rejects_error (msg : String) :
    Rejects (.error (.conditionEvaluationError msg) : Except PyError α) :=
  fun _ h => ⟨msg, (Except.error.inj h).symm⟩

theorem rejects_bind (hx : Rejects x) (hf : ∀ a, Rejects (f a)) : Rejects (x >>= f) := by
  intro e h
  rcases x with e' | a
  · obtain rfl : e' = e := Except.error.inj h
    exact hx e' rfl
  · exact hf a e h

theorem rejects_ite {c : Prop} [Decidable c] {y : Except PyError α} (hx : Rejects x)
    (hy : Rejects y) : Rejects (if c then x else y) := by
  split
  · exact hx
  · exact hy

end Rejects

theorem rejects_check_ctx (ctx : ExprContext) : Rejects (check_ctx ctx) := by
  rcases ctx with _ | _ | _
  · exact rejects_ok ()
  · exact rejects_error _
  · exact rejects_error _

theorem rejects_check_unary (op : UnaryOp) : Rejects (check_unary op) := by
  rcases op with _ | type_name
  · exact rejects_ok ()
  · exact rejects_error _

theorem rejects_check_ops (ops : List CmpOp) : Rejects (ops.forM check_cmp) := by
  induction ops with
  | nil => exact rejects_ok ()
  | cons op ops ih =>
      refine rejects_bind ?_ (fun _ => ih)
      cases op with
      | is => exact rejects_error _
      | is_not => exact rejects_error _
      | _ => exact rejects_ok ()

mutual

theorem rejects_check : ∀ tree : Expr, Rejects (check tree)
  | .boolOp _ values => rejects_check_list values
  | .unaryOp op operand =>
      rejects_bind (rejects_check_unary op) (fun _ => rejects_check operand)
  | .compare left ops comparators =>
      rejects_bind (rejects_check left) (fun _ =>
        rejects_bind (rejects_check_ops ops) (fun _ => rejects_check_list comparators))
  | .name _ ctx =>
      rejects_bind (rejects_ite (rejects_ok ()) (rejects_error _)) (fun _ => rejects_check_ctx ctx)
  | .constant _ => rejects_ok ()
  | .attribute v _ ctx =>
      rejects_bind (rejects_ite (rejects_error _) (rejects_ok ())) (fun _ =>
        rejects_bind (rejects_check v) (fun _ => rejects_check_ctx ctx))
  | .other _ _ => rejects_error _

theorem rejects_check_list : ∀ es : List Expr, Rejects (check_list es)
  | [] => rejects_ok ()
  | e :: es => rejects_bind (rejects_check e) (fun _ => rejects_check_list es)

end

section Conditions

variable {P : Platform} {text : String}

theorem rejects_parse_condition (P : Platform) (text : String) :
    Rejects (parse_condition P text) := by
  rw [parse_condition]
  split
  · exact rejects_ok _
  · exact rejects_error _

theorem rejects_validate_syntax (P : Platform) (text : String) :
    Rejects <| validate_syntax P text := by
  unfold validate_syntax
  exact rejects_ite (rejects_ok ())
    (rejects_bind (rejects_parse_condition P text) rejects_check)

/-- A condition that is rejected is rejected whenever it is evaluated. -/
theorem evaluate_rejected {e : PyError} (h : validate_syntax P text = .error e) (ctx : PyDict) :
    evaluate P (some text) ctx = .error e := by
  unfold validate_syntax at h
  rw [evaluate]
  split_ifs at h ⊢
  rcases htree : parse_condition P text with e' | tree
  · obtain rfl : e' = e := by
      rw [htree] at h
      exact Except.error.inj h
    rfl
  · rw [htree] at h
    rcases hcheck : check tree with e' | _
    · obtain rfl : e' = e := by
        have hbind : check tree = .error e := h
        exact Except.error.inj (hcheck.symm.trans hbind)
      show (check tree >>= _) = _
      rw [hcheck]
      rfl
    · have hbind : check tree = .error e := h
      exact nomatch hcheck.symm.trans hbind

/-- **A condition that passed `validate_syntax`** evaluates, or comes to a comparison that is out
of range. -/
theorem evaluate_accepted (h : validate_syntax P text = .ok ()) (ctx : PyDict) :
    ∃ b, Outcome (evaluate P (some text) ctx) (ConditionOverflows P ctx (some text)) b := by
  unfold validate_syntax at h
  rw [evaluate, ConditionOverflows]
  split_ifs at h ⊢ with hblank
  · refine ⟨true, (outcome_ok true).congr ⟨False.elim, ?_⟩⟩
    rintro ⟨hnot, -⟩
    exact nomatch hblank.symm.trans hnot
  · obtain ⟨tree, htree, hcheck⟩ := except_bind_eq_ok.mp h
    refine ⟨coerce_bool (value ctx tree), ?_⟩
    rw [htree]
    show Outcome (check tree >>= _) _ _
    rw [hcheck]
    refine ((eval_outcome ctx tree hcheck).map coerce_bool).congr ⟨fun ho => ?_, ?_⟩
    · exact ⟨Bool.eq_false_iff.mpr hblank, tree, rfl, ho⟩
    · rintro ⟨-, tree', heq, ho⟩
      rwa [Except.ok.inj heq]

end Conditions

/-! ## The contexts of a condition -/

mutual

/-- A value a JSON document can contain. -/
def is_json : Value → Bool
  | .none | .bool _ | .int _ | .float _ | .str _ => true
  | .list xs => is_json_list xs
  | .dict kvs => is_json_dict kvs
  | .complex _ | .bytes _ | .ellipsis | .datetime _ => false

def is_json_list : List Value → Bool
  | [] => true
  | v :: vs => is_json v && is_json_list vs

def is_json_dict : List (String × Value) → Bool
  | [] => true
  | (_, v) :: kvs => is_json v && is_json_dict kvs

end

/-- Every value of the context is a JSON value or a `datetime`. -/
def JsonContext (ctx : PyDict) : Prop :=
  ∀ kv ∈ ctx, is_json kv.2 = true ∨ ∃ d, kv.2 = .datetime d

/-- The condition evaluates in the context: nothing is raised. -/
def Evaluates (P : Platform) (text : String) (ctx : PyDict) : Prop :=
  ∃ b, evaluate P (some text) ctx = .ok b

/-- The condition is accepted. -/
def Accepts (P : Platform) (text : String) : Prop := validate_syntax P text = .ok ()

/-- **`validate_syntax` is exact** for a condition that it rejects, or whose evaluation comes to no
comparison out of range in any context, and for no other. -/
theorem validate_syntax_exact_iff (P : Platform) (text : String) :
    ((Accepts P text ↔ ∀ ctx, JsonContext ctx → Evaluates P text ctx) ∧
      (Accepts P text ↔ ∃ ctx, JsonContext ctx ∧ Evaluates P text ctx)) ↔
    (¬ Accepts P text ∨
      ∀ ctx, JsonContext ctx → ¬ ConditionOverflows P ctx (some text)) := by
  unfold Accepts
  have hempty : JsonContext [] := fun _ h => nomatch h
  rcases hvalid : validate_syntax P text with e | _
  · -- rejected: every evaluation raises the same exception
    have hnever : ∀ ctx, ¬ Evaluates P text ctx := by
      rintro ctx ⟨b, hb⟩
      exact nomatch hb.symm.trans (evaluate_rejected hvalid ctx)
    constructor
    · exact fun _ => Or.inl nofun
    · refine fun _ => ⟨⟨nofun, fun hall => ?_⟩, ⟨nofun, fun hsome => ?_⟩⟩
      · exact absurd (hall [] hempty) (hnever [])
      · obtain ⟨ctx, -, hctx⟩ := hsome
        exact absurd hctx (hnever ctx)
  · -- accepted: it evaluates exactly where it does not overflow
    have hiff : ∀ ctx, Evaluates P text ctx ↔ ¬ ConditionOverflows P ctx (some text) := by
      intro ctx
      obtain ⟨b, hb⟩ := evaluate_accepted hvalid ctx
      exact hb.returns_iff
    constructor
    · rintro ⟨hall, -⟩
      refine Or.inr ?_
      intro ctx hctx
      exact (hiff ctx).mp (hall.mp rfl ctx hctx)
    · intro hcond
      have hsafe := hcond.resolve_left (fun h => h rfl)
      have hall : ∀ ctx, JsonContext ctx → Evaluates P text ctx :=
        fun ctx hctx => (hiff ctx).mpr (hsafe ctx hctx)
      exact ⟨⟨fun _ => hall, fun _ => rfl⟩, fun _ => ⟨[], hempty, hall [] hempty⟩, fun _ => rfl⟩

/-! ## Conditions without `bytes`

A context has no `bytes` in it, so a comparison out of range needs a `bytes` literal. -/

/-- A value a condition can come across when it has no `bytes` literal. -/
def plain : Value → Bool
  | .complex _ | .ellipsis | .datetime _ => true
  | v => is_json v

mutual

/-- The tree has no `bytes` literal. -/
def bytes_free : Expr → Bool
  | .boolOp _ values => bytes_free_list values
  | .unaryOp _ operand => bytes_free operand
  | .compare left _ comparators => bytes_free left && bytes_free_list comparators
  | .name _ _ => true
  | .constant v => plain v
  | .attribute v _ _ => bytes_free v
  | .other _ _ => true

def bytes_free_list : List Expr → Bool
  | [] => true
  | e :: es => bytes_free e && bytes_free_list es

end

section BytesFree

variable {ctx : PyDict}

theorem plain_of_is_json {v : Value} (h : is_json v = true) : plain v = true := by
  cases v <;> first | rfl | exact h

theorem is_json_of_get {kvs : List (String × Value)} (h : is_json_dict kvs = true) {k : String}
    {v : Value} (hget : PyDict.get kvs k = some v) : is_json v = true := by
  induction kvs with
  | nil => exact nomatch hget
  | cons kv kvs ih =>
      rw [is_json_dict, Bool.and_eq_true] at h
      rw [PyDict.get] at hget
      split_ifs at hget
      · rw [← Option.some.inj hget]
        exact h.1
      · exact ih h.2 hget

theorem plain_of_context (hctx : JsonContext ctx) {k : String} {v : Value}
    (hget : PyDict.get ctx k = some v) : plain v = true := by
  induction ctx with
  | nil => exact nomatch hget
  | cons kv ctx ih =>
      rw [PyDict.get] at hget
      split_ifs at hget
      · rw [← Option.some.inj hget]
        rcases hctx kv List.mem_cons_self with hjson | ⟨d, hd⟩
        · exact plain_of_is_json hjson
        · rw [hd]
          rfl
      · exact ih (fun kv hkv => hctx kv (List.mem_cons_of_mem _ hkv)) hget

/-- Such a tree has no `bytes` for its value. -/
theorem plain_value (hctx : JsonContext ctx) : ∀ e : Expr, bytes_free e = true →
    ∀ v, value ctx e = some v → plain v = true
  | .boolOp op values, _, v, hv => by
      cases op <;> exact Option.some.inj hv ▸ rfl
  | .unaryOp _ _, _, v, hv => Option.some.inj hv ▸ rfl
  | .compare _ _ _, _, v, hv => Option.some.inj hv ▸ rfl
  | .name _ _, _, v, hv => plain_of_context hctx hv
  | .constant w, h, v, hv => by
      rw [← Option.some.inj hv]
      exact h
  | .attribute e attr _, h, v, hv => by
      rw [value] at hv
      split at hv
      · next kvs hdict =>
        -- a dictionary with an acceptable value is a JSON object
        have hjson : is_json_dict kvs = true := plain_value hctx e h _ hdict
        exact plain_of_is_json (is_json_of_get hjson hv)
      · exact nomatch hv
  | .other _ _, _, v, hv => nomatch hv

theorem not_outOfRange {right : Option Value} (hright : ∀ v, right = some v → plain v = true)
    (left : Option Value) (op : CmpOp) : ¬ OutOfRange left op right := by
  intro h
  have hbytes : ∀ l r, right = some r → ¬ NoByte l r := by
    intro l r hr hno
    have hplain := hright r hr
    unfold NoByte at hno
    split at hno
    · exact nomatch hplain
    · exact hno
  unfold OutOfRange at h
  split at h
  · exact hbytes _ _ rfl h
  · exact hbytes _ _ rfl h
  · exact h

mutual

theorem not_overflows (hctx : JsonContext ctx) : ∀ e : Expr, bytes_free e = true →
    ¬ Overflows ctx e
  | .boolOp .and values, h => not_andOverflows hctx values h
  | .boolOp .or values, h => not_orOverflows hctx values h
  | .unaryOp _ operand, h => not_overflows hctx operand h
  | .compare left ops comparators, h => by
      rw [bytes_free, Bool.and_eq_true] at h
      rw [Overflows, not_or]
      exact ⟨not_overflows hctx left h.1, not_chainOverflows hctx _ ops comparators h.2⟩
  | .name _ _, _ => id
  | .constant _, _ => id
  | .attribute v _ _, h => not_overflows hctx v h
  | .other _ _, _ => id

theorem not_andOverflows (hctx : JsonContext ctx) : ∀ es : List Expr, bytes_free_list es = true →
    ¬ AndOverflows ctx es
  | [], _ => id
  | e :: es, h => by
      rw [bytes_free_list, Bool.and_eq_true] at h
      rw [AndOverflows, not_or]
      exact ⟨not_overflows hctx e h.1, fun ho => not_andOverflows hctx es h.2 ho.2⟩

theorem not_orOverflows (hctx : JsonContext ctx) : ∀ es : List Expr, bytes_free_list es = true →
    ¬ OrOverflows ctx es
  | [], _ => id
  | e :: es, h => by
      rw [bytes_free_list, Bool.and_eq_true] at h
      rw [OrOverflows, not_or]
      exact ⟨not_overflows hctx e h.1, fun ho => not_orOverflows hctx es h.2 ho.2⟩

theorem not_chainOverflows (hctx : JsonContext ctx) (left : Option Value) :
    ∀ (ops : List CmpOp) (es : List Expr), bytes_free_list es = true →
      ¬ ChainOverflows ctx left ops es
  | op :: ops, e :: es, h => by
      rw [bytes_free_list, Bool.and_eq_true] at h
      rw [ChainOverflows, not_or, not_or]
      refine ⟨not_overflows hctx e h.1, not_outOfRange (plain_value hctx e h.1) left op, ?_⟩
      exact fun ho => not_chainOverflows hctx _ ops es h.2 ho.2
  | [], es, _ => by cases es <;> exact id
  | _ :: _, [], _ => id

end

/-- An accepted condition without a `bytes` literal evaluates in every context. -/
theorem evaluates_of_bytes_free {P : Platform} {text : String}
    (h : validate_syntax P text = .ok ())
    (hfree : ∀ tree, parse_condition P text = .ok tree → bytes_free tree = true)
    (hctx : JsonContext ctx) : Evaluates P text ctx := by
  obtain ⟨b, hb⟩ := evaluate_accepted h ctx
  refine hb.returns_iff.mpr ?_
  rintro ⟨-, tree, htree, ho⟩
  exact not_overflows hctx tree (hfree tree htree) ho

end BytesFree

end DecisionRuntime.ConditionEvaluator

namespace DecisionRuntime.Recorded

/-- A platform whose parser returns this tree. -/
def parser (tree : Expr) : Platform where
  ast_parse _ := .ok tree
  uuid5 u _ := u
  sha256_hexdigest text := text
  float _ := none
  repr text := text
  isalnum _ := false
  decimal _ := none

/-- The tree of `payload.x in b'a'`. -/
def byte_test : Expr :=
  .compare (.attribute (.name "payload" .load) "x" .load) [.in] [.constant (.bytes [97])]

end DecisionRuntime.Recorded

namespace DecisionRuntime.ConditionEvaluator

/-- `payload.x in b'a'` is accepted, and raises when `payload.x` is 300. -/
theorem validate_syntax_exact_byte_test :
    ¬ (Accepts (Recorded.parser Recorded.byte_test) "payload.x in b'a'" ↔
      ∀ ctx, JsonContext ctx →
        Evaluates (Recorded.parser Recorded.byte_test) "payload.x in b'a'" ctx) := by
  intro h
  have haccepted : validate_syntax (Recorded.parser Recorded.byte_test) "payload.x in b'a'"
      = .ok () := by decide +kernel
  have hjson : JsonContext [("payload", .dict [("x", .int 300)])] := by
    intro kv hkv
    rw [List.mem_singleton.mp hkv]
    exact Or.inl rfl
  obtain ⟨b, hb⟩ := h.mp haccepted _ hjson
  have hraises : evaluate (Recorded.parser Recorded.byte_test) (some "payload.x in b'a'")
      [("payload", .dict [("x", .int 300)])]
      = .error (.valueError "byte must be in range(0, 256)") := by decide +kernel
  exact nomatch hb.symm.trans hraises

end DecisionRuntime.ConditionEvaluator
