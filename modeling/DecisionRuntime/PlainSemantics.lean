/-
Conditions without an evaluation order.

`denote` gives a tree a meaning in one pass that evaluates every subexpression and
has neither an early exit nor an exception: a name that is not there is missing, a
comparison of operands that are missing or that do not compare is false, and a
chain says something about every two neighbours at once (`chain_iff`).

The evaluator stops a chain at the first comparison that fails, and `and` and `or`
at the operand that decides. That none of this shows is `denote_eq_value`. What does
show is a comparison that raises something else than a `TypeError`, and the one
such comparison is `Overflows`.
-/
import DecisionRuntime.ConditionProgress

set_option autoImplicit false

namespace DecisionRuntime.ConditionEvaluator

/-! ## Comparing two values -/

/-- `left in right` makes sense: `right` has members, and `left` may be one of them. -/
def searchable (left right : Value) : Bool :=
  match left, right with
  | .str _, .str _ => true
  | .bytes _, .bytes _ => true
  | .bool _, .bytes _ => true
  | .int i, .bytes _ => 0 ≤ i ∧ i < 256
  | _, .list _ => true
  -- what is looked up in a dict has to be hashable
  | .list _, .dict _ => false
  | .dict _, .dict _ => false
  | _, .dict _ => true
  | _, _ => false

/-- Membership: in a string and in `bytes` of a part, in a list of an equal element, in a dict of a
key. -/
def member (left right : Value) : Bool :=
  match left, right with
  | .str l, .str r => l.toList <:+: r.toList
  | .bytes l, .bytes r => l <:+: r
  | .bool b, .bytes r => b.toNat ∈ r
  | .int i, .bytes r => i.toNat ∈ r
  | _, .list xs => xs.any (fun x => left.pyEq x)
  | .str k, .dict kvs => kvs.any (fun kv => kv.1 = k)
  | _, _ => false

/-- The two values can be compared by this operator. -/
def comparable (left : Value) (op : CmpOp) (right : Value) : Bool :=
  match op with
  | .eq | .not_eq => true
  | .lt | .lt_e | .gt | .gt_e => (left.pyCmp right).isSome
  | .in | .not_in => searchable left right
  | .is | .is_not => false

/-- The relation an operator stands for, between values that it can compare. -/
def relates (left : Value) (op : CmpOp) (right : Value) : Bool :=
  match op with
  | .eq => left.pyEq right
  | .not_eq => !left.pyEq right
  | .lt => left.pyCmp right = some .lt
  | .lt_e => left.pyCmp right ≠ some .gt
  | .gt => left.pyCmp right = some .gt
  | .gt_e => left.pyCmp right ≠ some .lt
  | .in => member left right
  | .not_in => !member left right
  | .is | .is_not => false

/-- Both operands are there, they can be compared, and the relation holds. -/
def meets (left : Option Value) (op : CmpOp) (right : Option Value) : Bool :=
  match left, right with
  | some l, some r => comparable l op r && relates l op r
  | _, _ => false

/-! ## The meaning of a tree -/

/-- What stands under a key, if the value is a dict that has it. -/
def field (v : Option Value) (attr : String) : Option Value :=
  match v with
  | some (.dict kvs) => PyDict.get kvs attr
  | _ => none

/-- Every two neighbours of a chain of operands meet. -/
def chain (operands : List (Option Value)) (ops : List CmpOp) : Bool :=
  ((operands.zip ops).zip operands.tail).all (fun link => meets link.1.1 link.1.2 link.2)

mutual

/-- The meaning of a tree: a value, or nothing when it is missing. -/
def denote (ctx : PyDict) : Expr → Option Value
  | .boolOp .and values => some (.bool ((denote_all ctx values).all coerce_bool))
  | .boolOp .or values => some (.bool ((denote_all ctx values).any coerce_bool))
  | .unaryOp _ operand => some (.bool !coerce_bool (denote ctx operand))
  | .compare left ops comparators =>
    some (.bool (chain (denote ctx left :: denote_all ctx comparators) ops))
  | .name id _ => PyDict.get ctx id
  | .constant v => some v
  | .attribute v attr _ => field (denote ctx v) attr
  | .other _ _ => none

/-- The meanings of all the operands. -/
def denote_all (ctx : PyDict) : List Expr → List (Option Value)
  | [] => []
  | e :: es => denote ctx e :: denote_all ctx es

end

/-- **A chain** is true exactly when for every `i` its `i`-th operator relates the operand before it
to the one after it. -/
theorem chain_iff (operands : List (Option Value)) (ops : List CmpOp) :
    chain operands ops = true ↔ ∀ i left op right, operands[i]? = some left →
      ops[i]? = some op → operands[i + 1]? = some right → meets left op right = true := by
  rw [chain, List.all_eq_true]
  constructor
  · intro h i left op right hleft hop hright
    refine h ((left, op), right) (List.mem_of_getElem? (i := i) ?_)
    rw [List.getElem?_zip_eq_some, List.getElem?_zip_eq_some, List.getElem?_tail]
    exact ⟨⟨hleft, hop⟩, hright⟩
  · rintro h ⟨⟨left, op⟩, right⟩ hlink
    obtain ⟨i, hi⟩ := List.mem_iff_getElem?.mp hlink
    rw [List.getElem?_zip_eq_some, List.getElem?_zip_eq_some, List.getElem?_tail] at hi
    exact h i left op right hi.1.1 hi.1.2 hi.2

/-! ## The meaning is the value -/

section Comparisons

variable {left right : Value}

/-- Looking for a member raises where it makes no sense, and answers where it does. -/
theorem contains_eq (left right : Value) :
    contains left right = .ok (member left right) ∧ searchable left right = true ∨
      (∃ e, contains left right = .error e) ∧ searchable left right = false := by
  cases right with
  | bytes r =>
      cases left with
      | int i =>
          rw [contains, searchable]
          by_cases hi : 0 ≤ i ∧ i < 256
          · rw [if_pos hi]
            exact Or.inl ⟨rfl, decide_eq_true hi⟩
          · rw [if_neg hi]
            exact Or.inr ⟨⟨_, rfl⟩, decide_eq_false hi⟩
      | bool b => exact Or.inl ⟨rfl, rfl⟩
      | bytes l => exact Or.inl ⟨rfl, rfl⟩
      | _ => exact Or.inr ⟨⟨_, rfl⟩, rfl⟩
  | str r =>
      cases left with
      | str l => exact Or.inl ⟨rfl, rfl⟩
      | _ => exact Or.inr ⟨⟨_, rfl⟩, rfl⟩
  | list xs => cases left <;> exact Or.inl ⟨rfl, rfl⟩
  | dict kvs =>
      cases left with
      | list ys => exact Or.inr ⟨⟨_, rfl⟩, rfl⟩
      | dict ys => exact Or.inr ⟨⟨_, rfl⟩, rfl⟩
      | _ => exact Or.inl ⟨rfl, rfl⟩
  | _ => cases left <;> exact Or.inr ⟨⟨_, rfl⟩, rfl⟩

/-- A comparison that can be made has the relation for its answer, and one that cannot raises. -/
theorem compare_values_eq (left : Value) (op : CmpOp) (right : Value) :
    compare_values left op right = .ok (relates left op right)
        ∧ comparable left op right = true ∨
      (∃ e, compare_values left op right = .error e) ∧ comparable left op right = false := by
  have hcontains := contains_eq left right
  unfold compare_values comparable relates
  cases op with
  | eq | not_eq => exact Or.inl ⟨rfl, rfl⟩
  | lt | lt_e | gt | gt_e =>
      dsimp only
      rcases left.pyCmp right with _ | o
      · exact Or.inr ⟨⟨_, rfl⟩, rfl⟩
      · left
        cases o <;> exact ⟨rfl, rfl⟩
  | is | is_not => exact Or.inr ⟨⟨_, rfl⟩, rfl⟩
  | «in» => exact hcontains
  | not_in =>
      dsimp only
      rcases hcontains with ⟨hok, hyes⟩ | ⟨⟨e, hraised⟩, hno⟩
      · rw [hok]
        exact Or.inl ⟨rfl, hyes⟩
      · rw [hraised]
        exact Or.inr ⟨⟨e, rfl⟩, hno⟩

/-- **One comparison.** What the evaluator takes a comparison for is what it means. -/
theorem meets_eq_holds (left : Option Value) (op : CmpOp) (right : Option Value) :
    meets left op right = holds left op right := by
  rcases left with _ | l
  · rfl
  rcases right with _ | r
  · rfl
  rw [meets, holds, apply_cmp]
  rcases compare_values_eq l op r with ⟨hok, hcan⟩ | ⟨⟨e, hraised⟩, hcannot⟩
  · rw [hok, hcan, Bool.true_and]
  · rw [hraised, hcannot, Bool.false_and]
    cases e <;> rfl

end Comparisons

theorem chain_cons (left right : Option Value) (operands : List (Option Value)) (op : CmpOp)
    (ops : List CmpOp) : chain (left :: right :: operands) (op :: ops)
      = (meets left op right && chain (right :: operands) ops) := by
  simp [chain]

mutual

/-- **The meaning of a tree is its value.** The induction is on the tree; at a chain and at `and`
and `or` it is on the operands. -/
theorem denote_eq_value (ctx : PyDict) : ∀ e : Expr, denote ctx e = value ctx e
  | .boolOp .and values => by
      rw [denote, value, denote_all_holds ctx values]
  | .boolOp .or values => by
      rw [denote, value, denote_any_holds ctx values]
  | .unaryOp op operand => by
      rw [denote, value, denote_eq_value ctx operand]
  | .compare left ops comparators => by
      rw [denote, value, denote_eq_value ctx left,
        denote_chain ctx (value ctx left) ops comparators]
  | .name id _ => by
      rw [denote, value]
  | .constant v => by
      rw [denote, value]
  | .attribute v attr _ => by
      rw [denote, value, denote_eq_value ctx v]
      rcases value ctx v with _ | w
      · rfl
      · cases w <;> rfl
  | .other _ _ => by
      rw [denote, value]

theorem denote_all_holds (ctx : PyDict) : ∀ es : List Expr,
    (denote_all ctx es).all coerce_bool = all_hold ctx es
  | [] => rfl
  | e :: es => by
      rw [denote_all, all_hold, List.all_cons, denote_eq_value ctx e, denote_all_holds ctx es]

theorem denote_any_holds (ctx : PyDict) : ∀ es : List Expr,
    (denote_all ctx es).any coerce_bool = any_holds ctx es
  | [] => rfl
  | e :: es => by
      rw [denote_all, any_holds, List.any_cons, denote_eq_value ctx e, denote_any_holds ctx es]

theorem denote_chain (ctx : PyDict) (left : Option Value) :
    ∀ (ops : List CmpOp) (es : List Expr),
      chain (left :: denote_all ctx es) ops = chain_holds ctx left ops es
  | op :: ops, e :: es => by
      rw [denote_all, chain_holds, chain_cons, denote_eq_value ctx e, meets_eq_holds,
        denote_chain ctx (value ctx e) ops es]
  | [], es => by
      cases es <;> simp [chain, chain_holds]
  | _ :: _, [] => by
      simp [chain, chain_holds, denote_all]

end

/-! ## What `evaluate` returns -/

/-- A condition whose tree passed the checker evaluates to the truth of its value, or comes to a
comparison that is out of range. -/
theorem evaluate_outcome {P : Platform} {text : String} {tree : Expr}
    (htext : (strip text.toList).isEmpty = false) (hparse : parse_condition P text = .ok tree)
    (hcheck : check tree = .ok ()) (ctx : PyDict) :
    Outcome (evaluate P (some text) ctx) (Overflows ctx tree) (coerce_bool (value ctx tree)) := by
  rw [evaluate, if_neg (Bool.eq_false_iff.mp htext), hparse]
  show Outcome (check tree >>= _) _ _
  rw [hcheck]
  exact (eval_outcome ctx tree hcheck).map coerce_bool

/-- **The plain semantics.** Of a condition whose tree passed the checker, `evaluate` returns the
truth of what the tree means, unless it comes to a comparison that is out of range. -/
theorem plain_semantics_iff {P : Platform} {text : String} {tree : Expr}
    (htext : (strip text.toList).isEmpty = false) (hparse : parse_condition P text = .ok tree)
    (hcheck : check tree = .ok ()) (ctx : PyDict) :
    evaluate P (some text) ctx = .ok (coerce_bool (denote ctx tree)) ↔ ¬ Overflows ctx tree := by
  have houtcome := evaluate_outcome htext hparse hcheck ctx
  rw [denote_eq_value]
  constructor
  · intro hreturns ho
    obtain ⟨msg, hraised⟩ := houtcome.raises ho
    cases hreturns.symm.trans hraised
  · exact houtcome.returns

/-- `payload.x in b'a'` means what it evaluates to when `payload.x` is 97. -/
theorem plain_semantics_byte :
    evaluate (Recorded.parser Recorded.byte_test) (some "payload.x in b'a'")
        [("payload", .dict [("x", .int 97)])]
      = .ok (coerce_bool (denote [("payload", .dict [("x", .int 97)])] Recorded.byte_test)) := by
  refine (plain_semantics_iff (by decide +kernel) rfl (by decide +kernel) _).mpr ?_
  -- 97 is a byte
  intro ho
  rcases ho with ho | ho | ho | ⟨-, ho⟩
  · exact ho
  · exact ho
  · exact ho (by decide)
  · exact ho

/-- When it is 300, `evaluate` raises instead. -/
theorem plain_semantics_no_byte :
    ¬ ∀ (P : Platform) (text : String) (tree : Expr) (ctx : PyDict),
      (strip text.toList).isEmpty = false → parse_condition P text = .ok tree →
      check tree = .ok () → JsonContext ctx →
      evaluate P (some text) ctx = .ok (coerce_bool (denote ctx tree)) := by
  intro h
  have hjson : JsonContext [("payload", .dict [("x", .int 300)])] := by
    intro kv hkv
    rw [List.mem_singleton.mp hkv]
    exact Or.inl rfl
  have hreturns := h (Recorded.parser Recorded.byte_test) "payload.x in b'a'" Recorded.byte_test
    [("payload", .dict [("x", .int 300)])] (by decide +kernel) rfl (by decide +kernel) hjson
  have hraises : evaluate (Recorded.parser Recorded.byte_test) (some "payload.x in b'a'")
      [("payload", .dict [("x", .int 300)])]
      = .error (.valueError "byte must be in range(0, 256)") := by decide +kernel
  cases hreturns.symm.trans hraises

end DecisionRuntime.ConditionEvaluator
