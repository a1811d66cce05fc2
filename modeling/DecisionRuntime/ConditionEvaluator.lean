/-
`backend/app/runtime/condition_evaluator.py`: literal normalisation, the safety
checker and the evaluator.

The checker and the evaluator are two separate traversals of a tree, as in the
source: `check` is `_SafeNodeChecker.visit`, `eval` is `_SafeEvaluator.evaluate`
with one branch for each `_eval_*` handler. A missing value is `none`, the
`_MISSING` sentinel; it is not a `Value`, so it cannot be confused with the
`None` a payload may contain.

`_apply_cmp` turns a `TypeError` into `False` and lets every other exception
through. `in` on `bytes` is the one comparison with another one.
-/
import DecisionRuntime.Models

set_option autoImplicit false

namespace DecisionRuntime.ConditionEvaluator

/-! ## Literal normalisation -/

/-- Replace every whole-word occurrence of `word`. `prev` says whether the character before is a
word character, and `skip` counts the characters of a match still to be dropped. -/
def sub (P : Platform) (word repl : List Char) : Bool → ℕ → List Char → List Char
  | _, _, [] => []
  -- inside a match: its characters are dropped, and the last of them is a word character
  | _, skip + 1, _ :: cs => sub P word repl true skip cs
  | prev, 0, c :: cs =>
    -- a match begins and ends at a word boundary
    if !prev && word.isPrefixOf (c :: cs)
        && !(((c :: cs).drop word.length).head?.any P.isWord) then
      repl ++ sub P word repl true (word.length - 1) cs
    else c :: sub P word repl (P.isWord c) 0 cs

/-- `_normalize_literals`. -/
def normalize_literals (P : Platform) (expr : List Char) : List Char :=
  let expr := sub P "true".toList "True".toList false 0 expr
  let expr := sub P "false".toList "False".toList false 0 expr
  sub P "null".toList "None".toList false 0 expr

/-! ## The safety checker -/

/-- `_ALLOWED_CONTEXT_VARS`. -/
def ALLOWED_CONTEXT_VARS : List String := ["type", "confidence", "payload", "source", "created_at"]

/-- The construct is not on the whitelist. -/
def not_permitted (type_name : String) : PyError :=
  .conditionEvaluationError
    ("Expression construct '" ++ type_name ++ "' is not permitted in conditions")

/-- `visit` of a context: only `Load` is allowed. -/
def check_ctx : ExprContext → Except PyError Unit
  | .load => .ok ()
  | .store => .error (not_permitted "Store")
  | .del => .error (not_permitted "Del")

/-- `visit` of a unary operator: only `Not` is allowed. -/
def check_unary : UnaryOp → Except PyError Unit
  | .not => .ok ()
  | .other type_name => .error (not_permitted type_name)

/-- `visit` of a comparison operator: every one but `is` and `is not` is allowed. -/
def check_cmp : CmpOp → Except PyError Unit
  | .is => .error (not_permitted "Is")
  | .is_not => .error (not_permitted "IsNot")
  | _ => .ok ()

/-- `visit_Name`, before its children. -/
def check_name (id : String) : Except PyError Unit :=
  if id ∈ ALLOWED_CONTEXT_VARS then .ok ()
  else .error (.conditionEvaluationError ("Variable '" ++ id ++ "' is not allowed in conditions; "
    ++ "permitted variables: ['confidence', 'created_at', 'payload', 'source', 'type']"))

/-- `visit_Attribute`, before its children. -/
def check_attr (attr : String) : Except PyError Unit :=
  if "__".toList.isPrefixOf attr.toList then
    .error (.conditionEvaluationError
      ("Dunder attribute access '." ++ attr ++ "' is not permitted in conditions"))
  else .ok ()

mutual

/-- `_SafeNodeChecker.visit`: the first construct, in the order `generic_visit` goes through the
fields, that is not allowed. -/
def check : Expr → Except PyError Unit
  | .boolOp _ values => check_list values
  | .unaryOp op operand => do
    check_unary op
    check operand
  | .compare left ops comparators => do
    check left
    ops.forM check_cmp
    check_list comparators
  | .name id ctx => do
    check_name id
    check_ctx ctx
  | .constant _ => .ok ()
  | .attribute value attr ctx => do
    -- `visit_Attribute` looks at the name first and then visits the children
    check_attr attr
    check value
    check_ctx ctx
  | .other type_name _ => .error (not_permitted type_name)

def check_list : List Expr → Except PyError Unit
  | [] => .ok ()
  | e :: es => do
    check e
    check_list es

end

/-! ## The evaluator -/

/-- `left in right`, or the exception it raises. -/
def contains (left right : Value) : Except PyError Bool :=
  match right with
  | .str r =>
    match left with
    | .str l => .ok (decide (l.toList <:+: r.toList))
    | _ => .error (.typeError "'in <string>' requires string as left operand")
  | .bytes r =>
    match left with
    | .bytes l => .ok (decide (l <:+: r))
    | .int i =>
      if 0 ≤ i ∧ i < 256 then .ok (decide (i.toNat ∈ r))
      else .error (.valueError "byte must be in range(0, 256)")
    -- a `bool` is an `int`, and always in range
    | .bool b => .ok (decide (b.toNat ∈ r))
    | _ => .error (.typeError "a bytes-like object is required")
  -- by equality, so that `1 in [True]` holds
  | .list xs => .ok (xs.any (fun x => left.pyEq x))
  | .dict kvs =>
    match left with
    | .str k => .ok (kvs.any (fun kv => kv.1 = k))
    -- a dict hashes what it is asked for, and its keys are strings
    | .list _ | .dict _ => .error (.typeError "unhashable type")
    | _ => .ok false
  | _ => .error (.typeError "argument is not iterable")

/-- The comparison `op` of two values that are both present. -/
def compare_values (left : Value) (op : CmpOp) (right : Value) : Except PyError Bool :=
  let ordered (test : Ordering → Bool) : Except PyError Bool :=
    match left.pyCmp right with
    | some o => .ok (test o)
    | none => .error (.typeError "not supported between instances")
  match op with
  | .eq => .ok (left.pyEq right)
  | .not_eq => .ok (!left.pyEq right)
  | .lt => ordered (· == .lt)
  | .lt_e => ordered (· != .gt)
  | .gt => ordered (· == .gt)
  | .gt_e => ordered (· != .lt)
  | .in => contains left right
  | .not_in => (contains left right).map (!·)
  | .is => .error (.conditionEvaluationError "Unsupported comparison operator: Is")
  | .is_not => .error (.conditionEvaluationError "Unsupported comparison operator: IsNot")

/-- `_apply_cmp`: a missing operand and a `TypeError` make the comparison false. -/
def apply_cmp (left : Option Value) (op : CmpOp) (right : Option Value) : Except PyError Bool :=
  match left, right with
  | some l, some r =>
    match compare_values l op r with
    -- the `except TypeError` of the source; anything else goes through
    | .error (.typeError _) => .ok false
    | res => res
  | _, _ => .ok false

/-- `_coerce_bool`. -/
def coerce_bool : Option Value → Bool
  | none => false
  | some v => v.truthy

mutual

/-- `_SafeEvaluator.evaluate`. -/
def eval (ctx : PyDict) : Expr → Except PyError (Option Value)
  | .boolOp .and values => do
    let b ← eval_and ctx values
    return some (.bool b)
  | .boolOp .or values => do
    let b ← eval_or ctx values
    return some (.bool b)
  | .unaryOp .not operand => do
    let v ← eval ctx operand
    return some (.bool !coerce_bool v)
  | .unaryOp (.other type_name) _ =>
    .error (.conditionEvaluationError ("Unsupported unary operator: " ++ type_name))
  | .compare left ops comparators => do
    let l ← eval ctx left
    let b ← eval_chain ctx l ops comparators
    return some (.bool b)
  | .name id _ => .ok (PyDict.get ctx id)
  | .constant value => .ok (some value)
  | .attribute value attr _ => do
    match ← eval ctx value with
    | some (.dict kvs) => return PyDict.get kvs attr
    | _ => return none
  | .other type_name _ =>
    .error (.conditionEvaluationError
      ("No evaluator registered for AST node '" ++ type_name ++ "'"))

/-- The loop of `_eval_BoolOp` for `And`. -/
def eval_and (ctx : PyDict) : List Expr → Except PyError Bool
  | [] => .ok true
  | e :: es => do
    let v ← eval ctx e
    -- short-circuit: the rest is not evaluated, and so does not raise
    if coerce_bool v then eval_and ctx es else return false

/-- The loop of `_eval_BoolOp` for `Or`. -/
def eval_or (ctx : PyDict) : List Expr → Except PyError Bool
  | [] => .ok false
  | e :: es => do
    let v ← eval ctx e
    -- short-circuit, as for `And`
    if coerce_bool v then return true else eval_or ctx es

/-- The loop of `_eval_Compare`, over `zip(ops, comparators)`. -/
def eval_chain (ctx : PyDict) (left : Option Value) :
    List CmpOp → List Expr → Except PyError Bool
  | op :: ops, e :: es => do
    let right ← eval ctx e
    -- a chain goes on from the right operand, and stops at the first comparison that fails
    if ← apply_cmp left op right then eval_chain ctx right ops es else return false
  | _, _ => .ok true

end

/-! ## The public functions -/

/-- `ast.parse` of the normalised condition. -/
def parse_condition (P : Platform) (condition : String) : Except PyError Expr :=
  match P.ast_parse (String.ofList (normalize_literals P (strip condition.toList))) with
  | .ok tree => .ok tree
  | .error msg => .error (.conditionEvaluationError
      ("Condition has invalid syntax (" ++ P.repr msg ++ "): " ++ P.repr condition))

/-- `ConditionEvaluator.evaluate`. -/
def evaluate (P : Platform) (condition : Option String) (ctx : PyDict) : Except PyError Bool :=
  match condition with
  | none => .ok true
  | some text =>
    -- an empty condition holds, as a missing one does
    if (strip text.toList).isEmpty then .ok true
    else do
      let tree ← parse_condition P text
      check tree
      let result ← eval ctx tree
      return coerce_bool result

/-- `ConditionEvaluator.validate_syntax`. -/
def validate_syntax (P : Platform) (condition : String) : Except PyError Unit :=
  if (strip condition.toList).isEmpty then .ok ()
  else do
    let tree ← parse_condition P condition
    check tree

/-- `_build_context` of the engine and of the boundary engine. -/
def build_context (signal : Signal) : PyDict :=
  [("type", .str signal.type), ("confidence", signal.confidence.toValue),
    ("payload", .dict signal.payload), ("source", .str signal.source),
    ("created_at", .datetime signal.timestamp)]

end DecisionRuntime.ConditionEvaluator
