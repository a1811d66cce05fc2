/-
What the runtime takes from outside its own source: the trees `ast.parse`
returns, the exceptions it raises and catches, and the library functions that
are kept as parameters.

`Platform` is the record of those parameters. Each is a function of its
arguments alone, and nothing is assumed of any of them here; a result that needs
more (that `uuid5` does not collide on the names a run hashes) says so in its
own hypotheses.
-/
import DecisionRuntime.Uuid
import DecisionRuntime.Value

set_option autoImplicit false

namespace DecisionRuntime

/-! ## Expression trees -/

/-- `ast.And`, `ast.Or`. -/
inductive BoolOp
  | and
  | or
  deriving DecidableEq

/-- `ast.Not`, and the unary operators the whitelist leaves out, by type name. -/
inductive UnaryOp
  | not
  | other (type_name : String)
  deriving DecidableEq

/-- The `ast.cmpop` types. -/
inductive CmpOp
  | eq
  | not_eq
  | lt
  | lt_e
  | gt
  | gt_e
  | is
  | is_not
  | in
  | not_in
  deriving DecidableEq

/-- The `ast.expr_context` types. -/
inductive ExprContext
  | load
  | store
  | del
  deriving DecidableEq

/-- A Python expression. The types the whitelist names have a constructor each; `other` is a
node of any other type, with that type's name and the expressions below it. -/
inductive Expr
  | boolOp (op : BoolOp) (values : List Expr)
  | unaryOp (op : UnaryOp) (operand : Expr)
  | compare (left : Expr) (ops : List CmpOp) (comparators : List Expr)
  | name (id : String) (ctx : ExprContext)
  | constant (value : Value)
  | attribute (value : Expr) (attr : String) (ctx : ExprContext)
  | other (type_name : String) (children : List Expr)

/-! ## Exceptions -/

/-- The exceptions of the runtime, each with its message, and the built-in ones it lets
through. `external` is whatever a dependency raises. -/
inductive PyError
  | conditionEvaluationError (msg : String)
  | humanGateNotFoundError (msg : String)
  | humanGateInvalidStateError (msg : String)
  | humanGateInsufficientRoleError (msg : String)
  | traceNotFoundError (msg : String)
  | flowNotFoundError (msg : String)
  | flowValidationError (msg : String)
  | contractValidationError (msg : String)
  | httpException (status_code : ℕ) (detail : String)
  | runtimeError (msg : String)
  | validationError (model : String)
  | attributeError (msg : String)
  | typeError (msg : String)
  | valueError (msg : String)
  | keyError (key : String)
  | external (msg : String)
  deriving DecidableEq

/-- `str(exc)`. -/
def PyError.text : PyError → String
  | .conditionEvaluationError m | .humanGateNotFoundError m | .humanGateInvalidStateError m
  | .humanGateInsufficientRoleError m | .traceNotFoundError m | .flowNotFoundError m
  | .flowValidationError m | .contractValidationError m | .runtimeError m | .validationError m
  | .attributeError m | .typeError m | .valueError m | .external m => m
  | .httpException _ detail => detail
  | .keyError k => "'" ++ k ++ "'"

/-! ## Library functions -/

/-- The library functions the runtime calls. -/
structure Platform where
  /-- `ast.parse(text, mode="eval").body`, or the `msg` of its `SyntaxError`, which a NUL in the
  text raises like any other fault. (Before 3.12, some versions of Python raise a `ValueError` for
  a NUL; a `RecursionError` or a `MemoryError` is one of the interpreter's limits.) -/
  ast_parse : String → Except String Expr
  /-- `uuid.uuid5(namespace, name)`. -/
  uuid5 : UUID → String → UUID
  /-- `hashlib.sha256(text.encode("utf-8")).hexdigest()`. -/
  sha256_hexdigest : String → String
  /-- `float` of a string, or `none` for its `ValueError`. -/
  float : String → Option PyFloat
  /-- `repr` of a string. -/
  repr : String → String
  /-- `str.isalnum` of a character beyond ASCII. -/
  isalnum : Char → Bool
  /-- `unicodedata.decimal` of a character beyond ASCII. -/
  decimal : Char → Option ℕ

/-- The characters `str.strip()` removes. -/
def isSpace (c : Char) : Bool :=
  let n := c.val.toNat
  (9 ≤ n && n ≤ 13) || (28 ≤ n && n ≤ 32) || n = 0x85 || n = 0xA0 || n = 0x1680
    || (0x2000 ≤ n && n ≤ 0x200A) || n = 0x2028 || n = 0x2029 || n = 0x202F || n = 0x205F
    || n = 0x3000

/-- `s.strip()`, on characters. -/
def strip (cs : List Char) : List Char :=
  ((cs.dropWhile isSpace).reverse.dropWhile isSpace).reverse

/-- `\d` of a regular expression: the value of a decimal digit. -/
def Platform.digit (P : Platform) (c : Char) : Option ℕ :=
  if c.isDigit then some (c.val.toNat - 48)
  else if c.val.toNat < 128 then none
  else P.decimal c

/-- `\w` of a regular expression. -/
def Platform.isWord (P : Platform) (c : Char) : Bool :=
  if c.val.toNat < 128 then c.isAlphanum || c = '_' else P.isalnum c

/-- `s.split(sep)` for a one-character separator, on characters. -/
def split (sep : Char) : List Char → List (List Char)
  | [] => [[]]
  | c :: cs =>
    if c = sep then [] :: split sep cs
    else
      match split sep cs with
      | [] => [[c]]
      | part :: parts => (c :: part) :: parts

end DecisionRuntime
