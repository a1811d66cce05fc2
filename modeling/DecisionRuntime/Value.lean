/-
The dynamically typed values the runtime passes around: signal payloads, node
configurations, actions, event payloads and the operands of conditions.

`Value` has one constructor for each built-in type such a value can have. A
payload comes from JSON and a configuration from YAML, so dictionaries have
string keys; `datetime` is here because a condition may read `created_at`, and
`bytes`, `complex` and `ellipsis` because a condition may contain such a literal.

Floats are exact: a finite double is the rational it denotes. There is no NaN,
which neither a JSON document nor an accepted condition can produce.
-/
import Mathlib.Algebra.Order.Ring.Rat
import Mathlib.Data.List.Infix

set_option autoImplicit false

namespace DecisionRuntime

/-! ## Floats -/

/-- A double without NaN: the rational it denotes, or an infinity. -/
inductive PyFloat
  | neg_inf
  | finite (q : ℚ)
  | inf
  deriving DecidableEq

/-- The order of floats, which agrees with the order of the rationals they denote. -/
def PyFloat.cmp : PyFloat → PyFloat → Ordering
  | .neg_inf, .neg_inf => .eq
  | .neg_inf, _ => .lt
  | _, .neg_inf => .gt
  | .inf, .inf => .eq
  | .inf, _ => .gt
  | _, .inf => .lt
  | .finite p, .finite q => if p < q then .lt else if p = q then .eq else .gt

/-! ## Timestamps -/

/-- A `datetime`: the microseconds the wall clock shows since the start of year 1, and the
microseconds that clock is east of UTC (`none` when the value is naive). -/
structure Datetime where
  wall : ℕ
  utcoffset : Option ℤ
  deriving DecidableEq

namespace Datetime

/-- `n` in decimal, padded with zeros to `width` digits. -/
def pad (width n : ℕ) : String :=
  let digits := Nat.toDigits 10 n
  String.ofList (List.replicate (width - digits.length) '0' ++ digits)

/-- The days before each month of a common year (`_DAYS_BEFORE_MONTH`, from month 1). -/
def days_before_month (month : ℕ) : ℕ :=
  [0, 0, 31, 59, 90, 120, 151, 181, 212, 243, 273, 304, 334].getD month 0

/-- The days of each month of a common year (`_DAYS_IN_MONTH`). -/
def days_in_month (month : ℕ) : ℕ :=
  [0, 31, 28, 31, 30, 31, 30, 31, 31, 30, 31, 30, 31].getD month 0

/-- `datetime._ord2ymd`, from the number of days since 0001-01-01. -/
def ord2ymd (days : ℕ) : ℕ × ℕ × ℕ :=
  let n400 := days / 146097
  let n := days % 146097
  let n100 := n / 36524
  let n := n % 36524
  let n4 := n / 1461
  let n := n % 1461
  let n1 := n / 365
  let n := n % 365
  let year := n400 * 400 + 1 + n100 * 100 + n4 * 4 + n1
  if n1 = 4 ∨ n100 = 4 then (year - 1, 12, 31)
  else
    let leapyear := n1 = 3 ∧ (n4 ≠ 24 ∨ n100 = 3)
    let month := (n + 50) / 32
    let preceding := days_before_month month + (if month > 2 ∧ leapyear then 1 else 0)
    if preceding > n then
      let month := month - 1
      let preceding := preceding - (days_in_month month + (if month = 2 ∧ leapyear then 1 else 0))
      (year, month, n - preceding + 1)
    else (year, month, n - preceding + 1)

/-- `hh:mm`, with the seconds and the microseconds only where they are not zero. -/
def offset_text (off : ℤ) : String :=
  let sign := if off < 0 then "-" else "+"
  let us := off.natAbs
  let base := sign ++ pad 2 (us / 3600000000) ++ ":" ++ pad 2 (us / 60000000 % 60)
  let seconds := us / 1000000 % 60
  let micros := us % 1000000
  if micros ≠ 0 then base ++ ":" ++ pad 2 seconds ++ "." ++ pad 6 micros
  else if seconds ≠ 0 then base ++ ":" ++ pad 2 seconds
  else base

/-- `datetime.isoformat()`. -/
def isoformat (d : Datetime) : String :=
  let (year, month, day) := ord2ymd (d.wall / 86400000000)
  let us := d.wall % 86400000000
  let date := pad 4 year ++ "-" ++ pad 2 month ++ "-" ++ pad 2 day
  let time := pad 2 (us / 3600000000) ++ ":" ++ pad 2 (us / 60000000 % 60) ++ ":"
    ++ pad 2 (us / 1000000 % 60)
  let micros := if us % 1000000 = 0 then "" else "." ++ pad 6 (us % 1000000)
  date ++ "T" ++ time ++ micros ++ (d.utcoffset.map offset_text).getD ""

/-- The instant of an aware value. -/
def instant (d : Datetime) : ℤ := d.wall - d.utcoffset.getD 0

/-- Two aware values compare by the instant, two naive ones by the clock; a mixed pair has no
order. -/
def cmp (a b : Datetime) : Option Ordering :=
  match a.utcoffset, b.utcoffset with
  | some oa, some ob => some (compare ((a.wall : ℤ) - oa) (b.wall - ob))
  | none, none => some (compare a.wall b.wall)
  | _, _ => none

end Datetime

/-! ## Values -/

/-- A Python value. -/
inductive Value
  | none
  | bool (b : Bool)
  | int (i : ℤ)
  | float (f : PyFloat)
  | complex (imag : PyFloat)
  | str (s : String)
  | bytes (b : List ℕ)
  | ellipsis
  | datetime (d : Datetime)
  | list (xs : List Value)
  | dict (kvs : List (String × Value))

/-- A `dict[str, Any]`. -/
abbrev PyDict := List (String × Value)

/-- `d.get(k)`, where a missing key is `none`. -/
def PyDict.get (d : PyDict) (k : String) : Option Value :=
  match d with
  | [] => .none
  | (k', v) :: rest => if k' = k then some v else PyDict.get rest k

namespace Value

/-- A string, or `None`. -/
def optStr : Option String → Value
  | some s => .str s
  | Option.none => .none

/-- `bool(v)`. -/
def truthy : Value → Bool
  | .none => false
  | .bool b => b
  | .int i => i ≠ 0
  | .float f => f ≠ .finite 0
  | .complex f => f ≠ .finite 0
  | .str s => s ≠ ""
  | .bytes b => !b.isEmpty
  | .ellipsis => true
  | .datetime _ => true
  | .list xs => !xs.isEmpty
  | .dict kvs => !kvs.isEmpty

/-- The real and imaginary parts of a number. -/
def number : Value → Option (PyFloat × PyFloat)
  | .bool b => some (.finite (if b then 1 else 0), .finite 0)
  | .int i => some (.finite i, .finite 0)
  | .float f => some (f, .finite 0)
  | .complex f => some (.finite 0, f)
  | _ => Option.none

/-- The value of a number that has an order. -/
def real : Value → Option PyFloat
  | .bool b => some (.finite (if b then 1 else 0))
  | .int i => some (.finite i)
  | .float f => some f
  | _ => Option.none

/-! ### Equality -/

mutual

/-- `a == b`. -/
def pyEq : Value → Value → Bool
  | .none, .none => true
  | .ellipsis, .ellipsis => true
  | .str a, .str b => a = b
  | .bytes a, .bytes b => a = b
  | .datetime a, .datetime b => a.cmp b = some .eq
  | .list xs, .list ys => listEq xs ys
  | .dict xs, .dict ys => xs.length = ys.length && dictSub xs ys
  | a, b =>
    match number a, number b with
    | some m, some n => m = n
    | _, _ => false

/-- Elementwise equality of two lists. -/
def listEq : List Value → List Value → Bool
  | [], [] => true
  | x :: xs, y :: ys => pyEq x y && listEq xs ys
  | _, _ => false

/-- Every entry of the first dictionary has an equal value in the second. -/
def dictSub : List (String × Value) → List (String × Value) → Bool
  | [], _ => true
  | (k, v) :: rest, ys =>
    (match PyDict.get ys k with
      | some w => pyEq v w
      | Option.none => false) && dictSub rest ys

end

/-- Only a string is equal to a string. -/
theorem pyEq_str_iff {v : Value} {s : String} : v.pyEq (.str s) = true ↔ v = .str s := by
  cases v with
  | str t => simp [pyEq]
  | _ => simp [pyEq, number]

/-! ### Order -/

/-- Lexicographic order of two lists under `cmp`. -/
def lexCmp {α : Type} (cmp : α → α → Ordering) : List α → List α → Ordering
  | [], [] => .eq
  | [], _ :: _ => .lt
  | _ :: _, [] => .gt
  | x :: xs, y :: ys =>
    match cmp x y with
    | .eq => lexCmp cmp xs ys
    | o => o

mutual

/-- How `a` and `b` are ordered; `none` where `a < b` is a `TypeError`. -/
def pyCmp : Value → Value → Option Ordering
  | .str a, .str b => some (lexCmp (fun c d => compare c.val d.val) a.toList b.toList)
  | .bytes a, .bytes b => some (lexCmp compare a b)
  | .datetime a, .datetime b => a.cmp b
  | .list xs, .list ys => listCmp xs ys
  | a, b =>
    match real a, real b with
    | some x, some y => some (x.cmp y)
    | _, _ => Option.none

/-- Lists compare at the first position where they differ, and then by length. -/
def listCmp : List Value → List Value → Option Ordering
  | [], [] => some .eq
  | [], _ :: _ => some .lt
  | _ :: _, [] => some .gt
  | x :: xs, y :: ys => if pyEq x y then listCmp xs ys else pyCmp x y

end

end Value

end DecisionRuntime
