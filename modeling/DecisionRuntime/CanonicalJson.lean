/-
The canonical JSON of an event, read back.

`compute_event_hash` hashes one text. That the text determines what it was made from
is what a hash over it can promise: the strings are escaped so that each ends at its
own closing quote, the number ends at the comma after it, and a missing hash cannot
be a quoted one. `read_char` reads one escaped character off the front of a text;
everything else follows from it (`serialised_inj`).
-/
import DecisionRuntime.PostgresLedgerClient

set_option autoImplicit false

namespace DecisionRuntime

namespace PostgresLedgerClient

/-! ## Reading an escaped character -/

/-- Four hexadecimal digits off the front. -/
def read_hex4 : List Char → Option (ℕ × List Char)
  | a :: b :: c :: d :: rest => do
    let a ← UUID.hexVal a
    let b ← UUID.hexVal b
    let c ← UUID.hexVal c
    let d ← UUID.hexVal d
    return (((a.val * 16 + b.val) * 16 + c.val) * 16 + d.val, rest)
  | _ => none

/-- The character of a one-letter escape. -/
def short_escape (c : Char) : Option Char :=
  if c = 'n' then some '\n'
  else if c = 'r' then some '\r'
  else if c = 't' then some '\t'
  else if c = 'f' then some (Char.ofNat 0x0c)
  else if c = 'b' then some (Char.ofNat 0x08)
  else if c = '"' ∨ c = '\\' then some c
  else none

/-- The second half of a surrogate pair that begins with `high`. -/
def read_low (high : ℕ) : List Char → Option (Char × List Char)
  | '\\' :: 'u' :: rest => do
    let (low, rest) ← read_hex4 rest
    return (Char.ofNat (0x10000 + (high - 0xd800) * 0x400 + (low - 0xdc00)), rest)
  | _ => none

/-- One character of a JSON string off the front; `none` at the closing quote. -/
def read_char : List Char → Option (Char × List Char)
  | '"' :: _ => none
  | '\\' :: 'u' :: rest => do
    let (n, rest) ← read_hex4 rest
    if 0xd800 ≤ n ∧ n < 0xdc00 then read_low n rest
    else return (Char.ofNat n, rest)
  | '\\' :: c :: rest => (short_escape c).map (fun c => (c, rest))
  | c :: rest => some (c, rest)
  | [] => none

/-- The four digits of a number below `2 ^ 16`. -/
theorem hex4_eq {n : ℕ} (h : n < 0x10000) : hex4 n =
    [n / 4096, n / 256 % 16, n / 16 % 16, n % 16].map Nat.digitChar := by
  have hif := fun m => Nat.toDigits_eq_if (b := 16) (n := m) (by decide)
  rw [hex4, hif n]
  by_cases h1 : n < 16
  · have hz : n / 4096 = 0 ∧ n / 256 % 16 = 0 ∧ n / 16 % 16 = 0 ∧ n % 16 = n := by omega
    rw [if_pos h1]
    simp [hz, List.replicate]
  rw [if_neg h1, hif (n / 16), Nat.div_div_eq_div_mul]
  by_cases h2 : n / 16 < 16
  · have hz : n / 4096 = 0 ∧ n / 256 % 16 = 0 ∧ n / 16 % 16 = n / 16 := by omega
    rw [if_pos h2]
    simp [hz, List.replicate]
  rw [if_neg h2, hif (n / (16 * 16)), Nat.div_div_eq_div_mul]
  by_cases h3 : n / (16 * 16) < 16
  · have hz : n / 4096 = 0 ∧ n / 256 % 16 = n / 256 := by omega
    rw [if_pos h3]
    simp [hz]
  rw [if_neg h3, hif (n / (16 * 16 * 16)), if_pos (by omega)]
  simp

theorem hexVal_digitChar {n : ℕ} (h : n < 16) :
    UUID.hexVal (Nat.digitChar n) = some ⟨n, h⟩ :=
  UUID.hexVal_hexChar ⟨n, h⟩

theorem read_hex4_append {n : ℕ} (h : n < 0x10000) (rest : List Char) :
    read_hex4 (hex4 n ++ rest) = some (n, rest) := by
  rw [hex4_eq h]
  have h1 := hexVal_digitChar (n := n / 4096) (by omega)
  have h2 := hexVal_digitChar (n := n / 256 % 16) (by omega)
  have h3 := hexVal_digitChar (n := n / 16 % 16) (by omega)
  have h4 := hexVal_digitChar (n := n % 16) (by omega)
  simp only [List.map_cons, List.map_nil, List.cons_append, List.nil_append, read_hex4, h1, h2, h3,
    h4, Option.bind_eq_bind, Option.bind_some, Option.pure_def, Option.some.injEq, Prod.mk.injEq,
    and_true]
  omega

/-- The two halves of a surrogate pair are read as one character. -/
theorem read_char_pair {high low : ℕ} (hge : 0xd800 ≤ high) (hlt : high < 0xdc00)
    (hlow : low < 0x10000) (rest : List Char) :
    read_char (('\\' :: 'u' :: hex4 high) ++ (('\\' :: 'u' :: hex4 low) ++ rest))
      = some (Char.ofNat (0x10000 + (high - 0xd800) * 0x400 + (low - 0xdc00)), rest) := by
  have hhigh : high < 0x10000 := by omega
  rw [List.cons_append, List.cons_append, read_char, read_hex4_append hhigh]
  show (if 0xd800 ≤ high ∧ high < 0xdc00 then _ else _) = _
  rw [if_pos ⟨hge, hlt⟩, List.cons_append, List.cons_append, read_low, read_hex4_append hlow]
  rfl

/-- **An escaped character is read back**, whatever follows it. -/
theorem read_char_append (c : Char) (rest : List Char) :
    read_char (json_char c ++ rest) = some (c, rest) := by
  have hback : Char.ofNat c.val.toNat = c := Char.ofNat_toNat c
  have hvalid : c.val.toNat < 0xd800 ∨ 0xdfff < c.val.toNat ∧ c.val.toNat < 0x110000 := c.valid
  simp only [json_char]
  split_ifs with h1 h2 h3 h4 h5 h6 h7 h8 h9
  · rw [h1]
    rfl
  · rw [h2]
    rfl
  · rw [h3]
    rfl
  · rw [h4]
    rfl
  · rw [h5]
    rfl
  · rw [← hback, h6]
    rfl
  · rw [← hback, h7]
    rfl
  · -- a printable character stands for itself
    rw [List.singleton_append, read_char.eq_def]
    split <;> simp_all
  · -- a character of the basic plane is no half of a surrogate pair
    rw [List.cons_append, List.cons_append, read_char, read_hex4_append h9]
    have hhigh : ¬ (0xd800 ≤ c.val.toNat ∧ c.val.toNat < 0xdc00) := by omega
    show (if 0xd800 ≤ c.val.toNat ∧ c.val.toNat < 0xdc00 then _ else _) = _
    rw [if_neg hhigh, hback]
    rfl
  · -- beyond it the two halves add up
    have hsum : 0x10000 + (0xd800 + (c.val.toNat - 0x10000) / 0x400 - 0xd800) * 0x400
        + (0xdc00 + (c.val.toNat - 0x10000) % 0x400 - 0xdc00) = c.val.toNat := by omega
    rw [List.append_assoc, read_char_pair (by omega) (by omega) (by omega), hsum, hback]

/-! ## Reading a string, an option and a number -/

/-- The closing quote ends the characters of a string. -/
theorem flatMap_json_char_inj {a b x y : List Char}
    (h : a.flatMap json_char ++ '"' :: x = b.flatMap json_char ++ '"' :: y) : a = b ∧ x = y := by
  induction a generalizing b with
  | nil =>
      cases b with
      | nil => simpa using h
      | cons d b =>
          -- an escaped character does not begin with a quote
          have hread := congrArg read_char h
          rw [List.flatMap_cons, List.append_assoc, read_char_append] at hread
          simp [read_char] at hread
  | cons c a ih =>
      rw [List.flatMap_cons, List.append_assoc] at h
      have hread := congrArg read_char h
      rw [read_char_append] at hread
      cases b with
      | nil => simp [read_char] at hread
      | cons d b =>
          rw [List.flatMap_cons, List.append_assoc, read_char_append, Option.some.injEq,
            Prod.mk.injEq] at hread
          obtain ⟨hab, hxy⟩ := ih hread.2
          exact ⟨by rw [hread.1, hab], hxy⟩

theorem toList_json_str (s : String) :
    (json_str s).toList = '"' :: (s.toList.flatMap json_char ++ ['"']) := by
  simp [json_str, String.toList_append]

/-- **A string is read off the front of a text.** -/
theorem json_str_append_inj {s t x y : String} (h : json_str s ++ x = json_str t ++ y) :
    s = t ∧ x = y := by
  have hl := congrArg String.toList h
  simp only [String.toList_append, toList_json_str, List.cons_append, List.append_assoc,
    List.nil_append, List.cons.injEq, true_and] at hl
  obtain ⟨hst, hxy⟩ := flatMap_json_char_inj hl
  exact ⟨String.toList_inj.mp hst, String.toList_inj.mp hxy⟩

theorem null_ne_json_str (s x y : String) : "null" ++ x ≠ json_str s ++ y := by
  intro h
  have hl := congrArg String.toList h
  rw [String.toList_append, String.toList_append, toList_json_str, List.cons_append] at hl
  have hhead := congrArg List.head? hl
  simp at hhead

/-- A missing hash is no quoted one. -/
theorem json_opt_append_inj {s t : Option String} {x y : String}
    (h : json_opt s ++ x = json_opt t ++ y) : s = t ∧ x = y := by
  cases s with
  | none =>
      cases t with
      | none => exact ⟨rfl, String.append_right_inj _ |>.mp h⟩
      | some t => exact absurd h (null_ne_json_str t x y)
  | some s =>
      cases t with
      | none => exact absurd h.symm (null_ne_json_str s y x)
      | some t =>
          obtain ⟨hst, hxy⟩ := json_str_append_inj h
          exact ⟨by rw [hst], hxy⟩

/-- Digits end at the first character that is none. -/
theorem digits_append_inj {a b x y : List Char} (ha : ∀ c ∈ a, c.isDigit) (hb : ∀ c ∈ b, c.isDigit)
    (h : a ++ ',' :: x = b ++ ',' :: y) : a = b ∧ x = y := by
  have htake : ∀ l r : List Char, (∀ c ∈ l, c.isDigit) →
      (l ++ ',' :: r).takeWhile Char.isDigit = l := by
    intro l r hl
    rw [List.takeWhile_append_of_pos hl, List.takeWhile_cons_of_neg (by decide), List.append_nil]
  have hab : a = b := by
    rw [← htake a x ha, h, htake b y hb]
  subst hab
  refine ⟨rfl, ?_⟩
  simpa using h

theorem nat_append_inj {m n : ℕ} {x y : String}
    (h : toString m ++ "," ++ x = toString n ++ "," ++ y) : m = n ∧ x = y := by
  have hl := congrArg String.toList h
  simp only [String.toList_append, List.append_assoc] at hl
  have hdigit : ∀ k : ℕ, ∀ c ∈ Nat.toDigits 10 k, c.isDigit := fun k c hc =>
    Nat.isDigit_of_mem_toDigits (by decide) (by decide) hc
  rw [Nat.toString_eq_repr, Nat.toString_eq_repr, Nat.toList_repr, Nat.toList_repr] at hl
  obtain ⟨hmn, hxy⟩ := digits_append_inj (hdigit m) (hdigit n) hl
  refine ⟨?_, String.toList_inj.mp hxy⟩
  rw [← Nat.ofDigitChars_ten_toDigits (n := m), hmn, Nat.ofDigitChars_ten_toDigits]

/-! ## The whole text -/

/-- The members of the object one after the other, each value next to the text that follows it. -/
theorem serialised_eq (event : LedgerEvent) (sequence_no : ℕ) (prev_hash : Option String) :
    serialised event sequence_no prev_hash =
      "\x7b" ++ json_str "decision_id" ++ ":" ++ (json_str event.decision_id.str ++
      ("," ++ json_str "event_id" ++ ":" ++ (json_str event.event_id.str ++
      ("," ++ json_str "prev_hash" ++ ":" ++ (json_opt prev_hash ++
      ("," ++ json_str "sequence_no" ++ ":" ++ (toString sequence_no ++ "," ++
      (json_str "step_id" ++ ":" ++ (json_str event.step_id ++
      ("," ++ json_str "step_type" ++ ":" ++ (json_str event.step_type ++
      ("," ++ json_str "trace_id" ++ ":" ++ (json_str event.trace_id.str ++ "\x7d"
        ))))))))))))) := by
  simp only [serialised, List.map_cons, List.map_nil, String.intercalate_cons_cons,
    String.intercalate_singleton, String.append_assoc]

/-- What the hash of an event covers. -/
structure Sealed where
  decision_id : UUID
  event_id : UUID
  prev_hash : Option String
  sequence_no : ℕ
  step_id : String
  step_type : String
  trace_id : UUID
  deriving DecidableEq

/-- The sealed facts of an event at its place. -/
def sealed (event : LedgerEvent) (sequence_no : ℕ) (prev_hash : Option String) : Sealed where
  decision_id := event.decision_id
  event_id := event.event_id
  prev_hash := prev_hash
  sequence_no := sequence_no
  step_id := event.step_id
  step_type := event.step_type
  trace_id := event.trace_id

/-- **The canonical text determines the sealed facts.** -/
theorem serialised_inj {e f : LedgerEvent} {m n : ℕ} {p q : Option String} :
    serialised e m p = serialised f n q ↔ sealed e m p = sealed f n q := by
  constructor
  · intro h
    rw [serialised_eq, serialised_eq, String.append_right_inj] at h
    obtain ⟨hdecision, h⟩ := json_str_append_inj h
    rw [String.append_right_inj] at h
    obtain ⟨hevent, h⟩ := json_str_append_inj h
    rw [String.append_right_inj] at h
    obtain ⟨hprev, h⟩ := json_opt_append_inj h
    rw [String.append_right_inj] at h
    obtain ⟨hno, h⟩ := nat_append_inj h
    rw [String.append_right_inj] at h
    obtain ⟨hstep, h⟩ := json_str_append_inj h
    rw [String.append_right_inj] at h
    obtain ⟨htype, h⟩ := json_str_append_inj h
    rw [String.append_right_inj] at h
    obtain ⟨htrace, -⟩ := json_str_append_inj h
    rw [sealed, sealed, UUID.str_inj.mp hdecision, UUID.str_inj.mp hevent, hprev, hno, hstep,
      htype, UUID.str_inj.mp htrace]
  · intro h
    simp only [sealed, Sealed.mk.injEq] at h
    simp only [serialised, h]

end PostgresLedgerClient

end DecisionRuntime
