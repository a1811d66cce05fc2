/-
UUIDs and their text.

A UUID is its thirty-two hexadecimal digits. `str` is the canonical text
(`8-4-4-4-12`, lower case), which every key, payload and index of the runtime is
built from, and `parse` is the `UUID(...)` constructor. What the rest of the
development needs is here once:

* `parse_str` -- reading a canonical text back gives the UUID;
* `str_append_inj` -- the text has a fixed width, so it can be read off the front
  of any longer key.
-/
import Mathlib.Algebra.GroupWithZero.Nat
import Mathlib.Data.List.Basic

set_option autoImplicit false

namespace DecisionRuntime

/-- A UUID: its hexadecimal digits, most significant first. -/
structure UUID where
  digits : List (Fin 16)
  length_eq : digits.length = 32
  deriving DecidableEq

namespace UUID

/-- The base of the digits. -/
instance neZero_sixteen : NeZero (16 : ℕ) := ⟨by decide⟩

/-- The UUID with one digit repeated. -/
def repeated (d : Fin 16) : UUID := ⟨List.replicate 32 d, List.length_replicate⟩

/-- `UUID(int=n)`, from the low 128 bits. -/
def ofInt (n : ℕ) : UUID :=
  ⟨(List.range 32).map (fun i => Fin.ofNat 16 (n / 16 ^ (31 - i))), by simp⟩

/-- Different numbers of 128 bits are different UUIDs. -/
theorem ofInt_inj {m n : ℕ} (hm : m < 16 ^ 32) (hn : n < 16 ^ 32) (h : ofInt m = ofInt n) :
    m = n := by
  have hdigits : (ofInt m).digits = (ofInt n).digits := by rw [h]
  simp only [ofInt, List.map_inj_left, List.mem_range, Fin.ext_iff, Fin.ofNat] at hdigits
  -- the digits from the last one on
  have hlow : ∀ k ≤ 32, m % 16 ^ k = n % 16 ^ k := by
    intro k
    induction k with
    | zero => simp [Nat.mod_one]
    | succ k ih =>
        intro hk
        have hdigit := hdigits (31 - k) (by omega)
        rw [show 31 - (31 - k) = k by omega] at hdigit
        rw [Nat.mod_pow_succ, Nat.mod_pow_succ, ih (by omega), hdigit]
  rw [← Nat.mod_eq_of_lt hm, ← Nat.mod_eq_of_lt hn]
  exact hlow 32 (by omega)

/-! ## The text of a UUID -/

/-- The lower-case hexadecimal digit. -/
def hexChar (d : Fin 16) : Char := Nat.digitChar d.val

/-- The digit a character of either case stands for. -/
def hexVal (c : Char) : Option (Fin 16) :=
  (List.finRange 16).find? (fun d => hexChar d = c ∨ (hexChar d).toUpper = c)

/-- The canonical text, as characters. -/
def chars (u : UUID) : List Char :=
  let group (a n : ℕ) := ((u.digits.drop a).take n).map hexChar
  group 0 8 ++ '-' :: group 8 4 ++ '-' :: group 12 4 ++ '-' :: group 16 4 ++ '-' :: group 20 12

/-- `str(u)`. -/
def str (u : UUID) : String := String.ofList u.chars

@[simp] theorem toList_str (u : UUID) : u.str.toList = u.chars := by
  rw [str, String.toList_ofList]

theorem length_chars (u : UUID) : u.chars.length = 36 := by
  have h := u.length_eq
  simp only [chars, List.length_append, List.length_cons, List.length_map, List.length_take,
    List.length_drop, h]
  rfl

theorem hexVal_hexChar (d : Fin 16) : hexVal (hexChar d) = some d := by
  revert d
  decide

theorem hexChar_ne_dash (d : Fin 16) : hexChar d ≠ '-' := by
  revert d
  decide

/-- Every character of the text is a hexadecimal digit or a dash. -/
theorem mem_chars {u : UUID} {c : Char} (h : c ∈ u.chars) : c = '-' ∨ ∃ d, hexChar d = c := by
  have hg : ∀ a n, c ∈ ((u.digits.drop a).take n).map hexChar → ∃ d, hexChar d = c := by
    intro a n hc
    obtain ⟨d, -, hd⟩ := List.mem_map.mp hc
    exact ⟨d, hd⟩
  simp only [chars, List.mem_append, List.mem_cons] at h
  grind

/-- The dashes taken out, the text is the digits. -/
theorem filter_chars (u : UUID) : u.chars.filter (· ≠ '-') = u.digits.map hexChar := by
  have hg : ∀ a n, (((u.digits.drop a).take n).map hexChar).filter (· ≠ '-')
      = ((u.digits.drop a).take n).map hexChar := by
    intro a n
    rw [List.filter_eq_self]
    intro c hc
    obtain ⟨d, -, rfl⟩ := List.mem_map.mp hc
    simpa using hexChar_ne_dash d
  have hcut : u.digits.take 8 ++ (u.digits.drop 8).take 4 ++ (u.digits.drop 12).take 4
      ++ (u.digits.drop 16).take 4 ++ (u.digits.drop 20).take 12 = u.digits := by
    have h1 := u.length_eq
    have h2 : (u.digits.drop 20).take 12 = u.digits.drop 20 :=
      List.take_of_length_le (by rw [List.length_drop]; omega)
    rw [h2]
    conv_rhs => rw [← List.take_append_drop 8 u.digits, ← List.take_append_drop 4 (u.digits.drop 8),
      List.drop_drop, ← List.take_append_drop 4 (u.digits.drop (8 + 4)), List.drop_drop,
      ← List.take_append_drop 4 (u.digits.drop (8 + 4 + 4)), List.drop_drop]
    simp only [List.append_assoc]
  simp only [chars, List.filter_append, List.filter_cons, hg]
  conv_rhs => rw [← hcut]
  simp

theorem str_injective : Function.Injective str := by
  intro u v h
  have hc : u.chars = v.chars := by rw [← toList_str, ← toList_str, h]
  have hd : u.digits.map hexChar = v.digits.map hexChar := by
    rw [← filter_chars, ← filter_chars, hc]
  have hinj : Function.Injective hexChar := by
    intro a b hab
    have := congrArg hexVal hab
    rw [hexVal_hexChar, hexVal_hexChar] at this
    exact Option.some.inj this
  cases u
  cases v
  simpa using List.map_injective_iff.mpr hinj hd

@[simp] theorem str_inj {u v : UUID} : u.str = v.str ↔ u = v := str_injective.eq_iff

/-- The text of a UUID can be read off the front of a key. -/
theorem str_append_inj {u v : UUID} {s t : String} (h : u.str ++ s = v.str ++ t) :
    u = v ∧ s = t := by
  have hl : u.chars ++ s.toList = v.chars ++ t.toList := by
    rw [← toList_str, ← toList_str, ← String.toList_append, ← String.toList_append, h]
  obtain ⟨hu, hs⟩ := List.append_inj hl (by rw [length_chars, length_chars])
  refine ⟨str_injective ?_, String.toList_inj.mp hs⟩
  rw [str, str, hu]

/-! ## Reading a UUID -/

/-- `s.replace(pat, "")`: `skip` characters of a match are still to be dropped. -/
def remove (pat : List Char) : ℕ → List Char → List Char
  | _, [] => []
  | skip + 1, _ :: cs => remove pat skip cs
  | 0, c :: cs =>
    if pat.isPrefixOf (c :: cs) then remove pat (pat.length - 1) cs else c :: remove pat 0 cs

/-- `s.strip('{}')`. -/
def strip_braces (cs : List Char) : List Char :=
  ((cs.dropWhile (· ∈ ['{', '}'])).reverse.dropWhile (· ∈ ['{', '}'])).reverse

/-- The blanks of ASCII that `int` skips. -/
def isBlank (c : Char) : Bool := (9 ≤ c.val.toNat && c.val.toNat ≤ 13) || c.val.toNat = 32

/-- `text.strip()`, as `int` does it. -/
def trim (cs : List Char) : List Char :=
  ((cs.dropWhile isBlank).reverse.dropWhile isBlank).reverse

/-- The sign. A minus has been taken for a dash, and removed. -/
def unsigned : List Char → List Char
  | '+' :: cs => cs
  | cs => cs

/-- The `0x` of the base, and one underscore after it. -/
def unprefixed : List Char → List Char
  | '0' :: x :: cs =>
    if x = 'x' ∨ x = 'X' then if cs.head? = some '_' then cs.tail else cs else '0' :: x :: cs
  | cs => cs

/-- The digits, with single underscores between them. `prev` says whether the character before is a
digit. -/
def hexDigits : Bool → List Char → Option (List (Fin 16))
  | prev, [] => if prev then some [] else none
  | prev, c :: cs =>
    if c = '_' then if prev then hexDigits false cs else none
    else do
      let d ← hexVal c
      let ds ← hexDigits true cs
      return d :: ds

/-- `int(hex, 16)`, digit by digit. -/
def int16 (hex : List Char) : Option (List (Fin 16)) :=
  hexDigits false (unprefixed (unsigned (trim hex)))

/-- `UUID(s)`: a `urn:` or `uuid:` marker, braces and dashes are optional around thirty-two
characters that `int` reads to the base 16; `none` is the `ValueError`. The text is one of ASCII
characters: of others, `int` reads the decimal digits and the blanks of every script. -/
def parse (s : String) : Option UUID :=
  let hex := (strip_braces (remove "uuid:".toList 0 (remove "urn:".toList 0 s.toList))).filter
    (· ≠ '-')
  if hex.length = 32 then
    match int16 hex with
    | some ds =>
      -- blanks, sign, prefix and underscores stand for leading zeros
      if h : ds.length ≤ 32 then
        some ⟨List.replicate (32 - ds.length) 0 ++ ds, by
          rw [List.length_append, List.length_replicate, Nat.sub_add_cancel h]⟩
      else none
    | none => none
  else none

/-- A text without the first character of the pattern has no match. -/
theorem remove_of_not_mem {p : Char} {pat cs : List Char} (h : p ∉ cs) :
    remove (p :: pat) 0 cs = cs := by
  induction cs with
  | nil => rfl
  | cons c cs ih =>
      rw [List.mem_cons, not_or] at h
      have hp : (p :: pat).isPrefixOf (c :: cs) = false := by
        simp [List.isPrefixOf, h.1]
      rw [remove, hp]
      simp only [Bool.false_eq_true, if_false, List.cons.injEq, true_and]
      exact ih h.2

theorem dropWhile_of_not_mem {p : Char → Bool} {cs : List Char} (h : ∀ c ∈ cs, p c = false) :
    cs.dropWhile p = cs := by
  cases cs with
  | nil => rfl
  | cons c cs => rw [List.dropWhile_cons_of_neg (by simp [h c (by simp)])]

/-- A text of hexadecimal digits has neither blanks nor a sign nor a prefix. -/
theorem int16_digits {ds : List (Fin 16)} (hne : ds ≠ []) : int16 (ds.map hexChar) = some ds := by
  have hplain : ∀ d, isBlank (hexChar d) = false ∧ hexChar d ≠ '+' ∧ hexChar d ≠ 'x'
      ∧ hexChar d ≠ 'X' ∧ hexChar d ≠ '_' := by decide
  have hblank : ∀ c ∈ ds.map hexChar, isBlank c = false := by
    intro c hc
    obtain ⟨d, -, rfl⟩ := List.mem_map.mp hc
    exact (hplain d).1
  have htrim : trim (ds.map hexChar) = ds.map hexChar := by
    rw [trim, dropWhile_of_not_mem hblank,
      dropWhile_of_not_mem (fun c hc => hblank c (List.mem_reverse.mp hc)), List.reverse_reverse]
  have hsign : unsigned (ds.map hexChar) = ds.map hexChar := by
    unfold unsigned
    split
    · next cs hcs =>
        obtain ⟨d, -, hd⟩ := List.mem_map.mp (hcs ▸ List.mem_cons_self : '+' ∈ ds.map hexChar)
        exact absurd hd (hplain d).2.1
    · rfl
  have hprefix : unprefixed (ds.map hexChar) = ds.map hexChar := by
    unfold unprefixed
    split
    · next x cs hcs =>
        have hx : x ∈ ds.map hexChar := hcs ▸ List.mem_cons_of_mem _ List.mem_cons_self
        obtain ⟨d, -, rfl⟩ := List.mem_map.mp hx
        rw [if_neg (not_or.mpr ⟨(hplain d).2.2.1, (hplain d).2.2.2.1⟩), hcs]
    · rfl
  have hread : ∀ ds : List (Fin 16), hexDigits true (ds.map hexChar) = some ds := by
    intro ds
    induction ds with
    | nil => rfl
    | cons d ds ih =>
        rw [List.map_cons, hexDigits, if_neg (hplain d).2.2.2.2, hexVal_hexChar, ih]
        rfl
  rw [int16, htrim, hsign, hprefix]
  cases ds with
  | nil => exact absurd rfl hne
  | cons d ds =>
      rw [List.map_cons, hexDigits, if_neg (hplain d).2.2.2.2, hexVal_hexChar, hread]
      rfl

/-- Reading the canonical text gives the UUID back. -/
theorem parse_str (u : UUID) : parse u.str = some u := by
  have hu : ∀ c ∈ u.chars, c ≠ 'u' ∧ c ≠ '{' ∧ c ≠ '}' := by
    intro c hc
    rcases mem_chars hc with rfl | ⟨d, rfl⟩
    · decide
    · clear hc
      revert d
      decide
  have hrm : ∀ pat, remove ('u' :: pat) 0 u.chars = u.chars :=
    fun pat => remove_of_not_mem (fun hc => (hu _ hc).1 rfl)
  have hstrip : strip_braces u.chars = u.chars := by
    have hb : ∀ c ∈ u.chars, decide (c ∈ ['{', '}']) = false := by
      intro c hc
      simp [(hu c hc).2.1, (hu c hc).2.2]
    rw [strip_braces, dropWhile_of_not_mem hb,
      dropWhile_of_not_mem (fun c hc => hb c (List.mem_reverse.mp hc)), List.reverse_reverse]
  have hurn : "urn:".toList = 'u' :: ['r', 'n', ':'] := by decide
  have huuid : "uuid:".toList = 'u' :: ['u', 'i', 'd', ':'] := by decide
  have hlength : (u.digits.map hexChar).length = 32 := by rw [List.length_map, u.length_eq]
  have hne : u.digits ≠ [] := by
    intro hnil
    have hlen := u.length_eq
    rw [hnil] at hlen
    cases hlen
  rw [parse, toList_str, hurn, huuid, hrm, hrm, hstrip, filter_chars]
  simp only [if_pos hlength, int16_digits hne]
  simp [u.length_eq]

end UUID

end DecisionRuntime
