/-
Natural numbers written with a limited number of significant digits.

`general p n` is what `%g` with precision `p` makes of a whole number: up to `p`
digits the number itself, and from there on `d.ddde+XX`, rounded half to even and
without zeros at the end. `number` reads such a text back. What is read is the
rounded number (`number_general`), which is the number itself exactly when all of
its digits but the first `p` are zero (`rounded_eq_iff`).

`double_ratio` and `round_digits` round a ratio to a double, and a double to a number
of decimal places.
-/
import Mathlib.Algebra.Order.Field.Basic
import Mathlib.Algebra.Order.Field.Rat
import Mathlib.Data.List.TakeWhile
import Mathlib.Data.Nat.Log
import Mathlib.Tactic.FieldSimp
import Mathlib.Tactic.Ring

set_option autoImplicit false

namespace DecisionRuntime.SignificantDigits

/-! ## Rounding -/

/-- `n / u`, rounded to the nearest whole number, and half way to the even one. -/
def round_half_even (n u : ℕ) : ℕ :=
  if 2 * (n % u) < u then n / u
  else if u < 2 * (n % u) then n / u + 1
  else if n / u % 2 = 0 then n / u
  else n / u + 1

/-- The place of the last significant digit. -/
def place (p n : ℕ) : ℕ := 10 ^ (Nat.log 10 n + 1 - p)

/-- `n` with `p` significant digits. -/
def rounded (p n : ℕ) : ℕ := if n < 10 ^ p then n else round_half_even n (place p n) * place p n

theorem place_pos (p n : ℕ) : 0 < place p n := Nat.pow_pos (by omega)

theorem round_half_even_cases (n u : ℕ) :
    round_half_even n u = n / u ∨ round_half_even n u = n / u + 1 ∧ n % u ≠ 0 := by
  unfold round_half_even
  by_cases hlow : 2 * (n % u) < u
  · rw [if_pos hlow]
    exact Or.inl rfl
  · rw [if_neg hlow]
    by_cases hhigh : u < 2 * (n % u)
    · rw [if_pos hhigh]
      exact Or.inr ⟨rfl, by omega⟩
    · rw [if_neg hhigh]
      by_cases heven : n / u % 2 = 0
      · rw [if_pos heven]
        exact Or.inl rfl
      · rw [if_neg heven]
        refine Or.inr ⟨rfl, ?_⟩
        intro hzero
        have hu : u = 0 := by omega
        simp [hu] at heven

section Rounding

variable {p n : ℕ}

/-- A number of more than `p` digits reaches its first `p` of them. -/
theorem log_of_large (h : ¬n < 10 ^ p) : p ≤ Nat.log 10 n := by
  apply (Nat.le_log_iff_pow_le (by omega) _).mpr (not_lt.mp h)
  rintro rfl
  exact h (Nat.pow_pos (by omega))

/-- The first `p` digits are a number of `p` digits. -/
theorem leading_bounds (hp : 1 ≤ p) (h : ¬n < 10 ^ p) :
    10 ^ (p - 1) ≤ n / place p n ∧ n / place p n < 10 ^ p := by
  have hlog := log_of_large h
  have hne : n ≠ 0 := by
    rintro rfl
    exact h (Nat.pow_pos (by omega))
  constructor
  · rw [Nat.le_div_iff_mul_le (place_pos p n), place, ← pow_add]
    have hexp : p - 1 + (Nat.log 10 n + 1 - p) = Nat.log 10 n := by omega
    rw [hexp]
    exact Nat.pow_log_le_self 10 hne
  · rw [Nat.div_lt_iff_lt_mul (place_pos p n), place, ← pow_add]
    have hexp : p + (Nat.log 10 n + 1 - p) = Nat.log 10 n + 1 := by omega
    rw [hexp]
    exact Nat.lt_pow_succ_log_self (by omega) n

/-- Rounding is exact when the digits it drops are zero. -/
theorem rounded_eq_iff_dvd (h : ¬n < 10 ^ p) : rounded p n = n ↔ place p n ∣ n := by
  have hdecompose := Nat.div_add_mod n (place p n)
  have hmod := Nat.mod_lt n (place_pos p n)
  rw [rounded, if_neg h, Nat.dvd_iff_mod_eq_zero]
  cases round_half_even_cases n (place p n) with
  | inl hround =>
      rw [hround, Nat.mul_comm]
      omega
  | inr hround =>
      rw [hround.1, Nat.add_mul, Nat.one_mul, Nat.mul_comm]
      have hne := hround.2
      omega

/-- **Exact numbers.** Rounding to `p` digits changes nothing exactly when the number is one of at
most `p` digits, followed by zeros. -/
theorem rounded_eq_iff : rounded p n = n ↔ ∃ m k, m < 10 ^ p ∧ n = m * 10 ^ k := by
  by_cases h : n < 10 ^ p
  · rw [rounded, if_pos h]
    exact ⟨fun _ => ⟨n, 0, h, by simp⟩, fun _ => rfl⟩
  · rw [rounded_eq_iff_dvd h]
    have hlog := log_of_large h
    constructor
    · rintro ⟨m, hm⟩
      have hn : n = m * 10 ^ (Nat.log 10 n + 1 - p) := by
        rw [Nat.mul_comm]
        exact hm
      refine ⟨m, Nat.log 10 n + 1 - p, ?_, hn⟩
      have hlt := Nat.lt_pow_succ_log_self (b := 10) (by omega) n
      have hexp : Nat.log 10 n + 1 - p + p = Nat.log 10 n + 1 := by omega
      rw [← Nat.succ_eq_add_one] at hexp
      rw [← hexp, pow_add, ← place] at hlt
      conv_lhs at hlt => rw [hm]
      exact Nat.lt_of_mul_lt_mul_left hlt
    · rintro ⟨m, k, hm, hn⟩
      -- the number has as many digits as `m` and `k` together
      have hlt : n < 10 ^ (p + k) := by
        rw [hn, pow_add]
        exact Nat.mul_lt_mul_of_pos_right hm (Nat.pow_pos (by omega))
      have hk : Nat.log 10 n + 1 - p ≤ k := by
        have hless := Nat.log_lt_of_lt_pow (by rintro rfl; exact h (Nat.pow_pos (by omega))) hlt
        omega
      have hdvd : place p n ∣ m * 10 ^ k := Dvd.dvd.mul_left (pow_dvd_pow 10 hk) m
      rwa [← hn] at hdvd

/-- Rounding loses less than half of the number. -/
theorem lt_two_mul_rounded (hp : 1 ≤ p) (hn : 1 ≤ n) : n < 2 * rounded p n := by
  by_cases h : n < 10 ^ p
  · rw [rounded, if_pos h]
    omega
  · have hdecompose := Nat.div_add_mod n (place p n)
    have hmod := Nat.mod_lt n (place_pos p n)
    have hlead : 1 ≤ n / place p n := (Nat.one_le_pow _ _ (by omega)).trans (leading_bounds hp h).1
    have hunit : place p n ≤ place p n * (n / place p n) := Nat.le_mul_of_pos_right _ hlead
    rw [rounded, if_neg h]
    cases round_half_even_cases n (place p n) with
    | inl hround =>
        rw [hround, Nat.mul_comm (n / place p n)]
        omega
    | inr hround =>
        rw [hround.1, Nat.add_mul, Nat.one_mul, Nat.mul_comm (n / place p n)]
        omega

end Rounding

/-! ## Ratios -/

/-- The double nearest to `n / d`, for `n ≤ d`, and half way between two the even one: it has 53
binary digits. -/
def double_ratio (n d : ℕ) : ℚ :=
  let e := 53 + d.log2 - n.log2
  -- the quotient of the logarithms is right or one too large
  let e := if n * 2 ^ e < 2 ^ 53 * d then e else e - 1
  (round_half_even (n * 2 ^ e) d : ℚ) / 2 ^ e

/-- `round(x, places)`, of a double that is not negative and at most 1. -/
def round_digits (places : ℕ) (x : ℚ) : ℚ :=
  double_ratio (round_half_even (x.num.natAbs * 10 ^ places) x.den) (10 ^ places)

theorem round_half_even_le {n u v : ℕ} (h : n ≤ v * u) : round_half_even n u ≤ v := by
  have hle : n / u ≤ v := Nat.div_le_of_le_mul (by rwa [Nat.mul_comm])
  rcases round_half_even_cases n u with hround | ⟨hround, hmod⟩
  · rwa [hround]
  · rw [hround]
    -- there is a rest, so the quotient is smaller
    have hlt : n / u < v := by
      by_contra hnot
      have hdecompose := Nat.div_add_mod n u
      have hquotient : v * u ≤ u * (n / u) := by
        rw [Nat.mul_comm u]
        exact Nat.mul_le_mul_right u (by omega)
      omega
    exact hlt

/-- A ratio of at most 1 stays at most 1. -/
theorem double_ratio_mem {n d : ℕ} (h : n ≤ d) :
    0 ≤ double_ratio n d ∧ double_ratio n d ≤ 1 := by
  unfold double_ratio
  dsimp only
  generalize (if n * 2 ^ (53 + d.log2 - n.log2) < 2 ^ 53 * d then 53 + d.log2 - n.log2
    else 53 + d.log2 - n.log2 - 1) = e
  have hround : round_half_even (n * 2 ^ e) d ≤ 2 ^ e := by
    apply round_half_even_le
    rw [Nat.mul_comm (2 ^ e)]
    exact Nat.mul_le_mul_right _ h
  have hpow : (0 : ℚ) < 2 ^ e := pow_pos (by norm_num) e
  refine ⟨div_nonneg (Nat.cast_nonneg _) hpow.le, ?_⟩
  rw [div_le_one hpow]
  exact_mod_cast hround

theorem round_digits_mem (places : ℕ) {x : ℚ} (h0 : 0 ≤ x) (h1 : x ≤ 1) :
    0 ≤ round_digits places x ∧ round_digits places x ≤ 1 := by
  apply double_ratio_mem
  apply round_half_even_le
  rw [Nat.mul_comm]
  apply Nat.mul_le_mul_left
  have hnum : x.num ≤ x.den := by
    have hx := (div_le_one (by exact_mod_cast x.den_pos : (0 : ℚ) < x.den)).mp
      (by rwa [Rat.num_div_den x])
    exact_mod_cast hx
  have hnonneg := Rat.num_nonneg.mpr h0
  omega

/-! ## Writing -/

/-- The digits of a number. -/
def digits (n : ℕ) : List Char := Nat.toDigits 10 n

/-- Digits without the zeros at their end. -/
def strip_zeros (ds : List Char) : List Char := (ds.reverse.dropWhile (· = '0')).reverse

/-- The digits of an exponent, at least two. -/
def exponent_digits (e : ℕ) : List Char := if e < 10 then '0' :: digits e else digits e

/-- A point and the digits after it, if there are any. -/
def fraction (ds : List Char) : List Char := if ds = [] then [] else '.' :: ds

/-- The digits `ds`, with the point after the first one, and an exponent. -/
def scientific (ds : List Char) (e : ℕ) : List Char :=
  ds.take 1 ++ fraction (strip_zeros (ds.drop 1)) ++ 'e' :: '+' :: exponent_digits e

/-- `'%.{p}g' % n`. When rounding adds a digit, the exponent is one greater. -/
def general (p n : ℕ) : List Char :=
  if n < 10 ^ p then digits n
  else
    let m := round_half_even n (place p n)
    if m = 10 ^ p then scientific (digits (10 ^ (p - 1))) (Nat.log 10 n + 1)
    else scientific (digits m) (Nat.log 10 n)

/-! ## Reading -/

/-- A whole number in digits. -/
def natural (ds : List Char) : Option ℕ :=
  if ds ≠ [] ∧ ds.all Char.isDigit then some (Nat.ofDigitChars 10 ds 0) else none

/-- The exponent of a number, where there is one. -/
def exponent : List Char → Option ℤ
  | [] => some 0
  | 'e' :: '+' :: ds => (natural ds).map fun e => (e : ℤ)
  | 'e' :: '-' :: ds => (natural ds).map fun e => -(e : ℤ)
  | _ => none

/-- What comes after the point, and the rest. -/
def after_point : List Char → List Char × List Char
  | '.' :: cs => (cs.takeWhile Char.isDigit, cs.dropWhile Char.isDigit)
  | cs => ([], cs)

/-- A decimal number without a sign. -/
def number (cs : List Char) : Option ℚ :=
  let whole := cs.takeWhile Char.isDigit
  let (part, rest) := after_point (cs.dropWhile Char.isDigit)
  if whole ++ part = [] then none
  else
    (exponent rest).map fun e =>
      (Nat.ofDigitChars 10 (whole ++ part) 0 : ℚ) / 10 ^ part.length * (10 : ℚ) ^ e

/-! ## What is written is read back -/

theorem isDigit_digits {n : ℕ} {c : Char} (h : c ∈ digits n) : c.isDigit = true :=
  Nat.isDigit_of_mem_toDigits (by omega) (by omega) h

theorem digits_ne_nil (n : ℕ) : digits n ≠ [] := Nat.toDigits_ne_nil

theorem natural_digits {ds : List Char} (hne : ds ≠ []) (hds : ∀ c ∈ ds, c.isDigit = true) :
    natural ds = some (Nat.ofDigitChars 10 ds 0) := by
  rw [natural, if_pos ⟨hne, List.all_eq_true.mpr hds⟩]

theorem isDigit_exponent_digits {e : ℕ} {c : Char} (h : c ∈ exponent_digits e) :
    c.isDigit = true := by
  unfold exponent_digits at h
  by_cases he : e < 10
  · rw [if_pos he] at h
    obtain rfl | h := List.mem_cons.mp h
    · decide
    · exact isDigit_digits h
  · rw [if_neg he] at h
    exact isDigit_digits h

/-- The zero in front of a single digit does not count. -/
theorem natural_exponent_digits (e : ℕ) : natural (exponent_digits e) = some e := by
  have hne : exponent_digits e ≠ [] := by
    unfold exponent_digits
    by_cases he : e < 10
    · rw [if_pos he]
      exact List.cons_ne_nil _ _
    · rw [if_neg he]
      exact digits_ne_nil e
  rw [natural_digits hne fun c hc => isDigit_exponent_digits hc]
  unfold exponent_digits
  by_cases he : e < 10
  · rw [if_pos he, Nat.ofDigitChars_cons]
    exact congrArg some Nat.ofDigitChars_ten_toDigits
  · rw [if_neg he]
    exact congrArg some Nat.ofDigitChars_ten_toDigits

/-- The zeros at the end are all that is stripped. -/
theorem strip_zeros_append (ds : List Char) :
    ∃ k, ds = strip_zeros ds ++ List.replicate k '0' := by
  refine ⟨(ds.reverse.takeWhile (· = '0')).length, ?_⟩
  have hzeros : ds.reverse.takeWhile (· = '0')
      = List.replicate (ds.reverse.takeWhile (· = '0')).length '0' := by
    rw [List.eq_replicate_iff]
    refine ⟨rfl, ?_⟩
    intro c hc
    simpa using List.mem_takeWhile_imp hc
  have hsplit := List.takeWhile_append_dropWhile (p := fun c => decide (c = '0')) (l := ds.reverse)
  have hreverse := congrArg List.reverse hsplit
  rw [List.reverse_append, List.reverse_reverse] at hreverse
  rw [strip_zeros, ← List.reverse_replicate, ← hzeros]
  exact hreverse.symm

theorem isDigit_strip_zeros {ds : List Char} (hds : ∀ c ∈ ds, c.isDigit = true) :
    ∀ c ∈ strip_zeros ds, c.isDigit = true := by
  intro c hc
  obtain ⟨k, hk⟩ := strip_zeros_append ds
  apply hds
  rw [hk]
  exact List.mem_append_left _ hc

/-- A point and digits, up to the exponent. -/
theorem after_point_fraction {ds : List Char} (hds : ∀ c ∈ ds, c.isDigit = true)
    (cs : List Char) : after_point (fraction ds ++ 'e' :: cs) = (ds, 'e' :: cs) := by
  by_cases hnil : ds = []
  · rw [hnil]
    rfl
  · have hfraction : fraction ds ++ 'e' :: cs = '.' :: (ds ++ 'e' :: cs) := by
      rw [fraction, if_neg hnil, List.cons_append]
    rw [hfraction, after_point, List.takeWhile_append_of_pos hds, List.dropWhile_append_of_pos hds]
    simp [Char.isDigit]

/-- The digits before a point or an exponent. -/
theorem span_fraction {d : Char} (hd : d.isDigit = true) (ds cs : List Char) :
    (d :: (fraction ds ++ 'e' :: cs)).takeWhile Char.isDigit = [d]
      ∧ (d :: (fraction ds ++ 'e' :: cs)).dropWhile Char.isDigit = fraction ds ++ 'e' :: cs := by
  rw [List.takeWhile_cons_of_pos hd, List.dropWhile_cons_of_pos hd]
  by_cases hnil : ds = []
  · simp [hnil, fraction, Char.isDigit]
  · simp [hnil, fraction, Char.isDigit]

/-- The value of digits with the point after the first one. -/
theorem number_scientific {d : Char} {ds : List Char} (hd : d.isDigit = true)
    (hds : ∀ c ∈ ds, c.isDigit = true) (e : ℕ) :
    number (scientific (d :: ds) e)
      = some ((Nat.ofDigitChars 10 (d :: ds) 0 : ℚ) / 10 ^ ds.length * 10 ^ e) := by
  obtain ⟨k, hk⟩ := strip_zeros_append ds
  have hstripped := isDigit_strip_zeros hds
  have htext : scientific (d :: ds) e
      = d :: (fraction (strip_zeros ds) ++ 'e' :: '+' :: exponent_digits e) := by
    simp [scientific]
  obtain ⟨hwhole, hrest⟩ := span_fraction hd (strip_zeros ds) ('+' :: exponent_digits e)
  have hexponent : exponent ('e' :: '+' :: exponent_digits e) = some (e : ℤ) := by
    rw [exponent, natural_exponent_digits]
    rfl
  -- the zeros that were stripped are a power of ten in the digits, and places after the point
  have hvalue : Nat.ofDigitChars 10 (d :: ds) 0
      = 10 ^ k * Nat.ofDigitChars 10 (d :: strip_zeros ds) 0 := by
    conv_lhs => rw [hk]
    rw [← List.cons_append, Nat.ofDigitChars_append, Nat.ofDigitChars_replicate_zero]
  have hlength : ds.length = (strip_zeros ds).length + k := by
    conv_lhs => rw [hk]
    rw [List.length_append, List.length_replicate]
  unfold number
  simp only [htext, hwhole, hrest, after_point_fraction hstripped, hexponent, Option.map_some]
  rw [if_neg (by simp), hvalue, hlength, zpow_natCast]
  push_cast
  rw [pow_add, List.singleton_append]
  field_simp

/-- Digits alone are read as the number they are the digits of. -/
theorem number_digits (n : ℕ) : number (digits n) = some (n : ℚ) := by
  have hall : ∀ c ∈ digits n, c.isDigit = true := fun c hc => isDigit_digits hc
  have hwhole : (digits n).takeWhile Char.isDigit = digits n := List.takeWhile_eq_self_iff.mpr hall
  have hrest : (digits n).dropWhile Char.isDigit = [] := List.dropWhile_eq_nil_iff.mpr hall
  have hvalue : Nat.ofDigitChars 10 (digits n) 0 = n := Nat.ofDigitChars_ten_toDigits
  unfold number
  simp [hwhole, hrest, after_point, exponent, digits_ne_nil, hvalue]

/-- A number of `p` digits, with the exponent of its first digit. -/
theorem number_leading {p m : ℕ} (hp : 1 ≤ p) (hlow : 10 ^ (p - 1) ≤ m) (hhigh : m < 10 ^ p)
    (e : ℕ) : number (scientific (digits m) e) = some ((m : ℚ) / 10 ^ (p - 1) * 10 ^ e) := by
  have hlength : (digits m).length = p := by
    have hle : (digits m).length ≤ p := (Nat.length_toDigits_le_iff (by omega) (by omega)).mpr hhigh
    have hge : ¬(digits m).length ≤ p - 1 := by
      by_cases hone : p = 1
      · rw [hone]
        simpa using digits_ne_nil m
      · unfold digits
        rw [Nat.length_toDigits_le_iff (by omega) (by omega)]
        omega
    omega
  cases hdigits : digits m with
  | nil => exact absurd hdigits (digits_ne_nil m)
  | cons d ds =>
      have hall : ∀ c ∈ d :: ds, c.isDigit = true := by
        rw [← hdigits]
        exact fun c hc => isDigit_digits hc
      obtain ⟨hd, hds⟩ := List.forall_mem_cons.mp hall
      have hvalue : Nat.ofDigitChars 10 (d :: ds) 0 = m := by
        rw [← hdigits]
        exact Nat.ofDigitChars_ten_toDigits
      have htail : ds.length = p - 1 := by
        rw [hdigits, List.length_cons] at hlength
        omega
      rw [number_scientific hd hds, hvalue, htail]

/-- **Reading what was written.** What is read is the number with `p` significant digits. -/
theorem number_general {p : ℕ} (hp : 1 ≤ p) (n : ℕ) :
    number (general p n) = some (rounded p n : ℚ) := by
  unfold general rounded
  by_cases h : n < 10 ^ p
  · rw [if_pos h, if_pos h]
    exact number_digits n
  · rw [if_neg h, if_neg h]
    have hlog := log_of_large h
    obtain ⟨hlow, hhigh⟩ := leading_bounds hp h
    have hscale : ∀ m : ℚ,
        m / 10 ^ (p - 1) * 10 ^ Nat.log 10 n = m * 10 ^ (Nat.log 10 n + 1 - p) := by
      intro m
      have hexp : Nat.log 10 n = (Nat.log 10 n + 1 - p) + (p - 1) := by omega
      conv_lhs => rw [hexp, pow_add]
      field_simp
    have hround : 10 ^ (p - 1) ≤ round_half_even n (place p n)
        ∧ round_half_even n (place p n) ≤ 10 ^ p := by
      cases round_half_even_cases n (place p n) with
      | inl hround => omega
      | inr hround => omega
    by_cases hcarry : round_half_even n (place p n) = 10 ^ p
    · -- rounding up nines: the digits are a one and zeros, one place further
      have hpow : (10 : ℕ) ^ (p - 1) < 10 ^ p := Nat.pow_lt_pow_right (by omega) (by omega)
      simp only [hcarry, if_true]
      rw [number_leading hp (le_refl _) hpow, pow_succ, ← mul_assoc, hscale, place]
      have hten : (10 : ℕ) ^ p = 10 ^ (p - 1) * 10 := by
        rw [← pow_succ]
        congr 1
        omega
      rw [hten]
      push_cast
      ring_nf
    · simp only [hcarry, if_false]
      rw [number_leading hp hround.1 (by omega), hscale, place]
      push_cast
      rfl

example : general 6 1234567 = "1.23457e+06".toList := by decide +kernel

/-! ## The characters of a number -/

theorem scientific_chars {ds : List Char} (hds : ∀ c ∈ ds, c.isDigit = true) {e : ℕ} {c : Char}
    (h : c ∈ scientific ds e) : c.isDigit = true ∨ c ∈ ['.', 'e', '+'] := by
  have hstripped : ∀ c ∈ strip_zeros (ds.drop 1), c.isDigit = true :=
    isDigit_strip_zeros fun c hc => hds c (List.mem_of_mem_drop hc)
  rw [scientific, List.mem_append, List.mem_append, List.mem_cons, List.mem_cons] at h
  obtain (htake | hfraction) | rfl | rfl | hexp := h
  · exact Or.inl (hds c (List.mem_of_mem_take htake))
  · unfold fraction at hfraction
    split at hfraction
    · exact absurd hfraction List.not_mem_nil
    · obtain rfl | hdigit := List.mem_cons.mp hfraction
      · simp
      · exact Or.inl (hstripped c hdigit)
  · simp
  · simp
  · exact Or.inl (isDigit_exponent_digits hexp)

/-- A number is written in digits, a point, and an exponent. -/
theorem general_chars {p n : ℕ} {c : Char} (h : c ∈ general p n) :
    c.isDigit = true ∨ c ∈ ['.', 'e', '+'] := by
  unfold general at h
  by_cases hsmall : n < 10 ^ p
  · rw [if_pos hsmall] at h
    exact Or.inl (isDigit_digits h)
  · rw [if_neg hsmall] at h
    dsimp only at h
    split at h
    · exact scientific_chars (fun c hc => isDigit_digits hc) h
    · exact scientific_chars (fun c hc => isDigit_digits hc) h

/-- A written number has neither a blank nor a line end. -/
theorem not_mem_general (p n : ℕ) : ' ' ∉ general p n ∧ '\n' ∉ general p n := by
  constructor
  · intro h
    exact absurd (general_chars h) (by decide)
  · intro h
    exact absurd (general_chars h) (by decide)

end DecisionRuntime.SignificantDigits
