/-
What `_normalize_literals` does to a condition, token by token.

The three substitutions run over the text before it is tokenised. All they know of
tokens is where words begin and end, so what they do is said by the maximal runs of
word characters: a run that is `true`, `false` or `null` is replaced, wherever it
stands (`normalize_eq_map_runs`). A bare literal is such a run. So is a word inside a
quoted string, and a key of a dotted path, and there the replacement changes what the
condition talks about (`normalize_render_iff`, `equality_exact_iff`).
-/
import DecisionRuntime.MaximalRuns
import DecisionRuntime.PlainSemantics

set_option autoImplicit false

namespace DecisionRuntime.ConditionEvaluator

/-! ## Words -/

/-- A word with the literal in the place of one that is a literal. -/
def python_word (word : List Char) : List Char :=
  if word = "true".toList then "True".toList
  else if word = "false".toList then "False".toList
  else if word = "null".toList then "None".toList
  else word

/-- The word is one of the three literals. -/
def is_literal (word : List Char) : Prop :=
  word = "true".toList ∨ word = "false".toList ∨ word = "null".toList

instance : DecidablePred is_literal := fun _ => inferInstanceAs (Decidable (_ ∨ _ ∨ _))

/-- One substitution, on a whole word. -/
def replace_word (word repl run : List Char) : List Char := if run = word then repl else run

section Substitution

variable {P : Platform} {word repl : List Char}

/-- Inside a word nothing is matched. -/
theorem sub_in_word {u rest : List Char} (hu : ∀ c ∈ u, P.isWord c = true) :
    sub P word repl true 0 (u ++ rest) = u ++ sub P word repl true 0 rest := by
  induction u with
  | nil => rfl
  | cons c u ih =>
      rw [List.forall_mem_cons] at hu
      rw [List.cons_append, sub]
      simp only [Bool.not_true, Bool.false_and, Bool.false_eq_true, if_false]
      rw [hu.1, ih hu.2, List.cons_append]

/-- The rest of a match is dropped. -/
theorem sub_skip (u rest : List Char) :
    sub P word repl true u.length (u ++ rest) = sub P word repl true 0 rest := by
  induction u with
  | nil => rfl
  | cons c u ih => rw [List.length_cons, List.cons_append, sub, ih]

/-- A word does not match at a character that is in none. -/
theorem not_prefix_of_break (hword : ∀ c ∈ word, P.isWord c = true) (hne : word ≠ []) {c : Char}
    {cs : List Char} (hc : P.isWord c = false) : word.isPrefixOf (c :: cs) = false := by
  rcases word with _ | ⟨w, ws⟩
  · exact absurd rfl hne
  · have hw : w ≠ c := by
      rintro rfl
      rw [hword w List.mem_cons_self] at hc
      cases hc
    simp [List.isPrefixOf, hw]

/-- What comes after a word does not depend on there being a word. -/
theorem sub_after_word (hword : ∀ c ∈ word, P.isWord c = true) (hne : word ≠ [])
    {rest : List Char} (hrest : ∀ c, rest.head? = some c → P.isWord c = false) :
    sub P word repl true 0 rest = sub P word repl false 0 rest := by
  rcases rest with _ | ⟨c, cs⟩
  · rfl
  · have hprefix : word.isPrefixOf (c :: cs) = false :=
      not_prefix_of_break hword hne (hrest c rfl)
    simp [sub, hprefix]

/-- At the beginning of a word there is a match exactly when the whole word matches. -/
theorem match_iff (hword : ∀ c ∈ word, P.isWord c = true) {u rest : List Char}
    (hu : ∀ c ∈ u, P.isWord c = true) (hrest : ∀ c, rest.head? = some c → P.isWord c = false) :
    (word.isPrefixOf (u ++ rest) && !(((u ++ rest).drop word.length).head?.any P.isWord)) = true
      ↔ u = word := by
  constructor
  · intro h
    rw [Bool.and_eq_true, List.isPrefixOf_iff_prefix] at h
    obtain ⟨⟨tail, htail⟩, hbreak⟩ := h
    rcases List.append_eq_append_iff.mp htail with ⟨more, hu', hmore⟩ | ⟨more, hword', hmore⟩
    · -- the word goes on after the match, unless the match is all of it
      rw [← htail, List.drop_left, hmore] at hbreak
      rcases more with _ | ⟨c, more⟩
      · rw [hu', List.append_nil]
      · have hc : P.isWord c = true := hu c (by rw [hu']; simp)
        simp [hc] at hbreak
    · -- the match goes on after the word, where there is no word character
      rcases more with _ | ⟨c, more⟩
      · rw [hword', List.append_nil]
      · have hc : P.isWord c = true := hword c (by rw [hword']; simp)
        have hfalse := hrest c (by rw [hmore]; rfl)
        rw [hc] at hfalse
        cases hfalse
  · rintro rfl
    rw [List.drop_left, Bool.and_eq_true, List.isPrefixOf_iff_prefix]
    refine ⟨List.prefix_append u rest, ?_⟩
    rcases rest with _ | ⟨c, cs⟩
    · rfl
    · simp [hrest c rfl]

/-- A whole word is replaced, or left as it is. -/
theorem sub_word (hword : ∀ c ∈ word, P.isWord c = true) {u rest : List Char}
    (hu : ∀ c ∈ u, P.isWord c = true) (hne : u ≠ [])
    (hrest : ∀ c, rest.head? = some c → P.isWord c = false) :
    sub P word repl false 0 (u ++ rest)
      = replace_word word repl u ++ sub P word repl true 0 rest := by
  have hmatch := match_iff hword hu hrest
  rcases u with _ | ⟨c, u⟩
  · exact absurd rfl hne
  rw [List.cons_append] at hmatch ⊢
  rw [sub, replace_word]
  simp only [Bool.not_false, Bool.true_and]
  by_cases heq : c :: u = word
  · rw [if_pos (hmatch.mpr heq), if_pos heq, ← heq, List.length_cons, Nat.add_sub_cancel, sub_skip]
  · have hu' := List.forall_mem_cons.mp hu
    rw [if_neg (fun h => heq (hmatch.mp h)), if_neg heq, hu'.1, sub_in_word hu'.2,
      List.cons_append]

/-- **One substitution** rewrites the maximal runs of word characters. The induction is on the
length of the text, a word or a single other character at a time. -/
theorem sub_eq_map_runs (hword : ∀ c ∈ word, P.isWord c = true) (hne : word ≠ []) :
    ∀ (n : ℕ) (cs : List Char), cs.length ≤ n →
      sub P word repl false 0 cs = map_runs P.isWord (replace_word word repl) [] cs := by
  have hnil : replace_word word repl [] = [] := if_neg (fun h => hne h.symm)
  intro n
  induction n with
  | zero =>
      intro cs hcs
      rw [List.length_eq_zero_iff.mp (Nat.le_zero.mp hcs), sub, map_runs, hnil]
  | succ n ih =>
      intro cs hcs
      rcases cs with _ | ⟨c, cs⟩
      · rw [sub, map_runs, hnil]
      by_cases hc : P.isWord c = true
      · -- the word `c` begins, and what is after it
        let u := (c :: cs).takeWhile P.isWord
        let rest := (c :: cs).dropWhile P.isWord
        have hsplit : c :: cs = u ++ rest := (List.takeWhile_append_dropWhile).symm
        have hu : ∀ d ∈ u, P.isWord d = true := List.all_eq_true.mp List.all_takeWhile
        have hune : u ≠ [] := by simp [u, hc]
        have hrest : ∀ d, rest.head? = some d → P.isWord d = false := by
          intro d hd
          have h := List.head?_dropWhile_not P.isWord (c :: cs)
          rw [show (c :: cs).dropWhile P.isWord = rest from rfl, hd] at h
          simpa using h
        have hshorter : rest.length ≤ n := by
          have hlength := congrArg List.length hsplit
          rw [List.length_append] at hlength
          have hpos := List.length_pos_iff.mpr hune
          omega
        rw [hsplit, sub_word hword hu hune hrest, sub_after_word hword hne hrest,
          ih rest hshorter, map_runs_append_run hu, List.nil_append]
        exact (map_runs_of_head hnil hrest).symm
      · have hc' : P.isWord c = false := by simpa using hc
        have hprefix : word.isPrefixOf (c :: cs) = false := not_prefix_of_break hword hne hc'
        rw [sub, map_runs, if_neg hc, hnil, List.nil_append, hprefix, hc']
        simp only [Bool.and_false, Bool.false_and, Bool.false_eq_true, if_false]
        rw [ih cs (by rw [List.length_cons] at hcs; omega)]

end Substitution

/-! ## The three substitutions -/

section Runs

variable {P : Platform}

/-- The ASCII characters of a word. -/
def ascii_word (c : Char) : Bool := c.val.toNat < 128 && (c.isAlphanum || c = '_')

theorem isWord_of_ascii {c : Char} (h : ascii_word c = true) : P.isWord c = true := by
  rw [ascii_word, Bool.and_eq_true, decide_eq_true_eq] at h
  rw [Platform.isWord, if_pos h.1]
  exact h.2

/-- A word in ASCII is a word on every platform. -/
theorem ascii_words {word : List Char} (h : word.all ascii_word = true) :
    ∀ c ∈ word, P.isWord c = true :=
  fun c hc => isWord_of_ascii (List.all_eq_true.mp h c hc)

/-- One substitution after another is one substitution of the two. -/
theorem map_runs_replace {word repl : List Char} (hrepl : repl.all ascii_word = true)
    (f : List Char → List Char) (cs : List Char) :
    map_runs P.isWord f [] (map_runs P.isWord (replace_word word repl) [] cs)
      = map_runs P.isWord (fun run => f (replace_word word repl run)) [] cs := by
  apply map_runs_map_runs _ (by simp)
  intro run hrun
  rw [replace_word]
  by_cases heq : run = word
  · rw [if_pos heq]
    exact ascii_words hrepl
  · rw [if_neg heq]
    exact hrun

/-- The three replacements, of a whole word, do not get in each other's way. -/
theorem replace_words (run : List Char) :
    replace_word "null".toList "None".toList (replace_word "false".toList "False".toList
      (replace_word "true".toList "True".toList run)) = python_word run := by
  unfold replace_word python_word
  by_cases htrue : run = "true".toList
  · rw [if_pos htrue, if_pos htrue, if_neg (by decide), if_neg (by decide)]
  rw [if_neg htrue, if_neg htrue]
  by_cases hfalse : run = "false".toList
  · rw [if_pos hfalse, if_pos hfalse, if_neg (by decide)]
  rw [if_neg hfalse, if_neg hfalse]

/-- **All three** at once: every maximal run of word characters that is a literal becomes the
literal of Python, and the rest of the text stays. -/
theorem normalize_eq_map_runs (P : Platform) (cs : List Char) :
    normalize_literals P cs = map_runs P.isWord python_word [] cs := by
  unfold normalize_literals
  rw [sub_eq_map_runs (ascii_words (by decide)) (by decide) _ cs (Nat.le_refl _),
    sub_eq_map_runs (ascii_words (by decide)) (by decide) _ _ (Nat.le_refl _),
    sub_eq_map_runs (ascii_words (by decide)) (by decide) _ _ (Nat.le_refl _),
    map_runs_replace (by decide), map_runs_replace (by decide)]
  congr 1
  funext run
  exact replace_words run

/-- A literal and its replacement have the same length. -/
theorem length_python_word (word : List Char) : (python_word word).length = word.length := by
  have htrue : "True".toList.length = "true".toList.length := by decide
  have hfalse : "False".toList.length = "false".toList.length := by decide
  have hnull : "None".toList.length = "null".toList.length := by decide
  unfold python_word
  split_ifs with h₁ h₂ h₃
  · rw [h₁, htrue]
  · rw [h₂, hfalse]
  · rw [h₃, hnull]
  · rfl

/-- Exactly the literals are replaced by something else. -/
theorem python_word_eq_self_iff (word : List Char) :
    python_word word = word ↔ ¬is_literal word := by
  unfold python_word is_literal
  by_cases htrue : word = "true".toList
  · rw [if_pos htrue, htrue]
    decide
  by_cases hfalse : word = "false".toList
  · rw [if_neg htrue, if_pos hfalse, hfalse]
    decide
  by_cases hnull : word = "null".toList
  · rw [if_neg htrue, if_neg hfalse, if_pos hnull, hnull]
    decide
  rw [if_neg htrue, if_neg hfalse, if_neg hnull]
  simp only [htrue, hfalse, hnull, or_self, not_false_eq_true]

/-- A literal stands in the text as a whole word. -/
def HasLiteral (P : Platform) (cs : List Char) : Prop :=
  ∃ word ∈ runs P.isWord [] cs, is_literal word

instance (P : Platform) : DecidablePred (HasLiteral P) :=
  fun _ => inferInstanceAs (Decidable (∃ word ∈ _, is_literal word))

/-- A text in which no literal stands as a whole word is left as it is. -/
theorem map_runs_python_word_iff (cs : List Char) :
    map_runs P.isWord python_word [] cs = cs ↔ ¬HasLiteral P cs := by
  have h : map_runs P.isWord python_word [] cs = [] ++ cs
      ↔ ∀ word ∈ runs P.isWord [] cs, python_word word = word :=
    map_runs_eq_self_iff length_python_word
  rw [List.nil_append] at h
  rw [h, HasLiteral]
  constructor
  · rintro hself ⟨word, hword, hliteral⟩
    exact (python_word_eq_self_iff word).mp (hself word hword) hliteral
  · intro hnone word hword
    exact (python_word_eq_self_iff word).mpr (fun hliteral => hnone ⟨word, hword, hliteral⟩)

/-- A text is its own normal form when no literal stands in it. -/
theorem normalize_eq_self_iff (cs : List Char) :
    normalize_literals P cs = cs ↔ ¬HasLiteral P cs := by
  rw [normalize_eq_map_runs, map_runs_python_word_iff]

/-- In ASCII it is seen without the platform whether a literal stands in a text. -/
theorem normalize_of_ascii {cs : List Char} (hascii : cs.all (fun c => c.val.toNat < 128) = true)
    (hnone : ∀ word ∈ runs ascii_word [] cs, ¬is_literal word) : normalize_literals P cs = cs := by
  have hruns : runs P.isWord [] cs = runs ascii_word [] cs := by
    apply runs_congr
    intro c hc
    have hlt : c.val.toNat < 128 := of_decide_eq_true (List.all_eq_true.mp hascii c hc)
    rw [Platform.isWord, ascii_word, if_pos hlt, decide_eq_true hlt, Bool.true_and]
  rw [normalize_eq_self_iff, HasLiteral, hruns]
  rintro ⟨word, hword, hliteral⟩
  exact hnone word hword hliteral

end Runs

/-! ## Tokens

The tokens of a condition, each with the characters it is written with. A name is made
of the characters Python allows in one; beyond ASCII that is any character here, whether
`\w` matches it or not. -/

/-- The characters of names. -/
def name_char (c : Char) : Bool := 128 ≤ c.val.toNat || c.isAlphanum || c = '_'

/-- The characters of numbers, in every base, with exponents and signs of exponents. -/
def NUMBER_CHARS : List Char := "0123456789abcdefABCDEFxXoOjJ_.+-".toList

/-- The characters of operators, brackets and other marks. -/
def OPERATOR_CHARS : List Char := "=!<>()[]{},:;+-*/%&|^~@".toList

/-- Space and line ends. -/
def BLANK_CHARS : List Char := " \t\n\r".toList

inductive Token
  | name (word : List Char)
  | path (root key : List Char) (keys : List (List Char))
  | number (digits : List Char)
  | quoted (quote : Char) (body : List Char)
  | operator (symbol : List Char)
  | blank (space : List Char)

/-- The keys of a path, each with its dot. -/
def dotted (keys : List (List Char)) : List Char := keys.flatMap (fun key => '.' :: key)

def Token.text : Token → List Char
  | .name word => word
  | .path root key keys => root ++ dotted (key :: keys)
  | .number digits => digits
  | .quoted quote body => quote :: (body ++ [quote])
  | .operator symbol => symbol
  | .blank space => space

/-- The text a list of tokens is written as. -/
def render (ts : List Token) : List Char := ts.flatMap Token.text

def is_name (word : List Char) : Prop := word ≠ [] ∧ ∀ c ∈ word, name_char c = true

instance : DecidablePred is_name := fun word =>
  decidable_of_iff (word ≠ [] ∧ word.all name_char = true) (by simp [is_name])

/-- The quote does not close before the end of the body, nor does the line end. -/
def stays_open (quote : Char) : List Char → Bool
  | [] => true
  | c :: cs =>
    if c = '\\' then
      -- an escaped character, whatever it is
      match cs with
      | [] => false
      | _ :: cs => stays_open quote cs
    else c ≠ quote && c ≠ '\n' && c ≠ '\r' && stays_open quote cs

def Token.Valid : Token → Prop
  | .name word => is_name word
  | .path root key keys => ∀ word ∈ root :: key :: keys, is_name word
  | .number digits => digits ≠ [] ∧ ∀ c ∈ digits, c ∈ NUMBER_CHARS
  | .quoted quote body => quote ∈ "\"'".toList ∧ stays_open quote body = true
  | .operator symbol => symbol ≠ [] ∧ ∀ c ∈ symbol, c ∈ OPERATOR_CHARS
  | .blank space => space ≠ [] ∧ ∀ c ∈ space, c ∈ BLANK_CHARS

instance : DecidablePred Token.Valid
  | .name _ => inferInstanceAs (Decidable (is_name _))
  | .path _ _ _ => inferInstanceAs (Decidable (∀ word ∈ _, is_name word))
  | .number digits =>
    decidable_of_iff (digits ≠ [] ∧ digits.all (· ∈ NUMBER_CHARS) = true) (by simp [Token.Valid])
  | .quoted _ _ => inferInstanceAs (Decidable (_ ∧ _))
  | .operator symbol =>
    decidable_of_iff (symbol ≠ [] ∧ symbol.all (· ∈ OPERATOR_CHARS) = true)
      (by simp [Token.Valid])
  | .blank space =>
    decidable_of_iff (space ≠ [] ∧ space.all (· ∈ BLANK_CHARS) = true) (by simp [Token.Valid])

/-- The token goes on as long as there are characters of a word. -/
def Token.word_like : Token → Bool
  | .name _ | .path _ _ _ | .number _ => true
  | .quoted _ _ | .operator _ | .blank _ => false

/-- Of two neighbours at most one is a name, a path or a number. -/
def Separated (ts : List Token) : Prop :=
  ts.IsChain (fun t u => t.word_like = false ∨ u.word_like = false)

/-- The token as it should be: a bare literal is replaced, and everything else stays. -/
def Token.normalized : Token → Token
  | .name word => .name (python_word word)
  | t => t

/-- A literal stands in the token as a whole word, and is not the whole of it: a word of a quoted
string, the root or a key of a path, a part of a name. -/
def Token.Disturbed (P : Platform) : Token → Prop
  | .name word => ¬is_literal word ∧ HasLiteral P word
  | .path root key keys => ∃ word ∈ root :: key :: keys, HasLiteral P word
  | .quoted _ body => HasLiteral P body
  | .number _ | .operator _ | .blank _ => False

instance (P : Platform) : DecidablePred (Token.Disturbed P)
  | .name _ => inferInstanceAs (Decidable (¬_ ∧ HasLiteral P _))
  | .path _ _ _ => inferInstanceAs (Decidable (∃ word ∈ _, HasLiteral P word))
  | .quoted _ _ => inferInstanceAs (Decidable (HasLiteral P _))
  | .number _ | .operator _ | .blank _ => inferInstanceAs (Decidable False)

section Tokens

variable {P : Platform}

/-- The ASCII characters that are in no word. -/
def ascii_mark (c : Char) : Bool := c.val.toNat < 128 && !(c.isAlphanum || c = '_')

theorem isWord_of_mark {c : Char} (h : ascii_mark c = true) : P.isWord c = false := by
  rw [ascii_mark, Bool.and_eq_true, decide_eq_true_eq, Bool.not_eq_true'] at h
  rw [Platform.isWord, if_pos h.1]
  exact h.2

/-- A character from a list of marks is in no word. -/
theorem isWord_of_mem {marks : List Char} (hmarks : marks.all ascii_mark = true) {c : Char}
    (hc : c ∈ marks) : P.isWord c = false :=
  isWord_of_mark (List.all_eq_true.mp hmarks c hc)

/-- What a mark separates is looked at separately. -/
theorem hasLiteral_append_mark {c : Char} (hc : ascii_mark c = true) (as bs : List Char) :
    HasLiteral P (as ++ c :: bs) ↔ HasLiteral P as ∨ HasLiteral P bs := by
  unfold HasLiteral
  rw [runs_append_sep (isWord_of_mark hc)]
  simp only [List.mem_append, or_and_right, exists_or]

/-- There is no literal without a `u` or an `l`. -/
theorem not_hasLiteral_of_chars {cs : List Char} (h : ∀ c ∈ cs, c ≠ 'u' ∧ c ≠ 'l') :
    ¬HasLiteral P cs := by
  rintro ⟨word, hword, hliteral⟩
  have hmem : ∀ c ∈ word, c ≠ 'u' ∧ c ≠ 'l' := fun c hc => h c (mem_of_mem_runs hword hc)
  rcases hliteral with rfl | rfl | rfl
  · exact (hmem 'u' (by decide)).1 rfl
  · exact (hmem 'l' (by decide)).2 rfl
  · exact (hmem 'l' (by decide)).2 rfl

/-- Numbers, operators and blanks are written without either. -/
theorem map_runs_of_chars {chars cs : List Char}
    (hchars : chars.all (fun c => c ≠ 'u' ∧ c ≠ 'l') = true) (h : ∀ c ∈ cs, c ∈ chars) :
    map_runs P.isWord python_word [] cs = cs := by
  rw [map_runs_python_word_iff]
  apply not_hasLiteral_of_chars
  intro c hc
  exact of_decide_eq_true (List.all_eq_true.mp hchars c (h c hc))

theorem not_hasLiteral_nil : ¬HasLiteral P [] :=
  not_hasLiteral_of_chars (fun _ hc => absurd hc List.not_mem_nil)

theorem hasLiteral_dotted (keys : List (List Char)) :
    ∀ as, HasLiteral P (as ++ dotted keys) ↔ ∃ word ∈ as :: keys, HasLiteral P word := by
  induction keys with
  | nil =>
      intro as
      simp [dotted]
  | cons key keys ih =>
      intro as
      have hdotted : as ++ dotted (key :: keys) = as ++ '.' :: (key ++ dotted keys) := by
        simp [dotted]
      rw [hdotted, hasLiteral_append_mark (by decide), ih key]
      simp

/-- **One token.** Every token but a bare literal has to stay, and it does exactly when no literal
stands in it. -/
theorem normalize_text_iff {t : Token} (ht : t.Valid) :
    normalize_literals P t.text = t.normalized.text ↔ ¬t.Disturbed P := by
  rw [normalize_eq_map_runs]
  cases t with
  | name word =>
      rw [Token.text, Token.normalized, Token.text, Token.Disturbed]
      by_cases hliteral : is_literal word
      · have hword : ∀ c ∈ word, P.isWord c = true := by
          rcases hliteral with rfl | rfl | rfl <;> exact ascii_words (by decide)
        simp [map_runs_of_all hword, hliteral]
      · rw [(python_word_eq_self_iff word).mpr hliteral, map_runs_python_word_iff]
        simp [hliteral]
  | path root key keys =>
      rw [Token.normalized, map_runs_python_word_iff, Token.text, Token.Disturbed,
        hasLiteral_dotted]
      simp
  | quoted quote body =>
      simp only [Token.normalized, map_runs_python_word_iff, Token.text, Token.Disturbed]
      have hquote : ascii_mark quote = true :=
        List.all_eq_true.mp (by decide : "\"'".toList.all ascii_mark = true) quote ht.1
      -- the quotes are no word characters, so only the body counts
      have hopen := hasLiteral_append_mark (P := P) hquote [] (body ++ [quote])
      rw [List.nil_append] at hopen
      rw [hopen, hasLiteral_append_mark hquote]
      simp [not_hasLiteral_nil]
  | number digits =>
      simp only [Token.normalized, Token.text, Token.Disturbed, not_false_eq_true, iff_true]
      exact map_runs_of_chars (by decide) ht.2
  | operator symbol =>
      simp only [Token.normalized, Token.text, Token.Disturbed, not_false_eq_true, iff_true]
      exact map_runs_of_chars (by decide) ht.2
  | blank space =>
      simp only [Token.normalized, Token.text, Token.Disturbed, not_false_eq_true, iff_true]
      exact map_runs_of_chars (by decide) ht.2

end Tokens

/-! ## Conditions -/

section Render

variable {P : Platform}

theorem not_word_of_valid {t : Token} (ht : t.Valid) (hlike : t.word_like = false) :
    (∀ c, t.text.head? = some c → P.isWord c = false)
      ∧ ∀ c, t.text.getLast? = some c → P.isWord c = false := by
  have hmarks : ∀ {marks cs : List Char}, marks.all ascii_mark = true →
      (∀ c ∈ cs, c ∈ marks) → (∀ c, cs.head? = some c → P.isWord c = false)
        ∧ ∀ c, cs.getLast? = some c → P.isWord c = false := by
    intro marks cs hall hcs
    constructor
    · intro c hc
      exact isWord_of_mem hall (hcs c (List.mem_of_head? hc))
    · intro c hc
      exact isWord_of_mem hall (hcs c (List.mem_of_getLast? hc))
  cases t with
  | name _ | path _ _ _ | number _ => cases hlike
  | quoted quote body =>
      have hquote : P.isWord quote = false := isWord_of_mem (by decide) ht.1
      constructor
      · intro c hc
        rw [Token.text, List.head?_cons, Option.some.injEq] at hc
        rw [← hc]
        exact hquote
      · intro c hc
        rw [Token.text, ← List.cons_append, List.getLast?_append, List.getLast?_singleton,
          Option.some_or, Option.some.injEq] at hc
        rw [← hc]
        exact hquote
  | operator symbol => exact hmarks (by decide) ht.2
  | blank space => exact hmarks (by decide) ht.2

theorem text_ne_nil {t : Token} (ht : t.Valid) : t.text ≠ [] := by
  cases t with
  | name word => exact ht.1
  | path root key keys =>
      have hroot : root ≠ [] := (ht root List.mem_cons_self).1
      simp [Token.text, hroot]
  | number digits => exact ht.1
  | quoted quote body => exact List.cons_ne_nil quote (body ++ [quote])
  | operator symbol => exact ht.1
  | blank space => exact ht.1

/-- No word goes on from one token into the next. -/
theorem breaks_render {t : Token} {ts : List Token} (hvalid : ∀ u ∈ t :: ts, u.Valid)
    (hsep : Separated (t :: ts)) : Breaks P.isWord t.text (render ts) := by
  rw [List.forall_mem_cons] at hvalid
  by_cases hlike : t.word_like = false
  · exact Or.inl (not_word_of_valid hvalid.1 hlike).2
  · right
    intro c hc
    rcases ts with _ | ⟨u, ts⟩
    · cases hc
    · have hu : u.Valid := hvalid.2 u List.mem_cons_self
      have hnext := (List.isChain_cons_cons.mp hsep).1.resolve_left hlike
      rw [render, List.flatMap_cons, List.head?_append_of_ne_nil _ (text_ne_nil hu)] at hc
      exact (not_word_of_valid hu hnext).1 c hc

/-- The tokens are normalised one by one. -/
theorem normalize_render (ts : List Token) (hvalid : ∀ t ∈ ts, t.Valid) (hsep : Separated ts) :
    normalize_literals P (render ts) = ts.flatMap (fun t => normalize_literals P t.text) := by
  simp only [normalize_eq_map_runs]
  induction ts with
  | nil => rfl
  | cons t ts ih =>
      have hbreaks : Breaks P.isWord ([] ++ t.text) (render ts) := breaks_render hvalid hsep
      rw [render, List.flatMap_cons, List.flatMap_cons, ← render,
        map_runs_append (by decide) (by simp) hbreaks,
        ih (fun u hu => hvalid u (List.mem_cons_of_mem _ hu)) hsep.of_cons]

theorem length_normalize (cs : List Char) : (normalize_literals P cs).length = cs.length := by
  rw [normalize_eq_map_runs, length_map_runs length_python_word, List.length_nil, Nat.zero_add]

theorem length_normalized (t : Token) : t.normalized.text.length = t.text.length := by
  cases t with
  | name word => exact length_python_word word
  | _ => rfl

/-- Texts made of parts of the same lengths are the same exactly when their parts are. -/
theorem flatMap_eq_iff {f g : Token → List Char} (hlength : ∀ t, (f t).length = (g t).length)
    (ts : List Token) : ts.flatMap f = ts.flatMap g ↔ ∀ t ∈ ts, f t = g t := by
  induction ts with
  | nil => simp
  | cons t ts ih =>
      rw [List.flatMap_cons, List.flatMap_cons, List.forall_mem_cons, ← ih]
      constructor
      · exact fun h => List.append_inj h (hlength t)
      · rintro ⟨ht, hts⟩
        rw [ht, hts]

/-- **A condition** is normalised as it should be exactly when no token of it is disturbed. -/
theorem normalize_render_iff {ts : List Token} (hvalid : ∀ t ∈ ts, t.Valid) (hsep : Separated ts) :
    normalize_literals P (render ts) = render (ts.map Token.normalized)
      ↔ ∀ t ∈ ts, ¬t.Disturbed P := by
  rw [normalize_render ts hvalid hsep, render, List.flatMap_map, flatMap_eq_iff]
  · constructor
    · exact fun h t ht => (normalize_text_iff (hvalid t ht)).mp (h t ht)
    · exact fun h t ht => (normalize_text_iff (hvalid t ht)).mpr (h t ht)
  · intro t
    rw [length_normalize, length_normalized]

end Render

/-! ## Comparing with a string -/

/-- The path with no key is a name. -/
def path_token (root : String) : List (List Char) → Token
  | [] => .name root.toList
  | key :: keys => .path root.toList key keys

/-- The tokens of `p == "s"`. -/
def equality (root : String) (keys : List (List Char)) (s : List Char) : List Token :=
  [path_token root keys, .blank [' '], .operator "==".toList, .blank [' '], .quoted '"' s]

/-- `p == "s"`. -/
def equality_text (root : String) (keys : List (List Char)) (s : List Char) : String :=
  String.ofList (render (equality root keys s))

/-- The tree of a path, by the names of its keys. -/
def path_tree (root : String) (names : List String) : Expr :=
  names.foldl (fun e name => .attribute e name .load) (.name root .load)

/-- The tree of `p == "s"`. -/
def equality_tree (root : String) (names : List String) (s : List Char) : Expr :=
  .compare (path_tree root names) [.eq] [.constant (.str (String.ofList s))]

/-- What stands at a path. -/
def value_at (ctx : PyDict) (root : String) (names : List String) : Option Value :=
  names.foldl field (PyDict.get ctx root)

/-- The character that is in no source text. -/
def NUL : Char := Char.ofNat 0

/-- A string without quotes, backslashes or line breaks. -/
def Plain (s : List Char) : Prop := ∀ c ∈ s, c ∉ "\"'\\\n\r".toList

instance : DecidablePred Plain := fun s =>
  decidable_of_iff (s.all (· ∉ "\"'\\\n\r".toList) = true) (by simp [Plain])

/-- The path is one that conditions may have: its root is a variable of the context, and no key of
it begins with two underscores. -/
structure Permitted (root : String) (names : List String) : Prop where
  root : root ∈ ALLOWED_CONTEXT_VARS
  names : ∀ name ∈ names, "__".toList.isPrefixOf name.toList = false

/-- How `ast.parse` reads this path. -/
structure ReadsPath (P : Platform) (root : String) (keys : List (List Char))
    (names : List String) : Prop where
  /-- The keys are read as `names`, and a plain string between quotes as itself. -/
  reads : ∀ s, Plain s → NUL ∉ s →
    P.ast_parse (equality_text root keys s) = .ok (equality_tree root names s)
  /-- A text with a NUL in it is no source text. -/
  no_nul : ∀ text, NUL ∈ text → ∀ tree, P.ast_parse (String.ofList text) ≠ .ok tree
  /-- When a literal in a key is replaced, it is no path any more (`True`, `False` and `None` are no
  keys) or the path of another key. -/
  rereads : keys.map (normalize_literals P) ≠ keys → ∀ s, Plain s → NUL ∉ s → ∀ tree,
    P.ast_parse (equality_text root (keys.map (normalize_literals P)) s) = .ok tree →
      ∃ others, others ≠ names ∧ tree = equality_tree root others s

/-- `p == "s"` is true exactly when the value at `p` is the string `s`. -/
def EqualityExact (P : Platform) (root : String) (keys : List (List Char)) (names : List String)
    (s : List Char) : Prop :=
  ∀ ctx, evaluate P (some (equality_text root keys s)) ctx = .ok true
    ↔ value_at ctx root names = some (.str (String.ofList s))

section Equality

variable {P : Platform}

/-! ### The text -/

/-- What a mark separates is normalised separately. -/
theorem normalize_append_mark {c : Char} (hc : ascii_mark c = true) (as bs : List Char) :
    normalize_literals P (as ++ c :: bs)
      = normalize_literals P as ++ c :: normalize_literals P bs := by
  simp only [normalize_eq_map_runs]
  exact map_runs_append_sep (isWord_of_mark hc)

theorem normalize_cons_mark {c : Char} (hc : ascii_mark c = true) (cs : List Char) :
    normalize_literals P (c :: cs) = c :: normalize_literals P cs :=
  normalize_append_mark hc [] cs

theorem normalize_dotted (keys : List (List Char)) :
    ∀ as, normalize_literals P (as ++ dotted keys)
      = normalize_literals P as ++ dotted (keys.map (normalize_literals P)) := by
  induction keys with
  | nil =>
      intro as
      simp [dotted]
  | cons key keys ih =>
      intro as
      have hdotted : as ++ dotted (key :: keys) = as ++ '.' :: (key ++ dotted keys) := by
        simp [dotted]
      rw [hdotted, normalize_append_mark (by decide), ih key]
      simp [dotted]

/-- The variables of the context are no literals. -/
theorem normalize_root {root : String} (hroot : root ∈ ALLOWED_CONTEXT_VARS) :
    normalize_literals P root.toList = root.toList := by
  rw [normalize_eq_map_runs, map_runs_of_all]
  · have hself : ∀ root ∈ ALLOWED_CONTEXT_VARS, python_word root.toList = root.toList := by decide
    exact hself root hroot
  · have hascii : ∀ root ∈ ALLOWED_CONTEXT_VARS, root.toList.all ascii_word = true := by decide
    exact ascii_words (hascii root hroot)

theorem render_equality (root : String) (keys : List (List Char)) (s : List Char) :
    render (equality root keys s)
      = (root.toList ++ dotted keys) ++ ' ' :: '=' :: '=' :: ' ' :: '"' :: (s ++ ['"']) := by
  have hpath : (path_token root keys).text = root.toList ++ dotted keys := by
    cases keys with
    | nil => simp [path_token, Token.text, dotted]
    | cons key keys => rfl
  rw [render, equality, List.flatMap_cons, hpath]
  simp [Token.text]

theorem stays_open_of_plain {s : List Char} (hs : Plain s) : stays_open '"' s = true := by
  induction s with
  | nil => rfl
  | cons c s ih =>
      have hc := hs c List.mem_cons_self
      have hrest := ih (fun d hd => hs d (List.mem_cons_of_mem _ hd))
      simp at hc
      unfold stays_open
      simp [hc, hrest]

/-- The condition is written in tokens. -/
theorem equality_valid {root : String} (hroot : root ∈ ALLOWED_CONTEXT_VARS)
    {keys : List (List Char)} (hkeys : ∀ key ∈ keys, is_name key) {s : List Char} (hs : Plain s) :
    ∀ t ∈ equality root keys s, t.Valid := by
  have hnames : ∀ root ∈ ALLOWED_CONTEXT_VARS, is_name root.toList := by decide
  have hname := hnames root hroot
  have hpath : (path_token root keys).Valid := by
    cases keys with
    | nil => exact hname
    | cons key keys => exact List.forall_mem_cons.mpr ⟨hname, hkeys⟩
  simp only [equality, List.forall_mem_cons]
  refine ⟨hpath, by decide, by decide, by decide, ⟨by decide, stays_open_of_plain hs⟩, by simp⟩

theorem equality_separated (root : String) (keys : List (List Char)) (s : List Char) :
    Separated (equality root keys s) := by
  simp [Separated, equality, Token.word_like]

/-- The condition is normalised part by part. -/
theorem normalize_equality {root : String} (hroot : root ∈ ALLOWED_CONTEXT_VARS)
    (keys : List (List Char)) (s : List Char) :
    normalize_literals P (render (equality root keys s))
      = render (equality root (keys.map (normalize_literals P)) (normalize_literals P s)) := by
  rw [render_equality, render_equality, normalize_append_mark (by decide), normalize_dotted,
    normalize_root hroot, normalize_cons_mark (by decide), normalize_cons_mark (by decide),
    normalize_cons_mark (by decide), normalize_cons_mark (by decide),
    normalize_append_mark (by decide)]
  simp [normalize_eq_map_runs, map_runs, python_word]

/-- A mark is in the normalised text when it is in the text. -/
theorem mem_normalize_iff {c : Char} (hc : ascii_mark c = true) (cs : List Char) :
    c ∈ normalize_literals P cs ↔ c ∈ cs := by
  rw [normalize_eq_map_runs]
  apply mem_map_runs_iff _ (by simp) (isWord_of_mark hc)
  intro run hrun
  unfold python_word
  split
  · exact ascii_words (by decide)
  split
  · exact ascii_words (by decide)
  split
  · exact ascii_words (by decide)
  exact hrun

theorem plain_normalize {s : List Char} (hs : Plain s) : Plain (normalize_literals P s) := by
  intro c hc hquote
  have hmark : ascii_mark c = true :=
    List.all_eq_true.mp (by decide : "\"'\\\n\r".toList.all ascii_mark = true) c hquote
  exact hs c ((mem_normalize_iff hmark s).mp hc) hquote

theorem normalize_keys_iff (keys : List (List Char)) :
    keys.map (normalize_literals P) = keys ↔ ∀ key ∈ keys, ¬HasLiteral P key := by
  induction keys with
  | nil => simp
  | cons key keys ih =>
      rw [List.map_cons, List.cons.injEq, ih, normalize_eq_self_iff, List.forall_mem_cons]

/-- A text that begins and ends with characters that are no space is not stripped. -/
theorem strip_between {c d : Char} (hc : isSpace c = false) (hd : isSpace d = false)
    (cs : List Char) : strip (c :: (cs ++ [d])) = c :: (cs ++ [d]) := by
  have hreverse : (c :: (cs ++ [d])).reverse = d :: (cs.reverse ++ [c]) := by simp
  rw [strip, List.dropWhile_cons_of_neg (by simp [hc]), hreverse,
    List.dropWhile_cons_of_neg (by simp [hd]), ← hreverse, List.reverse_reverse]

theorem strip_equality {root : String} (hroot : root ∈ ALLOWED_CONTEXT_VARS)
    (keys : List (List Char)) (s : List Char) :
    strip (render (equality root keys s)) = render (equality root keys s) := by
  have hheads : ∀ root ∈ ALLOWED_CONTEXT_VARS, root.toList ≠ []
      ∧ root.toList.head?.all (fun c => !isSpace c) = true := by decide
  obtain ⟨hne, hhead⟩ := hheads root hroot
  obtain ⟨c, cs, hcs⟩ := List.exists_cons_of_ne_nil hne
  have hc : isSpace c = false := by simpa [hcs] using hhead
  have hends : render (equality root keys s)
      = c :: ((cs ++ dotted keys ++ ' ' :: '=' :: '=' :: ' ' :: '"' :: s) ++ ['"']) := by
    rw [render_equality, hcs]
    simp
  rw [hends, strip_between hc (by decide)]

/-- What `evaluate` does with the text. -/
theorem evaluate_equality {root : String} (hroot : root ∈ ALLOWED_CONTEXT_VARS)
    (keys : List (List Char)) (s : List Char) (ctx : PyDict) :
    evaluate P (some (equality_text root keys s)) ctx = .ok true
      ↔ ∃ tree, P.ast_parse (equality_text root (keys.map (normalize_literals P))
          (normalize_literals P s)) = .ok tree
        ∧ check tree = .ok () ∧ ∃ v, eval ctx tree = .ok v ∧ coerce_bool v = true := by
  have hnonempty : (render (equality root keys s)).isEmpty = false := by
    rw [render_equality]
    simp
  have hparse : ∀ tree, parse_condition P (equality_text root keys s) = .ok tree
      ↔ P.ast_parse (equality_text root (keys.map (normalize_literals P))
          (normalize_literals P s)) = .ok tree := by
    intro tree
    rw [parse_condition, equality_text, String.toList_ofList, strip_equality hroot,
      normalize_equality hroot, ← equality_text]
    cases P.ast_parse (equality_text root (keys.map (normalize_literals P))
      (normalize_literals P s)) <;> simp
  rw [evaluate, if_neg (by
    rw [equality_text, String.toList_ofList, strip_equality hroot, hnonempty]
    exact Bool.false_ne_true)]
  simp only [except_bind_eq_ok, hparse]
  constructor
  · rintro ⟨tree, htree, _, hcheck, v, hv, hb⟩
    exact ⟨tree, htree, hcheck, v, hv, Except.ok.inj hb⟩
  · rintro ⟨tree, htree, hcheck, v, hv, hb⟩
    exact ⟨tree, htree, (), hcheck, v, hv, congrArg Except.ok hb⟩

/-! ### The tree -/

theorem check_path (names : List String) (hnames : ∀ name ∈ names,
    "__".toList.isPrefixOf name.toList = false) :
    ∀ e, check e = .ok () →
      check (names.foldl (fun e name => .attribute e name .load) e) = .ok () := by
  induction names with
  | nil => exact fun e he => he
  | cons name names ih =>
      intro e he
      rw [List.forall_mem_cons] at hnames
      apply ih hnames.2
      rw [check, check_attr, hnames.1, he]
      rfl

theorem eval_path (ctx : PyDict) (names : List String) :
    ∀ e v, eval ctx e = .ok v →
      eval ctx (names.foldl (fun e name => .attribute e name .load) e)
        = .ok (names.foldl field v) := by
  induction names with
  | nil => exact fun e v he => he
  | cons name names ih =>
      intro e v he
      apply ih
      rw [eval, he, except_ok_bind]
      rcases v with _ | w
      · rfl
      · cases w <;> rfl

/-- The tree of a permitted path passes the checker. -/
theorem check_equality {root : String} {names : List String} (h : Permitted root names)
    (s : List Char) : check (equality_tree root names s) = .ok () := by
  have hpath : check (path_tree root names) = .ok () := by
    apply check_path names h.names
    rw [check, check_name, if_pos h.root]
    rfl
  rw [equality_tree, check, hpath]
  rfl

/-- The comparison says whether the value is the string. -/
theorem eval_equality (ctx : PyDict) (root : String) (names : List String) (s : List Char) :
    ∃ b : Bool, eval ctx (equality_tree root names s) = .ok (some (.bool b))
      ∧ (b = true ↔ value_at ctx root names = some (.str (String.ofList s))) := by
  have hpath : eval ctx (path_tree root names) = .ok (value_at ctx root names) :=
    eval_path ctx names (.name root .load) _ (by rw [eval])
  rw [equality_tree, eval, hpath, except_ok_bind]
  rcases hvalue : value_at ctx root names with _ | v
  · refine ⟨false, ?_, by simp⟩
    rw [eval_chain, eval, except_ok_bind, apply_cmp]
    · rfl
    · simp
  · refine ⟨v.pyEq (.str (String.ofList s)), ?_, by rw [Value.pyEq_str_iff, Option.some.injEq]⟩
    rw [eval_chain, eval, except_ok_bind, apply_cmp, compare_values]
    cases v.pyEq (.str (String.ofList s)) <;> rfl

/-- **The condition**, when its normalised text is read as the comparison of some path with some
string, is true exactly when the checker lets it through and the string stands at that path. -/
theorem evaluate_equality_iff {root : String} (hroot : root ∈ ALLOWED_CONTEXT_VARS)
    {keys : List (List Char)} {s s' : List Char} {names : List String}
    (hparse : P.ast_parse (equality_text root (keys.map (normalize_literals P))
      (normalize_literals P s)) = .ok (equality_tree root names s')) (ctx : PyDict) :
    evaluate P (some (equality_text root keys s)) ctx = .ok true
      ↔ check (equality_tree root names s') = .ok ()
        ∧ value_at ctx root names = some (.str (String.ofList s')) := by
  obtain ⟨b, heval, hb⟩ := eval_equality ctx root names s'
  rw [evaluate_equality hroot, hparse, ← hb]
  simp [heval, coerce_bool, Value.truthy]

/-! ### A value at a path -/

/-- Dicts within dicts, with a value under the last of the names. -/
def nested (v : Value) : List String → Value
  | [] => v
  | name :: names => .dict [(name, nested v names)]

theorem foldl_field_none (names : List String) : names.foldl field none = none := by
  induction names with
  | nil => rfl
  | cons name names ih => exact ih

/-- In dicts within dicts there is a string at one path only. -/
theorem foldl_field_nested {s t : String} {names : List String} :
    ∀ {others}, others.foldl field (some (nested (.str s) names)) = some (.str t)
      ↔ others = names ∧ t = s := by
  induction names with
  | nil =>
      intro others
      cases others with
      | nil => simp [nested, eq_comm]
      | cons other others =>
          rw [List.foldl_cons, nested, field, foldl_field_none]
          · simp
          · simp
  | cons name names ih =>
      intro others
      cases others with
      | nil => simp [nested]
      | cons other others =>
          rw [List.foldl_cons, nested, field, PyDict.get, List.cons.injEq, and_assoc]
          by_cases heq : name = other
          · rw [if_pos heq, ih]
            simp [heq]
          · rw [if_neg heq, PyDict.get, foldl_field_none]
            simp [Ne.symm heq]

/-- **Comparing with a string.** On a path that conditions may have, `p == "s"` means what it says
exactly when `s` has no NUL in it and no literal stands in `s` or in a key of `p`. -/
theorem equality_exact_iff {root : String} {keys : List (List Char)} {names : List String}
    (hpermitted : Permitted root names) (hreads : ReadsPath P root keys names) {s : List Char}
    (hs : Plain s) : EqualityExact P root keys names s
      ↔ NUL ∉ s ∧ ¬HasLiteral P s ∧ ∀ key ∈ keys, ¬HasLiteral P key := by
  rw [← normalize_eq_self_iff, ← normalize_keys_iff]
  constructor
  · intro hexact
    -- the string stands at the path, so the condition has to be true
    have hvalue : ∀ others t, value_at [(root, nested (.str (String.ofList s)) names)] root others
        = some (.str t) ↔ others = names ∧ t = String.ofList s := by
      intro others t
      rw [value_at, PyDict.get, if_pos rfl, foldl_field_nested]
    have htrue := (hexact [(root, nested (.str (String.ofList s)) names)]).mpr
      ((hvalue names _).mpr ⟨rfl, rfl⟩)
    obtain ⟨tree, htree, -⟩ := (evaluate_equality hpermitted.root keys s _).mp htrue
    have hnul : NUL ∉ normalize_literals P s := by
      intro hmem
      refine hreads.no_nul _ ?_ tree htree
      rw [render_equality]
      simp [hmem]
    have hplain := plain_normalize (P := P) hs
    refine ⟨fun hmem => hnul ((mem_normalize_iff (by decide) s).mpr hmem), ?_⟩
    by_cases hkeys : keys.map (normalize_literals P) = keys
    · refine ⟨?_, hkeys⟩
      have hread := hreads.reads _ hplain hnul
      have hparse := hread
      rw [← hkeys] at hparse
      have hstring := (hvalue _ _).mp ((evaluate_equality_iff hpermitted.root hparse _).mp htrue).2
      exact String.ofList_injective hstring.2
    · -- the condition talks about another path, where there is no string
      obtain ⟨others, hne, heq⟩ := hreads.rereads hkeys _ hplain hnul tree htree
      rw [heq] at htree
      exact absurd ((hvalue _ _).mp ((evaluate_equality_iff hpermitted.root htree _).mp htrue).2).1
        hne
  · rintro ⟨hnul, hself, hkeys⟩ ctx
    have hparse : P.ast_parse (equality_text root (keys.map (normalize_literals P))
        (normalize_literals P s)) = .ok (equality_tree root names s) := by
      rw [hself, hkeys]
      exact hreads.reads s hs hnul
    rw [evaluate_equality_iff hpermitted.root hparse]
    simp [check_equality hpermitted]

end Equality

end DecisionRuntime.ConditionEvaluator

namespace DecisionRuntime.Recorded

open ConditionEvaluator

/-- A platform that reads the comparisons of `payload.x` with a string. -/
def payload_x : Platform where
  ast_parse text :=
    let start := "payload.x == \"".toList
    if NUL ∉ text.toList ∧ start.isPrefixOf text.toList = true then
      .ok (equality_tree "payload" ["x"] (text.toList.drop start.length).dropLast)
    else .error "invalid syntax"
  uuid5 u _ := u
  sha256_hexdigest text := text
  float _ := none
  repr text := text
  isalnum _ := false
  decimal _ := none

theorem payload_x_reads : ReadsPath payload_x "payload" [['x']] ["x"] where
  reads s hs hnul := by
    have htext : (equality_text "payload" [['x']] s).toList
        = "payload.x == \"".toList ++ (s ++ ['"']) := by
      rw [equality_text, String.toList_ofList, render_equality]
      rfl
    have hstart : "payload.x == \"".toList.isPrefixOf
        ("payload.x == \"".toList ++ (s ++ ['"'])) = true :=
      List.isPrefixOf_iff_prefix.mpr (List.prefix_append _ _)
    have hnone : NUL ∉ "payload.x == \"".toList ++ (s ++ ['"']) := by
      simp only [List.mem_append, not_or]
      exact ⟨by decide, hnul, by decide⟩
    simp only [payload_x, htext]
    rw [if_pos ⟨hnone, hstart⟩, List.drop_left, List.dropLast_concat]
  no_nul text hmem tree := by
    simp only [payload_x, String.toList_ofList]
    rw [if_neg (fun h => h.1 hmem)]
    intro heq
    cases heq
  rereads hkeys := by
    refine absurd ?_ hkeys
    rw [normalize_keys_iff]
    decide +kernel

end DecisionRuntime.Recorded

namespace DecisionRuntime.ConditionEvaluator

/-! ## The two together -/

/-- **Literal normalisation.** A condition keeps what it talks about exactly when no literal stands
inside a quoted string, as a key of a path or inside a name, and a comparison of a path with a
string is exact exactly when, besides, there is no NUL in the string. -/
theorem literal_normalisation_iff (P : Platform) :
    (∀ ts : List Token, (∀ t ∈ ts, t.Valid) → Separated ts →
      (normalize_literals P (render ts) = render (ts.map Token.normalized)
        ↔ ∀ t ∈ ts, ¬t.Disturbed P))
    ∧ ∀ (root : String) (keys : List (List Char)) (names : List String),
      Permitted root names → ReadsPath P root keys names → ∀ s, Plain s →
        (EqualityExact P root keys names s
          ↔ NUL ∉ s ∧ ¬HasLiteral P s ∧ ∀ key ∈ keys, ¬HasLiteral P key) :=
  ⟨fun _ hvalid hsep => normalize_render_iff hvalid hsep,
    fun _ _ _ hpermitted hreads _ hs => equality_exact_iff hpermitted hreads hs⟩

/-- `payload.x == "truelove"` keeps what it talks about. -/
theorem literal_normalisation_truelove :
    normalize_literals Recorded.payload_x
        (render (equality "payload" [['x']] "truelove".toList))
      = render ((equality "payload" [['x']] "truelove".toList).map Token.normalized)
    ∧ EqualityExact Recorded.payload_x "payload" [['x']] ["x"] "truelove".toList := by
  constructor
  · rw [(literal_normalisation_iff Recorded.payload_x).1 _
      (equality_valid (by decide) (by decide) (by decide)) (equality_separated _ _ _)]
    decide +kernel
  · rw [(literal_normalisation_iff Recorded.payload_x).2 _ _ _ ⟨by decide, by decide⟩
      Recorded.payload_x_reads _ (by decide)]
    decide +kernel

/-- `payload.x == "true"` does not: the string is `"True"` afterwards, and the condition is false
where `payload.x` is `"true"`. -/
theorem literal_normalisation_true :
    (¬∀ (P : Platform) (ts : List Token), (∀ t ∈ ts, t.Valid) → Separated ts →
      normalize_literals P (render ts) = render (ts.map Token.normalized))
    ∧ ¬∀ (P : Platform) (root : String) (keys : List (List Char)) (names : List String),
      Permitted root names → ReadsPath P root keys names → ∀ s, Plain s →
        EqualityExact P root keys names s := by
  constructor
  · intro h
    have hsame := h Recorded.payload_x (equality "payload" [['x']] "true".toList)
      (equality_valid (by decide) (by decide) (by decide)) (equality_separated _ _ _)
    revert hsame
    decide +kernel
  · intro h
    have hexact := h Recorded.payload_x "payload" [['x']] ["x"] ⟨by decide, by decide⟩
      Recorded.payload_x_reads "true".toList (by decide)
      [("payload", .dict [("x", .str "true")])]
    have hfalse : evaluate Recorded.payload_x
        (some (equality_text "payload" [['x']] "true".toList))
        [("payload", .dict [("x", .str "true")])] = .ok false := by decide +kernel
    cases hfalse.symm.trans (hexact.mpr rfl)

end DecisionRuntime.ConditionEvaluator
