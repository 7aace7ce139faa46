import Mathlib.Algebra.Order.Ring.Rat
import Mathlib.Data.List.TakeWhile
import Mathlib.Data.Nat.Cast.Order.Ring
import Mathlib.Data.Rat.Lemmas
import HotelBackend.Common.JsonText

/-!
# JSON, written

`JSON.stringify`, in two passes as well: a value into tokens, tokens into characters. What
is written is read back (`parseJson_stringify`), of a value whose objects name a field once
and whose numbers are safe natural ones, the only ones the program writes.
-/

namespace HotelBackend.Common

/-! ### Tokens of a value -/

mutual

def Json.tokens : Json → List JsonToken
  | .null => [.scalar .null]
  | .bool b => [.scalar (.bool b)]
  | .num q => [.scalar (.num q)]
  | .str s => [.text s]
  | .arr items => .mark '[' :: (itemTokens items ++ [.mark ']'])
  | .obj fields => .mark '\x7b' :: (fieldTokens fields ++ [.mark '\x7d'])

/-- The items of an array. -/
def Json.itemTokens : List Json → List JsonToken
  | [] => []
  | [item] => item.tokens
  | item :: next :: items => item.tokens ++ .mark ',' :: itemTokens (next :: items)

/-- The fields of an object. -/
def Json.fieldTokens : List (String × Json) → List JsonToken
  | [] => []
  | [(key, value)] => .text key :: .mark ':' :: value.tokens
  | (key, value) :: next :: fields => .text key :: .mark ':' :: (value.tokens ++ .mark ',' :: fieldTokens (next :: fields))

end

/-! ### Characters of a token -/

/-- `0123456789abcdef`. -/
def hexChar (digit : ℕ) : Char := Char.ofNat (if digit < 10 then 48 + digit else 87 + digit)

/-- A character of a string: quotes, backslashes and control characters are escaped. -/
def escapeChar (c : Char) : List Char :=
  if c = '"' then ['\\', '"']
  else if c = '\\' then ['\\', '\\']
  else if c.toNat = 8 then ['\\', 'b']
  else if c.toNat = 12 then ['\\', 'f']
  else if c.toNat = 10 then ['\\', 'n']
  else if c.toNat = 13 then ['\\', 'r']
  else if c.toNat = 9 then ['\\', 't']
  else if c.toNat < 32 then ['\\', 'u', '0', '0', hexChar (c.toNat / 16), hexChar (c.toNat % 16)]
  else [c]

def quote (s : String) : List Char := '"' :: (s.toList.flatMap escapeChar ++ ['"'])

/-- `String(n)` of a safe integer. -/
def integerText (q : ℚ) : List Char := (if q.num < 0 then ['-'] else []) ++ Nat.toDigits 10 q.num.natAbs

def JsonToken.spell : JsonToken → List Char
  | .mark c => [c]
  | .text s => quote s
  | .scalar .null => ['n', 'u', 'l', 'l']
  | .scalar (.bool true) => ['t', 'r', 'u', 'e']
  | .scalar (.bool false) => ['f', 'a', 'l', 's', 'e']
  | .scalar (.num q) => integerText q
  | .scalar _ => []

/-- `JSON.stringify`. -/
def stringify (value : Json) : String := String.ofList (value.tokens.flatMap JsonToken.spell)

example : stringify (.obj [("a", .arr [.num 12, .null]), ("b\n", .str "\"x\"")]) = "\x7b\"a\":[12,null],\"b\\n\":\"\\\"x\\\"\"\x7d" := by
  decide

/-- What is written without loss. -/
inductive Json.Plain : Json → Prop where
  | null : Plain .null
  | bool (b : Bool) : Plain (.bool b)
  | num {n : ℕ} : n ≤ maxSafeInteger → Plain (.num n)
  | str (s : String) : Plain (.str s)
  | arr {items : List Json} : (∀ item ∈ items, Plain item) → Plain (.arr items)
  | obj {fields : List (String × Json)} : (fields.map (·.1)).Nodup → (∀ f ∈ fields, Plain f.2) → Plain (.obj fields)

/-! ### Numbers read back -/

theorem pow2_natCast (k : ℕ) : pow2 k = ((2 ^ k : ℕ) : ℚ) := by
  rw [pow2, if_pos (Int.natCast_nonneg k), Int.toNat_natCast]

theorem pow2_neg_natCast (k : ℕ) : pow2 (-k) = (((2 ^ k : ℕ) : ℚ))⁻¹ := by
  cases k with
  | zero => simp [pow2]
  | succ k => rw [pow2, if_neg (by omega), Int.natAbs_neg, Int.natAbs_natCast, Rat.mkRat_eq_div, Int.cast_one, one_div]

theorem le_pow2 {n j k : ℕ} (h : n ≤ 2 ^ j) (hjk : j ≤ k) : (n : ℚ) ≤ pow2 k := by
  rw [pow2_natCast]
  exact Nat.cast_le.2 (h.trans (Nat.pow_le_pow_right (by omega) hjk))

theorem roundHalfEven_natCast (m : ℕ) : roundHalfEven m = m := by
  have hdown : (m : ℚ).num / ((m : ℚ).den : ℤ) = m := by
    rw [Rat.num_natCast, Rat.den_natCast, Nat.cast_one, Int.ediv_one]
  have hhalf : (0 : ℚ) < mkRat 1 2 := by decide
  unfold roundHalfEven
  dsimp only
  rw [hdown, Int.cast_natCast, sub_self, if_pos (.inl hhalf)]

/-- A safe natural number is a double. -/
theorem toDouble_natCast {n : ℕ} (h : n ≤ maxSafeInteger) : toDouble n = n := by
  rcases Nat.eq_zero_or_pos n with rfl | hpos
  · rfl
  have hn : n ≠ 0 := by omega
  have hlog : Nat.log2 n ≤ 52 := by
    have : Nat.log2 n < 53 := (Nat.log2_lt hn).2 (lt_of_le_of_lt h (by decide))
    omega
  have hleading : leadingDigit n = Nat.log2 n := by
    have hle : pow2 (Nat.log2 n : ℕ) ≤ (n : ℚ) := by
      rw [pow2_natCast]
      exact_mod_cast Nat.log2_self_le hn
    unfold leadingDigit
    dsimp only
    rw [Rat.num_natCast, Rat.den_natCast, Int.toNat_natCast, show Nat.log2 1 = 0 by decide, Nat.cast_zero, sub_zero, if_pos hle]
  have hulp : pow2 (max (leadingDigit n - 52) (-1074)) = (((2 ^ (52 - Nat.log2 n) : ℕ) : ℚ))⁻¹ := by
    rw [← pow2_neg_natCast, hleading]
    congr 1
    omega
  have hsize : (n : ℚ) / (((2 ^ (52 - Nat.log2 n) : ℕ) : ℚ))⁻¹ = ((n * 2 ^ (52 - Nat.log2 n) : ℕ) : ℚ) := by
    rw [div_inv_eq_mul, ← Nat.cast_mul]
  have hback : (((n * 2 ^ (52 - Nat.log2 n) : ℕ) : ℤ) : ℚ) * (((2 ^ (52 - Nat.log2 n) : ℕ) : ℚ))⁻¹ = n := by
    have hne : ((2 ^ (52 - Nat.log2 n) : ℕ) : ℚ) ≠ 0 := by exact_mod_cast (Nat.two_pow_pos _).ne'
    rw [Int.cast_natCast, Nat.cast_mul, mul_inv_cancel_right₀ hne]
  have hmax : (n : ℚ) ≤ pow2 1024 := le_pow2 (j := 53) (k := 1024) (h.trans (by decide)) (by omega)
  have hq : (n : ℚ) ≠ 0 := by exact_mod_cast hn
  have hnonneg : (0 : ℚ) ≤ n := Nat.cast_nonneg n
  unfold toDouble
  dsimp only
  simp only [if_neg hq, if_pos hnonneg]
  rw [hulp, hsize, roundHalfEven_natCast, hback, min_eq_left hmax]

theorem isDigit_of_mem_toDigits {n : ℕ} {c : Char} (h : c ∈ Nat.toDigits 10 n) : isDigit c = true := by
  have hdigit := Nat.isDigit_of_mem_toDigits (by decide) (by decide) h
  simp only [Char.isDigit, Bool.and_eq_true, decide_eq_true_eq] at hdigit
  simp only [isDigit, Bool.and_eq_true, decide_eq_true_eq]
  exact ⟨hdigit.1, hdigit.2⟩

theorem digitsValue_toDigits (n : ℕ) : digitsValue (Nat.toDigits 10 n) = n := by
  have := Nat.ofDigitChars_ten_toDigits (n := n)
  rwa [Nat.ofDigitChars_eq_foldl] at this

/-- A number does not start with a zero, unless it is zero. -/
theorem head?_toDigits {n : ℕ} (h : n ≠ 0) : (Nat.toDigits 10 n).head? ≠ some '0' := by
  induction n using Nat.strongRecOn with
  | ind n ih =>
    rw [Nat.toDigits_eq_if (by decide)]
    split
    · next hlt =>
      have hall : ∀ d < 10, d ≠ 0 → [Nat.digitChar d].head? ≠ some '0' := by decide
      exact hall n hlt h
    · next hge =>
      rw [List.head?_append_of_ne_nil _ (by simp)]
      exact ih (n / 10) (by omega) (by omega)

/-- A safe natural number is read as it was written. -/
theorem parseNumber_toDigits {n : ℕ} (h : n ≤ maxSafeInteger) : parseNumber (Nat.toDigits 10 n) = some (n : ℚ) := by
  have hall : ∀ c ∈ Nat.toDigits 10 n, isDigit c = true := fun c => isDigit_of_mem_toDigits
  have htake : (Nat.toDigits 10 n).takeWhile isDigit = Nat.toDigits 10 n := List.takeWhile_eq_self_iff.2 hall
  have hdrop : (Nat.toDigits 10 n).dropWhile isDigit = [] := List.dropWhile_eq_nil_iff.2 hall
  have hvalue := digitsValue_toDigits n
  have hguard : Nat.toDigits 10 n = ['0'] ∨ (Nat.toDigits 10 n ≠ [] ∧ (Nat.toDigits 10 n).head? ≠ some '0') := by
    by_cases hn : n = 0
    · subst hn
      exact .inl rfl
    · exact .inr ⟨Nat.toDigits_ne_nil, head?_toDigits hn⟩
  generalize Nat.toDigits 10 n = word at hall htake hdrop hvalue hguard ⊢
  unfold parseNumber
  split
  · next negative text heq =>
    split at heq
    · exact absurd (hall '-' List.mem_cons_self) (by decide)
    · obtain ⟨rfl, rfl⟩ := Prod.mk.inj heq
      rw [htake, hdrop]
      simp [hguard, hvalue, guard, toDouble_natCast h]

/-! ### Strings read back -/

theorem ofUtf16_plain {unit : ℕ} (h : ¬ (0xD800 ≤ unit ∧ unit < 0xE000)) (units : List ℕ) :
    ofUtf16 (unit :: units) = Char.ofNat unit :: ofUtf16 units := by
  cases units with
  | nil => simp only [ofUtf16, if_neg h]
  | cons next units =>
    have hpair : ¬ (0xD800 ≤ unit ∧ unit < 0xDC00 ∧ 0xDC00 ≤ next ∧ next < 0xE000) := by omega
    simp only [ofUtf16, if_neg h, if_neg hpair]

theorem ofUtf16_pair {high low : ℕ} (h : 0xD800 ≤ high ∧ high < 0xDC00 ∧ 0xDC00 ≤ low ∧ low < 0xE000) (units : List ℕ) :
    ofUtf16 (high :: low :: units) = Char.ofNat (0x10000 + (high - 0xD800) * 0x400 + (low - 0xDC00)) :: ofUtf16 units := by
  simp only [ofUtf16, if_pos h]

/-- The code units of a character stand for it. -/
theorem ofUtf16_units (c : Char) (units : List ℕ) : ofUtf16 (utf16Units c ++ units) = c :: ofUtf16 units := by
  have hvalid : c.toNat < 0xD800 ∨ (0xDFFF < c.toNat ∧ c.toNat < 0x110000) := c.valid
  by_cases hlow : c.toNat < 0x10000
  · rw [utf16Units, if_pos hlow, List.singleton_append, ofUtf16_plain (by omega), Char.ofNat_toNat]
  · have hback : 0x10000 + (0xD800 + (c.toNat - 0x10000) / 0x400 - 0xD800) * 0x400 +
        (0xDC00 + (c.toNat - 0x10000) % 0x400 - 0xDC00) = c.toNat := by omega
    rw [utf16Units, if_neg hlow, List.cons_append, List.singleton_append, ofUtf16_pair (by omega), hback, Char.ofNat_toNat]

theorem ofUtf16_flatMap (chars : List Char) : ofUtf16 (chars.flatMap utf16Units) = chars := by
  induction chars with
  | nil => rfl
  | cons c chars ih => rw [List.flatMap_cons, ofUtf16_units, ih]

theorem hexDigit_hexChar : ∀ digit < 16, hexDigit (hexChar digit) = some digit := by decide

/-- An escaped character adds the code units of the character. -/
theorem lex_escapeChar (c : Char) (units : List ℕ) (tokens : List JsonToken) :
    (escapeChar c).foldlM lexJson (.text units, tokens) = some (.text (units ++ utf16Units c), tokens) := by
  unfold escapeChar
  by_cases hquote : c = '"'
  · subst hquote
    rfl
  by_cases hback : c = '\\'
  · subst hback
    rfl
  rw [if_neg hquote, if_neg hback]
  by_cases hcontrol : c.toNat < 32
  · have hunits : utf16Units c = [c.toNat] := if_pos (by omega)
    have hhigh := hexDigit_hexChar (c.toNat / 16) (by omega)
    have hlow := hexDigit_hexChar (c.toNat % 16) (by omega)
    have hzero : hexDigit '0' = some 0 := rfl
    have hvalue : 16 * (c.toNat / 16) + c.toNat % 16 = c.toNat := Nat.div_add_mod _ _
    rw [hunits]
    split_ifs with h8 h12 h10 h13 h9
    · rw [h8]; rfl
    · rw [h12]; rfl
    · rw [h10]; rfl
    · rw [h13]; rfl
    · rw [h9]; rfl
    · simp [lexJson, hzero, hhigh, hlow, hvalue]
  · rw [if_neg (by omega), if_neg (by omega), if_neg (by omega), if_neg (by omega), if_neg (by omega), if_neg hcontrol]
    simp [lexJson, hquote, hback, hcontrol]

/-- A string is read as it was written. -/
theorem lex_quote (s : String) (tokens : List JsonToken) :
    (quote s).foldlM lexJson (.between, tokens) = some (.between, tokens ++ [.text s]) := by
  have hchars : ∀ (chars : List Char) (units : List ℕ), (chars.flatMap escapeChar).foldlM lexJson (.text units, tokens) =
      some (.text (units ++ chars.flatMap utf16Units), tokens) := by
    intro chars
    induction chars with
    | nil => intro units; simp
    | cons c chars ih =>
      intro units
      rw [List.flatMap_cons, List.foldlM_append, lex_escapeChar, Option.bind_eq_bind, Option.bind_some, ih, List.append_assoc,
        List.flatMap_cons]
  have hstart : lexJson (.between, tokens) '"' = some (.text [], tokens) := rfl
  rw [quote, List.foldlM_cons, hstart, Option.bind_eq_bind, Option.bind_some, List.foldlM_append, hchars, Option.bind_eq_bind,
    Option.bind_some, List.nil_append]
  simp [lexJson, ofUtf16_flatMap]

/-! ### Tokens read back -/

/-- The reader of tokens has read `tokens`, up to a word that has no end yet. -/
inductive HasRead : JsonLexer × List JsonToken → List JsonToken → Prop where
  | between (tokens : List JsonToken) : HasRead (.between, tokens) tokens
  | word {chars : List Char} {value : Json} (tokens : List JsonToken) : jsonScalar chars = some value →
      HasRead (.word chars, tokens) (tokens ++ [.scalar value])

theorem isJsonSpace_of_isJsonMark {c : Char} (h : isJsonMark c = true) : isJsonSpace c = false := by
  simp only [isJsonMark, List.mem_cons, List.not_mem_nil, or_false, decide_eq_true_eq] at h
  rcases h with rfl | rfl | rfl | rfl | rfl | rfl <;> rfl

/-- A mark ends a word. -/
theorem HasRead.mark {state : JsonLexer × List JsonToken} {tokens : List JsonToken} (h : HasRead state tokens) {c : Char}
    (hc : isJsonMark c = true) : lexJson state c = some (.between, tokens ++ [.mark c]) := by
  have hbetween : ∀ tokens, lexBetween tokens c = some (.between, tokens ++ [.mark c]) := by
    intro tokens
    rw [lexBetween, if_neg (by rw [isJsonSpace_of_isJsonMark hc]; exact Bool.false_ne_true), if_pos hc]
  cases h with
  | between => exact hbetween tokens
  | word tokens hvalue => simp only [lexJson, hc, Bool.or_true, Bool.true_or, if_true, hvalue, Option.bind_some, hbetween]

/-- A space ends it too. -/
theorem HasRead.space {state : JsonLexer × List JsonToken} {tokens : List JsonToken} (h : HasRead state tokens) :
    lexJson state ' ' = some (.between, tokens) := by
  cases h with
  | between => rfl
  | word tokens hvalue =>
    have hspace : isJsonSpace ' ' = true := by decide
    simp [lexJson, lexBetween, hspace, hvalue]

/-- A character of a word. -/
def isWordChar (c : Char) : Bool := !(isJsonSpace c || isJsonMark c || c = '"')

theorem lex_word {c : Char} {word : List Char} (tokens : List JsonToken) (h : ∀ d ∈ c :: word, isWordChar d = true) :
    (c :: word).foldlM lexJson (.between, tokens) = some (.word (c :: word), tokens) := by
  have hmore : ∀ (word chars : List Char), (∀ d ∈ word, isWordChar d = true) →
      word.foldlM lexJson (.word chars, tokens) = some (.word (chars ++ word), tokens) := by
    intro word
    induction word with
    | nil => intro chars _; simp
    | cons d word ih =>
      intro chars h
      have hd := h d List.mem_cons_self
      rw [isWordChar, Bool.not_eq_true'] at hd
      rw [List.foldlM_cons]
      simp only [lexJson, hd, Bool.false_eq_true, if_false, Option.bind_eq_bind, Option.bind_some]
      rw [ih _ fun d hd => h d (List.mem_cons_of_mem _ hd), List.append_assoc, List.singleton_append]
  have hc := h c List.mem_cons_self
  simp only [isWordChar, Bool.not_eq_true', Bool.or_eq_false_iff, decide_eq_false_iff_not] at hc
  rw [List.foldlM_cons]
  simp only [lexJson, lexBetween, hc, Bool.false_eq_true, if_false, Option.bind_eq_bind, Option.bind_some]
  exact hmore word [c] fun d hd => h d (List.mem_cons_of_mem _ hd)

/-- A scalar that is written. -/
theorem lex_scalar {word : List Char} {value : Json} (tokens : List JsonToken) (hne : word ≠ []) (h : ∀ d ∈ word, isWordChar d = true)
    (hvalue : jsonScalar word = some value) :
    ∃ state, word.foldlM lexJson (.between, tokens) = some state ∧ HasRead state (tokens ++ [.scalar value]) := by
  cases word with
  | nil => exact absurd rfl hne
  | cons c word => exact ⟨_, lex_word tokens h, .word tokens hvalue⟩

theorem isWordChar_of_isDigit {c : Char} (h : isDigit c = true) : isWordChar c = true := by
  by_contra hn
  rw [isWordChar, Bool.not_eq_true', Bool.not_eq_false, Bool.or_eq_true, Bool.or_eq_true, decide_eq_true_eq] at hn
  have hrange : 48 ≤ c.toNat ∧ c.toNat ≤ 57 := by
    simp only [isDigit, Bool.and_eq_true, decide_eq_true_eq] at h
    exact h
  rcases hn with (hspace | hmark) | rfl
  · simp only [isJsonSpace, List.mem_cons, List.not_mem_nil, or_false, decide_eq_true_eq] at hspace
    omega
  · simp only [isJsonMark, List.mem_cons, List.not_mem_nil, or_false, decide_eq_true_eq] at hmark
    rcases hmark with rfl | rfl | rfl | rfl | rfl | rfl <;> exact absurd hrange (by decide)
  · exact absurd hrange (by decide)

/-- A word that starts with a digit is a number. -/
theorem jsonScalar_toDigits {n : ℕ} (h : n ≤ maxSafeInteger) : jsonScalar (Nat.toDigits 10 n) = some (.num n) := by
  have hnot : ∀ c word, isDigit c = false → Nat.toDigits 10 n ≠ c :: word := by
    intro c word hc heq
    rw [isDigit_of_mem_toDigits (heq ▸ List.mem_cons_self)] at hc
    cases hc
  unfold jsonScalar
  rw [if_neg (hnot _ _ (by decide)), if_neg (hnot _ _ (by decide)), if_neg (hnot _ _ (by decide)), parseNumber_toDigits h,
    Option.map_some]

theorem integerText_natCast (n : ℕ) : integerText n = Nat.toDigits 10 n := by
  rw [integerText, Rat.num_natCast, if_neg (by omega), Int.natAbs_natCast, List.nil_append]

/-- From anywhere between tokens, a text is read as these tokens. -/
def Lexes (text : List Char) (written : List JsonToken) : Prop :=
  ∀ tokens, ∃ state, text.foldlM lexJson (.between, tokens) = some state ∧ HasRead state (tokens ++ written)

namespace Lexes

variable {text more : List Char} {written rest : List JsonToken}

theorem nil : Lexes [] [] := fun tokens => ⟨_, rfl, by rw [List.append_nil]; exact .between tokens⟩

/-- What stands before a mark is complete. -/
theorem mark (h : Lexes text written) {c : Char} (hc : isJsonMark c = true) (hmore : Lexes more rest) :
    Lexes (text ++ c :: more) (written ++ .mark c :: rest) := by
  intro tokens
  obtain ⟨state, hstate, hread⟩ := h tokens
  obtain ⟨state', hstate', hread'⟩ := hmore (tokens ++ written ++ [.mark c])
  refine ⟨state', ?_, ?_⟩
  · rw [List.foldlM_append, hstate, Option.bind_eq_bind, Option.bind_some, List.foldlM_cons, hread.mark hc, Option.bind_eq_bind,
      Option.bind_some, hstate']
  · rwa [List.append_assoc, List.append_assoc, List.singleton_append] at hread'

/-- A mark by itself. -/
theorem begin {c : Char} (hc : isJsonMark c = true) (hmore : Lexes more rest) : Lexes (c :: more) (.mark c :: rest) :=
  nil.mark hc hmore

/-- A mark at the end. -/
theorem close (h : Lexes text written) {c : Char} (hc : isJsonMark c = true) : Lexes (text ++ [c]) (written ++ [.mark c]) :=
  h.mark hc nil

theorem quote (s : String) : Lexes (Common.quote s) [.text s] := fun tokens => ⟨_, lex_quote s tokens, .between _⟩

end Lexes

/-- What tokens are written as. -/
abbrev spelled (tokens : List JsonToken) : List Char := tokens.flatMap JsonToken.spell

theorem lexes_items {items : List Json} (h : ∀ item ∈ items, Lexes (spelled item.tokens) item.tokens) :
    Lexes (spelled (Json.itemTokens items)) (Json.itemTokens items) := by
  induction items with
  | nil => exact .nil
  | cons item items ih =>
    have hitem := h item List.mem_cons_self
    cases items with
    | nil => exact hitem
    | cons next items =>
      rw [Json.itemTokens, spelled, List.flatMap_append, List.flatMap_cons]
      exact hitem.mark rfl (ih fun item hitem => h item (List.mem_cons_of_mem _ hitem))

theorem lexes_fields {fields : List (String × Json)} (h : ∀ f ∈ fields, Lexes (spelled f.2.tokens) f.2.tokens) :
    Lexes (spelled (Json.fieldTokens fields)) (Json.fieldTokens fields) := by
  induction fields with
  | nil => exact .nil
  | cons f fields ih =>
    have hf := h f List.mem_cons_self
    have hfield : Lexes (spelled (.text f.1 :: .mark ':' :: f.2.tokens)) (.text f.1 :: .mark ':' :: f.2.tokens) := by
      rw [spelled, List.flatMap_cons, List.flatMap_cons]
      exact (Lexes.quote f.1).mark rfl hf
    cases fields with
    | nil => exact hfield
    | cons next fields =>
      rw [Json.fieldTokens, ← List.cons_append, ← List.cons_append, spelled, List.flatMap_append, List.flatMap_cons]
      exact hfield.mark rfl (ih fun g hg => h g (List.mem_cons_of_mem _ hg))

/-- A value is read as its tokens. -/
theorem lexes_of_plain {value : Json} (h : value.Plain) : Lexes (spelled value.tokens) value.tokens := by
  induction h with
  | null => exact fun tokens => lex_scalar tokens (by decide) (List.all_eq_true.1 rfl) rfl
  | bool b => cases b <;> exact fun tokens => lex_scalar tokens (by decide) (List.all_eq_true.1 rfl) rfl
  | @num n hn =>
    have hword : spelled (Json.tokens (.num n)) = Nat.toDigits 10 n := by
      rw [Json.tokens, spelled, List.flatMap_singleton, JsonToken.spell, integerText_natCast]
    intro tokens
    rw [hword]
    exact lex_scalar tokens Nat.toDigits_ne_nil (fun d hd => isWordChar_of_isDigit (isDigit_of_mem_toDigits hd)) (jsonScalar_toDigits hn)
  | str s =>
    rw [Json.tokens, spelled, List.flatMap_singleton]
    exact .quote s
  | arr _ ih =>
    rw [Json.tokens, spelled, List.flatMap_cons, List.flatMap_append, List.flatMap_singleton]
    exact .begin rfl ((lexes_items ih).close rfl)
  | obj _ _ ih =>
    rw [Json.tokens, spelled, List.flatMap_cons, List.flatMap_append, List.flatMap_singleton]
    exact .begin rfl ((lexes_fields ih).close rfl)

/-! ### Values read back -/

/-- A value may come next. -/
def JsonExpect.isValue : JsonExpect → Bool
  | value | valueOrEnd => true
  | _ => false

/-- The value's tokens are read as the value, wherever it may stand. -/
def ReadsAs (tokens : List JsonToken) (value : Json) : Prop :=
  ∀ frames expect, expect.isValue = true → tokens.foldlM readJson (frames, expect) = some (completeJson frames value)

/-- A token that begins a value. -/
theorem readJson_begin {token : JsonToken} (ht : token ≠ .mark ']') (frames : List JsonFrame) {expect : JsonExpect}
    (h : expect.isValue = true) : readJson (frames, expect) token = beginJson frames token := by
  cases expect with
  | value => rfl
  | valueOrEnd => exact readJson.eq_3 token frames fun _ _ hmark _ => ht hmark
  | _ => cases h

/-- A value of one token. -/
theorem readsAs_single {token : JsonToken} {value : Json} (ht : token ≠ .mark ']')
    (h : ∀ frames, beginJson frames token = some (completeJson frames value)) : ReadsAs [token] value := by
  intro frames expect hexpect
  simp only [List.foldlM_cons, List.foldlM_nil, readJson_begin ht frames hexpect, h, Option.bind_eq_bind, Option.bind_some, Option.pure_def]

/-- The items of an array, after those read so far. -/
theorem fold_itemTokens {items : List Json} (hne : items ≠ []) (h : ∀ item ∈ items, ReadsAs item.tokens item)
    (read : List Json) (frames : List JsonFrame) {expect : JsonExpect} (hexpect : expect.isValue = true) :
    (Json.itemTokens items).foldlM readJson (.arr read :: frames, expect) = some (.arr (read ++ items) :: frames, .commaOrEnd) := by
  induction items generalizing read expect with
  | nil => exact absurd rfl hne
  | cons item items ih =>
    have hitem : item.tokens.foldlM readJson (.arr read :: frames, expect) = some (.arr (read ++ [item]) :: frames, .commaOrEnd) :=
      h item List.mem_cons_self _ _ hexpect
    cases items with
    | nil => exact hitem
    | cons next items =>
      have hcomma : readJson (.arr (read ++ [item]) :: frames, .commaOrEnd) (.mark ',') = some (.arr (read ++ [item]) :: frames, .value) := rfl
      rw [Json.itemTokens, List.foldlM_append, hitem, Option.bind_eq_bind, Option.bind_some, List.foldlM_cons, hcomma,
        Option.bind_eq_bind, Option.bind_some, ih (List.cons_ne_nil _ _) (fun item hitem => h item (List.mem_cons_of_mem _ hitem)) _ rfl,
        List.append_assoc, List.singleton_append]

/-- A field that is new. -/
theorem setField_of_notMem {fields : List (String × Json)} {key : String} (h : key ∉ fields.map (·.1)) (value : Json) :
    setField fields key value = fields ++ [(key, value)] := by
  refine if_neg fun hany => h ?_
  obtain ⟨f, hf, hkey⟩ := List.any_eq_true.1 hany
  exact List.mem_map.2 ⟨f, hf, of_decide_eq_true hkey⟩

/-- A field, after those read so far. -/
theorem fold_field {f : String × Json} (h : ReadsAs f.2.tokens f.2) {read : List (String × Json)} (hnew : f.1 ∉ read.map (·.1))
    (frames : List JsonFrame) (key : String) {expect : JsonExpect} (hexpect : expect = .keyOrEnd ∨ expect = .key) :
    (JsonToken.text f.1 :: .mark ':' :: f.2.tokens).foldlM readJson (.obj read key :: frames, expect) =
      some (.obj (read ++ [f]) f.1 :: frames, .commaOrEnd) := by
  have hkey : readJson (.obj read key :: frames, expect) (.text f.1) = some (.obj read f.1 :: frames, .colon) := by
    rcases hexpect with rfl | rfl <;> rfl
  have hcolon : readJson (.obj read f.1 :: frames, .colon) (.mark ':') = some (.obj read f.1 :: frames, .value) := rfl
  rw [List.foldlM_cons, hkey, Option.bind_eq_bind, Option.bind_some, List.foldlM_cons, hcolon, Option.bind_eq_bind, Option.bind_some,
    h _ _ rfl, completeJson, setField_of_notMem hnew]

/-- The fields of an object, after those read so far. -/
theorem fold_fieldTokens {fields : List (String × Json)} (hne : fields ≠ []) (h : ∀ f ∈ fields, ReadsAs f.2.tokens f.2)
    (read : List (String × Json)) (hnodup : ((read ++ fields).map (·.1)).Nodup) (frames : List JsonFrame) (key : String)
    {expect : JsonExpect} (hexpect : expect = .keyOrEnd ∨ expect = .key) :
    ∃ last, (Json.fieldTokens fields).foldlM readJson (.obj read key :: frames, expect) =
      some (.obj (read ++ fields) last :: frames, .commaOrEnd) := by
  induction fields generalizing read key expect with
  | nil => exact absurd rfl hne
  | cons f fields ih =>
    have hnew : f.1 ∉ read.map (·.1) := by
      rw [List.map_append, List.nodup_append] at hnodup
      exact fun hmem => hnodup.2.2 f.1 hmem f.1 List.mem_cons_self rfl
    have hf := fold_field (h f List.mem_cons_self) hnew frames key hexpect
    cases fields with
    | nil => exact ⟨_, hf⟩
    | cons next fields =>
      have hcomma : readJson (.obj (read ++ [f]) f.1 :: frames, .commaOrEnd) (.mark ',') = some (.obj (read ++ [f]) f.1 :: frames, .key) := rfl
      rw [List.append_cons] at hnodup
      obtain ⟨last, hlast⟩ := ih (List.cons_ne_nil _ _) (fun g hg => h g (List.mem_cons_of_mem _ hg)) _ hnodup f.1 (.inr rfl)
      refine ⟨last, ?_⟩
      rw [Json.fieldTokens, ← List.cons_append, ← List.cons_append, List.foldlM_append, hf, Option.bind_eq_bind, Option.bind_some,
        List.foldlM_cons, hcomma, Option.bind_eq_bind, Option.bind_some, hlast, ← List.append_cons]

theorem readsAs_of_plain {value : Json} (h : value.Plain) : ReadsAs value.tokens value := by
  induction h with
  | null | bool | num | str => exact readsAs_single (by simp) fun _ => rfl
  | @arr items _ ih =>
    intro frames expect hexpect
    have hbegin : readJson (frames, expect) (.mark '[') = some (.arr [] :: frames, .valueOrEnd) :=
      readJson_begin (by simp) frames hexpect
    rw [Json.tokens, List.foldlM_cons, hbegin, Option.bind_eq_bind, Option.bind_some, List.foldlM_append]
    by_cases hne : items = []
    · subst hne
      rfl
    · rw [fold_itemTokens hne ih [] frames rfl]
      rfl
  | @obj fields hnodup _ ih =>
    intro frames expect hexpect
    have hbegin : readJson (frames, expect) (.mark '\x7b') = some (.obj [] "" :: frames, .keyOrEnd) :=
      readJson_begin (by simp) frames hexpect
    rw [Json.tokens, List.foldlM_cons, hbegin, Option.bind_eq_bind, Option.bind_some, List.foldlM_append]
    by_cases hne : fields = []
    · subst hne
      rfl
    · obtain ⟨last, hlast⟩ := fold_fieldTokens hne ih [] hnodup frames "" (.inl rfl)
      rw [hlast]
      rfl

/-- **What is written is read back.** -/
theorem parseJson_stringify {value : Json} (h : value.Plain) : parseJson (stringify value) = some value := by
  obtain ⟨state, hstate, hread⟩ := lexes_of_plain h []
  have htokens : jsonTokens (spelled value.tokens) = some value.tokens := by
    unfold jsonTokens
    rw [List.foldlM_append, hstate]
    simp [hread.space]
  have hvalue := readsAs_of_plain h [] .value rfl
  unfold parseJson jsonValue stringify
  rw [String.toList_ofList, htokens]
  simp [hvalue, completeJson]

end HotelBackend.Common
