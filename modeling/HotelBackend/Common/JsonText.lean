import Mathlib.Algebra.Order.Ring.Unbundled.Rat
import HotelBackend.Common.HotelDates
import HotelBackend.Common.Json

/-!
# JSON text

`JSON.parse`, in two passes over its input, each a machine that reads one symbol after the
other: characters into tokens, tokens into a value. A number becomes the nearest double; a
key that stands twice in an object keeps its first place and its last value. Strings are
read as UTF-16 code units; a surrogate that stands alone, which no string here can hold,
becomes U+FFFD.
-/

namespace HotelBackend.Common

/-! ### Doubles -/

/-- `2 ^ e`. -/
def pow2 (e : ℤ) : ℚ := if 0 ≤ e then ((2 ^ e.toNat : ℕ) : ℚ) else mkRat 1 (2 ^ e.natAbs)

/-- The place of the leading binary digit of a positive number. -/
def leadingDigit (q : ℚ) : ℤ :=
  let e : ℤ := Nat.log2 q.num.toNat - Nat.log2 q.den
  if pow2 e ≤ q then e else e - 1

/-- The nearest integer, ties to even. -/
def roundHalfEven (q : ℚ) : ℤ :=
  let down := q.num / q.den
  let rest := q - down
  if rest < mkRat 1 2 ∨ (rest = mkRat 1 2 ∧ down % 2 = 0) then down else down + 1

/-- The nearest double. What overflows is left above every double, where no check accepts it. -/
def toDouble (q : ℚ) : ℚ :=
  if q = 0 then 0
  else
    let size := if 0 ≤ q then q else -q
    let ulp := pow2 (max (leadingDigit size - 52) (-1074))
    let nearest := min (roundHalfEven (size / ulp) * ulp) (pow2 1024)
    if 0 ≤ q then nearest else -nearest

/-- `-?(0|[1-9]\d*)(\.\d+)?([eE][+-]?\d+)?`, as a number. -/
def parseNumber (text : List Char) : Option ℚ := do
  let (negative, text) := match text with
    | '-' :: text => (true, text)
    | text => (false, text)
  let int := text.takeWhile isDigit
  let text := text.dropWhile isDigit
  guard (int = ['0'] || (int ≠ [] && int.head? ≠ some '0'))
  let (frac, text) ← match text with
    | '.' :: text => if text.takeWhile isDigit = [] then none else some (text.takeWhile isDigit, text.dropWhile isDigit)
    | text => some ([], text)
  let exponent : ℤ ← match text with
    | [] => some 0
    | e :: text =>
      let (negative, text) := match text with
        | '-' :: text => (true, text)
        | '+' :: text => (false, text)
        | text => (false, text)
      if (e = 'e' || e = 'E') && text ≠ [] && text.all isDigit then
        some (if negative then -(digitsValue text : ℤ) else digitsValue text)
      else none
  let scale := exponent - frac.length
  let mantissa : ℚ := (digitsValue (int ++ frac) : ℕ)
  let size := if 0 ≤ scale then mantissa * ((10 ^ scale.toNat : ℕ) : ℚ) else mantissa * mkRat 1 (10 ^ scale.natAbs)
  return toDouble (if negative then -size else size)

/-! ### Strings -/

/-- The code units of a character. -/
def utf16Units (c : Char) : List ℕ :=
  if c.toNat < 0x10000 then [c.toNat] else [0xD800 + (c.toNat - 0x10000) / 0x400, 0xDC00 + (c.toNat - 0x10000) % 0x400]

/-- The characters of code units. -/
def ofUtf16 : List ℕ → List Char
  | [] => []
  | [unit] => [if 0xD800 ≤ unit ∧ unit < 0xE000 then '\uFFFD' else Char.ofNat unit]
  | unit :: next :: units =>
    if 0xD800 ≤ unit ∧ unit < 0xDC00 ∧ 0xDC00 ≤ next ∧ next < 0xE000 then
      Char.ofNat (0x10000 + (unit - 0xD800) * 0x400 + (next - 0xDC00)) :: ofUtf16 units
    else (if 0xD800 ≤ unit ∧ unit < 0xE000 then '\uFFFD' else Char.ofNat unit) :: ofUtf16 (next :: units)

/-- The code unit a letter stands for after a backslash. -/
def escaped (c : Char) : Option ℕ :=
  match c with
  | '"' => some 34
  | '\\' => some 92
  | '/' => some 47
  | 'b' => some 8
  | 'f' => some 12
  | 'n' => some 10
  | 'r' => some 13
  | 't' => some 9
  | _ => none

/-- `[0-9a-fA-F]`, as a number. -/
def hexDigit (c : Char) : Option ℕ :=
  if isDigit c then some (c.toNat - 48)
  else if 'a' ≤ c && c ≤ 'f' then some (c.toNat - 87)
  else if 'A' ≤ c && c ≤ 'F' then some (c.toNat - 55)
  else none

/-! ### Tokens -/

inductive JsonToken where
  /-- One of `[]{},:`. -/
  | mark (c : Char)
  | text (s : String)
  /-- A literal or a number. -/
  | scalar (value : Json)

/-- Where the reader of tokens is. -/
inductive JsonLexer where
  | between
  | word (chars : List Char)
  | text (units : List ℕ)
  | backslash (units : List ℕ)
  | unicode (units : List ℕ) (digits value : ℕ)

/-- A literal or a number. -/
def jsonScalar (word : List Char) : Option Json :=
  if word = ['n', 'u', 'l', 'l'] then some .null
  else if word = ['t', 'r', 'u', 'e'] then some (.bool true)
  else if word = ['f', 'a', 'l', 's', 'e'] then some (.bool false)
  else (parseNumber word).map .num

def isJsonMark (c : Char) : Bool := c ∈ ['[', ']', '\x7b', '\x7d', ',', ':']

/-- Tab, line feed, carriage return and space. -/
def isJsonSpace (c : Char) : Bool := c.toNat ∈ [9, 10, 13, 32]

/-- The next character, outside of strings and words. -/
def lexBetween (tokens : List JsonToken) (c : Char) : Option (JsonLexer × List JsonToken) :=
  if isJsonSpace c then some (.between, tokens)
  else if isJsonMark c then some (.between, tokens ++ [.mark c])
  else if c = '"' then some (.text [], tokens)
  else some (.word [c], tokens)

/-- The next character. -/
def lexJson : JsonLexer × List JsonToken → Char → Option (JsonLexer × List JsonToken)
  | (.between, tokens), c => lexBetween tokens c
  | (.word chars, tokens), c =>
    if isJsonSpace c || isJsonMark c || c = '"' then (jsonScalar chars).bind fun value => lexBetween (tokens ++ [.scalar value]) c
    else some (.word (chars ++ [c]), tokens)
  | (.text units, tokens), c =>
    if c = '"' then some (.between, tokens ++ [.text (String.ofList (ofUtf16 units))])
    else if c = '\\' then some (.backslash units, tokens)
    else if c.toNat < 32 then none
    else some (.text (units ++ utf16Units c), tokens)
  | (.backslash units, tokens), c =>
    if c = 'u' then some (.unicode units 0 0, tokens) else (escaped c).map fun unit => (.text (units ++ [unit]), tokens)
  | (.unicode units digits value, tokens), c =>
    (hexDigit c).map fun digit =>
      if digits = 3 then (.text (units ++ [16 * value + digit]), tokens)
      else (.unicode units (digits + 1) (16 * value + digit), tokens)

/-- The tokens of a text; a space ends the last word. -/
def jsonTokens (text : List Char) : Option (List JsonToken) := do
  match ← (text ++ [' ']).foldlM lexJson (.between, []) with
  | (.between, tokens) => return tokens
  | _ => none

/-! ### Values -/

/-- What stands open. -/
inductive JsonFrame where
  | arr (items : List Json)
  | obj (fields : List (String × Json)) (key : String)

/-- What may come next. -/
inductive JsonExpect where
  | value
  | valueOrEnd
  | key
  | keyOrEnd
  | colon
  | commaOrEnd
  | done (value : Json)

/-- A field of an object: the last value of a key counts. -/
def setField (fields : List (String × Json)) (key : String) (value : Json) : List (String × Json) :=
  if fields.any (·.1 = key) then fields.map fun f => if f.1 = key then (key, value) else f else fields ++ [(key, value)]

/-- A value is complete. -/
def completeJson : List JsonFrame → Json → List JsonFrame × JsonExpect
  | [], value => ([], .done value)
  | .arr items :: frames, value => (.arr (items ++ [value]) :: frames, .commaOrEnd)
  | .obj fields key :: frames, value => (.obj (setField fields key value) key :: frames, .commaOrEnd)

/-- A value begins. -/
def beginJson (frames : List JsonFrame) : JsonToken → Option (List JsonFrame × JsonExpect)
  | .mark '[' => some (.arr [] :: frames, .valueOrEnd)
  | .mark '\x7b' => some (.obj [] "" :: frames, .keyOrEnd)
  | .mark _ => none
  | .text s => some (completeJson frames (.str s))
  | .scalar value => some (completeJson frames value)

/-- The next token. -/
def readJson : List JsonFrame × JsonExpect → JsonToken → Option (List JsonFrame × JsonExpect)
  | (frames, .value), token => beginJson frames token
  | (.arr items :: frames, .valueOrEnd), .mark ']' => some (completeJson frames (.arr items))
  | (frames, .valueOrEnd), token => beginJson frames token
  | (.arr items :: frames, .commaOrEnd), .mark ']' => some (completeJson frames (.arr items))
  | (.arr items :: frames, .commaOrEnd), .mark ',' => some (.arr items :: frames, .value)
  | (.obj fields _ :: frames, .keyOrEnd), .mark '\x7d' => some (completeJson frames (.obj fields))
  | (.obj fields _ :: frames, .keyOrEnd), .text key => some (.obj fields key :: frames, .colon)
  | (.obj fields _ :: frames, .key), .text key => some (.obj fields key :: frames, .colon)
  | (.obj fields key :: frames, .colon), .mark ':' => some (.obj fields key :: frames, .value)
  | (.obj fields _ :: frames, .commaOrEnd), .mark '\x7d' => some (completeJson frames (.obj fields))
  | (.obj fields key :: frames, .commaOrEnd), .mark ',' => some (.obj fields key :: frames, .key)
  | _, _ => none

/-- The value of a text. -/
def jsonValue (text : List Char) : Option Json := do
  match ← (← jsonTokens text).foldlM readJson ([], .value) with
  | ([], .done value) => return value
  | _ => none

/-- `JSON.parse`, or `none` where it throws. -/
def parseJson (text : String) : Option Json := jsonValue text.toList

end HotelBackend.Common
