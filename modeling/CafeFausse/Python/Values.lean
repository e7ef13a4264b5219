import CafeFausse.Sql.Text
import CafeFausse.Sql.Time

/-! # Values of the interpreter

The strings, numbers and JSON values that the API works with, and what it asks of the
interpreter: the character database and the conversions that can fail.
-/

namespace CafeFausse.Python

/-- A code point of its own, neither NUL nor half of a surrogate pair. A string of such code
points can be sent to the database. -/
def Encodable (c : Codepoint) : Prop := c.val ≠ 0 ∧ ¬ (0xd800 ≤ c.val ∧ c.val ≤ 0xdfff)

instance (c : Codepoint) : Decidable (Encodable c) := instDecidableAnd

/-- `t` can be sent as PostgreSQL text. -/
def Sendable (t : Text) : Prop := ∀ c ∈ t, Encodable c

instance (t : Text) : Decidable (Sendable t) := List.decidableBAll _ t

def isAsciiDigit (c : Codepoint) : Bool := 0x30 ≤ c.val && c.val ≤ 0x39

/-- The lower case of a character of ASCII. -/
def asciiLower (c : Codepoint) : Codepoint :=
  if h : 0x41 ≤ c.val ∧ c.val ≤ 0x5a then ⟨c.val + 0x20, by omega⟩ else c

/-- The methods of `str` that depend on the character database. -/
structure Unicode where
  isSpace : Codepoint → Bool
  isAlpha : Codepoint → Bool
  isUpper : Codepoint → Bool
  isDigit : Codepoint → Bool
  /-- A letter without case is its own upper case, and some letters become two. -/
  upper : Codepoint → Text
  casefold : Codepoint → Text
  /-- The lower case depends on the context. -/
  lower : Text → Text
  isSpace_ascii : ∀ c : Codepoint, c.val < 0x80 →
    isSpace c = (c.val == 0x20 || (0x09 ≤ c.val && c.val ≤ 0x0d) ||
      (0x1c ≤ c.val && c.val ≤ 0x1f))
  isDigit_ascii : ∀ c : Codepoint, c.val < 0x80 → isDigit c = isAsciiDigit c
  lower_ascii : ∀ t : Text, (∀ c ∈ t, c.val < 0x80) → lower t = t.map asciiLower
  isSpace_encodable : ∀ c, isSpace c = true → Encodable c
  isUpper_encodable : ∀ c, isUpper c = true → Encodable c

namespace Unicode

variable (u : Unicode)

/-- `t.strip()`. -/
def strip (t : Text) : Text := ((t.dropWhile u.isSpace).reverse.dropWhile u.isSpace).reverse

/-- `t.split()`. -/
def split (t : Text) : List Text := (t.splitOnP u.isSpace).filter (· ≠ [])

/-- `" ".join(t.split())`. -/
def joined (t : Text) : Text := List.intercalate (text " ") (u.split t)

/-- `t.casefold()`. -/
def casefoldText (t : Text) : Text := t.flatMap u.casefold

/-- `t.upper()`. -/
def upperText (t : Text) : Text := t.flatMap u.upper

end Unicode

/-- A finite decimal number, as it was written. -/
structure Decimal where
  negative : Bool
  coefficient : ℕ
  exponent : ℤ
  deriving DecidableEq

/-- `value == value.to_integral_value()`. -/
def Decimal.isIntegral (d : Decimal) : Bool :=
  0 ≤ d.exponent || 10 ^ (-d.exponent).toNat ∣ d.coefficient

/-- `int(value)`, where the value is integral. -/
def Decimal.toInt (d : Decimal) : ℤ :=
  let magnitude : ℕ := if 0 ≤ d.exponent then d.coefficient * 10 ^ d.exponent.toNat
    else d.coefficient / 10 ^ (-d.exponent).toNat
  if d.negative then -magnitude else magnitude

/-- A value that `json.loads` returns. -/
inductive Json where
  | null
  | boolean (value : Bool)
  | integer (value : ℤ)
  | decimal (value : Decimal)
  | string (value : Text)
  | array (values : List Json)
  | object (members : List (Text × Json))

/-- A `dict` that `json.loads` returns. -/
abbrev Payload := List (Text × Json)

/-- `payload.get(name)`. -/
def Payload.get (payload : Payload) (name : Text) : Option Json :=
  (payload.find? (·.1 = name)).map (·.2)

/-- The exceptions that leave the code. -/
inductive Exception where
  | protocolError (code : String) (status : ℕ)
  | requestEntityTooLarge
  | valueError
  | invalidOperation
  | conversionFailed
  | assertionError
  | runtimeError
  deriving DecidableEq

/-- The interpreter: its character database, its parsers of dates and times, and how far its
conversions reach. -/
structure Interpreter extends Unicode where
  /-- `date.fromisoformat`, as a day number. -/
  dateFromIsoformat : Text → Option ℤ
  /-- `datetime.fromisoformat` of a text with seconds and an offset: the wall time in
  microseconds and the offset in seconds. -/
  datetimeFromIsoformat : Text → Option (ℤ × ℤ)
  /-- `Decimal(literal)` is possible. -/
  decimalFits : Text → Bool
  /-- `int(value)` is possible. -/
  intFits : Decimal → Bool
  /-- How deep arrays and objects may be nested. -/
  maxDepth : ℕ
  datetimeFromIsoformat_second : ∀ t l o, datetimeFromIsoformat t = some (l, o) →
    l % Time.second = 0

end CafeFausse.Python
