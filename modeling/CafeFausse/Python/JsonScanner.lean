import CafeFausse.Clock.WallTimes
import CafeFausse.Python.Values

/-! # Tokens of JSON

How `json.loads` cuts a text into tokens. A token is as long as possible, and a place where none
begins is a token of its own, at which the reader stops.
-/

namespace CafeFausse.Python

/-- A number as it is written. There is a point only before digits. -/
structure Literal where
  negative : Bool
  whole : Text
  fraction : Text
  /-- With its letter and its sign. -/
  exponent : Text
  deriving DecidableEq

/-- The characters of a literal. -/
def Literal.text (l : Literal) : Text :=
  (if l.negative then CafeFausse.text "-" else []) ++ l.whole ++
    (if l.fraction = [] then [] else CafeFausse.text "." ++ l.fraction) ++ l.exponent

/-- A literal for `int`, not for `float`. -/
def Literal.isInteger (l : Literal) : Bool := l.fraction.isEmpty && l.exponent.isEmpty

inductive Token where
  | beginObject
  | endObject
  | beginArray
  | endArray
  | comma
  | colon
  | null
  | boolean (value : Bool)
  | string (value : Text)
  | number (literal : Literal)
  /-- `NaN`, `Infinity` or `-Infinity`. -/
  | constant
  | invalid
  deriving DecidableEq

section Strings

/-- A character of a string, and whether it was written as four hexadecimal digits. -/
structure StringUnit where
  code : Codepoint
  hexadecimal : Bool

def hexValue (c : Codepoint) : Option ℕ :=
  if 0x30 ≤ c.val ∧ c.val ≤ 0x39 then some (c.val - 0x30)
  else if 0x41 ≤ c.val ∧ c.val ≤ 0x46 then some (c.val - 0x37)
  else if 0x61 ≤ c.val ∧ c.val ≤ 0x66 then some (c.val - 0x57)
  else none

/-- `chr(n)`, where `n` is in its range. -/
def chr (n : ℕ) : Codepoint := ⟨n % 0x110000, Nat.mod_lt n (Nat.succ_pos 0x10ffff)⟩

/-- The value of the first four characters. -/
def hexFour : Text → Option Codepoint
  | a :: b :: c :: d :: _ => do
    let a ← hexValue a
    let b ← hexValue b
    let c ← hexValue c
    let d ← hexValue d
    return chr (((a * 16 + b) * 16 + c) * 16 + d)
  | _ => none

/-- What a letter after a backslash stands for. -/
def letterEscape (c : Codepoint) : Option Codepoint :=
  if c.val = 0x22 ∨ c.val = 0x5c ∨ c.val = 0x2f then some c
  else if c.val = 0x62 then some (ascii 0x08 (by decide))
  else if c.val = 0x66 then some (ascii 0x0c (by decide))
  else if c.val = 0x6e then some (ascii 0x0a (by decide))
  else if c.val = 0x72 then some (ascii 0x0d (by decide))
  else if c.val = 0x74 then some (ascii 0x09 (by decide))
  else none

/-- What a backslash stands for, and how many of the characters after it belong to it. -/
def scanEscape : Text → Option (StringUnit × ℕ)
  | [] => none
  | c :: t =>
    if c.val = 0x75 then (hexFour t).map fun code => (⟨code, true⟩, 5)
    else (letterEscape c).map fun code => (⟨code, false⟩, 1)

/-- `scanstring` after the opening quote: the characters, and how many the text has up to the
closing quote. The first ones may belong to an escape that was already read. -/
def scanString : ℕ → Text → Option (List StringUnit × ℕ)
  | _, [] => none
  | skip + 1, _ :: t => (scanString skip t).map fun (units, n) => (units, n + 1)
  | 0, c :: t =>
    if c.val = 0x22 then some ([], 1)
    else if c.val = 0x5c then
      match scanEscape t with
      | none => none
      | some (unit, skip) =>
        (scanString skip t).map fun (units, n) => (unit :: units, n + 1)
    else if c.val < 0x20 then none
    else (scanString 0 t).map fun (units, n) => (⟨c, false⟩ :: units, n + 1)

def IsHighSurrogate (c : Codepoint) : Prop := 0xd800 ≤ c.val ∧ c.val ≤ 0xdbff

def IsLowSurrogate (c : Codepoint) : Prop := 0xdc00 ≤ c.val ∧ c.val ≤ 0xdfff

instance (c : Codepoint) : Decidable (IsHighSurrogate c) := instDecidableAnd
instance (c : Codepoint) : Decidable (IsLowSurrogate c) := instDecidableAnd

/-- The code point of two surrogates. -/
def surrogatePair (high low : Codepoint) : Codepoint :=
  chr (0x10000 + (high.val - 0xd800) * 0x400 + (low.val - 0xdc00))

/-- Two surrogates in hexadecimal digits are one character. -/
def joinSurrogates : List StringUnit → Text
  | [] => []
  | [unit] => [unit.code]
  | unit :: next :: rest =>
    if (unit.hexadecimal ∧ IsHighSurrogate unit.code) ∧
        next.hexadecimal ∧ IsLowSurrogate next.code then
      surrogatePair unit.code next.code :: joinSurrogates rest
    else unit.code :: joinSurrogates (next :: rest)

end Strings

section Numbers

/-- A zero, or digits that begin with another. -/
def scanWhole (t : Text) : Text :=
  if t.head?.any (·.val = 0x30) then t.take 1 else t.takeWhile isAsciiDigit

/-- The digits after a point. -/
def scanFraction (t : Text) : Text :=
  if t.head?.any (·.val = 0x2e) then (t.drop 1).takeWhile isAsciiDigit else []

/-- An exponent with digits. -/
def scanExponent (t : Text) : Text :=
  if t.head?.any (fun c => c.val = 0x65 ∨ c.val = 0x45) then
    let signed := (t.drop 1).head?.any fun c => c.val = 0x2b ∨ c.val = 0x2d
    let start := if signed then 2 else 1
    let digits := (t.drop start).takeWhile isAsciiDigit
    if digits = [] then [] else t.take start ++ digits
  else []

/-- `_match_number`. -/
def scanNumber (t : Text) : Option Literal :=
  let negative := t.head?.any (·.val = 0x2d)
  let t := if negative then t.drop 1 else t
  let whole := scanWhole t
  if whole = [] then none
  else
    let t := t.drop whole.length
    let fraction := scanFraction t
    let t := if fraction = [] then t else t.drop (fraction.length + 1)
    some ⟨negative, whole, fraction, scanExponent t⟩

end Numbers

/-- The words that are tokens. -/
def words : List (Text × Token) :=
  [(text "null", .null), (text "true", .boolean true), (text "false", .boolean false),
    (text "NaN", .constant), (text "Infinity", .constant), (text "-Infinity", .constant)]

/-- The token that begins with `c`, and how many of the characters after `c` belong to it. -/
def scanToken (c : Codepoint) (t : Text) : Token × ℕ :=
  if c.val = 0x7b then (.beginObject, 0)
  else if c.val = 0x7d then (.endObject, 0)
  else if c.val = 0x5b then (.beginArray, 0)
  else if c.val = 0x5d then (.endArray, 0)
  else if c.val = 0x2c then (.comma, 0)
  else if c.val = 0x3a then (.colon, 0)
  else if c.val = 0x22 then
    match scanString 0 t with
    | some (units, n) => (.string (joinSurrogates units), n)
    | none => (.invalid, 0)
  else match words.find? fun (word, _) => word.isPrefixOf (c :: t) with
  | some (word, token) => (token, word.length - 1)
  | none =>
    match scanNumber (c :: t) with
    | some literal => (.number literal, literal.text.length - 1)
    | none => (.invalid, 0)

/-- The whitespace of JSON. -/
def isJsonBlank (c : Codepoint) : Bool :=
  c.val = 0x20 || c.val = 0x09 || c.val = 0x0a || c.val = 0x0d

/-- The tokens of a text, whose first characters may belong to a token that was already read. -/
def scanFrom : ℕ → Text → List Token
  | _, [] => []
  | skip + 1, _ :: t => scanFrom skip t
  | 0, c :: t =>
    if isJsonBlank c then scanFrom 0 t
    else (scanToken c t).1 :: scanFrom (scanToken c t).2 t

def scan (t : Text) : List Token := scanFrom 0 t

example : scan (text "\x7b\"a\\u00e9\": [-1.50e+2, 01], nul") =
    [.beginObject, .string [ascii 0x61 (by decide), ⟨0xe9, by decide⟩], .colon, .beginArray,
      .number ⟨true, text "1", text "50", text "e+2"⟩, .comma, .number ⟨false, text "0", [], []⟩,
      .number ⟨false, text "1", [], []⟩, .endArray, .comma, .invalid, .invalid, .invalid] := by
  decide +kernel

end CafeFausse.Python
