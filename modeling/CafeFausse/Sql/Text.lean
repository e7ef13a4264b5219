import Mathlib

/-! # Text values

Texts are lists of code points, surrogates included, so that the strings of the web
application and those of the database share one type. The database compares, folds
and matches them through its character type, which is a parameter.
-/

namespace CafeFausse

/-- A Unicode code point. -/
abbrev Codepoint := Fin 0x110000

abbrev Text := List Codepoint

/-- A literal. -/
def text (s : String) : Text :=
  s.toList.map fun c => ⟨c.toNat, by
    rcases c.valid with h | ⟨-, h⟩
    · exact Nat.lt_trans h (by decide)
    · exact h⟩

/-- The character type of the database: the POSIX classes and the lower case it
gives each character. -/
structure CharacterType where
  isAlpha : Codepoint → Bool
  isUpper : Codepoint → Bool
  isSpace : Codepoint → Bool
  lower : Codepoint → Codepoint
  /-- No letter of the ASCII alphabet is a space. -/
  isSpace_letter : ∀ c : Codepoint, 0x41 ≤ c ∧ c ≤ 0x5a ∨ 0x61 ≤ c ∧ c ≤ 0x7a → isSpace c = false

namespace Text

/-- `btrim(t)`: blanks at both ends are removed. -/
def btrim (t : Text) : Text :=
  let blank : Codepoint → Bool := (· == 0x20)
  ((t.dropWhile blank).reverse.dropWhile blank).reverse

/-- `regexp_replace(t, '[^0-9]', '', 'g')`. -/
def digits (t : Text) : Text := t.filter fun c => 0x30 ≤ c && c ≤ 0x39

/-- `t ~ '^[0-9 +().-]+$'`. -/
def phoneCharacters (t : Text) : Bool :=
  !t.isEmpty && t.all fun c => (0x30 ≤ c && c ≤ 0x39) || (text " +().-").contains c

end Text

namespace CharacterType

variable (ct : CharacterType)

/-- `lower(t)`. -/
def lowerText (t : Text) : Text := t.map ct.lower

/-- Every run of spaces becomes one blank. `after` tells whether a space was just left. -/
def collapseFrom : Bool → Text → Text
  | _, [] => []
  | after, c :: t =>
    if ct.isSpace c then
      if after then collapseFrom true t else 0x20 :: collapseFrom true t
    else c :: collapseFrom false t

/-- `regexp_replace(t, '[[:space:]]+', ' ', 'g')`. -/
def collapse (t : Text) : Text := ct.collapseFrom false t

/-- A character type that knows the letters of ASCII only. -/
def ascii : CharacterType where
  isAlpha c := (0x41 ≤ c && c ≤ 0x5a) || (0x61 ≤ c && c ≤ 0x7a)
  isUpper c := 0x41 ≤ c && c ≤ 0x5a
  isSpace c := c == 0x20 || (0x09 ≤ c && c ≤ 0x0d)
  lower c := if 0x41 ≤ c ∧ c ≤ 0x5a then c + 0x20 else c
  isSpace_letter c h := by
    simp only [Bool.or_eq_false_iff, beq_eq_false_iff_ne, Bool.and_eq_false_iff,
      decide_eq_false_iff_not]
    simp only [Fin.le_def, ne_eq, Fin.ext_iff, Fin.isValue] at h ⊢
    omega

end CharacterType

end CafeFausse
