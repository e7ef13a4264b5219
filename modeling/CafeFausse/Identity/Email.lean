import CafeFausse.Sql.Text

/-! # E-mail addresses

The two regular expressions for the parts of an address, which the forms and the API share.
-/

namespace CafeFausse

def isAlphanumeric (c : Codepoint) : Bool :=
  (0x30 ≤ c.val && c.val ≤ 0x39) || (0x41 ≤ c.val && c.val ≤ 0x5a) ||
    (0x61 ≤ c.val && c.val ≤ 0x7a)

/-- The characters of a local part, its dots apart. -/
def isEmailCharacter (c : Codepoint) : Bool :=
  isAlphanumeric c || (text "!#$%&\x27*+/=?^_\x60\x7b|\x7d~-").contains c

/-- `EMAIL_LOCAL` of the forms, `_LOCAL_ATOM` of the API. -/
def emailLocal (t : Text) : Bool :=
  (t.splitOnP (·.val = 0x2e)).all fun part => !part.isEmpty && part.all isEmailCharacter

/-- `DOMAIN_LABEL`, `_DOMAIN_LABEL`. -/
def domainLabel (t : Text) : Bool :=
  t.head?.any isAlphanumeric && t.getLast?.any isAlphanumeric &&
    t.all fun c => isAlphanumeric c || c.val == 0x2d

end CafeFausse
