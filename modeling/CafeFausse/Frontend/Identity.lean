import CafeFausse.Identity.Email

/-! # Identity fields of the forms

What the forms make of the texts a visitor types: the checks of the identity fields, with
their messages, and the body that is sent.
-/

namespace CafeFausse.Frontend

/-- What the browser brings along. -/
structure Browser where
  /-- `\s`, which is also what `trim` takes away. -/
  isSpace : Codepoint → Bool
  /-- `\p{L}`. -/
  isLetter : Codepoint → Bool
  toLowerCase : Text → Text
  /-- `Number(value)`, if that is finite. -/
  number : Text → Option ℚ

inductive IdentityField where
  | firstName
  | middleInitial
  | lastName
  | email
  | confirmationEmail
  deriving DecidableEq

inductive Field where
  | identity (field : IdentityField)
  | phone
  deriving DecidableEq

/-- The texts of the identity fields. -/
structure Identity where
  firstName : Text
  middleInitial : Text
  lastName : Text
  email : Text
  confirmationEmail : Text
  deriving DecidableEq

/-- `EMPTY_IDENTITY`. -/
def Identity.empty : Identity := ⟨[], [], [], [], []⟩

/-- `{ ...values, [field]: value }`. -/
def Identity.update (values : Identity) (value : Text) : IdentityField → Identity
  | .firstName => { values with firstName := value }
  | .middleInitial => { values with middleInitial := value }
  | .lastName => { values with lastName := value }
  | .email => { values with email := value }
  | .confirmationEmail => { values with confirmationEmail := value }

/-- `value.length`: code points beyond the first plane count twice. -/
def utf16Length (t : Text) : ℕ := (t.map fun c => if 0x10000 ≤ c.val then 2 else 1).sum

section Fields

variable (b : Browser)

def Browser.trim (t : Text) : Text := ((t.dropWhile b.isSpace).reverse.dropWhile b.isSpace).reverse

def normalizeEmail (value : Text) : Text := b.toLowerCase (b.trim value)

/-- `replace(/\s+/gu, ' ')`. `after` tells whether a space was just left. -/
def Browser.collapseFrom : Bool → Text → Text
  | _, [] => []
  | after, c :: t =>
    if b.isSpace c then
      if after then collapseFrom true t else 0x20 :: collapseFrom true t
    else c :: collapseFrom false t

def normalizeName (value : Text) : Text := b.collapseFrom false (b.trim value)

def isValidEmail (value : Text) : Bool :=
  let email := b.trim value
  if email = [] ∨ 254 < utf16Length email ∨ email.any b.isSpace then false
  else match email.splitOnP (·.val = 0x40) with
  | [localPart, domain] => emailLocal localPart &&
      (domain.splitOnP (·.val = 0x2e)).all fun label => utf16Length label ≤ 63 && domainLabel label
  | _ => false

/-- The error of a name field, if there is one. -/
def nameError (value : Text) : Option String :=
  let normalized := normalizeName b value
  if normalized = [] then some "This field is required."
  else if 100 < normalized.length ∨ ¬ normalized.any b.isLetter then
    some "Enter a name containing a letter, up to 100 characters."
  else none

def middleInitialError (value : Text) : Option String :=
  match b.trim value with
  | [] => none
  | [c] => if b.isLetter c then none else some "Enter one letter."
  | _ => some "Enter one letter."

def emailError (value : Text) : Option String :=
  if b.trim value = [] then some "Email is required."
  else if ¬ isValidEmail b value then some "Enter a valid email address."
  else none

def confirmationEmailError (email confirmationEmail : Text) : Option String :=
  if b.trim confirmationEmail = [] then some "Confirm email is required."
  else if ¬ isValidEmail b confirmationEmail then some "Enter a valid email address."
  else if isValidEmail b email ∧ normalizeEmail b email ≠ normalizeEmail b confirmationEmail then
    some "Email addresses must match."
  else none

def phoneError (value : Text) : Option String :=
  let phone := b.trim value
  if value = [] then none
  else if 32 < utf16Length phone ∨ ¬ phone.phoneCharacters ∨ phone.digits.length < 7 ∨
      15 < phone.digits.length then
    some "Enter a phone number containing 7 to 15 digits."
  else none

/-- The errors by field. The phone is looked at only if it is included. -/
def validateIdentity (values : Identity) (phone : Option Text) : List (Field × String) :=
  [(Field.identity .firstName, nameError b values.firstName),
    (.identity .lastName, nameError b values.lastName),
    (.identity .middleInitial, middleInitialError b values.middleInitial),
    (.identity .email, emailError b values.email),
    (.identity .confirmationEmail, confirmationEmailError b values.email values.confirmationEmail),
    (.phone, phone.bind (phoneError b))].filterMap fun (field, error) => error.map (field, ·)

def identityIsEligible (values : Identity) : Bool := (validateIdentity b values none).isEmpty

/-- What is sent of an identity. -/
structure IdentityBody where
  firstName : Text
  middleInitial : Option Text
  lastName : Text
  email : Text
  confirmationEmail : Text
  deriving DecidableEq

def identityBody (values : Identity) : IdentityBody where
  firstName := normalizeName b values.firstName
  middleInitial := if b.trim values.middleInitial = [] then none else some (b.trim values.middleInitial)
  lastName := normalizeName b values.lastName
  email := normalizeEmail b values.email
  confirmationEmail := normalizeEmail b values.confirmationEmail

end Fields

/-- The digits of a number, the last one first. -/
def decimalFrom : Text → ℚ
  | [] => 0
  | c :: t => ((c.val - 0x30 : ℕ) : ℚ) + 10 * decimalFrom t

/-- A browser that knows the letters of ASCII and numbers without sign, point or exponent. -/
def Browser.ascii : Browser where
  isSpace := CharacterType.ascii.isSpace
  isLetter := CharacterType.ascii.isAlpha
  toLowerCase := CharacterType.ascii.lowerText
  number t := if t.all fun c => 0x30 ≤ c.val && c.val ≤ 0x39 then some (decimalFrom t.reverse) else none

end CafeFausse.Frontend
