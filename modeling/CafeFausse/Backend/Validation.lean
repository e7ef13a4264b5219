import CafeFausse.Backend.NewsletterGateway
import CafeFausse.Backend.ReservationGateway
import CafeFausse.Identity.Email
import CafeFausse.Python.Values

/-! # Field validation

The validators of the API: the identity fields, which three operations share, the rest of a
reservation and of a newsletter preference, and the query for times. Each returns either a
value or the errors of the fields, in the order in which the fields are declared.
-/

namespace CafeFausse.Backend

open Python

/-- The fields that a client sends. -/
inductive Field where
  | firstName
  | middleInitial
  | lastName
  | email
  | confirmationEmail
  | phone
  | startsAtLocal
  | utcOffsetMinutes
  | partySize
  | newsletterAction
  | subscribed
  | localDate
  deriving DecidableEq

def Field.name : Field → Text
  | .firstName => text "first_name"
  | .middleInitial => text "middle_initial"
  | .lastName => text "last_name"
  | .email => text "email"
  | .confirmationEmail => text "confirmation_email"
  | .phone => text "phone"
  | .startsAtLocal => text "starts_at_local"
  | .utcOffsetMinutes => text "utc_offset_minutes"
  | .partySize => text "party_size"
  | .newsletterAction => text "newsletter_action"
  | .subscribed => text "subscribed"
  | .localDate => text "local_date"

structure FieldError where
  field : Field
  code : String
  message : String
  deriving DecidableEq

/-- Either a value or errors. -/
structure ValidationResult (α : Type) where
  value : Option α
  errors : List FieldError
  exactly_one : value.isNone = !errors.isEmpty

/-- `ValidationResult(value, errors)` with the check of its `__post_init__`. -/
def validationResult {α : Type} (value : Option α) (errors : List FieldError) :
    Except Exception (ValidationResult α) :=
  if h : value.isNone = !errors.isEmpty then .ok ⟨value, errors, h⟩ else .error .valueError

/-- The errors by field. -/
abbrev Errors := Field → List FieldError

def Errors.append (errors : Errors) (field : Field) (more : List FieldError) : Errors :=
  fun f => if f = field then errors f ++ more else errors f

/-- `ordered_errors`. -/
def orderedErrors (errors : Errors) (fieldOrder : List Field) : List FieldError :=
  fieldOrder.flatMap errors

def requiredError (field : Field) : FieldError := ⟨field, "required", "This field is required."⟩

def nullError (field : Field) : FieldError :=
  ⟨field, "null_not_allowed", "This field cannot be null."⟩

def stringError (field : Field) : FieldError :=
  ⟨field, "invalid_type", "This field must be a string."⟩

def emptyError (field : Field) : FieldError := ⟨field, "empty", "This field cannot be empty."⟩

section Identity

variable (u : Unicode)

/-- `_normalize_name`. -/
def normalizeName (field : Field) : Json → Except FieldError Text
  | .string value =>
    let normalized := u.joined value
    if normalized = [] then .error (emptyError field)
    else if 100 < normalized.length then
      .error ⟨field, "too_long", "This field must be 100 characters or fewer."⟩
    else if ¬ normalized.any u.isAlpha then
      .error ⟨field, "invalid_format", "This field must contain a letter."⟩
    else .ok normalized
  | _ => .error (stringError field)

/-- `_normalize_middle`. -/
def normalizeMiddle : Json → Except FieldError (Option Text)
  | .string value =>
    let invalid : Except FieldError (Option Text) :=
      .error ⟨.middleInitial, "invalid_format", "Enter one letter."⟩
    let normalized := u.strip value
    if normalized = [] then .ok none
    else if normalized.length ≠ 1 ∨ ¬ normalized.all u.isAlpha then invalid
    else if (u.upperText normalized).length ≠ 1 then invalid
    else .ok (some (u.upperText normalized))
  | _ => .error (stringError .middleInitial)

/-- `_normalize_email`. -/
def normalizeEmail (field : Field) : Json → Except FieldError Text
  | .string value =>
    let normalized := u.strip value
    if normalized = [] then .error (emptyError field)
    else if 254 < normalized.length then
      .error ⟨field, "too_long", "This field must be 254 characters or fewer."⟩
    else match normalized.splitOnP (·.val = 0x40) with
    | [localPart, domain] =>
      if emailLocal localPart ∧ (domain.splitOnP (·.val = 0x2e)).all domainLabel then
        .ok (u.lower normalized)
      else .error ⟨field, "invalid_format", "Enter a valid email address."⟩
    | _ => .error ⟨field, "invalid_format", "Enter a valid email address."⟩
  | _ => .error (stringError field)

/-- `CustomerIdentity`. -/
structure CustomerIdentity where
  firstName : Text
  middleInitial : Option Text
  lastName : Text
  email : Text
  deriving DecidableEq

/-- The order of the identity fields. -/
def identityFieldOrder : List Field :=
  [.firstName, .middleInitial, .lastName, .email, .confirmationEmail]

/-- What one turn of the loop makes of a field: nothing if it is absent and may be. -/
def identityField (payload : Payload) (field : Field) : Option (Except FieldError (Option Text)) :=
  match payload.get field.name with
  | none => if field = .middleInitial then none else some (.error (requiredError field))
  | some .null => some (.error (nullError field))
  | some value => some (
    if field = .firstName ∨ field = .lastName then (normalizeName u field value).map some
    else if field = .middleInitial then normalizeMiddle u value
    else (normalizeEmail u field value).map some)

/-- `normalized[field]`, if it is set. -/
def normalizedField (payload : Payload) (field : Field) : Option (Option Text) :=
  match identityField u payload field with
  | some (.ok value) => some value
  | some (.error _) => none
  | none => none

/-- The errors of the identity fields. -/
def identityErrors (payload : Payload) : Errors :=
  let errors : Errors := fun field =>
    match identityField u payload field with
    | some (.error e) => [e]
    | _ => []
  match normalizedField u payload .email, normalizedField u payload .confirmationEmail with
  | some email, some confirmationEmail =>
    if email ≠ confirmationEmail then errors.append .confirmationEmail
      [⟨.confirmationEmail, "email_mismatch", "The email addresses must match."⟩]
    else errors
  | _, _ => errors

/-- `normalized[field]` where it is set to a string. -/
def normalizedText (payload : Payload) (field : Field) : Text :=
  ((normalizedField u payload field).getD none).getD []

/-- `validate_newsletter_status_identity`. -/
def validateNewsletterStatusIdentity (payload : Payload) :
    Except Exception (ValidationResult CustomerIdentity) :=
  let ordered := orderedErrors (identityErrors u payload) identityFieldOrder
  if ordered ≠ [] then validationResult none ordered
  else validationResult (some {
    firstName := normalizedText u payload .firstName
    middleInitial := (normalizedField u payload .middleInitial).getD none
    lastName := normalizedText u payload .lastName
    email := normalizedText u payload .email }) []

/-- The command for a preference. -/
def CustomerIdentity.preferenceCommand (identity : CustomerIdentity) (subscribed : Bool) :
    NewsletterPreferenceCommand where
  firstName := identity.firstName
  middleInitial := identity.middleInitial
  lastName := identity.lastName
  email := identity.email
  subscribed

/-- `validate_newsletter_preference`. -/
def validateNewsletterPreference (payload : Payload) :
    Except Exception (ValidationResult NewsletterPreferenceCommand) := do
  let identityValidation ← validateNewsletterStatusIdentity u payload
  let errors := identityValidation.errors ++
    match payload.get Field.subscribed.name with
    | none => [requiredError .subscribed]
    | some .null => [nullError .subscribed]
    | some (.boolean _) => []
    | some _ => [⟨.subscribed, "invalid_type", "This field must be a Boolean."⟩]
  if errors ≠ [] then validationResult none errors
  else match identityValidation.value, payload.get Field.subscribed.name with
  | none, _ => .error .runtimeError
  | some identity, some (.boolean subscribed) =>
    validationResult (some (identity.preferenceCommand subscribed)) []
  | some _, _ => .error .valueError

/-- `normalize_phone`, of which only the display text is used. -/
def normalizePhone : Json → Except FieldError Text
  | .string value =>
    let display := u.strip value
    let digits := display.filter u.isDigit
    if display = [] then .error (emptyError .phone)
    else if 32 < display.length then
      .error ⟨.phone, "too_long", "This field must be 32 characters or fewer."⟩
    else if ¬ display.phoneCharacters ∨ ¬ (7 ≤ digits.length ∧ digits.length ≤ 15) then
      .error ⟨.phone, "invalid_format", "Enter a valid phone number."⟩
    else .ok display
  | _ => .error (stringError .phone)

end Identity

section Reservation

variable (py : Interpreter)

/-- `_LOCAL_DATE`; a `0` stands for any digit. -/
def matchesPattern (pattern : String) (t : Text) : Bool :=
  t.length = pattern.length &&
    (t.zip (text pattern)).all fun (c, p) => if p.val = 0x30 then isAsciiDigit c else c == p

/-- `_LOCAL_START`. -/
def matchesLocalStart (t : Text) : Bool :=
  matchesPattern "0000-00-00T00:00:00+00:00" t || matchesPattern "0000-00-00T00:00:00-00:00" t

/-- `_exact_integer`. -/
def exactInteger : Option Json → Except Exception (Option ℤ)
  | some (.integer n) => .ok (some n)
  | some (.decimal d) =>
    if d.isIntegral then if py.intFits d then .ok (some d.toInt) else .error .conversionFailed
    else .ok none
  | _ => .ok none

/-- The errors of `phone` and its display text. -/
def phoneField (payload : Payload) : List FieldError × Option Text :=
  match payload.get Field.phone.name with
  | none => ([], none)
  | some .null => ([nullError .phone], none)
  | some value =>
    match normalizePhone py.toUnicode value with
    | .error e => ([e], none)
    | .ok display => ([], some display)

/-- The errors of `starts_at_local`, its wall time and its offset in minutes. The offset is
kept when it is out of range. -/
def startField (payload : Payload) : List FieldError × Option ℤ × Option ℤ :=
  let invalid : FieldError :=
    ⟨.startsAtLocal, "invalid_value", "Use a valid local date and time."⟩
  match payload.get Field.startsAtLocal.name with
  | none => ([requiredError .startsAtLocal], none, none)
  | some .null => ([nullError .startsAtLocal], none, none)
  | some (.string t) =>
    if ¬ matchesLocalStart t then
      ([⟨.startsAtLocal, "invalid_format",
        "Use a date-time with seconds and a numeric UTC offset."⟩], none, none)
    else match py.datetimeFromIsoformat t with
    | none => ([invalid], none, none)
    | some (localStart, offset) =>
      if offset % 60 ≠ 0 then ([invalid], none, none)
      else if ¬ (-840 ≤ offset / 60 ∧ offset / 60 ≤ 840) then ([invalid], none, some (offset / 60))
      else ([], some localStart, some (offset / 60))
  | some _ => ([stringError .startsAtLocal], none, none)

/-- The errors of a field that has to be a whole number, which `range` adds to. -/
def integerField (payload : Payload) (field : Field) (value : Option ℤ)
    (range : ℤ → List FieldError) : List FieldError :=
  match payload.get field.name, value with
  | none, _ => [requiredError field]
  | some .null, _ => [nullError field]
  | some _, none => [⟨field, "invalid_type", "This field must be a whole number."⟩]
  | some _, some n => range n

def utcOffsetRange (offsetFromStart : Option ℤ) (n : ℤ) : List FieldError :=
  if ¬ (-840 ≤ n ∧ n ≤ 840) then
    [⟨.utcOffsetMinutes, "out_of_range", "The UTC offset is outside the allowed range."⟩]
  else if offsetFromStart.any (n ≠ ·) then
    [⟨.utcOffsetMinutes, "utc_offset_mismatch",
      "The UTC offset must match the selected local start."⟩]
  else []

def partySizeRange (n : ℤ) : List FieldError :=
  if ¬ (1 ≤ n ∧ n ≤ 2147483647) then
    [⟨.partySize, "out_of_range", "The party size is outside the allowed range."⟩]
  else []

/-- The action that a text names. -/
def newsletterAction (t : Text) : NewsletterAction :=
  if t = text "subscribe" then .subscribe
  else if t = text "unsubscribe" then .unsubscribe
  else if t = text "no_change" then .noChange
  else .unrecognized

def actionErrors (payload : Payload) : List FieldError :=
  match payload.get Field.newsletterAction.name with
  | none => [requiredError .newsletterAction]
  | some .null => [nullError .newsletterAction]
  | some (.string t) =>
    if newsletterAction t = .unrecognized then
      [⟨.newsletterAction, "invalid_value", "Choose subscribe, unsubscribe, or no_change."⟩]
    else []
  | some _ => [stringError .newsletterAction]

/-- `_BOOKING_FIELD_ORDER`. -/
def bookingFieldOrder : List Field :=
  [.firstName, .middleInitial, .lastName, .email, .confirmationEmail, .phone, .startsAtLocal,
    .utcOffsetMinutes, .partySize, .newsletterAction]

/-- `ReservationCommand(…)` with the checks of its `__post_init__`. -/
def reservationCommand (identity : CustomerIdentity) (phone : Option Text)
    (localStart utcOffsetMinutes partySize : ℤ) (action : NewsletterAction) :
    Except Exception ReservationCommand :=
  if h : localStart % Time.second = 0 ∧ (-840 ≤ utcOffsetMinutes ∧ utcOffsetMinutes ≤ 840) ∧
      (1 ≤ partySize ∧ partySize ≤ 2147483647) ∧ action ≠ .unrecognized then
    .ok {
      firstName := identity.firstName
      middleInitial := identity.middleInitial
      lastName := identity.lastName
      email := identity.email
      phone, localStart, utcOffsetMinutes, partySize
      newsletterAction := action
      localStart_ck := h.1
      utcOffsetMinutes_ck := h.2.1
      partySize_ck := h.2.2.1
      newsletterAction_ck := h.2.2.2 }
  else .error .valueError

/-- `validate_reservation`. -/
def validateReservation (payload : Payload) :
    Except Exception (ValidationResult ReservationCommand) := do
  let identityValidation ← validateNewsletterStatusIdentity py.toUnicode payload
  let phone := phoneField py payload
  let start := startField py payload
  let utcOffset ← exactInteger py (payload.get Field.utcOffsetMinutes.name)
  let partySize ← exactInteger py (payload.get Field.partySize.name)
  let errors : Errors := fun field => identityValidation.errors.filter (·.field = field)
  let errors := errors.append .phone phone.1
  let errors := errors.append .startsAtLocal start.1
  let errors := errors.append .utcOffsetMinutes
    (integerField payload .utcOffsetMinutes utcOffset (utcOffsetRange start.2.2))
  let errors := errors.append .partySize (integerField payload .partySize partySize partySizeRange)
  let errors := errors.append .newsletterAction (actionErrors payload)
  let failures := orderedErrors errors bookingFieldOrder
  if failures ≠ [] then validationResult none failures
  else match identityValidation.value, start.2.1, utcOffset, partySize,
      payload.get Field.newsletterAction.name with
  | some identity, some localStart, some utcOffset, some partySize, some (.string action) => do
    let command ← reservationCommand identity phone.2 localStart utcOffset partySize
      (newsletterAction action)
    validationResult (some command) []
  | _, _, _, _, _ => .error .assertionError

/-- `AvailabilityRequest`. -/
structure AvailabilityRequest where
  localDate : ℤ
  partySize : ℤ
  deriving DecidableEq

/-- The digits of a number, as their value. -/
def digitsValue (t : Text) : ℕ := t.foldl (fun n c => 10 * n + (c.val - 0x30)) 0

/-- `int(digits, 10)`, which takes no more than 4300 of them. -/
def parseInt (digits : Text) : Except Exception ℤ :=
  if 4300 < digits.length then .error .valueError else .ok (digitsValue digits)

/-- `validate_availability_query` for the two values of the query string. -/
def validateAvailabilityQuery (localDates partySizes : List Text) :
    Except Exception (ValidationResult AvailabilityRequest) := do
  let (dateErrors, localDate) : List FieldError × Option ℤ :=
    match localDates with
    | [t] =>
      if t = [] then
        ([⟨.localDate, "required", "This query parameter is required exactly once."⟩], none)
      else if ¬ matchesPattern "0000-00-00" t then
        ([⟨.localDate, "invalid_format", "Use a valid date in YYYY-MM-DD format."⟩], none)
      else match py.dateFromIsoformat t with
      | none => ([⟨.localDate, "invalid_value", "Use a valid calendar date."⟩], none)
      | some day => ([], some day)
    | _ => ([⟨.localDate, "required", "This query parameter is required exactly once."⟩], none)
  let (partyErrors, partySize) ← (show Except Exception (List FieldError × Option ℤ) from
    match partySizes with
    | [t] =>
      if t = [] then
        .ok ([⟨.partySize, "required", "This query parameter is required exactly once."⟩], none)
      else if ¬ t.all isAsciiDigit then
        .ok ([⟨.partySize, "invalid_type", "Use a base-10 whole number."⟩], none)
      else do
        let n ← parseInt t
        return (partySizeRange n, some n)
    | _ =>
      .ok ([⟨.partySize, "required", "This query parameter is required exactly once."⟩], none))
  let errors := dateErrors ++ partyErrors
  if errors ≠ [] then validationResult none errors
  else match localDate, partySize with
  | some localDate, some partySize => validationResult (some ⟨localDate, partySize⟩) []
  | _, _ => .error .assertionError

end Reservation

end CafeFausse.Backend
