import CafeFausse.Backend.Validation
import CafeFausse.Database.Schema
import CafeFausse.Format.Utf8
import CafeFausse.Python.JsonLoads

/-! # Requests

`parse_post_json_object` and what the routes make of a request before they call a service: a
command, or the errors of the fields, or an exception.
-/

namespace CafeFausse.Backend

open Python

/-- The body of a request, the length that its header declares, and `MAX_CONTENT_LENGTH`. -/
structure Content where
  contentLength : Option ℕ
  maxContentLength : ℕ
  body : Bytes

/-- What a POST request holds. -/
structure Request extends Content where
  queryString : Bytes
  mimetype : Text
  /-- The parameter `charset` of the content type. -/
  charset : Option Text

/-- What a hook of `json.loads` raises. -/
inductive HookError where
  | invalidJson
  | escaped (e : Exception)
  deriving DecidableEq

section Hooks

/-- The loop of `_object_without_duplicates`. -/
def addMembers (result : Payload) : Payload → Except HookError Payload
  | [] => .ok result
  | (name, value) :: pairs =>
    if result.any (·.1 = name) then .error .invalidJson
    else addMembers (result ++ [(name, value)]) pairs

/-- `_object_without_duplicates`. -/
def objectWithoutDuplicates (pairs : Payload) : Except HookError Payload := addMembers [] pairs

/-- The number of a literal without point and exponent. -/
def intValue (literal : Literal) : ℤ :=
  let magnitude : ℤ := decimalDigits.value literal.whole
  if literal.negative then -magnitude else magnitude

/-- `int(literal)`, which takes no more than 4300 digits. -/
def parseIntLiteral (literal : Literal) : Except HookError Json :=
  if 4300 < literal.whole.length then .error (.escaped .valueError)
  else .ok (.integer (intValue literal))

/-- The number in an exponent. -/
def exponentValue (exponent : Text) : ℤ :=
  let signed := (exponent.drop 1).head?.any fun c => c.val = 0x2b ∨ c.val = 0x2d
  let magnitude : ℤ := decimalDigits.value (exponent.drop (if signed then 2 else 1))
  if (exponent.drop 1).head?.any (·.val = 0x2d) then -magnitude else magnitude

def decimalValue (literal : Literal) : Decimal where
  negative := literal.negative
  coefficient := decimalDigits.value (literal.whole ++ literal.fraction)
  exponent := exponentValue literal.exponent - literal.fraction.length

/-- `Decimal(literal)`. -/
def parseDecimal (py : Interpreter) (literal : Literal) : Except HookError Json :=
  if py.decimalFits literal.text then .ok (.decimal (decimalValue literal))
  else .error (.escaped .invalidOperation)

/-- The hooks of a request. `_reject_nonfinite` takes no constant. -/
def requestHooks (py : Interpreter) : Hooks HookError where
  objectPairsHook := objectWithoutDuplicates
  parseInt := parseIntLiteral
  parseFloat := parseDecimal py
  parseConstant := .error .invalidJson

end Hooks

section Parsing

/-- `ProtocolError("invalid_json", 400)`. -/
def invalidJson : Exception := .protocolError "invalid_json" 400

/-- `InvalidRequest()`. -/
def invalidRequest : Exception := .protocolError "invalid_request" 400

def requestBodyRequired : Exception := .protocolError "request_body_required" 400

def unsupportedMediaType : Exception := .protocolError "unsupported_media_type" 415

-- the name of the codec that `codecs.lookup` finds
variable (py : Interpreter) (codecName : Text → Option Text) (allowedFields : List Field)

/-- `_is_utf8_charset`. -/
def isUtf8Charset (value : Text) : Bool := codecName value = some (text "utf-8")

/-- `request.get_data()`. Without a declared length the bytes are counted. -/
def Content.getData (content : Content) : Except Exception Bytes :=
  if content.maxContentLength < content.contentLength.getD content.body.length then
    .error .requestEntityTooLarge
  else .ok content.body

/-- The tests before the body is decoded. -/
def Request.refusal (request : Request) : Option Exception :=
  if request.queryString ≠ [] then some invalidRequest
  else if request.mimetype ≠ text "application/json" then some unsupportedMediaType
  else if ¬ request.charset.all (isUtf8Charset codecName) then some unsupportedMediaType
  else match request.getData with
  | .error e => some e
  | .ok raw => if raw = [] then some requestBodyRequired else none

/-- The body as JSON. -/
def parseBody (body : Bytes) : Except Exception Json :=
  match Format.Utf8.decode body with
  | none => .error invalidJson
  | some t =>
    match loads (requestHooks py) py.maxDepth t with
    | .ok value => .ok value
    | .error (.raised (.escaped e)) => .error e
    | .error _ => .error invalidJson

/-- `parse_post_json_object`. -/
def parsePostJsonObject (request : Request) : Except Exception Payload :=
  match request.refusal codecName with
  | some e => .error e
  | none => do
    match ← parseBody py request.body with
    | .object members =>
      if members.any fun m => ¬ allowedFields.any (·.name = m.1) then .error invalidRequest
      else return members
    | _ => .error invalidJson

end Parsing

section Routes

/-- What a route goes on with: a value for its service, or errors. -/
def accepted {α : Type} (missing : Exception) (validation : ValidationResult α) :
    Except Exception (α ⊕ List FieldError) :=
  if validation.errors ≠ [] then .ok (.inr validation.errors)
  else match validation.value with
  | none => .error missing
  | some value => .ok (.inl value)

/-- The fields of a newsletter preference, in their order. -/
def preferenceFieldOrder : List Field := identityFieldOrder ++ [.subscribed]

variable (py : Interpreter) (codecName : Text → Option Text)

/-- `newsletter_status`, up to the service. -/
def newsletterStatusRequest (request : Request) :
    Except Exception (CustomerIdentity ⊕ List FieldError) := do
  let payload ← parsePostJsonObject py codecName identityFieldOrder request
  let validation ← validateNewsletterStatusIdentity py.toUnicode payload
  accepted .runtimeError validation

/-- `newsletter_preferences`, up to the service. -/
def newsletterPreferencesRequest (request : Request) :
    Except Exception (NewsletterPreferenceCommand ⊕ List FieldError) := do
  let payload ← parsePostJsonObject py codecName preferenceFieldOrder request
  let validation ← validateNewsletterPreference py.toUnicode payload
  accepted .runtimeError validation

/-- `reservations`, up to the service. -/
def reservationsRequest (request : Request) :
    Except Exception (ReservationCommand ⊕ List FieldError) := do
  let payload ← parsePostJsonObject py codecName bookingFieldOrder request
  let validation ← validateReservation py payload
  accepted .assertionError validation

/-- What a GET route requires of a body: there is none. -/
def requireEmptyBody (content : Content) : Except Exception Unit :=
  if content.contentLength.any (0 < ·) then .error invalidRequest
  else do
    let raw ← content.getData
    if raw ≠ [] then .error invalidRequest else return ()

/-- `require_empty_health_get`. -/
def requireEmptyHealthGet (queryString : Bytes) (content : Content) : Except Exception Unit :=
  if queryString ≠ [] then .error invalidRequest else requireEmptyBody content

/-- The values of both parameters of a query. -/
def queryArguments (args : List (Text × Text)) : Except Exception (List Text × List Text) :=
  let getlist (field : Field) := (args.filter (·.1 = field.name)).map (·.2)
  let fields : List Field := [.localDate, .partySize]
  if args.any (fun arg => ¬ fields.any (·.name = arg.1)) ∨
      fields.any (fun field => getlist field = []) then .error invalidRequest
  else if fields.any fun field => (getlist field).length ≠ 1 ∨ (getlist field).head? = some [] then
    .error invalidRequest
  else .ok (getlist .localDate, getlist .partySize)

/-- The checks of `reservation_availability` on a request: the values of both parameters. -/
def availabilityArguments (content : Content) (args : List (Text × Text)) :
    Except Exception (List Text × List Text) := do
  let _ ← requireEmptyBody content
  queryArguments args

/-- `reservation_availability`, up to the service. -/
def reservationAvailabilityRequest (content : Content) (args : List (Text × Text)) :
    Except Exception (AvailabilityRequest ⊕ List FieldError) := do
  let (localDates, partySizes) ← availabilityArguments content args
  let validation ← validateAvailabilityQuery py localDates partySizes
  accepted .assertionError validation

end Routes

end CafeFausse.Backend
