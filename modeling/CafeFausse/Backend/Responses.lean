import CafeFausse.Backend.Projections
import CafeFausse.Backend.Requests
import CafeFausse.Backend.Services
import CafeFausse.Python.JsonDumps

/-! # Responses

The table of public errors, the handlers of exceptions, and the routes with the services behind
them. Headers, logs and measured times are left out.
-/

namespace CafeFausse.Backend

open Python Time

/-- A response without its headers. -/
structure Response where
  status : ℕ
  body : Bytes

/-- A row of `ERRORS`. -/
structure ErrorEntry where
  status : ℕ
  message : String
  retryable : Bool
  outcomeUnknown : Bool
  deriving DecidableEq

/-- `ERRORS`. -/
def errors : List (String × ErrorEntry) :=
  [("invalid_json", ⟨400, "The request body is not valid JSON.", false, false⟩),
    ("request_body_required", ⟨400, "A JSON request body is required.", false, false⟩),
    ("invalid_request", ⟨400, "The request is not valid for this endpoint.", false, false⟩),
    ("route_not_found", ⟨404, "The requested route was not found.", false, false⟩),
    ("method_not_allowed",
      ⟨405, "The request method is not allowed for this route.", false, false⟩),
    ("unsupported_media_type", ⟨415, "This endpoint requires application/json.", false, false⟩),
    ("validation_failed", ⟨422, "One or more fields need attention.", false, false⟩),
    ("customer_identity_conflict",
      ⟨409, "The submitted identity details do not match.", false, false⟩),
    ("middle_initial_conflict",
      ⟨409, "The submitted middle initial conflicts with the existing identity details.",
        false, false⟩),
    ("reservation_overlap",
      ⟨409, "This customer already has a reservation that overlaps the selected time.",
        false, false⟩),
    ("reservation_unavailable",
      ⟨409, "The selected time is no longer available. Refresh availability and choose another time.",
        false, false⟩),
    ("newsletter_status_indeterminate",
      ⟨503, "Newsletter status could not be checked right now. You may retry, or continue a booking without changing it.",
        true, false⟩),
    ("temporary_failure",
      ⟨503, "The newsletter preference could not be processed right now. Please retry shortly.",
        true, false⟩),
    ("newsletter_preference_outcome_unknown",
      ⟨503, "The newsletter preference result could not be confirmed. Resubmit the same preference.",
        true, true⟩),
    ("reservation_confirmation_unavailable",
      ⟨503, "The reservation exists, but its complete confirmation could not be prepared. Resubmit the same reservation details to recover it.",
        true, false⟩),
    ("reservation_outcome_unknown",
      ⟨503, "The reservation result could not be confirmed. Resubmit the same reservation details to recover safely.",
        true, true⟩),
    ("service_not_ready", ⟨503, "The service is not ready.", true, false⟩),
    ("service_unavailable",
      ⟨503, "The service cannot process this request right now.", true, false⟩),
    ("internal_error", ⟨500, "An unexpected error occurred.", false, false⟩)]

section Envelopes

/-- `FieldError.as_dict`. -/
def FieldError.asDict (e : FieldError) : Payload :=
  [(text "field", .string e.field.name), (text "code", .string (text e.code)),
    (text "message", .string (text e.message))]

/-- The members of `error`. No fields are `None`. -/
def errorMembers (code : String) (entry : ErrorEntry) (fields : List FieldError) : Payload :=
  [(text "code", .string (text code)), (text "message", .string (text entry.message)),
      (text "retryable", .boolean entry.retryable),
      (text "outcome_unknown", .boolean entry.outcomeUnknown)] ++
    if fields = [] then [] else
      [(text "fields", .array (fields.map fun e => .object e.asDict))]

def errorPayload (code : String) (entry : ErrorEntry) (fields : List FieldError) : Payload :=
  [(text "error", .object (errorMembers code entry fields))]

/-- `json_response`, unless the text cannot be encoded. -/
def jsonResponse (payload : Payload) (status : ℕ) : Option Response := do
  let t ← dumps (.object payload)
  if ∀ c ∈ t, Format.Utf8.Scalar c.val then return ⟨status, Format.Utf8.encode t⟩ else none

/-- `error_response`, unless it raises. -/
def errorResponse (code : String) (status : Option ℕ) (fields : List FieldError) :
    Option Response := do
  let entry ← errors.lookup code
  if status.any (· ≠ entry.status) then none
  else if fields ≠ [] ∧ code ≠ "validation_failed" then none
  else jsonResponse (errorPayload code entry fields) entry.status

/-- `projection_response`. -/
def projectionResponse : ResponseProjection → Option Response
  | .error status code fields => errorResponse code (some status) fields
  | .payload status members => jsonResponse members status

end Envelopes

section Handlers

/-- What leaves a service that reads. -/
inductive ReadFailure where
  | newsletterStatusIndeterminate
  | reservationServiceUnavailable
  | unexpected
  deriving DecidableEq

/-- What a request ends in instead of a response. -/
inductive Failure where
  | exception (e : Exception)
  | read (e : ReadFailure)
  | preference (e : ServiceError)
  | reservation (e : ServiceError)
  | notFound
  | methodNotAllowed
  | unexpected
  deriving DecidableEq

/-- `reservation_temporary`, which puts a message of its own in its place. -/
def reservationTemporary : Option Response := do
  let entry ← errors.lookup "temporary_failure"
  jsonResponse (errorPayload "temporary_failure" { entry with
    message := "The reservation could not be processed right now. Please retry shortly." } []) 503

def unexpectedError : Option Response := errorResponse "internal_error" (some 500) []

/-- The handler of a failure. -/
def handler : Failure → Option Response
  | .exception (.protocolError code status) => errorResponse code (some status) []
  | .exception .requestEntityTooLarge => errorResponse "invalid_request" (some 400) []
  | .exception _ => unexpectedError
  | .read .newsletterStatusIndeterminate =>
    errorResponse "newsletter_status_indeterminate" (some 503) []
  | .read .reservationServiceUnavailable => errorResponse "service_unavailable" (some 503) []
  | .read .unexpected => unexpectedError
  | .preference (.temporaryFailure _ _) => errorResponse "temporary_failure" (some 503) []
  | .preference (.outcomeUnknown _ _) =>
    errorResponse "newsletter_preference_outcome_unknown" (some 503) []
  | .preference _ => unexpectedError
  | .reservation (.temporaryFailure _ _) => reservationTemporary
  | .reservation (.outcomeUnknown _ _) => errorResponse "reservation_outcome_unknown" (some 503) []
  | .reservation (.confirmationUnavailable _ _) =>
    errorResponse "reservation_confirmation_unavailable" (some 503) []
  | .reservation (.serviceUnavailable _ _) => errorResponse "service_unavailable" (some 503) []
  | .reservation _ => unexpectedError
  | .notFound => errorResponse "route_not_found" (some 404) []
  | .methodNotAllowed => errorResponse "method_not_allowed" (some 405) []
  | .unexpected => unexpectedError

end Handlers

section Routes

/-- The services of an application. -/
structure Services where
  getContext : Except ReadFailure ReservationContextResult
  getAvailability : AvailabilityRequest → Except ReadFailure AvailabilityResult
  lookup : CustomerIdentity → Except ReadFailure NewsletterStatusResult
  setPreference : NewsletterPreferenceCommand → Except ServiceError NewsletterPreferenceResult
  book : ReservationCommand → Except ServiceError ReservationBookingResult

/-- A request with its route, or without one. -/
inductive Routed where
  | reservationContext (queryString : Bytes) (content : Content)
  | reservationAvailability (content : Content) (args : List (Text × Text))
  | newsletterStatus (request : Request)
  | newsletterPreferences (request : Request)
  | reservations (request : Request)
  | notFound
  | methodNotAllowed

/-- The value of an expression, which may raise. -/
def raising {α : Type} (value : Option α) : Except Failure α :=
  match value with
  | some a => .ok a
  | none => .error .unexpected

/-- A route from its validation on: the errors of the fields, or what comes of the value. -/
def validated {α : Type} (validation : Except Exception (α ⊕ List FieldError))
    (next : α → Except Failure ResponseProjection) : Except Failure ResponseProjection := do
  match ← validation.mapError .exception with
  -- `validation_error_response`
  | .inr errors => return .error 422 "validation_failed" errors
  | .inl value => next value

variable (py : Interpreter) (codecName : Text → Option Text) (strftime : ℤ → Text)
  (zoneInfo : ZoneInfo) (services : Services)

/-- What a route makes of a request. -/
def project : Routed → Except Failure ResponseProjection
  | .reservationContext queryString content => do
    let _ ← (requireEmptyHealthGet queryString content).mapError .exception
    let result ← services.getContext.mapError .read
    return serializeReservationContext result
  | .reservationAvailability content args =>
    validated (reservationAvailabilityRequest py content args) fun request => do
      let result ← (services.getAvailability request).mapError .read
      raising (serializeReservationAvailability strftime zoneInfo result)
  | .newsletterStatus request =>
    validated (newsletterStatusRequest py codecName request) fun identity => do
      let result ← (services.lookup identity).mapError .read
      return serializeNewsletterStatus result
  | .newsletterPreferences request =>
    validated (newsletterPreferencesRequest py codecName request) fun command => do
      let result ← (services.setPreference command).mapError .preference
      return serializeNewsletterPreference result
  | .reservations request =>
    validated (reservationsRequest py codecName request) fun command => do
      let result ← (services.book command).mapError .reservation
      raising (serializeReservationBooking strftime zoneInfo result)
  | .notFound => .error .notFound
  | .methodNotAllowed => .error .methodNotAllowed

/-- The response to a request. A handler that raises leaves it to the last one. -/
def respond (routed : Routed) : Option Response :=
  let outcome := do
    let projection ← project py codecName strftime zoneInfo services routed
    raising (projectionResponse projection)
  match outcome with
  | .ok response => some response
  | .error failure => (handler failure).or unexpectedError

end Routes

end CafeFausse.Backend
