import CafeFausse.Backend.CustomerGateway
import CafeFausse.Backend.ReservationGateway
import CafeFausse.Backend.Serialization

/-! # Serialized results

What the serializers make of the other results of the services: the state of a subscription, the
context of reservations and a booking. A serializer that raises returns nothing.
-/

namespace CafeFausse.Backend

open Python Time

section Newsletter

/-- A Boolean of a result, which may be `None`. -/
def nullableBoolean : Option Bool → Json
  | some b => .boolean b
  | none => .null

/-- `serialize_newsletter_status`. -/
def serializeNewsletterStatus (result : NewsletterStatusResult) : ResponseProjection :=
  match result.outcome with
  | .matched => .payload 200
    [(text "status", .string (text "matched")),
      (text "subscribed", nullableBoolean result.subscribed)]
  | .notFound => .payload 200 [(text "status", .string (text "not_found"))]
  | .customerIdentityConflict => .error 409 "customer_identity_conflict" []
  | .middleInitialConflict => .error 409 "middle_initial_conflict" []

/-- The errors of fields that were not accepted. -/
def notAccepted (fields : List Field) : List FieldError :=
  fields.map fun field => ⟨field, "invalid_value", "The submitted value was not accepted."⟩

/-- `serialize_newsletter_preference`. -/
def serializeNewsletterPreference (result : NewsletterPreferenceResult) : ResponseProjection :=
  match result.outcome with
  | .subscribed | .unsubscribed => .payload 200
    [(text "result", .string (text "set")), (text "subscribed", nullableBoolean result.subscribed)]
  | .noCustomerNoChange => .payload 200
    [(text "result", .string (text "no_customer_no_change")), (text "subscribed", .boolean false)]
  | .customerIdentityConflict => .error 409 "customer_identity_conflict" []
  | .middleInitialConflict => .error 409 "middle_initial_conflict" []
  | .invalidRequest => .error 422 "validation_failed" (notAccepted
    [.firstName, .middleInitial, .lastName, .email, .confirmationEmail, .subscribed])

end Newsletter

section Context

/-- `_ADDRESS`. -/
def address : Text := text "1234 Culinary Ave, Suite 100, Washington, DC 20002"

/-- `_PHONE`. -/
def phone : Text := text "(202) 555-4567"

def restaurantMembers : Payload := [(text "address", .string address), (text "phone", .string phone)]

/-- `value.isoformat(timespec="seconds")` of a time of day. -/
def isoTime (t : ℤ) : Text :=
  let size := t.toNat
  decimalDigits.padded 2 (size / 3600000000) ++ text ":" ++
    decimalDigits.padded 2 (size / 60000000 % 60) ++ text ":" ++
    decimalDigits.padded 2 (size / 1000000 % 60)

def serializeHours (item : WeekdayHours) : Payload :=
  [(text "iso_weekday", .integer item.isoWeekday),
    (text "opens_at_local", .string (isoTime item.opensAtLocal)),
    (text "closes_at_local", .string (isoTime item.closesAtLocal))]

/-- `serialize_reservation_context`. -/
def serializeReservationContext (result : ReservationContextResult) : ResponseProjection :=
  .payload 200
    [(text "restaurant", .object restaurantMembers),
      (text "restaurant_timezone", .string result.restaurantTimezone),
      (text "weekday_hours",
        .array (result.weekdayHours.map fun item => .object (serializeHours item))),
      (text "reservation_policy", .object
        [(text "start_interval_minutes", .integer result.startIntervalMinutes),
          (text "reservation_duration_minutes", .integer result.reservationDurationMinutes),
          (text "advance_window_days", .integer result.advanceWindowDays),
          (text "same_day_lead_minutes", .integer result.sameDayLeadMinutes)]),
      (text "reservable_date_range", .object
        [(text "minimum_local_date", .string (isoDate result.minimumLocalDate)),
          (text "maximum_local_date", .string (isoDate result.maximumLocalDate))]),
      (text "maximum_party_size", .integer result.maximumPartySize)]

end Context

section Booking

/-- The `mapping` of `_booking_validation`. -/
def bookingError : Detail → Option FieldError
  | .nonexistentLocalStart => some
    ⟨.startsAtLocal, "nonexistent_local_time", "The selected local time does not exist."⟩
  | .ambiguousLocalStart => some
    ⟨.startsAtLocal, "ambiguous_local_time", "The selected local time is ambiguous."⟩
  | .utcOffsetMismatch => some ⟨.utcOffsetMinutes, "utc_offset_mismatch",
    "The UTC offset does not match the selected time."⟩
  | .dateOutsideBookingWindow => some ⟨.startsAtLocal, "date_outside_booking_window",
    "The selected date is outside the booking window."⟩
  | .insufficientSameDayLead => some ⟨.startsAtLocal, "insufficient_same_day_lead",
    "The selected time does not meet the same-day lead time."⟩
  | .startBeforeOpening | .misalignedStart | .endAfterClosing => some
    ⟨.startsAtLocal, "invalid_reservation_time",
      "The selected time is not a valid reservation start."⟩
  | .durationOrPartySizeOutOfRange => some
    ⟨.partySize, "out_of_range", "The party size is outside the current allowed range."⟩
  | _ => none

/-- `_booking_validation`. -/
def bookingValidation (detail : Option Detail) : Option ResponseProjection :=
  if detail = some .invalidNormalizedInput then
    some (.error 422 "validation_failed" (notAccepted
      [.firstName, .middleInitial, .lastName, .email, .confirmationEmail, .phone, .startsAtLocal,
        .utcOffsetMinutes, .partySize, .newsletterAction]))
  else (detail.bind bookingError).map fun error => .error 422 "validation_failed" [error]

variable (strftime : ℤ → Text) (zoneInfo : ZoneInfo)

/-- The `confirmation` of a success. -/
def confirmation (result : ReservationBookingResult) : Option Payload := do
  let reservationId ← result.reservationId
  let startsAt ← result.startsAt
  let endsAt ← result.endsAt
  let partySize ← result.partySize
  let newsletterSubscribed ← result.newsletterSubscribed
  let customerName ← result.customerName
  let restaurantTimezone ← result.restaurantTimezone
  let zone ← zoneInfo restaurantTimezone
  let startsAtLocal ← localTime zone startsAt
  let endsAtLocal ← localTime zone endsAt
  let startsAtText ← instantTime strftime startsAt
  let endsAtText ← instantTime strftime endsAt
  return [(text "reservation_reference", .string (decimalDigits.decimal reservationId)),
    (text "customer_name", .string customerName),
    (text "starts_at_local", .string startsAtLocal),
    (text "ends_at_local", .string endsAtLocal),
    (text "starts_at", .string startsAtText),
    (text "ends_at", .string endsAtText),
    (text "party_size", .integer partySize),
    (text "assigned_table_numbers", .array (result.assignedTableNumbers.map .integer)),
    (text "newsletter_subscribed", .boolean newsletterSubscribed),
    (text "restaurant", .object restaurantMembers)]

def phoneNotice (outcome : BookingOutcome) : Payload :=
  if outcome = .bookedPhoneNotice then
    [(text "phone_notice", .object
      [(text "code", .string (text "stored_phone_preserved")),
        (text "message", .string (text
          "The reservation was created, but the phone number already on file was kept."))])]
  else []

/-- The `payload` of a success. -/
def bookingPayload (result : ReservationBookingResult) : Option Payload :=
  (confirmation strftime zoneInfo result).map fun members =>
    (text "booking_result", .string
      (if result.outcome = .exactRetry then text "exact_retry" else text "created")) ::
    (text "confirmation", .object members) :: phoneNotice result.outcome

/-- `serialize_reservation_booking`. -/
def serializeReservationBooking (result : ReservationBookingResult) : Option ResponseProjection :=
  if ReservationGateway.success result.outcome then
    (bookingPayload strftime zoneInfo result).map
      (.payload (if result.outcome = .exactRetry then 200 else 201))
  else if result.outcome = .customerIdentityConflict then
    some (.error 409 "customer_identity_conflict" [])
  else if result.outcome = .middleInitialConflict then
    some (.error 409 "middle_initial_conflict" [])
  else if result.outcome = .sameCustomerOverlap then some (.error 409 "reservation_overlap" [])
  else if result.outcome = .unavailable ∨
      result.detailCode = some .timeBoundaryCrossedDuringBooking then
    some (.error 409 "reservation_unavailable" [])
  else if result.outcome = .invalidRequest then bookingValidation result.detailCode
  else none

end Booking

end CafeFausse.Backend
