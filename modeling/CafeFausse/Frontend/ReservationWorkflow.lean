import CafeFausse.Frontend.NewsletterLookup
import CafeFausse.Interaction.Exchanges
import CafeFausse.Interaction.Machine

/-! # The reservation form

`ReservationWorkflow`: the choice of a date and a party, the times that are offered for it,
the customer with the lookup, and the reservation that is sent. The visitor's actions and
the answers of the server arrive one by one in any order; after each of them the form
renders and its effects run.
-/

namespace CafeFausse.Frontend.ReservationWorkflow

open Interaction

/-- What the form reads of the reservation context. -/
structure ReservationContext where
  minimumLocalDate : Text
  maximumLocalDate : Text
  maximumPartySize : ℕ

structure Slot where
  startsAtLocal : Text
  utcOffsetMinutes : ℤ
  available : Bool
  deriving DecidableEq

/-- A request for times: the key it is filed under and the query that is sent. `Number(value)`
is nothing where it is not finite. -/
structure AvailabilityRequest where
  key : Text
  localDate : Text
  partySize : Option ℚ
  deriving DecidableEq

inductive AvailabilityAnswer where
  | slots (slots : List Slot)
  | failed (error : Option PublicError)
  deriving DecidableEq

inductive Availability where
  | idle
  | loading
  | ready (slots : List Slot)
  | error (code : String) (retryable : Bool)
  deriving DecidableEq

/-- What an answer puts on display. -/
def AvailabilityAnswer.availability : AvailabilityAnswer → Availability
  | .slots offered => .ready offered
  | .failed none => .error "transport_failure" true
  | .failed (some error) => .error error.code error.retryable

structure Customer where
  identity : Identity
  phone : Text
  deriving DecidableEq

/-- `EMPTY_CUSTOMER`. -/
def Customer.empty : Customer := ⟨.empty, []⟩

/-- `{ ...customer, [field]: value }`. -/
def Customer.update (customer : Customer) (value : Text) : Field → Customer
  | .identity field => { customer with identity := customer.identity.update value field }
  | .phone => { customer with phone := value }

inductive NewsletterAction where
  | noChange
  | subscribe
  | unsubscribe
  deriving DecidableEq

/-- The frozen body of a reservation. -/
structure ReservationBody where
  identity : IdentityBody
  phone : Option Text
  startsAtLocal : Text
  utcOffsetMinutes : ℤ
  partySize : Option ℚ
  newsletterAction : NewsletterAction
  deriving DecidableEq

/-- A reservation that can be sent again. -/
structure Recovery where
  body : ReservationBody
  unknown : Bool
  confirmationUnavailable : Bool
  deriving DecidableEq

/-- A field of a failed validation, by the names of the server. -/
structure FieldError where
  field : String
  code : String
  deriving DecidableEq

/-- The public error of a failed reservation. -/
structure ReservationError where
  error : PublicError
  fields : List FieldError
  deriving DecidableEq

/-- The state of the form. `pending` is the body that is on its way, `feedback` the title of
what is shown. The counter of the exchanges is `availabilitySequence`; their log and `sent`
hold what has gone to the server. -/
structure Workflow where
  localDate : Text
  partySize : Text
  availability : Availability
  selectedStart : Text
  customer : Customer
  newsletterChecked : Bool
  newsletterChoiceVersion : ℕ
  lookupRetryVersion : ℕ
  pending : Option ReservationBody
  feedback : Option String
  recovery : Option Recovery
  confirmed : Bool
  exchanges : Exchanges AvailabilityRequest AvailabilityAnswer
  sent : List ReservationBody
  hook : LookupHook

inductive Event where
  | changeDate (value : Text)
  | changeParty (value : Text)
  | checkAvailability
  | retryAvailability
  | refreshTimes
  | selectSlot (slot : Slot)
  | updateCustomer (field : Field) (value : Text)
  | toggleNewsletter
  | retryLookup
  | timer
  | lookupAnswered (requestSequence : ℕ) (result : LookupResult)
  | lookupFailed (requestSequence : ℕ) (error : Option PublicError)
  | availabilityAnswered (request : ℕ) (answer : AvailabilityAnswer)
  | submit
  | reservationSucceeded
  | reservationFailed (error : Option ReservationError)
  | retryReservation
  | abandon
  | newReservation
  deriving DecidableEq

inductive ChoiceField where
  | localDate
  | partySize
  deriving DecidableEq

/-- The code units that strings are compared by. -/
def utf16 (t : Text) : List ℕ :=
  t.flatMap fun c =>
    if 0x10000 ≤ c.val then [0xd800 + (c.val - 0x10000) / 0x400, 0xdc00 + c.val % 0x400]
    else [c.val]

section Render

variable (b : Browser) (context : ReservationContext)

def dateError (date : Text) : Option String :=
  if date = [] then some "Choose a reservation date."
  else if utf16 date < utf16 context.minimumLocalDate ∨ utf16 context.maximumLocalDate < utf16 date
    then some "Choose a date inside the current reservable range."
  else none

def partyError (party : Text) : Option String :=
  let message := "Enter a whole number from 1 to " ++ toString context.maximumPartySize ++ "."
  if party = [] then some "Enter a party size."
  else match b.number party with
  | none => some message
  | some n => if n.den ≠ 1 ∨ n < 1 ∨ context.maximumPartySize < n then some message else none

/-- The errors by field. -/
def validateChoices (date party : Text) : List (ChoiceField × String) :=
  [(ChoiceField.localDate, dateError context date),
    (.partySize, partyError b context party)].filterMap fun (field, error) => error.map (field, ·)

namespace Workflow

variable (s : Workflow)

def key : Text :=
  if s.localDate ≠ [] ∧ s.partySize ≠ [] then s.localDate ++ text "|" ++ s.partySize else []

/-- The request for what is entered. -/
def request : AvailabilityRequest := ⟨s.key, s.localDate, b.number s.partySize⟩

def selectedSlot : Option Slot :=
  match s.availability with
  | .ready slots => slots.find? fun slot => slot.startsAtLocal = s.selectedStart && slot.available
  | _ => none

/-- No field can be edited while a reservation is pending or can be sent again. -/
def Locked : Prop := s.pending.isSome ∨ s.recovery.isSome

instance : Decidable s.Locked := instDecidableOr

/-- The form is shown and its fields are enabled. -/
def Editable : Prop := ¬ s.confirmed ∧ ¬ s.Locked

instance : Decidable s.Editable := instDecidableAnd

def newsletterAction : NewsletterAction :=
  if ¬ s.hook.lookup.settled ∨ s.newsletterChoiceVersion = 0 then .noChange
  else if s.newsletterChecked then .subscribe else .unsubscribe

/-- Why the button is disabled, if it is. -/
def eligibilityReason : Option String :=
  if ¬ (validateChoices b context s.localDate s.partySize).isEmpty then
    some "Choose a valid date and party size."
  else if s.selectedSlot = none then some "Choose an available time."
  else if ¬ (validateIdentity b s.customer.identity (some s.customer.phone)).isEmpty then
    some "Complete the required customer details."
  else if s.hook.lookup.isConflict then some "Correct the identity conflict."
  else none

def reservationBody (slot : Slot) : ReservationBody where
  identity := identityBody b s.customer.identity
  phone := if b.trim s.customer.phone = [] then none else some (b.trim s.customer.phone)
  startsAtLocal := slot.startsAtLocal
  utcOffsetMinutes := slot.utcOffsetMinutes
  partySize := b.number s.partySize
  newsletterAction := s.newsletterAction

end Workflow

end Render

/-- The error says that the submitted schedule no longer holds. -/
def FieldError.invalidatesSchedule (e : FieldError) : Bool :=
  e.field = "starts_at_local" ∧ e.code ∈ ["nonexistent_local_time", "ambiguous_local_time",
      "utc_offset_mismatch", "date_outside_booking_window", "insufficient_same_day_lead",
      "invalid_reservation_time"] ∨
    e.field = "utc_offset_minutes" ∧ e.code = "utc_offset_mismatch" ∨
    e.field = "local_date" ∧ e.code ∈ ["out_of_range", "invalid_date"] ∨
    e.field = "party_size" ∧ e.code ∈ ["out_of_range", "invalid_integer"]

section Handlers

variable (b : Browser) (context : ReservationContext)

namespace Workflow

/-- The effect of the lookup runs if the identity or the retry counter has changed. -/
def render (old new : Workflow) : Workflow :=
  if new.customer.identity ≠ old.customer.identity ∨
      new.lookupRetryVersion ≠ old.lookupRetryVersion then
    { new with hook := new.hook.effect b new.customer.identity new.newsletterChoiceVersion }
  else new

/-- The mounted form, after its first effect. -/
def initial : Workflow where
  localDate := []
  partySize := []
  availability := .idle
  selectedStart := []
  customer := .empty
  newsletterChecked := false
  newsletterChoiceVersion := 0
  lookupRetryVersion := 0
  pending := none
  feedback := none
  recovery := none
  confirmed := false
  exchanges := .empty
  sent := []
  hook := LookupHook.initial.effect b .empty 0

def invalidateAvailability (s : Workflow) : Workflow :=
  { s with exchanges := s.exchanges.skip, availability := .idle, selectedStart := [] }

/-- `checkAvailability`, up to the answer. -/
def checkAvailability (s : Workflow) : Workflow :=
  if ¬ (validateChoices b context s.localDate s.partySize).isEmpty ∨ s.availability = .loading then s
  else { s with
    selectedStart := []
    exchanges := s.exchanges.send (s.request b)
    availability := .loading }

/-- An answer counts if its request is the last one and asks for what is entered. -/
def availabilityAnswered (s : Workflow) (x : Exchange AvailabilityRequest AvailabilityAnswer)
    (answer : AvailabilityAnswer) : Workflow :=
  if x.number ≠ s.exchanges.counter ∨ x.query.key ≠ s.key then s
  else { s with availability := answer.availability }

/-- `sendReservation`, up to the answer. -/
def sendReservation (s : Workflow) (body : ReservationBody) : Workflow :=
  if s.pending.isSome then s
  else { s with pending := some body, feedback := none, sent := s.sent ++ [body] }

/-- The schedule is given up if a field error says so. -/
def mapServerFields (s : Workflow) (fields : List FieldError) : Workflow :=
  if fields.any FieldError.invalidatesSchedule then s.invalidateAvailability else s

/-- The handler of a confirmed reservation. -/
def reservationSucceeded (s : Workflow) : Workflow :=
  s.render b { s with
    pending := none
    recovery := none
    confirmed := true
    customer := .empty
    localDate := []
    partySize := []
    availability := .idle
    selectedStart := []
    newsletterChecked := false
    newsletterChoiceVersion := 0 }

/-- The handler of a failed reservation. -/
def reservationFailed (s : Workflow) (body : ReservationBody) (error : Option ReservationError) :
    Workflow :=
  let s := { s with pending := none, recovery := none }
  let unresolved (unknown confirmationUnavailable retryable : Bool) : Workflow := { s with
    recovery := if unknown || confirmationUnavailable || retryable then
      some ⟨body, unknown, confirmationUnavailable⟩ else none
    feedback := some
      (if unknown then "Reservation result not confirmed"
      else if confirmationUnavailable then "Reservation exists; confirmation unavailable"
      else "Reservation could not be processed") }
  match error with
  | none => unresolved true false false
  | some ⟨error, fields⟩ =>
    if error.code = "validation_failed" then
      { s.mapServerFields fields with feedback := some "Please correct the reservation details" }
    else if error.code = "customer_identity_conflict" then
      { s with feedback := some "Identity details do not match" }
    else if error.code = "middle_initial_conflict" then
      { s with feedback := some "Middle initial needs attention" }
    else if error.code = "reservation_overlap" then
      { s with selectedStart := [], feedback := some "Choose another time" }
    else if error.code = "reservation_unavailable" then
      { s with
        selectedStart := []
        availability := .idle
        feedback := some "Reservation time unavailable" }
    else unresolved error.outcomeUnknown
      (error.code = "reservation_confirmation_unavailable") error.retryable

/-- The handler of the form, which checks again what the button has checked. -/
def submit (s : Workflow) : Workflow :=
  if ¬ (validateIdentity b s.customer.identity (some s.customer.phone)).isEmpty ∨
      ¬ (validateChoices b context s.localDate s.partySize).isEmpty then s
  else match s.selectedSlot with
  | none => s
  | some slot => s.sendReservation (s.reservationBody b slot)

end Workflow

/-- The state after one event, if the form offers it: fields and buttons can be disabled or
not shown, and an answer needs a request. -/
def step (s : Workflow) : Event → Option Workflow
  | .changeDate value =>
    if s.Editable then some { s.invalidateAvailability with localDate := value } else none
  | .changeParty value =>
    if s.Editable then some { s.invalidateAvailability with partySize := value } else none
  | .checkAvailability =>
    if s.Editable ∧ s.availability ≠ .loading ∧
        (validateChoices b context s.localDate s.partySize).isEmpty then
      some (s.checkAvailability b context)
    else none
  | .retryAvailability =>
    match s.availability with
    | .error _ true => if s.Editable then some (s.checkAvailability b context) else none
    | _ => none
  | .refreshTimes =>
    if ¬ s.confirmed ∧ s.feedback = some "Reservation time unavailable" then
      some (s.checkAvailability b context)
    else none
  | .selectSlot slot =>
    match s.availability with
    | .ready slots =>
      if s.Editable ∧ slot ∈ slots ∧ slot.available then
        some { s with selectedStart := slot.startsAtLocal }
      else none
    | _ => none
  | .updateCustomer field value =>
    if s.Editable then
      some (s.render b { s with customer := s.customer.update value field, feedback := none })
    else none
  | .toggleNewsletter =>
    if s.Editable then
      some { s with
        newsletterChecked := !s.newsletterChecked
        newsletterChoiceVersion := s.newsletterChoiceVersion + 1 }
    else none
  | .retryLookup =>
    if s.Editable ∧ s.hook.lookup.retryable then
      some (s.render b { s with lookupRetryVersion := s.lookupRetryVersion + 1 })
    else none
  | .timer => s.hook.fire.map fun hook => { s with hook }
  | .lookupAnswered requestSequence result =>
    (s.hook.take requestSequence).map fun (lookup, hook) => { s with
      newsletterChecked := hook.checkbox b s.customer.identity s.newsletterChoiceVersion lookup
        result s.newsletterChecked
      hook := hook.answer b s.customer.identity lookup result }
  | .lookupFailed requestSequence error =>
    (s.hook.take requestSequence).map fun (lookup, hook) => { s with
      hook := hook.fail b s.customer.identity lookup error }
  | .availabilityAnswered request answer =>
    (s.exchanges.settle request answer).map fun (x, exchanges) =>
      { s with exchanges }.availabilityAnswered x answer
  | .submit =>
    if ¬ s.confirmed ∧ s.eligibilityReason b context = none ∧ ¬ s.Locked then
      some (s.submit b context)
    else none
  | .reservationSucceeded => s.pending.map fun _ => s.reservationSucceeded b
  | .reservationFailed error => s.pending.map fun body => s.reservationFailed body error
  | .retryReservation =>
    if ¬ s.confirmed ∧ s.feedback.isSome ∧ s.pending = none then
      s.recovery.map fun recovery => s.sendReservation recovery.body
    else none
  | .abandon =>
    if ¬ s.confirmed ∧ s.feedback.isSome ∧ s.recovery.isSome then
      some { s with recovery := none, feedback := none }
    else none
  | .newReservation => if s.confirmed then some { s with confirmed := false } else none

/-- The form as a component. -/
def form : Machine Workflow Event := ⟨.initial b, step b context⟩

end Handlers

/-- The visitor changes a field of the form. -/
def Event.IsEdit : Event → Prop
  | .changeDate _ | .changeParty _ | .selectSlot _ | .updateCustomer _ _ | .toggleNewsletter => True
  | _ => False

/-- The body carries a time that was marked available in the answer to the last request for
times, which asked for what is entered. -/
def CurrentOffer (b : Browser) (s : Workflow) (body : ReservationBody) : Prop :=
  ∃ x slots, s.exchanges.latest = some x ∧ x.answer = some (.slots slots) ∧
    x.query.localDate = s.localDate ∧ x.query.partySize = b.number s.partySize ∧
    body.partySize = x.query.partySize ∧
    ∃ slot ∈ slots, slot.available ∧ body.startsAtLocal = slot.startsAtLocal ∧
      body.utcOffsetMinutes = slot.utcOffsetMinutes

end CafeFausse.Frontend.ReservationWorkflow
