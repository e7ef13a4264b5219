import CafeFausse.Backend.Driver
import CafeFausse.Routines.BookingStages

/-! # The reservation gateway

`ReservationGateway.book`: one transaction that calls the routine, then a second one
that reads the stored name for the confirmation. The flags it keeps tell what is known
about the first when any step of it, its rollback or its commit fails.
-/

namespace CafeFausse.Backend

open Transaction Program Statement

/-- `BookingOutcome`. -/
inductive BookingOutcome where
  | booked
  | bookedPhoneNotice
  | exactRetry
  | sameCustomerOverlap
  | customerIdentityConflict
  | middleInitialConflict
  | unavailable
  | invalidRequest
  | invalidDatabaseConfiguration
  deriving DecidableEq

/-- `ReservationCommand`; its last fields are the checks of `__post_init__`. -/
structure ReservationCommand where
  firstName : Text
  middleInitial : Option Text
  lastName : Text
  email : Text
  phone : Option Text
  localStart : ℤ
  utcOffsetMinutes : ℤ
  partySize : ℤ
  newsletterAction : NewsletterAction
  localStart_ck : localStart % Time.second = 0
  utcOffsetMinutes_ck : -840 ≤ utcOffsetMinutes ∧ utcOffsetMinutes ≤ 840
  partySize_ck : 1 ≤ partySize ∧ partySize ≤ 2147483647
  newsletterAction_ck : newsletterAction ≠ .unrecognized
  deriving DecidableEq

/-- The parameters of the statement that calls the routine. -/
def ReservationCommand.arguments (command : ReservationCommand) : BookingArguments where
  firstName := some command.firstName
  middleInitial := command.middleInitial
  lastName := some command.lastName
  email := some command.email
  phone := command.phone
  localStart := some (.finite command.localStart)
  utcOffsetMinutes := some command.utcOffsetMinutes
  partySize := some command.partySize
  newsletterAction := some command.newsletterAction

/-- `ReservationBookingResult`. -/
structure ReservationBookingResult where
  outcome : BookingOutcome
  detailCode : Option Detail := none
  reservationId : Option ℕ := none
  startsAt : Option ℤ := none
  endsAt : Option ℤ := none
  partySize : Option ℤ := none
  assignedTableNumbers : List ℤ := []
  newsletterSubscribed : Option Bool := none
  phoneNotice : Bool := false
  customerName : Option Text := none
  restaurantTimezone : Option Text := none
  attempts : ℕ := 1
  cleanupFailed : Bool := false
  deriving DecidableEq

namespace ReservationGateway

/-- `_OUTCOME_MAP`. -/
def outcomeMap : Outcome → BookingOutcome
  | .booked => .booked
  | .bookedPhoneNotice => .bookedPhoneNotice
  | .exactRetry => .exactRetry
  | .sameCustomerOverlap => .sameCustomerOverlap
  | .customerIdentityMismatch => .customerIdentityConflict
  | .middleInitialConflict => .middleInitialConflict
  | .unavailable => .unavailable
  | .invalidRequest => .invalidRequest
  | .invalidDatabaseConfiguration => .invalidDatabaseConfiguration

/-- The outcomes that report a reservation. -/
def success (outcome : BookingOutcome) : Bool :=
  outcome = .booked ∨ outcome = .bookedPhoneNotice ∨ outcome = .exactRetry

section Decode

-- the time zone of the session: both instants are compared by its clock
variable (session : Zone)

/-- An instant at second precision. -/
def secondPrecision (instant : Option ℤ) : Bool :=
  instant.any fun t => session.toLocal t % Time.second = 0

/-- What `_decode` requires of the row of a reservation. -/
def validReservation (row : BookingRow) : Bool :=
  row.detailCode.isNone && row.reservationId.any (0 < ·) &&
    secondPrecision session row.startsAt && secondPrecision session row.endsAt &&
    (row.startsAt.any fun s => row.endsAt.any fun e => session.toLocal s < session.toLocal e) &&
    row.partySize.any (0 < ·) &&
    (row.assignedTableNumbers.any fun tables => !tables.isEmpty &&
      tables.all (fun n => 1 ≤ n ∧ n ≤ 32767) && decide (tables.Pairwise (· < ·))) &&
    row.newsletterSubscribed.isSome &&
    row.phoneNotice == (outcomeMap row.outcome = .bookedPhoneNotice : Bool) &&
    row.fingerprintVersion == some 1 &&
    (row.reservationFingerprint.any fun fingerprint => fingerprint.length = 32)

/-- What `_decode` requires of the row of a refusal. -/
def validRefusal (row : BookingRow) : Bool :=
  let outcome := outcomeMap row.outcome
  !(decide (outcome = .invalidRequest ∨ outcome = .invalidDatabaseConfiguration ∨
      outcome = .unavailable) && row.detailCode.isNone) &&
    !(decide (outcome = .customerIdentityConflict ∨ outcome = .middleInitialConflict ∨
      outcome = .sameCustomerOverlap) && row.detailCode.isSome) && !row.phoneNotice

/-- What `_decode` requires of a row. -/
def validRow (row : BookingRow) : Bool :=
  if success (outcomeMap row.outcome) then validReservation session row else validRefusal row

/-- `_decode`, for the columns of the routine. -/
def decode (row : BookingRow) : Except Fault ReservationBookingResult :=
  if validRow session row then
    .ok {
      outcome := outcomeMap row.outcome
      detailCode := row.detailCode
      reservationId := row.reservationId
      startsAt := row.startsAt
      endsAt := row.endsAt
      partySize := row.partySize
      assignedTableNumbers := row.assignedTableNumbers.getD []
      newsletterSubscribed := row.newsletterSubscribed
      phoneNotice := row.phoneNotice }
  else .error Attempt.contractError

end Decode

/-- `_stored_name`. -/
def storedName (first : Text) (middle : Option Text) (last : Text) : Except Fault Text :=
  if first.isEmpty ∨ (middle.any fun m => m.length ≠ 1) ∨ last.isEmpty then
    .error { errorClass := .other }
  else .ok (first ++ (middle.map fun m => text " " ++ m ++ text ".").getD [] ++ text " " ++ last)

/-- `_confirmation_facts`; `zoneInfo` tells whether Python knows the zone. -/
def confirmationFacts (zoneInfo : Text → Bool) :
    List (Text × Option Text × Text × Text) → Except Fault (Text × Text)
  | [(first, middle, last, timezone)] => do
    let name ← storedName first middle last
    if timezone.isEmpty ∨ ¬ zoneInfo timezone then .error { errorClass := .other }
    else return (name, timezone)
  | _ => .error { errorClass := .other }

/-- The classes of errors that `_failure` finds safe to retry before the dispatch. -/
def retryable : List ErrorClass := [.interfaceError, .operationalError, .poolTimeout, .timeoutError]

section Book

variable (env : Environment) (zoneInfo : Text → Bool) (command : ReservationCommand) (a : Attempt)

/-- The routine called in the state the attempt meets. -/
def reply : Exit SqlError Answer Empty × Database :=
  (bookReservation env command.arguments a.readings).transact a.memory

/-- The rows of the call. -/
def rows : Except Fault BookingRow :=
  match (reply env command a).1 with
  | .returned (.booking row) => .ok row
  | .raised e => .error (a.sqlFault e)
  | _ => .error Attempt.contractError

/-- The statements inside `with connection:`. -/
def transactionBody (deadline : ℚ) : Statement (Locals ReservationBookingResult) Fault Unit := do
  a.requireMillisecond deadline
  a.withCursor do
    a.step .begin
    modify fun s => { s with transactionStarted := true }
    a.step .setConfig
    modify fun s => { s with dispatched := true }
    a.step .call
    let row ← ofExcept (rows env command a)
    a.step .fetch
    let result ← ofExcept (decode a.session row)
    modify fun s => { s with result := some result }
  modify fun s => { s with bodyCompleted := true }

/-- The transaction that reads the stored name and the time zone. -/
def readConfirmation (deadline : ℚ) : Statement (Locals ReservationBookingResult) Fault Unit := do
  a.requireMillisecond deadline
  a.step (.confirmation 0)
  a.withCursor do
    a.step (.confirmation 1)
    a.step (.confirmation 2)
    a.step (.confirmation 3)
    let (name, timezone) ← ofExcept (confirmationFacts zoneInfo a.confirmation)
    modify fun s => { s with result := s.result.map fun r =>
      { r with customerName := some name, restaurantTimezone := some timezone } }
  a.step (.confirmation 4)

/-- What follows a committed transaction. -/
def confirm (deadline : ℚ) : Statement (Locals ReservationBookingResult) Fault Unit := do
  let s ← get
  match s.pendingError, s.result with
  | some _, _ => return
  | none, none => throw { errorClass := .other }
  | none, some result =>
    if success result.outcome then
      (readConfirmation zoneInfo a deadline).except fun error =>
        modify fun s => { s with
          primaryError := some error
          cleanupFailed := a.closeUnsafe
          unsafeDisposalFailed := a.closeUnsafe
          pendingError := some (.confirmation a.closeUnsafe) }
    else return

/-- The connection goes back to the pool, unless closing it has failed. -/
def release : Statement (Locals ReservationBookingResult) Fault Unit := do
  let s ← get
  if s.unsafeDisposalFailed then return
  else a.putBack fun r => { r with cleanupFailed := true }

/-- What `book` does with an acquired connection. -/
def useConnection (deadline : ℚ) : Statement (Locals ReservationBookingResult) Fault Unit :=
  Statement.always
    (do
      match ← (a.withConnection (Attempt.recording
        (transactionBody env command a deadline))).outcome with
      | .ok () => modify fun s => { s with transactionStarted := false, committed := true }
      | .error contextError => a.classify retryable contextError
      confirm zoneInfo a deadline)
    (release a)

/-- `ReservationGateway.book`. -/
def book (acquireTimeoutSeconds : ℚ) (timeoutSeconds : Option ℚ) :
    Statement (Locals ReservationBookingResult) GatewayError ReservationBookingResult :=
  a.gateway retryable (fun s => !s.transactionStarted && !s.committed)
    (useConnection env zoneInfo command a) acquireTimeoutSeconds timeoutSeconds

end Book

section Spec

variable {env : Environment} {zoneInfo : Text → Bool} {command : ReservationCommand} {a : Attempt}
  {deadline : ℚ} {s : Locals ReservationBookingResult}

/-- The fields that stand for columns of the row. -/
def columns (r : ReservationBookingResult) : ReservationBookingResult :=
  { r with customerName := none, restaurantTimezone := none, attempts := 1, cleanupFailed := false }

/-- The result is decoded from the row of the routine. -/
def Decoded (env : Environment) (command : ReservationCommand) (a : Attempt)
    (r : ReservationBookingResult) : Prop :=
  ∃ row db, reply env command a = (.returned (.booking row), db) ∧
    decode a.session row = .ok (columns r)

/-- The result reports the row of the routine. -/
def Reports (env : Environment) (command : ReservationCommand) (a : Attempt)
    (r : ReservationBookingResult) : Prop :=
  ∃ row db, reply env command a = (.returned (.booking row), db) ∧
    r.outcome = outcomeMap row.outcome

theorem decode_columns {session : Zone} {row : BookingRow} {r : ReservationBookingResult}
    (h : decode session row = .ok r) : validRow session row = true ∧ columns r = r ∧
      r.outcome = outcomeMap row.outcome := by
  unfold decode at h
  split at h
  · next hvalid =>
    cases h
    exact ⟨hvalid, rfl, rfl⟩
  · cases h

theorem Decoded.reports {r : ReservationBookingResult} (h : Decoded env command a r) :
    Reports env command a r := by
  obtain ⟨row, db, hreply, hdecode⟩ := h
  exact ⟨row, db, hreply, (decode_columns hdecode).2.2⟩

theorem decoded_of_decode {row : BookingRow} {r : ReservationBookingResult}
    (hrow : rows env command a = .ok row) (hr : decode a.session row = .ok r) :
    Decoded env command a r := by
  have hcolumns : decode a.session row = .ok (columns r) := by rw [(decode_columns hr).2.1, hr]
  unfold rows at hrow
  split at hrow
  · next row' hreply =>
    cases hrow
    exact ⟨row, (reply env command a).2, Prod.ext hreply rfl, hcolumns⟩
  · cases hrow
  · cases hrow

theorem wp_transactionBody (hs : s.Open) :
    (transactionBody env command a deadline).wp (fun _ s' => s'.Ran (Decoded env command a))
      (fun _ s' => s'.Open) s := by
  obtain ⟨hun, hbody, hpending⟩ := hs
  obtain ⟨hsent, htook⟩ := hun
  unfold transactionBody
  refine wp_bind.mpr (wp_requireMillisecond ?_ fun _ => ⟨⟨hsent, htook⟩, hbody, hpending⟩)
  refine wp_bind.mpr (wp_withCursor ?_ fun _ => ⟨⟨hsent, htook⟩, hbody, hpending⟩)
  refine wp_bind.mpr (wp_step ?_ fun _ _ => ⟨⟨hsent, htook⟩, hbody, hpending⟩)
  refine wp_bind.mpr (wp_modify.mpr ?_)
  refine wp_bind.mpr (wp_step ?_ fun _ _ => ⟨⟨hsent, htook⟩, hbody, hpending⟩)
  refine wp_bind.mpr (wp_modify.mpr ?_)
  refine wp_bind.mpr (wp_step ?_ fun _ _ => ⟨⟨hsent, htook⟩, hbody, hpending⟩)
  refine wp_bind.mpr (wp_ofExcept.mpr ?_)
  split
  swap
  · exact fun _ => ⟨⟨hsent, htook⟩, hbody, hpending⟩
  next row hrow =>
  refine wp_bind.mpr (wp_step ?_ fun _ _ => ⟨⟨hsent, htook⟩, hbody, hpending⟩)
  refine wp_bind.mpr (wp_ofExcept.mpr ?_)
  split
  swap
  · exact fun _ => ⟨⟨hsent, htook⟩, hbody, hpending⟩
  next r hr =>
  constructor
  · exact ⟨⟨hsent, htook⟩, rfl, rfl, hpending, r, rfl, decoded_of_decode hrow hr⟩
  · exact fun _ => ⟨⟨hsent, htook⟩, hbody, hpending⟩

theorem Decoded.withConfirmation {r : ReservationBookingResult} (h : Decoded env command a r)
    (name timezone : Option Text) :
    Decoded env command a { r with customerName := name, restaurantTimezone := timezone } := h

theorem wp_readConfirmation (hs : s.Committed (Decoded env command a)) :
    (readConfirmation zoneInfo a deadline).wp (fun _ s' => s'.Committed (Decoded env command a))
      (fun _ s' => s'.commitTook = true) s := by
  obtain ⟨htook, hpending, r, hr, hdecoded⟩ := hs
  unfold readConfirmation
  refine wp_bind.mpr (wp_requireMillisecond ?_ fun _ => htook)
  refine wp_bind.mpr (wp_step ?_ fun _ => htook)
  refine wp_bind.mpr (wp_withCursor ?_ fun _ => htook)
  refine wp_bind.mpr (wp_step ?_ fun _ _ => htook)
  refine wp_bind.mpr (wp_step ?_ fun _ _ => htook)
  refine wp_bind.mpr (wp_step ?_ fun _ _ => htook)
  refine wp_bind.mpr (wp_ofExcept.mpr ?_)
  split
  swap
  · exact fun _ => htook
  next facts hfacts =>
  constructor
  · refine wp_step ⟨htook, hpending, _, ?_, hdecoded.withConfirmation (some facts.1) (some facts.2)⟩
      fun _ => htook
    simp only [hr, Option.map_some]
  · exact fun _ => htook

theorem wp_confirm (hs : s.Concluded True (Decoded env command a)) :
    (confirm zoneInfo a deadline).wp (fun _ s' => s'.Concluded True (Decoded env command a))
      (fun _ _ => False) s := by
  unfold confirm
  refine wp_bind.mpr (wp_get.mpr ?_)
  rcases hs with hs | ⟨e, hpending, he⟩
  · obtain ⟨htook, hpending, r, hr, hdecoded⟩ := id hs
    simp only [hpending, hr]
    split
    · refine wp_except.mpr (wp_mono (wp_readConfirmation hs) (fun _ s' hs' => .inl hs') ?_)
      exact fun error s' htook' => .inr ⟨_, rfl, trivial, htook'⟩
    · exact .inl hs
  · simp only [hpending]
    exact .inr ⟨e, hpending, he⟩

theorem wp_release (hs : s.Concluded True (Decoded env command a)) :
    (release a).wp (fun _ s' => s'.Concluded True (Decoded env command a)) (fun _ _ => False) s := by
  unfold release
  refine wp_bind.mpr (wp_get.mpr ?_)
  split
  · exact hs
  · exact wp_putBack (fun _ h => h) hs

theorem wp_useConnection (hs : s.Open) :
    (useConnection env zoneInfo command a deadline).wp
      (fun _ s' => s'.Concluded True (Decoded env command a)) (fun _ _ => False) s := by
  unfold useConnection
  refine wp_always.mpr (wp_mono (Q := fun _ s' => s'.Concluded True (Decoded env command a))
    (E := fun _ _ => False) ?_ (fun _ s' hs' => wp_release hs') fun _ _ h => h.elim)
  refine wp_bind.mpr (wp_outcome.mpr (wp_mono
    (wp_withConnection (wp_recording (wp_transactionBody hs))) (fun _ s' hs' => ?_) ?_))
  · exact wp_bind.mpr (wp_modify.mpr
      (wp_confirm (.inl ⟨hs'.commitTook, hs'.pendingError, hs'.result⟩)))
  · exact fun error s' hs' => wp_bind.mpr (wp_mono (wp_classify hs')
      (fun _ s' hs' => wp_confirm hs') fun _ _ h => h)

/-- A booking that returns has committed and is decoded from the row of the routine; one that
raises tells the truth about its COMMIT. -/
theorem wp_book {acquireTimeoutSeconds : ℚ} {timeoutSeconds : Option ℚ} :
    (book env zoneInfo command a acquireTimeoutSeconds timeoutSeconds).wp
      (fun r s' => s'.commitTook = true ∧ Decoded env command a r) (fun e s' => e.Truthful True s')
      {} :=
  wp_gateway (fun _ _ hs => wp_useConnection hs) ⟨⟨rfl, rfl⟩, rfl, rfl⟩

end Spec

end ReservationGateway

end CafeFausse.Backend
