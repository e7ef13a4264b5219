import CafeFausse.Backend.AnswersDecoded
import CafeFausse.Backend.CallRecords
import CafeFausse.Frontend.Responses

/-! # What the client is told of a mutation

A booking or a preference ends in a response, behind which several transactions may have failed or
committed. What the client can read off the response is so.
-/

namespace CafeFausse.Frontend

open Python Backend.ReservationGateway

open Backend (AttemptRecord Services Service ServiceError Failure ResponseProjection ReservationCommand
  NewsletterPreferenceCommand BookingOutcome)

/-- `error.response.error[name]`. -/
def publicError (response : Payload) (name : String) : Option Json :=
  match response.get (text "error") with
  | some (.object error) => Payload.get error (text name)
  | _ => none

/-- `error.response.error.code === code`. -/
def HasCode (response : Payload) (code : String) : Prop :=
  publicError response "code" = some (.string (text code))

/-- What the client may conclude from what it has received, with the log of the call; `committed`
are the codes of errors that stand for a commit, and `stored` relates a body to the attempt it comes
from. -/
structure Told (committed : List String) (log : List AttemptRecord)
    (stored : AttemptRecord → Payload → Prop) (received : Received) : Prop where
  understood : received ≠ .protocolResponseError
  /-- No attempt follows one that has committed or may have. -/
  earlier : ∀ x ∈ log.dropLast, x.Uncommitted
  body : ∀ members, received = .body members →
    ∃ x ∈ log.getLast?, x.commitTook = true ∧ stored x members
  exists_reservation : ∀ status response, received = .publicApiError status response →
    HasCode response "reservation_confirmation_unavailable" →
      ∃ x ∈ log.getLast?, x.commitTook = true
  /-- An error of a known outcome leaves everything as it was, unless it is unexpected. -/
  unchanged : ∀ status response, received = .publicApiError status response →
    publicError response "outcome_unknown" = some (.boolean false) →
    (∀ code ∈ committed, ¬ HasCode response code) →
    ¬ HasCode response "internal_error" → ∀ x ∈ log, x.after = x.before

section Told

variable {committed : List String} {log : List AttemptRecord}
  {stored : AttemptRecord → Payload → Prop} {received : Received} {code code' : String}
  {entry : Backend.ErrorEntry} {fields : List Backend.FieldError}

theorem text_injective : Function.Injective text := by
  intro s t h
  unfold text at h
  apply String.toList_injective
  apply List.map_injective_iff.mpr _ h
  intro c d hcd
  have hnat : c.toNat = d.toNat := congrArg (fun code : Codepoint => code.val) hcd
  exact Char.toNat_inj.mp hnat

theorem hasCode_errorPayload :
    HasCode (Backend.errorPayload code entry fields) code' ↔ code = code' := by
  have hpublic : publicError (Backend.errorPayload code entry fields) "code" =
      some (.string (text code)) := rfl
  unfold HasCode
  rw [hpublic, Option.some.injEq, Json.string.injEq, text_injective.eq_iff]

theorem outcomeUnknown_errorPayload :
    publicError (Backend.errorPayload code entry fields) "outcome_unknown" =
      some (.boolean entry.outcomeUnknown) := rfl

/-- Nothing can have come of any attempt before a failure of known outcome. -/
theorem told_of_failure {f : Failure} (hconveys : Conveys (.error f) received)
    (hearlier : ∀ x ∈ log.dropLast, x.Uncommitted)
    (hexists : f.code = "reservation_confirmation_unavailable" →
      ∃ x ∈ log.getLast?, x.commitTook = true)
    (hunchanged : f.outcomeUnknown = false → f.code ∉ committed →
      f.code ≠ "internal_error" → ∀ x ∈ log, x.after = x.before) :
    Told committed log stored received := by
  cases hconveys with
  | failure _ entry hentry hretryable hunknown hcode =>
    constructor
    · nofun
    · exact hearlier
    · rintro _ ⟨⟩
    · rintro _ _ ⟨⟩ h
      exact hexists (hasCode_errorPayload.mp h)
    · rintro _ _ ⟨⟩ hflag hcommitted hinternal
      apply hunchanged
      · rw [Failure.payload, outcomeUnknown_errorPayload, Option.some.injEq,
          Json.boolean.injEq] at hflag
        exact hunknown.symm.trans hflag
      · exact fun h => hcommitted f.code h (hasCode_errorPayload.mpr rfl)
      · exact fun h => hinternal (hasCode_errorPayload.mpr h)

/-- A result comes from the last attempt, and an error of the serializer leaves no trace. -/
theorem told_of_ok {p : ResponseProjection} (hconveys : Conveys (.ok p) received)
    (hearlier : ∀ x ∈ log.dropLast, x.Uncommitted)
    (hbody : ∀ status members, p = .payload status members →
      ∃ x ∈ log.getLast?, x.commitTook = true ∧ stored x members)
    (hcode : ∀ status code fields, p = .error status code fields →
      code ≠ "reservation_confirmation_unavailable")
    (hunchanged : ∀ status code fields, p = .error status code fields →
      ∀ x ∈ log, x.after = x.before) : Told committed log stored received := by
  cases hconveys with
  | body status members _ =>
    constructor
    · nofun
    · exact hearlier
    · rintro _ ⟨⟩
      exact hbody status members rfl
    · rintro _ _ ⟨⟩
    · rintro _ _ ⟨⟩
  | unsendable status members entry _ _ =>
    constructor
    · nofun
    · exact hearlier
    · rintro _ ⟨⟩
    · rintro _ _ ⟨⟩ h
      exact absurd (hasCode_errorPayload.mp h) (by decide)
    · rintro _ _ ⟨⟩ _ _ hinternal
      exact absurd (hasCode_errorPayload.mpr rfl) hinternal
  | error status code entry fields _ _ _ =>
    constructor
    · nofun
    · exact hearlier
    · rintro _ ⟨⟩
    · rintro _ _ ⟨⟩ h
      exact absurd (hasCode_errorPayload.mp h) (hcode status code fields rfl)
    · rintro _ _ ⟨⟩ _ _ _
      exact hunchanged status code fields rfl

/-- What holds of the last attempt and of all that came to nothing holds of the log. -/
theorem forall_log {P : AttemptRecord → Prop} (hearlier : ∀ x ∈ log.dropLast, x.Uncommitted)
    (hsettled : ∀ x, x.Uncommitted → P x) (hlast : ∀ x ∈ log.getLast?, P x) : ∀ x ∈ log, P x := by
  intro x hx
  obtain ⟨before, last, rfl⟩ := List.eq_nil_or_concat log |>.resolve_left
    (List.ne_nil_of_mem hx)
  rw [List.concat_eq_append] at *
  rw [List.dropLast_concat] at hearlier
  rcases List.mem_append.mp hx with hx | hx
  · exact hsettled x (hearlier x hx)
  · rw [List.mem_singleton.mp hx]
    exact hlast last List.getLast?_concat

end Told

section Services

variable (others : Services) (service : Service) (env : Environment) (zoneNames : Text → Bool)

/-- The services of an application whose mutations go through one service. -/
def mutating : Services :=
  { others with
    book := fun command => ((service.book env zoneNames command).execute {}).1
    setPreference := fun command => ((service.setPreference env command).execute {}).1 }

end Services

section Failures

variable {ρ : Type} {reports : ρ → ℕ → Prop} {committed : List String}
  {log : List AttemptRecord} {e : ServiceError}
  {stored : AttemptRecord → Payload → Prop} {received : Received} {failure : ServiceError → Failure}

/-- What is told of a failure of a service is so. -/
theorem told_of_error (hfailure : failure = .reservation ∧
      "reservation_confirmation_unavailable" ∈ committed ∨ failure = .preference)
    (hcertain : Backend.Certain reports (.error e) log)
    (hconveys : Conveys (.error (failure e)) received) : Told committed log stored received := by
  have hreported := hcertain.reported
  apply told_of_failure hconveys hcertain.earlier
  · intro hcode
    rcases hfailure with ⟨rfl, -⟩ | rfl
    all_goals cases e with
    | confirmationUnavailable n b => exact hreported
    | _ => simp [Failure.code] at hcode
  · intro hknown hcommitted hinternal
    cases e with
    | temporaryFailure n b => exact fun x hx => (hreported x hx).unchanged
    | databaseContractError b => exact fun x hx => (hreported x hx).unchanged
    | serviceUnavailable n b => exact hreported
    | outcomeUnknown n b => rcases hfailure with ⟨rfl, -⟩ | rfl <;> cases hknown
    | confirmationUnavailable n b =>
      rcases hfailure with ⟨rfl, hmem⟩ | rfl
      · exact absurd hmem hcommitted
      · exact absurd rfl hinternal
    | attemptsOutOfRange =>
      have hlog : log = [] := hreported
      rw [hlog]
      exact List.forall_mem_nil _
    | unexpected error => exact hreported.elim
    | lostFailureContext => exact hreported.elim

end Failures

section Booking

variable {env : Environment} {zoneNames : Text → Bool} {service : Service}
  {command : ReservationCommand} {strftime : ℤ → Text} {zoneInfo : Backend.ZoneInfo}
  {result : Backend.ReservationBookingResult} {p : ResponseProjection} {status : ℕ}
  {members : Payload} {x : AttemptRecord} {db : Database} {row : BookingRow} {a : Backend.Attempt}
  {r : Reservation} {c : Customer}

/-- The members of a confirmation that are about a reservation, its tables and its customer. -/
structure ShowsReservation (strftime : ℤ → Text) (confirmation : Payload) (r : Reservation)
    (tables : List ℤ) (c : Customer) : Prop where
  reference : confirmation.get (text "reservation_reference") =
    some (.string (decimalDigits.decimal r.reservationId))
  startsAt : confirmation.get (text "starts_at") = some (.string (strftime r.startsAt))
  endsAt : confirmation.get (text "ends_at") = some (.string (strftime r.endsAt))
  partySize : confirmation.get (text "party_size") = some (.integer r.partySize)
  assignedTableNumbers : confirmation.get (text "assigned_table_numbers") =
    some (.array (tables.map .integer))
  newsletterSubscribed : confirmation.get (text "newsletter_subscribed") =
    some (.boolean c.newsletterSubscribed)

/-- A body confirms a stored reservation that is the one asked for. -/
structure Confirms (strftime : ℤ → Text) (command : ReservationCommand) (members : Payload)
    (db : Database) (r : Reservation) (c : Customer) : Prop where
  reservation : r ∈ db.reservations
  customer : c ∈ db.customers
  customerId : r.customerId = c.customerId
  email : c.email = command.email
  start : r.startsAt = command.localStart - Time.minutes command.utcOffsetMinutes
  party : r.partySize = command.partySize
  shown : ∃ confirmation tables, members.get (text "confirmation") = some (.object confirmation) ∧
    ShowsReservation strftime confirmation r tables c ∧
    ∀ n, n ∈ tables ↔ ⟨r.reservationId, n⟩ ∈ db.reservationTableAssignments

/-- A body confirms a reservation that is new with all that belongs to it or was there before. -/
def BookingStored (env : Environment) (strftime : ℤ → Text) (command : ReservationCommand)
    (x : AttemptRecord) (members : Payload) : Prop :=
  ∃ r c, Confirms strftime command members x.after r c ∧
    ((members.get (text "booking_result") = some (.string (text "created")) ∧
      ∃ request f start tables row, command.arguments = request.arguments ∧
        Booked env request x.before f start r tables row x.after) ∨
    (members.get (text "booking_result") = some (.string (text "exact_retry")) ∧
      x.after = x.before))

theorem payload_of_serializeReservationBooking
    (h : Backend.serializeReservationBooking strftime zoneInfo result = some p)
    (hp : p = .payload status members) : success result.outcome = true ∧
      Backend.bookingPayload strftime zoneInfo result = some members := by
  subst hp
  unfold Backend.serializeReservationBooking at h
  split at h
  · next hsuccess =>
    obtain ⟨_, hmembers, heq⟩ := Option.map_eq_some_iff.mp h
    cases heq
    exact ⟨hsuccess, hmembers⟩
  repeat' split at h
  any_goals cases h
  unfold Backend.bookingValidation at h
  split at h
  · cases h
  · obtain ⟨_, -, heq⟩ := Option.map_eq_some_iff.mp h
    cases heq

theorem error_of_serializeReservationBooking {code : String} {fields : List Backend.FieldError}
    (h : Backend.serializeReservationBooking strftime zoneInfo result = some p)
    (hp : p = .error status code fields) : success result.outcome = false ∧
      code ≠ "reservation_confirmation_unavailable" := by
  subst hp
  unfold Backend.serializeReservationBooking at h
  split at h
  · obtain ⟨_, -, heq⟩ := Option.map_eq_some_iff.mp h
    cases heq
  next hfails =>
  refine ⟨by simpa using hfails, ?_⟩
  repeat' split at h
  any_goals cases h
  any_goals decide
  unfold Backend.bookingValidation at h
  split at h
  · cases h
    decide
  · obtain ⟨_, -, heq⟩ := Option.map_eq_some_iff.mp h
    cases heq
    decide

theorem bookingResult_of_payload
    (h : Backend.bookingPayload strftime zoneInfo result = some members) :
    members.get (text "booking_result") = some (.string
      (if result.outcome = .exactRetry then text "exact_retry" else text "created")) := by
  obtain ⟨_, -, rfl⟩ := Option.map_eq_some_iff.mp h
  rfl

theorem instantTime_eq_some {t : ℤ} {s : Text} (h : Backend.instantTime strftime t = some s) :
    s = strftime t := by
  unfold Backend.instantTime at h
  split at h
  · exact (Option.some.inj h).symm
  · cases h

theorem integersOfValues_map (l : List ℤ) : integersOfValues (l.map .integer) = l := by
  induction l with
  | nil => rfl
  | cons n l ih => rw [List.map_cons, integersOfValues, ih, Json.integers, List.singleton_append]

theorem shows_of_states {confirmation : Payload}
    (h : Backend.confirmation strftime zoneInfo result = some confirmation)
    (hstates : result.States command db r c) :
    ShowsReservation strftime confirmation r result.assignedTableNumbers c ∧
      integersOfMembers confirmation = r.partySize :: result.assignedTableNumbers := by
  unfold Backend.confirmation at h
  rw [hstates.reservationId, hstates.startsAt, hstates.endsAt, hstates.partySize,
    hstates.newsletterSubscribed] at h
  simp only [Option.bind_eq_bind, Option.bind_some, Option.bind_eq_some_iff] at h
  obtain ⟨_, -, _, -, _, -, _, -, _, -, startsAt, hstartsAt, endsAt, hendsAt, hmembers⟩ := h
  cases hmembers
  rw [instantTime_eq_some hstartsAt, instantTime_eq_some hendsAt]
  refine ⟨⟨rfl, rfl, rfl, rfl, rfl, rfl⟩, ?_⟩
  change r.partySize :: (integersOfValues (result.assignedTableNumbers.map .integer) ++ []) = _
  rw [integersOfValues_map, List.append_nil]

/-- What a result states of a reservation, its body confirms. -/
theorem confirms_of_states (h : Backend.bookingPayload strftime zoneInfo result = some members)
    (hstates : result.States command db r c) : Confirms strftime command members db r c := by
  obtain ⟨confirmation, hconfirmation, rfl⟩ := Option.map_eq_some_iff.mp h
  exact ⟨hstates.reservation, hstates.customer, hstates.customerId, hstates.email, hstates.start,
    hstates.party, confirmation, result.assignedTableNumbers, rfl,
    (shows_of_states hconfirmation hstates).1, hstates.assignedTableNumbers⟩

theorem integers_of_bookingPayload
    (h : Backend.bookingPayload strftime zoneInfo result = some members)
    (hstates : result.States command db r c) :
    (Json.object members).integers = r.partySize :: result.assignedTableNumbers := by
  obtain ⟨confirmation, hconfirmation, rfl⟩ := Option.map_eq_some_iff.mp h
  have hnotice : integersOfMembers (Backend.phoneNotice result.outcome) = [] := by
    unfold Backend.phoneNotice
    split
    · rfl
    · rfl
  change integersOfMembers confirmation ++ integersOfMembers (Backend.phoneNotice _) = _
  rw [hnotice, (shows_of_states hconfirmation hstates).2, List.append_nil]

theorem raising_eq_ok {α : Type} {value : Option α} {y : α}
    (h : Backend.raising value = .ok y) : value = some y := by
  cases value with
  | none => cases h
  | some _ => cases h; rfl

variable {py : Interpreter} {codecName : Text → Option Text} {request : Backend.Request}
  {others : Services} {v : Backend.CallVariables}

theorem project_reservations
    (hcommand : Backend.reservationsRequest py codecName request = .ok (.inl command)) :
    Backend.project py codecName strftime zoneInfo (mutating others service env zoneNames)
      (.reservations request) =
      ((service.book env zoneNames command).execute {}).1.mapError .reservation >>= fun result =>
        Backend.raising (Backend.serializeReservationBooking strftime zoneInfo result) := by
  change Backend.validated (Backend.reservationsRequest py codecName request) _ = _
  unfold Backend.validated
  rw [hcommand]
  rfl

/-- The numbers of a confirmation are party sizes and tables. -/
theorem safe_of_reservations (hmeets : service.Meets env)
    (hcommand : Backend.reservationsRequest py codecName request = .ok (.inl command))
    (h : Backend.project py codecName strftime zoneInfo (mutating others service env zoneNames)
      (.reservations request) = .ok (.payload status members)) :
    ∀ n ∈ (Json.object members).integers, SafeInteger n := by
  rw [project_reservations hcommand] at h
  cases hcall : (service.book env zoneNames command).execute {} with
  | mk outcome v =>
  rw [hcall] at h
  cases outcome with
  | error e => cases h
  | ok result =>
    obtain ⟨hsuccess, hpayload⟩ := payload_of_serializeReservationBooking (raising_eq_ok h) rfl
    obtain ⟨x, -, -, hstores, -⟩ := Backend.stores_of_book hmeets hcall
    obtain ⟨⟨r, c, hr⟩, htables⟩ := hstores hsuccess
    have hparty := command.partySize_ck
    rw [← hr.states.party] at hparty
    rw [integers_of_bookingPayload hpayload hr.states]
    intro n hn
    unfold SafeInteger
    rcases List.mem_cons.mp hn with rfl | hn
    · omega
    · have := htables n hn
      omega

/-- What is told of a result of the service is so. -/
theorem told_of_book {received : Received} (hmeets : service.Meets env)
    (hcall : (service.book env zoneNames command).execute {} = (.ok result, v))
    (hearlier : ∀ x ∈ v.log.dropLast, x.Uncommitted)
    (hconveys : Conveys (Backend.raising (Backend.serializeReservationBooking strftime zoneInfo
      result)) received) :
    Told ["reservation_confirmation_unavailable"] v.log (BookingStored env strftime command)
      received := by
  obtain ⟨x, hx, htook, hstores, hfails⟩ := Backend.stores_of_book hmeets hcall
  cases hp : Backend.serializeReservationBooking strftime zoneInfo result with
  | none =>
    rw [hp] at hconveys
    exact told_of_failure hconveys hearlier (fun h => absurd h (by decide))
      fun _ _ h => absurd rfl h
  | some p =>
    rw [hp] at hconveys
    apply told_of_ok hconveys hearlier
    · rintro status members rfl
      obtain ⟨hsuccess, hpayload⟩ := payload_of_serializeReservationBooking hp rfl
      obtain ⟨⟨r, c, hr⟩, -⟩ := hstores hsuccess
      refine ⟨x, hx, htook, r, c, confirms_of_states hpayload hr.states, ?_⟩
      rw [bookingResult_of_payload hpayload]
      by_cases hretry : result.outcome = .exactRetry
      · rw [if_pos hretry]
        exact .inr ⟨rfl, hr.retried hretry⟩
      · rw [if_neg hretry]
        exact .inl ⟨rfl, hr.created hretry⟩
    · rintro status code fields rfl
      exact (error_of_serializeReservationBooking hp rfl).2
    · rintro status code fields rfl
      apply forall_log hearlier fun x hx => hx.unchanged
      intro y hy
      cases Option.mem_unique hx hy
      exact hfails (error_of_serializeReservationBooking hp rfl).1

/-- Whatever steps of whatever attempts of a booking fail, the client is told what is so: a body
confirms what is stored, and an error of a known outcome stands for no change. -/
theorem booking_told (reader : JsonReader) (others : Services)
    (hcommand : Backend.reservationsRequest py codecName request = .ok (.inl command))
    (hmeets : service.Meets env) :
    ∃ response, Backend.respond py codecName strftime zoneInfo
        (mutating others service env zoneNames) (.reservations request) = some response ∧
      Told ["reservation_confirmation_unavailable"]
        ((service.book env zoneNames command).execute {}).2.log
        (BookingStored env strftime command) (parseJsonResponse reader response) := by
  obtain ⟨received, hconveys, harrives⟩ := arrives_respond (r := reader)
    fun _ _ => safe_of_reservations hmeets hcommand
  obtain ⟨response, hresponse, rfl⟩ := Option.map_eq_some_iff.mp harrives
  refine ⟨response, hresponse, ?_⟩
  have hcertain : Backend.CertainCall (fun r n => Decoded env command (service.attempts n) r)
      (service.book env zoneNames command) :=
    Backend.certain_of_attempt fun _ _ _ hv => Backend.wp_bookAttempt_decoded hv
  unfold Backend.CertainCall at hcertain
  rw [project_reservations hcommand] at hconveys
  cases hcall : (service.book env zoneNames command).execute {} with
  | mk outcome v =>
  rw [hcall] at hconveys hcertain
  cases outcome with
  | ok result => exact told_of_book hmeets hcall hcertain.earlier hconveys
  | error e => exact told_of_error (.inl ⟨rfl, List.mem_singleton_self _⟩) hcertain hconveys

/-- The body of the first booking. -/
def firstBody : Payload :=
  [(Backend.Field.firstName.name, .string (text "Ada")),
    (Backend.Field.lastName.name, .string (text "Byron")),
    (Backend.Field.email.name, .string (text "ada@example.com")),
    (Backend.Field.confirmationEmail.name, .string (text "ada@example.com")),
    (Backend.Field.startsAtLocal.name, .string (text "1970-01-02T17:00:00-05:00")),
    (Backend.Field.utcOffsetMinutes.name, .integer (-300)),
    (Backend.Field.partySize.name, .integer 2),
    (Backend.Field.newsletterAction.name, .string (text "subscribe"))]

/-- What attempt `n` meets: the first one is the victim of a deadlock. -/
def deadlockOnce (n : ℕ) : Backend.Attempt where
  clock _ := 0
  session := .fixed 0
  fault s := if n = 1 ∧ s = .call then
    some { errorClass := .operationalError, sqlstate := some "40P01" } else none
  commitTook := false
  memory := firstMemory seed
  readings := firstNoon
  sqlFault _ := { errorClass := .other }
  confirmation := [(text "Ada", none, text "Byron", text "America/New_York")]

/-- A service with the settings of production. -/
def patient : Service where
  deadlineMs := 15000
  retryPolicy := ⟨3, 25, 200, 1 / 4, 500⟩
  acquireTimeoutSeconds := 1 / 2
  monotonic _ := 0
  uniform _ _ _ := 0
  attempts := deadlockOnce

theorem patient_meets : patient.Meets .eastern where
  constraints _ := constraints_seed _
  fresh _ := firstMemory_fresh rfl rfl

theorem inl_of_getLeft? {ε α β : Type} {x : Except ε (α ⊕ β)} {a : α}
    (h : x.toOption.bind Sum.getLeft? = some a) : x = .ok (.inl a) := by
  cases x with
  | error e => cases h
  | ok y => exact congrArg Except.ok (Sum.getLeft?_eq_some_iff.mp h)

/-- The second attempt books, and what the client is told of it is so. -/
theorem booking_told_retried : ∃ request response, post 16384 firstBody = some request ∧
    ((patient.book .eastern (fun _ => true) Backend.firstCommand).execute {}).2.log.map
      (·.commitTook) = [false, true] ∧
    Backend.respond .ascii (fun _ => none) (fun _ => []) (fun _ => some (.fixed (-300)))
      (mutating contextOnly patient .eastern fun _ => true) (.reservations request) =
        some response ∧
    Told ["reservation_confirmation_unavailable"]
      ((patient.book .eastern (fun _ => true) Backend.firstCommand).execute {}).2.log
      (BookingStored .eastern (fun _ => []) Backend.firstCommand)
      (parseJsonResponse ⟨fun _ => [], fun _ => .null⟩ response) := by
  obtain ⟨request, hrequest, hcommand⟩ := Option.bind_eq_some_iff.mp (show
    ((post 16384 firstBody).bind fun request =>
      (Backend.reservationsRequest .ascii (fun _ => none) request).toOption.bind Sum.getLeft?) =
      some Backend.firstCommand by decide +kernel)
  obtain ⟨response, hresponse, htold⟩ := booking_told ⟨fun _ => [], fun _ => .null⟩ contextOnly
    (inl_of_getLeft? hcommand) patient_meets
  exact ⟨request, response, hrequest, by decide +kernel, hresponse, htold⟩

end Booking

section Preference

variable {env : Environment} {zoneNames : Text → Bool} {service : Service}
  {command : NewsletterPreferenceCommand} {strftime : ℤ → Text} {zoneInfo : Backend.ZoneInfo}
  {result : Backend.NewsletterPreferenceResult} {status : ℕ} {members : Payload} {x : AttemptRecord}
  {py : Interpreter} {codecName : Text → Option Text} {request : Backend.Request}
  {others : Services} {v : Backend.CallVariables}

/-- A body says that the preference is set, or that nobody has the e-mail. -/
def PreferenceStored (command : NewsletterPreferenceCommand) (x : AttemptRecord)
    (members : Payload) : Prop :=
  (members = [(text "result", .string (text "set")), (text "subscribed", .boolean command.subscribed)] ∧
      ∃ request, command.arguments.request = some request ∧ PreferenceSet request x.before x.after) ∨
    (members = [(text "result", .string (text "no_customer_no_change")),
        (text "subscribed", .boolean false)] ∧
      command.subscribed = false ∧ (∀ c ∈ x.after.customers, c.email ≠ command.email) ∧
      x.after = x.before)

theorem project_newsletterPreferences
    (hcommand : Backend.newsletterPreferencesRequest py codecName request = .ok (.inl command)) :
    Backend.project py codecName strftime zoneInfo (mutating others service env zoneNames)
      (.newsletterPreferences request) =
      ((service.setPreference env command).execute {}).1.mapError .preference >>= fun result =>
        .ok (Backend.serializeNewsletterPreference result) := by
  change Backend.validated (Backend.newsletterPreferencesRequest py codecName request) _ = _
  unfold Backend.validated
  rw [hcommand]
  rfl

theorem payload_of_serializeNewsletterPreference
    (h : Backend.serializeNewsletterPreference result = .payload status members) :
    ((result.outcome = .subscribed ∨ result.outcome = .unsubscribed) ∧
        members = [(text "result", .string (text "set")),
          (text "subscribed", Backend.nullableBoolean result.subscribed)]) ∨
      (result.outcome = .noCustomerNoChange ∧
        members = [(text "result", .string (text "no_customer_no_change")),
          (text "subscribed", .boolean false)]) := by
  unfold Backend.serializeNewsletterPreference at h
  cases houtcome : result.outcome with
  | subscribed =>
    rw [houtcome] at h
    cases h
    exact .inl ⟨.inl rfl, rfl⟩
  | unsubscribed =>
    rw [houtcome] at h
    cases h
    exact .inl ⟨.inr rfl, rfl⟩
  | noCustomerNoChange =>
    rw [houtcome] at h
    cases h
    exact .inr ⟨rfl, rfl⟩
  | _ =>
    rw [houtcome] at h
    cases h

theorem error_of_serializeNewsletterPreference {code : String} {fields : List Backend.FieldError}
    (h : Backend.serializeNewsletterPreference result = .error status code fields) :
    result.outcome ≠ .subscribed ∧ result.outcome ≠ .unsubscribed ∧
      code ≠ "reservation_confirmation_unavailable" := by
  unfold Backend.serializeNewsletterPreference at h
  split at h
  all_goals cases h
  all_goals
    next houtcome =>
    rw [houtcome]
    decide

/-- A body has no numbers. -/
theorem integers_of_serializeNewsletterPreference
    (h : Backend.serializeNewsletterPreference result = .payload status members) :
    (Json.object members).integers = [] := by
  have hflag : (Backend.nullableBoolean result.subscribed).integers = [] := by
    cases result.subscribed with
    | none => rfl
    | some _ => rfl
  rcases payload_of_serializeNewsletterPreference h with ⟨-, rfl⟩ | ⟨-, rfl⟩
  · exact (List.append_nil _).trans hflag
  · rfl

theorem safe_of_newsletterPreferences
    (hcommand : Backend.newsletterPreferencesRequest py codecName request = .ok (.inl command))
    (h : Backend.project py codecName strftime zoneInfo (mutating others service env zoneNames)
      (.newsletterPreferences request) = .ok (.payload status members)) :
    ∀ n ∈ (Json.object members).integers, SafeInteger n := by
  rw [project_newsletterPreferences hcommand] at h
  cases hcall : (service.setPreference env command).execute {} with
  | mk outcome v =>
  rw [hcall] at h
  cases outcome with
  | error e => cases h
  | ok result =>
    rw [integers_of_serializeNewsletterPreference (Except.ok.inj h)]
    exact List.forall_mem_nil _

/-- What is told of a result of the service is so. -/
theorem told_of_setPreference {received : Received} (hmeets : service.Meets env)
    (hcall : (service.setPreference env command).execute {} = (.ok result, v))
    (hearlier : ∀ x ∈ v.log.dropLast, x.Uncommitted)
    (hconveys : Conveys (.ok (Backend.serializeNewsletterPreference result)) received) :
    Told [] v.log (PreferenceStored command) received := by
  obtain ⟨x, hx, htook, hsets⟩ := Backend.sets_of_setPreference hmeets hcall
  apply told_of_ok hconveys hearlier
  · intro status members hp
    refine ⟨x, hx, htook, ?_⟩
    rcases payload_of_serializeNewsletterPreference hp with ⟨houtcome, rfl⟩ | ⟨houtcome, rfl⟩
    · obtain ⟨hsubscribed, hset⟩ := hsets.set houtcome
      rw [hsubscribed]
      exact .inl ⟨rfl, hset⟩
    · obtain ⟨hunsubscribes, hunknown⟩ := hsets.absent houtcome
      refine .inr ⟨rfl, hunsubscribes, hunknown, hsets.refused ?_ ?_⟩
      · rw [houtcome]
        decide
      · rw [houtcome]
        decide
  · exact fun status code fields hp => (error_of_serializeNewsletterPreference hp).2.2
  · intro status code fields hp
    obtain ⟨hsubscribed, hunsubscribed, -⟩ := error_of_serializeNewsletterPreference hp
    apply forall_log hearlier fun x hx => hx.unchanged
    intro y hy
    cases Option.mem_unique hx hy
    exact hsets.refused hsubscribed hunsubscribed

/-- Whatever steps of whatever attempts of a preference fail, the client is told what is so. -/
theorem preference_told (reader : JsonReader) (others : Services)
    (hcommand : Backend.newsletterPreferencesRequest py codecName request = .ok (.inl command))
    (hmeets : service.Meets env) :
    ∃ response, Backend.respond py codecName strftime zoneInfo
        (mutating others service env zoneNames) (.newsletterPreferences request) = some response ∧
      Told [] ((service.setPreference env command).execute {}).2.log
        (PreferenceStored command) (parseJsonResponse reader response) := by
  have hcertain : Backend.CertainCall
      (fun r n => Backend.NewsletterGateway.Reports env command (service.attempts n) r)
      (service.setPreference env command) :=
    Backend.certain_of_attempt fun _ _ _ hv => Backend.wp_preferenceAttempt hv
  unfold Backend.CertainCall at hcertain
  obtain ⟨received, hconveys, harrives⟩ := arrives_respond (r := reader)
    fun _ _ => safe_of_newsletterPreferences hcommand
  obtain ⟨response, hresponse, rfl⟩ := Option.map_eq_some_iff.mp harrives
  refine ⟨response, hresponse, ?_⟩
  rw [project_newsletterPreferences hcommand] at hconveys
  cases hcall : (service.setPreference env command).execute {} with
  | mk outcome v =>
  rw [hcall] at hconveys hcertain
  cases outcome with
  | ok result => exact told_of_setPreference hmeets hcall hcertain.earlier hconveys
  | error e => exact told_of_error (.inr rfl) hcertain hconveys

/-- The body of a first subscription. -/
def subscriptionBody : Payload :=
  [(Backend.Field.firstName.name, .string (text "Ada")),
    (Backend.Field.lastName.name, .string (text "Byron")),
    (Backend.Field.email.name, .string (text "ada@example.com")),
    (Backend.Field.confirmationEmail.name, .string (text "ada@example.com")),
    (Backend.Field.subscribed.name, .boolean true)]

/-- The command behind it. -/
def firstSubscription : NewsletterPreferenceCommand :=
  ⟨text "Ada", none, text "Byron", text "ada@example.com", true⟩

/-- The second attempt subscribes, and what the client is told of it is so. -/
theorem preference_told_retried : ∃ request response, post 16384 subscriptionBody = some request ∧
    ((patient.setPreference .eastern firstSubscription).execute {}).2.log.map (·.commitTook) =
      [false, true] ∧
    Backend.respond .ascii (fun _ => none) (fun _ => []) (fun _ => some (.fixed (-300)))
      (mutating contextOnly patient .eastern fun _ => true) (.newsletterPreferences request) =
        some response ∧
    Told [] ((patient.setPreference .eastern firstSubscription).execute {}).2.log
      (PreferenceStored firstSubscription)
      (parseJsonResponse ⟨fun _ => [], fun _ => .null⟩ response) := by
  obtain ⟨request, hrequest, hcommand⟩ := Option.bind_eq_some_iff.mp (show
    ((post 16384 subscriptionBody).bind fun request => (Backend.newsletterPreferencesRequest .ascii
      (fun _ => none) request).toOption.bind Sum.getLeft?) = some firstSubscription
      by decide +kernel)
  obtain ⟨response, hresponse, htold⟩ := preference_told ⟨fun _ => [], fun _ => .null⟩ contextOnly
    (inl_of_getLeft? hcommand) patient_meets
  exact ⟨request, response, hrequest, by decide +kernel, hresponse, htold⟩

end Preference

end CafeFausse.Frontend
