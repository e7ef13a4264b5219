import CafeFausse.Backend.Classified
import CafeFausse.Backend.Responses
import CafeFausse.Python.JsonExact

/-! # Every request is answered

What a route makes of a request fits the table of errors: a code has its status, and exactly a
failed validation names fields. Each failure that can arise has a handler that does not raise.
-/

namespace CafeFausse.Backend

open Python

/-- The names of each object are distinct, and there is no `Decimal`. -/
abbrev Distinct (v : Json) : Prop := Every (fun _ => True) List.Nodup v

/-- A projection that can be answered as it is. -/
inductive ResponseProjection.WellFormed : ResponseProjection → Prop where
  | payload (status : ℕ) (members : Payload) : 200 ≤ status ∧ status ≤ 299 →
      Distinct (.object members) → WellFormed (.payload status members)
  | error (status : ℕ) (code : String) (entry : ErrorEntry) (fields : List FieldError) :
      errors.lookup code = some entry → entry.status = status →
      (code = "validation_failed" ↔ fields ≠ []) → WellFormed (.error status code fields)

/-- The client is told to try again. -/
def Failure.retryable : Failure → Bool
  | .read .newsletterStatusIndeterminate | .read .reservationServiceUnavailable => true
  | .preference (.temporaryFailure _ _) | .preference (.outcomeUnknown _ _) => true
  | .reservation (.temporaryFailure _ _) | .reservation (.outcomeUnknown _ _) => true
  | .reservation (.confirmationUnavailable _ _) | .reservation (.serviceUnavailable _ _) => true
  | _ => false

/-- Nobody knows whether the request took effect. -/
def Failure.outcomeUnknown : Failure → Bool
  | .preference (.outcomeUnknown _ _) | .reservation (.outcomeUnknown _ _) => true
  | _ => false

/-- The code under which a failure is reported. -/
def Failure.code : Failure → String
  | .exception (.protocolError code _) => code
  | .exception .requestEntityTooLarge => "invalid_request"
  | .read .newsletterStatusIndeterminate => "newsletter_status_indeterminate"
  | .read .reservationServiceUnavailable => "service_unavailable"
  | .preference (.temporaryFailure _ _) => "temporary_failure"
  | .preference (.outcomeUnknown _ _) => "newsletter_preference_outcome_unknown"
  | .reservation (.temporaryFailure _ _) => "temporary_failure"
  | .reservation (.outcomeUnknown _ _) => "reservation_outcome_unknown"
  | .reservation (.confirmationUnavailable _ _) => "reservation_confirmation_unavailable"
  | .reservation (.serviceUnavailable _ _) => "service_unavailable"
  | .notFound => "route_not_found"
  | .methodNotAllowed => "method_not_allowed"
  | _ => "internal_error"

/-- The code of a temporary failure speaks of newsletters. -/
def Failure.message (f : Failure) (entry : ErrorEntry) : String :=
  match f with
  | .reservation (.temporaryFailure _ _) =>
    "The reservation could not be processed right now. Please retry shortly."
  | _ => entry.message

/-- What is reported of a failure. -/
def Failure.payload (f : Failure) (entry : ErrorEntry) : Payload :=
  errorPayload f.code { entry with message := f.message entry } []

/-- An exception before the services is one of the protocol or of a conversion. -/
def Failure.Foreseen (f : Failure) : Prop :=
  ∀ e, f = .exception e → e ∈ protocolErrors ∨ e ∈ conversionErrors

/-- What a route may end in. -/
inductive Projected : Except Failure ResponseProjection → Prop where
  | ok (p : ResponseProjection) : p.WellFormed → Projected (.ok p)
  | error (f : Failure) : f.Foreseen → Projected (.error f)

section Projections

/-- An error without fields. -/
theorem wellFormed_conflict {status : ℕ} {code : String}
    (h : (errors.lookup code).map ErrorEntry.status = some status)
    (hcode : code ≠ "validation_failed") :
    (ResponseProjection.error status code []).WellFormed := by
  obtain ⟨entry, hentry, hstatus⟩ := Option.map_eq_some_iff.mp h
  exact .error status code entry [] hentry hstatus (iff_of_false hcode (not_not.mpr rfl))

theorem wellFormed_fields {fields : List FieldError} (h : fields ≠ []) :
    (ResponseProjection.error 422 "validation_failed" fields).WellFormed :=
  .error _ _ ⟨422, "One or more fields need attention.", false, false⟩ fields rfl rfl
    (iff_of_true rfl h)

theorem distinct_nullableBoolean (b : Option Bool) : Distinct (nullableBoolean b) := by
  cases b with
  | none => exact .null
  | some b => exact .boolean b

theorem distinct_members {number : ℤ → Prop} {members : Payload} (names : List String)
    (h : members.map (·.1) = names.map text) (hnames : (names.map text).Nodup)
    (hmembers : ∀ m ∈ members, Every number List.Nodup m.2) :
    Every number List.Nodup (.object members) :=
  .object members (h ▸ hnames) hmembers

theorem wellFormed_serializeNewsletterStatus (result : NewsletterStatusResult) :
    (serializeNewsletterStatus result).WellFormed := by
  unfold serializeNewsletterStatus
  cases result.outcome with
  | matched =>
    apply ResponseProjection.WellFormed.payload _ _ (by decide)
    apply distinct_members ["status", "subscribed"] rfl (by decide)
    simp only [List.forall_mem_cons, List.not_mem_nil, IsEmpty.forall_iff, implies_true, and_true]
    exact ⟨.string _, distinct_nullableBoolean _⟩
  | notFound =>
    apply ResponseProjection.WellFormed.payload _ _ (by decide)
    apply distinct_members ["status"] rfl (by decide)
    simp only [List.forall_mem_cons, List.not_mem_nil, IsEmpty.forall_iff, implies_true, and_true]
    exact .string _
  | customerIdentityConflict => exact wellFormed_conflict rfl (by decide)
  | middleInitialConflict => exact wellFormed_conflict rfl (by decide)

theorem notAccepted_ne_nil {fields : List Field} (h : fields ≠ []) : notAccepted fields ≠ [] :=
  fun hnil => h (List.map_eq_nil_iff.mp hnil)

theorem wellFormed_serializeNewsletterPreference (result : NewsletterPreferenceResult) :
    (serializeNewsletterPreference result).WellFormed := by
  have hset : Distinct (.object [(text "result", .string (text "set")),
      (text "subscribed", nullableBoolean result.subscribed)]) := by
    apply distinct_members ["result", "subscribed"] rfl (by decide)
    simp only [List.forall_mem_cons, List.not_mem_nil, IsEmpty.forall_iff, implies_true, and_true]
    exact ⟨.string _, distinct_nullableBoolean _⟩
  unfold serializeNewsletterPreference
  cases result.outcome with
  | subscribed => exact .payload _ _ (by decide) hset
  | unsubscribed => exact .payload _ _ (by decide) hset
  | noCustomerNoChange =>
    apply ResponseProjection.WellFormed.payload _ _ (by decide)
    apply distinct_members ["result", "subscribed"] rfl (by decide)
    simp only [List.forall_mem_cons, List.not_mem_nil, IsEmpty.forall_iff, implies_true, and_true]
    exact ⟨.string _, .boolean _⟩
  | customerIdentityConflict => exact wellFormed_conflict rfl (by decide)
  | middleInitialConflict => exact wellFormed_conflict rfl (by decide)
  | invalidRequest => exact wellFormed_fields (notAccepted_ne_nil (List.cons_ne_nil _ _))

theorem distinct_restaurant : Distinct (.object restaurantMembers) := by
  apply distinct_members ["address", "phone"] rfl (by decide)
  unfold restaurantMembers
  simp only [List.forall_mem_cons, List.not_mem_nil, IsEmpty.forall_iff, implies_true, and_true]
  exact ⟨.string _, .string _⟩

theorem distinct_serializeHours (item : WeekdayHours) :
    Distinct (.object (serializeHours item)) := by
  apply distinct_members
      ["iso_weekday", "opens_at_local", "closes_at_local"] rfl (by decide)
  unfold serializeHours
  simp only [List.forall_mem_cons, List.not_mem_nil, IsEmpty.forall_iff, implies_true, and_true]
  exact ⟨.integer _ trivial, .string _, .string _⟩

theorem wellFormed_serializeReservationContext (result : ReservationContextResult) :
    (serializeReservationContext result).WellFormed := by
  apply ResponseProjection.WellFormed.payload _ _ (by decide)
  apply distinct_members
      ["restaurant", "restaurant_timezone", "weekday_hours", "reservation_policy",
       "reservable_date_range", "maximum_party_size"] rfl (by decide)
  simp only [List.forall_mem_cons, List.not_mem_nil, IsEmpty.forall_iff, implies_true, and_true]
  refine ⟨distinct_restaurant, .string _, .array _ ?_, ?_, ?_, .integer _ trivial⟩
  · intro v hv
    obtain ⟨item, -, rfl⟩ := List.mem_map.mp hv
    exact distinct_serializeHours item
  · apply distinct_members
      ["start_interval_minutes", "reservation_duration_minutes", "advance_window_days",
       "same_day_lead_minutes"] rfl (by decide)
    simp only [List.forall_mem_cons, List.not_mem_nil, IsEmpty.forall_iff, implies_true, and_true]
    exact ⟨.integer _ trivial, .integer _ trivial, .integer _ trivial, .integer _ trivial⟩
  · apply distinct_members ["minimum_local_date", "maximum_local_date"] rfl (by decide)
    simp only [List.forall_mem_cons, List.not_mem_nil, IsEmpty.forall_iff, implies_true, and_true]
    exact ⟨.string _, .string _⟩

variable {strftime : ℤ → Text} {zoneInfo : ZoneInfo} {p : ResponseProjection}

theorem distinct_serializeSlot {zone : Zone} {slot : AvailabilitySlot} {members : Payload}
    (h : serializeSlot strftime zone slot = some members) : Distinct (.object members) := by
  unfold serializeSlot at h
  obtain ⟨startsAtLocal, -, h⟩ := Option.bind_eq_some_iff.mp h
  obtain ⟨startsAt, -, h⟩ := Option.bind_eq_some_iff.mp h
  obtain ⟨endsAtLocal, -, h⟩ := Option.bind_eq_some_iff.mp h
  obtain ⟨endsAt, -, h⟩ := Option.bind_eq_some_iff.mp h
  cases h
  apply distinct_members
      ["starts_at_local", "utc_offset_minutes", "starts_at", "ends_at_local", "ends_at",
       "available"] rfl (by decide)
  simp only [List.forall_mem_cons, List.not_mem_nil, IsEmpty.forall_iff, implies_true, and_true]
  exact ⟨.string _, .integer _ trivial, .string _, .string _, .string _, .boolean _⟩

theorem wellFormed_serializeReservationAvailability {result : AvailabilityResult}
    (h : serializeReservationAvailability strftime zoneInfo result = some p) : p.WellFormed := by
  cases result with
  | invalidRequest request =>
    cases h
    exact wellFormed_fields (List.cons_ne_nil _ _)
  | slots request restaurantTimezone slots =>
    obtain ⟨zone, -, h⟩ := Option.bind_eq_some_iff.mp h
    obtain ⟨served, hserved, h⟩ := Option.bind_eq_some_iff.mp h
    cases h
    apply ResponseProjection.WellFormed.payload _ _ (by decide)
    apply distinct_members
      ["local_date", "party_size", "restaurant_timezone", "provisional", "slots"] rfl (by decide)
    simp only [List.forall_mem_cons, List.not_mem_nil, IsEmpty.forall_iff, implies_true, and_true]
    refine ⟨.string _, .integer _ trivial, .string _, .boolean _, .array _ ?_⟩
    intro v hv
    obtain ⟨members, hmembers, rfl⟩ := List.mem_map.mp hv
    obtain ⟨slot, -, hslot⟩ := exists_of_mem_mapM hserved hmembers
    exact distinct_serializeSlot hslot

theorem distinct_confirmation {result : ReservationBookingResult} {members : Payload}
    (h : confirmation strftime zoneInfo result = some members) : Distinct (.object members) := by
  unfold confirmation at h
  obtain ⟨reservationId, -, h⟩ := Option.bind_eq_some_iff.mp h
  obtain ⟨startsAt, -, h⟩ := Option.bind_eq_some_iff.mp h
  obtain ⟨endsAt, -, h⟩ := Option.bind_eq_some_iff.mp h
  obtain ⟨partySize, -, h⟩ := Option.bind_eq_some_iff.mp h
  obtain ⟨newsletterSubscribed, -, h⟩ := Option.bind_eq_some_iff.mp h
  obtain ⟨customerName, -, h⟩ := Option.bind_eq_some_iff.mp h
  obtain ⟨restaurantTimezone, -, h⟩ := Option.bind_eq_some_iff.mp h
  obtain ⟨zone, -, h⟩ := Option.bind_eq_some_iff.mp h
  obtain ⟨startsAtLocal, -, h⟩ := Option.bind_eq_some_iff.mp h
  obtain ⟨endsAtLocal, -, h⟩ := Option.bind_eq_some_iff.mp h
  obtain ⟨startsAtText, -, h⟩ := Option.bind_eq_some_iff.mp h
  obtain ⟨endsAtText, -, h⟩ := Option.bind_eq_some_iff.mp h
  cases h
  apply distinct_members
      ["reservation_reference", "customer_name", "starts_at_local", "ends_at_local", "starts_at",
        "ends_at", "party_size", "assigned_table_numbers", "newsletter_subscribed",
        "restaurant"] rfl (by decide)
  simp only [List.forall_mem_cons, List.not_mem_nil, IsEmpty.forall_iff, implies_true, and_true]
  refine ⟨.string _, .string _, .string _, .string _, .string _, .string _, .integer _ trivial,
    .array _ ?_, .boolean _, distinct_restaurant⟩
  intro v hv
  obtain ⟨n, -, rfl⟩ := List.mem_map.mp hv
  exact .integer n trivial

theorem distinct_phoneNotice (outcome : BookingOutcome) :
    ((phoneNotice outcome).map (·.1) = [] ∨
      (phoneNotice outcome).map (·.1) = [text "phone_notice"]) ∧
    ∀ m ∈ phoneNotice outcome, Distinct m.2 := by
  unfold phoneNotice
  split
  · refine ⟨.inr rfl, ?_⟩
    rw [List.forall_mem_singleton]
    apply distinct_members ["code", "message"] rfl (by decide)
    simp only [List.forall_mem_cons, List.not_mem_nil, IsEmpty.forall_iff, implies_true, and_true]
    exact ⟨.string _, .string _⟩
  · exact ⟨.inl rfl, List.forall_mem_nil _⟩

theorem distinct_bookingPayload {result : ReservationBookingResult} {members : Payload}
    (h : bookingPayload strftime zoneInfo result = some members) : Distinct (.object members) := by
  obtain ⟨confirmation, hconfirmation, rfl⟩ := Option.map_eq_some_iff.mp h
  obtain ⟨hnames, hnotice⟩ := distinct_phoneNotice result.outcome
  apply Every.object
  · rw [List.map_cons, List.map_cons]
    rcases hnames with hnames | hnames
    · rw [hnames]
      exact (by decide : [text "booking_result", text "confirmation"].Nodup)
    · rw [hnames]
      exact (by decide : [text "booking_result", text "confirmation", text "phone_notice"].Nodup)
  · simp only [List.forall_mem_cons]
    exact ⟨.string _, distinct_confirmation hconfirmation, hnotice⟩

theorem wellFormed_bookingValidation {detail : Option Detail}
    (h : bookingValidation detail = some p) : p.WellFormed := by
  unfold bookingValidation at h
  split at h
  · cases h
    exact wellFormed_fields (notAccepted_ne_nil (List.cons_ne_nil _ _))
  · obtain ⟨error, -, rfl⟩ := Option.map_eq_some_iff.mp h
    exact wellFormed_fields (List.cons_ne_nil _ _)

theorem wellFormed_serializeReservationBooking {result : ReservationBookingResult}
    (h : serializeReservationBooking strftime zoneInfo result = some p) : p.WellFormed := by
  unfold serializeReservationBooking at h
  split at h
  · obtain ⟨members, hmembers, rfl⟩ := Option.map_eq_some_iff.mp h
    refine .payload _ _ ?_ (distinct_bookingPayload hmembers)
    split <;> decide
  split at h
  · cases h
    exact wellFormed_conflict rfl (by decide)
  split at h
  · cases h
    exact wellFormed_conflict rfl (by decide)
  split at h
  · cases h
    exact wellFormed_conflict rfl (by decide)
  split at h
  · cases h
    exact wellFormed_conflict rfl (by decide)
  split at h
  · exact wellFormed_bookingValidation h
  · cases h

end Projections

section Routes

variable {α : Type} {py : Interpreter} {codecName : Text → Option Text} {strftime : ℤ → Text}
  {zoneInfo : ZoneInfo} {services : Services}

theorem projected_raising {p : Option ResponseProjection} (h : ∀ q, p = some q → q.WellFormed) :
    Projected (raising p) := by
  cases p with
  | none => exact .error _ (by rintro e ⟨⟩)
  | some q => exact .ok q (h q rfl)

/-- What comes of a result, if the service returns one. -/
theorem projected_served {ε : Type} {served : Except ε α} {failure : ε → Failure}
    {next : α → Except Failure ResponseProjection}
    (hfailure : ∀ e, served = .error e → (failure e).Foreseen) (hnext : ∀ a, Projected (next a)) :
    Projected (served.mapError failure >>= next) := by
  cases served with
  | error e => exact .error _ (hfailure e rfl)
  | ok a => exact hnext a

theorem projected_validated {fieldOrder : List Field}
    {validation : Except Exception (α ⊕ List FieldError)}
    {next : α → Except Failure ResponseProjection}
    (h : Classified fieldOrder validation ∨ ConversionFails validation)
    (hnext : ∀ a, Projected (next a)) : Projected (validated validation next) := by
  rcases h with h | ⟨e, he, rfl⟩
  · cases h with
    | protocol e he =>
      refine .error _ ?_
      rintro e' ⟨⟩
      exact .inl he
    | fields errors hne _ => exact .ok _ (wellFormed_fields hne)
    | value a => exact hnext a
  · refine .error _ ?_
    rintro e' ⟨⟩
    exact .inr he

theorem requireEmptyHealthGet_error {queryString : Bytes} {content : Content} {e : Exception}
    (h : requireEmptyHealthGet queryString content = .error e) : e ∈ protocolErrors := by
  unfold requireEmptyHealthGet at h
  split at h
  · cases h
    decide
  · exact requireEmptyBody_error h

variable (py codecName strftime zoneInfo services) in
/-- Whatever the services do, a route ends in a projection that can be answered or in a failure
that is foreseen. -/
theorem projected_project (routed : Routed) :
    Projected (project py codecName strftime zoneInfo services routed) := by
  cases routed with
  | reservationContext queryString content =>
    change Projected ((requireEmptyHealthGet queryString content).mapError .exception >>= _)
    apply projected_served
    · rintro e he e' ⟨⟩
      exact .inl (requireEmptyHealthGet_error he)
    intro _
    apply projected_served
    · rintro e - _ ⟨⟩
    · exact fun result => .ok _ (wellFormed_serializeReservationContext result)
  | reservationAvailability content args =>
    apply projected_validated (classified_query content args).2
    intro request
    apply projected_served
    · rintro e - _ ⟨⟩
    · exact fun result => projected_raising fun _ => wellFormed_serializeReservationAvailability
  | newsletterStatus request =>
    apply projected_validated (classified_identity_route _
      (validateNewsletterStatusIdentity_inOrder py.toUnicode)).2
    intro identity
    apply projected_served
    · rintro e - _ ⟨⟩
    · exact fun result => .ok _ (wellFormed_serializeNewsletterStatus result)
  | newsletterPreferences request =>
    apply projected_validated (classified_identity_route _
      (validateNewsletterPreference_inOrder py.toUnicode)).2
    intro command
    apply projected_served
    · rintro e - _ ⟨⟩
    · exact fun result => .ok _ (wellFormed_serializeNewsletterPreference result)
  | reservations request =>
    apply projected_validated (classified_route (FieldsFit py) _
      (fun _ h => validateReservation_of_fits h) fun _ h => validateReservation_of_not_fits h).2
    intro command
    apply projected_served
    · rintro e - _ ⟨⟩
    · exact fun result => projected_raising fun _ => wellFormed_serializeReservationBooking
  | notFound => exact .error _ (by rintro e ⟨⟩)
  | methodNotAllowed => exact .error _ (by rintro e ⟨⟩)

end Routes

section Responses

variable {number : ℤ → Prop} {code : String} {entry : ErrorEntry} {fields : List FieldError} {status : ℕ}
  {payload : Payload} {response : Response}

theorem jsonResponse_eq_some : jsonResponse payload status = some response ↔
    ∃ t, dumps (.object payload) = some t ∧ ScalarText t ∧
      response = ⟨status, Format.Utf8.encode t⟩ := by
  unfold jsonResponse
  rw [Option.bind_eq_bind, Option.bind_eq_some_iff]
  apply exists_congr
  intro t
  apply and_congr_right
  intro _
  split
  · next h => exact ⟨fun heq => ⟨h, (Option.some.inj heq).symm⟩, fun heq => congrArg some heq.2.symm⟩
  · next h => exact ⟨fun heq => (nomatch heq), fun heq => absurd heq.1 h⟩

/-- A payload is sent unless one of its texts has half a surrogate pair. -/
theorem exists_jsonResponse_iff (hdistinct : Distinct (.object payload)) :
    (∃ response, jsonResponse payload status = some response) ↔
      ∀ t ∈ (Json.object payload).texts, ScalarText t := by
  obtain ⟨t, ht⟩ : ∃ t, write dumpsEscape (.object payload) = some t := hdistinct.exists_write
  rw [← scalarText_write _ ht]
  constructor
  · rintro ⟨response, h⟩
    obtain ⟨t', ht', hscalar, -⟩ := jsonResponse_eq_some.mp h
    cases ht.symm.trans ht'
    exact hscalar
  · exact fun hscalar => ⟨_, jsonResponse_eq_some.mpr ⟨t, ht, hscalar, rfl⟩⟩

theorem every_asDict (e : FieldError) : Every number List.Nodup (.object e.asDict) := by
  apply distinct_members ["field", "code", "message"] rfl (by decide)
  unfold FieldError.asDict
  simp only [List.forall_mem_cons, List.not_mem_nil, IsEmpty.forall_iff, implies_true, and_true]
  exact ⟨.string _, .string _, .string _⟩

theorem every_errorMembers :
    Every number List.Nodup (.object (errorMembers code entry fields)) := by
  unfold errorMembers
  split
  · apply distinct_members ["code", "message", "retryable", "outcome_unknown"] rfl (by decide)
    simp only [List.append_nil, List.forall_mem_cons, List.not_mem_nil, IsEmpty.forall_iff,
      implies_true, and_true]
    exact ⟨.string _, .string _, .boolean _, .boolean _⟩
  · apply distinct_members ["code", "message", "retryable", "outcome_unknown", "fields"] rfl
      (by decide)
    simp only [List.cons_append, List.nil_append, List.forall_mem_cons, List.not_mem_nil,
      IsEmpty.forall_iff, implies_true, and_true]
    refine ⟨.string _, .string _, .boolean _, .boolean _, .array _ ?_⟩
    intro v hv
    obtain ⟨e, -, rfl⟩ := List.mem_map.mp hv
    exact every_asDict e

/-- An error holds no numbers. -/
theorem every_errorPayload :
    Every number List.Nodup (.object (errorPayload code entry fields)) := by
  apply distinct_members ["error"] rfl (by decide)
  unfold errorPayload
  rw [List.forall_mem_singleton]
  exact every_errorMembers

variable (code entry fields status) in
theorem exists_errorJson : ∃ response, jsonResponse (errorPayload code entry fields) status =
    some response := by
  apply (exists_jsonResponse_iff every_errorPayload).mpr
  intro t ht
  have hname (f : Field) : ScalarText f.name := by cases f <;> exact scalarText_text _
  have hdicts (fields : List FieldError) :
      ∀ t ∈ textsOfValues (fields.map fun e => .object e.asDict), ScalarText t := by
    induction fields with
    | nil => exact List.forall_mem_nil _
    | cons e fields ih =>
      intro t ht
      rcases List.mem_append.mp ht with ht | ht
      · unfold FieldError.asDict at ht
        simp only [Json.texts, textsOfMembers, List.cons_append, List.nil_append, List.mem_cons,
          List.not_mem_nil, or_false] at ht
        rcases ht with rfl | rfl | rfl | rfl | rfl | rfl
        all_goals first | exact hname _ | exact scalarText_text _
      · exact ih t ht
  unfold errorPayload errorMembers at ht
  split at ht
  · simp only [Json.texts, textsOfMembers, List.cons_append, List.nil_append, List.append_nil,
      List.mem_cons, List.not_mem_nil, or_false] at ht
    rcases ht with rfl | rfl | rfl | rfl | rfl | rfl | rfl <;> exact scalarText_text _
  · simp only [Json.texts, textsOfMembers, List.cons_append, List.nil_append, List.append_nil,
      List.mem_cons] at ht
    rcases ht with rfl | rfl | rfl | rfl | rfl | rfl | rfl | rfl | ht
    all_goals first | exact scalarText_text _ | exact hdicts fields t ht

theorem errorResponse_eq (h : errors.lookup code = some entry) (hstatus : entry.status = status)
    (hfields : fields ≠ [] → code = "validation_failed") :
    errorResponse code (some status) fields = jsonResponse (errorPayload code entry fields) status := by
  unfold errorResponse
  rw [h, Option.bind_eq_bind, Option.bind_some, if_neg, if_neg, hstatus]
  · exact fun hraises => hraises.2 (hfields hraises.1)
  · simp [hstatus]

/-- Every code is one of a failure. -/
theorem status_of_lookup (h : errors.lookup code = some entry) : 400 ≤ entry.status := by
  have hall : ∀ row ∈ errors, 400 ≤ row.2.status := by decide
  obtain ⟨before, after, hrows, -⟩ := List.lookup_eq_some_iff.mp h
  exact hall (code, entry) (hrows ▸ List.mem_append_right _ List.mem_cons_self)

/-- The last handler never raises. -/
theorem exists_unexpectedError : ∃ entry response, errors.lookup "internal_error" = some entry ∧
    unexpectedError = some response ∧
    jsonResponse (errorPayload "internal_error" entry []) entry.status = some response := by
  have hrow : (errors.lookup "internal_error").any (fun entry => entry.status = 500) = true := rfl
  obtain ⟨entry, hentry, hstatus⟩ := (Option.any_eq_true _ _).mp hrow
  obtain ⟨response, hresponse⟩ := exists_errorJson "internal_error" entry [] entry.status
  refine ⟨entry, response, hentry, ?_, hresponse⟩
  rw [unexpectedError, ← of_decide_eq_true hstatus,
    errorResponse_eq hentry rfl fun h => absurd rfl h, hresponse]

/-- The handler answers with the row of the code, which says whether to try again and whether the
outcome is known. -/
def Failure.Handled (f : Failure) : Prop :=
  ∃ entry, errors.lookup f.code = some entry ∧ entry.retryable = f.retryable ∧
    entry.outcomeUnknown = f.outcomeUnknown ∧ f.code ≠ "validation_failed" ∧
    handler f = jsonResponse (f.payload entry) entry.status

theorem handled_of_errorResponse {f : Failure}
    (hhandler : handler f = errorResponse f.code (some status) [])
    (hmessage : f.message = ErrorEntry.message)
    (hrow : (errors.lookup f.code).any (fun entry => entry.status = status ∧
      entry.retryable = f.retryable ∧ entry.outcomeUnknown = f.outcomeUnknown ∧
      f.code ≠ "validation_failed") = true) : f.Handled := by
  obtain ⟨entry, hentry, hrow⟩ := (Option.any_eq_true _ _).mp hrow
  obtain ⟨rfl, hretryable, hunknown, hcode⟩ := of_decide_eq_true hrow
  refine ⟨entry, hentry, hretryable, hunknown, hcode, ?_⟩
  rw [hhandler, errorResponse_eq hentry rfl fun h => absurd rfl h, Failure.payload, hmessage]

theorem handled_of_foreseen {f : Failure} (h : f.Foreseen) : f.Handled := by
  cases f with
  | exception e =>
    rcases h e rfl with he | he
    · simp only [protocolErrors, List.mem_cons, List.not_mem_nil, or_false] at he
      rcases he with rfl | rfl | rfl | rfl | rfl
      · exact handled_of_errorResponse rfl rfl rfl
      · exact handled_of_errorResponse rfl rfl rfl
      · exact handled_of_errorResponse rfl rfl rfl
      · exact handled_of_errorResponse rfl rfl rfl
      · exact handled_of_errorResponse rfl rfl rfl
    · simp only [conversionErrors, List.mem_cons, List.not_mem_nil, or_false] at he
      rcases he with rfl | rfl | rfl <;>
        exact handled_of_errorResponse rfl rfl rfl
  | read e =>
    cases e with
    | newsletterStatusIndeterminate => exact handled_of_errorResponse rfl rfl rfl
    | reservationServiceUnavailable => exact handled_of_errorResponse rfl rfl rfl
    | unexpected => exact handled_of_errorResponse rfl rfl rfl
  | preference e =>
    cases e with
    | temporaryFailure _ _ => exact handled_of_errorResponse rfl rfl rfl
    | outcomeUnknown _ _ => exact handled_of_errorResponse rfl rfl rfl
    | _ => exact handled_of_errorResponse rfl rfl rfl
  | reservation e =>
    cases e with
    | temporaryFailure _ _ =>
      have hrow : (errors.lookup "temporary_failure").any (fun entry => entry.status = 503 ∧
          entry.retryable = true ∧ entry.outcomeUnknown = false) = true := rfl
      obtain ⟨entry, hentry, hrow⟩ := (Option.any_eq_true _ _).mp hrow
      obtain ⟨hstatus, hretryable, hunknown⟩ := of_decide_eq_true hrow
      have hcode : "temporary_failure" ≠ "validation_failed" := by decide
      refine ⟨entry, hentry, hretryable, hunknown, hcode, ?_⟩
      change reservationTemporary = _
      rw [reservationTemporary, hentry, Option.bind_eq_bind, Option.bind_some, hstatus]
      rfl
    | outcomeUnknown _ _ => exact handled_of_errorResponse rfl rfl rfl
    | confirmationUnavailable _ _ => exact handled_of_errorResponse rfl rfl rfl
    | serviceUnavailable _ _ => exact handled_of_errorResponse rfl rfl rfl
    | _ => exact handled_of_errorResponse rfl rfl rfl
  | notFound => exact handled_of_errorResponse rfl rfl rfl
  | methodNotAllowed => exact handled_of_errorResponse rfl rfl rfl
  | unexpected => exact handled_of_errorResponse rfl rfl rfl

end Responses

end CafeFausse.Backend
