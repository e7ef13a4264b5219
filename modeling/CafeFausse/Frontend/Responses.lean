import CafeFausse.Backend.Projected
import CafeFausse.Frontend.Posted

/-! # What the client makes of a response

`parseJsonResponse`: a body, a public error or an invalid response. No response of the server is
invalid, and the client reads what the server has written.
-/

namespace CafeFausse.Frontend

open Python

/-- What `response.json()` makes of bytes that are not UTF-8, and of a number that is no whole
number or too large to be exact. -/
structure JsonReader where
  replaced : Bytes → Text
  number : Literal → Json

section Parsing

/-- Of the members with one name the last one counts. -/
def setMember (members : Payload) (m : Text × Json) : Payload :=
  if members.any (·.1 = m.1) then members.map fun m' => if m'.1 = m.1 then m else m'
  else members ++ [m]

def JsonReader.parseInt (r : JsonReader) (literal : Literal) : Json :=
  let n := Backend.intValue literal
  -- `-0` is a number of its own
  if SafeInteger n ∧ integerLiteral n = literal then .integer n else r.number literal

def JsonReader.hooks (r : JsonReader) : Hooks Unit where
  objectPairsHook members := .ok (members.foldl setMember [])
  parseInt literal := .ok (r.parseInt literal)
  parseFloat literal := .ok (r.number literal)
  parseConstant := .error ()

/-- `JSON.parse(t)`, whose depth has no limit. -/
def JsonReader.parse (r : JsonReader) (t : Text) : Option Json :=
  (loads r.hooks t.length t).toOption

/-- `response.json()`. A byte order mark is skipped. -/
def JsonReader.json (r : JsonReader) (body : Bytes) : Option Json :=
  let t := (Format.Utf8.decode body).getD (r.replaced body)
  r.parse (if t.head?.any (·.val = 0xfeff) then t.tail else t)

def isString : Option Json → Bool
  | some (.string _) => true
  | _ => false

def isBoolean : Option Json → Bool
  | some (.boolean _) => true
  | _ => false

/-- `undefined` or an array. -/
def isOptionalArray : Option Json → Bool
  | none => true
  | some (.array _) => true
  | _ => false

/-- `isPublicErrorEnvelope` of an object. -/
def isPublicErrorEnvelope (members : Payload) : Bool :=
  match members.get (text "error") with
  | some (.object error) =>
    isString (Payload.get error (text "code")) && isString (Payload.get error (text "message")) &&
      isBoolean (Payload.get error (text "retryable")) &&
      isBoolean (Payload.get error (text "outcome_unknown")) &&
      isOptionalArray (Payload.get error (text "fields"))
  | _ => false

/-- What a call of the client ends in. -/
inductive Received where
  | body (members : Payload)
  | publicApiError (status : ℕ) (response : Payload)
  | protocolResponseError

/-- `response.ok`. -/
def isOk (status : ℕ) : Bool := 200 ≤ status && status ≤ 299

/-- `parseJsonResponse`. -/
def parseJsonResponse (r : JsonReader) (response : Backend.Response) : Received :=
  match r.json response.body with
  | some (.object members) =>
    if isOk response.status then .body members
    else if isPublicErrorEnvelope members then .publicApiError response.status members
    else .protocolResponseError
  | _ => .protocolResponseError

end Parsing

section Reading

variable {r : JsonReader} {members payload : Payload} {status : ℕ} {response : Backend.Response}
  {code : String} {entry : Backend.ErrorEntry} {fields : List Backend.FieldError}

theorem foldl_setMember {done : Payload} (h : ((done ++ members).map (·.1)).Nodup) :
    members.foldl setMember done = done ++ members := by
  induction members generalizing done with
  | nil => rw [List.foldl_nil, List.append_nil]
  | cons m members ih =>
    have hstep : setMember done m = done ++ [m] := by
      unfold setMember
      rw [if_neg]
      intro hany
      obtain ⟨m', hm', hname⟩ := List.any_eq_true.mp hany
      rw [List.map_append, List.map_cons] at h
      exact (List.nodup_append.mp h).2.2 m'.1 (List.mem_map_of_mem hm') m.1 List.mem_cons_self
        (of_decide_eq_true hname)
    rw [List.foldl_cons, hstep, ih]
    · rw [List.append_assoc, List.singleton_append]
    · rwa [List.append_assoc, List.singleton_append]

/-- The client reads what `json_response` has written. -/
theorem json_of_jsonResponse (hsafe : Every SafeInteger List.Nodup (.object payload))
    (h : Backend.jsonResponse payload status = some response) :
    response.status = status ∧ r.json response.body = some (.object payload) := by
  obtain ⟨t, ht, hscalar, rfl⟩ := Backend.jsonResponse_eq_some.mp h
  refine ⟨rfl, ?_⟩
  have htexts := (scalarText_write _ ht).mp hscalar
  have hpasses : Passes r.hooks t.length (.object payload) := by
    refine hsafe.passes (fun n hn => ?_) (fun members hnames => ?_)
      (fun s hs => unpaired_of_scalarText (htexts s hs)) ht
    · change Except.ok (r.parseInt (integerLiteral n)) = _
      unfold JsonReader.parseInt
      rw [intValue_integerLiteral, if_pos ⟨hn, rfl⟩]
    · exact congrArg Except.ok (foldl_setMember hnames)
  have hhead : ¬ t.head?.any (·.val = 0xfeff) = true := by
    obtain ⟨parts, -, rfl⟩ := Option.map_eq_some_iff.mp ht
    exact Bool.false_ne_true
  unfold JsonReader.json
  rw [Format.Utf8.decode_encode hscalar, Option.getD_some]
  simp only
  rw [if_neg hhead, JsonReader.parse, loads_write escapes_dumps hpasses ht]
  rfl

theorem isPublicErrorEnvelope_errorPayload :
    isPublicErrorEnvelope (Backend.errorPayload code entry fields) = true := by
  unfold Backend.errorPayload Backend.errorMembers
  by_cases h : fields = []
  · rw [if_pos h]
    rfl
  · rw [if_neg h]
    rfl

theorem parseJsonResponse_payload (hsafe : Every SafeInteger List.Nodup (.object payload))
    (hstatus : 200 ≤ status ∧ status ≤ 299)
    (h : Backend.jsonResponse payload status = some response) :
    parseJsonResponse r response = .body payload := by
  obtain ⟨hresponse, hjson⟩ := json_of_jsonResponse (r := r) hsafe h
  unfold parseJsonResponse
  rw [hjson, hresponse]
  simp only [isOk, hstatus, decide_true, Bool.and_self, if_true]

theorem parseJsonResponse_error (hstatus : 400 ≤ status)
    (h : Backend.jsonResponse (Backend.errorPayload code entry fields) status = some response) :
    parseJsonResponse r response =
      .publicApiError status (Backend.errorPayload code entry fields) := by
  obtain ⟨hresponse, hjson⟩ := json_of_jsonResponse (r := r) Backend.every_errorPayload h
  have hok : isOk status = false := by
    unfold isOk
    rw [Bool.and_eq_false_iff]
    exact .inr (decide_eq_false (by omega))
  unfold parseJsonResponse
  rw [hjson, hresponse]
  simp only [hok, isPublicErrorEnvelope_errorPayload, if_true]
  rfl

end Reading

section Answers

open Backend (ResponseProjection Failure)

/-- What the client is to receive of what a route ends in. -/
inductive Conveys : Except Failure ResponseProjection → Received → Prop where
  | body (status : ℕ) (members : Payload) : (∀ t ∈ (Json.object members).texts, ScalarText t) →
      Conveys (.ok (.payload status members)) (.body members)
  /-- Half a surrogate pair cannot be sent. -/
  | unsendable (status : ℕ) (members : Payload) (entry : Backend.ErrorEntry) :
      (∃ t ∈ (Json.object members).texts, ¬ ScalarText t) →
      Backend.errors.lookup "internal_error" = some entry →
      Conveys (.ok (.payload status members))
        (.publicApiError entry.status (Backend.errorPayload "internal_error" entry []))
  | error (status : ℕ) (code : String) (entry : Backend.ErrorEntry)
      (fields : List Backend.FieldError) : Backend.errors.lookup code = some entry →
      entry.status = status → (code = "validation_failed" ↔ fields ≠ []) →
      Conveys (.ok (.error status code fields))
        (.publicApiError status (Backend.errorPayload code entry fields))
  /-- Exactly the failures after which nobody knows the outcome are reported so. -/
  | failure (f : Failure) (entry : Backend.ErrorEntry) :
      Backend.errors.lookup f.code = some entry → entry.retryable = f.retryable →
      entry.outcomeUnknown = f.outcomeUnknown → f.code ≠ "validation_failed" →
      Conveys (.error f) (.publicApiError entry.status (f.payload entry))

variable {r : JsonReader} {py : Interpreter} {codecName : Text → Option Text} {strftime : ℤ → Text}
  {zoneInfo : Backend.ZoneInfo} {services : Backend.Services} {routed : Backend.Routed}

theorem respond_error {f : Failure}
    (h : Backend.project py codecName strftime zoneInfo services routed = .error f) :
    Backend.respond py codecName strftime zoneInfo services routed =
      (Backend.handler f).or Backend.unexpectedError := by
  unfold Backend.respond
  rw [h]
  rfl

theorem respond_ok {p : ResponseProjection}
    (h : Backend.project py codecName strftime zoneInfo services routed = .ok p) :
    Backend.respond py codecName strftime zoneInfo services routed =
      ((Backend.projectionResponse p).or Backend.unexpectedError) := by
  unfold Backend.respond
  rw [h]
  cases hp : Backend.projectionResponse p with
  | none =>
    rw [Option.none_or]
    simp only [bind_ok, hp, Backend.raising]
    rw [show Backend.handler .unexpected = Backend.unexpectedError from rfl, Option.or_self]
  | some response =>
    rw [Option.some_or]
    simp only [bind_ok, hp, Backend.raising]

/-- The response arrives as `received`. -/
def Arrives (r : JsonReader) (response : Option Backend.Response) (received : Received) : Prop :=
  response.map (parseJsonResponse r) = some received

theorem arrives_payload {status : ℕ} {members : Payload} {p : ResponseProjection}
    (hp : p = .payload status members) (hwell : p.WellFormed)
    (hsafe : ∀ n ∈ (Json.object members).integers, SafeInteger n) :
    ∃ received, Conveys (.ok p) received ∧
      Arrives r ((Backend.projectionResponse p).or Backend.unexpectedError) received := by
  obtain ⟨_, _, hstatus, hdistinct⟩ | _ := hwell
  · cases hp
    by_cases htexts : ∀ t ∈ (Json.object members).texts, ScalarText t
    · obtain ⟨response, hresponse⟩ := (Backend.exists_jsonResponse_iff hdistinct).mpr htexts
      refine ⟨_, .body status members htexts, ?_⟩
      rw [Arrives, Backend.projectionResponse, hresponse, Option.some_or, Option.map_some,
        parseJsonResponse_payload (hdistinct.of_integers hsafe) hstatus hresponse]
    · obtain ⟨entry, response, hentry, hunexpected, hresponse⟩ := Backend.exists_unexpectedError
      have hnone : Backend.jsonResponse members status = none :=
        Option.eq_none_iff_forall_ne_some.mpr fun response h =>
          htexts ((Backend.exists_jsonResponse_iff hdistinct).mp ⟨response, h⟩)
      push Not at htexts
      refine ⟨_, .unsendable status members entry htexts hentry, ?_⟩
      rw [Arrives, Backend.projectionResponse, hnone, Option.none_or, hunexpected, Option.map_some,
        parseJsonResponse_error (Backend.status_of_lookup hentry) hresponse]
  · cases hp

theorem arrives_error {status : ℕ} {code : String} {fields : List Backend.FieldError}
    {p : ResponseProjection} (hp : p = .error status code fields) (hwell : p.WellFormed) :
    ∃ received, Conveys (.ok p) received ∧
      Arrives r ((Backend.projectionResponse p).or Backend.unexpectedError) received := by
  obtain _ | ⟨_, _, entry, _, hentry, hstatus, hfields⟩ := hwell
  · cases hp
  · cases hp
    obtain ⟨response, hresponse⟩ := Backend.exists_errorJson code entry fields status
    refine ⟨_, .error status code entry fields hentry hstatus hfields, ?_⟩
    rw [Arrives, Backend.projectionResponse, Backend.errorResponse_eq hentry hstatus hfields.mpr,
      hresponse, Option.some_or, Option.map_some,
      parseJsonResponse_error (hstatus ▸ Backend.status_of_lookup hentry) hresponse]

theorem arrives_failure {f : Failure} (hf : f.Foreseen) : ∃ received, Conveys (.error f) received ∧
    Arrives r ((Backend.handler f).or Backend.unexpectedError) received := by
  obtain ⟨entry, hentry, hretryable, hunknown, hcode, hhandler⟩ := Backend.handled_of_foreseen hf
  obtain ⟨response, hresponse⟩ :=
    Backend.exists_errorJson f.code { entry with message := f.message entry } [] entry.status
  refine ⟨_, .failure f entry hentry hretryable hunknown hcode, ?_⟩
  rw [Arrives, hhandler, Failure.payload, hresponse, Option.some_or, Option.map_some,
    parseJsonResponse_error (Backend.status_of_lookup hentry) hresponse]

/-- Every response arrives as what its route ended in. -/
theorem arrives_respond
    (hsafe : ∀ status members,
      Backend.project py codecName strftime zoneInfo services routed =
        .ok (.payload status members) → ∀ n ∈ (Json.object members).integers, SafeInteger n) :
    ∃ received, Conveys (Backend.project py codecName strftime zoneInfo services routed) received ∧
      Arrives r (Backend.respond py codecName strftime zoneInfo services routed) received := by
  have hprojected := Backend.projected_project py codecName strftime zoneInfo services routed
  cases hproject : Backend.project py codecName strftime zoneInfo services routed with
  | ok p =>
    rw [hproject] at hprojected
    obtain ⟨_, hwell⟩ | _ := hprojected
    rw [respond_ok hproject]
    cases hp : p with
    | payload status members => exact hp ▸ arrives_payload hp hwell (hsafe status members (hp ▸ hproject))
    | error status code fields => exact hp ▸ arrives_error hp hwell
  | error f =>
    rw [hproject] at hprojected
    obtain _ | ⟨_, hf⟩ := hprojected
    rw [respond_error hproject]
    exact arrives_failure hf

/-- No response is taken for an invalid one: the client receives the payload that the route has
made, or the error that the failure stands for, and learns that the outcome is unknown exactly if
it is. -/
theorem responses_understood (r : JsonReader) (py : Interpreter)
    (codecName : Text → Option Text) (strftime : ℤ → Text) (zoneInfo : Backend.ZoneInfo)
    (services : Backend.Services) (routed : Backend.Routed)
    (hsafe : ∀ status members,
      Backend.project py codecName strftime zoneInfo services routed =
        .ok (.payload status members) → ∀ n ∈ (Json.object members).integers, SafeInteger n) :
    ∃ response, Backend.respond py codecName strftime zoneInfo services routed = some response ∧
      Conveys (Backend.project py codecName strftime zoneInfo services routed)
        (parseJsonResponse r response) := by
  obtain ⟨received, hconveys, harrives⟩ := arrives_respond (r := r) hsafe
  obtain ⟨response, hresponse, rfl⟩ := Option.map_eq_some_iff.mp harrives
  exact ⟨response, hresponse, hconveys⟩

/-- Mondays only. -/
def mondays : Backend.ReservationContextResult where
  restaurantTimezone := text "America/New_York"
  weekdayHours := [⟨1, Time.minutes 1020, Time.minutes 1380⟩]
  startIntervalMinutes := 30
  reservationDurationMinutes := 90
  advanceWindowDays := 60
  sameDayLeadMinutes := 60
  minimumLocalDate := 20708
  maximumLocalDate := 20768
  maximumPartySize := 120

/-- Services of which only the context is available. -/
def contextOnly : Backend.Services where
  getContext := .ok mondays
  getAvailability _ := .error .reservationServiceUnavailable
  lookup _ := .error .newsletterStatusIndeterminate
  setPreference _ := .error (.temporaryFailure 1 false)
  book _ := .error (.outcomeUnknown 3 true)

/-- No body, under the default of `MAX_CONTENT_LENGTH`. -/
def emptyBody : Backend.Content := ⟨none, 16384, []⟩

/-- The context of reservations arrives as it was serialized. -/
theorem responses_understood_mondays : ∃ response members,
    Backend.serializeReservationContext mondays = .payload 200 members ∧
    Backend.respond .ascii (fun _ => none) (fun _ => []) (fun _ => none) contextOnly
      (.reservationContext [] emptyBody) = some response ∧
    parseJsonResponse ⟨fun _ => [], fun _ => .null⟩ response = .body members := by
  have hproject : Backend.project .ascii (fun _ => none) (fun _ => []) (fun _ => none) contextOnly
      (.reservationContext [] emptyBody) = .ok (Backend.serializeReservationContext mondays) := rfl
  have hscalar : ∀ p, p = Backend.serializeReservationContext mondays → ∀ status members,
      p = .payload status members → (∀ n ∈ (Json.object members).integers, SafeInteger n) ∧
        ∀ t ∈ (Json.object members).texts, ScalarText t := by
    rintro _ rfl _ _ ⟨⟩
    decide +kernel
  obtain ⟨response, hresponse, hconveys⟩ := responses_understood ⟨fun _ => [], fun _ => .null⟩
    .ascii (fun _ => none) (fun _ => []) (fun _ => none) contextOnly (.reservationContext [] emptyBody)
    fun status members h => (hscalar _ rfl status members (Except.ok.inj (hproject.symm.trans h))).1
  rw [hproject] at hconveys
  refine ⟨response, _, rfl, hresponse, ?_⟩
  generalize parseJsonResponse _ response = received at hconveys
  rcases hconveys with _ | ⟨_, _, _, hunsendable⟩
  · rfl
  · obtain ⟨t, ht, hhalf⟩ := hunsendable
    exact absurd ((hscalar _ rfl _ _ rfl).2 t ht) hhalf

end Answers

end CafeFausse.Frontend
