import CafeFausse.Backend.ReadGateways
import CafeFausse.Routines.Offers

/-! # The two reads

`get_context` and `get_availability` from the rows of the database to their answer: the
queries, what the driver can present of their values, and the checks.
-/

namespace CafeFausse.Backend

open Python Time Database

/-- `translate_read_exception` of an error of the database. -/
def translateRead : SqlError → ReadError
  | .serializationFailure => .databaseUnavailable
  | _ => .databaseContractError

section Driver

/-- A value that Python can represent, or a `DataError`, which carries no SQLSTATE. -/
def load (p : Prop) [Decidable p] (value : Value) : Except ReadError Value :=
  if p then .ok value else .error .databaseContractError

/-- A `date`. -/
def loadDate (d : ℤ) : Except ReadError Value := load (DateFits d) (.date d)

/-- A `time`; there is none for midnight at the end of the day. -/
def loadTime (t : TimeOfDay) : Except ReadError Value := load (t.val < day) (.time t)

/-- A `datetime` without time zone. -/
def loadTimestamp (l : ℤ) : Except ReadError Value := load (DatetimeFits l) (.datetime l)

/-- An instant as a `datetime` in the time zone of the session, where that has one. -/
def loadInstant (fits : ℤ → Bool) (t : ℤ) : Except ReadError Value := load (fits t = true) (.instant t)

/-- `NULL` is `None`. -/
def nullable {α : Type} (load : α → Except ReadError Value) : Option α → Except ReadError Value
  | none => .ok .none
  | some a => load a

end Driver

section Context

variable (env : Environment) (zoneInfo : ZoneInfo) (db : Database) (now : ℤ)

/-- A row of `_CONTEXT_SELECT`. -/
def contextRow (c : ReservationConfiguration) : Except ReadError (List Value) :=
  match env.timezones c.restaurantTimezone with
  | none => .error (translateRead .invalidParameterValue)
  | some zone => do
    let today := Time.date (zone.toLocal now)
    let minimum ← loadDate today
    let maximum ← loadDate (today + c.advanceBookingWindowDays)
    let capacity ← nullable (fun n => .ok (.integer n)) db.totalCapacity
    return [.integer c.startIntervalMinutes, .integer c.reservationDurationMinutes,
      .integer c.advanceBookingWindowDays, .integer c.sameDayLeadMinutes,
      .string c.restaurantTimezone, minimum, maximum, .integer db.restaurantTables.length, capacity,
      .integer (db.restaurantTables.filter (·.seatingCapacity ≤ 0)).length]

/-- A row of `_HOURS_SELECT`. -/
def hoursRow (h : RestaurantOperatingHours) : Except ReadError (List Value) := do
  let opensAt ← loadTime h.opensAt
  let closesAt ← loadTime h.closesAt
  return [.integer h.weekday, opensAt, closesAt]

/-- `ReservationContextGateway.get_context` on a snapshot. -/
def getContext : Except ReadError ReservationContextResult := do
  let configurations ←
    (db.reservationConfiguration.filter (·.configurationId = 1)).mapM (contextRow env db now)
  let hours ← (Sql.orderBy (·.weekday) db.restaurantOperatingHours).mapM hoursRow
  decodeContext zoneInfo configurations hours

end Context

section Availability

def outcomeText : AvailabilityOutcome → Text
  | .slots => text "slots"
  | .invalidRequest => text "invalid_request"
  | .invalidDatabaseConfiguration => text "invalid_database_configuration"

def detailText : AvailabilityDetail → Text
  | .incompleteFoundationPopulation => text "incomplete_foundation_population"
  | .invalidTimezone => text "invalid_timezone"
  | .dateOrPartySizeOutOfRange => text "date_or_party_size_out_of_range"

/-- A row of `_AVAILABILITY_SELECT`. -/
def availabilityRow (fits : ℤ → Bool) (row : AvailabilityRow) : Except ReadError (List Value) := do
  let detail ← nullable (fun d => .ok (.string (detailText d))) row.detailCode
  let localStart ← nullable loadTimestamp row.localStart
  let startsAt ← nullable (loadInstant fits) row.startsAt
  let endsAt ← nullable (loadInstant fits) row.endsAt
  let available ← nullable (fun b => .ok (.boolean b)) row.available
  return [.string (outcomeText row.outcome), detail, localStart, startsAt, endsAt, available]

/-- `ReservationAvailabilityGateway.get_availability` on a snapshot. -/
def getAvailability (env : Environment) (session : Zone) (zoneInfo : ZoneInfo) (fits : ℤ → Bool)
    (db : Database) (request : AvailabilityRequest) (now : ℤ) :
    Except ReadError AvailabilityResult := do
  let timezoneRows := (db.reservationConfiguration.filter (·.configurationId = 1)).map
    fun c => [Value.string c.restaurantTimezone]
  match provisionalAvailability env db (some request.localDate) (some request.partySize) now with
  | .error e => .error (translateRead e)
  | .ok rows =>
    let rows ← rows.mapM (availabilityRow fits)
    decodeAvailability session zoneInfo request timezoneRows rows

end Availability

end CafeFausse.Backend
