import CafeFausse.Backend.Validation
import CafeFausse.Python.Datetimes
import CafeFausse.Routines.Availability

/-! # The read gateways

What the driver makes of the rows of a query, and the checks that `get_context` and
`get_availability` make of it before they answer. Measured times are left out.
-/

namespace CafeFausse.Backend

open Python Time

/-- A value that the driver hands over. A `datetime` with a time zone is an instant, in the zone
of the session. -/
inductive Value where
  | none
  | integer (n : ℤ)
  | boolean (b : Bool)
  | string (t : Text)
  | date (d : ℤ)
  | time (t : ℤ)
  | datetime (l : ℤ)
  | instant (t : ℤ)
  deriving DecidableEq

/-- What leaves a read gateway instead of a result. An `OverflowError` is not translated. -/
inductive ReadError where
  | databaseContractError
  | databaseUnavailable
  | overflowError
  deriving DecidableEq

/-- `raise ValueError()` within the checks. -/
def contractUnless (p : Prop) [Decidable p] : Except ReadError Unit :=
  if p then .ok () else .error .databaseContractError

/-- The time zone database of the interpreter. -/
abbrev ZoneInfo := Text → Option Zone

/-- `ZoneInfo(name)`. -/
def ZoneInfo.find (zoneInfo : ZoneInfo) (name : Text) : Except ReadError Zone :=
  match zoneInfo name with
  | some zone => .ok zone
  | .none => .error .databaseContractError

/-- `starts_at.astimezone(zone).replace(tzinfo=None)`. -/
def astimezone (zone : Zone) (t : ℤ) : Except ReadError ℤ :=
  if DatetimeFits (zone.toLocal t) then .ok (zone.toLocal t) else .error .overflowError

section Context

/-- `WeekdayHours`. -/
structure WeekdayHours where
  isoWeekday : ℤ
  opensAtLocal : ℤ
  closesAtLocal : ℤ
  deriving DecidableEq

/-- `ReservationContextResult`. -/
structure ReservationContextResult where
  restaurantTimezone : Text
  weekdayHours : List WeekdayHours
  startIntervalMinutes : ℤ
  reservationDurationMinutes : ℤ
  advanceWindowDays : ℤ
  sameDayLeadMinutes : ℤ
  minimumLocalDate : ℤ
  maximumLocalDate : ℤ
  maximumPartySize : ℤ
  deriving DecidableEq

/-- One turn of the loop over the opening hours. -/
def decodeHour (expected : ℕ) : List Value → Except ReadError WeekdayHours
  | [.integer weekday, .time opensAt, .time closesAt] => do
    contractUnless (weekday = expected ∧ opensAt % second = 0 ∧ closesAt % second = 0 ∧
      opensAt < closesAt)
    return ⟨expected, opensAt, closesAt⟩
  | _ => .error .databaseContractError

/-- `enumerate(hours, 1)`. -/
def decodeHours : ℕ → List (List Value) → Except ReadError (List WeekdayHours)
  | _, [] => .ok []
  | expected, hour :: hours => do
    let parsed ← decodeHour expected hour
    return parsed :: (← decodeHours (expected + 1) hours)

/-- The checks of `ReservationContextGateway.get_context`. -/
def decodeContext (zoneInfo : ZoneInfo) (configurations hours : List (List Value)) :
    Except ReadError ReservationContextResult := do
  contractUnless (configurations.length = 1 ∧ hours.length = 7)
  match configurations with
  | [[.integer interval, .integer duration, .integer window, .integer lead, .string timezone,
      .date minimum, .date maximum, tableCount, .integer capacity, nonpositiveCapacityCount]] =>
    contractUnless (interval ∈ [15, 30, 60] ∧ duration ∈ [60, 90, 120] ∧
      (1 ≤ window ∧ window ≤ 365) ∧ (0 ≤ lead ∧ lead ≤ 1440) ∧
      DateFits (minimum + window) ∧ maximum = minimum + window ∧ tableCount = .integer 30 ∧
      nonpositiveCapacityCount = .integer 0 ∧ 1 ≤ capacity)
    let _ ← zoneInfo.find timezone
    let parsedHours ← decodeHours 1 hours
    return {
      restaurantTimezone := timezone
      weekdayHours := parsedHours
      startIntervalMinutes := interval
      reservationDurationMinutes := duration
      advanceWindowDays := window
      sameDayLeadMinutes := lead
      minimumLocalDate := minimum
      maximumLocalDate := maximum
      maximumPartySize := capacity }
  | _ => .error .databaseContractError

end Context

section Availability

/-- `AvailabilitySlot`. -/
structure AvailabilitySlot where
  localStart : ℤ
  startsAt : ℤ
  endsAt : ℤ
  available : Bool
  deriving DecidableEq

/-- `ReservationAvailabilityResult`. -/
inductive AvailabilityResult where
  | invalidRequest (request : AvailabilityRequest)
  | slots (request : AvailabilityRequest) (restaurantTimezone : Text)
      (slots : List AvailabilitySlot)
  deriving DecidableEq

/-- One turn of the loop over the rows. The instants are in the time zone of the session, and
values of one zone are subtracted and compared by its clock. -/
def decodeSlot (session zone : Zone) (request : AvailabilityRequest) (previous : Option ℤ) :
    List Value → Except ReadError AvailabilitySlot
  | [.string outcome, .none, .datetime localStart, .instant startsAt, .instant endsAt,
      .boolean available] => do
    contractUnless (outcome = text "slots" ∧ localStart % second = 0 ∧
      session.toLocal startsAt % second = 0 ∧ session.toLocal endsAt % second = 0)
    contractUnless (Time.date localStart = request.localDate ∧
      session.toLocal endsAt - session.toLocal startsAt ∈
        [minutes 60, minutes 90, minutes 120] ∧
      ¬ previous.any fun p => session.toLocal startsAt ≤ session.toLocal p)
    let shown ← astimezone zone startsAt
    contractUnless (shown = localStart)
    return ⟨localStart, startsAt, endsAt, available⟩
  | _ => .error .databaseContractError

/-- The loop over the rows, after a slot that starts at `previous`. -/
def decodeSlots (session zone : Zone) (request : AvailabilityRequest) :
    Option ℤ → List (List Value) → Except ReadError (List AvailabilitySlot)
  | _, [] => .ok []
  | previous, row :: rows => do
    let slot ← decodeSlot session zone request previous row
    return slot :: (← decodeSlots session zone request (some slot.startsAt) rows)

/-- The checks of `ReservationAvailabilityGateway.get_availability`. -/
def decodeAvailability (session : Zone) (zoneInfo : ZoneInfo) (request : AvailabilityRequest)
    (timezoneRows rows : List (List Value)) : Except ReadError AvailabilityResult :=
  match timezoneRows with
  | [[.string timezone]] => do
    let zone ← zoneInfo.find timezone
    match rows with
    | [[.string outcome, .string detail, .none, .none, .none, .none]] =>
      contractUnless (outcome = text "invalid_request" ∧
        detail = text "date_or_party_size_out_of_range")
      return .invalidRequest request
    | _ => return .slots request timezone (← decodeSlots session zone request .none rows)
  | _ => .error .databaseContractError

end Availability

section Checks

variable {zoneInfo : ZoneInfo} {session zone : Zone} {request : AvailabilityRequest}
  {slot : AvailabilitySlot} {slots : List AvailabilitySlot} {previous : Option ℤ} {row : List Value}
  {rows : List (List Value)}

theorem contractUnless_eq_ok {p : Prop} [Decidable p] {a : Unit} :
    contractUnless p = .ok a ↔ p := by
  unfold contractUnless
  split <;> simp [*]

theorem astimezone_eq_ok {t l : ℤ} :
    astimezone zone t = .ok l ↔ DatetimeFits (zone.toLocal t) ∧ zone.toLocal t = l := by
  unfold astimezone
  split <;> simp [*]

/-- The row that a slot is read from. -/
def AvailabilitySlot.values (slot : AvailabilitySlot) : List Value :=
  [.string (text "slots"), .none, .datetime slot.localStart, .instant slot.startsAt,
    .instant slot.endsAt, .boolean slot.available]

/-- What the checks ask of both ends of a slot, on the clock of the session. -/
structure OnClock (session : Zone) (t t' : ℤ) : Prop where
  startsAt : session.toLocal t % second = 0
  endsAt : session.toLocal t' % second = 0
  duration : session.toLocal t' - session.toLocal t ∈ [minutes 60, minutes 90, minutes 120]

/-- On the clock of the session `t` is before `t'`. -/
def Before (session : Zone) (t t' : ℤ) : Prop := session.toLocal t < session.toLocal t'

/-- What the checks ask of a slot by itself. -/
structure AvailabilitySlot.Valid (session zone : Zone) (request : AvailabilityRequest)
    (slot : AvailabilitySlot) : Prop where
  localStart : slot.localStart % second = 0
  clock : OnClock session slot.startsAt slot.endsAt
  date : Time.date slot.localStart = request.localDate
  fits : DatetimeFits slot.localStart
  shown : zone.toLocal slot.startsAt = slot.localStart

theorem decodeSlot_eq_ok : decodeSlot session zone request previous row = .ok slot ↔
    row = slot.values ∧ slot.Valid session zone request ∧
      ∀ p ∈ previous, Before session p slot.startsAt := by
  constructor
  · intro h
    unfold decodeSlot at h
    split at h
    · obtain ⟨_, hfirst, h⟩ := bind_eq_ok.mp h
      obtain ⟨_, hplace, h⟩ := bind_eq_ok.mp h
      obtain ⟨l, hshown, h⟩ := bind_eq_ok.mp h
      obtain ⟨_, hlocal, hslot⟩ := bind_eq_ok.mp h
      obtain ⟨houtcome, hwhole⟩ := contractUnless_eq_ok.mp hfirst
      obtain ⟨hdate, hduration, hprevious⟩ := contractUnless_eq_ok.mp hplace
      obtain ⟨hfits, hshows⟩ := astimezone_eq_ok.mp hshown
      have hl := contractUnless_eq_ok.mp hlocal
      cases hslot
      subst houtcome hl
      refine ⟨rfl, ⟨hwhole.1, ⟨hwhole.2.1, hwhole.2.2, hduration⟩, hdate, hshows ▸ hfits, hshows⟩, ?_⟩
      rintro p hp
      cases hp
      simpa [Before] using hprevious
    · cases h
  · rintro ⟨rfl, h, hprevious⟩
    have hbefore :
        ¬ previous.any fun p => session.toLocal slot.startsAt ≤ session.toLocal p := by
      cases previous with
      | none => simp
      | some p => simpa [Before] using hprevious p rfl
    unfold decodeSlot AvailabilitySlot.values
    simp only
    rw [contractUnless, if_pos ⟨trivial, h.localStart, h.clock.startsAt, h.clock.endsAt⟩, bind_ok,
      contractUnless, if_pos ⟨h.date, h.clock.duration, hbefore⟩, bind_ok,
      astimezone_eq_ok.mpr ⟨h.shown ▸ h.fits, h.shown⟩, bind_ok, contractUnless, if_pos rfl, bind_ok]
    rfl

/-- The loop takes the rows of valid slots with ascending starts, and no others. -/
theorem decodeSlots_eq_ok : decodeSlots session zone request previous rows = .ok slots ↔
    rows = slots.map AvailabilitySlot.values ∧ (∀ slot ∈ slots, slot.Valid session zone request) ∧
      (∀ p ∈ previous, ∀ slot ∈ slots, Before session p slot.startsAt) ∧
      slots.Pairwise (fun a b => Before session a.startsAt b.startsAt) := by
  induction rows generalizing previous slots with
  | nil =>
    constructor
    · rintro ⟨⟩
      simp
    · rintro ⟨hrows, -⟩
      obtain rfl := List.map_eq_nil_iff.mp hrows.symm
      rfl
  | cons row rows ih =>
    constructor
    · intro h
      obtain ⟨slot, hslot, h⟩ := bind_eq_ok.mp h
      obtain ⟨rest, hrest, h⟩ := bind_eq_ok.mp h
      cases h
      obtain ⟨rfl, hvalid, hprevious⟩ := decodeSlot_eq_ok.mp hslot
      obtain ⟨rfl, hvalids, hafter, hsorted⟩ := ih.mp hrest
      refine ⟨rfl, List.forall_mem_cons.mpr ⟨hvalid, hvalids⟩, fun p hp => ?_,
        List.pairwise_cons.mpr ⟨hafter _ rfl, hsorted⟩⟩
      refine List.forall_mem_cons.mpr ⟨hprevious p hp, fun s hs => ?_⟩
      exact lt_trans (hprevious p hp) (hafter _ rfl s hs)
    · rintro ⟨hrows, hvalid, hprevious, hsorted⟩
      cases slots with
      | nil => cases hrows
      | cons slot slots =>
        rw [List.map_cons, List.cons_eq_cons] at hrows
        obtain ⟨rfl, hrows⟩ := hrows
        obtain ⟨hslot, hslots⟩ := List.forall_mem_cons.mp hvalid
        obtain ⟨hafter, hsorted⟩ := List.pairwise_cons.mp hsorted
        have hhead := decodeSlot_eq_ok.mpr
          ⟨rfl, hslot, fun p hp => hprevious p hp slot List.mem_cons_self⟩
        have hrest := ih.mpr ⟨hrows, hslots, fun p (hp : p ∈ some slot.startsAt) => by
          cases hp
          exact hafter, hsorted⟩
        rw [decodeSlots, hhead, bind_ok, hrest, bind_ok]
        rfl

theorem find_eq_ok {name : Text} : zoneInfo.find name = .ok zone ↔ zoneInfo name = some zone := by
  unfold ZoneInfo.find
  split <;> simp_all

/-- The slots of an answer are valid in the zone that it names. -/
theorem slots_of_decodeAvailability {timezoneRows : List (List Value)} {timezone : Text}
    (h : decodeAvailability session zoneInfo request timezoneRows rows =
      .ok (.slots request timezone slots)) :
    ∃ zone, zoneInfo timezone = some zone ∧ ∀ slot ∈ slots, slot.Valid session zone request := by
  unfold decodeAvailability at h
  split at h
  · obtain ⟨zone, hzone, h⟩ := bind_eq_ok.mp h
    split at h
    · obtain ⟨_, _, hresult⟩ := bind_eq_ok.mp h
      cases hresult
    · obtain ⟨slots', hslots, hresult⟩ := bind_eq_ok.mp h
      cases hresult
      exact ⟨zone, find_eq_ok.mp hzone, (decodeSlots_eq_ok.mp hslots).2.1⟩
  · cases h

end Checks

end CafeFausse.Backend
