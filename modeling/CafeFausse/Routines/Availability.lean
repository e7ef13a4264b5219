import CafeFausse.Database.Routine

/-! # Provisional availability

`provisional_availability` walks the day from opening in steps of the configured
interval and lists each start that the local time determines, with the seats of the
tables no reservation meets. It changes nothing and reads one snapshot.
-/

namespace CafeFausse

namespace Database

/-- Some reservation assigned to the table overlaps the interval. -/
def Occupied (db : Database) (tableNumber startsAt endsAt : ℤ) : Prop :=
  ∃ a ∈ db.reservationTableAssignments, a.tableNumber = tableNumber ∧
    ∃ r ∈ db.reservations, r.reservationId = a.reservationId ∧
      Overlap r.startsAt r.endsAt startsAt endsAt

instance (db : Database) (tableNumber startsAt endsAt : ℤ) :
    Decidable (db.Occupied tableNumber startsAt endsAt) := by
  unfold Occupied; infer_instance

/-- The tables free over the whole interval, by number. -/
def freeTables (db : Database) (startsAt endsAt : ℤ) : List RestaurantTable :=
  Sql.orderBy (·.tableNumber)
    (db.restaurantTables.filter fun t => ¬ db.Occupied t.tableNumber startsAt endsAt)

/-- `SELECT sum(seating_capacity)`. -/
def totalCapacity (db : Database) : Option ℤ := Sql.sum (db.restaurantTables.map (·.seatingCapacity))

/-- The weekdays of the opening hours, in order. -/
def weekdays (db : Database) : List ℤ :=
  Sql.orderBy id (db.restaurantOperatingHours.map (·.weekday))

end Database

inductive AvailabilityOutcome where
  | slots
  | invalidRequest
  | invalidDatabaseConfiguration
  deriving DecidableEq

inductive AvailabilityDetail where
  | incompleteFoundationPopulation
  | invalidTimezone
  | dateOrPartySizeOutOfRange
  deriving DecidableEq

structure AvailabilityRow where
  outcome : AvailabilityOutcome
  detailCode : Option AvailabilityDetail := none
  localStart : Option ℤ := none
  startsAt : Option ℤ := none
  endsAt : Option ℤ := none
  available : Option Bool := none
  deriving DecidableEq

theorem ReservationConfiguration.startInterval_pos (c : ReservationConfiguration) :
    0 < Time.minutes c.startIntervalMinutes := by
  have := c.interval_ck
  simp only [List.mem_cons, List.not_mem_nil, or_false, Time.minutes] at this ⊢
  omega

/-- The values `slot_local` takes in the loop. -/
def slotLocals (interval duration closing : ℤ) (h : 0 < interval) (slotLocal : ℤ) : List ℤ :=
  if slotLocal + duration ≤ closing then
    slotLocal :: slotLocals interval duration closing h (slotLocal + interval)
  else []
termination_by (closing + 1 - duration - slotLocal).toNat
decreasing_by omega

theorem mem_slotLocals {interval duration closing slotLocal l : ℤ} {h : 0 < interval} :
    l ∈ slotLocals interval duration closing h slotLocal ↔
      l + duration ≤ closing ∧ ∃ k : ℕ, l = slotLocal + k * interval := by
  induction slotLocal using slotLocals.induct interval duration closing h with
  | case1 slotLocal hle ih =>
    rw [slotLocals, if_pos hle, List.mem_cons, ih]
    constructor
    · rintro (rfl | ⟨hl, k, rfl⟩)
      · exact ⟨hle, 0, by simp⟩
      · exact ⟨hl, k + 1, by push_cast; ring⟩
    · rintro ⟨hl, k, rfl⟩
      cases k with
      | zero => exact .inl (by simp)
      | succ k => exact .inr ⟨hl, k, by push_cast; ring⟩
  | case2 slotLocal hgt =>
    rw [slotLocals, if_neg hgt]
    refine iff_of_false (by simp) ?_
    rintro ⟨hl, k, rfl⟩
    have : 0 ≤ (k : ℤ) * interval := mul_nonneg (by omega) h.le
    omega

/-- One turn of the loop. A local start that is skipped or repeated by the clock gives
no row. -/
def slotRow (db : Database) (configuration : ReservationConfiguration) (zone : Zone)
    (localDate partySize currentInstant slotLocal : ℤ) : Except SqlError (Option AvailabilityRow) :=
  match localTimestampCandidates slotLocal zone with
  | [(slotStart, _)] => do
    let slotEnd := slotStart + Time.minutes configuration.reservationDurationMinutes
    let freeCapacity ←
      integer ((db.freeTables slotStart slotEnd).map (·.seatingCapacity)).sum
    return some {
      outcome := .slots
      localStart := some slotLocal
      startsAt := some slotStart
      endsAt := some slotEnd
      available := some (partySize ≤ freeCapacity ∧
        (localDate ≠ Time.date (zone.toLocal currentInstant) ∨
          currentInstant + Time.minutes configuration.sameDayLeadMinutes ≤ slotStart)) }
  | _ => return none

/-- The rows of one day. -/
def dayRows (db : Database) (configuration : ReservationConfiguration) (zone : Zone)
    (hours : RestaurantOperatingHours) (localDate partySize currentInstant : ℤ) :
    Except SqlError (List AvailabilityRow) := do
  let rows ← (slotLocals (Time.minutes configuration.startIntervalMinutes)
    (Time.minutes configuration.reservationDurationMinutes)
    (localDate * Time.day + hours.closesAt) configuration.startInterval_pos
    (localDate * Time.day + hours.opensAt)).mapM
      (slotRow db configuration zone localDate partySize currentInstant)
  return rows.reduceOption

/-- The foundation rows are not what the routine needs. -/
def Database.Incomplete (db : Database) : Prop :=
  db.reservationConfiguration.length ≠ 1 ∨ db.restaurantOperatingHours.length ≠ 7 ∨
    db.weekdays ≠ [1, 2, 3, 4, 5, 6, 7] ∨ db.restaurantTables.length ≠ 30 ∨
    ∃ t ∈ db.restaurantTables, t.seatingCapacity ≤ 0

instance (db : Database) : Decidable db.Incomplete := by
  unfold Database.Incomplete; infer_instance

/-- A single row that reports no slots. -/
def noSlots (outcome : AvailabilityOutcome) (detail : AvailabilityDetail) : AvailabilityRow where
  outcome
  detailCode := some detail

/-- `provisional_availability`, evaluated at `currentInstant`. -/
def provisionalAvailability (env : Environment) (db : Database) (localDate partySize : Option ℤ)
    (currentInstant : ℤ) : Except SqlError (List AvailabilityRow) :=
  if db.Incomplete then
    .ok [noSlots .invalidDatabaseConfiguration .incompleteFoundationPopulation]
  else do
    let configuration ← strict (db.reservationConfiguration.filter (·.configurationId = 1))
    match env.timezones configuration.restaurantTimezone with
    | none => return [noSlots .invalidDatabaseConfiguration .invalidTimezone]
    | some zone =>
      let totalCapacity ← nullableInteger db.totalCapacity
      let today := Time.date (zone.toLocal currentInstant)
      match localDate, partySize with
      | some localDate, some partySize =>
        if localDate < today ∨ today + configuration.advanceBookingWindowDays < localDate ∨
            partySize < 1 ∨ Sql.less totalCapacity partySize = some true then
          return [noSlots .invalidRequest .dateOrPartySizeOutOfRange]
        else
          let hours ← strict
            (db.restaurantOperatingHours.filter (·.weekday = Time.isodow localDate))
          dayRows db configuration zone hours localDate partySize currentInstant
      | _, _ => return [noSlots .invalidRequest .dateOrPartySizeOutOfRange]

end CafeFausse
