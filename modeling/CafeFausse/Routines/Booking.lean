import CafeFausse.Routines.Allocation
import CafeFausse.Routines.Availability

/-! # The authoritative booking

`book_reservation_core`, cut where the source has its sections: the input check, the
foundation under the restaurant lock, the local start, the current policy, and the
block that resolves the customer under the e-mail lock, looks for an exact retry,
allocates and writes. Row locks and session settings leave no trace here.
-/

namespace CafeFausse

open Transaction Program

/-- The values of `p_newsletter_action`. -/
inductive NewsletterAction where
  | subscribe
  | unsubscribe
  | noChange
  | unrecognized
  deriving DecidableEq

/-- The parameters of `book_reservation`, any of which may be null. -/
structure BookingArguments where
  firstName : Option Text
  middleInitial : Option Text
  lastName : Option Text
  email : Option Text
  phone : Option Text
  localStart : Option Timestamp
  utcOffsetMinutes : Option ℤ
  partySize : Option ℤ
  newsletterAction : Option NewsletterAction
  deriving DecidableEq

/-- The parameters once the input check has passed. -/
structure BookingRequest where
  firstName : Text
  middleInitial : Option Text
  lastName : Text
  email : Text
  phone : Option Text
  localStart : Timestamp
  utcOffsetMinutes : ℤ
  partySize : ℤ
  newsletterAction : NewsletterAction
  deriving DecidableEq

/-- The isolation level of the calling transaction. -/
inductive IsolationLevel where
  | readCommitted
  | repeatableRead
  | serializable
  deriving DecidableEq

/-- What a call reads besides the database: both clock readings and the random draw. -/
structure Readings where
  first : ℤ
  second : ℤ
  random : Random

/-- A row that reports no reservation. -/
def refusal (outcome : Outcome) (detail : Detail) : BookingRow where
  outcome
  detailCode := some detail

section Stages

variable (env : Environment)

/-- The parameters, if none of the required ones is null. -/
def BookingArguments.request (p : BookingArguments) : Option BookingRequest := do
  let firstName ← p.firstName
  let lastName ← p.lastName
  let email ← p.email
  let localStart ← p.localStart
  let utcOffsetMinutes ← p.utcOffsetMinutes
  let partySize ← p.partySize
  let newsletterAction ← p.newsletterAction
  return { firstName, middleInitial := p.middleInitial, lastName, email, phone := p.phone,
           localStart, utcOffsetMinutes, partySize, newsletterAction }

/-- What the input check asks of parameters that are not null. -/
structure BookingRequest.Valid (ct : CharacterType) (request : BookingRequest) : Prop where
  newsletterAction : request.newsletterAction ≠ .unrecognized
  firstName : NameCheck ct request.firstName
  lastName : NameCheck ct request.lastName
  email : request.email ≠ [] ∧ request.email = request.email.btrim ∧
    request.email = ct.lowerText request.email ∧ request.email.length ≤ 254
  middleInitial : ∀ i ∈ request.middleInitial, MiddleInitialCheck ct i
  phone : ∀ n ∈ request.phone, PhoneCheck n

instance (ct : CharacterType) (request : BookingRequest) : Decidable (request.Valid ct) :=
  decidable_of_iff (request.newsletterAction ≠ .unrecognized ∧ NameCheck ct request.firstName ∧
      NameCheck ct request.lastName ∧ (request.email ≠ [] ∧ request.email = request.email.btrim ∧
        request.email = ct.lowerText request.email ∧ request.email.length ≤ 254) ∧
      (∀ i ∈ request.middleInitial, MiddleInitialCheck ct i) ∧ ∀ n ∈ request.phone, PhoneCheck n)
    ⟨fun ⟨a, b, c, d, e, f⟩ => ⟨a, b, c, d, e, f⟩, fun ⟨a, b, c, d, e, f⟩ => ⟨a, b, c, d, e, f⟩⟩

/-- The check of the normalized input. -/
def normalizedInput (ct : CharacterType) (p : BookingArguments) (stage : Option FailureStage) :
    Option BookingRequest :=
  p.request.filter fun request => request.Valid ct ∧ stage ≠ some .unrecognized

/-- What is read under the restaurant lock. -/
structure Foundation where
  configuration : ReservationConfiguration
  totalCapacity : Option ℤ
  zone : Zone

/-- The check of the locked tables. Without any table their array is null, its
cardinality too, and the check does not reject it. -/
def badTablePopulation (tables : List RestaurantTable) : Option Bool :=
  let cardinality := (Sql.arrayAgg (tables.map (·.tableNumber))).map List.length
  Sql.or (cardinality.map fun n => decide (n ≠ 30))
    (some (decide (∃ t ∈ tables, t.seatingCapacity ≤ 0)))

/-- The reads under the restaurant lock and the checks of the foundation rows. -/
def lockFoundation : Routine Foundation := do
  let invalid (detail : Detail) : Routine Foundation :=
    .ret (.booking (refusal .invalidDatabaseConfiguration detail))
  let count ← query fun db => db.reservationConfiguration.length
  if count ≠ 1 then invalid .configurationRowCount else
  let rows ← query fun db => db.reservationConfiguration.filter (·.configurationId = 1)
  let configuration ← liftExcept (strict rows)
  let complete ← query fun db =>
    decide (db.restaurantOperatingHours.length = 7 ∧ db.weekdays = [1, 2, 3, 4, 5, 6, 7])
  if ¬ complete then invalid .operatingHoursPopulation else
  let tables ← query fun db => Sql.orderBy (·.tableNumber) db.restaurantTables
  let totalCapacity ← liftExcept (nullableInteger (Sql.sum (tables.map (·.seatingCapacity))))
  if badTablePopulation tables = some true then
    invalid .restaurantTablePopulation
  else match env.timezones configuration.restaurantTimezone with
  | none => invalid .invalidTimezone
  | some zone => return { configuration, totalCapacity, zone }

/-- The requested interval as instants. -/
structure ResolvedStart where
  localStart : ℤ
  startsAt : ℤ
  endsAt : ℤ
  deriving DecidableEq

/-- The instant of the local start, if it has one and only one, under the stated offset. -/
def resolveStart (foundation : Foundation) (request : BookingRequest) : Routine ResolvedStart :=
  let invalid (detail : Detail) : Routine ResolvedStart :=
    .ret (.booking (refusal .invalidRequest detail))
  match request.localStart with
  | .finite localStart =>
    match localTimestampCandidates localStart foundation.zone with
    | [] => invalid .nonexistentLocalStart
    | [(startsAt, offset)] =>
      if offset ≠ request.utcOffsetMinutes then invalid .utcOffsetMismatch
      else return {
        localStart
        startsAt
        endsAt := startsAt +
          Time.minutes foundation.configuration.reservationDurationMinutes }
    | _ :: _ :: _ => invalid .ambiguousLocalStart
  | _ => .raise .datetimeFieldOverflow

/-- The local date is not within the booking window that opens today. -/
def OutsideWindow (foundation : Foundation) (start : ResolvedStart) (now : ℤ) : Prop :=
  let today := Time.date (foundation.zone.toLocal now)
  Time.date start.localStart < today ∨
    today + foundation.configuration.advanceBookingWindowDays < Time.date start.localStart

/-- The start is today and too soon. -/
def ShortLead (foundation : Foundation) (start : ResolvedStart) (now : ℤ) : Prop :=
  Time.date start.localStart = Time.date (foundation.zone.toLocal now) ∧
    start.startsAt < now + Time.minutes foundation.configuration.sameDayLeadMinutes

instance (foundation : Foundation) (start : ResolvedStart) (now : ℤ) :
    Decidable (OutsideWindow foundation start now) := instDecidableOr
instance (foundation : Foundation) (start : ResolvedStart) (now : ℤ) :
    Decidable (ShortLead foundation start now) := instDecidableAnd

/-- The start is a multiple of the interval after opening, in whole seconds after
rounding. -/
def Aligned (configuration : ReservationConfiguration) (hours : RestaurantOperatingHours)
    (localStart : ℤ) : Prop :=
  let sinceOpening := localStart - (Time.date localStart * Time.day + hours.opensAt)
  (Time.round sinceOpening Time.second).tmod (configuration.startIntervalMinutes * 60) = 0

instance (configuration : ReservationConfiguration) (hours : RestaurantOperatingHours)
    (localStart : ℤ) : Decidable (Aligned configuration hours localStart) :=
  inferInstanceAs (Decidable (_ = _))

/-- The checks of the current policy, in their order. -/
def currentPolicy (foundation : Foundation) (hours : RestaurantOperatingHours)
    (start : ResolvedStart) (partySize now : ℤ) : Option (Outcome × Detail) :=
  let localEnd := foundation.zone.toLocal start.endsAt
  if OutsideWindow foundation start now then
    some (.invalidRequest, .dateOutsideBookingWindow)
  else if ShortLead foundation start now then
    some (.invalidRequest, .insufficientSameDayLead)
  else if Time.timeOfDay start.localStart < hours.opensAt then
    some (.invalidRequest, .startBeforeOpening)
  else if ¬ Aligned foundation.configuration hours start.localStart then
    some (.invalidRequest, .misalignedStart)
  else if Time.date localEnd ≠ Time.date start.localStart ∨
      hours.closesAt < Time.timeOfDay localEnd then
    some (.invalidRequest, .endAfterClosing)
  else if foundation.configuration.reservationDurationMinutes ∉ [60, 90, 120] then
    some (.invalidDatabaseConfiguration, .durationOrPartySizeOutOfRange)
  else if Sql.or (some (decide (partySize < 1)))
      (Sql.less foundation.totalCapacity partySize) = some true then
    some (.invalidRequest, .durationOrPartySizeOutOfRange)
  else none

/-- The row of a new customer. -/
def BookingRequest.newCustomer (request : BookingRequest) (customerId : ℕ) : Customer where
  customerId
  firstName := request.firstName
  middleInitial := request.middleInitial
  lastName := request.lastName
  email := request.email
  phone := request.phone
  newsletterSubscribed := false

/-- The customer of the e-mail, inserted if there is none; the flag marks a new one. -/
def resolveCustomer (request : BookingRequest) (stage : Option FailureStage) :
    Routine (Customer × Bool) := do
  match ← query (·.customerByEmail request.email) with
  | some customer => return (customer, false)
  | none =>
    let customerId ← draw .customer
    match ← attempt (Database.insertCustomer env.character (request.newCustomer customerId)) with
    | .ok customer =>
      if stage = some .afterCustomerInsert then .raise (.injectedFailure .afterCustomerInsert)
      else return (customer, true)
    | .error .uniqueViolation =>
      match ← query (·.customerByEmail request.email) with
      | some customer => return (customer, false)
      | none => .raise .uniqueViolation
    | .error e => .raise e

/-- The names differ beyond case. -/
def NamesDiffer (ct : CharacterType) (customer : Customer) (firstName lastName : Text) : Prop :=
  ct.lowerText customer.firstName ≠ ct.lowerText firstName ∨
    ct.lowerText customer.lastName ≠ ct.lowerText lastName

/-- Both initials are given and differ. -/
def InitialsConflict (stored given : Option Text) : Prop :=
  ∃ s ∈ stored, ∃ g ∈ given, s ≠ g

instance (ct : CharacterType) (customer : Customer) (firstName lastName : Text) :
    Decidable (NamesDiffer ct customer firstName lastName) := instDecidableOr
instance (stored given : Option Text) : Decidable (InitialsConflict stored given) := by
  unfold InitialsConflict; infer_instance

/-- The exits for an identity that does not fit the customer. -/
def checkIdentity (request : BookingRequest) (customer : Customer) : Routine Unit :=
  let conflict (outcome : Outcome) : Routine Unit :=
    .ret (.booking { outcome, newsletterSubscribed := some customer.newsletterSubscribed })
  if NamesDiffer env.character customer request.firstName request.lastName then
    conflict .customerIdentityMismatch
  else if InitialsConflict customer.middleInitial request.middleInitial then
    conflict .middleInitialConflict
  else return ()

/-- The reservation of this customer, start and party size. -/
def SameIdentity (customerId : ℕ) (startsAt partySize : ℤ) (r : Reservation) : Prop :=
  r.customerId = customerId ∧ r.startsAt = startsAt ∧ r.partySize = partySize

instance (customerId : ℕ) (startsAt partySize : ℤ) (r : Reservation) :
    Decidable (SameIdentity customerId startsAt partySize r) := instDecidableAnd

/-- Look the reservation up by fingerprint, then by its identity alone. -/
def findExisting (customerId : ℕ) (startsAt partySize : ℤ) (fingerprint : Bytes) :
    Routine (Option Reservation) := do
  let same := SameIdentity customerId startsAt partySize
  match ← query fun db => (Sql.orderBy (fun r => (r.reservationId : ℤ))
    (db.reservations.filter fun r => r.fingerprintVersion = 1 ∧
      r.reservationFingerprint = fingerprint ∧ same r)).head? with
  | some existing => return some existing
  | none => query fun db => db.reservations.find? fun r => same r

/-- The numbers of the tables assigned to a reservation, in order. -/
def Database.tableNumbersOf (db : Database) (reservationId : ℕ) : Option (List ℤ) :=
  Sql.arrayAgg (Sql.orderBy id
    ((db.reservationTableAssignments.filter (·.reservationId = reservationId)).map (·.tableNumber)))

/-- The row that repeats a stored reservation. -/
def exactRetryRow (existing : Reservation) (tables : Option (List ℤ)) (customer : Customer) :
    BookingRow where
  outcome := .exactRetry
  reservationId := some existing.reservationId
  startsAt := some existing.startsAt
  endsAt := some existing.endsAt
  partySize := some existing.partySize
  assignedTableNumbers := tables
  newsletterSubscribed := some customer.newsletterSubscribed
  fingerprintVersion := some existing.fingerprintVersion
  reservationFingerprint := some existing.reservationFingerprint

/-- Leave with the stored reservation if the request repeats it. -/
def exactRetry (request : BookingRequest) (start : ResolvedStart) (customer : Customer)
    (fingerprint : Bytes) : Routine Unit := do
  match ← findExisting customer.customerId start.startsAt request.partySize fingerprint with
  | none => return ()
  | some existing =>
    let tables ← query (·.tableNumbersOf existing.reservationId)
    .ret (.booking (exactRetryRow existing tables customer))

/-- The customer has another reservation that overlaps the interval. -/
def Database.CustomerOverlap (db : Database) (customerId : ℕ) (startsAt endsAt : ℤ) : Prop :=
  ∃ r ∈ db.reservations, r.customerId = customerId ∧ Overlap r.startsAt r.endsAt startsAt endsAt

instance (db : Database) (customerId : ℕ) (startsAt endsAt : ℤ) :
    Decidable (db.CustomerOverlap customerId startsAt endsAt) := by
  unfold Database.CustomerOverlap; infer_instance

/-- Leave if the customer is already expected elsewhere at that time. -/
def rejectOverlap (request : BookingRequest) (start : ResolvedStart) (customer : Customer)
    (fingerprint : Bytes) : Routine Unit := do
  let overlap ← query fun db =>
    decide (db.CustomerOverlap customer.customerId start.startsAt start.endsAt)
  if overlap then
    .ret (.booking {
      outcome := .sameCustomerOverlap
      startsAt := some start.startsAt
      endsAt := some start.endsAt
      partySize := some request.partySize
      newsletterSubscribed := some customer.newsletterSubscribed
      fingerprintVersion := some 1
      reservationFingerprint := some fingerprint })
  else return ()

/-- Choose the tables, then check the clock again. -/
def allocate (request : BookingRequest) (foundation : Foundation) (start : ResolvedStart)
    (fingerprint : Bytes) (tieRank : Option ℤ) (readings : Readings) : Routine Allocation := do
  let free ← query (·.freeTables start.startsAt start.endsAt)
  let allocation ← liftExcept (selectTableAllocation (free.map (·.tableNumber))
    (free.map (·.seatingCapacity)) request.partySize tieRank readings.random)
  match allocation with
  | none => .raise (.bookingAborted .unavailable .noCapacitySufficientCombination fingerprint)
  | some allocation =>
    if OutsideWindow foundation start readings.second ∨
        ShortLead foundation start readings.second then
      .raise (.bookingAborted .invalidRequest .timeBoundaryCrossedDuringBooking fingerprint)
    else return allocation

/-- `UPDATE customers … RETURNING * INTO customer`. Without a row the customer becomes
null, and a later insert fails on it. -/
def updateCustomer (customer : Customer) (change : Customer → Customer) : Routine Customer := do
  match ← execute (Database.updateCustomer env.character customer.customerId change) with
  | some customer => return customer
  | none => .raise .notNullViolation

/-- Fill in the optional fields the stored customer lacks. -/
def populateOptionalFields (request : BookingRequest) (stage : Option FailureStage)
    (customer : Customer) (isNewCustomer : Bool) : Routine Customer := do
  let populateMiddleInitial :=
    !isNewCustomer && customer.middleInitial.isNone && request.middleInitial.isSome
  let populatePhone := !isNewCustomer && customer.phone.isNone && request.phone.isSome
  if populateMiddleInitial || populatePhone then
    let customer ← updateCustomer env customer fun c => { c with
      middleInitial := if populateMiddleInitial then request.middleInitial else c.middleInitial
      phone := if populatePhone then request.phone else c.phone }
    if stage = some .afterOptionalFieldPopulation then
      .raise (.injectedFailure .afterOptionalFieldPopulation)
    else return customer
  else return customer

/-- Carry out the newsletter action. -/
def updateNewsletter (request : BookingRequest) (stage : Option FailureStage)
    (customer : Customer) : Routine Customer := do
  if request.newsletterAction ≠ .noChange then
    let customer ← updateCustomer env customer fun c => { c with
      newsletterSubscribed := decide (request.newsletterAction = .subscribe) }
    if stage = some .afterNewsletterUpdate then .raise (.injectedFailure .afterNewsletterUpdate)
    else return customer
  else return customer

/-- The CHECK constraints of `reservations`. -/
def Reservation.checked (reservationId customerId : ℕ) (startsAt endsAt partySize : ℤ)
    (fingerprint : Bytes) : Except SqlError Reservation :=
  if h : endsAt - startsAt ∈ [Time.minutes 60, Time.minutes 90, Time.minutes 120] ∧
      0 < partySize ∧ fingerprint ≠ [] then
    .ok {
      reservationId, customerId, startsAt, endsAt, partySize
      fingerprintVersion := 1
      reservationFingerprint := fingerprint
      duration_ck := h.1
      party_size_ck := h.2.1
      fingerprint_version_ck := by decide
      fingerprint_ck := h.2.2 }
  else .error .checkViolation

/-- Insert the reservation. -/
def insertReservation (request : BookingRequest) (start : ResolvedStart)
    (stage : Option FailureStage) (customerId : ℕ) (fingerprint : Bytes) : Routine ℕ := do
  let reservationId ← draw .reservation
  let row ← liftExcept (Reservation.checked reservationId customerId start.startsAt start.endsAt
    request.partySize fingerprint)
  match ← attempt (Database.insertReservation row) with
  | .error .uniqueViolation => .raise .serializationFailure
  | .error e => .raise e
  | .ok _ =>
    if stage = some .afterReservationInsert then .raise (.injectedFailure .afterReservationInsert)
    else return reservationId

/-- Insert one assignment for each selected table. -/
def insertAssignments (reservationId : ℕ) (stage : Option FailureStage) :
    List ℤ → ℕ → Routine Unit
  | [], _ => return ()
  | tableNumber :: rest, assignedCount => do
    execute (Database.insertAssignment ⟨reservationId, tableNumber⟩)
    if assignedCount + 1 = 1 ∧ stage = some .afterPartialAssignmentInsert then
      .raise (.injectedFailure .afterPartialAssignmentInsert)
    else insertAssignments reservationId stage rest (assignedCount + 1)

/-- The tables assigned to a reservation. -/
def Database.assignedTables (db : Database) (reservationId : ℕ) : List RestaurantTable :=
  (db.reservationTableAssignments.filter (·.reservationId = reservationId)).flatMap fun a =>
    db.restaurantTables.filter (·.tableNumber = a.tableNumber)

/-- What the postconditions find wrong with the written rows. -/
def Database.Violated (db : Database) (allocation : Allocation) (start : ResolvedStart)
    (customerId reservationId : ℕ) (partySize : ℤ) : Prop :=
  (∃ a ∈ db.reservationTableAssignments, a.tableNumber ∈ allocation.tableNumbers ∧
      ∃ r ∈ db.reservations, r.reservationId = a.reservationId ∧
        r.reservationId ≠ reservationId ∧
        Overlap r.startsAt r.endsAt start.startsAt start.endsAt) ∨
    (∃ r ∈ db.reservations, r.customerId = customerId ∧ r.reservationId ≠ reservationId ∧
      Overlap r.startsAt r.endsAt start.startsAt start.endsAt) ∨
    ∀ r ∈ db.reservations, r.reservationId = reservationId → r.fingerprintVersion = 1 →
      r.reservationFingerprint ≠ env.fingerprint customerId start.startsAt partySize

instance (db : Database) (allocation : Allocation) (start : ResolvedStart)
    (customerId reservationId : ℕ) (partySize : ℤ) :
    Decidable (db.Violated env allocation start customerId reservationId partySize) := by
  unfold Database.Violated; infer_instance

/-- Raise unless the written rows are the booking that was decided on. -/
def checkPostconditions (request : BookingRequest) (start : ResolvedStart)
    (allocation : Allocation) (customerId reservationId : ℕ) : Routine Unit := do
  let assigned ← query (·.assignedTables reservationId)
  let assignedCount := assigned.length
  let assignedCapacity ← liftExcept
    (nullableInteger (Sql.sum (assigned.map (·.seatingCapacity))))
  let violated ← query fun db =>
    decide (db.Violated env allocation start customerId reservationId request.partySize)
  if assignedCount ≠ allocation.tableNumbers.length ∨ assignedCount < 1 ∨
      Sql.less assignedCapacity request.partySize = some true ∨
      (∃ c ∈ assignedCapacity, allocation.totalCapacity ≠ c) ∨ violated = true then
    .raise .bookingPostconditionFailed
  else return ()

/-- The supplied phone number differs from the stored one in its digits. -/
def DifferingPhone (customer : Customer) (request : BookingRequest) : Prop :=
  ∃ stored ∈ customer.phone, ∃ given ∈ request.phone, stored.digits ≠ given.digits

instance (customer : Customer) (request : BookingRequest) :
    Decidable (DifferingPhone customer request) := by
  unfold DifferingPhone; infer_instance

/-- The row of a new reservation. -/
def bookedRow (request : BookingRequest) (start : ResolvedStart) (customer : Customer)
    (differingPhone : Bool) (reservationId : ℕ) (allocation : Allocation) (fingerprint : Bytes) :
    BookingRow where
  outcome := if differingPhone then .bookedPhoneNotice else .booked
  reservationId := some reservationId
  startsAt := some start.startsAt
  endsAt := some start.endsAt
  partySize := some request.partySize
  assignedTableNumbers := some allocation.tableNumbers
  newsletterSubscribed := some customer.newsletterSubscribed
  phoneNotice := differingPhone
  fingerprintVersion := some 1
  reservationFingerprint := some fingerprint

/-- The statements after the last clock reading. -/
def writeBooking (request : BookingRequest) (start : ResolvedStart) (stage : Option FailureStage)
    (stored : Customer) (isNewCustomer : Bool) (fingerprint : Bytes) (allocation : Allocation) :
    Routine Empty := do
  let differingPhone := !isNewCustomer && decide (DifferingPhone stored request)
  let customer ← populateOptionalFields env request stage stored isNewCustomer
  let customer ← updateNewsletter env request stage customer
  let reservationId ← insertReservation request start stage customer.customerId fingerprint
  insertAssignments reservationId stage allocation.tableNumbers 0
  checkPostconditions env request start allocation customer.customerId reservationId
  .ret (.booking
    (bookedRow request start customer differingPhone reservationId allocation fingerprint))

/-- The rest of the block, once the customer is known. -/
def serveCustomer (request : BookingRequest) (foundation : Foundation) (start : ResolvedStart)
    (tieRank : Option ℤ) (stage : Option FailureStage) (readings : Readings)
    (customer : Customer) (isNewCustomer : Bool) : Routine Empty := do
  checkIdentity env request customer
  let fingerprint := env.fingerprint customer.customerId start.startsAt request.partySize
  exactRetry request start customer fingerprint
  rejectOverlap request start customer fingerprint
  let allocation ← allocate request foundation start fingerprint tieRank readings
  writeBooking env request start stage customer isNewCustomer fingerprint allocation

/-- The block whose handler turns `P6601` into a row. -/
def bookingBlock (request : BookingRequest) (foundation : Foundation) (start : ResolvedStart)
    (tieRank : Option ℤ) (stage : Option FailureStage) (readings : Readings) :
    Routine Empty := do
  let key ← liftExcept (canonicalEmailLockKey env request.email)
  acquire (.email key)
  let (customer, isNewCustomer) ← resolveCustomer env request stage
  serveCustomer env request foundation start tieRank stage readings customer isNewCustomer

/-- The row of the `P6601` handler. -/
def abortedRow (request : BookingRequest) (start : ResolvedStart) (outcome : Outcome)
    (detail : Detail) (fingerprint : Bytes) : BookingRow where
  outcome
  detailCode := some detail
  startsAt := some start.startsAt
  endsAt := some start.endsAt
  partySize := some request.partySize
  fingerprintVersion := some 1
  reservationFingerprint := some fingerprint

/-- `WHEN SQLSTATE 'P6601'`. -/
def abortHandler (request : BookingRequest) (start : ResolvedStart) :
    SqlError → Option (Routine Empty)
  | .bookingAborted outcome detail fingerprint =>
    some (.ret (.booking (abortedRow request start outcome detail fingerprint)))
  | _ => none

/-- `book_reservation_core` for a request that passed the input check. -/
def bookRequest (request : BookingRequest) (tieRank : Option ℤ) (stage : Option FailureStage)
    (readings : Readings) : Routine Empty := do
  acquire .restaurant
  let foundation ← lockFoundation env
  let start ← resolveStart foundation request
  let rows ← query fun db => db.restaurantOperatingHours.filter
    (·.weekday = Time.isodow (Time.date start.localStart))
  let hours ← liftExcept (strict rows)
  (match currentPolicy foundation hours start request.partySize readings.first with
    | some (outcome, detail) => .ret (.booking (refusal outcome detail))
    | none => exceptionBlock (abortHandler request start)
        (bookingBlock env request foundation start tieRank stage readings))

/-- `book_reservation_core`. -/
def bookReservationCore (isolation : IsolationLevel) (p : BookingArguments)
    (tieRank : Option ℤ) (stage : Option FailureStage) (readings : Readings) : Routine Empty :=
  if isolation ≠ .readCommitted then
    .ret (.booking (refusal .invalidRequest .requiresReadCommitted))
  else match normalizedInput env.character p stage with
  | none => .ret (.booking (refusal .invalidRequest .invalidNormalizedInput))
  | some request => bookRequest env request tieRank stage readings

/-- `book_reservation`, called at read committed. -/
def bookReservation (p : BookingArguments) (readings : Readings) : Routine Empty :=
  bookReservationCore env .readCommitted p none none readings

end Stages

end CafeFausse
