import CafeFausse.Routines.Writers
import CafeFausse.Transaction.Locking

/-! # The routines with their row locks

Beside the advisory locks the routines lock rows: with `FOR UPDATE`, by writing them, and
through the foreign keys of the rows they insert. Here each routine takes all its locks,
in the order of its statements. The entry that an insertion makes in a unique index counts
as a lock, too, since another insertion of the same key waits for it.
-/

namespace CafeFausse.RowLocks

open Transaction Program Database

/-- What is locked. The entries of `customers_email_uq` and `reservations_exact_identity_uq`
stand for the rows that are about to be inserted. -/
inductive LockTarget where
  | advisory (key : LockKey)
  | configuration
  | hours (weekday : ℤ)
  | table (tableNumber : ℤ)
  | customerEmail (email : Text)
  | customer (customerId : ℕ)
  | reservationIdentity (customerId : ℕ) (startsAt partySize : ℤ)
  | reservation (reservationId : ℕ)
  deriving DecidableEq

/-- The modes of row locks that occur. An advisory lock is as exclusive as `FOR UPDATE`. -/
inductive LockMode where
  | keyShare
  | noKeyUpdate
  | update
  deriving DecidableEq

/-- A key share lock excludes `FOR UPDATE` only. -/
def LockMode.Conflicts : LockMode → LockMode → Prop
  | .keyShare, .keyShare | .keyShare, .noKeyUpdate | .noKeyUpdate, .keyShare => False
  | _, _ => True

structure Lock where
  target : LockTarget
  mode : LockMode
  deriving DecidableEq

def Lock.Conflicts (r x : Lock) : Prop := r.target = x.target ∧ r.mode.Conflicts x.mode

abbrev LockingRoutine (α : Type) := Program Database Lock Sequence SqlError Answer α

def forUpdate (target : LockTarget) : Lock := ⟨target, .update⟩
def noKeyUpdate (target : LockTarget) : Lock := ⟨target, .noKeyUpdate⟩
def keyShare (target : LockTarget) : Lock := ⟨target, .keyShare⟩

/-- A routine that locks no rows. -/
def plain {α : Type} (p : Routine α) : LockingRoutine α := p.mapLocks fun key => forUpdate (.advisory key)

/-- `PERFORM … FROM restaurant_operating_hours ORDER BY weekday FOR UPDATE`. -/
def lockHours : LockingRoutine Unit := do
  let weekdays ← query (·.weekdays)
  acquireAll (weekdays.map fun weekday => forUpdate (.hours weekday))

/-- `PERFORM … FROM restaurant_tables ORDER BY table_number FOR UPDATE`. -/
def lockTables : LockingRoutine Unit := do
  let tables ← query fun db => Sql.orderBy (·.tableNumber) db.restaurantTables
  acquireAll (tables.map fun t => forUpdate (.table t.tableNumber))

section Routines

variable (env : Environment)

/-- The reads under the restaurant lock and the checks of the foundation rows. -/
def lockFoundation : LockingRoutine Foundation := do
  let invalid (detail : Detail) : LockingRoutine Foundation :=
    .ret (.booking (refusal .invalidDatabaseConfiguration detail))
  let count ← query fun db => db.reservationConfiguration.length
  if count ≠ 1 then invalid .configurationRowCount else
  let rows ← query fun db => db.reservationConfiguration.filter (·.configurationId = 1)
  acquireAll (rows.map fun _ => forUpdate .configuration)
  let configuration ← liftExcept (strict rows)
  let complete ← query fun db =>
    decide (db.restaurantOperatingHours.length = 7 ∧ db.weekdays = [1, 2, 3, 4, 5, 6, 7])
  if ¬ complete then invalid .operatingHoursPopulation else
  lockHours
  let tables ← query fun db => Sql.orderBy (·.tableNumber) db.restaurantTables
  acquireAll (tables.map fun t => forUpdate (.table t.tableNumber))
  let totalCapacity ← liftExcept (nullableInteger (Sql.sum (tables.map (·.seatingCapacity))))
  if badTablePopulation tables = some true then
    invalid .restaurantTablePopulation
  else match env.timezones configuration.restaurantTimezone with
  | none => invalid .invalidTimezone
  | some zone => return { configuration, totalCapacity, zone }

/-- `SELECT … FROM customers WHERE email = … FOR UPDATE`. -/
def lockCustomer (email : Text) : LockingRoutine (Option Customer) := do
  match ← query (·.customerByEmail email) with
  | some customer =>
    acquire (forUpdate (.customer customer.customerId))
    return some customer
  | none => return none

/-- `INSERT INTO customers`, whose error is a value to go on with. The entry of the e-mail
stays locked when the insertion fails; the routine holds the lock of the e-mail by then. -/
def insertCustomer (row : Customer) : LockingRoutine (Except SqlError Customer) := do
  acquire (forUpdate (.customerEmail row.email))
  match ← attempt (Database.insertCustomer env.character row) with
  | .ok customer =>
    acquire (forUpdate (.customer customer.customerId))
    return .ok customer
  | .error e => return .error e

/-- The customer of the e-mail, inserted if there is none; the flag marks a new one. -/
def resolveCustomer (request : BookingRequest) (stage : Option FailureStage) :
    LockingRoutine (Customer × Bool) := do
  match ← lockCustomer request.email with
  | some customer => return (customer, false)
  | none =>
    let customerId ← draw .customer
    match ← insertCustomer env (request.newCustomer customerId) with
    | .ok customer =>
      if stage = some .afterCustomerInsert then .raise (.injectedFailure .afterCustomerInsert)
      else return (customer, true)
    | .error .uniqueViolation =>
      match ← lockCustomer request.email with
      | some customer => return (customer, false)
      | none => .raise .uniqueViolation
    | .error e => .raise e

/-- `UPDATE customers … RETURNING * INTO customer`, which changes no key. -/
def updateCustomer (customer : Customer) (change : Customer → Customer) :
    LockingRoutine Customer := do
  acquire (noKeyUpdate (.customer customer.customerId))
  match ← execute (Database.updateCustomer env.character customer.customerId change) with
  | some customer => return customer
  | none => .raise .notNullViolation

/-- Fill in the optional fields the stored customer lacks. -/
def populateOptionalFields (request : BookingRequest) (stage : Option FailureStage)
    (customer : Customer) (isNewCustomer : Bool) : LockingRoutine Customer := do
  let populateMiddleInitial :=
    !isNewCustomer && customer.middleInitial.isNone && request.middleInitial.isSome
  let populatePhone := !isNewCustomer && customer.phone.isNone && request.phone.isSome
  if populateMiddleInitial || populatePhone then
    let customer ← updateCustomer env customer fun c => { c with
      middleInitial := if populateMiddleInitial then request.middleInitial else c.middleInitial
      phone := if populatePhone then request.phone else c.phone }
    if stage = some .afterOptionalFieldPopulation then
      .raise (.injectedFailure .afterOptionalFieldPopulation)
    else return customer
  else return customer

/-- Carry out the newsletter action. -/
def updateNewsletter (request : BookingRequest) (stage : Option FailureStage)
    (customer : Customer) : LockingRoutine Customer := do
  if request.newsletterAction ≠ .noChange then
    let customer ← updateCustomer env customer fun c => { c with
      newsletterSubscribed := decide (request.newsletterAction = .subscribe) }
    if stage = some .afterNewsletterUpdate then .raise (.injectedFailure .afterNewsletterUpdate)
    else return customer
  else return customer

/-- Insert the reservation. `reservations_customer_fk` locks the customer. -/
def insertReservation (request : BookingRequest) (start : ResolvedStart)
    (stage : Option FailureStage) (customerId : ℕ) (fingerprint : Bytes) : LockingRoutine ℕ := do
  let reservationId ← draw .reservation
  let row ← liftExcept (Reservation.checked reservationId customerId start.startsAt start.endsAt
    request.partySize fingerprint)
  acquire (forUpdate (.reservationIdentity customerId start.startsAt request.partySize))
  match ← attempt (Database.insertReservation row) with
  | .error .uniqueViolation => .raise .serializationFailure
  | .error e => .raise e
  | .ok _ =>
    acquire (forUpdate (.reservation reservationId))
    acquire (keyShare (.customer customerId))
    if stage = some .afterReservationInsert then .raise (.injectedFailure .afterReservationInsert)
    else return reservationId

/-- Insert one assignment for each selected table. Its foreign keys lock the reservation
and the table. -/
def insertAssignments (reservationId : ℕ) (stage : Option FailureStage) :
    List ℤ → ℕ → LockingRoutine Unit
  | [], _ => return ()
  | tableNumber :: rest, assignedCount => do
    execute (Database.insertAssignment ⟨reservationId, tableNumber⟩)
    acquire (keyShare (.reservation reservationId))
    acquire (keyShare (.table tableNumber))
    if assignedCount + 1 = 1 ∧ stage = some .afterPartialAssignmentInsert then
      .raise (.injectedFailure .afterPartialAssignmentInsert)
    else insertAssignments reservationId stage rest (assignedCount + 1)

/-- The statements after the last clock reading. -/
def writeBooking (request : BookingRequest) (start : ResolvedStart) (stage : Option FailureStage)
    (stored : Customer) (isNewCustomer : Bool) (fingerprint : Bytes) (allocation : Allocation) :
    LockingRoutine Empty := do
  let differingPhone := !isNewCustomer && decide (DifferingPhone stored request)
  let customer ← populateOptionalFields env request stage stored isNewCustomer
  let customer ← updateNewsletter env request stage customer
  let reservationId ← insertReservation request start stage customer.customerId fingerprint
  insertAssignments reservationId stage allocation.tableNumbers 0
  plain (checkPostconditions env request start allocation customer.customerId reservationId)
  .ret (.booking
    (bookedRow request start customer differingPhone reservationId allocation fingerprint))

/-- The rest of the block, once the customer is known. -/
def serveCustomer (request : BookingRequest) (foundation : Foundation) (start : ResolvedStart)
    (tieRank : Option ℤ) (stage : Option FailureStage) (readings : Readings)
    (customer : Customer) (isNewCustomer : Bool) : LockingRoutine Empty := do
  plain (checkIdentity env request customer)
  let fingerprint := env.fingerprint customer.customerId start.startsAt request.partySize
  plain (exactRetry request start customer fingerprint)
  plain (rejectOverlap request start customer fingerprint)
  let allocation ← plain (allocate request foundation start fingerprint tieRank readings)
  writeBooking env request start stage customer isNewCustomer fingerprint allocation

/-- The block whose handler turns `P6601` into a row. -/
def bookingBlock (request : BookingRequest) (foundation : Foundation) (start : ResolvedStart)
    (tieRank : Option ℤ) (stage : Option FailureStage) (readings : Readings) :
    LockingRoutine Empty := do
  let key ← liftExcept (canonicalEmailLockKey env request.email)
  acquire (forUpdate (.advisory (.email key)))
  let (customer, isNewCustomer) ← resolveCustomer env request stage
  serveCustomer env request foundation start tieRank stage readings customer isNewCustomer

/-- `book_reservation_core` for a request that passed the input check. -/
def bookRequest (request : BookingRequest) (tieRank : Option ℤ) (stage : Option FailureStage)
    (readings : Readings) : LockingRoutine Empty := do
  acquire (forUpdate (.advisory .restaurant))
  let foundation ← lockFoundation env
  let start ← plain (resolveStart foundation request)
  let rows ← query fun db => db.restaurantOperatingHours.filter
    (·.weekday = Time.isodow (Time.date start.localStart))
  let hours ← liftExcept (strict rows)
  (match currentPolicy foundation hours start request.partySize readings.first with
    | some (outcome, detail) => .ret (.booking (refusal outcome detail))
    | none => exceptionBlock (fun e => (abortHandler request start e).map plain)
        (bookingBlock env request foundation start tieRank stage readings))

/-- `book_reservation_core`. -/
def bookReservationCore (isolation : IsolationLevel) (p : BookingArguments)
    (tieRank : Option ℤ) (stage : Option FailureStage) (readings : Readings) :
    LockingRoutine Empty :=
  if isolation ≠ .readCommitted then
    .ret (.booking (refusal .invalidRequest .requiresReadCommitted))
  else match normalizedInput env.character p stage with
  | none => .ret (.booking (refusal .invalidRequest .invalidNormalizedInput))
  | some request => bookRequest env request tieRank stage readings

/-- `book_reservation`, called at read committed. -/
def bookReservation (p : BookingArguments) (readings : Readings) : LockingRoutine Empty :=
  bookReservationCore env .readCommitted p none none readings

/-- The stored customer, or a new one if the call subscribes. -/
def newsletterCustomer (request : NewsletterRequest) : LockingRoutine Customer := do
  match ← lockCustomer request.email with
  | some customer => return customer
  | none =>
    if ¬ request.subscribed then .ret (.newsletter .noCustomerNoChange (some false))
    else
      let customerId ← draw .customer
      match ← insertCustomer env (request.newCustomer customerId) with
      | .ok customer => return customer
      | .error .uniqueViolation =>
        match ← lockCustomer request.email with
        | some customer => return customer
        | none => .raise .uniqueViolation
      | .error e => .raise e

/-- Store the preference of a customer whose identity fits. -/
def storePreference (request : NewsletterRequest) (customer : Customer) :
    LockingRoutine Empty := do
  if NamesDiffer env.character customer request.firstName request.lastName then
    .ret (.newsletter .customerIdentityMismatch (some customer.newsletterSubscribed))
  else if InitialsConflict customer.middleInitial request.middleInitial then
    .ret (.newsletter .middleInitialConflict (some customer.newsletterSubscribed))
  else
    acquire (noKeyUpdate (.customer customer.customerId))
    let updated ← execute (Database.updateCustomer env.character customer.customerId
      fun c => { c with newsletterSubscribed := request.subscribed })
    .ret (.newsletter (if request.subscribed then .subscribed else .unsubscribed)
      (updated.map (·.newsletterSubscribed)))

/-- `set_newsletter_preference` for a request that passed the input check. -/
def setPreference (request : NewsletterRequest) : LockingRoutine Empty := do
  let key ← liftExcept (canonicalEmailLockKey env request.email)
  acquire (forUpdate (.advisory (.email key)))
  let customer ← newsletterCustomer env request
  storePreference env request customer

/-- `set_newsletter_preference`. -/
def setNewsletterPreference (p : NewsletterArguments) : LockingRoutine Empty :=
  match newsletterInput env.character p with
  | none => .ret (.newsletter .invalidRequest none)
  | some request => setPreference env request

/-- `set_reservation_configuration`. -/
def setReservationConfiguration (p : ConfigurationArguments) : LockingRoutine Empty := do
  acquire (forUpdate (.advisory .restaurant))
  match p.restaurantTimezone.filter fun name => (env.timezones name).isSome with
  | none => .raise .invalidParameterValue
  | some timezone => do
    let rows ← query fun db => db.reservationConfiguration.filter (·.configurationId = 1)
    acquireAll (rows.map fun _ => forUpdate .configuration)
    let _ ← liftExcept (strict rows)
    acquire (noKeyUpdate .configuration)
    let row ← execute (Database.updateConfiguration env.character p timezone)
    .ret (.configuration row)

/-- `set_restaurant_operating_hours`. -/
def setRestaurantOperatingHours (weekday : Option ℤ) (opensAt closesAt : Option TimeOfDay) :
    LockingRoutine Empty := do
  acquire (forUpdate (.advisory .restaurant))
  lockHours
  let written ← query fun db =>
    db.restaurantOperatingHours.filter fun h => some h.weekday = weekday
  acquireAll (written.map fun h => noKeyUpdate (.hours h.weekday))
  let row ← execute (Database.updateHours weekday opensAt closesAt)
  .ret (.hours row)

/-- `set_restaurant_table_capacity`. -/
def setRestaurantTableCapacity (tableNumber seatingCapacity : Option ℤ) :
    LockingRoutine Empty := do
  acquire (forUpdate (.advisory .restaurant))
  lockTables
  let written ← query fun db =>
    db.restaurantTables.filter fun t => some t.tableNumber = tableNumber
  acquireAll (written.map fun t => noKeyUpdate (.table t.tableNumber))
  let row ← execute (Database.updateTable tableNumber seatingCapacity)
  .ret (.table row)

end Routines

/-- The server that runs the controlled operations with all their locks. -/
def server (env : Environment) : System Database Lock Sequence SqlError Answer Call where
  body
    | .bookReservation p readings => bookReservation env p readings
    | .setNewsletterPreference p => setNewsletterPreference env p
    | .setReservationConfiguration p => setReservationConfiguration env p
    | .setRestaurantOperatingHours weekday opensAt closesAt =>
      setRestaurantOperatingHours weekday opensAt closesAt
    | .setRestaurantTableCapacity tableNumber seatingCapacity =>
      setRestaurantTableCapacity tableNumber seatingCapacity

end CafeFausse.RowLocks
