import CafeFausse.Database.Schema
import CafeFausse.Transaction.Program

/-! # Routines over the schema

What the routines of the schema take, return and raise, the locks and sequences they
use, and the statements that change rows. A change checks the constraints of the
table it writes to.
-/

namespace CafeFausse

open Transaction

/-- The outcomes of a booking. -/
inductive Outcome where
  | booked
  | bookedPhoneNotice
  | exactRetry
  | sameCustomerOverlap
  | customerIdentityMismatch
  | middleInitialConflict
  | unavailable
  | invalidRequest
  | invalidDatabaseConfiguration
  deriving DecidableEq

/-- The detail codes of a booking. -/
inductive Detail where
  | requiresReadCommitted
  | invalidNormalizedInput
  | configurationRowCount
  | operatingHoursPopulation
  | restaurantTablePopulation
  | invalidTimezone
  | nonexistentLocalStart
  | ambiguousLocalStart
  | utcOffsetMismatch
  | dateOutsideBookingWindow
  | insufficientSameDayLead
  | startBeforeOpening
  | misalignedStart
  | endAfterClosing
  | durationOrPartySizeOutOfRange
  | noCapacitySufficientCombination
  | timeBoundaryCrossedDuringBooking
  deriving DecidableEq

/-- The outcomes of a newsletter change. -/
inductive NewsletterOutcome where
  | subscribed
  | unsubscribed
  | noCustomerNoChange
  | customerIdentityMismatch
  | middleInitialConflict
  | invalidRequest
  deriving DecidableEq

/-- The failures the test entry point can inject. -/
inductive FailureStage where
  | afterCustomerInsert
  | afterOptionalFieldPopulation
  | afterNewsletterUpdate
  | afterReservationInsert
  | afterPartialAssignmentInsert
  | unrecognized
  deriving DecidableEq

/-- The errors that leave a routine, by their condition. -/
inductive SqlError where
  | numericValueOutOfRange
  | datetimeFieldOverflow
  | invalidParameterValue
  | noDataFound
  | tooManyRows
  | notNullViolation
  | foreignKeyViolation
  | uniqueViolation
  | checkViolation
  /-- `cafe_fausse_exact_identity_race_retry` -/
  | serializationFailure
  /-- `P6601`, with the variables its handler reads. -/
  | bookingAborted (outcome : Outcome) (detail : Detail) (fingerprint : Bytes)
  | injectedFailure (stage : FailureStage)
  | invalidAllocationInput
  | allocationTablesNotAscending
  | allocationRankOutOfRange
  | allocationInvariantFailed
  | allocationReconstructionFailed
  | bookingPostconditionFailed
  deriving DecidableEq

structure BookingRow where
  outcome : Outcome
  detailCode : Option Detail := none
  reservationId : Option ℕ := none
  startsAt : Option ℤ := none
  endsAt : Option ℤ := none
  partySize : Option ℤ := none
  assignedTableNumbers : Option (List ℤ) := none
  newsletterSubscribed : Option Bool := none
  phoneNotice : Bool := false
  fingerprintVersion : Option ℤ := none
  reservationFingerprint : Option Bytes := none
  deriving DecidableEq

/-- What a routine returns to its caller. -/
inductive Answer where
  | booking (row : BookingRow)
  | newsletter (outcome : NewsletterOutcome) (subscribed : Option Bool)
  | configuration (row : ReservationConfiguration)
  | hours (row : RestaurantOperatingHours)
  | table (row : RestaurantTable)
  deriving DecidableEq

/-- The advisory locks: the restaurant, and one key for each class of e-mails. -/
inductive LockKey where
  | restaurant
  | email (key : ℤ)
  deriving DecidableEq

/-- The identity columns. -/
inductive Sequence where
  | customer
  | reservation
  deriving DecidableEq

/-- The rows that carry a number of a sequence. -/
def InUse (db : Database) : Sequence → ℕ → Prop
  | .customer, n => ∃ c ∈ db.customers, c.customerId = n
  | .reservation, n => ∃ r ∈ db.reservations, r.reservationId = n

abbrev Routine (α : Type) := Program Database LockKey Sequence SqlError Answer α

/-- A value that is stored in an `integer`. -/
def integer (n : ℤ) : Except SqlError ℤ :=
  if -2147483648 ≤ n ∧ n ≤ 2147483647 then .ok n else .error .numericValueOutOfRange

/-- A missing sum is stored as it is. -/
def nullableInteger : Option ℤ → Except SqlError (Option ℤ)
  | none => .ok none
  | some n => some <$> integer n

/-- `INTO STRICT`. -/
def strict {α : Type} : List α → Except SqlError α
  | [a] => .ok a
  | [] => .error .noDataFound
  | _ => .error .tooManyRows

theorem bind_ok {ε α β : Type} {a : α} {f : α → Except ε β} : (.ok a >>= f) = f a := rfl

theorem bind_eq_ok {ε α β : Type} {x : Except ε α} {f : α → Except ε β} {b : β} :
    x >>= f = .ok b ↔ ∃ a, x = .ok a ∧ f a = .ok b := by
  cases x with
  | error e => simp [bind, Except.bind]
  | ok a => simp [bind, Except.bind]

theorem bind_eq_error {ε α β : Type} {x : Except ε α} {f : α → Except ε β} {e : ε} :
    x >>= f = .error e ↔ x = .error e ∨ ∃ a, x = .ok a ∧ f a = .error e := by
  cases x with
  | error e => simp [bind, Except.bind]
  | ok a => simp [bind, Except.bind]

theorem map_eq_ok {ε α β : Type} {x : Except ε α} {f : α → β} {b : β} :
    f <$> x = .ok b ↔ ∃ a, x = .ok a ∧ f a = b := by
  cases x with
  | error e => simp [Functor.map, Except.map]
  | ok a => simp [Functor.map, Except.map]

instance decidableExistsOk {ε α : Type} {x : Except ε α} {P : α → Prop} [DecidablePred P] :
    Decidable (∃ a, x = .ok a ∧ P a) :=
  match x with
  | .ok a => decidable_of_iff (P a) (by simp)
  | .error e => .isFalse (by simp)

/-- The results of a mapped list are the results of its elements. -/
theorem mem_of_mapM {ε α β : Type} {f : α → Except ε β} {l : List α} {ys : List β}
    (h : l.mapM f = .ok ys) {y : β} : y ∈ ys ↔ ∃ x ∈ l, f x = .ok y := by
  induction l generalizing ys with
  | nil =>
    cases h
    simp
  | cons x l ih =>
    rw [List.mapM_cons] at h
    obtain ⟨z, hz, h⟩ := bind_eq_ok.mp h
    obtain ⟨zs, hzs, h⟩ := bind_eq_ok.mp h
    cases h
    simp [ih hzs, hz, eq_comm]

theorem exists_mapM {ε α β : Type} {f : α → Except ε β} {l : List α}
    (h : ∀ x ∈ l, ∃ y, f x = .ok y) : ∃ ys, l.mapM f = .ok ys := by
  induction l with
  | nil => exact ⟨[], rfl⟩
  | cons x l ih =>
    obtain ⟨y, hy⟩ := h x (List.mem_cons_self ..)
    obtain ⟨ys, hys⟩ := ih fun z hz => h z (List.mem_cons_of_mem _ hz)
    exact ⟨y :: ys, by rw [List.mapM_cons, hy, hys]; rfl⟩

theorem integer_eq_ok {n m : ℤ} (h : integer n = .ok m) : n = m := by
  unfold integer at h; split at h <;> simp_all

theorem strict_eq_ok {α : Type} {l : List α} {a : α} : strict l = .ok a ↔ l = [a] := by
  match l with
  | [] => simp [strict]
  | [b] => simp [strict]
  | b :: c :: l => simp [strict]

/-- An error other than the one the booking block catches. -/
def Plain (e : SqlError) : Prop := ∀ outcome detail fingerprint,
  e ≠ .bookingAborted outcome detail fingerprint

theorem plain_of_strict {α : Type} {l : List α} {e : SqlError} (h : strict l = .error e) :
    Plain e := by
  unfold strict at h
  split at h <;> cases h <;> exact nofun

theorem plain_injectedFailure {s : FailureStage} : Plain (.injectedFailure s) := nofun

theorem plain_serializationFailure : Plain .serializationFailure := nofun

theorem plain_checkViolation : Plain .checkViolation := nofun

theorem integer_eq_error {n : ℤ} {e : SqlError} : integer n = .error e ↔
    e = .numericValueOutOfRange ∧ ¬ (-2147483648 ≤ n ∧ n ≤ 2147483647) := by
  unfold integer
  split
  · next h => simp [h]
  · next h => simp only [Except.error.injEq, h, not_false_eq_true, and_true, eq_comm]

theorem nullableInteger_eq_error {n : Option ℤ} {e : SqlError} :
    nullableInteger n = .error e ↔ ∃ k, n = some k ∧ integer k = .error e := by
  cases n with
  | none => simp [nullableInteger]
  | some n =>
    cases hn : integer n with
    | ok a => simp [nullableInteger, hn, Functor.map, Except.map]
    | error e' => simp [nullableInteger, hn, Functor.map, Except.map]

theorem plain_of_integer {n : ℤ} {e : SqlError} (h : integer n = .error e) : Plain e := by
  obtain ⟨rfl, -⟩ := integer_eq_error.mp h
  exact nofun

theorem plain_of_nullableInteger {n : Option ℤ} {e : SqlError}
    (h : nullableInteger n = .error e) : Plain e := by
  obtain ⟨k, -, hk⟩ := nullableInteger_eq_error.mp h
  exact plain_of_integer hk

/-- The number under which an e-mail address is locked: the first four bytes of its
hash, as a signed integer. -/
def emailKey (env : Environment) (email : Text) : ℤ :=
  let byte (i : Fin 32) : ℤ := (env.sha256Text email i).toNat
  let unsigned := byte 0 * 16777216 + byte 1 * 65536 + byte 2 * 256 + byte 3
  if 2147483648 ≤ unsigned then unsigned - 4294967296 else unsigned

/-- `canonical_email_lock_key`. -/
def canonicalEmailLockKey (env : Environment) (email : Text) : Except SqlError ℤ :=
  if email = [] ∨ email ≠ email.btrim ∨ email ≠ env.character.lowerText email then
    .error .invalidParameterValue
  else .ok (emailKey env email)

theorem canonicalEmailLockKey_ok {env : Environment} {email : Text} {key : ℤ}
    (h : canonicalEmailLockKey env email = .ok key) : key = emailKey env email := by
  unfold canonicalEmailLockKey at h
  split at h
  · cases h
  · exact (Except.ok.inj h).symm

namespace Database

/-- `SELECT * FROM customers WHERE email = e`. -/
def customerByEmail (db : Database) (email : Text) : Option Customer :=
  db.customers.find? fun c => c.email = email

def addCustomer (row : Customer) (db : Database) : Database :=
  { db with customers := db.customers ++ [row] }

def updateRows (customerId : ℕ) (change : Customer → Customer) (db : Database) : Database :=
  { db with customers := db.customers.map fun c =>
      if c.customerId = customerId then change c else c }

def addReservation (row : Reservation) (db : Database) : Database :=
  { db with reservations := db.reservations ++ [row] }

def addAssignment (row : ReservationTableAssignment) (db : Database) : Database :=
  { db with reservationTableAssignments := db.reservationTableAssignments ++ [row] }

/-- `INSERT INTO customers`. -/
def insertCustomer (ct : CharacterType) (row : Customer) (db : Database) :
    Except SqlError (Customer × (Database → Database)) :=
  if ¬ row.Check ct then .error .checkViolation
  else if ∃ c ∈ db.customers, c.customerId = row.customerId ∨ c.email = row.email then
    .error .uniqueViolation
  else .ok (row, addCustomer row)

/-- `UPDATE customers SET … WHERE customer_id = i RETURNING *`. -/
def updateCustomer (ct : CharacterType) (customerId : ℕ) (change : Customer → Customer)
    (db : Database) : Except SqlError (Option Customer × (Database → Database)) :=
  let updated := (db.customers.filter fun c => c.customerId = customerId).map change
  if ∃ c ∈ updated, ¬ c.Check ct then .error .checkViolation
  else .ok (updated.head?, updateRows customerId change)

/-- `INSERT INTO reservations`. -/
def insertReservation (row : Reservation) (db : Database) :
    Except SqlError (Unit × (Database → Database)) :=
  if ∃ r ∈ db.reservations, r.reservationId = row.reservationId ∨
      r.customerId = row.customerId ∧ r.startsAt = row.startsAt ∧ r.partySize = row.partySize then
    .error .uniqueViolation
  else if ∀ c ∈ db.customers, c.customerId ≠ row.customerId then .error .foreignKeyViolation
  else .ok ((), addReservation row)

/-- `INSERT INTO reservation_table_assignments`. -/
def insertAssignment (row : ReservationTableAssignment) (db : Database) :
    Except SqlError (Unit × (Database → Database)) :=
  if row ∈ db.reservationTableAssignments then .error .uniqueViolation
  else if (∀ r ∈ db.reservations, r.reservationId ≠ row.reservationId) ∨
      ∀ t ∈ db.restaurantTables, t.tableNumber ≠ row.tableNumber then .error .foreignKeyViolation
  else .ok ((), addAssignment row)

variable {ct : CharacterType} {db : Database} {w : Database → Database}

theorem insertCustomer_ok {row c : Customer} (h : insertCustomer ct row db = .ok (c, w)) :
    row.Check ct ∧ (∀ c ∈ db.customers, c.customerId ≠ row.customerId ∧ c.email ≠ row.email) ∧
      c = row ∧ w = addCustomer row := by
  unfold insertCustomer at h
  split at h
  · cases h
  · split at h
    · cases h
    · next hc hu =>
      simp only [Except.ok.injEq, Prod.mk.injEq] at h
      exact ⟨not_not.mp hc, fun c hm => not_or.mp fun he => hu ⟨c, hm, he⟩, h.1.symm, h.2.symm⟩

theorem updateCustomer_ok {customerId : ℕ} {change : Customer → Customer} {c : Option Customer}
    (h : updateCustomer ct customerId change db = .ok (c, w)) :
    (∀ c ∈ db.customers, c.customerId = customerId → (change c).Check ct) ∧
      c = (db.customers.find? fun c => c.customerId = customerId).map change ∧
      w = updateRows customerId change := by
  unfold updateCustomer at h
  simp only at h
  split at h
  · cases h
  · next hc =>
    simp only [Except.ok.injEq, Prod.mk.injEq, List.head?_map, List.head?_filter] at h
    refine ⟨fun c hm hid => not_not.mp fun hn => hc ⟨change c, ?_, hn⟩, h.1.symm, h.2.symm⟩
    exact List.mem_map_of_mem (List.mem_filter.mpr ⟨hm, by simpa using hid⟩)

theorem insertReservation_ok {row : Reservation} {u : Unit}
    (h : insertReservation row db = .ok (u, w)) :
    (∀ r ∈ db.reservations, r.reservationId ≠ row.reservationId ∧
      ¬ (r.customerId = row.customerId ∧ r.startsAt = row.startsAt ∧
        r.partySize = row.partySize)) ∧
      (∃ c ∈ db.customers, c.customerId = row.customerId) ∧ w = addReservation row := by
  unfold insertReservation at h
  split at h
  · cases h
  · split at h
    · cases h
    · next hu hf =>
      simp only [Except.ok.injEq, Prod.mk.injEq, true_and] at h
      exact ⟨fun r hm => not_or.mp fun he => hu ⟨r, hm, he⟩, by simpa using hf, h.symm⟩

theorem insertAssignment_ok {row : ReservationTableAssignment} {u : Unit}
    (h : insertAssignment row db = .ok (u, w)) :
    row ∉ db.reservationTableAssignments ∧
      (∃ r ∈ db.reservations, r.reservationId = row.reservationId) ∧
      (∃ t ∈ db.restaurantTables, t.tableNumber = row.tableNumber) ∧ w = addAssignment row := by
  unfold insertAssignment at h
  split at h
  · cases h
  · split at h
    · cases h
    · next hu hf =>
      simp only [Except.ok.injEq, Prod.mk.injEq, true_and] at h
      simp only [not_or, not_forall, not_not, exists_prop] at hf
      exact ⟨hu, hf.1, hf.2, h.symm⟩

end Database

end CafeFausse
