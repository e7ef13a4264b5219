import CafeFausse.Sql.Text
import CafeFausse.Sql.Time

/-! # The schema

The six tables as lists of rows. CHECK constraints on numbers and times are fields of
the rows; those that read texts depend on the character type of the database and
stand, with the keys, in `Constraints`.
-/

namespace CafeFausse

abbrev Bytes := List UInt8

/-- What the database server brings along: its character type, the time zones it
knows, and the hash functions of the schema. -/
structure Environment where
  character : CharacterType
  /-- `pg_timezone_names`. -/
  timezones : Text → Option Zone
  /-- `sha256_text`. -/
  sha256Text : Text → Fin 32 → UInt8
  /-- `reservation_fingerprint_v1`. -/
  fingerprint : ℕ → ℤ → ℤ → Bytes
  fingerprint_ne_nil : ∀ customerId startsAt partySize,
    fingerprint customerId startsAt partySize ≠ []

/-- A server that knows the zone of the seed at its winter offset. The digests are those of
one customer and of a first reservation. -/
def Environment.eastern : Environment where
  character := .ascii
  timezones name := if name = text "America/New_York" then some (.fixed (-300)) else none
  sha256Text t i :=
    if t = text "ada@example.com" then
      [181, 252, 133, 229, 87, 85, 249, 224, 208, 48, 161, 10, 180, 66, 155, 107, 41, 68, 133, 95,
        154, 13, 96, 7, 127, 232, 50, 190, 203, 196, 29, 114].getD i 0
    else 0
  fingerprint _ _ _ :=
    [147, 123, 58, 137, 169, 118, 47, 158, 120, 127, 70, 17, 212, 68, 21, 248, 59, 127, 151, 45,
      87, 44, 49, 69, 97, 202, 61, 88, 20, 214, 184, 162]
  fingerprint_ne_nil _ _ _ := by decide

structure Customer where
  customerId : ℕ
  firstName : Text
  middleInitial : Option Text
  lastName : Text
  email : Text
  phone : Option Text
  newsletterSubscribed : Bool
  deriving DecidableEq

structure ReservationConfiguration where
  configurationId : ℤ
  startIntervalMinutes : ℤ
  reservationDurationMinutes : ℤ
  advanceBookingWindowDays : ℤ
  sameDayLeadMinutes : ℤ
  restaurantTimezone : Text
  singleton_ck : configurationId = 1
  interval_ck : startIntervalMinutes ∈ [15, 30, 60]
  duration_ck : reservationDurationMinutes ∈ [60, 90, 120]
  window_ck : 1 ≤ advanceBookingWindowDays ∧ advanceBookingWindowDays ≤ 365
  lead_ck : 0 ≤ sameDayLeadMinutes ∧ sameDayLeadMinutes ≤ 1440
  deriving DecidableEq

structure RestaurantOperatingHours where
  weekday : ℤ
  opensAt : TimeOfDay
  closesAt : TimeOfDay
  weekday_ck : 1 ≤ weekday ∧ weekday ≤ 7
  bounds_ck : opensAt < closesAt
  deriving DecidableEq

structure RestaurantTable where
  tableNumber : ℤ
  seatingCapacity : ℤ
  number_ck : 0 < tableNumber
  capacity_ck : 0 < seatingCapacity
  deriving DecidableEq

structure Reservation where
  reservationId : ℕ
  customerId : ℕ
  startsAt : ℤ
  endsAt : ℤ
  partySize : ℤ
  fingerprintVersion : ℤ
  reservationFingerprint : Bytes
  duration_ck : endsAt - startsAt ∈ [Time.minutes 60, Time.minutes 90, Time.minutes 120]
  party_size_ck : 0 < partySize
  fingerprint_version_ck : 0 < fingerprintVersion
  fingerprint_ck : reservationFingerprint ≠ []
  deriving DecidableEq

structure ReservationTableAssignment where
  reservationId : ℕ
  tableNumber : ℤ
  deriving DecidableEq

structure Database where
  customers : List Customer
  reservationConfiguration : List ReservationConfiguration
  restaurantOperatingHours : List RestaurantOperatingHours
  restaurantTables : List RestaurantTable
  reservations : List Reservation
  reservationTableAssignments : List ReservationTableAssignment
  deriving DecidableEq

/-- `reservations_interval_ck`. -/
theorem Reservation.interval_ck (r : Reservation) : r.startsAt < r.endsAt := by
  have := r.duration_ck
  simp only [List.mem_cons, List.not_mem_nil, or_false, Time.minutes] at this
  omega

/-- The half-open intervals `[a, b)` and `[c, d)` meet. -/
def Overlap (a b c d : ℤ) : Prop := a < d ∧ c < b

instance (a b c d : ℤ) : Decidable (Overlap a b c d) := instDecidableAnd

theorem Overlap.symm {a b c d : ℤ} (h : Overlap a b c d) : Overlap c d a b := ⟨h.2, h.1⟩

section Checks

variable (ct : CharacterType)

/-- `customers_first_name_ck` and `customers_last_name_ck`. -/
def NameCheck (name : Text) : Prop :=
  (1 ≤ name.length ∧ name.length ≤ 100) ∧ name = ct.collapse name.btrim ∧ name.any ct.isAlpha

/-- `customers_middle_initial_ck`; the pattern is `^[[:upper:]]$`. -/
def MiddleInitialCheck (initial : Text) : Prop := ∃ c, initial = [c] ∧ ct.isUpper c

/-- `customers_email_canonical_ck`. -/
def EmailCheck (email : Text) : Prop :=
  (1 ≤ email.length ∧ email.length ≤ 254) ∧ email = email.btrim ∧ email = ct.lowerText email

/-- `customers_phone_ck`. -/
def PhoneCheck (phone : Text) : Prop :=
  phone.phoneCharacters ∧ 7 ≤ phone.digits.length ∧ phone.digits.length ≤ 15

/-- `reservation_configuration_timezone_ck`. -/
def TimezoneCheck (timezone : Text) : Prop :=
  (1 ≤ timezone.length ∧ timezone.length ≤ 255) ∧ timezone = timezone.btrim ∧
    ¬ (timezone.head?.any ct.isSpace ∨ timezone.getLast?.any ct.isSpace)

instance (name : Text) : Decidable (NameCheck ct name) := instDecidableAnd
instance (email : Text) : Decidable (EmailCheck ct email) := instDecidableAnd
instance (phone : Text) : Decidable (PhoneCheck phone) := instDecidableAnd
instance (timezone : Text) : Decidable (TimezoneCheck ct timezone) := instDecidableAnd

instance : (initial : Text) → Decidable (MiddleInitialCheck ct initial)
  | [c] => decidable_of_iff (ct.isUpper c = true) (by simp [MiddleInitialCheck])
  | [] => .isFalse (by simp [MiddleInitialCheck])
  | _ :: _ :: _ => .isFalse (by simp [MiddleInitialCheck])

/-- The CHECK constraints of `customers`. The widths of the columns repeat them. -/
structure Customer.Check (row : Customer) : Prop where
  firstName : NameCheck ct row.firstName
  middleInitial : ∀ i ∈ row.middleInitial, MiddleInitialCheck ct i
  lastName : NameCheck ct row.lastName
  email : EmailCheck ct row.email
  phone : ∀ p ∈ row.phone, PhoneCheck p

instance (row : Customer) : Decidable (row.Check ct) :=
  decidable_of_iff (NameCheck ct row.firstName ∧
      (∀ i ∈ row.middleInitial, MiddleInitialCheck ct i) ∧ NameCheck ct row.lastName ∧
      EmailCheck ct row.email ∧ ∀ p ∈ row.phone, PhoneCheck p)
    ⟨fun ⟨a, b, c, d, e⟩ => ⟨a, b, c, d, e⟩, fun ⟨a, b, c, d, e⟩ => ⟨a, b, c, d, e⟩⟩

end Checks

/-- What the keys and the CHECK constraints on texts allow. -/
structure Constraints (ct : CharacterType) (db : Database) : Prop where
  customers_ck : ∀ c ∈ db.customers, c.Check ct
  customers_pk : (db.customers.map (·.customerId)).Nodup
  customers_email_uq : (db.customers.map (·.email)).Nodup
  configuration_pk : (db.reservationConfiguration.map (·.configurationId)).Nodup
  configuration_timezone_ck : ∀ c ∈ db.reservationConfiguration,
    TimezoneCheck ct c.restaurantTimezone
  hours_pk : (db.restaurantOperatingHours.map (·.weekday)).Nodup
  tables_pk : (db.restaurantTables.map (·.tableNumber)).Nodup
  reservations_pk : (db.reservations.map (·.reservationId)).Nodup
  reservations_customer_fk : ∀ r ∈ db.reservations, ∃ c ∈ db.customers,
    c.customerId = r.customerId
  reservations_exact_identity_uq :
    (db.reservations.map fun r => (r.customerId, r.startsAt, r.partySize)).Nodup
  assignments_pk : db.reservationTableAssignments.Nodup
  assignments_reservation_fk : ∀ a ∈ db.reservationTableAssignments, ∃ r ∈ db.reservations,
    r.reservationId = a.reservationId
  assignments_table_fk : ∀ a ∈ db.reservationTableAssignments, ∃ t ∈ db.restaurantTables,
    t.tableNumber = a.tableNumber

theorem hour_bounds {n : ℤ} (h : 0 ≤ n ∧ n ≤ 24) :
    0 ≤ Time.minutes (n * 60) ∧ Time.minutes (n * 60) ≤ Time.day := by
  simp only [Time.minutes, Time.day]
  omega

/-- A full hour of the day. -/
def fullHour (n : ℤ) (h : 0 ≤ n ∧ n ≤ 24) : TimeOfDay := ⟨Time.minutes (n * 60), hour_bounds h⟩

theorem opening_bounds : 0 ≤ (17 : ℤ) ∧ (17 : ℤ) ≤ 24 := by decide

theorem closing_bounds {n : ℤ} (h : 17 < n ∧ n ≤ 24) : 0 ≤ n ∧ n ≤ 24 := by omega

theorem opening_lt_closing {n : ℤ} (h : 17 < n ∧ n ≤ 24) :
    fullHour 17 opening_bounds < fullHour n (closing_bounds h) := by
  simp only [fullHour, Time.minutes, Subtype.mk_lt_mk]
  omega

/-- The rows the baseline seed inserts for opening hours. -/
def seedHours (weekday closing : ℤ) (h : 1 ≤ weekday ∧ weekday ≤ 7)
    (hc : 17 < closing ∧ closing ≤ 24) : RestaurantOperatingHours :=
  ⟨weekday, fullHour 17 opening_bounds, fullHour closing (closing_bounds hc), h,
    opening_lt_closing hc⟩

theorem singleton : (1 : ℤ) = 1 := rfl

/-- The row the baseline seed inserts for the configuration. -/
def seedConfiguration : ReservationConfiguration where
  configurationId := 1
  startIntervalMinutes := 30
  reservationDurationMinutes := 90
  advanceBookingWindowDays := 60
  sameDayLeadMinutes := 120
  restaurantTimezone := text "America/New_York"
  singleton_ck := singleton
  interval_ck := by decide
  duration_ck := by decide
  window_ck := by decide
  lead_ck := by decide

/-- The database after the baseline seed. -/
def seed : Database where
  customers := []
  reservationConfiguration := [seedConfiguration]
  restaurantOperatingHours := [
    seedHours 1 23 (by decide) (by decide), seedHours 2 23 (by decide) (by decide),
    seedHours 3 23 (by decide) (by decide), seedHours 4 23 (by decide) (by decide),
    seedHours 5 23 (by decide) (by decide), seedHours 6 23 (by decide) (by decide),
    seedHours 7 21 (by decide) (by decide)]
  restaurantTables := (List.range 30).map fun (n : ℕ) =>
    ⟨(n : ℤ) + 1, 4, by omega, by decide⟩
  reservations := []
  reservationTableAssignments := []

end CafeFausse
