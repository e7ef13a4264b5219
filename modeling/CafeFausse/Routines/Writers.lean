import CafeFausse.Routines.Booking
import CafeFausse.Transaction.Interleaving

/-! # The controlled writers

The newsletter routine and the three writers of configuration, hours and capacities.
Together with the booking they are the calls of the system: every change of the
database is one of them, in a transaction of its own.
-/

namespace CafeFausse

open Transaction Program

/-- The parameters of `set_newsletter_preference`. -/
structure NewsletterArguments where
  firstName : Option Text
  middleInitial : Option Text
  lastName : Option Text
  email : Option Text
  subscribed : Option Bool
  deriving DecidableEq

/-- The parameters once the input check has passed. -/
structure NewsletterRequest where
  firstName : Text
  middleInitial : Option Text
  lastName : Text
  email : Text
  subscribed : Bool
  deriving DecidableEq

/-- The parameters, if none of the required ones is null. -/
def NewsletterArguments.request (p : NewsletterArguments) : Option NewsletterRequest := do
  let firstName ← p.firstName
  let lastName ← p.lastName
  let email ← p.email
  let subscribed ← p.subscribed
  return { firstName, middleInitial := p.middleInitial, lastName, email, subscribed }

/-- What the input check asks of a name. Unlike that of a booking it asks for no letter. -/
def SpacedName (ct : CharacterType) (name : Text) : Prop :=
  (1 ≤ name.length ∧ name.length ≤ 100) ∧ name = ct.collapse name.btrim

instance (ct : CharacterType) (name : Text) : Decidable (SpacedName ct name) := instDecidableAnd

/-- What the input check asks of parameters that are not null. -/
structure NewsletterRequest.Valid (ct : CharacterType) (request : NewsletterRequest) : Prop where
  firstName : SpacedName ct request.firstName
  lastName : SpacedName ct request.lastName
  email : request.email ≠ [] ∧ request.email = request.email.btrim ∧
    request.email = ct.lowerText request.email ∧ request.email.length ≤ 254
  middleInitial : ∀ i ∈ request.middleInitial, MiddleInitialCheck ct i

instance (ct : CharacterType) (request : NewsletterRequest) : Decidable (request.Valid ct) :=
  decidable_of_iff (SpacedName ct request.firstName ∧ SpacedName ct request.lastName ∧
      (request.email ≠ [] ∧ request.email = request.email.btrim ∧
        request.email = ct.lowerText request.email ∧ request.email.length ≤ 254) ∧
      ∀ i ∈ request.middleInitial, MiddleInitialCheck ct i)
    ⟨fun ⟨a, b, c, d⟩ => ⟨a, b, c, d⟩, fun ⟨a, b, c, d⟩ => ⟨a, b, c, d⟩⟩

/-- The check of the normalized input. -/
def newsletterInput (ct : CharacterType) (p : NewsletterArguments) : Option NewsletterRequest :=
  p.request.filter fun request => request.Valid ct

section Routines

variable (env : Environment)

/-- The row of a new subscriber. -/
def NewsletterRequest.newCustomer (request : NewsletterRequest) (customerId : ℕ) : Customer where
  customerId
  firstName := request.firstName
  middleInitial := request.middleInitial
  lastName := request.lastName
  email := request.email
  phone := none
  newsletterSubscribed := true

/-- The customer of the e-mail, inserted as a subscriber if there is none. -/
def newsletterCustomer (request : NewsletterRequest) : Routine Customer := do
  match ← query (·.customerByEmail request.email) with
  | some customer => return customer
  | none =>
    if ¬ request.subscribed then .ret (.newsletter .noCustomerNoChange (some false))
    else
      let customerId ← draw .customer
      match ← attempt (Database.insertCustomer env.character (request.newCustomer customerId)) with
      | .ok customer => return customer
      | .error .uniqueViolation =>
        match ← query (·.customerByEmail request.email) with
        | some customer => return customer
        | none => .raise .uniqueViolation
      | .error e => .raise e

/-- Store the preference of a customer whose identity fits. -/
def storePreference (request : NewsletterRequest) (customer : Customer) : Routine Empty := do
  if NamesDiffer env.character customer request.firstName request.lastName then
    .ret (.newsletter .customerIdentityMismatch (some customer.newsletterSubscribed))
  else if InitialsConflict customer.middleInitial request.middleInitial then
    .ret (.newsletter .middleInitialConflict (some customer.newsletterSubscribed))
  else
    let updated ← execute (Database.updateCustomer env.character customer.customerId
      fun c => { c with newsletterSubscribed := request.subscribed })
    .ret (.newsletter (if request.subscribed then .subscribed else .unsubscribed)
      (updated.map (·.newsletterSubscribed)))

/-- `set_newsletter_preference` for a request that passed the input check. -/
def setPreference (request : NewsletterRequest) : Routine Empty := do
  let key ← liftExcept (canonicalEmailLockKey env request.email)
  acquire (.email key)
  let customer ← newsletterCustomer env request
  storePreference env request customer

/-- `set_newsletter_preference`. -/
def setNewsletterPreference (p : NewsletterArguments) : Routine Empty :=
  match newsletterInput env.character p with
  | none => .ret (.newsletter .invalidRequest none)
  | some request => setPreference env request

/-- The parameters of `set_reservation_configuration`. -/
structure ConfigurationArguments where
  startIntervalMinutes : Option ℤ
  reservationDurationMinutes : Option ℤ
  advanceBookingWindowDays : Option ℤ
  sameDayLeadMinutes : Option ℤ
  restaurantTimezone : Option Text
  deriving DecidableEq

/-- Present, or a violation of NOT NULL. -/
def notNull {α : Type} : Option α → Except SqlError α
  | some a => .ok a
  | none => .error .notNullViolation

/-- The row that `set_reservation_configuration` writes, if its constraints allow it. -/
def ConfigurationArguments.row (ct : CharacterType) (p : ConfigurationArguments)
    (timezone : Text) : Except SqlError ReservationConfiguration := do
  let interval ← notNull p.startIntervalMinutes
  let duration ← notNull p.reservationDurationMinutes
  let window ← notNull p.advanceBookingWindowDays
  let lead ← notNull p.sameDayLeadMinutes
  if h : interval ∈ [15, 30, 60] ∧ duration ∈ [60, 90, 120] ∧
      (1 ≤ window ∧ window ≤ 365) ∧ (0 ≤ lead ∧ lead ≤ 1440) ∧ TimezoneCheck ct timezone then
    return ⟨1, interval, duration, window, lead, timezone, singleton, h.1, h.2.1, h.2.2.1, h.2.2.2.1⟩
  else .error .checkViolation

def Database.putConfiguration (row : ReservationConfiguration) (db : Database) : Database :=
  { db with reservationConfiguration := db.reservationConfiguration.map fun c =>
      if c.configurationId = 1 then row else c }

def Database.putHours (row : RestaurantOperatingHours) (db : Database) : Database :=
  { db with restaurantOperatingHours := db.restaurantOperatingHours.map fun h =>
      if h.weekday = row.weekday then row else h }

def Database.putTable (row : RestaurantTable) (db : Database) : Database :=
  { db with restaurantTables := db.restaurantTables.map fun t =>
      if t.tableNumber = row.tableNumber then row else t }

/-- `UPDATE reservation_configuration … WHERE configuration_id = 1 RETURNING *`. -/
def Database.updateConfiguration (ct : CharacterType) (p : ConfigurationArguments)
    (timezone : Text) (_ : Database) :
    Except SqlError (ReservationConfiguration × (Database → Database)) := do
  let row ← p.row ct timezone
  return (row, putConfiguration row)

/-- `UPDATE restaurant_operating_hours … RETURNING * INTO STRICT`. -/
def Database.updateHours (weekday : Option ℤ) (opensAt closesAt : Option TimeOfDay)
    (db : Database) : Except SqlError (RestaurantOperatingHours × (Database → Database)) := do
  let stored ← strict (db.restaurantOperatingHours.filter fun h => some h.weekday = weekday)
  let opensAt ← notNull opensAt
  let closesAt ← notNull closesAt
  if h : opensAt.val < closesAt.val then
    let row := { stored with opensAt, closesAt, bounds_ck := h }
    return (row, putHours row)
  else .error .checkViolation

/-- `UPDATE restaurant_tables … RETURNING * INTO STRICT`. -/
def Database.updateTable (tableNumber seatingCapacity : Option ℤ) (db : Database) :
    Except SqlError (RestaurantTable × (Database → Database)) := do
  let stored ← strict (db.restaurantTables.filter fun t => some t.tableNumber = tableNumber)
  let seatingCapacity ← notNull seatingCapacity
  if h : 0 < seatingCapacity then
    let row := { stored with seatingCapacity, capacity_ck := h }
    return (row, putTable row)
  else .error .checkViolation

/-- `set_reservation_configuration`. -/
def setReservationConfiguration (p : ConfigurationArguments) : Routine Empty := do
  acquire .restaurant
  match p.restaurantTimezone.filter fun name => (env.timezones name).isSome with
  | none => .raise .invalidParameterValue
  | some timezone => do
    let rows ← query fun db => db.reservationConfiguration.filter (·.configurationId = 1)
    let _ ← liftExcept (strict rows)
    let row ← execute (Database.updateConfiguration env.character p timezone)
    .ret (.configuration row)

/-- `set_restaurant_operating_hours`. -/
def setRestaurantOperatingHours (weekday : Option ℤ) (opensAt closesAt : Option TimeOfDay) :
    Routine Empty := do
  acquire .restaurant
  let row ← execute (Database.updateHours weekday opensAt closesAt)
  .ret (.hours row)

/-- `set_restaurant_table_capacity`. -/
def setRestaurantTableCapacity (tableNumber seatingCapacity : Option ℤ) : Routine Empty := do
  acquire .restaurant
  let row ← execute (Database.updateTable tableNumber seatingCapacity)
  .ret (.table row)

end Routines

section Specs

variable {db : Database} {w : Database → Database}

theorem row_ok {ct : CharacterType} {p : ConfigurationArguments} {timezone : Text}
    {row : ReservationConfiguration} (h : p.row ct timezone = .ok row) :
    row.restaurantTimezone = timezone ∧ TimezoneCheck ct timezone := by
  simp only [ConfigurationArguments.row, bind_eq_ok] at h
  obtain ⟨interval, -, duration, -, window, -, lead, -, h⟩ := h
  split at h
  · next hc => cases h; exact ⟨rfl, hc.2.2.2.2⟩
  · cases h

theorem updateConfiguration_ok {ct : CharacterType} {p : ConfigurationArguments}
    {timezone : Text} {row : ReservationConfiguration}
    (h : db.updateConfiguration ct p timezone = .ok (row, w)) :
    p.row ct timezone = .ok row ∧ w = Database.putConfiguration row := by
  obtain ⟨r, hr, h⟩ := bind_eq_ok.mp h
  cases h
  exact ⟨hr, rfl⟩

theorem mem_of_strict {α : Type} {l : List α} {p : α → Bool} {a : α}
    (h : strict (l.filter p) = .ok a) : a ∈ l ∧ p a :=
  List.mem_filter.mp (strict_eq_ok.mp h ▸ List.mem_singleton_self a)

theorem updateHours_ok {weekday : Option ℤ} {opensAt closesAt : Option TimeOfDay}
    {row : RestaurantOperatingHours} (h : db.updateHours weekday opensAt closesAt = .ok (row, w)) :
    (∃ stored ∈ db.restaurantOperatingHours, stored.weekday = row.weekday) ∧
      w = Database.putHours row := by
  simp only [Database.updateHours, bind_eq_ok] at h
  obtain ⟨stored, hs, opens, -, closes, -, h⟩ := h
  split at h
  · cases h
    exact ⟨⟨stored, (mem_of_strict hs).1, rfl⟩, rfl⟩
  · cases h

theorem updateTable_ok {tableNumber seatingCapacity : Option ℤ} {row : RestaurantTable}
    (h : db.updateTable tableNumber seatingCapacity = .ok (row, w)) :
    (∃ stored ∈ db.restaurantTables, stored.tableNumber = row.tableNumber) ∧
      w = Database.putTable row := by
  simp only [Database.updateTable, bind_eq_ok] at h
  obtain ⟨stored, hs, capacity, -, h⟩ := h
  split at h
  · cases h
    exact ⟨⟨stored, (mem_of_strict hs).1, rfl⟩, rfl⟩
  · cases h

end Specs

/-- A call of one of the controlled operations, with what it reads besides the database. -/
inductive Call where
  | bookReservation (p : BookingArguments) (readings : Readings)
  | setNewsletterPreference (p : NewsletterArguments)
  | setReservationConfiguration (p : ConfigurationArguments)
  | setRestaurantOperatingHours (weekday : Option ℤ) (opensAt closesAt : Option TimeOfDay)
  | setRestaurantTableCapacity (tableNumber seatingCapacity : Option ℤ)

/-- The server that runs the controlled operations. -/
def server (env : Environment) : System Database LockKey Sequence SqlError Answer Call where
  body
    | .bookReservation p readings => bookReservation env p readings
    | .setNewsletterPreference p => setNewsletterPreference env p
    | .setReservationConfiguration p => setReservationConfiguration env p
    | .setRestaurantOperatingHours weekday opensAt closesAt =>
      setRestaurantOperatingHours weekday opensAt closesAt
    | .setRestaurantTableCapacity tableNumber seatingCapacity =>
      setRestaurantTableCapacity tableNumber seatingCapacity

end CafeFausse
