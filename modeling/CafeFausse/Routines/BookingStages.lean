import CafeFausse.Database.Constraints
import CafeFausse.Routines.AllocationSound
import CafeFausse.Routines.Booking
import CafeFausse.Transaction.Calls

/-! # What the stages of a booking do

One rule for each stage of `book_reservation_core`, over a database that keeps its
constraints and sequences that give out unused numbers: which exits a stage can take,
under what conditions, and what it has changed when the next stage begins.
-/

namespace CafeFausse

open Transaction Program Database

variable {env : Environment} {ct : CharacterType} {request : BookingRequest}

/-- The parameters of a request, none of the required ones null. -/
def BookingRequest.arguments (request : BookingRequest) : BookingArguments where
  firstName := some request.firstName
  middleInitial := request.middleInitial
  lastName := some request.lastName
  email := some request.email
  phone := request.phone
  localStart := some request.localStart
  utcOffsetMinutes := some request.utcOffsetMinutes
  partySize := some request.partySize
  newsletterAction := some request.newsletterAction

theorem request_eq_some {p : BookingArguments} : p.request = some request ↔ p = request.arguments := by
  constructor
  · intro h
    simp only [BookingArguments.request, Option.bind_eq_bind, Option.bind_eq_some_iff,
      Option.pure_def, Option.some.injEq] at h
    obtain ⟨fn, hfn, ln, hln, em, hem, ls, hls, of, hof, ps, hps, na, hna, rfl⟩ := h
    cases p
    cases hfn; cases hln; cases hem; cases hls; cases hof; cases hps; cases hna
    rfl
  · rintro rfl
    rfl

/-- The input check passes exactly the valid requests. -/
theorem normalizedInput_eq_some {p : BookingArguments} {stage : Option FailureStage} :
    normalizedInput ct p stage = some request ↔
      p = request.arguments ∧ request.Valid ct ∧ stage ≠ some .unrecognized := by
  simp only [normalizedInput, Option.filter_eq_some_iff, request_eq_some, decide_eq_true_eq]

/-- The row of a new customer passes the constraints of `customers`. -/
theorem BookingRequest.Valid.newCustomer (h : request.Valid ct) (n : ℕ) :
    (request.newCustomer n).Check ct where
  firstName := h.firstName
  middleInitial := h.middleInitial
  lastName := h.lastName
  email := ⟨⟨List.length_pos_iff.mpr h.email.1, h.email.2.2.2⟩, h.email.2.1, h.email.2.2.1⟩
  phone := h.phone

theorem bind_wp {α β : Type} {p : Routine α} {f : α → Routine β}
    {m : Memory Database Sequence} {Q : β → Memory Database Sequence → Prop}
    {R : Answer → Memory Database Sequence → Prop}
    {E : SqlError → Memory Database Sequence → Prop}
    (h : p.wp (fun a m' => (f a).wp Q R E m') R E m) : (p >>= f).wp Q R E m := wp_bind.mpr h

section Errors

variable {db : Database} {e : SqlError}

/-- A part of the tables has at most the capacity of all. -/
theorem capacity_le {rows tables : List RestaurantTable} (h : rows.Subperm tables) :
    (rows.map (·.seatingCapacity)).sum ≤ (tables.map (·.seatingCapacity)).sum := by
  obtain ⟨l, hperm, hsub⟩ := h
  rw [← (hperm.map _).sum_eq]
  refine (hsub.map _).sum_le_sum fun x hx => ?_
  obtain ⟨t, -, rfl⟩ := List.mem_map.mp hx
  exact t.capacity_ck.le

theorem freeTables_subperm (db : Database) (startsAt endsAt : ℤ) :
    (db.freeTables startsAt endsAt).Subperm db.restaurantTables :=
  (Sql.orderBy_perm _ _).subperm.trans List.filter_sublist.subperm

/-- The errors a booking may end with. No row that it writes fails a check, and a number is
out of range only if the seats of all tables together are. -/
structure Expected (db : Database) (e : SqlError) : Prop where
  plain : Plain e
  checked : e ≠ .checkViolation
  range : e = .numericValueOutOfRange →
    2147483647 < (db.restaurantTables.map (·.seatingCapacity)).sum

theorem Expected.of_strict {α : Type} {l : List α} (h : strict l = .error e) : Expected db e := by
  unfold strict at h
  split at h <;> cases h
  · exact ⟨nofun, nofun, nofun⟩
  · exact ⟨nofun, nofun, nofun⟩

theorem seats_nonneg (tables : List RestaurantTable) :
    0 ≤ (tables.map (·.seatingCapacity)).sum :=
  List.sum_nonneg fun c hc => by
    obtain ⟨t, -, rfl⟩ := List.mem_map.mp hc
    exact t.capacity_ck.le

/-- A sum of seats that is no integer exceeds the range. -/
theorem Expected.of_seats {tables : List RestaurantTable}
    (hle : (tables.map (·.seatingCapacity)).sum ≤ (db.restaurantTables.map (·.seatingCapacity)).sum)
    (h : integer (tables.map (·.seatingCapacity)).sum = .error e) : Expected db e := by
  obtain ⟨rfl, hrange⟩ := integer_eq_error.mp h
  have hnonneg := seats_nonneg tables
  exact ⟨nofun, nofun, fun _ => by omega⟩

theorem Expected.of_totalCapacity (h : nullableInteger db.totalCapacity = .error e) :
    Expected db e := by
  obtain ⟨k, hk, he⟩ := nullableInteger_eq_error.mp h
  unfold Database.totalCapacity Sql.sum at hk
  split at hk
  · cases hk
  · obtain rfl := Option.some.inj hk
    exact .of_seats le_rfl he

theorem zip_freeTables (db : Database) (startsAt endsAt : ℤ) :
    ((db.freeTables startsAt endsAt).map (·.tableNumber)).zip
      ((db.freeTables startsAt endsAt).map (·.seatingCapacity)) =
      (db.freeTables startsAt endsAt).map fun t => (t.tableNumber, t.seatingCapacity) :=
  List.zip_map' ..

theorem capacity_freeTables (db : Database) (startsAt endsAt : ℤ) :
    Allocation.capacity (((db.freeTables startsAt endsAt).map (·.tableNumber)).zip
      ((db.freeTables startsAt endsAt).map (·.seatingCapacity))) =
      ((db.freeTables startsAt endsAt).map (·.seatingCapacity)).sum := by
  rw [zip_freeTables, Allocation.capacity, List.map_map]
  rfl

theorem Expected.of_allocation {startsAt endsAt partySize : ℤ} {tieRank : Option ℤ}
    {random : Random} (h : selectTableAllocation
      ((db.freeTables startsAt endsAt).map (·.tableNumber))
      ((db.freeTables startsAt endsAt).map (·.seatingCapacity)) partySize tieRank random =
        .error e) : Expected db e := by
  rcases selectTableAllocation_error h with hraised | hinteger
  · refine ⟨plain_of_selectTableAllocation h, ?_, ?_⟩ <;> rintro rfl
    · exact hraised.elim
    · exact hraised.elim
  · rw [capacity_freeTables] at hinteger
    exact .of_seats (capacity_le (freeTables_subperm db startsAt endsAt)) hinteger

theorem Expected.injectedFailure {s : FailureStage} : Expected db (.injectedFailure s) :=
  ⟨nofun, nofun, nofun⟩

end Errors

section Foundation

variable {m : Memory Database Sequence} {R : Answer → Memory Database Sequence → Prop}
  {E : SqlError → Memory Database Sequence → Prop} {f : Foundation}

/-- The foundation rows are complete and these. -/
structure FoundationOf (env : Environment) (db : Database) (f : Foundation) : Prop where
  configuration : db.reservationConfiguration = [f.configuration]
  hours : db.restaurantOperatingHours.length = 7 ∧ db.weekdays = [1, 2, 3, 4, 5, 6, 7]
  capacity : nullableInteger db.totalCapacity = .ok f.totalCapacity
  tables : badTablePopulation (Sql.orderBy (·.tableNumber) db.restaurantTables) ≠ some true
  zone : env.timezones f.configuration.restaurantTimezone = some f.zone

/-- The configuration or the opening hours are not the rows the routines need. -/
def Database.Unprepared (db : Database) : Prop :=
  db.reservationConfiguration.length ≠ 1 ∨ db.restaurantOperatingHours.length ≠ 7 ∨
    db.weekdays ≠ [1, 2, 3, 4, 5, 6, 7]

/-- The configured zone is none that the server knows. -/
def Database.Zoneless (env : Environment) (db : Database) : Prop :=
  ∀ c ∈ db.reservationConfiguration, env.timezones c.restaurantTimezone = none

/-- The foundation on which the locked reads turn a booking away. -/
def Database.Unusable (env : Environment) (db : Database) : Prop :=
  db.Unprepared ∨ (∃ t, nullableInteger db.totalCapacity = .ok t) ∧
    (badTablePopulation (Sql.orderBy (·.tableNumber) db.restaurantTables) = some true ∨
      db.Zoneless env)

theorem filter_configurationId (l : List ReservationConfiguration) :
    l.filter (·.configurationId = 1) = l :=
  List.filter_eq_self.mpr fun c _ => by simp [c.singleton_ck]

theorem sum_orderBy_tables (db : Database) :
    Sql.sum ((Sql.orderBy (·.tableNumber) db.restaurantTables).map (·.seatingCapacity)) =
      db.totalCapacity := by
  have hp := (Sql.orderBy_perm (·.tableNumber) db.restaurantTables).map (·.seatingCapacity)
  unfold Database.totalCapacity Sql.sum
  rw [hp.sum_eq]
  have hnil : (Sql.orderBy (·.tableNumber) db.restaurantTables).map (·.seatingCapacity) = [] ↔
      db.restaurantTables.map (·.seatingCapacity) = [] := by
    rw [← List.length_eq_zero_iff, hp.length_eq, List.length_eq_zero_iff]
  simp only [hnil]

theorem wp_lockFoundation {Q : Foundation → Memory Database Sequence → Prop}
    (hQ : ∀ f, FoundationOf env m.view f → Q f m)
    (hR : ∀ d, m.view.Unusable env → R (.booking (refusal .invalidDatabaseConfiguration d)) m)
    (hE : ∀ e, Expected m.view e → E e m) : (lockFoundation env).wp Q R E m := by
  unfold lockFoundation
  refine bind_wp (wp_query.mpr ?_)
  split
  · next hcount => exact hR _ (.inl (.inl hcount))
  next hcount =>
  refine bind_wp (wp_query.mpr (bind_wp (wp_liftExcept.mpr ?_)))
  rw [filter_configurationId]
  split
  case h_2 e he => exact hE e (.of_strict he)
  next configuration hc =>
  refine bind_wp (wp_query.mpr ?_)
  split
  · next hhours => exact hR _ (.inl (.inr (by simpa [or_iff_not_imp_left] using hhours)))
  next hhours =>
  refine bind_wp (wp_query.mpr (bind_wp (wp_liftExcept.mpr ?_)))
  rw [sum_orderBy_tables]
  split
  case h_2 e he => exact hE e (.of_totalCapacity he)
  next total htotal =>
  split
  · next htables => exact hR _ (.inr ⟨⟨total, htotal⟩, .inl htables⟩)
  next htables =>
  split
  · next hzone =>
    refine hR _ (.inr ⟨⟨total, htotal⟩, .inr fun c hm => ?_⟩)
    rw [strict_eq_ok.mp hc, List.mem_singleton] at hm
    rw [hm, hzone]
  next zone hzone =>
  exact hQ _ ⟨strict_eq_ok.mp hc, by simpa using hhours, htotal, htables, hzone⟩

theorem wp_lockFoundation_of {Q : Foundation → Memory Database Sequence → Prop}
    (h : FoundationOf env m.view f) (hQ : Q f m) : (lockFoundation env).wp Q R E m := by
  have hstrict : strict m.view.reservationConfiguration = .ok f.configuration :=
    strict_eq_ok.mpr h.configuration
  unfold lockFoundation
  refine bind_wp (wp_query.mpr ?_)
  rw [if_neg (by simp [h.configuration])]
  refine bind_wp (wp_query.mpr (bind_wp (wp_liftExcept.mpr ?_)))
  rw [filter_configurationId, hstrict]
  refine bind_wp (wp_query.mpr ?_)
  rw [if_neg (by simpa using h.hours)]
  refine bind_wp (wp_query.mpr (bind_wp (wp_liftExcept.mpr ?_)))
  rw [sum_orderBy_tables, h.capacity]
  simp only [if_neg h.tables, h.zone]
  exact hQ

/-- An unusable foundation is reported as such. -/
theorem wp_lockFoundation_unusable {Q : Foundation → Memory Database Sequence → Prop}
    (h : m.view.Unusable env)
    (hR : ∀ d, R (.booking (refusal .invalidDatabaseConfiguration d)) m) :
    (lockFoundation env).wp Q R E m := by
  unfold lockFoundation
  refine bind_wp (wp_query.mpr ?_)
  split
  · exact hR _
  next hcount =>
  obtain ⟨configuration, hc⟩ := List.length_eq_one_iff.mp (not_not.mp hcount)
  refine bind_wp (wp_query.mpr (bind_wp (wp_liftExcept.mpr ?_)))
  rw [filter_configurationId, strict_eq_ok.mpr hc]
  refine bind_wp (wp_query.mpr ?_)
  split
  · exact hR _
  next hhours =>
  have hprepared : ¬ m.view.Unprepared := by
    rintro (hn | hn)
    · exact hcount hn
    · exact hhours (by simpa [or_iff_not_imp_left] using hn)
  obtain ⟨⟨total, htotal⟩, hbad⟩ := h.resolve_left hprepared
  refine bind_wp (wp_query.mpr (bind_wp (wp_liftExcept.mpr ?_)))
  rw [sum_orderBy_tables, htotal]
  dsimp only
  split
  · exact hR _
  next htables =>
  simp only [hbad.resolve_left htables configuration (hc ▸ List.mem_singleton_self _)]
  exact hR _

/-- The local start has this one instant, under the offset that was sent. -/
structure ResolvedTo (foundation : Foundation) (request : BookingRequest)
    (start : ResolvedStart) : Prop where
  localStart : request.localStart = .finite start.localStart
  candidates : localTimestampCandidates start.localStart foundation.zone =
    [(start.startsAt, request.utcOffsetMinutes)]
  endsAt : start.endsAt =
    start.startsAt + Time.minutes foundation.configuration.reservationDurationMinutes

/-- The instant is the local start less its offset. -/
theorem ResolvedTo.startsAt_eq {start : ResolvedStart} (h : ResolvedTo f request start) :
    start.startsAt = start.localStart - Time.minutes request.utcOffsetMinutes :=
  (mem_localTimestampCandidates (h.candidates ▸ List.mem_singleton_self _)).1

theorem wp_resolveStart {Q : ResolvedStart → Memory Database Sequence → Prop}
    (hQ : ∀ s, ResolvedTo f request s → Q s m)
    (hR : ∀ d, R (.booking (refusal .invalidRequest d)) m)
    (hE : E .datetimeFieldOverflow m) : (resolveStart f request).wp Q R E m := by
  unfold resolveStart
  split
  · next l hl =>
    split
    · exact hR _
    · next c o hc =>
      split
      · exact hR _
      · next ho => exact hQ _ ⟨hl, by rw [hc, not_not.mp ho], rfl⟩
    · exact hR _
  · exact hE

theorem wp_resolveStart_of {Q : ResolvedStart → Memory Database Sequence → Prop}
    {start : ResolvedStart} (h : ResolvedTo f request start) (hQ : Q start m) :
    (resolveStart f request).wp Q R E m := by
  unfold resolveStart
  simp only [h.localStart, h.candidates, ne_eq, not_true_eq_false, if_false]
  rw [← h.endsAt]
  exact hQ

end Foundation

section Customer

variable {m : Memory Database Sequence} {R : Answer → Memory Database Sequence → Prop}
  {E : SqlError → Memory Database Sequence → Prop} {stage : Option FailureStage}

/-- The customer is the stored one, or a new row under an unused number. -/
theorem wp_resolveCustomer {Q : Customer × Bool → Memory Database Sequence → Prop}
    (hv : request.Valid env.character) (hfresh : ¬ InUse m.view .customer (m.supply .customer 0))
    (hold : ∀ c ∈ m.view.customers, c.email = request.email →
      m.view.customerByEmail request.email = some c → Q (c, false) m)
    (hnew : (∀ c ∈ m.view.customers, c.email ≠ request.email) →
      Q (request.newCustomer (m.supply .customer 0), true) { m with
        view := m.view.addCustomer (request.newCustomer (m.supply .customer 0))
        supply := advance m.supply .customer })
    (hE : ∀ s, stage = some s → ∀ m', E (.injectedFailure s) m') :
    (resolveCustomer env request stage).wp Q R E m := by
  unfold resolveCustomer
  refine bind_wp (wp_query.mpr ?_)
  split
  · next c hc =>
    obtain ⟨hm, he⟩ := customerByEmail_eq_some hc
    exact hold c hm he hc
  next hnone =>
  have hno := customerByEmail_eq_none hnone
  refine bind_wp (wp_draw.mpr (bind_wp (wp_attempt.mpr ?_)))
  have hok : insertCustomer env.character (request.newCustomer (m.supply .customer 0)) m.view =
      .ok (request.newCustomer (m.supply .customer 0),
        addCustomer (request.newCustomer (m.supply .customer 0))) := by
    unfold insertCustomer
    rw [if_neg (not_not.mpr (hv.newCustomer _)), if_neg]
    rintro ⟨c, hc, hid | he⟩
    · exact hfresh ⟨c, hc, hid⟩
    · exact hno c hc he
  simp only [hok]
  split
  · next hs => exact hE _ hs _
  · exact hnew hno

theorem wp_checkIdentity {customer : Customer} {Q : Unit → Memory Database Sequence → Prop}
    (hQ : ¬ NamesDiffer env.character customer request.firstName request.lastName →
      ¬ InitialsConflict customer.middleInitial request.middleInitial → Q () m)
    (hR : ∀ o, o = .customerIdentityMismatch ∨ o = .middleInitialConflict →
      (NamesDiffer env.character customer request.firstName request.lastName ∨
        InitialsConflict customer.middleInitial request.middleInitial) →
      R (.booking { outcome := o, newsletterSubscribed := some customer.newsletterSubscribed }) m) :
    (checkIdentity env request customer).wp Q R E m := by
  unfold checkIdentity
  split
  · next h => exact hR _ (.inl rfl) (.inl h)
  · split
    · next h => exact hR _ (.inr rfl) (.inr h)
    · next h₁ h₂ => exact hQ h₁ h₂

theorem wp_findExisting {customerId : ℕ} {startsAt partySize : ℤ} {fingerprint : Bytes}
    {Q : Option Reservation → Memory Database Sequence → Prop}
    (hsome : ∀ r ∈ m.view.reservations, SameIdentity customerId startsAt partySize r → Q (some r) m)
    (hnone : (∀ r ∈ m.view.reservations, ¬ SameIdentity customerId startsAt partySize r) →
      Q none m) :
    (findExisting customerId startsAt partySize fingerprint).wp Q R E m := by
  unfold findExisting
  refine bind_wp (wp_query.mpr ?_)
  split
  · next r hr =>
    have hm := List.mem_filter.mp (Sql.mem_orderBy.mp (List.mem_of_mem_head? hr))
    exact hsome r hm.1 (of_decide_eq_true hm.2).2.2
  · refine wp_query.mpr ?_
    cases h : m.view.reservations.find? fun r => SameIdentity customerId startsAt partySize r with
    | some r => exact hsome r (List.mem_of_find?_eq_some h) (by simpa using List.find?_some h)
    | none => exact hnone (by simpa using h)

theorem wp_exactRetry {start : ResolvedStart} {customer : Customer} {fingerprint : Bytes}
    {Q : Unit → Memory Database Sequence → Prop}
    (hR : ∀ r ∈ m.view.reservations,
      SameIdentity customer.customerId start.startsAt request.partySize r →
        R (.booking (exactRetryRow r (m.view.tableNumbersOf r.reservationId) customer)) m)
    (hQ : (∀ r ∈ m.view.reservations,
      ¬ SameIdentity customer.customerId start.startsAt request.partySize r) → Q () m) :
    (exactRetry request start customer fingerprint).wp Q R E m := by
  unfold exactRetry
  exact bind_wp (wp_findExisting (fun r hr hs => bind_wp (wp_query.mpr (hR r hr hs))) hQ)

theorem wp_rejectOverlap {start : ResolvedStart} {customer : Customer} {fingerprint : Bytes}
    {Q : Unit → Memory Database Sequence → Prop}
    (hR : ∀ row, row.outcome = .sameCustomerOverlap → row.detailCode = none →
      m.view.CustomerOverlap customer.customerId start.startsAt start.endsAt →
        R (.booking row) m)
    (hQ : ¬ m.view.CustomerOverlap customer.customerId start.startsAt start.endsAt → Q () m) :
    (rejectOverlap request start customer fingerprint).wp Q R E m := by
  unfold rejectOverlap
  refine bind_wp (wp_query.mpr ?_)
  split
  · next h => exact hR _ rfl rfl (of_decide_eq_true h)
  · next h => exact hQ (by simpa using h)

end Customer

section Allocate

variable {m : Memory Database Sequence} {R : Answer → Memory Database Sequence → Prop}
  {E : SqlError → Memory Database Sequence → Prop} {foundation : Foundation}
  {start : ResolvedStart} {fingerprint : Bytes} {tieRank : Option ℤ} {readings : Readings}

/-- The allocation of free tables and the second look at the clock. -/
structure Allocates (db : Database) (foundation : Foundation) (start : ResolvedStart)
    (partySize : ℤ) (tieRank : Option ℤ) (readings : Readings) (a : Allocation) : Prop where
  allocation : selectTableAllocation
    ((db.freeTables start.startsAt start.endsAt).map (·.tableNumber))
    ((db.freeTables start.startsAt start.endsAt).map (·.seatingCapacity))
    partySize tieRank readings.random = .ok (some a)
  window : ¬ OutsideWindow foundation start readings.second
  lead : ¬ ShortLead foundation start readings.second

/-- No tables for the party, or a boundary crossed since the first look at the clock. -/
inductive TurnsDown (db : Database) (foundation : Foundation) (start : ResolvedStart)
    (partySize : ℤ) (tieRank : Option ℤ) (readings : Readings) : Outcome → Detail → Prop
  | unavailable (h : selectTableAllocation
      ((db.freeTables start.startsAt start.endsAt).map (·.tableNumber))
      ((db.freeTables start.startsAt start.endsAt).map (·.seatingCapacity))
      partySize tieRank readings.random = .ok none) :
    TurnsDown db foundation start partySize tieRank readings .unavailable
      .noCapacitySufficientCombination
  | boundary (a : Allocation) (h : selectTableAllocation
      ((db.freeTables start.startsAt start.endsAt).map (·.tableNumber))
      ((db.freeTables start.startsAt start.endsAt).map (·.seatingCapacity))
      partySize tieRank readings.random = .ok (some a))
      (crossed : OutsideWindow foundation start readings.second ∨
        ShortLead foundation start readings.second) :
    TurnsDown db foundation start partySize tieRank readings .invalidRequest
      .timeBoundaryCrossedDuringBooking

theorem wp_allocate {Q : Allocation → Memory Database Sequence → Prop}
    (hQ : ∀ a, Allocates m.view foundation start request.partySize tieRank readings a → Q a m)
    (habort : ∀ o d, TurnsDown m.view foundation start request.partySize tieRank readings o d →
      E (.bookingAborted o d fingerprint) m)
    (hE : ∀ e, Expected m.view e → E e m) :
    (allocate request foundation start fingerprint tieRank readings).wp Q R E m := by
  unfold allocate
  refine bind_wp (wp_query.mpr (bind_wp (wp_liftExcept.mpr ?_)))
  split
  case h_2 e he => exact hE e (.of_allocation he)
  next a ha =>
  cases a with
  | none => exact habort _ _ (.unavailable ha)
  | some a =>
    simp only
    split
    · next h => exact habort _ _ (.boundary a ha h)
    · next h => exact hQ a ⟨ha, fun hw => h (.inl hw), fun hl => h (.inr hl)⟩

theorem wp_allocate_of {Q : Allocation → Memory Database Sequence → Prop} {a : Allocation}
    (h : Allocates m.view foundation start request.partySize tieRank readings a) (hQ : Q a m) :
    (allocate request foundation start fingerprint tieRank readings).wp Q R E m := by
  unfold allocate
  refine bind_wp (wp_query.mpr (bind_wp (wp_liftExcept.mpr ?_)))
  rw [h.allocation]
  simp only [if_neg (not_or.mpr ⟨h.window, h.lead⟩)]
  exact hQ

theorem wp_allocate_turnsDown {Q : Allocation → Memory Database Sequence → Prop} {o : Outcome}
    {d : Detail} (h : TurnsDown m.view foundation start request.partySize tieRank readings o d)
    (hE : E (.bookingAborted o d fingerprint) m) :
    (allocate request foundation start fingerprint tieRank readings).wp Q R E m := by
  unfold allocate
  refine bind_wp (wp_query.mpr (bind_wp (wp_liftExcept.mpr ?_)))
  cases h with
  | unavailable h => rw [h]; exact hE
  | boundary a h crossed =>
    rw [h]
    simp only [if_pos crossed]
    exact hE

end Allocate

end CafeFausse
