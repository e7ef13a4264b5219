import CafeFausse.Routines.BookingWrites

/-! # The effect of a booking call

All exits of `book_reservation_core` in one rule. A call that does not book leaves the
database alone: a new customer row is written early, but it has no reservations and
bears the names of the request, so the exits behind it only roll it back.
-/

namespace CafeFausse

open Transaction Program Database

variable {env : Environment} {request : BookingRequest} {m : Memory Database Sequence}
  {stage : Option FailureStage} {tieRank : Option ℤ} {readings : Readings}
  {f : Foundation} {start : ResolvedStart} {c : Customer} {a : Allocation} {db db' : Database}

/-- The outcomes that report a new reservation. -/
def Outcome.Books (o : Outcome) : Prop := o = .booked ∨ o = .bookedPhoneNotice

instance (o : Outcome) : Decidable o.Books := instDecidableOr

theorem books_bookedRow {differingPhone : Bool} {n : ℕ} {fingerprint : Bytes} :
    (bookedRow request start c differingPhone n a fingerprint).outcome.Books := by
  unfold bookedRow
  cases differingPhone
  · exact .inl rfl
  · exact .inr rfl

/-- The row of the handler: a detail beside the resolved interval. -/
def BookingRow.Aborted (row : BookingRow) : Prop := row.detailCode.isSome ∧ row.startsAt.isSome

/-- What the checks ahead of the customer have established. -/
structure Admitted (env : Environment) (request : BookingRequest) (readings : Readings)
    (db : Database) (f : Foundation) (start : ResolvedStart) (hours : RestaurantOperatingHours) :
    Prop where
  foundation : FoundationOf env db f
  resolved : ResolvedTo f request start
  openOn : db.restaurantOperatingHours.filter
    (·.weekday = Time.isodow (Time.date start.localStart)) = [hours]
  policy : currentPolicy f hours start request.partySize readings.first = none

/-- The customer a booking serves: a stored one, or a new row under an unused number. -/
inductive Resolves (request : BookingRequest) (db : Database) : Customer → Bool → Database → Prop
  | stored (c : Customer) (hc : c ∈ db.customers) (he : c.email = request.email) :
    Resolves request db c false db
  | created (n : ℕ) (hn : ¬ InUse db .customer n)
      (he : ∀ c ∈ db.customers, c.email ≠ request.email) :
    Resolves request db (request.newCustomer n) true (db.addCustomer (request.newCustomer n))

theorem Resolves.constraints {isNew : Bool} (h : Resolves request db c isNew db')
    (hc : Constraints env.character db) (hv : request.Valid env.character) :
    Constraints env.character db' := by
  cases h with
  | stored c hc' he => exact hc
  | created n hn he => exact hc.addCustomer (hv.newCustomer n) fun d hd => ⟨fun h => hn ⟨d, hd, h⟩, he d hd⟩

theorem Resolves.mem {isNew : Bool} (h : Resolves request db c isNew db') : c ∈ db'.customers := by
  cases h with
  | stored c hc he => exact hc
  | created n hn he => exact List.mem_append_right _ (List.mem_singleton_self _)

theorem Resolves.restaurant {isNew : Bool} (h : Resolves request db c isNew db') :
    db' = { db with customers := db'.customers } := by
  cases h <;> rfl

theorem Resolves.populated (h : Resolves request db c true db') : request.populated c = c := by
  cases h with
  | created n hn he =>
    unfold BookingRequest.populated BookingRequest.newCustomer
    simp

/-- A new customer has no reservation. -/
theorem Resolves.unreserved (h : Resolves request db c true db') (hc : Constraints env.character db) :
    ∀ r ∈ db'.reservations, r.customerId ≠ c.customerId := by
  cases h with
  | created n hn he =>
    intro r hr hid
    obtain ⟨d, hd, hdr⟩ := hc.reservations_customer_fk r hr
    exact hn ⟨d, hd, hdr.trans hid⟩

/-- The identity of the request fits the customer. -/
structure Identifies (env : Environment) (request : BookingRequest) (c : Customer) : Prop where
  names : ¬ NamesDiffer env.character c request.firstName request.lastName
  initials : ¬ InitialsConflict c.middleInitial request.middleInitial

/-- A new customer bears the names of the request. -/
theorem Resolves.identifies (env : Environment) (h : Resolves request db c true db') :
    Identifies env request c := by
  cases h with
  | created n hn he =>
    refine ⟨by simp [NamesDiffer, BookingRequest.newCustomer], ?_⟩
    rintro ⟨s, hs, g, hg, hne⟩
    exact hne (Option.mem_unique hs hg)

theorem FoundationOf.capacity_le (h : FoundationOf env db f) :
    (db.restaurantTables.map (·.seatingCapacity)).sum ≤ 2147483647 := by
  have hc := h.capacity
  unfold Database.totalCapacity Sql.sum at hc
  split at hc
  · next he => rw [he]; decide
  · simp only [nullableInteger] at hc
    obtain ⟨n, hn, -⟩ := map_eq_ok.mp hc
    unfold integer at hn
    split at hn
    · next h => exact h.2
    · cases hn

theorem ResolvedTo.duration (h : ResolvedTo f request start) :
    start.endsAt - start.startsAt ∈ [Time.minutes 60, Time.minutes 90, Time.minutes 120] := by
  have hd := f.configuration.duration_ck
  rw [h.endsAt, add_sub_cancel_left]
  exact List.mem_map_of_mem (f := Time.minutes) hd

theorem Allocates.seats {partySize : ℤ}
    (h : Allocates db f start partySize tieRank readings a) :
    0 < partySize ∧ db.Seats start partySize a := by
  obtain ⟨hp, s, hsub, htables, htotal, hparty⟩ := selectTableAllocation_some h.allocation
  rw [zip_freeTables] at hsub
  obtain ⟨rows, hrows, rfl⟩ := List.sublist_map_iff.mp hsub
  refine ⟨hp, rows, hrows, by simpa [Function.comp_def] using htables, ?_, htotal ▸ hparty⟩
  simpa [Allocation.capacity, Function.comp_def] using htotal

/-- The database holds what the customer needs to be booked on. -/
theorem Resolves.bookable {isNew : Bool} (h : Resolves request db c isNew db')
    (hc : Constraints env.character db) (hv : request.Valid env.character)
    (hf : FoundationOf env db f) (hs : ResolvedTo f request start)
    (ha : Allocates db' f start request.partySize tieRank readings a)
    (hunique : ∀ r ∈ db'.reservations,
      ¬ SameIdentity c.customerId start.startsAt request.partySize r)
    (hclear : ¬ db'.CustomerOverlap c.customerId start.startsAt start.endsAt) :
    Bookable env request start c a db' where
  constraints := h.constraints hc hv
  customer := h.mem
  duration := hs.duration
  party := ha.seats.1
  unique := hunique
  clear := hclear
  seats := ha.seats.2
  capacity := by
    rw [h.restaurant]
    exact hf.capacity_le

/-- The customer fits the request, but the allocation is turned down. -/
structure Unserved (env : Environment) (request : BookingRequest) (f : Foundation)
    (start : ResolvedStart) (tieRank : Option ℤ) (readings : Readings) (db : Database)
    (c : Customer) (o : Outcome) (d : Detail) : Prop where
  identifies : Identifies env request c
  unique : ∀ r ∈ db.reservations, ¬ SameIdentity c.customerId start.startsAt request.partySize r
  clear : ¬ db.CustomerOverlap c.customerId start.startsAt start.endsAt
  turnedDown : TurnsDown db f start request.partySize tieRank readings o d

theorem TurnsDown.not_books {partySize : ℤ} {o : Outcome} {d : Detail}
    (h : TurnsDown db f start partySize tieRank readings o d) : ¬ o.Books := by
  cases h <;> decide

/-- Everything after the customer is known. Only a stored customer leads to a row
other than that of the booking. -/
theorem wp_serveCustomer {isNew : Bool} {R : Answer → Memory Database Sequence → Prop}
    {E : SqlError → Memory Database Sequence → Prop} {Q : Empty → Memory Database Sequence → Prop}
    (hres : Resolves request db c isNew m.view) (hc : Constraints env.character db)
    (hv : request.Valid env.character) (hf : FoundationOf env db f)
    (hs : ResolvedTo f request start)
    (hfresh : ¬ InUse m.view .reservation (m.supply .reservation 0))
    (hR : ∀ row, isNew = false → ¬ row.outcome.Books → ¬ row.Aborted → R (.booking row) m)
    (habort : ∀ o d, Unserved env request f start tieRank readings m.view c o d →
      E (.bookingAborted o d (env.fingerprint c.customerId start.startsAt request.partySize)) m)
    (hE : ∀ e, Expected db e → ∀ m', E e m')
    (hbooked : ∀ a r, Identifies env request c →
      Allocates m.view f start request.partySize tieRank readings a →
      Bookable env request start c a m.view →
      IsBooked env request start (m.supply .reservation 0) c.customerId r →
      R (.booking (bookedRow request start (request.served c)
          (!isNew && decide (DifferingPhone c request)) r.reservationId a
          (env.fingerprint c.customerId start.startsAt request.partySize)))
        { m with
          view := m.view.withBooking (request.served c) r a.tableNumbers
          supply := advance m.supply .reservation }) :
    (serveCustomer env request f start tieRank stage readings c isNew).wp Q R E m := by
  have hold : (isNew = true → False) → isNew = false := fun h => by cases isNew <;> simp_all
  unfold serveCustomer
  refine bind_wp (wp_checkIdentity (fun hnames hinitials => ?_) fun o ho hdiff => ?_)
  swap
  · refine hR _ (hold fun hnew => ?_) (by rcases ho with rfl | rfl <;> simp [Outcome.Books])
      (by simp [BookingRow.Aborted])
    subst hnew
    exact hdiff.elim (hres.identifies env).names (hres.identifies env).initials
  refine bind_wp (wp_exactRetry (fun r hr hsame => ?_) fun hunique => ?_)
  · refine hR _ (hold fun hnew => ?_) (by simp [exactRetryRow, Outcome.Books])
      (by simp [exactRetryRow, BookingRow.Aborted])
    subst hnew
    exact hres.unreserved hc r hr hsame.1
  refine bind_wp (wp_rejectOverlap (fun row ho hd hover => ?_) fun hclear => ?_)
  · refine hR _ (hold fun hnew => ?_) (by rw [ho]; decide) (by simp [BookingRow.Aborted, hd])
    subst hnew
    obtain ⟨r, hr, hid, -⟩ := hover
    exact hres.unreserved hc r hr hid
  refine bind_wp (wp_allocate (fun a ha => ?_)
    (fun o d ho => habort _ _ ⟨⟨hnames, hinitials⟩, hunique, hclear, ho⟩) fun e he => ?_)
  · have hb := hres.bookable hc hv hf hs ha hunique hclear
    refine wp_writeBooking hb hv hfresh (fun hnew => ?_) (fun s _ => hE _ .injectedFailure)
      (hbooked a · ⟨hnames, hinitials⟩ ha hb)
    subst hnew
    exact hres.populated
  · rw [hres.restaurant] at he
    exact hE e ⟨he.plain, he.checked, he.range⟩ m

/-- A customer who fits is turned away with the row of the handler. -/
theorem wp_serveCustomer_unserved {isNew : Bool} {R : Answer → Memory Database Sequence → Prop}
    {E : SqlError → Memory Database Sequence → Prop} {Q : Empty → Memory Database Sequence → Prop}
    {o : Outcome} {d : Detail} (h : Unserved env request f start tieRank readings m.view c o d)
    (hE : E (.bookingAborted o d
      (env.fingerprint c.customerId start.startsAt request.partySize)) m) :
    (serveCustomer env request f start tieRank stage readings c isNew).wp Q R E m := by
  unfold serveCustomer
  refine bind_wp (wp_checkIdentity (fun _ _ => ?_) fun o _ hdiff => ?_)
  swap
  · exact (hdiff.elim h.identifies.names h.identifies.initials).elim
  refine bind_wp (wp_exactRetry (fun r hr hsame => absurd hsame (h.unique r hr)) fun _ => ?_)
  refine bind_wp (wp_rejectOverlap (fun row _ _ ho => absurd ho h.clear) fun _ => ?_)
  exact bind_wp (wp_allocate_turnsDown h.turnedDown hE)

theorem outcome_currentPolicy {hours : RestaurantOperatingHours} {partySize now : ℤ}
    {o : Outcome} {d : Detail} (h : currentPolicy f hours start partySize now = some (o, d)) :
    o = .invalidRequest := by
  unfold currentPolicy at h
  simp only [if_neg (not_not.mpr f.configuration.duration_ck)] at h
  repeat' split at h
  all_goals cases h
  all_goals rfl

/-- The stages ahead of the block: a refusal, an error, or an admitted start. -/
theorem wp_bookRequest_stages {Q : Empty → Memory Database Sequence → Prop}
    {R : Answer → Memory Database Sequence → Prop} {E : SqlError → Memory Database Sequence → Prop}
    (hrefused : ∀ o d, o = .invalidRequest ∨
      o = .invalidDatabaseConfiguration ∧ m.view.Unusable env → R (.booking (refusal o d)) m)
    (hE : ∀ e, Expected m.view e → E e m)
    (hadmitted : ∀ f start hours, Admitted env request readings m.view f start hours →
      (bookingBlock env request f start tieRank stage readings).wp Q R
        (caught (abortHandler request start) Q R E) { m with marks := m.view :: m.marks }) :
    (bookRequest env request tieRank stage readings).wp Q R E m := by
  unfold bookRequest
  refine bind_wp (wp_acquire.mpr (bind_wp (wp_lockFoundation (fun f hf => ?_)
    (fun d hd => hrefused _ _ (.inr ⟨rfl, hd⟩)) hE)))
  refine bind_wp (wp_resolveStart (fun start hs => ?_) (fun d => hrefused _ _ (.inl rfl))
    (hE _ ⟨nofun, nofun, nofun⟩))
  refine bind_wp (wp_query.mpr (bind_wp (wp_liftExcept.mpr ?_)))
  split
  case h_2 e he => exact hE e (.of_strict he)
  next hours hhours =>
  split
  · next o d hd => exact hrefused _ _ (.inl (outcome_currentPolicy hd))
  next hpolicy =>
  exact wp_exceptionBlock.mpr (hadmitted f start hours ⟨hf, hs, strict_eq_ok.mp hhours, hpolicy⟩)

/-- A booking that goes through: what was found, who is booked, on which tables and as
which row. -/
structure Placement (env : Environment) (request : BookingRequest) (readings : Readings)
    (tieRank : Option ℤ) (db : Database) where
  foundation : Foundation
  start : ResolvedStart
  hours : RestaurantOperatingHours
  customer : Customer
  isNew : Bool
  resolved : Database
  allocation : Allocation
  reservation : Reservation
  valid : request.Valid env.character
  admitted : Admitted env request readings db foundation start hours
  resolves : Resolves request db customer isNew resolved
  identifies : Identifies env request customer
  allocates : Allocates resolved foundation start request.partySize tieRank readings allocation
  bookable : Bookable env request start customer allocation resolved
  booked : IsBooked env request start reservation.reservationId customer.customerId reservation
  unused : ¬ InUse db .reservation reservation.reservationId

namespace Placement

/-- The row the booking returns. -/
def row (b : Placement env request readings tieRank db) : BookingRow :=
  bookedRow request b.start (request.served b.customer)
    (!b.isNew && decide (DifferingPhone b.customer request)) b.reservation.reservationId
    b.allocation (env.fingerprint b.customer.customerId b.start.startsAt request.partySize)

/-- The database the booking leaves. -/
def after (b : Placement env request readings tieRank db) : Database :=
  b.resolved.withBooking (request.served b.customer) b.reservation b.allocation.tableNumbers

theorem row_books (b : Placement env request readings tieRank db) : b.row.outcome.Books :=
  books_bookedRow

theorem unused_resolved (b : Placement env request readings tieRank db) :
    ¬ InUse b.resolved .reservation b.reservation.reservationId := by
  rw [b.resolves.restaurant]
  exact b.unused

theorem served_check (b : Placement env request readings tieRank db) :
    (request.served b.customer).Check env.character :=
  subscribed_check (populated_check b.valid
    (b.bookable.constraints.customers_ck _ b.bookable.customer))

end Placement

/-- A booking that is turned away after its customer was found to fit. -/
structure Rejection (env : Environment) (request : BookingRequest) (readings : Readings)
    (tieRank : Option ℤ) (db : Database) where
  foundation : Foundation
  start : ResolvedStart
  hours : RestaurantOperatingHours
  customer : Customer
  isNew : Bool
  resolved : Database
  outcome : Outcome
  detail : Detail
  valid : request.Valid env.character
  admitted : Admitted env request readings db foundation start hours
  resolves : Resolves request db customer isNew resolved
  unserved : Unserved env request foundation start tieRank readings resolved customer outcome detail

/-- The row of the handler. -/
def Rejection.row (t : Rejection env request readings tieRank db) : BookingRow :=
  abortedRow request t.start t.outcome t.detail
    (env.fingerprint t.customer.customerId t.start.startsAt request.partySize)

theorem plain_of_canonicalEmailLockKey {email : Text} {e : SqlError}
    (h : canonicalEmailLockKey env email = .error e) : Plain e := by
  unfold canonicalEmailLockKey at h
  split at h <;> cases h
  exact nofun

theorem canonicalEmailLockKey_of_valid (hv : request.Valid env.character) :
    canonicalEmailLockKey env request.email = .ok (emailKey env request.email) := by
  unfold canonicalEmailLockKey
  rw [if_neg]
  rintro (h | h | h)
  · exact hv.email.1 h
  · exact h hv.email.2.1
  · exact h hv.email.2.2.1

/-- An error that the handler lets through ends the call. -/
theorem caught_of_plain {Q : Empty → Memory Database Sequence → Prop}
    {R : Answer → Memory Database Sequence → Prop} {E : SqlError → Memory Database Sequence → Prop}
    {e : SqlError} (h : Plain e) (hE : E e m) : caught (abortHandler request start) Q R E e m := by
  cases e with
  | bookingAborted o d fingerprint => exact absurd rfl (h o d fingerprint)
  | _ => exact hE

/-- Every exit of a booking whose input has passed its check. -/
theorem wp_bookRequest_exits {P : BookingRow → Database → Prop}
    (hc : Constraints env.character m.view) (hfresh : ∀ q, ¬ InUse m.view q (m.supply q 0))
    (hv : request.Valid env.character)
    (hrefused : ∀ row, ¬ row.outcome.Books → ¬ row.Aborted → P row m.view)
    (hrejected : ∀ t : Rejection env request readings tieRank m.view, P t.row m.view)
    (hbooked : ∀ b : Placement env request readings tieRank m.view, P b.row b.after) :
    (bookRequest env request tieRank stage readings).wp (fun x _ => x.elim)
      (fun ans m' => ∃ row, ans = .booking row ∧ P row m'.view)
      (fun e _ => Expected m.view e) m := by
  refine wp_bookRequest_stages (fun o d ho => ⟨_, rfl, hrefused _ ?_ ?_⟩) (fun _ he => he)
    fun f start hours hadm => ?_
  · rcases ho with rfl | ⟨rfl, -⟩ <;> simp [refusal, Outcome.Books]
  · simp [refusal, BookingRow.Aborted]
  -- an abort restores the view the block began with
  have serve : ∀ (c : Customer) (isNew : Bool) (m' : Memory Database Sequence),
      m'.marks = m.view :: m.marks → Resolves request m.view c isNew m'.view →
      m'.supply .reservation 0 = m.supply .reservation 0 → (isNew = false → m'.view = m.view) →
      (serveCustomer env request f start tieRank stage readings c isNew).wp (fun x _ => x.elim)
        (fun ans m' => ∃ row, ans = .booking row ∧ P row m'.view)
        (caught (abortHandler request start) (fun x _ => x.elim)
          (fun ans m' => ∃ row, ans = .booking row ∧ P row m'.view)
          fun e _ => Expected m.view e) m' := by
    intro c isNew m' hmarks hres hsupply hview
    refine wp_serveCustomer hres hc hv hadm.foundation hadm.resolved ?_ (fun row hnew ho hd => ?_)
      (fun o d ht => ?_) (fun e he m' => ?_) fun a r hid ha hb hr => ?_
    · rw [hsupply, hres.restaurant]
      exact hfresh .reservation
    · exact ⟨row, rfl, hview hnew ▸ hrefused row ho hd⟩
    · refine ⟨_, rfl, ?_⟩
      rw [hmarks]
      exact hrejected ⟨f, start, hours, c, isNew, m'.view, o, d, hv, hadm, hres, ht⟩
    · exact caught_of_plain he.plain he
    · have hn : r.reservationId = m.supply .reservation 0 := hr.reservationId.trans hsupply
      exact ⟨_, rfl, hbooked {
        foundation := f
        start, hours
        customer := c
        isNew
        resolved := m'.view
        allocation := a
        reservation := r
        valid := hv
        admitted := hadm
        resolves := hres
        identifies := hid
        allocates := ha
        bookable := hb
        booked := hr.reservationId.symm ▸ hr
        unused := hn ▸ hfresh .reservation }⟩
  unfold bookingBlock
  refine bind_wp (wp_liftExcept.mpr ?_)
  split
  case h_2 e he =>
    rw [canonicalEmailLockKey_of_valid hv] at he
    cases he
  refine bind_wp (wp_acquire.mpr (bind_wp (wp_resolveCustomer hv (hfresh .customer)
    (fun c hmem he _ => ?_) (fun hno => ?_)
    fun s _ m' => caught_of_plain plain_injectedFailure .injectedFailure)))
  · exact serve c false { m with marks := m.view :: m.marks } rfl (.stored c hmem he) rfl
      fun _ => rfl
  · exact serve _ true
      { view := m.view.addCustomer (request.newCustomer (m.supply .customer 0))
        marks := m.view :: m.marks
        supply := advance m.supply .customer } rfl
      (.created _ (hfresh .customer) hno) (by simp [advance]) nofun

/-- The exits of a booking, as far as the database is concerned. -/
theorem wp_bookRequest {P : BookingRow → Database → Prop} (hc : Constraints env.character m.view)
    (hfresh : ∀ q, ¬ InUse m.view q (m.supply q 0)) (hv : request.Valid env.character)
    (hrefused : ∀ row, ¬ row.outcome.Books → P row m.view)
    (hbooked : ∀ b : Placement env request readings tieRank m.view, P b.row b.after) :
    (bookRequest env request tieRank stage readings).wp (fun x _ => x.elim)
      (fun ans m' => ∃ row, ans = .booking row ∧ P row m'.view)
      (fun e _ => Expected m.view e) m :=
  wp_bookRequest_exits hc hfresh hv (fun row ho _ => hrefused row ho)
    (fun t => hrefused t.row t.unserved.turnedDown.not_books) hbooked

section Forced

variable {hours : RestaurantOperatingHours} {R : Answer → Memory Database Sequence → Prop}
  {E : SqlError → Memory Database Sequence → Prop} {Q : Empty → Memory Database Sequence → Prop}

/-- The policy refuses the start. -/
theorem wp_bookRequest_refused {o : Outcome} {d : Detail} (hf : FoundationOf env m.view f)
    (hs : ResolvedTo f request start)
    (hh : m.view.restaurantOperatingHours.filter
      (·.weekday = Time.isodow (Time.date start.localStart)) = [hours])
    (hp : currentPolicy f hours start request.partySize readings.first = some (o, d))
    (hR : R (.booking (refusal o d)) m) :
    (bookRequest env request tieRank stage readings).wp Q R E m := by
  unfold bookRequest
  refine bind_wp (wp_acquire.mpr (bind_wp (wp_lockFoundation_of hf ?_)))
  refine bind_wp (wp_resolveStart_of hs (bind_wp (wp_query.mpr (bind_wp (wp_liftExcept.mpr ?_)))))
  rw [hh]
  simp only [strict, hp]
  exact hR

/-- The policy admits the start. -/
theorem wp_bookRequest_admitted (h : Admitted env request readings m.view f start hours)
    (hb : (bookingBlock env request f start tieRank stage readings).wp Q R
      (caught (abortHandler request start) Q R E) { m with marks := m.view :: m.marks }) :
    (bookRequest env request tieRank stage readings).wp Q R E m := by
  unfold bookRequest
  refine bind_wp (wp_acquire.mpr (bind_wp (wp_lockFoundation_of h.foundation ?_)))
  refine bind_wp (wp_resolveStart_of h.resolved
    (bind_wp (wp_query.mpr (bind_wp (wp_liftExcept.mpr ?_)))))
  rw [h.openOn]
  simp only [strict, h.policy]
  exact wp_exceptionBlock.mpr hb

/-- A new customer whose party can be seated is booked. -/
theorem wp_bookRequest_new (h : Admitted env request readings m.view f start hours)
    (hc : Constraints env.character m.view) (hfresh : ∀ q, ¬ InUse m.view q (m.supply q 0))
    (hv : request.Valid env.character) (hnew : ∀ c ∈ m.view.customers, c.email ≠ request.email)
    (ha : Allocates m.view f start request.partySize tieRank readings a)
    (hR : ∀ row m', row.outcome = .booked → R (.booking row) m') :
    (bookRequest env request tieRank none readings).wp Q R E m := by
  refine wp_bookRequest_admitted h ?_
  unfold bookingBlock
  refine bind_wp (wp_liftExcept.mpr ?_)
  rw [canonicalEmailLockKey_of_valid hv]
  refine bind_wp (wp_acquire.mpr (bind_wp (wp_resolveCustomer hv (hfresh .customer)
    (fun c hm he _ => absurd he (hnew c hm)) (fun hno => ?_) nofun)))
  have hres := Resolves.created (m.supply .customer 0) (hfresh .customer) hno
  have hunique : ∀ r ∈ (m.view.addCustomer (request.newCustomer (m.supply .customer 0))).reservations,
      ¬ SameIdentity (m.supply .customer 0) start.startsAt request.partySize r := fun r hr hsame =>
    hres.unreserved hc r hr hsame.1
  have hclear : ¬ (m.view.addCustomer (request.newCustomer (m.supply .customer 0))).CustomerOverlap
      (m.supply .customer 0) start.startsAt start.endsAt := fun ⟨r, hr, hid, _⟩ =>
    hres.unreserved hc r hr hid
  have ha' : Allocates (m.view.addCustomer (request.newCustomer (m.supply .customer 0))) f start
      request.partySize tieRank readings a := ⟨ha.allocation, ha.window, ha.lead⟩
  show (serveCustomer env request f start tieRank none readings _ true).wp _ _ _ _
  unfold serveCustomer
  refine bind_wp (wp_checkIdentity (fun _ _ => ?_) fun o _ hdiff => ?_)
  swap
  · exact (hdiff.elim (hres.identifies env).names (hres.identifies env).initials).elim
  refine bind_wp (wp_exactRetry (fun r hr hsame => absurd hsame (hunique r hr)) fun _ => ?_)
  refine bind_wp (wp_rejectOverlap (fun row _ _ ho => absurd ho hclear) fun _ => ?_)
  refine bind_wp (wp_allocate_of ha' (wp_writeBooking
    (hres.bookable hc hv h.foundation h.resolved ha' hunique hclear) hv ?_
    (fun _ => hres.populated) nofun fun r hr => hR _ _ rfl))
  show ¬ InUse m.view .reservation (advance m.supply .customer .reservation 0)
  simpa [advance] using hfresh .reservation

end Forced

section Effect

/-- What a booking does to the customers: it inserts the customer of a new e-mail, or
fills in the row that has it. -/
inductive CustomerEffect (request : BookingRequest) (customers : List Customer) (customerId : ℕ) :
    List Customer → Prop
  | inserted (c : Customer) (row : c = request.subscribed (request.newCustomer customerId))
      (fresh : ∀ d ∈ customers, d.customerId ≠ customerId ∧ d.email ≠ request.email) :
    CustomerEffect request customers customerId (customers ++ [c])
  | filled (c : Customer) (stored : c ∈ customers) (email : c.email = request.email)
      (number : c.customerId = customerId) :
    CustomerEffect request customers customerId
      (customers.map fun d => if d.customerId = customerId then request.served c else d)

/-- The whole effect of a booking that was made: the reservation, its tables, and the
customer. -/
structure Booked (env : Environment) (request : BookingRequest) (db : Database) (f : Foundation)
    (start : ResolvedStart) (r : Reservation) (tables : List RestaurantTable) (row : BookingRow)
    (db' : Database) : Prop where
  foundation : FoundationOf env db f
  resolved : ResolvedTo f request start
  startsAt : r.startsAt = start.startsAt
  endsAt : r.endsAt = r.startsAt + Time.minutes f.configuration.reservationDurationMinutes
  partySize : r.partySize = request.partySize
  fresh : ∀ s ∈ db.reservations, s.reservationId ≠ r.reservationId
  reported : row.reservationId = some r.reservationId ∧ row.startsAt = some r.startsAt ∧
    row.endsAt = some r.endsAt ∧ row.partySize = some r.partySize ∧
    row.assignedTableNumbers = some (tables.map (·.tableNumber))
  distinct : (tables.map (·.tableNumber)).Nodup
  free : ∀ t ∈ tables, t ∈ db.restaurantTables ∧ ¬ db.Occupied t.tableNumber r.startsAt r.endsAt
  capacity : request.partySize ≤ (tables.map (·.seatingCapacity)).sum
  unassigned : ∀ a ∈ db.reservationTableAssignments, a.reservationId ≠ r.reservationId
  customers : CustomerEffect request db.customers r.customerId db'.customers
  database : db' = { db with
    customers := db'.customers
    reservations := db.reservations ++ [r]
    reservationTableAssignments :=
      db.reservationTableAssignments ++ tables.map fun t => ⟨r.reservationId, t.tableNumber⟩ }

/-- A booking is made with its whole effect, or nothing changes. -/
def AllOrNothing (env : Environment) (p : BookingArguments) (db : Database) :
    Exit SqlError Answer Empty × Database → Prop
  | (.returned (.booking row), db') =>
    if row.outcome.Books then
      ∃ request f start r tables, p = request.arguments ∧
        Booked env request db f start r tables row db'
    else db' = db
  | (.raised _, db') => db' = db
  | _ => False

theorem Resolves.customerEffect {isNew : Bool} (h : Resolves request db c isNew db') :
    CustomerEffect request db.customers c.customerId
      (replaceCustomer (request.served c) db').customers := by
  cases h with
  | stored c hm he =>
    unfold replaceCustomer
    rw [served_customerId]
    exact .filled c hm he rfl
  | created k hk he =>
    have hfresh : ∀ b ∈ db.customers, b.customerId ≠ k := fun b hb hid => hk ⟨b, hb, hid⟩
    rw [replaceCustomer_addCustomer (by simp) (by simpa [BookingRequest.newCustomer] using hfresh)]
    refine .inserted _ ?_ fun d hd => ⟨hfresh d hd, he d hd⟩
    unfold BookingRequest.served
    congr 1
    exact (Resolves.created k hk he).populated

/-- A placement is carried out with its whole effect. -/
theorem Placement.effect (b : Placement env request readings tieRank db)
    (hc : Constraints env.character db) :
    ∃ tables, Booked env request db b.foundation b.start b.reservation tables b.row b.after := by
  have hr := b.booked
  have hends : b.reservation.endsAt = b.reservation.startsAt +
      Time.minutes b.foundation.configuration.reservationDurationMinutes := by
    rw [hr.endsAt, hr.startsAt, b.admitted.resolved.endsAt]
  obtain ⟨tables, hsub, htables, htotal, hparty⟩ := b.bookable.seats
  have hsame := b.resolves.restaurant
  refine ⟨tables, b.admitted.foundation, b.admitted.resolved, hr.startsAt, hends, hr.partySize,
    fun s hs he => b.unused ⟨s, hs, he⟩, ⟨rfl, ?_, ?_, ?_, ?_⟩, htables ▸ b.bookable.nodup,
    fun t ht => ?_, htotal ▸ hparty, hc.unassigned b.unused, ?_, ?_⟩
  · simp [Placement.row, bookedRow, hr.startsAt]
  · simp [Placement.row, bookedRow, hr.endsAt]
  · simp [Placement.row, bookedRow, hr.partySize]
  · simp [Placement.row, bookedRow, htables]
  · obtain ⟨hmem, hfree⟩ := mem_freeTables.mp (hsub.subset ht)
    rw [hsame] at hmem hfree
    rw [hr.startsAt, hr.endsAt]
    exact ⟨hmem, hfree⟩
  · rw [hr.customerId]
    exact b.resolves.customerEffect
  · unfold Placement.after
    rw [hsame, htables]
    simp [Database.withBooking, addAssignments, addReservation, replaceCustomer]

/-- A booking call is all or nothing, whatever its arguments and failures. -/
theorem transact_bookReservationCore {isolation : IsolationLevel} {p : BookingArguments}
    (hc : Constraints env.character m.view) (hfresh : ∀ q, ¬ InUse m.view q (m.supply q 0)) :
    AllOrNothing env p m.view
      ((bookReservationCore env isolation p tieRank stage readings).transact m) := by
  refine transact_of_wp ?_
  unfold bookReservationCore
  split
  · simp [wp_ret, AllOrNothing, refusal, Outcome.Books]
  split
  · simp [wp_ret, AllOrNothing, refusal, Outcome.Books]
  next request hrequest =>
  obtain ⟨rfl, hv, -⟩ := normalizedInput_eq_some.mp hrequest
  refine wp_mono (wp_bookRequest
    (P := fun row db' => AllOrNothing env request.arguments m.view (.returned (.booking row), db'))
    hc hfresh hv (fun row ho => ?_) fun b => ?_) (fun x _ => x.elim) ?_ fun _ _ _ => rfl
  · simp [AllOrNothing, ho]
  · simp only [AllOrNothing, b.row_books, if_true]
    obtain ⟨tables, htables⟩ := b.effect hc
    exact ⟨request, b.foundation, b.start, b.reservation, tables, rfl, htables⟩
  · rintro _ m' ⟨row, rfl, h⟩
    exact h

end Effect

end CafeFausse
