import CafeFausse.Routines.BookingStages

/-! # What a booking writes

Once the tables are chosen, the statements that follow go through: the customer row is
filled in, the reservation and its assignments are inserted, and the postconditions
hold. Only an injected failure ends the call before its row.
-/

namespace CafeFausse

open Transaction Program Database

variable {env : Environment} {ct : CharacterType} {request : BookingRequest}
  {m : Memory Database Sequence} {R : Answer → Memory Database Sequence → Prop}
  {E : SqlError → Memory Database Sequence → Prop} {stage : Option FailureStage}

/-- The customer with the optional fields filled in that were missing. -/
def BookingRequest.populated (request : BookingRequest) (c : Customer) : Customer :=
  { c with
    middleInitial := c.middleInitial.or request.middleInitial
    phone := c.phone.or request.phone }

/-- The customer after the newsletter action. -/
def BookingRequest.subscribed (request : BookingRequest) (c : Customer) : Customer :=
  if request.newsletterAction = .noChange then c
  else { c with newsletterSubscribed := decide (request.newsletterAction = .subscribe) }

/-- The customer row that a booking leaves. -/
def BookingRequest.served (request : BookingRequest) (c : Customer) : Customer :=
  request.subscribed (request.populated c)

@[simp] theorem populated_customerId (c : Customer) :
    (request.populated c).customerId = c.customerId := rfl
@[simp] theorem populated_email (c : Customer) : (request.populated c).email = c.email := rfl

@[simp] theorem subscribed_customerId (c : Customer) :
    (request.subscribed c).customerId = c.customerId := by
  unfold BookingRequest.subscribed; split <;> rfl

@[simp] theorem subscribed_email (c : Customer) : (request.subscribed c).email = c.email := by
  unfold BookingRequest.subscribed; split <;> rfl

@[simp] theorem served_customerId (c : Customer) :
    (request.served c).customerId = c.customerId := by simp [BookingRequest.served]

@[simp] theorem served_email (c : Customer) : (request.served c).email = c.email := by
  simp [BookingRequest.served]

theorem populated_check (hv : request.Valid ct) {c : Customer} (hc : c.Check ct) :
    (request.populated c).Check ct where
  firstName := hc.firstName
  middleInitial i hi := by
    rcases Option.or_eq_some_iff.mp hi with h | ⟨-, h⟩
    · exact hc.middleInitial i h
    · exact hv.middleInitial i h
  lastName := hc.lastName
  email := hc.email
  phone n hn := by
    rcases Option.or_eq_some_iff.mp hn with h | ⟨-, h⟩
    · exact hc.phone n h
    · exact hv.phone n h

theorem Customer.Check.newsletter {c : Customer} (hc : c.Check ct) (b : Bool) :
    ({ c with newsletterSubscribed := b } : Customer).Check ct :=
  ⟨hc.firstName, hc.middleInitial, hc.lastName, hc.email, hc.phone⟩

theorem subscribed_check {c : Customer} (hc : c.Check ct) : (request.subscribed c).Check ct := by
  unfold BookingRequest.subscribed
  split
  · exact hc
  · exact hc.newsletter _

theorem wp_updateCustomer {c : Customer} {change : Customer → Customer}
    {Q : Customer → Memory Database Sequence → Prop} (h : Constraints env.character m.view)
    (hc : c ∈ m.view.customers) (hid : (change c).customerId = c.customerId)
    (hck : (change c).Check env.character)
    (hQ : Q (change c) { m with view := m.view.replaceCustomer (change c) }) :
    (updateCustomer env c change).wp Q R E m := by
  have hfilter := filter_eq_of_nodup h.customers_pk hc
  unfold updateCustomer
  refine bind_wp (wp_execute.mpr ?_)
  simp only [Database.updateCustomer, hfilter, List.map_cons, List.map_nil, List.mem_singleton,
    exists_eq_left, hck, not_true_eq_false, if_false, List.head?_cons, updateRows_eq h hc hid]
  exact hQ

theorem wp_populateOptionalFields {c : Customer} {isNewCustomer : Bool}
    {Q : Customer → Memory Database Sequence → Prop} (h : Constraints env.character m.view)
    (hv : request.Valid env.character) (hc : c ∈ m.view.customers)
    (hnew : isNewCustomer = true → request.populated c = c)
    (hE : ∀ s, stage = some s → ∀ m', E (.injectedFailure s) m')
    (hQ : Q (request.populated c) { m with view := m.view.replaceCustomer (request.populated c) }) :
    (populateOptionalFields env request stage c isNewCustomer).wp Q R E m := by
  unfold populateOptionalFields
  simp only
  split
  · next hpop =>
    have hchange : ({ c with
        middleInitial := if (!isNewCustomer && c.middleInitial.isNone && request.middleInitial.isSome)
          then request.middleInitial else c.middleInitial
        phone := if (!isNewCustomer && c.phone.isNone && request.phone.isSome)
          then request.phone else c.phone } : Customer) = request.populated c := by
      cases isNewCustomer
      · unfold BookingRequest.populated
        congr 1
        · cases c.middleInitial <;> cases request.middleInitial <;> rfl
        · cases c.phone <;> cases request.phone <;> rfl
      · simp at hpop
    refine bind_wp (wp_updateCustomer h hc rfl ?_ ?_)
    · rw [hchange]
      exact populated_check hv (h.customers_ck c hc)
    · rw [hchange]
      split
      · next hs => exact hE _ hs _
      · exact hQ
  · next hpop =>
    have hsame : request.populated c = c := by
      cases isNewCustomer
      · unfold BookingRequest.populated
        rcases c with ⟨id, fn, mi, ln, em, ph, nl⟩
        cases mi <;> cases ph <;> cases hmi : request.middleInitial <;>
          cases hph : request.phone <;> simp_all
      · exact hnew rfl
    rw [hsame, replaceCustomer_self h hc] at hQ
    exact hQ

theorem wp_updateNewsletter {c : Customer} {Q : Customer → Memory Database Sequence → Prop}
    (h : Constraints env.character m.view) (hc : c ∈ m.view.customers)
    (hE : ∀ s, stage = some s → ∀ m', E (.injectedFailure s) m')
    (hQ : Q (request.subscribed c) { m with view := m.view.replaceCustomer (request.subscribed c) }) :
    (updateNewsletter env request stage c).wp Q R E m := by
  unfold updateNewsletter
  unfold BookingRequest.subscribed at hQ
  split
  · next hact =>
    rw [if_neg hact] at hQ
    refine bind_wp (wp_updateCustomer h hc rfl ((h.customers_ck c hc).newsletter _) ?_)
    split
    · next hs => exact hE _ hs _
    · exact hQ
  · next hact =>
    rw [if_pos (not_not.mp hact), replaceCustomer_self h hc] at hQ
    exact hQ

/-- The reservation that a booking inserts. -/
structure IsBooked (env : Environment) (request : BookingRequest) (start : ResolvedStart)
    (n id : ℕ) (r : Reservation) : Prop where
  reservationId : r.reservationId = n
  customerId : r.customerId = id
  startsAt : r.startsAt = start.startsAt
  endsAt : r.endsAt = start.endsAt
  partySize : r.partySize = request.partySize
  version : r.fingerprintVersion = 1
  fingerprint : r.reservationFingerprint =
    env.fingerprint id start.startsAt request.partySize

theorem wp_insertReservation {start : ResolvedStart} {customerId : ℕ}
    {Q : ℕ → Memory Database Sequence → Prop}
    (hduration : start.endsAt - start.startsAt ∈
      [Time.minutes 60, Time.minutes 90, Time.minutes 120])
    (hparty : 0 < request.partySize)
    (hfresh : ¬ InUse m.view .reservation (m.supply .reservation 0))
    (hnone : ∀ r ∈ m.view.reservations,
      ¬ SameIdentity customerId start.startsAt request.partySize r)
    (hfk : ∃ c ∈ m.view.customers, c.customerId = customerId)
    (hE : ∀ s, stage = some s → ∀ m', E (.injectedFailure s) m')
    (hQ : ∀ r, IsBooked env request start (m.supply .reservation 0) customerId r →
      Q (m.supply .reservation 0)
        { m with view := m.view.addReservation r, supply := advance m.supply .reservation }) :
    (insertReservation request start stage customerId
      (env.fingerprint customerId start.startsAt request.partySize)).wp Q R E m := by
  unfold insertReservation
  refine bind_wp (wp_draw.mpr (bind_wp (wp_liftExcept.mpr ?_)))
  unfold Reservation.checked
  rw [dif_pos ⟨hduration, hparty, env.fingerprint_ne_nil _ _ _⟩]
  refine bind_wp (wp_attempt.mpr ?_)
  have hunique : ¬ ∃ r ∈ m.view.reservations, r.reservationId = m.supply .reservation 0 ∨
      r.customerId = customerId ∧ r.startsAt = start.startsAt ∧ r.partySize = request.partySize := by
    rintro ⟨r, hr, hid | hs⟩
    · exact hfresh ⟨r, hr, hid⟩
    · exact hnone r hr hs
  simp only [Database.insertReservation, if_neg hunique]
  rw [if_neg (by simpa using hfk)]
  simp only
  split
  · next hs => exact hE _ hs _
  · exact hQ _ ⟨rfl, rfl, rfl, rfl, rfl, rfl, rfl⟩

/-- One assignment for each of the tables. -/
def Database.addAssignments (reservationId : ℕ) (tables : List ℤ) (db : Database) : Database :=
  { db with reservationTableAssignments :=
      db.reservationTableAssignments ++ tables.map (⟨reservationId, ·⟩) }

theorem wp_insertAssignments {reservationId : ℕ} {Q : Unit → Memory Database Sequence → Prop}
    (tables : List ℤ) (count : ℕ) (hnodup : tables.Nodup)
    (hfk : ∃ r ∈ m.view.reservations, r.reservationId = reservationId)
    (htables : ∀ t ∈ tables, ∃ row ∈ m.view.restaurantTables, row.tableNumber = t)
    (hnew : ∀ t ∈ tables, ⟨reservationId, t⟩ ∉ m.view.reservationTableAssignments)
    (hE : ∀ s, stage = some s → ∀ m', E (.injectedFailure s) m')
    (hQ : Q () { m with view := m.view.addAssignments reservationId tables }) :
    (insertAssignments reservationId stage tables count).wp Q R E m := by
  induction tables generalizing m count with
  | nil =>
    have hm : ({ m with view := m.view.addAssignments reservationId [] } :
        Memory Database Sequence) = m := by simp [Database.addAssignments]
    rw [hm] at hQ
    exact hQ
  | cons t ts ih =>
    obtain ⟨hts, hnodup⟩ := List.nodup_cons.mp hnodup
    have hok : Database.insertAssignment ⟨reservationId, t⟩ m.view =
        .ok ((), addAssignment ⟨reservationId, t⟩) := by
      unfold Database.insertAssignment
      rw [if_neg (hnew t (List.mem_cons_self ..)), if_neg]
      rintro (h | h)
      · obtain ⟨r, hr, hid⟩ := hfk
        exact h r hr hid
      · obtain ⟨row, hrow, hn⟩ := htables t (List.mem_cons_self ..)
        exact h row hrow hn
    unfold insertAssignments
    refine bind_wp (wp_execute.mpr ?_)
    simp only [hok]
    split
    · next hs => exact hE _ hs.2 _
    · refine ih (count + 1) hnodup hfk (fun u hu => htables u (List.mem_cons_of_mem _ hu))
        (fun u hu hm => ?_) ?_
      · rcases List.mem_append.mp hm with hm | hm
        · exact hnew u (List.mem_cons_of_mem _ hu) hm
        · have : u = t := by simpa using hm
          exact hts (this ▸ hu)
      · simpa [Database.addAssignments, addAssignment] using hQ

section Written

variable {start : ResolvedStart} {c : Customer} {a : Allocation} {db : Database}

/-- Free tables that seat the party. -/
def Database.Seats (db : Database) (start : ResolvedStart) (partySize : ℤ) (a : Allocation) :
    Prop :=
  ∃ rows : List RestaurantTable, rows.Sublist (db.freeTables start.startsAt start.endsAt) ∧
    a.tableNumbers = rows.map (·.tableNumber) ∧
    a.totalCapacity = (rows.map (·.seatingCapacity)).sum ∧ partySize ≤ a.totalCapacity

/-- What the checks of a booking have established when it begins to write. -/
structure Bookable (env : Environment) (request : BookingRequest) (start : ResolvedStart)
    (c : Customer) (a : Allocation) (db : Database) : Prop where
  constraints : Constraints env.character db
  customer : c ∈ db.customers
  duration : start.endsAt - start.startsAt ∈
    [Time.minutes 60, Time.minutes 90, Time.minutes 120]
  party : 0 < request.partySize
  unique : ∀ r ∈ db.reservations,
    ¬ SameIdentity c.customerId start.startsAt request.partySize r
  clear : ¬ db.CustomerOverlap c.customerId start.startsAt start.endsAt
  seats : db.Seats start request.partySize a
  capacity : (db.restaurantTables.map (·.seatingCapacity)).sum ≤ 2147483647

/-- The database that a booking leaves. -/
def Database.withBooking (db : Database) (c : Customer) (r : Reservation) (tables : List ℤ) :
    Database :=
  addAssignments r.reservationId tables (addReservation r (replaceCustomer c db))

theorem mem_freeTables {startsAt endsAt : ℤ} {t : RestaurantTable} :
    t ∈ db.freeTables startsAt endsAt ↔
      t ∈ db.restaurantTables ∧ ¬ db.Occupied t.tableNumber startsAt endsAt := by
  simp [freeTables]

theorem Database.Seats.free {partySize : ℤ} (h : db.Seats start partySize a) :
    ∀ t ∈ a.tableNumbers, (∃ row ∈ db.restaurantTables, row.tableNumber = t) ∧
      ¬ db.Occupied t start.startsAt start.endsAt := by
  obtain ⟨rows, hsub, htables, -, -⟩ := h
  intro t ht
  rw [htables] at ht
  obtain ⟨row, hrow, rfl⟩ := List.mem_map.mp ht
  obtain ⟨hmem, hfree⟩ := mem_freeTables.mp (hsub.subset hrow)
  exact ⟨⟨row, hmem, rfl⟩, hfree⟩

theorem Bookable.nodup (h : Bookable env request start c a db) : a.tableNumbers.Nodup := by
  obtain ⟨rows, hsub, htables, -, -⟩ := h.seats
  rw [htables]
  refine (hsub.map _).nodup ?_
  refine (((Sql.orderBy_perm _ _).map _).nodup_iff).mpr ?_
  exact (List.filter_sublist.map _).nodup h.constraints.tables_pk

/-- No assignment mentions a reservation that is not there. -/
theorem Constraints.unassigned (h : Constraints ct db) {n : ℕ} (hn : ¬ InUse db .reservation n) :
    ∀ x ∈ db.reservationTableAssignments, x.reservationId ≠ n := by
  intro x hx he
  obtain ⟨r, hr, hid⟩ := h.assignments_reservation_fk x hx
  exact hn ⟨r, hr, hid.trans he⟩

/-- The tables assigned to the new reservation are those of the allocation. -/
theorem assignedTables_withBooking (h : Constraints ct db) {d : Customer} {r : Reservation}
    (hn : ¬ InUse db .reservation r.reservationId) {rows : List RestaurantTable}
    (hrows : ∀ row ∈ rows, row ∈ db.restaurantTables) :
    (db.withBooking d r (rows.map (·.tableNumber))).assignedTables r.reservationId = rows := by
  have hold : db.reservationTableAssignments.filter (·.reservationId = r.reservationId) = [] :=
    List.filter_eq_nil_iff.mpr fun x hx => by simpa using h.unassigned hn x hx
  have hnew : ((rows.map (·.tableNumber)).map (⟨r.reservationId, ·⟩ :
      ℤ → ReservationTableAssignment)).filter (·.reservationId = r.reservationId) =
      rows.map fun row => ⟨r.reservationId, row.tableNumber⟩ := by
    rw [List.map_map, List.filter_eq_self.mpr]
    · rfl
    · intro x hx
      obtain ⟨row, -, rfl⟩ := List.mem_map.mp hx
      simp
  unfold Database.assignedTables
  show List.flatMap _ ((db.reservationTableAssignments ++ _).filter _) = rows
  rw [List.filter_append, hold, hnew, List.nil_append, List.flatMap_map]
  have hone : ∀ row ∈ rows,
      db.restaurantTables.filter (·.tableNumber = row.tableNumber) = [row] := fun row hrow =>
    filter_eq_of_nodup h.tables_pk (hrows row hrow)
  show rows.flatMap (fun row => db.restaurantTables.filter (·.tableNumber = row.tableNumber)) = rows
  rw [List.flatMap_congr hone]
  simp

/-- The rows of a booking do not violate its postconditions. -/
theorem Bookable.not_violated (h : Bookable env request start c a db) {d : Customer}
    {r : Reservation} {n : ℕ} (hr : IsBooked env request start n c.customerId r) :
    ¬ (db.withBooking d r a.tableNumbers).Violated env a start c.customerId n
      request.partySize := by
  have hother : ∀ x ∈ (db.withBooking d r a.tableNumbers).reservations, x.reservationId ≠ n →
      x ∈ db.reservations := by
    intro x hx hne
    rcases List.mem_append.mp hx with hx | hx
    · exact hx
    · obtain rfl := List.mem_singleton.mp hx
      exact absurd hr.reservationId hne
  rintro (⟨x, hx, hxt, y, hy, hyx, hyn, ho⟩ | ⟨x, hx, hxc, hxn, ho⟩ | hall)
  · rcases List.mem_append.mp hx with hx | hx
    · exact (h.seats.free _ hxt).2 ⟨x, hx, rfl, y, hother y hy hyn, hyx, ho⟩
    · obtain ⟨t, -, rfl⟩ := List.mem_map.mp hx
      exact hyn (hyx.trans hr.reservationId)
  · exact h.clear ⟨x, hother x hx hxn, hxc, ho⟩
  · exact hall r (List.mem_append_right _ (List.mem_singleton_self r)) hr.reservationId hr.version
      hr.fingerprint

theorem wp_checkPostconditions {d : Customer} {r : Reservation} {n : ℕ}
    {Q : Unit → Memory Database Sequence → Prop} (h : Bookable env request start c a db)
    (hn : ¬ InUse db .reservation n) (hr : IsBooked env request start n c.customerId r)
    (hm : m.view = db.withBooking d r a.tableNumbers) (hQ : Q () m) :
    (checkPostconditions env request start a c.customerId n).wp Q R E m := by
  obtain ⟨rows, hsub, htables, htotal, hparty⟩ := h.seats
  have hassigned : m.view.assignedTables n = rows := by
    rw [hm, htables, ← hr.reservationId]
    exact assignedTables_withBooking h.constraints (hr.reservationId ▸ hn)
      fun row hrow => (mem_freeTables.mp (hsub.subset hrow)).1
  have hpos : rows ≠ [] := by
    rintro rfl
    have := h.party
    simp only [List.map_nil, List.sum_nil] at htotal
    omega
  have hle := (capacity_le (hsub.subperm.trans (freeTables_subperm db _ _))).trans h.capacity
  have hint : nullableInteger (Sql.sum (rows.map (·.seatingCapacity))) =
      .ok (some a.totalCapacity) := by
    have := h.party
    unfold Sql.sum
    rw [if_neg (by simpa using hpos), ← htotal]
    simp only [nullableInteger, integer]
    rw [if_pos ⟨by omega, by omega⟩]
    rfl
  unfold checkPostconditions
  refine bind_wp (wp_query.mpr (bind_wp (wp_liftExcept.mpr ?_)))
  rw [hassigned, hint]
  refine bind_wp (wp_query.mpr ?_)
  rw [if_neg]
  · exact hQ
  rintro (hcount | hcount | hcap | ⟨x, hx, hne⟩ | hv)
  · exact hcount (by rw [htables, List.length_map])
  · exact hpos (List.length_eq_zero_iff.mp (by omega))
  · exact absurd (Sql.less_eq_true.mp hcap) (not_lt.mpr hparty)
  · exact hne (Option.some.inj hx)
  · exact h.not_violated hr (hm ▸ of_decide_eq_true hv)

theorem Bookable.withCustomer (h : Bookable env request start c a db) {d : Customer}
    (hd : d.Check env.character) (hid : d.customerId = c.customerId) (hemail : d.email = c.email) :
    Bookable env request start d a (replaceCustomer d db) where
  constraints := h.constraints.replaceCustomer hd h.customer hid hemail
  customer := mem_replaceCustomer h.customer hid
  duration := h.duration
  party := h.party
  unique := hid ▸ h.unique
  clear := hid ▸ h.clear
  seats := h.seats
  capacity := h.capacity

/-- Once the checks have passed, the statements that write go through. -/
theorem wp_writeBooking {isNewCustomer : Bool} {Q : Empty → Memory Database Sequence → Prop}
    (h : Bookable env request start c a m.view) (hv : request.Valid env.character)
    (hfresh : ¬ InUse m.view .reservation (m.supply .reservation 0))
    (hnew : isNewCustomer = true → request.populated c = c)
    (hE : ∀ s, stage = some s → ∀ m', E (.injectedFailure s) m')
    (hR : ∀ r, IsBooked env request start (m.supply .reservation 0) c.customerId r →
      R (.booking (bookedRow request start (request.served c)
          (!isNewCustomer && decide (DifferingPhone c request)) r.reservationId a
          (env.fingerprint c.customerId start.startsAt request.partySize)))
        { m with
          view := m.view.withBooking (request.served c) r a.tableNumbers
          supply := advance m.supply .reservation }) :
    (writeBooking env request start stage c isNewCustomer
      (env.fingerprint c.customerId start.startsAt request.partySize) a).wp Q R E m := by
  have hpop := populated_check hv (h.constraints.customers_ck c h.customer)
  have h₁ := h.withCustomer hpop (populated_customerId c) (populated_email c)
  have h₂ := h.withCustomer (subscribed_check hpop) (served_customerId c) (served_email c)
  unfold writeBooking
  refine bind_wp (wp_populateOptionalFields h.constraints hv h.customer hnew hE ?_)
  refine bind_wp (wp_updateNewsletter h₁.constraints h₁.customer hE ?_)
  simp only
  rw [replaceCustomer_replaceCustomer (by simp)]
  have hfp : env.fingerprint c.customerId start.startsAt request.partySize =
      env.fingerprint (request.served c).customerId start.startsAt request.partySize := by simp
  change Bookable env request start (request.served c) a
    (replaceCustomer (request.served c) m.view) at h₂
  rw [hfp]
  refine bind_wp (wp_insertReservation h₂.duration h₂.party hfresh h₂.unique
    ⟨_, h₂.customer, rfl⟩ hE fun r hr => ?_)
  have hview : m.view.withBooking (request.served c) r a.tableNumbers =
      addAssignments (m.supply .reservation 0) a.tableNumbers
        (addReservation r (replaceCustomer (request.served c) m.view)) := by
    rw [Database.withBooking, hr.reservationId]
  refine bind_wp (wp_insertAssignments a.tableNumbers 0 h.nodup
    ⟨r, List.mem_append_right _ (List.mem_singleton_self r), hr.reservationId⟩
    (fun t ht => (h.seats.free t ht).1)
    (fun t _ hm => h₂.constraints.unassigned hfresh _ hm rfl) hE ?_)
  refine bind_wp (wp_checkPostconditions (d := request.served c) h₂ hfresh hr ?_ ?_)
  · refine hview.symm.trans ?_
    rw [Database.withBooking, Database.withBooking, replaceCustomer_replaceCustomer rfl]
  · have hbooked := hR r (by simpa using hr)
    rw [hr.reservationId, hfp, hview] at hbooked
    exact hbooked

end Written

end CafeFausse
