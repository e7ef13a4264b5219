import CafeFausse.Routines.Consistency

/-! # What no call takes back

Customers keep their number, e-mail and names, and a middle initial that is set.
Reservations stay, with the tables assigned to them. Hence the record of a booking
outlives every later call.
-/

namespace CafeFausse

open Transaction Program Database

/-- The row keeps what identifies the customer. -/
structure Customer.Keeps (c c' : Customer) : Prop where
  customerId : c'.customerId = c.customerId
  firstName : c'.firstName = c.firstName
  middleInitial : ∀ i ∈ c.middleInitial, c'.middleInitial = some i
  lastName : c'.lastName = c.lastName
  email : c'.email = c.email

theorem Customer.Keeps.refl (c : Customer) : c.Keeps c := ⟨rfl, rfl, fun _ h => h, rfl, rfl⟩

theorem Customer.Keeps.trans {a b c : Customer} (h : a.Keeps b) (h' : b.Keeps c) : a.Keeps c :=
  ⟨h'.1.trans h.1, h'.2.trans h.2, fun i hi => h'.3 i (h.3 i hi), h'.4.trans h.4, h'.5.trans h.5⟩

/-- Nothing that identifies a customer or makes up a reservation is taken back. -/
structure Evolves (db db' : Database) : Prop where
  customers : ∀ c ∈ db.customers, ∃ c' ∈ db'.customers, c.Keeps c'
  reservations : ∀ r ∈ db.reservations, r ∈ db'.reservations
  assignments : ∀ r ∈ db.reservations,
    db'.reservationTableAssignments.filter (·.reservationId = r.reservationId) =
      db.reservationTableAssignments.filter (·.reservationId = r.reservationId)

theorem Evolves.refl (db : Database) : Evolves db db :=
  ⟨fun c hc => ⟨c, hc, .refl c⟩, fun _ hr => hr, fun _ _ => rfl⟩

theorem Evolves.trans {a b c : Database} (h : Evolves a b) (h' : Evolves b c) : Evolves a c where
  customers x hx := by
    obtain ⟨y, hy, hxy⟩ := h.customers x hx
    obtain ⟨z, hz, hyz⟩ := h'.customers y hy
    exact ⟨z, hz, hxy.trans hyz⟩
  reservations r hr := h'.reservations r (h.reservations r hr)
  assignments r hr := (h'.assignments r (h.reservations r hr)).trans (h.assignments r hr)

variable {env : Environment} {ct : CharacterType} {request : BookingRequest} {readings : Readings}
  {tieRank : Option ℤ} {db db' : Database} {c d : Customer}

theorem keeps_served (c : Customer) : c.Keeps (request.served c) where
  customerId := served_customerId c
  firstName := by unfold BookingRequest.served BookingRequest.subscribed; split <;> rfl
  middleInitial i hi := by
    have : (request.served c).middleInitial = c.middleInitial.or request.middleInitial := by
      unfold BookingRequest.served BookingRequest.subscribed; split <;> rfl
    rw [this, Option.mem_def.mp hi]
    rfl
  lastName := by unfold BookingRequest.served BookingRequest.subscribed; split <;> rfl
  email := served_email c

/-- Replacing a row relates every row to itself or to the replacement. -/
theorem exists_replaceCustomer {T : Customer → Customer → Prop} (hrefl : ∀ x, T x x)
    (h : Constraints ct db) (hd : d ∈ db.customers) (hid : c.customerId = d.customerId)
    (hT : T d c) : ∀ x ∈ db.customers, ∃ y ∈ (replaceCustomer c db).customers, T x y := by
  intro x hx
  refine ⟨_, List.mem_map_of_mem hx, ?_⟩
  split
  · next hxc =>
    obtain rfl := eq_of_customerId h hx hd (hxc.trans hid)
    exact hT
  · exact hrefl x

/-- Replacing a row by one that keeps its identity. -/
theorem customers_replaceCustomer (h : Constraints ct db) (hd : d ∈ db.customers)
    (hk : d.Keeps c) : ∀ x ∈ db.customers, ∃ y ∈ (replaceCustomer c db).customers, x.Keeps y :=
  exists_replaceCustomer Customer.Keeps.refl h hd hk.customerId hk

/-- A booking adds its rows and keeps those that were there. -/
theorem Placement.evolves (b : Placement env request readings tieRank db) : Evolves db b.after where
  customers x hx := by
    have hx' : x ∈ b.resolved.customers := by
      have hres := b.resolves
      generalize b.customer = c, b.isNew = isNew, b.resolved = db' at hres
      cases hres with
      | stored => exact hx
      | created => exact List.mem_append_left _ hx
    exact customers_replaceCustomer b.bookable.constraints b.bookable.customer
      (keeps_served b.customer) x hx'
  reservations r hr := by
    refine mem_reservations_withBooking.mpr (.inl ?_)
    rw [b.resolves.restaurant]
    exact hr
  assignments r hr := by
    have hnew : (b.allocation.tableNumbers.map fun t => (⟨b.reservation.reservationId, t⟩ :
        ReservationTableAssignment)).filter (·.reservationId = r.reservationId) = [] := by
      refine List.filter_eq_nil_iff.mpr fun x hx => ?_
      obtain ⟨t, -, rfl⟩ := List.mem_map.mp hx
      simpa using fun he => b.unused ⟨r, hr, he.symm⟩
    show (b.resolved.reservationTableAssignments ++ b.allocation.tableNumbers.map _).filter _ = _
    rw [List.filter_append, hnew, List.append_nil, b.resolves.restaurant]

/-- Every change is an evolution. -/
theorem Change.evolves (hc : Constraints env.character db) (h : Change env db db') :
    Evolves db db' := by
  cases h with
  | same => exact .refl db
  | booked b => exact b.evolves
  | subscribed row check fresh =>
    exact ⟨fun x hx => ⟨x, List.mem_append_left _ hx, .refl x⟩, fun _ hr => hr, fun _ _ => rfl⟩
  | preference c stored flag =>
    exact ⟨customers_replaceCustomer hc stored ⟨rfl, rfl, fun _ h => h, rfl, rfl⟩, fun _ hr => hr,
      fun _ _ => rfl⟩
  | configuration row timezone => exact ⟨(Evolves.refl db).1, (Evolves.refl db).2, fun _ _ => rfl⟩
  | hours row => exact ⟨(Evolves.refl db).1, (Evolves.refl db).2, fun _ _ => rfl⟩
  | table row => exact ⟨(Evolves.refl db).1, (Evolves.refl db).2, fun _ _ => rfl⟩

/-- The database records the booking of the request as this reservation. -/
structure Recorded (env : Environment) (request : BookingRequest) (r : Reservation)
    (tables : Option (List ℤ)) (c : Customer) (db : Database) : Prop where
  customer : c ∈ db.customers
  email : c.email = request.email
  identifies : Identifies env request c
  initial : c.middleInitial = none → request.middleInitial = none
  reservation : r ∈ db.reservations
  customerId : r.customerId = c.customerId
  startsAt : ∃ l, request.localStart = .finite l ∧
    r.startsAt = l - Time.minutes request.utcOffsetMinutes
  partySize : r.partySize = request.partySize
  assigned : db.tableNumbersOf r.reservationId = tables

variable {r : Reservation} {tables : Option (List ℤ)}

/-- The record outlives what comes later. -/
theorem Recorded.evolves (h : Recorded env request r tables c db) (he : Evolves db db') :
    ∃ c', Recorded env request r tables c' db' := by
  obtain ⟨c', hc', hk⟩ := he.customers c h.customer
  refine ⟨c', hc', hk.email.trans h.email, ⟨?_, ?_⟩, fun hnone => ?_, he.reservations r h.reservation,
    h.customerId.trans hk.customerId.symm, h.startsAt, h.partySize, ?_⟩
  · unfold NamesDiffer
    rw [hk.firstName, hk.lastName]
    exact h.identifies.names
  · rintro ⟨s, hs, g, hg, hne⟩
    cases hm : c.middleInitial with
    | none => simp [h.initial hm] at hg
    | some i =>
      obtain rfl := Option.some.inj ((hk.middleInitial i hm).symm.trans hs)
      exact h.identifies.initials ⟨i, hm, g, hg, hne⟩
  · cases hm : c.middleInitial with
    | none => exact h.initial hm
    | some i => simp [hk.middleInitial i hm] at hnone
  · unfold Database.tableNumbersOf
    rw [he.assignments r h.reservation]
    exact h.assigned

/-- Ascending keys are in order already. -/
theorem orderBy_of_pairwise {l : List ℤ} (h : l.Pairwise (· < ·)) : Sql.orderBy id l = l :=
  (h.imp fun hab => le_of_lt hab).insertionSort_eq

/-- The tables of a booking come in ascending order. -/
theorem Bookable.ascending {start : ResolvedStart} {a : Allocation}
    (h : Bookable env request start c a db) : a.tableNumbers.Pairwise (· < ·) := by
  obtain ⟨rows, hsub, htables, -, -⟩ := h.seats
  rw [htables, List.pairwise_map]
  exact (Sql.orderBy_pairwise_lt
    ((List.filter_sublist.map _).nodup h.constraints.tables_pk)).sublist hsub

theorem Bookable.tables_ne_nil {start : ResolvedStart} {a : Allocation}
    (h : Bookable env request start c a db) : a.tableNumbers ≠ [] := by
  obtain ⟨rows, -, htables, htotal, hparty⟩ := h.seats
  intro hnil
  rw [htables, List.map_eq_nil_iff] at hnil
  have := h.party
  rw [hnil] at htotal
  simp only [List.map_nil, List.sum_nil] at htotal
  omega

/-- A booking is recorded. -/
theorem Placement.recorded (b : Placement env request readings tieRank db) :
    Recorded env request b.reservation b.row.assignedTableNumbers (request.served b.customer)
      b.after := by
  have hmiddle : (request.served b.customer).middleInitial =
      b.customer.middleInitial.or request.middleInitial := by
    unfold BookingRequest.served BookingRequest.subscribed; split <;> rfl
  have hk : b.customer.Keeps (request.served b.customer) := keeps_served b.customer
  have hemail : b.customer.email = request.email := by
    have hres := b.resolves
    generalize b.customer = c, b.isNew = isNew, b.resolved = db' at hres
    cases hres with
    | stored c hc he => exact he
    | created => rfl
  refine ⟨mem_replaceCustomer b.bookable.customer (served_customerId _), hk.email.trans hemail,
    ⟨?_, ?_⟩, fun hnone => ?_, mem_reservations_withBooking.mpr (.inr rfl), ?_, ?_,
    b.booked.partySize, ?_⟩
  · unfold NamesDiffer
    rw [hk.firstName, hk.lastName]
    exact b.identifies.names
  · rintro ⟨s, hs, g, hg, hne⟩
    rw [hmiddle] at hs
    rcases Option.or_eq_some_iff.mp hs with hs | ⟨-, hs⟩
    · exact b.identifies.initials ⟨s, hs, g, hg, hne⟩
    · exact hne (Option.mem_unique hs hg)
  · rw [hmiddle] at hnone
    exact (Option.or_eq_none_iff.mp hnone).2
  · rw [b.booked.customerId, served_customerId]
  · refine ⟨b.start.localStart, b.admitted.resolved.localStart, ?_⟩
    rw [b.booked.startsAt, b.admitted.resolved.startsAt_eq]
  · have hassigned : (b.after.reservationTableAssignments.filter
        (·.reservationId = b.reservation.reservationId)).map (·.tableNumber) =
        b.allocation.tableNumbers := by
      have hold : b.resolved.reservationTableAssignments.filter
          (·.reservationId = b.reservation.reservationId) = [] :=
        List.filter_eq_nil_iff.mpr fun x hx => by
          simpa using b.bookable.constraints.unassigned b.unused_resolved x hx
      show ((b.resolved.reservationTableAssignments ++
        b.allocation.tableNumbers.map _).filter _).map _ = _
      rw [List.filter_append, hold, List.nil_append, List.filter_eq_self.mpr, List.map_map]
      · exact List.map_id _
      · intro x hx
        obtain ⟨t, -, rfl⟩ := List.mem_map.mp hx
        simp
    unfold Database.tableNumbersOf
    rw [hassigned, orderBy_of_pairwise b.bookable.ascending, Sql.arrayAgg,
      if_neg b.bookable.tables_ne_nil]
    rfl

end CafeFausse
