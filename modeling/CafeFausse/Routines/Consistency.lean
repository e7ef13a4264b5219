import CafeFausse.Routines.Changes

/-! # What every call preserves

The constraints of the schema, and two facts no constraint states: reservations that
share a table do not overlap, and neither do those of one customer. A booking keeps
them because it takes free tables for a customer who is free, the other calls because
they touch neither reservations nor assignments.
-/

namespace CafeFausse

open Transaction Program Database

/-- Two distinct reservations with a common table do not overlap. -/
def NoTableOverlap (db : Database) : Prop :=
  ∀ r ∈ db.reservations, ∀ s ∈ db.reservations, r ≠ s → ∀ t,
    ⟨r.reservationId, t⟩ ∈ db.reservationTableAssignments →
    ⟨s.reservationId, t⟩ ∈ db.reservationTableAssignments →
    ¬ Overlap r.startsAt r.endsAt s.startsAt s.endsAt

/-- Two distinct reservations of a customer do not overlap. -/
def NoCustomerOverlap (db : Database) : Prop :=
  ∀ r ∈ db.reservations, ∀ s ∈ db.reservations, r ≠ s → r.customerId = s.customerId →
    ¬ Overlap r.startsAt r.endsAt s.startsAt s.endsAt

structure Consistent (ct : CharacterType) (db : Database) : Prop where
  constraints : Constraints ct db
  tables : NoTableOverlap db
  customers : NoCustomerOverlap db

theorem constraints_seed (ct : CharacterType) : Constraints ct seed where
  customers_ck := by simp [seed]
  customers_pk := by simp [seed]
  customers_email_uq := by simp [seed]
  configuration_pk := by simp [seed]
  configuration_timezone_ck := by
    have hA : ct.isSpace 0x41 = false := ct.isSpace_letter _ (by decide)
    have hk : ct.isSpace 0x6b = false := ct.isSpace_letter _ (by decide)
    intro c hc
    obtain rfl := List.mem_singleton.mp hc
    refine ⟨by decide +kernel, by decide +kernel, ?_⟩
    rintro (h | h)
    · exact absurd h (by simpa [seedConfiguration, text] using hA)
    · exact absurd h (by simpa [seedConfiguration, text] using hk)
  hours_pk := by decide
  tables_pk := by decide
  reservations_pk := by simp [seed]
  reservations_customer_fk := by simp [seed]
  reservations_exact_identity_uq := by simp [seed]
  assignments_pk := by simp [seed]
  assignments_reservation_fk := by simp [seed]
  assignments_table_fk := by simp [seed]

/-- The baseline seed is consistent. -/
theorem consistent_seed (ct : CharacterType) : Consistent ct seed where
  constraints := constraints_seed ct
  tables := by simp [NoTableOverlap, seed]
  customers := by simp [NoCustomerOverlap, seed]

variable {env : Environment} {ct : CharacterType} {request : BookingRequest}
  {m : Memory Database Sequence} {start : ResolvedStart} {c d : Customer} {a : Allocation}
  {db : Database} {r : Reservation} {n : ℕ}

section Booking

theorem Constraints.addAssignments {tables : List ℤ} (h : Constraints ct db) (hnodup : tables.Nodup)
    (hfk : ∃ r ∈ db.reservations, r.reservationId = n)
    (htables : ∀ t ∈ tables, ∃ row ∈ db.restaurantTables, row.tableNumber = t)
    (hnew : ∀ t ∈ tables, ⟨n, t⟩ ∉ db.reservationTableAssignments) :
    Constraints ct (db.addAssignments n tables) := by
  induction tables generalizing db with
  | nil => simpa [Database.addAssignments] using h
  | cons t ts ih =>
    obtain ⟨ht, hts⟩ := List.nodup_cons.mp hnodup
    have hone := h.addAssignment (hnew t (List.mem_cons_self ..)) hfk
      (htables t (List.mem_cons_self ..))
    have := ih hone hts hfk (fun u hu => htables u (List.mem_cons_of_mem _ hu)) fun u hu hm => by
      rcases List.mem_append.mp hm with hm | hm
      · exact hnew u (List.mem_cons_of_mem _ hu) hm
      · have : u = t := by simpa using hm
        exact ht (this ▸ hu)
    have heq : db.addAssignments n (t :: ts) =
        (db.addAssignment ⟨n, t⟩).addAssignments n ts := by
      simp [Database.addAssignments, Database.addAssignment]
    rwa [heq]

theorem Bookable.withBooking_constraints (h : Bookable env request start c a db)
    (hn : ¬ InUse db .reservation n) (hr : IsBooked env request start n c.customerId r)
    (hd : d.Check env.character) (hid : d.customerId = c.customerId) (hemail : d.email = c.email) :
    Constraints env.character (db.withBooking d r a.tableNumbers) := by
  have hrep := h.constraints.replaceCustomer hd h.customer hid hemail
  have hres : Constraints env.character (addReservation r (replaceCustomer d db)) :=
    hrep.addReservation (fun s hs => ⟨fun he => hn ⟨s, hs, he.trans hr.reservationId⟩, fun hsame => h.unique s hs
      ⟨hsame.1.trans hr.customerId, hsame.2.1.trans hr.startsAt, hsame.2.2.trans hr.partySize⟩⟩)
    ⟨d, mem_replaceCustomer h.customer hid, hid.trans hr.customerId.symm⟩
  refine hres.addAssignments h.nodup
    ⟨r, List.mem_append_right _ (List.mem_singleton_self r), rfl⟩
    (fun t ht => (h.seats.free t ht).1) fun t _ hm => ?_
  exact h.constraints.unassigned hn _ hm hr.reservationId

/-- The assignments of a stored reservation are the stored ones. -/
theorem mem_assignments_withBooking {tables : List ℤ} {x : ReservationTableAssignment} :
    x ∈ (db.withBooking d r tables).reservationTableAssignments ↔
      x ∈ db.reservationTableAssignments ∨
        x.reservationId = r.reservationId ∧ x.tableNumber ∈ tables := by
  show x ∈ db.reservationTableAssignments ++ tables.map _ ↔ _
  rw [List.mem_append, List.mem_map]
  refine or_congr_right ⟨?_, ?_⟩
  · rintro ⟨t, ht, rfl⟩
    exact ⟨rfl, ht⟩
  · rintro ⟨hx, ht⟩
    exact ⟨x.tableNumber, ht, by rw [← hx]⟩

theorem mem_reservations_withBooking {tables : List ℤ} {s : Reservation} :
    s ∈ (db.withBooking d r tables).reservations ↔ s ∈ db.reservations ∨ s = r := by
  show s ∈ db.reservations ++ [r] ↔ _
  rw [List.mem_append, List.mem_singleton]

/-- No stored reservation on one of the chosen tables overlaps the new one. -/
theorem Bookable.apart_table (h : Bookable env request start c a db)
    (hr : IsBooked env request start n c.customerId r) {s : Reservation} (hs : s ∈ db.reservations)
    {t : ℤ} (ht : t ∈ a.tableNumbers)
    (hst : ⟨s.reservationId, t⟩ ∈ db.reservationTableAssignments) :
    ¬ Overlap s.startsAt s.endsAt r.startsAt r.endsAt := by
  rw [hr.startsAt, hr.endsAt]
  exact fun ho => (h.seats.free t ht).2 ⟨_, hst, rfl, s, hs, rfl, ho⟩

/-- No stored reservation of the customer overlaps the new one. -/
theorem Bookable.apart_customer (h : Bookable env request start c a db)
    (hr : IsBooked env request start n c.customerId r) {s : Reservation} (hs : s ∈ db.reservations)
    (hsc : s.customerId = r.customerId) : ¬ Overlap s.startsAt s.endsAt r.startsAt r.endsAt := by
  rw [hr.startsAt, hr.endsAt]
  exact fun ho => h.clear ⟨s, hs, hsc.trans hr.customerId, ho⟩

theorem Bookable.withBooking_consistent (h : Bookable env request start c a db)
    (hc : Consistent env.character db) (hn : ¬ InUse db .reservation n)
    (hr : IsBooked env request start n c.customerId r) (hd : d.Check env.character)
    (hid : d.customerId = c.customerId) (hemail : d.email = c.email) :
    Consistent env.character (db.withBooking d r a.tableNumbers) where
  constraints := h.withBooking_constraints hn hr hd hid hemail
  tables := by
    -- an assignment of a stored reservation is a stored one, one of the new is chosen
    have hold : ∀ s ∈ db.reservations, ∀ t,
        ⟨s.reservationId, t⟩ ∈ (db.withBooking d r a.tableNumbers).reservationTableAssignments →
        ⟨s.reservationId, t⟩ ∈ db.reservationTableAssignments := by
      intro s hs t hm
      refine (mem_assignments_withBooking.mp hm).resolve_right fun ⟨he, _⟩ => ?_
      exact hn ⟨s, hs, he.trans hr.reservationId⟩
    have hnew : ∀ t,
        ⟨r.reservationId, t⟩ ∈ (db.withBooking d r a.tableNumbers).reservationTableAssignments →
        t ∈ a.tableNumbers := by
      intro t hm
      refine ((mem_assignments_withBooking.mp hm).resolve_left fun hx => ?_).2
      exact h.constraints.unassigned hn _ hx hr.reservationId
    intro s hm s' hm' hne t ht ht'
    rcases mem_reservations_withBooking.mp hm with hs | rfl <;>
      rcases mem_reservations_withBooking.mp hm' with hs' | rfl
    · exact hc.tables s hs s' hs' hne t (hold s hs t ht) (hold s' hs' t ht')
    · exact h.apart_table hr hs (hnew t ht') (hold s hs t ht)
    · exact fun ho => h.apart_table hr hs' (hnew t ht) (hold s' hs' t ht') ho.symm
    · exact absurd rfl hne
  customers := by
    intro s hm s' hm' hne hcust
    rcases mem_reservations_withBooking.mp hm with hs | rfl <;>
      rcases mem_reservations_withBooking.mp hm' with hs' | rfl
    · exact hc.customers s hs s' hs' hne hcust
    · exact h.apart_customer hr hs hcust
    · exact fun ho => h.apart_customer hr hs' hcust.symm ho.symm
    · exact absurd rfl hne

end Booking

section Changes

/-- Reservations and assignments stay as they are. -/
theorem Consistent.of_constraints {db' : Database} (h : Consistent ct db) (hc : Constraints ct db')
    (hr : db'.reservations = db.reservations)
    (ha : db'.reservationTableAssignments = db.reservationTableAssignments) : Consistent ct db' where
  constraints := hc
  tables := by
    unfold NoTableOverlap
    rw [hr, ha]
    exact h.tables
  customers := by
    unfold NoCustomerOverlap
    rw [hr]
    exact h.customers

theorem Constraints.putConfiguration (h : Constraints ct db) {row : ReservationConfiguration}
    (hz : TimezoneCheck ct row.restaurantTimezone) : Constraints ct (db.putConfiguration row) := by
  refine { h with configuration_pk := ?_, configuration_timezone_ck := ?_ }
  · unfold Database.putConfiguration
    rw [map_replace fun b _ hb => hb.trans row.singleton_ck.symm]
    exact h.configuration_pk
  · intro b hb
    obtain ⟨c, hc, rfl⟩ := List.mem_map.mp hb
    split
    · exact hz
    · exact h.configuration_timezone_ck c hc

theorem Constraints.putHours (h : Constraints ct db) {row : RestaurantOperatingHours} :
    Constraints ct (db.putHours row) := by
  refine { h with hours_pk := ?_ }
  unfold Database.putHours
  rw [map_replace fun b _ hb => hb]
  exact h.hours_pk

theorem Constraints.putTable (h : Constraints ct db) {row : RestaurantTable} :
    Constraints ct (db.putTable row) := by
  refine { h with tables_pk := ?_, assignments_table_fk := ?_ }
  · unfold Database.putTable
    rw [map_replace fun b _ hb => hb]
    exact h.tables_pk
  · intro a ha
    obtain ⟨t, ht, hn⟩ := h.assignments_table_fk a ha
    refine ⟨_, List.mem_map_of_mem ht, ?_⟩
    split
    · next he => exact he.symm.trans hn
    · exact hn

end Changes

section Change

theorem Resolves.consistent {isNew : Bool} {db' : Database} (h : Resolves request db c isNew db')
    (hc : Consistent env.character db) (hv : request.Valid env.character) :
    Consistent env.character db' := by
  refine hc.of_constraints (h.constraints hc.constraints hv) ?_ ?_ <;> rw [h.restaurant]

/-- Every change keeps the database consistent. -/
theorem Consistent.change {db' : Database} (hc : Consistent env.character db)
    (h : Change env db db') : Consistent env.character db' := by
  cases h with
  | same => exact hc
  | booked b =>
    exact b.bookable.withBooking_consistent (b.resolves.consistent hc b.valid) b.unused_resolved
      b.booked b.served_check (served_customerId _) (served_email _)
  | subscribed row check fresh =>
    exact hc.of_constraints (hc.constraints.addCustomer check fresh) rfl rfl
  | preference c stored flag =>
    exact hc.of_constraints (hc.constraints.replaceCustomer
      ((hc.constraints.customers_ck c stored).newsletter _) stored rfl rfl) rfl rfl
  | configuration row timezone =>
    exact hc.of_constraints (hc.constraints.putConfiguration timezone) rfl rfl
  | hours row => exact hc.of_constraints hc.constraints.putHours rfl rfl
  | table row => exact hc.of_constraints hc.constraints.putTable rfl rfl

end Change

end CafeFausse
