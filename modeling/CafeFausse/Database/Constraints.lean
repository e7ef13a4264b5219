import CafeFausse.Database.Routine

/-! # Changes that keep the constraints

Each change of the tables that its statement lets through keeps the keys, the foreign
keys and the checks of the schema.
-/

namespace CafeFausse

namespace Database

section Lists

variable {α β : Type} [DecidableEq β] {f : α → β}

theorem filter_eq_of_nodup {l : List α} (h : (l.map f).Nodup) {a : α} (ha : a ∈ l) :
    l.filter (fun b => f b = f a) = [a] := by
  induction l with
  | nil => simp at ha
  | cons b l ih =>
    rw [List.map_cons, List.nodup_cons] at h
    rcases List.mem_cons.mp ha with rfl | ha
    · rw [List.filter_cons_of_pos (by simp), List.filter_eq_nil_iff.mpr]
      intro c hc hca
      exact h.1 (List.mem_map.mpr ⟨c, hc, by simpa using hca⟩)
    · rw [List.filter_cons_of_neg, ih h.2 ha]
      intro hba
      exact h.1 (List.mem_map.mpr ⟨a, ha, by simpa using (of_decide_eq_true hba).symm⟩)

omit [DecidableEq β] in
theorem nodup_map_concat {l : List α} (h : (l.map f).Nodup) {a : α} (ha : ∀ b ∈ l, f b ≠ f a) :
    ((l ++ [a]).map f).Nodup := by
  rw [List.map_append]
  refine List.nodup_append.mpr ⟨h, by simp, fun b hb c hc hbc => ?_⟩
  obtain ⟨d, hd, rfl⟩ := List.mem_map.mp hb
  exact ha d hd (hbc.trans (by simpa using hc))

omit [DecidableEq β] in
/-- Replacing elements by ones with the same key keeps the keys. -/
theorem map_replace {l : List α} {p : α → Prop} [DecidablePred p] {a : α}
    (h : ∀ b ∈ l, p b → f b = f a) :
    (l.map fun b => if p b then a else b).map f = l.map f := by
  rw [List.map_map]
  refine List.map_congr_left fun b hb => ?_
  simp only [Function.comp_apply]
  split
  · next hp => exact (h b hb hp).symm
  · rfl

end Lists

variable {ct : CharacterType} {db : Database}

theorem customerByEmail_eq_some {email : Text} {c : Customer}
    (h : db.customerByEmail email = some c) : c ∈ db.customers ∧ c.email = email :=
  ⟨List.mem_of_find?_eq_some h, by simpa using List.find?_some h⟩

theorem customerByEmail_eq_none {email : Text} (h : db.customerByEmail email = none) :
    ∀ c ∈ db.customers, c.email ≠ email := by
  simpa [customerByEmail] using h

theorem customerByEmail_of_none {email : Text} (h : ∀ c ∈ db.customers, c.email ≠ email) :
    db.customerByEmail email = none := by
  simpa [customerByEmail] using h

theorem customerByEmail_of_mem (h : (db.customers.map (·.email)).Nodup) {c : Customer}
    (hc : c ∈ db.customers) : db.customerByEmail c.email = some c := by
  unfold customerByEmail
  rw [← List.head?_filter, filter_eq_of_nodup h hc]
  rfl

/-- The row of one customer is replaced. -/
def replaceCustomer (c : Customer) (db : Database) : Database :=
  { db with customers := db.customers.map fun d => if d.customerId = c.customerId then c else d }

theorem eq_of_customerId (h : Constraints ct db) {c d : Customer} (hc : c ∈ db.customers)
    (hd : d ∈ db.customers) (hid : c.customerId = d.customerId) : c = d :=
  List.inj_on_of_nodup_map h.customers_pk hc hd hid

theorem eq_of_reservationId (h : Constraints ct db) {r s : Reservation} (hr : r ∈ db.reservations)
    (hs : s ∈ db.reservations) (hid : r.reservationId = s.reservationId) : r = s :=
  List.inj_on_of_nodup_map h.reservations_pk hr hs hid

/-- Updating by number replaces the one row with it. -/
theorem updateRows_eq (h : Constraints ct db) {change : Customer → Customer} {c : Customer}
    (hc : c ∈ db.customers) (hid : (change c).customerId = c.customerId) :
    updateRows c.customerId change db = replaceCustomer (change c) db := by
  unfold updateRows replaceCustomer
  congr 1
  refine List.map_congr_left fun d hd => ?_
  rw [hid]
  split
  · next hdc => rw [eq_of_customerId h hd hc hdc]
  · rfl

theorem replaceCustomer_self (h : Constraints ct db) {c : Customer} (hc : c ∈ db.customers) :
    replaceCustomer c db = db := by
  unfold replaceCustomer
  congr 1
  refine (List.map_congr_left fun d hd => ?_).trans (List.map_id _)
  split
  · next hdc => exact (eq_of_customerId h hd hc hdc).symm
  · rfl

theorem replaceCustomer_replaceCustomer {c d : Customer} (h : c.customerId = d.customerId) :
    replaceCustomer d (replaceCustomer c db) = replaceCustomer d db := by
  unfold replaceCustomer
  congr 1
  rw [List.map_map]
  refine List.map_congr_left fun b _ => ?_
  simp only [Function.comp_apply]
  by_cases hb : b.customerId = c.customerId
  · rw [if_pos hb, if_pos h, if_pos (hb.trans h)]
  · rw [if_neg hb]

theorem replaceCustomer_addCustomer {c d : Customer} (h : c.customerId = d.customerId)
    (hfresh : ∀ b ∈ db.customers, b.customerId ≠ d.customerId) :
    replaceCustomer d (addCustomer c db) = addCustomer d db := by
  unfold replaceCustomer addCustomer
  simp only [List.map_append, List.map_cons, List.map_nil, if_pos h]
  congr 2
  exact (List.map_congr_left fun b hb => if_neg (hfresh b hb)).trans (List.map_id _)

theorem mem_replaceCustomer {c d : Customer} (hd : d ∈ db.customers)
    (h : c.customerId = d.customerId) : c ∈ (replaceCustomer c db).customers :=
  List.mem_map.mpr ⟨d, hd, if_pos h.symm⟩

end Database

open Database

variable {ct : CharacterType} {db : Database}

theorem Constraints.addCustomer (h : Constraints ct db) {row : Customer} (hc : row.Check ct)
    (hnew : ∀ c ∈ db.customers, c.customerId ≠ row.customerId ∧ c.email ≠ row.email) :
    Constraints ct (db.addCustomer row) where
  customers_ck := by
    intro c hm
    rcases List.mem_append.mp hm with hm | hm
    · exact h.customers_ck c hm
    · obtain rfl := List.mem_singleton.mp hm
      exact hc
  customers_pk := nodup_map_concat h.customers_pk fun c hm => (hnew c hm).1
  customers_email_uq := nodup_map_concat h.customers_email_uq fun c hm => (hnew c hm).2
  configuration_pk := h.configuration_pk
  configuration_timezone_ck := h.configuration_timezone_ck
  hours_pk := h.hours_pk
  tables_pk := h.tables_pk
  reservations_pk := h.reservations_pk
  reservations_customer_fk r hr := by
    obtain ⟨c, hm, hid⟩ := h.reservations_customer_fk r hr
    exact ⟨c, List.mem_append_left _ hm, hid⟩
  reservations_exact_identity_uq := h.reservations_exact_identity_uq
  assignments_pk := h.assignments_pk
  assignments_reservation_fk := h.assignments_reservation_fk
  assignments_table_fk := h.assignments_table_fk

theorem Constraints.replaceCustomer (h : Constraints ct db) {c d : Customer} (hc : c.Check ct)
    (hd : d ∈ db.customers) (hid : c.customerId = d.customerId) (hemail : c.email = d.email) :
    Constraints ct (replaceCustomer c db) := by
  have hrow : ∀ b ∈ db.customers, b.customerId = c.customerId → b = d := fun b hb hbc =>
    eq_of_customerId h hb hd (hbc.trans hid)
  refine { h with
    customers_ck := ?_, customers_pk := ?_, customers_email_uq := ?_
    reservations_customer_fk := ?_ }
  · intro b hb
    obtain ⟨a, ha, rfl⟩ := List.mem_map.mp hb
    split
    · exact hc
    · exact h.customers_ck a ha
  · unfold Database.replaceCustomer
    rw [map_replace fun b _ hbc => hbc]
    exact h.customers_pk
  · unfold Database.replaceCustomer
    rw [map_replace fun b hb hbc => by rw [hrow b hb hbc, hemail]]
    exact h.customers_email_uq
  · intro r hr
    obtain ⟨b, hb, hbr⟩ := h.reservations_customer_fk r hr
    refine ⟨_, List.mem_map_of_mem hb, ?_⟩
    split
    · next hbc => rw [← hbc, hbr]
    · exact hbr

theorem Constraints.addReservation (h : Constraints ct db) {row : Reservation}
    (hnew : ∀ r ∈ db.reservations, r.reservationId ≠ row.reservationId ∧
      ¬ (r.customerId = row.customerId ∧ r.startsAt = row.startsAt ∧
        r.partySize = row.partySize))
    (hfk : ∃ c ∈ db.customers, c.customerId = row.customerId) :
    Constraints ct (db.addReservation row) where
  customers_ck := h.customers_ck
  customers_pk := h.customers_pk
  customers_email_uq := h.customers_email_uq
  configuration_pk := h.configuration_pk
  configuration_timezone_ck := h.configuration_timezone_ck
  hours_pk := h.hours_pk
  tables_pk := h.tables_pk
  reservations_pk := nodup_map_concat h.reservations_pk fun r hr => (hnew r hr).1
  reservations_customer_fk r hr := by
    rcases List.mem_append.mp hr with hr | hr
    · exact h.reservations_customer_fk r hr
    · obtain rfl := List.mem_singleton.mp hr
      exact hfk
  reservations_exact_identity_uq :=
    nodup_map_concat h.reservations_exact_identity_uq fun r hr => by
      simpa using (hnew r hr).2
  assignments_pk := h.assignments_pk
  assignments_reservation_fk a ha := by
    obtain ⟨r, hr, hid⟩ := h.assignments_reservation_fk a ha
    exact ⟨r, List.mem_append_left _ hr, hid⟩
  assignments_table_fk := h.assignments_table_fk

theorem Constraints.addAssignment (h : Constraints ct db) {row : ReservationTableAssignment}
    (hnew : row ∉ db.reservationTableAssignments)
    (hr : ∃ r ∈ db.reservations, r.reservationId = row.reservationId)
    (ht : ∃ t ∈ db.restaurantTables, t.tableNumber = row.tableNumber) :
    Constraints ct (db.addAssignment row) where
  customers_ck := h.customers_ck
  customers_pk := h.customers_pk
  customers_email_uq := h.customers_email_uq
  configuration_pk := h.configuration_pk
  configuration_timezone_ck := h.configuration_timezone_ck
  hours_pk := h.hours_pk
  tables_pk := h.tables_pk
  reservations_pk := h.reservations_pk
  reservations_customer_fk := h.reservations_customer_fk
  reservations_exact_identity_uq := h.reservations_exact_identity_uq
  assignments_pk := List.nodup_append.mpr ⟨h.assignments_pk, by simp, fun a ha b hb hab => by
    obtain rfl := List.mem_singleton.mp hb
    exact hnew (hab ▸ ha)⟩
  assignments_reservation_fk a ha := by
    rcases List.mem_append.mp ha with ha | ha
    · exact h.assignments_reservation_fk a ha
    · obtain rfl := List.mem_singleton.mp ha
      exact hr
  assignments_table_fk a ha := by
    rcases List.mem_append.mp ha with ha | ha
    · exact h.assignments_table_fk a ha
    · obtain rfl := List.mem_singleton.mp ha
      exact ht

end CafeFausse
