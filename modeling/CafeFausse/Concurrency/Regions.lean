import CafeFausse.Database.Constraints
import CafeFausse.Routines.Writers
import CafeFausse.Transaction.Guards

/-! # What the advisory locks guard

The restaurant lock guards five of the tables. An e-mail lock guards the customers
whose address has its key. Each statement of the routines is decided by what these
locks guard and writes only there.
-/

namespace CafeFausse

open Transaction Database

/-- The two databases differ in their customers only. -/
structure SameRestaurant (db db' : Database) : Prop where
  configuration : db.reservationConfiguration = db'.reservationConfiguration
  hours : db.restaurantOperatingHours = db'.restaurantOperatingHours
  tables : db.restaurantTables = db'.restaurantTables
  reservations : db.reservations = db'.reservations
  assignments : db.reservationTableAssignments = db'.reservationTableAssignments

theorem SameRestaurant.refl (db : Database) : SameRestaurant db db := ⟨rfl, rfl, rfl, rfl, rfl⟩

theorem SameRestaurant.symm {db db' : Database} (h : SameRestaurant db db') :
    SameRestaurant db' db := ⟨h.1.symm, h.2.symm, h.3.symm, h.4.symm, h.5.symm⟩

theorem SameRestaurant.trans {a b c : Database} (h : SameRestaurant a b)
    (h' : SameRestaurant b c) : SameRestaurant a c :=
  ⟨h.1.trans h'.1, h.2.trans h'.2, h.3.trans h'.3, h.4.trans h'.4, h.5.trans h'.5⟩

theorem SameRestaurant.eq {db db' : Database} (h : SameRestaurant db db') :
    db' = { db with customers := db'.customers } := by
  obtain ⟨h₁, h₂, h₃, h₄, h₅⟩ := h
  cases db; cases db'; simp_all

/-- The customers an e-mail key guards. -/
def customersUnder (env : Environment) (key : ℤ) (db : Database) : List Customer :=
  db.customers.filter fun c => emailKey env c.email = key

/-- The customers have distinct numbers. -/
def DistinctCustomers (db : Database) : Prop := (db.customers.map (·.customerId)).Nodup

/-- The parts of the database under the advisory locks. -/
def guards (env : Environment) : Guards Database LockKey Sequence Answer where
  agree
    | .restaurant => SameRestaurant
    | .email key => fun db db' => customersUnder env key db = customersUnder env key db'
  valid := DistinctCustomers
  used := InUse
  settled locks ans := .restaurant ∈ locks ∧
    ∃ request start o d fp, ans = .booking (abortedRow request start o d fp)
  equivalence
    | .restaurant => ⟨SameRestaurant.refl, SameRestaurant.symm, SameRestaurant.trans⟩
    | .email _ => ⟨fun _ => rfl, Eq.symm, Eq.trans⟩

/-- The customer row with this number has an e-mail under the key. -/
def Owned (env : Environment) (key : ℤ) (customerId : ℕ) (db : Database) : Prop :=
  ∃ c ∈ db.customers, c.customerId = customerId ∧ emailKey env c.email = key

variable {env : Environment} {key : ℤ} {customerId : ℕ} {db db' : Database}

theorem mem_customersUnder {c : Customer} :
    c ∈ customersUnder env key db ↔ c ∈ db.customers ∧ emailKey env c.email = key := by
  simp [customersUnder]

theorem Owned.of_eq (h : Owned env key customerId db)
    (hk : customersUnder env key db = customersUnder env key db') :
    Owned env key customerId db' := by
  obtain ⟨c, hc, hid, hkey⟩ := h
  exact ⟨c, (mem_customersUnder.mp (hk ▸ mem_customersUnder.mpr ⟨hc, hkey⟩)).1, hid, hkey⟩

/-- The customer of an e-mail is the same wherever its key's customers are. -/
theorem customerByEmail_congr {email : Text}
    (hk : customersUnder env (emailKey env email) db = customersUnder env (emailKey env email) db') :
    db'.customerByEmail email = db.customerByEmail email := by
  have h : ∀ d : Database, d.customerByEmail email =
      (customersUnder env (emailKey env email) d).find? fun c => c.email = email := by
    intro d
    simp only [Database.customerByEmail, customersUnder, List.find?_filter]
    congr 1
    funext c
    by_cases hc : c.email = email <;> simp [hc]
  rw [h, h, hk]

/-- The row with an owned number is found in both databases. -/
theorem Owned.filter_eq (h : Owned env key customerId db) (hv : DistinctCustomers db)
    (hv' : DistinctCustomers db')
    (hk : customersUnder env key db = customersUnder env key db') :
    db'.customers.filter (fun c => c.customerId = customerId) =
      db.customers.filter (fun c => c.customerId = customerId) := by
  obtain ⟨c, hc, rfl, hkey⟩ := h
  have hc' : c ∈ db'.customers :=
    (mem_customersUnder.mp (hk ▸ mem_customersUnder.mpr ⟨hc, hkey⟩)).1
  rw [filter_eq_of_nodup hv hc, filter_eq_of_nodup hv' hc']

theorem customersUnder_updateRows {change : Customer → Customer}
    (hemail : ∀ c, (change c).email = c.email) (k : ℤ) :
    customersUnder env k (updateRows customerId change db) =
      (customersUnder env k db).map fun c =>
        if c.customerId = customerId then change c else c := by
  have hp : ∀ c : Customer, (if c.customerId = customerId then change c else c).email = c.email :=
    fun c => by split <;> simp [hemail]
  simp only [customersUnder, updateRows, List.filter_map, Function.comp_def, hp]

/-- An update of an owned row leaves the customers of other keys alone. -/
theorem customersUnder_updateRows_ne (h : Owned env key customerId db) (hv : DistinctCustomers db)
    {change : Customer → Customer} (hemail : ∀ c, (change c).email = c.email) {k : ℤ}
    (hk : k ≠ key) :
    customersUnder env k (updateRows customerId change db) = customersUnder env k db := by
  obtain ⟨c, hc, rfl, rfl⟩ := h
  rw [customersUnder_updateRows hemail]
  refine (List.map_congr_left fun b hb => if_neg fun hid => hk ?_).trans (List.map_id _)
  have hb' := mem_customersUnder.mp hb
  rw [← hb'.2, List.inj_on_of_nodup_map hv hb'.1 hc hid]

theorem updateRows_ids {change : Customer → Customer}
    (hid : ∀ c, (change c).customerId = c.customerId) :
    (updateRows customerId change db).customers.map (·.customerId) =
      db.customers.map (·.customerId) := by
  simp only [updateRows, List.map_map]
  refine List.map_congr_left fun c _ => ?_
  simp only [Function.comp_apply]
  split <;> simp [hid]

section Decided

variable {locks : List LockKey} {pending : List (Sequence × ℕ)}

theorem alike_restaurant (h : (guards env).Alike locks pending db db')
    (hl : LockKey.restaurant ∈ locks) : SameRestaurant db db' := h.agree _ hl

theorem alike_email (h : (guards env).Alike locks pending db db') (hl : LockKey.email key ∈ locks) :
    customersUnder env key db = customersUnder env key db' := h.agree _ hl

/-- A query of the tables under the restaurant lock. -/
theorem query_restaurant {α : Type} {q : Database → α} (hl : LockKey.restaurant ∈ locks)
    (hq : ∀ (d : Database) l, q { d with customers := l } = q d) :
    ∀ db', (guards env).Alike locks pending db db' → q db' = q db := fun db' h => by
  rw [(alike_restaurant h hl).eq, hq]

theorem query_customer {email : Text} (hl : LockKey.email (emailKey env email) ∈ locks) :
    ∀ db', (guards env).Alike locks pending db db' →
      db'.customerByEmail email = db.customerByEmail email :=
  fun _ h => customerByEmail_congr (alike_email h hl)

theorem decided_insertCustomer (row : Customer)
    (hl : LockKey.email (emailKey env row.email) ∈ locks)
    (hn : (Sequence.customer, row.customerId) ∈ pending)
    (hfresh : ¬ InUse db .customer row.customerId) :
    (guards env).Decided locks pending (pending.filter (· ≠ (.customer, row.customerId))) db
      (Database.insertCustomer env.character row) where
  same db' h := by
    have hfresh' : ¬ InUse db' .customer row.customerId := h.fresh _ hn
    have hiff : ∀ d : Database, ¬ InUse d .customer row.customerId →
        ((∃ c ∈ d.customers, c.customerId = row.customerId ∨ c.email = row.email) ↔
          ∃ c ∈ customersUnder env (emailKey env row.email) d, c.email = row.email) := by
      intro d hd
      constructor
      · rintro ⟨c, hc, hid | he⟩
        · exact absurd ⟨c, hc, hid⟩ hd
        · exact ⟨c, mem_customersUnder.mpr ⟨hc, by rw [he]⟩, he⟩
      · rintro ⟨c, hc, he⟩
        exact ⟨c, (mem_customersUnder.mp hc).1, .inr he⟩
    simp only [Database.insertCustomer, hiff db hfresh, hiff db' hfresh', alike_email h hl]
  within a w hw := by
    obtain ⟨-, -, rfl, rfl⟩ := insertCustomer_ok hw
    have hunder : ∀ (d : Database) k, customersUnder env k (addCustomer a d) =
        customersUnder env k d ++ if emailKey env a.email = k then [a] else [] := by
      intro d k
      by_cases hk : emailKey env a.email = k <;> simp [customersUnder, addCustomer, hk]
    refine ⟨fun db' h => ?_, fun db' h k hk => ?_, fun db' h k hk => ?_, fun db' h q n hu => ?_⟩
    · have hfresh' : ¬ InUse db' .customer a.customerId := h.fresh _ hn
      show (List.map _ (db'.customers ++ [a])).Nodup
      rw [List.map_append]
      refine List.nodup_append.mpr ⟨h.valid, by simp, fun a ha b hb hab => hfresh' ?_⟩
      obtain ⟨c, hc, rfl⟩ := List.mem_map.mp ha
      exact ⟨c, hc, by simpa [hab] using hb⟩
    · cases k with
      | restaurant => exact ⟨rfl, rfl, rfl, rfl, rfl⟩
      | email k =>
        show customersUnder env k db' = _
        have hne : emailKey env a.email ≠ k := fun he => hk (he ▸ hl)
        rw [hunder, if_neg hne, List.append_nil]
    · cases k with
      | restaurant =>
        obtain ⟨h₁, h₂, h₃, h₄, h₅⟩ := alike_restaurant h hk
        exact ⟨h₁, h₂, h₃, h₄, h₅⟩
      | email k =>
        show customersUnder env k _ = customersUnder env k _
        rw [hunder, hunder, alike_email h hk]
    · cases q with
      | customer =>
        obtain ⟨c, hc, rfl⟩ := hu
        rcases List.mem_append.mp hc with hc | hc
        · exact .inl ⟨c, hc, rfl⟩
        · obtain rfl := List.mem_singleton.mp hc
          exact .inr ⟨hn, by simp⟩
      | reservation => exact .inl hu
  spent := List.filter_sublist.subset

theorem decided_updateCustomer {change : Customer → Customer} (ho : Owned env key customerId db)
    (hv : DistinctCustomers db) (hl : LockKey.email key ∈ locks)
    (hid : ∀ c, (change c).customerId = c.customerId)
    (hemail : ∀ c, (change c).email = c.email) :
    (guards env).Decided locks pending pending db
      (Database.updateCustomer env.character customerId change) where
  same db' h := by
    simp only [Database.updateCustomer, ho.filter_eq hv h.valid (alike_email h hl)]
  within a w hw := by
    obtain ⟨-, -, rfl⟩ := updateCustomer_ok hw
    refine ⟨fun db' h => ?_, fun db' h k hk => ?_, fun db' h k hk => ?_, fun db' h q n hu => ?_⟩
    · show (List.map _ _).Nodup
      rw [updateRows_ids hid]
      exact h.valid
    · cases k with
      | restaurant => exact ⟨rfl, rfl, rfl, rfl, rfl⟩
      | email k =>
        have hne : k ≠ key := fun he => hk (he ▸ hl)
        exact (customersUnder_updateRows_ne (ho.of_eq (alike_email h hl)) h.valid hemail hne).symm
    · cases k with
      | restaurant =>
        obtain ⟨h₁, h₂, h₃, h₄, h₅⟩ := alike_restaurant h hk
        exact ⟨h₁, h₂, h₃, h₄, h₅⟩
      | email k =>
        show customersUnder env k _ = customersUnder env k _
        rw [customersUnder_updateRows hemail, customersUnder_updateRows hemail, alike_email h hk]
    · cases q with
      | customer =>
        have hm : n ∈ (updateRows customerId change db').customers.map (·.customerId) :=
          List.mem_map.mpr hu
        rw [updateRows_ids hid] at hm
        exact .inl (List.mem_map.mp hm)
      | reservation => exact .inl hu
  spent := List.Subset.refl _

/-- A change that reads and writes only the tables under the restaurant lock. -/
theorem decided_restaurant {α : Type} {f : Database → Except SqlError (α × (Database → Database))}
    {pending' : List (Sequence × ℕ)} (hl : LockKey.restaurant ∈ locks)
    (same : ∀ db', (guards env).Alike locks pending db db' → f db' = f db)
    (customers : ∀ a w, f db = .ok (a, w) → ∀ d, (w d).customers = d.customers)
    (write : ∀ a w, f db = .ok (a, w) → ∀ d d', SameRestaurant d d' → SameRestaurant (w d) (w d'))
    (used : ∀ a w, f db = .ok (a, w) → ∀ d n, InUse (w d) .reservation n →
      InUse d .reservation n ∨ (Sequence.reservation, n) ∈ pending ∧
        (Sequence.reservation, n) ∉ pending')
    (spent : pending' ⊆ pending) :
    (guards env).Decided locks pending pending' db f where
  same := same
  within a w hw := by
    have hc := customers a w hw
    refine ⟨fun db' h => ?_, fun db' h k hk => ?_, fun db' h k hk => ?_, fun db' h q n hu => ?_⟩
    · show (List.map _ _).Nodup
      rw [hc]
      exact h.valid
    · cases k with
      | restaurant => exact absurd hl hk
      | email k => simp [guards, customersUnder, hc]
    · cases k with
      | restaurant => exact write a w hw db db' (alike_restaurant h hk)
      | email k =>
        show customersUnder env k _ = customersUnder env k _
        simpa only [customersUnder, hc] using alike_email h hk
    · cases q with
      | customer => exact .inl (by simpa only [guards, InUse, hc] using hu)
      | reservation => exact used a w hw db' n hu
  spent := spent

theorem decided_insertReservation {row : Reservation} (ho : Owned env key row.customerId db)
    (hr : LockKey.restaurant ∈ locks) (hl : LockKey.email key ∈ locks)
    (hn : (Sequence.reservation, row.reservationId) ∈ pending) :
    (guards env).Decided locks pending (pending.filter (· ≠ (.reservation, row.reservationId))) db
      (Database.insertReservation row) := by
  refine decided_restaurant hr (fun db' h => ?_) (fun a w hw d => ?_) (fun a w hw d d' h => ?_)
    (fun a w hw d n hu => ?_) List.filter_sublist.subset
  · have hfk : ∀ d, Owned env key row.customerId d →
        ¬ ∀ c ∈ d.customers, c.customerId ≠ row.customerId :=
      fun d ⟨c, hc, hid, _⟩ h => h c hc hid
    simp only [Database.insertReservation, (alike_restaurant h hr).reservations, if_neg (hfk _ ho),
      if_neg (hfk _ (ho.of_eq (alike_email h hl)))]
  · rw [(insertReservation_ok hw).2.2]; rfl
  · rw [(insertReservation_ok hw).2.2]
    exact ⟨h.1, h.2, h.3, congrArg (· ++ [row]) h.reservations, h.5⟩
  · rw [(insertReservation_ok hw).2.2] at hu
    obtain ⟨r, hm, rfl⟩ := hu
    rcases List.mem_append.mp hm with hm | hm
    · exact .inl ⟨r, hm, rfl⟩
    · obtain rfl := List.mem_singleton.mp hm
      exact .inr ⟨hn, by simp⟩

theorem decided_insertAssignment {row : ReservationTableAssignment}
    (hr : LockKey.restaurant ∈ locks) :
    (guards env).Decided locks pending pending db (Database.insertAssignment row) := by
  refine decided_restaurant hr (fun db' h => ?_) (fun a w hw d => ?_) (fun a w hw d d' h => ?_)
    (fun a w hw d n hu => .inl ?_) (List.Subset.refl _)
  · have h := alike_restaurant h hr
    simp only [Database.insertAssignment, h.reservations, h.tables, h.assignments]
  · rw [(insertAssignment_ok hw).2.2.2]; rfl
  · rw [(insertAssignment_ok hw).2.2.2]
    exact ⟨h.1, h.2, h.3, h.4, congrArg (· ++ [row]) h.assignments⟩
  · rw [(insertAssignment_ok hw).2.2.2] at hu
    exact hu

theorem decided_updateConfiguration {p : ConfigurationArguments} {timezone : Text}
    (hr : LockKey.restaurant ∈ locks) :
    (guards env).Decided locks pending pending db
      (Database.updateConfiguration env.character p timezone) := by
  refine decided_restaurant hr (fun db' h => rfl) (fun a w hw d => ?_) (fun a w hw d d' h => ?_)
    (fun a w hw d n hu => .inl ?_) (List.Subset.refl _)
  · rw [(updateConfiguration_ok hw).2]; rfl
  · rw [(updateConfiguration_ok hw).2]
    exact ⟨congrArg (List.map _) h.configuration, h.2, h.3, h.4, h.5⟩
  · rw [(updateConfiguration_ok hw).2] at hu
    exact hu

theorem decided_updateHours {weekday : Option ℤ} {opensAt closesAt : Option TimeOfDay}
    (hr : LockKey.restaurant ∈ locks) :
    (guards env).Decided locks pending pending db
      (Database.updateHours weekday opensAt closesAt) := by
  refine decided_restaurant hr (fun db' h => ?_) (fun a w hw d => ?_) (fun a w hw d d' h => ?_)
    (fun a w hw d n hu => .inl ?_) (List.Subset.refl _)
  · simp only [Database.updateHours, (alike_restaurant h hr).hours]
  · rw [(updateHours_ok hw).2]; rfl
  · rw [(updateHours_ok hw).2]
    exact ⟨h.1, congrArg (List.map _) h.hours, h.3, h.4, h.5⟩
  · rw [(updateHours_ok hw).2] at hu
    exact hu

theorem decided_updateTable {tableNumber seatingCapacity : Option ℤ}
    (hr : LockKey.restaurant ∈ locks) :
    (guards env).Decided locks pending pending db
      (Database.updateTable tableNumber seatingCapacity) := by
  refine decided_restaurant hr (fun db' h => ?_) (fun a w hw d => ?_) (fun a w hw d d' h => ?_)
    (fun a w hw d n hu => .inl ?_) (List.Subset.refl _)
  · simp only [Database.updateTable, (alike_restaurant h hr).tables]
  · rw [(updateTable_ok hw).2]; rfl
  · rw [(updateTable_ok hw).2]
    exact ⟨h.1, h.2, congrArg (List.map _) h.tables, h.4, h.5⟩
  · rw [(updateTable_ok hw).2] at hu
    exact hu

end Decided

end CafeFausse
