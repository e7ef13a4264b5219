import CafeFausse.Concurrency.RowLocks
import CafeFausse.Transaction.LockOrder

/-! # No deadlock among the controlled operations

All operations take their locks in one order: the restaurant, the rows of the foundation,
the e-mail, the customer, the reservation. What is locked out of turn, such as a table by a
foreign key, is covered by a lock that is held already.
-/

namespace CafeFausse.RowLocks

open Transaction Program Database

/-- Where a target stands in the order: its stage, and its number among the rows of one table. -/
def LockTarget.place : LockTarget → ℕ × ℤ
  | .advisory .restaurant => (0, 0)
  | .configuration => (1, 0)
  | .hours weekday => (2, weekday)
  | .table tableNumber => (3, tableNumber)
  | .advisory (.email _) => (4, 0)
  | .customerEmail _ => (5, 0)
  | .customer _ => (6, 0)
  | .reservationIdentity .. => (7, 0)
  | .reservation _ => (8, 0)

theorem LockMode.Conflicts.symm {a b : LockMode} (h : a.Conflicts b) : b.Conflicts a := by
  cases a <;> cases b <;> trivial

/-- `FOR UPDATE` excludes every mode. -/
theorem LockMode.conflicts_update (b : LockMode) : LockMode.update.Conflicts b := by
  cases b <;> trivial

/-- The order of all locks. -/
def lockOrder : LockOrder Lock (ℕ ×ₗ ℤ) where
  Conflicts := Lock.Conflicts
  symm h := ⟨h.1.symm, h.2.symm⟩
  rank r := toLex r.target.place
  rank_eq h := by rw [h.1]

/-- The rows that the operations never add or remove. -/
structure SameRows (db v : Database) : Prop where
  hours : v.restaurantOperatingHours.map (·.weekday) = db.restaurantOperatingHours.map (·.weekday)
  tables : v.restaurantTables.map (·.tableNumber) = db.restaurantTables.map (·.tableNumber)

/-- All held locks come before the stage `k`. -/
def Below (k : ℕ) (held : List Lock) : Prop := ∀ h ∈ held, h.target.place.1 < k

theorem Below.mono {k l : ℕ} {held : List Lock} (h : Below k held) (hkl : k ≤ l) : Below l held :=
  fun x hx => (h x hx).trans_le hkl

theorem Below.cons {k : ℕ} {held : List Lock} {r : Lock} (h : Below k held)
    (hr : r.target.place.1 < k) : Below k (r :: held) := by
  rintro x hx
  rcases List.mem_cons.mp hx with rfl | hx
  · exact hr
  · exact h x hx

section Order

variable {held : List Lock} {marks : List (List Lock)} {r : Lock}

/-- A lock of a later stage is admitted. -/
theorem Below.admits {k : ℕ} (h : Below k held) (hr : k ≤ r.target.place.1) :
    lockOrder.Admits held r :=
  .inr fun x hx => Prod.Lex.toLex_lt_toLex.mpr (.inl ((h x hx).trans_le hr))

/-- Whatever mode is asked for, `FOR UPDATE` covers it. -/
theorem covers_of_forUpdate (h : forUpdate r.target ∈ held) : lockOrder.Covers held r :=
  ⟨_, h, fun _ hc => ⟨hc.1, LockMode.conflicts_update _⟩⟩

theorem admits_of_forUpdate (h : forUpdate r.target ∈ held) : lockOrder.Admits held r :=
  .inl (covers_of_forUpdate h)

/-- On databases with the rows of `db` the routine takes its locks in order. -/
abbrev InOrder {α : Type} (db : Database) (Q : α → List Lock → List (List Lock) → Prop)
    (p : LockingRoutine α) (held : List Lock) (marks : List (List Lock)) : Prop :=
  p.Ordered lockOrder (SameRows db) Q held marks

variable {db : Database} {env : Environment}

/-- The rows of one table, locked in the order of their numbers. -/
theorem ordered_rows {f : ℤ → LockTarget} {k : ℕ} {l : List ℤ}
    {Q : Unit → List Lock → List (List Lock) → Prop} (hf : ∀ n, (f n).place = (k, n))
    (hl : l.Pairwise (· ≤ ·)) (hbelow : Below k held)
    (hQ : ∀ held', Below (k + 1) held' → held ⊆ held' → (∀ n ∈ l, forUpdate (f n) ∈ held') →
      Q () held' marks) :
    InOrder db Q (acquireAll (l.map fun n => forUpdate (f n))) held marks := by
  refine ordered_acquireAll ?_ ?_ fun held' hheld' => hQ held' ?_ ?_ ?_
  · refine List.pairwise_map.mpr (hl.imp fun {a b} hab => ?_)
    rcases hab.lt_or_eq with hlt | rfl
    · refine .inl (Prod.Lex.toLex_lt_toLex.mpr (.inr ?_))
      simp [forUpdate, hf, hlt]
    · exact .inr rfl
  · intro h hh x hx
    obtain ⟨n, -, rfl⟩ := List.mem_map.mp hx
    refine .inl (Prod.Lex.toLex_lt_toLex.mpr (.inl ?_))
    simpa [forUpdate, hf] using hbelow h hh
  · intro x hx
    rcases (hheld' x).mp hx with hx | hx
    · obtain ⟨n, -, rfl⟩ := List.mem_map.mp hx
      simp [forUpdate, hf]
    · exact (hbelow x hx).trans (Nat.lt_succ_self k)
  · exact fun x hx => (hheld' x).mpr (.inr hx)
  · exact fun n hn => (hheld' _).mpr (.inl (List.mem_map_of_mem hn))

/-- The hours are locked row by row. -/
theorem ordered_lockHours {Q : Unit → List Lock → List (List Lock) → Prop}
    (hbelow : Below 2 held)
    (hQ : ∀ held', Below 3 held' →
      (∀ weekday ∈ db.restaurantOperatingHours.map (·.weekday),
        forUpdate (.hours weekday) ∈ held') → Q () held' marks) :
    InOrder db Q lockHours held marks := by
  refine ordered_bind.mpr (ordered_query fun v hv => ?_)
  refine ordered_rows (fun _ => rfl) (Sql.orderBy_pairwise id _) hbelow fun held' hb _ hheld' =>
    hQ held' hb fun weekday hw => hheld' weekday ?_
  simpa [Database.weekdays, hv.hours] using hw

/-- All tables are locked. -/
def TablesLocked (db : Database) (held : List Lock) : Prop :=
  ∀ n ∈ db.restaurantTables.map (·.tableNumber), forUpdate (.table n) ∈ held

theorem TablesLocked.mono {held' : List Lock} (h : TablesLocked db held) (hsub : held ⊆ held') :
    TablesLocked db held' := fun n hn => hsub (h n hn)

/-- The tables are locked row by row, in the order in which they were read. -/
theorem ordered_tables {v : Database} (hv : SameRows db v)
    {Q : Unit → List Lock → List (List Lock) → Prop} (hbelow : Below 3 held)
    (hQ : ∀ held', Below 4 held' → TablesLocked db held' → Q () held' marks) :
    InOrder db Q (acquireAll ((Sql.orderBy (·.tableNumber) v.restaurantTables).map
      fun t => forUpdate (.table t.tableNumber))) held marks := by
  have hmap : (Sql.orderBy (·.tableNumber) v.restaurantTables).map
      (fun t => forUpdate (.table t.tableNumber)) =
      ((Sql.orderBy (·.tableNumber) v.restaurantTables).map (·.tableNumber)).map
        fun n => forUpdate (.table n) := by
    rw [List.map_map]
    rfl
  rw [hmap]
  refine ordered_rows (fun _ => rfl) (List.pairwise_map.mpr (Sql.orderBy_pairwise _ _)) hbelow
    fun held' hb _ hheld' => hQ held' hb fun n hn => hheld' n ?_
  rw [← hv.tables, List.mem_map] at hn
  obtain ⟨t, ht, rfl⟩ := hn
  exact List.mem_map.mpr ⟨t, Sql.mem_orderBy.mpr ht, rfl⟩

/-- The configuration row is locked, once for each row that is read. -/
theorem ordered_configuration {α : Type} {l : List α}
    {Q : Unit → List Lock → List (List Lock) → Prop} (hbelow : Below 1 held)
    (hQ : ∀ held', Below 2 held' → (l ≠ [] → forUpdate .configuration ∈ held') →
      Q () held' marks) :
    InOrder db Q (acquireAll (l.map fun _ => forUpdate .configuration)) held marks := by
  refine ordered_acquireAll ?_ ?_ fun held' hheld' => hQ held' ?_ ?_
  · exact List.pairwise_map.mpr (List.pairwise_of_forall fun _ _ => .inr rfl)
  · intro h hh x hx
    obtain ⟨a, -, rfl⟩ := List.mem_map.mp hx
    exact .inl (Prod.Lex.toLex_lt_toLex.mpr (.inl (hbelow h hh)))
  · intro x hx
    rcases (hheld' x).mp hx with hx | hx
    · obtain ⟨a, -, rfl⟩ := List.mem_map.mp hx
      decide
    · exact (hbelow x hx).trans (Nat.lt_succ_self 1)
  · intro hne
    obtain ⟨a, ha⟩ := List.exists_mem_of_ne_nil l hne
    exact (hheld' _).mpr (.inl (List.mem_map.mpr ⟨a, ha, rfl⟩))

theorem ordered_lockFoundation {Q : Foundation → List Lock → List (List Lock) → Prop}
    (hbelow : Below 1 held)
    (hQ : ∀ foundation held', Below 4 held' → TablesLocked db held' →
      Q foundation held' marks) : InOrder db Q (lockFoundation env) held marks := by
  refine ordered_bind.mpr (ordered_query fun v _ => ?_)
  split
  · trivial
  refine ordered_bind.mpr (ordered_query fun v _ => ordered_bind.mpr ?_)
  refine ordered_configuration hbelow fun held' hb _ => ?_
  refine ordered_bind.mpr (ordered_liftExcept fun configuration _ => ?_)
  refine ordered_bind.mpr (ordered_query fun v _ => ?_)
  split
  · trivial
  refine ordered_bind.mpr (ordered_lockHours hb fun held' hb _ => ?_)
  refine ordered_bind.mpr (ordered_query fun v hv => ordered_bind.mpr ?_)
  refine ordered_tables hv hb fun held' hb htables => ?_
  refine ordered_bind.mpr (ordered_liftExcept fun totalCapacity _ => ?_)
  split
  · trivial
  cases env.timezones configuration.restaurantTimezone with
  | none => trivial
  | some zone => exact hQ _ held' hb htables

/-- The customer of the e-mail is locked if there is one. -/
theorem ordered_lockCustomer {email : Text} {Q : Option Customer → List Lock → List (List Lock) → Prop}
    (hbelow : Below 6 held) (hsome : ∀ c : Customer,
      Q (some c) (forUpdate (.customer c.customerId) :: held) marks)
    (hnone : Q none held marks) : InOrder db Q (lockCustomer email) held marks := by
  refine ordered_bind.mpr (ordered_query fun v _ => ?_)
  cases v.customerByEmail email with
  | none => exact hnone
  | some c => exact ⟨hbelow.admits le_rfl, hsome c⟩

theorem ordered_insertCustomer {row : Customer}
    {Q : Except SqlError Customer → List Lock → List (List Lock) → Prop} (hbelow : Below 5 held)
    (hok : ∀ c : Customer, Q (.ok c)
      (forUpdate (.customer c.customerId) :: forUpdate (.customerEmail row.email) :: held) marks)
    (herror : ∀ e, Q (.error e) (forUpdate (.customerEmail row.email) :: held) marks) :
    InOrder db Q (insertCustomer env row) held marks := by
  refine ordered_bind.mpr (ordered_acquire.mpr ⟨hbelow.admits le_rfl, ?_⟩)
  refine ordered_bind.mpr (ordered_attempt (fun v c w hv hw => ?_) fun v e _ _ => herror e)
  obtain ⟨-, -, rfl, rfl⟩ := insertCustomer_ok hw
  have hb : Below 6 (forUpdate (.customerEmail c.email) :: held) :=
    (hbelow.mono (Nat.le_succ 5)).cons (Nat.lt_succ_self 5)
  exact ⟨fun u hu => ⟨hu.hours, hu.tables⟩, hb.admits le_rfl, hok c⟩

/-- What is held once the customer is known. -/
structure Serving (db : Database) (customerId : ℕ) (held : List Lock) : Prop where
  below : Below 7 held
  tables : TablesLocked db held
  customer : forUpdate (.customer customerId) ∈ held

theorem Serving.cons {customerId : ℕ} (h : Serving db customerId held)
    (hr : r.target.place.1 < 7) : Serving db customerId (r :: held) :=
  ⟨h.below.cons hr, h.tables.mono (List.subset_cons_self _ _), List.mem_cons_of_mem _ h.customer⟩

theorem ordered_resolveCustomer {request : BookingRequest} {stage : Option FailureStage}
    {Q : Customer × Bool → List Lock → List (List Lock) → Prop} (hbelow : Below 5 held)
    (htables : TablesLocked db held)
    (hQ : ∀ c isNew held', Serving db c.customerId held' → Q (c, isNew) held' marks) :
    InOrder db Q (resolveCustomer env request stage) held marks := by
  have serve : ∀ (c : Customer) {rest : List Lock}, Below 7 rest → held ⊆ rest →
      Serving db c.customerId (forUpdate (.customer c.customerId) :: rest) := fun c rest hb hsub =>
    ⟨hb.cons (Nat.lt_succ_self 6), htables.mono (List.subset_cons_of_subset _ hsub),
      List.mem_cons_self ..⟩
  refine ordered_bind.mpr (ordered_lockCustomer (hbelow.mono (by decide)) (fun c => ?_) ?_)
  · exact hQ c false _ (serve c (hbelow.mono (by decide)) (List.Subset.refl _))
  refine ordered_bind.mpr (ordered_draw.mpr fun customerId => ?_)
  have hb : Below 6 (forUpdate (.customerEmail (request.newCustomer customerId).email) :: held) :=
    (hbelow.mono (Nat.le_succ 5)).cons (Nat.lt_succ_self 5)
  have hsub := List.subset_cons_self
    (forUpdate (.customerEmail (request.newCustomer customerId).email)) held
  refine ordered_bind.mpr (ordered_insertCustomer hbelow (fun c => ?_) fun e => ?_)
  · simp only
    split
    · trivial
    · exact hQ c true _ (serve c (hb.mono (Nat.le_succ 6)) hsub)
  · cases e with
    | uniqueViolation =>
      refine ordered_bind.mpr (ordered_lockCustomer hb (fun c => ?_) trivial)
      exact hQ c false _ (serve c (hb.mono (Nat.le_succ 6)) hsub)
    | _ => trivial

/-- The updated row is the locked one. -/
theorem ordered_updateCustomer {c : Customer} {change : Customer → Customer}
    {Q : Customer → List Lock → List (List Lock) → Prop}
    (hid : ∀ d : Customer, (change d).customerId = d.customerId)
    (h : Serving db c.customerId held)
    (hQ : ∀ (d : Customer) held', Serving db d.customerId held' → Q d held' marks) :
    InOrder db Q (updateCustomer env c change) held marks := by
  refine ordered_bind.mpr (ordered_acquire.mpr ⟨admits_of_forUpdate h.customer, ?_⟩)
  refine ordered_bind.mpr (ordered_execute fun v d w hv hw => ?_)
  obtain ⟨-, rfl, rfl⟩ := updateCustomer_ok hw
  refine ⟨fun u hu => ⟨hu.hours, hu.tables⟩, ?_⟩
  cases hd : v.customers.find? fun d => d.customerId = c.customerId with
  | none => trivial
  | some d =>
    have he : (change d).customerId = c.customerId :=
      (hid d).trans (by simpa using List.find?_some hd)
    have hserving := h.cons (r := noKeyUpdate (.customer c.customerId)) (Nat.lt_succ_self 6)
    rw [← he] at h
    exact hQ (change d) _ (he ▸ hserving)

theorem ordered_populateOptionalFields {request : BookingRequest} {stage : Option FailureStage}
    {c : Customer} {isNew : Bool} {Q : Customer → List Lock → List (List Lock) → Prop}
    (h : Serving db c.customerId held)
    (hQ : ∀ (d : Customer) held', Serving db d.customerId held' → Q d held' marks) :
    InOrder db Q (populateOptionalFields env request stage c isNew) held marks := by
  unfold populateOptionalFields
  simp only
  split
  · refine ordered_bind.mpr (ordered_updateCustomer (fun _ => rfl) h fun d held' hd => ?_)
    split
    · trivial
    · exact hQ d held' hd
  · exact hQ c held h

theorem ordered_updateNewsletter {request : BookingRequest} {stage : Option FailureStage}
    {c : Customer} {Q : Customer → List Lock → List (List Lock) → Prop}
    (h : Serving db c.customerId held)
    (hQ : ∀ (d : Customer) held', Serving db d.customerId held' → Q d held' marks) :
    InOrder db Q (updateNewsletter env request stage c) held marks := by
  unfold updateNewsletter
  split
  · refine ordered_bind.mpr (ordered_updateCustomer (fun _ => rfl) h fun d held' hd => ?_)
    split
    · trivial
    · exact hQ d held' hd
  · exact hQ c held h

/-- The foreign key of the reservation locks the customer that is locked already. -/
theorem ordered_insertReservation {request : BookingRequest} {start : ResolvedStart}
    {stage : Option FailureStage} {customerId : ℕ} {fingerprint : Bytes}
    {Q : ℕ → List Lock → List (List Lock) → Prop} (h : Serving db customerId held)
    (hQ : ∀ reservationId held', TablesLocked db held' →
      forUpdate (.reservation reservationId) ∈ held' → Q reservationId held' marks) :
    InOrder db Q (insertReservation request start stage customerId fingerprint) held marks := by
  refine ordered_bind.mpr (ordered_draw.mpr fun reservationId => ?_)
  refine ordered_bind.mpr (ordered_liftExcept fun row _ => ?_)
  refine ordered_bind.mpr (ordered_acquire.mpr ⟨h.below.admits le_rfl, ?_⟩)
  have hb : Below 8 (forUpdate (.reservationIdentity customerId start.startsAt
      request.partySize) :: held) := (h.below.mono (Nat.le_succ 7)).cons (Nat.lt_succ_self 7)
  refine ordered_bind.mpr (ordered_attempt (fun v a w hv hw => ?_) fun v e _ _ => ?_)
  · obtain ⟨-, -, rfl⟩ := insertReservation_ok hw
    refine ⟨fun u hu => ⟨hu.hours, hu.tables⟩, hb.admits le_rfl, ?_, ?_⟩
    · exact admits_of_forUpdate
        (List.mem_cons_of_mem _ (List.mem_cons_of_mem _ h.customer))
    · split
      · trivial
      · refine hQ reservationId _ (h.tables.mono fun x hx => ?_) ?_
        · exact List.mem_cons_of_mem _ (List.mem_cons_of_mem _ (List.mem_cons_of_mem _ hx))
        · exact List.mem_cons_of_mem _ (List.mem_cons_self ..)
  · cases e <;> trivial

/-- The foreign keys of the assignments lock what is locked already. -/
theorem ordered_insertAssignments {reservationId : ℕ} {stage : Option FailureStage}
    {tableNumbers : List ℤ} {assignedCount : ℕ} {Q : Unit → List Lock → List (List Lock) → Prop}
    (htables : TablesLocked db held) (hreservation : forUpdate (.reservation reservationId) ∈ held)
    (hQ : ∀ held', Q () held' marks) :
    InOrder db Q (insertAssignments reservationId stage tableNumbers assignedCount) held marks := by
  induction tableNumbers generalizing held assignedCount with
  | nil => exact hQ held
  | cons n rest ih =>
    refine ordered_bind.mpr (ordered_execute fun v a w hv hw => ?_)
    obtain ⟨-, -, ⟨t, ht, hn⟩, rfl⟩ := insertAssignment_ok hw
    have hlocked : forUpdate (.table n) ∈ held := by
      refine htables n (hv.tables ▸ ?_)
      exact List.mem_map.mpr ⟨t, ht, hn⟩
    refine ⟨fun u hu => ⟨hu.hours, hu.tables⟩, admits_of_forUpdate hreservation,
      admits_of_forUpdate (List.mem_cons_of_mem _ hlocked), ?_⟩
    split
    · trivial
    · refine ih (htables.mono fun x hx => ?_) ?_
      · exact List.mem_cons_of_mem _ (List.mem_cons_of_mem _ hx)
      · exact List.mem_cons_of_mem _ (List.mem_cons_of_mem _ hreservation)

theorem quiet_checkIdentity (request : BookingRequest) (c : Customer) :
    (checkIdentity env request c).Quiet := by
  unfold checkIdentity
  simp only
  split
  · trivial
  split <;> trivial

theorem quiet_exactRetry (request : BookingRequest) (start : ResolvedStart) (c : Customer)
    (fingerprint : Bytes) : (exactRetry request start c fingerprint).Quiet := by
  refine .bind (.bind (quiet_query _) fun r => ?_) fun r => ?_
  · cases r with
    | none => exact quiet_query _
    | some r => trivial
  · cases r with
    | none => trivial
    | some r => exact .bind (quiet_query _) fun _ => trivial

theorem quiet_rejectOverlap (request : BookingRequest) (start : ResolvedStart) (c : Customer)
    (fingerprint : Bytes) : (rejectOverlap request start c fingerprint).Quiet := by
  refine .bind (quiet_query _) fun overlap => ?_
  split <;> trivial

theorem quiet_allocate (request : BookingRequest) (foundation : Foundation)
    (start : ResolvedStart) (fingerprint : Bytes) (tieRank : Option ℤ) (readings : Readings) :
    (allocate request foundation start fingerprint tieRank readings).Quiet := by
  refine .bind (quiet_query _) fun free => .bind (quiet_liftExcept _) fun allocation => ?_
  cases allocation with
  | none => trivial
  | some allocation =>
    simp only
    split <;> trivial

theorem quiet_checkPostconditions (request : BookingRequest) (start : ResolvedStart)
    (allocation : Allocation) (customerId reservationId : ℕ) :
    (checkPostconditions env request start allocation customerId reservationId).Quiet := by
  refine .bind (quiet_query _) fun assigned => .bind (quiet_liftExcept _) fun total => ?_
  refine .bind (quiet_query _) fun violated => ?_
  split <;> trivial

theorem quiet_resolveStart (foundation : Foundation) (request : BookingRequest) :
    (resolveStart foundation request).Quiet := by
  unfold resolveStart
  simp only
  split
  · split
    · trivial
    · split <;> trivial
    · trivial
  · trivial

theorem ordered_writeBooking {request : BookingRequest} {start : ResolvedStart}
    {stage : Option FailureStage} {stored : Customer} {isNew : Bool} {fingerprint : Bytes}
    {allocation : Allocation} {Q : Empty → List Lock → List (List Lock) → Prop}
    (h : Serving db stored.customerId held) :
    InOrder db Q (writeBooking env request start stage stored isNew fingerprint allocation) held
      marks := by
  refine ordered_bind.mpr (ordered_populateOptionalFields h fun c held' hc => ?_)
  refine ordered_bind.mpr (ordered_updateNewsletter hc fun c held' hc => ?_)
  refine ordered_bind.mpr (ordered_insertReservation hc fun id held' htables hid => ?_)
  refine ordered_bind.mpr (ordered_insertAssignments htables hid fun held' => ?_)
  exact ordered_bind.mpr ((quiet_checkPostconditions _ _ _ _ _).ordered fun _ => trivial)

theorem ordered_serveCustomer {request : BookingRequest} {foundation : Foundation}
    {start : ResolvedStart} {tieRank : Option ℤ} {stage : Option FailureStage}
    {readings : Readings} {c : Customer} {isNew : Bool}
    {Q : Empty → List Lock → List (List Lock) → Prop} (h : Serving db c.customerId held) :
    InOrder db Q (serveCustomer env request foundation start tieRank stage readings c isNew) held
      marks := by
  refine ordered_bind.mpr ((quiet_checkIdentity _ _).ordered fun _ => ?_)
  refine ordered_bind.mpr ((quiet_exactRetry _ _ _ _).ordered fun _ => ?_)
  refine ordered_bind.mpr ((quiet_rejectOverlap _ _ _ _).ordered fun _ => ?_)
  refine ordered_bind.mpr ((quiet_allocate _ _ _ _ _ _).ordered fun allocation => ?_)
  exact ordered_writeBooking h

theorem ordered_bookingBlock {request : BookingRequest} {foundation : Foundation}
    {start : ResolvedStart} {tieRank : Option ℤ} {stage : Option FailureStage}
    {readings : Readings} {Q : Empty → List Lock → List (List Lock) → Prop}
    (hbelow : Below 4 held) (htables : TablesLocked db held) :
    InOrder db Q (bookingBlock env request foundation start tieRank stage readings) held marks := by
  refine ordered_bind.mpr (ordered_liftExcept fun key _ => ?_)
  refine ordered_bind.mpr (ordered_acquire.mpr ⟨hbelow.admits le_rfl, ?_⟩)
  refine ordered_bind.mpr (ordered_resolveCustomer
    ((hbelow.mono (Nat.le_succ 4)).cons (Nat.lt_succ_self 4))
    (htables.mono (List.subset_cons_self _ _)) fun c isNew held' hc => ?_)
  exact ordered_serveCustomer hc

theorem ordered_bookReservationCore {isolation : IsolationLevel} {p : BookingArguments}
    {tieRank : Option ℤ} {stage : Option FailureStage} {readings : Readings}
    {Q : Empty → List Lock → List (List Lock) → Prop} :
    InOrder db Q (bookReservationCore env isolation p tieRank stage readings) [] marks := by
  unfold bookReservationCore
  split
  · trivial
  cases normalizedInput env.character p stage with
  | none => trivial
  | some request =>
    have hnil : Below 0 [] := nofun
    refine ordered_bind.mpr (ordered_acquire.mpr ⟨hnil.admits le_rfl, ?_⟩)
    refine ordered_bind.mpr (ordered_lockFoundation
      ((hnil.mono (Nat.le_succ 0)).cons (Nat.lt_succ_self 0)) fun foundation held hb htables => ?_)
    refine ordered_bind.mpr ((quiet_resolveStart _ _).ordered fun start => ?_)
    refine ordered_bind.mpr (ordered_query fun v _ => ?_)
    refine ordered_bind.mpr (ordered_liftExcept fun hours _ => ?_)
    cases currentPolicy foundation hours start request.partySize readings.first with
    | some exit => trivial
    | none =>
      refine Ordered.handle (ordered_bookingBlock hb htables) fun e q he held marks => ?_
      -- the handler returns its row and locks nothing
      cases e with
      | bookingAborted outcome detail fingerprint => cases he; trivial
      | _ => cases he

theorem ordered_newsletterCustomer {request : NewsletterRequest}
    {Q : Customer → List Lock → List (List Lock) → Prop} (hbelow : Below 5 held)
    (hQ : ∀ (c : Customer) held', forUpdate (.customer c.customerId) ∈ held' → Q c held' marks) :
    InOrder db Q (newsletterCustomer env request) held marks := by
  refine ordered_bind.mpr (ordered_lockCustomer (hbelow.mono (Nat.le_succ 5)) (fun c => ?_) ?_)
  · exact hQ c _ (List.mem_cons_self ..)
  simp only
  split
  · trivial
  refine ordered_bind.mpr (ordered_draw.mpr fun customerId => ?_)
  refine ordered_bind.mpr (ordered_insertCustomer hbelow (fun c => ?_) fun e => ?_)
  · exact hQ c _ (List.mem_cons_self ..)
  · cases e with
    | uniqueViolation =>
      refine ordered_bind.mpr (ordered_lockCustomer
        ((hbelow.mono (Nat.le_succ 5)).cons (Nat.lt_succ_self 5)) (fun c => ?_) trivial)
      exact hQ c _ (List.mem_cons_self ..)
    | _ => trivial

theorem ordered_setNewsletterPreference {p : NewsletterArguments}
    {Q : Empty → List Lock → List (List Lock) → Prop} :
    InOrder db Q (setNewsletterPreference env p) [] marks := by
  unfold setNewsletterPreference
  cases newsletterInput env.character p with
  | none => trivial
  | some request =>
    have hnil : Below 4 [] := nofun
    refine ordered_bind.mpr (ordered_liftExcept fun key _ => ?_)
    refine ordered_bind.mpr (ordered_acquire.mpr ⟨hnil.admits le_rfl, ?_⟩)
    refine ordered_bind.mpr (ordered_newsletterCustomer
      ((hnil.mono (Nat.le_succ 4)).cons (Nat.lt_succ_self 4)) fun c held' hc => ?_)
    unfold storePreference
    split
    · trivial
    split
    · trivial
    refine ordered_bind.mpr (ordered_acquire.mpr ⟨admits_of_forUpdate hc, ?_⟩)
    refine ordered_bind.mpr (ordered_execute fun v a w _ hw => ?_)
    obtain ⟨-, -, rfl⟩ := updateCustomer_ok hw
    exact ⟨fun u hu => ⟨hu.hours, hu.tables⟩, trivial⟩

theorem ordered_setReservationConfiguration {p : ConfigurationArguments}
    {Q : Empty → List Lock → List (List Lock) → Prop} :
    InOrder db Q (setReservationConfiguration env p) [] marks := by
  have hnil : Below 0 [] := nofun
  refine ordered_bind.mpr (ordered_acquire.mpr ⟨hnil.admits le_rfl, ?_⟩)
  cases p.restaurantTimezone.filter fun name => (env.timezones name).isSome with
  | none => trivial
  | some timezone =>
    refine ordered_bind.mpr (ordered_query fun v _ => ordered_bind.mpr ?_)
    refine ordered_configuration ((hnil.mono (Nat.le_succ 0)).cons (Nat.lt_succ_self 0))
      fun held' _ hlocked => ?_
    refine ordered_bind.mpr (ordered_liftExcept fun row hrow => ?_)
    have hne : v.reservationConfiguration.filter (·.configurationId = 1) ≠ [] := by
      simp [strict_eq_ok.mp hrow]
    refine ordered_bind.mpr (ordered_acquire.mpr ⟨admits_of_forUpdate (hlocked hne), ?_⟩)
    refine ordered_bind.mpr (ordered_execute fun v row w _ hw => ?_)
    obtain ⟨-, rfl⟩ := updateConfiguration_ok hw
    exact ⟨fun u hu => ⟨hu.hours, hu.tables⟩, trivial⟩

theorem SameRows.putHours {v : Database} (h : SameRows db v) (row : RestaurantOperatingHours) :
    SameRows db (v.putHours row) where
  hours := by
    rw [← h.hours, Database.putHours, List.map_map]
    refine List.map_congr_left fun x _ => ?_
    by_cases hx : x.weekday = row.weekday <;> simp [hx]
  tables := h.tables

theorem SameRows.putTable {v : Database} (h : SameRows db v) (row : RestaurantTable) :
    SameRows db (v.putTable row) where
  hours := h.hours
  tables := by
    rw [← h.tables, Database.putTable, List.map_map]
    refine List.map_congr_left fun x _ => ?_
    by_cases hx : x.tableNumber = row.tableNumber <;> simp [hx]

theorem ordered_setRestaurantOperatingHours {weekday : Option ℤ}
    {opensAt closesAt : Option TimeOfDay} {Q : Empty → List Lock → List (List Lock) → Prop} :
    InOrder db Q (setRestaurantOperatingHours weekday opensAt closesAt) [] marks := by
  have hnil : Below 0 [] := nofun
  refine ordered_bind.mpr (ordered_acquire.mpr ⟨hnil.admits le_rfl, ?_⟩)
  refine ordered_bind.mpr (ordered_lockHours
    ((hnil.mono (Nat.zero_le 2)).cons Nat.two_pos) fun held' _ hlocked => ?_)
  refine ordered_bind.mpr (ordered_query fun v hv => ordered_bind.mpr ?_)
  refine ordered_acquireAll_of_covers (fun r hr => ?_) fun held'' => ?_
  · obtain ⟨x, hx, rfl⟩ := List.mem_map.mp hr
    refine covers_of_forUpdate (hlocked x.weekday (hv.hours ▸ ?_))
    exact List.mem_map_of_mem (List.mem_filter.mp hx).1
  · refine ordered_bind.mpr (ordered_execute fun v row w _ hw => ?_)
    obtain ⟨-, rfl⟩ := updateHours_ok hw
    exact ⟨fun u hu => hu.putHours row, trivial⟩

theorem ordered_setRestaurantTableCapacity {tableNumber seatingCapacity : Option ℤ}
    {Q : Empty → List Lock → List (List Lock) → Prop} :
    InOrder db Q (setRestaurantTableCapacity tableNumber seatingCapacity) [] marks := by
  have hnil : Below 0 [] := nofun
  refine ordered_bind.mpr (ordered_acquire.mpr ⟨hnil.admits le_rfl, ?_⟩)
  refine ordered_bind.mpr (ordered_bind.mpr (ordered_query fun v hv => ?_))
  refine ordered_tables hv ((hnil.mono (Nat.zero_le 3)).cons (Nat.succ_pos 2)) fun held' _ hlocked => ?_
  refine ordered_bind.mpr (ordered_query fun v hv => ordered_bind.mpr ?_)
  refine ordered_acquireAll_of_covers (fun r hr => ?_) fun held'' => ?_
  · obtain ⟨x, hx, rfl⟩ := List.mem_map.mp hr
    refine covers_of_forUpdate (hlocked x.tableNumber (hv.tables ▸ ?_))
    exact List.mem_map_of_mem (List.mem_filter.mp hx).1
  · refine ordered_bind.mpr (ordered_execute fun v row w _ hw => ?_)
    obtain ⟨-, rfl⟩ := updateTable_ok hw
    exact ⟨fun u hu => hu.putTable row, trivial⟩

theorem ordered_server (call : Call) {Q : Empty → List Lock → List (List Lock) → Prop} :
    InOrder db Q ((server env).body call) [] marks := by
  cases call with
  | bookReservation p readings =>
    show InOrder db Q (bookReservationCore env .readCommitted p none none readings) [] marks
    exact ordered_bookReservationCore
  | setNewsletterPreference p => exact ordered_setNewsletterPreference
  | setReservationConfiguration p => exact ordered_setReservationConfiguration
  | setRestaurantOperatingHours w o c => exact ordered_setRestaurantOperatingHours
  | setRestaurantTableCapacity n c => exact ordered_setRestaurantTableCapacity

end Order

variable {env : Environment}

/-- The wait-for relation of a world, where `place` is the order of the queues. -/
abbrev WaitsFor (place : ℕ → ℕ) (w : World Database Lock Sequence SqlError Answer Call) (t u : ℕ) :
    Prop := w.WaitsFor Lock.Conflicts place t u

/-- No deadlock: from any database, whatever calls run beside each other and however they
interleave, no transaction waits for itself over any number of others. -/
theorem no_deadlock {c : Database} {n : Sequence → ℕ}
    {w : World Database Lock Sequence SqlError Answer Call}
    (hw : Reaches env (World.initial c n) w) (place : ℕ → ℕ) (t : ℕ) :
    ¬ Relation.TransGen (WaitsFor place w) t t :=
  (disciplined_of_lockSteps (o := lockOrder) (V := SameRows c) ⟨rfl, rfl⟩
    (fun call => ordered_server call) hw).not_transGen_waitsFor place t

/-- A change of the hours has begun, holds the restaurant and lets a change of a table wait. -/
theorem exists_waiting : ∃ w, Reaches .eastern (World.initial seed fun _ => 1) w ∧
    WaitsFor id w 1 0 := by
  refine ⟨_, .tail (.tail (.tail .refl
    (.begin 0 (.setRestaurantOperatingHours (some 5) none none) rfl))
    (.lock 0 _ rfl (forUpdate (.advisory .restaurant)) _ rfl ?_))
    (.begin 1 (.setRestaurantTableCapacity (some 1) (some 6)) rfl), Nat.one_ne_zero, _, _,
    forUpdate (.advisory .restaurant), forUpdate (.advisory .restaurant), rfl, rfl, ⟨_, rfl⟩,
    ⟨rfl, trivial⟩, .inl (List.mem_singleton_self _)⟩
  intro u s hu hs
  rcases World.set_sessions_eq_some hs with ⟨rfl, -⟩ | ⟨-, hs⟩
  · exact absurd rfl hu
  · cases hs

theorem no_deadlock_waiting : ∃ w, Reaches .eastern (World.initial seed fun _ => 1) w ∧
    WaitsFor id w 1 0 ∧ ∀ t, ¬ Relation.TransGen (WaitsFor id w) t t := by
  obtain ⟨w, hw, hwait⟩ := exists_waiting
  exact ⟨w, hw, hwait, no_deadlock hw id⟩

end CafeFausse.RowLocks
