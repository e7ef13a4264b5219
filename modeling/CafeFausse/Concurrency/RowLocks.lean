import CafeFausse.Concurrency.Runs
import CafeFausse.Routines.RowLocks
import CafeFausse.Transaction.LockErasure

/-! # Row locks add nothing but waiting

Each routine with its row locks erases to the one without. So whatever the server with
row locks does, the server without them can do, and what holds in every run of the latter
holds here.
-/

namespace CafeFausse.RowLocks

open Transaction Program Database

/-- The advisory lock, if the lock is one. -/
def Lock.advisory? : Lock → Option LockKey
  | ⟨.advisory key, .update⟩ => some key
  | _ => none

theorem Lock.advisory?_eq_some {r : Lock} {key : LockKey} :
    r.advisory? = some key ↔ r = forUpdate (.advisory key) := by
  obtain ⟨target, mode⟩ := r
  cases target <;> cases mode <;> simp [Lock.advisory?, forUpdate]

variable {env : Environment}

/-- The second routine is the first one without its row locks. -/
abbrev Plain {α : Type} (p : LockingRoutine α) (q : Routine α) : Prop := p.Erases Lock.advisory? q

section Routines

theorem plain_plain {α : Type} (q : Routine α) : Plain (plain q) q :=
  .mapLocks (f := fun key => forUpdate (.advisory key)) (fun _ => rfl) q

theorem plain_query {α : Type} (q : Database → α) : Plain (query q) (query q) :=
  .statement fun _ => .pure _

theorem plain_liftExcept {α : Type} (x : Except SqlError α) :
    Plain (liftExcept x) (liftExcept x) := by
  cases x
  · exact .raise _
  · exact .pure _

theorem plain_execute {α : Type} (f : Database → Except SqlError (α × (Database → Database))) :
    Plain (execute f) (execute f) := by
  refine .statement fun v => ?_
  cases f v
  · exact .raise _
  · exact .pure _

theorem plain_acquire (key : LockKey) :
    Plain (acquire (forUpdate (.advisory key))) (acquire key) := .lock rfl (.pure ())

/-- A row lock in front of a routine. -/
theorem plain_row {β : Type} {r : Lock} {f : Unit → LockingRoutine β} {q : Routine β}
    (hr : r.advisory? = none) (h : Plain (f ()) q) : Plain ((acquire r).bind f) q := .drop hr h

theorem plain_rows {α β : Type} {l : List α} {r : α → Lock} {f : Unit → LockingRoutine β}
    {q : Routine β} (hr : ∀ a, (r a).advisory? = none) (h : Plain (f ()) q) :
    Plain ((acquireAll (l.map r)).bind f) q :=
  .acquireAll (fun x hx => by obtain ⟨a, -, rfl⟩ := List.mem_map.mp hx; exact hr a) h

theorem plain_lockHours {β : Type} {f : Unit → LockingRoutine β} {q : Routine β}
    (h : Plain (f ()) q) : Plain (lockHours.bind f) q :=
  .look fun _ => plain_rows (fun _ => rfl) h

theorem plain_lockTables {β : Type} {f : Unit → LockingRoutine β} {q : Routine β}
    (h : Plain (f ()) q) : Plain (lockTables.bind f) q :=
  .look fun _ => plain_rows (fun _ => rfl) h

theorem plain_lockFoundation : Plain (lockFoundation env) (CafeFausse.lockFoundation env) := by
  refine .bind (plain_query _) fun count => ?_
  split
  · exact .ret _
  refine .bind (plain_query _) fun rows => ?_
  refine plain_rows (fun _ => rfl) ?_
  refine .bind (plain_liftExcept _) fun configuration => ?_
  refine .bind (plain_query _) fun complete => ?_
  split
  · exact .ret _
  refine plain_lockHours ?_
  refine .bind (plain_query _) fun tables => ?_
  refine plain_rows (fun _ => rfl) ?_
  refine .bind (plain_liftExcept _) fun totalCapacity => ?_
  split
  · exact .ret _
  cases env.timezones configuration.restaurantTimezone
  · exact .ret _
  · exact .pure _

/-- `FOR UPDATE` of a customer only adds the lock to the look. -/
theorem plain_lockCustomer {β : Type} {email : Text} {f : Option Customer → LockingRoutine β}
    {g : Option Customer → Routine β} (h : ∀ c, Plain (f c) (g c)) :
    Plain ((lockCustomer email).bind f) ((query (·.customerByEmail email)).bind g) := by
  refine .statement fun v => ?_
  cases hc : v.customerByEmail email with
  | none =>
    simp only [hc]
    exact h none
  | some c =>
    simp only [hc]
    exact .drop rfl (h (some c))

theorem plain_insertCustomer {β : Type} {row : Customer}
    {f : Except SqlError Customer → LockingRoutine β} {g : Except SqlError Customer → Routine β}
    (h : ∀ x, Plain (f x) (g x)) : Plain ((insertCustomer env row).bind f)
      ((attempt (Database.insertCustomer env.character row)).bind g) := by
  refine .drop rfl (.statement fun v => ?_)
  cases hx : Database.insertCustomer env.character row v with
  | error e =>
    simp only [hx]
    exact h (.error e)
  | ok x =>
    simp only [hx]
    exact .drop rfl (h (.ok x.1))

theorem plain_resolveCustomer (request : BookingRequest) (stage : Option FailureStage) :
    Plain (resolveCustomer env request stage) (CafeFausse.resolveCustomer env request stage) := by
  refine plain_lockCustomer fun c => ?_
  cases c with
  | some c => exact .pure _
  | none =>
    refine .nextval fun customerId => plain_insertCustomer fun x => ?_
    cases x with
    | ok customer =>
      simp only
      split
      · exact .raise _
      · exact .pure _
    | error e =>
      cases e with
      | uniqueViolation =>
        refine plain_lockCustomer fun c => ?_
        cases c with
        | some c => exact .pure _
        | none => exact .raise _
      | _ => exact .raise _

theorem plain_updateCustomer (customer : Customer) (change : Customer → Customer) :
    Plain (updateCustomer env customer change)
      (CafeFausse.updateCustomer env customer change) := by
  refine plain_row rfl (.bind (plain_execute _) fun c => ?_)
  cases c with
  | some c => exact .pure _
  | none => exact .raise _

theorem plain_populateOptionalFields (request : BookingRequest) (stage : Option FailureStage)
    (customer : Customer) (isNew : Bool) :
    Plain (populateOptionalFields env request stage customer isNew)
      (CafeFausse.populateOptionalFields env request stage customer isNew) := by
  unfold populateOptionalFields CafeFausse.populateOptionalFields
  simp only
  split
  · refine .bind (plain_updateCustomer _ _) fun customer => ?_
    split
    · exact .raise _
    · exact .pure _
  · exact .pure _

theorem plain_updateNewsletter (request : BookingRequest) (stage : Option FailureStage)
    (customer : Customer) : Plain (updateNewsletter env request stage customer)
      (CafeFausse.updateNewsletter env request stage customer) := by
  unfold updateNewsletter CafeFausse.updateNewsletter
  split
  · refine .bind (plain_updateCustomer _ _) fun customer => ?_
    split
    · exact .raise _
    · exact .pure _
  · exact .pure _

theorem plain_insertReservation (request : BookingRequest) (start : ResolvedStart)
    (stage : Option FailureStage) (customerId : ℕ) (fingerprint : Bytes) :
    Plain (insertReservation request start stage customerId fingerprint)
      (CafeFausse.insertReservation request start stage customerId fingerprint) := by
  refine .bind (.nextval fun _ => .pure _) fun reservationId => ?_
  refine .bind (plain_liftExcept _) fun row => plain_row rfl ?_
  refine .statement fun v => ?_
  cases hx : Database.insertReservation row v with
  | error e =>
    simp only [hx]
    cases e <;> exact .raise _
  | ok x =>
    simp only [hx]
    refine .drop rfl (.drop rfl ?_)
    split
    · exact .raise _
    · exact .pure _

theorem plain_insertAssignments (reservationId : ℕ) (stage : Option FailureStage)
    (tableNumbers : List ℤ) (assignedCount : ℕ) :
    Plain (insertAssignments reservationId stage tableNumbers assignedCount)
      (CafeFausse.insertAssignments reservationId stage tableNumbers assignedCount) := by
  induction tableNumbers generalizing assignedCount with
  | nil => exact .pure ()
  | cons tableNumber rest ih =>
    refine .bind (plain_execute _) fun _ => plain_row rfl (plain_row rfl ?_)
    split
    · exact .raise _
    · exact ih _

theorem plain_writeBooking (request : BookingRequest) (start : ResolvedStart)
    (stage : Option FailureStage) (stored : Customer) (isNew : Bool) (fingerprint : Bytes)
    (allocation : Allocation) :
    Plain (writeBooking env request start stage stored isNew fingerprint allocation)
      (CafeFausse.writeBooking env request start stage stored isNew fingerprint allocation) := by
  refine .bind (plain_populateOptionalFields _ _ _ _) fun customer => ?_
  refine .bind (plain_updateNewsletter _ _ _) fun customer => ?_
  refine .bind (plain_insertReservation _ _ _ _ _) fun reservationId => ?_
  refine .bind (plain_insertAssignments _ _ _ _) fun _ => ?_
  exact .bind (plain_plain _) fun _ => .ret _

theorem plain_serveCustomer (request : BookingRequest) (foundation : Foundation)
    (start : ResolvedStart) (tieRank : Option ℤ) (stage : Option FailureStage)
    (readings : Readings) (customer : Customer) (isNew : Bool) :
    Plain (serveCustomer env request foundation start tieRank stage readings customer isNew)
      (CafeFausse.serveCustomer env request foundation start tieRank stage readings customer
        isNew) := by
  refine .bind (plain_plain _) fun _ => ?_
  refine .bind (plain_plain _) fun _ => .bind (plain_plain _) fun _ => ?_
  exact .bind (plain_plain _) fun allocation => plain_writeBooking _ _ _ _ _ _ _

theorem plain_bookRequest (request : BookingRequest) (tieRank : Option ℤ)
    (stage : Option FailureStage) (readings : Readings) :
    Plain (bookRequest env request tieRank stage readings)
      (CafeFausse.bookRequest env request tieRank stage readings) := by
  refine .bind (plain_acquire _) fun _ => .bind plain_lockFoundation fun foundation => ?_
  refine .bind (plain_plain _) fun start => .bind (plain_query _) fun rows => ?_
  refine .bind (plain_liftExcept _) fun hours => ?_
  cases currentPolicy foundation hours start request.partySize readings.first with
  | some exit => exact .ret _
  | none =>
    refine .savepoint (.handle ?_ fun e => ?_)
    · refine .bind (plain_liftExcept _) fun key => .bind (plain_acquire _) fun _ => ?_
      exact .bind (plain_resolveCustomer _ _) fun x => plain_serveCustomer _ _ _ _ _ _ _ _
    · cases abortHandler request start e with
      | none => exact .none
      | some q => exact .some (plain_plain q)

theorem plain_bookReservationCore (isolation : IsolationLevel) (p : BookingArguments)
    (tieRank : Option ℤ) (stage : Option FailureStage) (readings : Readings) :
    Plain (bookReservationCore env isolation p tieRank stage readings)
      (CafeFausse.bookReservationCore env isolation p tieRank stage readings) := by
  unfold bookReservationCore CafeFausse.bookReservationCore
  split
  · exact .ret _
  cases normalizedInput env.character p stage with
  | none => exact .ret _
  | some request => exact plain_bookRequest request tieRank stage readings

theorem plain_storePreference (request : NewsletterRequest) (customer : Customer) :
    Plain (storePreference env request customer)
      (CafeFausse.storePreference env request customer) := by
  unfold storePreference CafeFausse.storePreference
  split
  · exact .ret _
  split
  · exact .ret _
  exact plain_row rfl (.bind (plain_execute _) fun _ => .ret _)

theorem plain_newsletterCustomer (request : NewsletterRequest) :
    Plain (newsletterCustomer env request) (CafeFausse.newsletterCustomer env request) := by
  refine plain_lockCustomer fun c => ?_
  cases c with
  | some c => exact .pure _
  | none =>
    simp only
    split
    · exact .ret _
    refine .nextval fun customerId => plain_insertCustomer fun x => ?_
    cases x with
    | ok customer => exact .pure _
    | error e =>
      cases e with
      | uniqueViolation =>
        refine plain_lockCustomer fun c => ?_
        cases c with
        | some c => exact .pure _
        | none => exact .raise _
      | _ => exact .raise _

theorem plain_setNewsletterPreference (p : NewsletterArguments) :
    Plain (setNewsletterPreference env p) (CafeFausse.setNewsletterPreference env p) := by
  unfold setNewsletterPreference CafeFausse.setNewsletterPreference
  cases newsletterInput env.character p with
  | none => exact .ret _
  | some request =>
    refine .bind (plain_liftExcept _) fun key => .bind (plain_acquire _) fun _ => ?_
    exact .bind (plain_newsletterCustomer request) fun c => plain_storePreference request c

theorem plain_setReservationConfiguration (p : ConfigurationArguments) :
    Plain (setReservationConfiguration env p)
      (CafeFausse.setReservationConfiguration env p) := by
  refine .bind (plain_acquire _) fun _ => ?_
  cases p.restaurantTimezone.filter fun name => (env.timezones name).isSome with
  | none => exact .raise _
  | some timezone =>
    refine .bind (plain_query _) fun rows => plain_rows (fun _ => rfl) ?_
    refine .bind (plain_liftExcept _) fun _ => plain_row rfl ?_
    exact .bind (plain_execute _) fun _ => .ret _

theorem plain_setRestaurantOperatingHours (weekday : Option ℤ)
    (opensAt closesAt : Option TimeOfDay) :
    Plain (setRestaurantOperatingHours weekday opensAt closesAt)
      (CafeFausse.setRestaurantOperatingHours weekday opensAt closesAt) := by
  refine .bind (plain_acquire _) fun _ => plain_lockHours (.look fun v => ?_)
  exact plain_rows (fun _ => rfl) (.bind (plain_execute _) fun _ => .ret _)

theorem plain_setRestaurantTableCapacity (tableNumber seatingCapacity : Option ℤ) :
    Plain (setRestaurantTableCapacity tableNumber seatingCapacity)
      (CafeFausse.setRestaurantTableCapacity tableNumber seatingCapacity) := by
  refine .bind (plain_acquire _) fun _ => plain_lockTables (.look fun v => ?_)
  exact plain_rows (fun _ => rfl) (.bind (plain_execute _) fun _ => .ret _)

theorem plain_server (call : Call) :
    Plain ((server env).body call) ((CafeFausse.server env).body call) := by
  cases call with
  | bookReservation p readings => exact plain_bookReservationCore .readCommitted p none none readings
  | setNewsletterPreference p => exact plain_setNewsletterPreference p
  | setReservationConfiguration p => exact plain_setReservationConfiguration p
  | setRestaurantOperatingHours w o c => exact plain_setRestaurantOperatingHours w o c
  | setRestaurantTableCapacity n c => exact plain_setRestaurantTableCapacity n c

end Routines

/-- Worlds some interleaving of calls with row locks leads to. -/
def Reaches (env : Environment) : World Database Lock Sequence SqlError Answer Call →
    World Database Lock Sequence SqlError Answer Call → Prop :=
  Relation.ReflTransGen (LockStep (server env) Lock.Conflicts)

/-- Every run with row locks is a run without them. -/
theorem exists_reaches {c : Database} {n : Sequence → ℕ}
    {w : World Database Lock Sequence SqlError Answer Call}
    (hw : Reaches env (World.initial c n) w) :
    ∃ w', Transaction.Reaches (CafeFausse.server env) (World.initial c n) w' ∧
      w.Erases Lock.advisory? w' := by
  refine World.Erases.exists_reaches plain_server ?_ ⟨rfl, rfl, fun _ => .none, rfl⟩ hw
  intro r x key hr hx
  rw [Lock.advisory?_eq_some] at hr hx
  subst hr hx
  exact ⟨rfl, trivial⟩

/-- With row locks, too, the committed state stays consistent. -/
theorem consistent_of_rowLocks {w : World Database Lock Sequence SqlError Answer Call}
    (hw : Reaches env (World.initial seed fun _ => 1) w) :
    Consistent env.character w.committed := by
  obtain ⟨w', hw', he⟩ := exists_reaches hw
  exact he.committed ▸ consistent_of_reaches hw'

end CafeFausse.RowLocks
