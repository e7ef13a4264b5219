import CafeFausse.Routines.BookingStages
import CafeFausse.Transaction.Relational

/-! # Bookings do not depend on fingerprints

Two servers that differ in their fingerprint function run over databases that differ in their
fingerprint columns. Stage by stage a booking does the same on both.
-/

namespace CafeFausse

open Transaction Program Database

theorem blank_signature : ([0] : Bytes) ≠ [] := List.cons_ne_nil 0 []

/-- The reservation with some fixed fingerprint in place of its own. -/
def Reservation.bare (r : Reservation) : Reservation where
  reservationId := r.reservationId
  customerId := r.customerId
  startsAt := r.startsAt
  endsAt := r.endsAt
  partySize := r.partySize
  fingerprintVersion := 1
  reservationFingerprint := [0]
  duration_ck := r.duration_ck
  party_size_ck := r.party_size_ck
  fingerprint_version_ck := Int.one_pos
  fingerprint_ck := blank_signature

/-- The database without the fingerprint columns. -/
def Database.bare (db : Database) : Database :=
  { db with reservations := db.reservations.map Reservation.bare }

/-- The row without its fingerprint columns, but whether they are null. -/
def BookingRow.bare (row : BookingRow) : BookingRow :=
  { row with
    fingerprintVersion := row.fingerprintVersion.map fun _ => 1
    reservationFingerprint := row.reservationFingerprint.map fun _ => [] }

def Answer.bare : Answer → Answer
  | .booking row => .booking row.bare
  | answer => answer

def SqlError.bare : SqlError → SqlError
  | .bookingAborted outcome detail _ => .bookingAborted outcome detail []
  | e => e

/-- The server with another function for `reservation_fingerprint_v1`. -/
def Environment.signing (env : Environment) (fingerprint : ℕ → ℤ → ℤ → Bytes)
    (h : ∀ customerId startsAt partySize, fingerprint customerId startsAt partySize ≠ []) :
    Environment where
  character := env.character
  timezones := env.timezones
  sha256Text := env.sha256Text
  fingerprint := fingerprint
  fingerprint_ne_nil := h

/-- No two reservations are of one customer, start and party size. -/
def Database.DistinctIdentities (db : Database) : Prop :=
  (db.reservations.map fun r => (r.customerId, r.startsAt, r.partySize)).Nodup

section Bare

variable {r s : Reservation} {db db' : Database}

theorem identity_of_bare (h : r.bare = s.bare) : r.reservationId = s.reservationId ∧
    r.customerId = s.customerId ∧ r.startsAt = s.startsAt ∧ r.endsAt = s.endsAt ∧
    r.partySize = s.partySize := by
  simp only [Reservation.bare, Reservation.mk.injEq, and_true] at h
  exact h

theorem distinctIdentities_bare : db.bare.DistinctIdentities ↔ db.DistinctIdentities := by
  unfold DistinctIdentities bare
  rw [List.map_map]
  rfl

/-- A question about reservations that the fingerprint columns do not answer. -/
theorem any_bare {P : Reservation → Prop} (hP : ∀ r, P r.bare ↔ P r) :
    (∃ r ∈ db.bare.reservations, P r) ↔ ∃ r ∈ db.reservations, P r := by
  simp only [bare, List.mem_map, exists_exists_and_eq_and, hP]

theorem all_bare {P : Reservation → Prop} (hP : ∀ r, P r.bare ↔ P r) :
    (∀ r ∈ db.bare.reservations, P r) ↔ ∀ r ∈ db.reservations, P r := by
  simp only [bare, List.mem_map, forall_exists_index, and_imp, forall_apply_eq_imp_iff₂, hP]

theorem occupied_bare (tableNumber startsAt endsAt : ℤ) :
    db.bare.Occupied tableNumber startsAt endsAt ↔ db.Occupied tableNumber startsAt endsAt :=
  exists_congr fun _ => and_congr .rfl (and_congr .rfl (any_bare fun _ => .rfl))

theorem freeTables_bare (startsAt endsAt : ℤ) :
    db.bare.freeTables startsAt endsAt = db.freeTables startsAt endsAt := by
  unfold freeTables
  simp only [occupied_bare]
  rfl

theorem customerOverlap_bare (customerId : ℕ) (startsAt endsAt : ℤ) :
    db.bare.CustomerOverlap customerId startsAt endsAt ↔
      db.CustomerOverlap customerId startsAt endsAt := any_bare fun _ => .rfl

/-- The reservation of an identity, without its fingerprint. -/
theorem find?_bare (customerId : ℕ) (startsAt partySize : ℤ) :
    (db.bare.reservations.find? fun r => SameIdentity customerId startsAt partySize r) =
      (db.reservations.find? fun r => SameIdentity customerId startsAt partySize r).map
        Reservation.bare := by
  unfold bare
  rw [List.find?_map]
  rfl

end Bare

/-- The memories differ in nothing but fingerprints. -/
structure Alike (m n : Memory Database Sequence) : Prop where
  view : m.view.bare = n.view.bare
  marks : m.marks.map Database.bare = n.marks.map Database.bare
  supply : m.supply = n.supply
  distinct : m.view.DistinctIdentities
  distinct_marks : ∀ v ∈ m.marks, v.DistinctIdentities

/-- The answers differ in nothing but fingerprints, and so do the memories. -/
def Returned (r s : Answer) (m n : Memory Database Sequence) : Prop := r.bare = s.bare ∧ Alike m n

/-- The errors differ in nothing but fingerprints, and so do the memories. -/
def Raised (e f : SqlError) (m n : Memory Database Sequence) : Prop := e.bare = f.bare ∧ Alike m n

section Rules

variable {α β : Type} {V : α → β → Prop} {m n : Memory Database Sequence}

theorem Alike.read {q : Database → α} (h : Alike m n) (hq : ∀ db : Database, q db.bare = q db) :
    q m.view = q n.view := by
  rw [← hq m.view, h.view, hq]

theorem Alike.distinct_right (h : Alike m n) : n.view.DistinctIdentities :=
  distinctIdentities_bare.mp (h.view ▸ distinctIdentities_bare.mpr h.distinct)

/-- Changes that neither read fingerprints nor touch reservations. -/
structure Unsigned (f : Database → Except SqlError (α × (Database → Database))) : Prop where
  value : ∀ db : Database, f db.bare = f db
  write : ∀ {db a w}, f db = .ok (a, w) → ∀ db' : Database, (w db').bare = w db'.bare ∧
    (w db').reservations = db'.reservations

theorem Alike.change {w : Database → Database} (h : Alike m n)
    (hw : ∀ db : Database, (w db).bare = w db.bare ∧ (w db).reservations = db.reservations) :
    Alike { m with view := w m.view } { n with view := w n.view } where
  view := by
    show (w m.view).bare = (w n.view).bare
    rw [(hw _).1, (hw _).1, h.view]
  marks := h.marks
  supply := h.supply
  distinct := by
    unfold DistinctIdentities
    rw [(hw _).2]
    exact h.distinct
  distinct_marks := h.distinct_marks

/-- The routines agree up to fingerprints. -/
abbrev Agrees (V : α → β → Prop) (p : Routine α) (q : Routine β) : Prop :=
  Agree Alike Returned Raised V p q

theorem agrees_ret {r s : Answer} (h : r.bare = s.bare) : Agrees V (.ret r) (.ret s) :=
  agree_ret fun _ _ hS => ⟨h, hS⟩

theorem agrees_raise {e f : SqlError} (h : e.bare = f.bare) : Agrees V (.raise e) (.raise f) :=
  agree_raise fun _ _ hS => ⟨h, hS⟩

theorem agrees_query {q : Database → α} (hq : ∀ db : Database, q db.bare = q db) :
    Agrees Eq (query q) (query q) := agree_query fun _ _ hS => hS.read hq

theorem agrees_liftExcept (x : Except SqlError α) : Agrees Eq (liftExcept x) (liftExcept x) :=
  agree_liftExcept (results_refl x) fun _ _ _ _ he hS => ⟨congrArg _ he, hS⟩

theorem agrees_draw (q : Sequence) : Agrees Eq (draw q) (draw q) :=
  agree_draw fun _ _ hS => ⟨by rw [hS.supply], ⟨hS.view, hS.marks, by rw [hS.supply], hS.distinct,
    hS.distinct_marks⟩⟩

theorem matched_of_unsigned {f : Database → Except SqlError (α × (Database → Database))}
    (h : Unsigned f) : Matched Alike Eq Eq f f := by
  intro m n hS
  have heq : f m.view = f n.view := hS.read h.value
  cases hf : f m.view with
  | error e =>
    rw [← heq, hf]
  | ok r =>
    rw [← heq, hf]
    exact ⟨rfl, hS.change (h.write hf)⟩

theorem agrees_execute {f : Database → Except SqlError (α × (Database → Database))} {P : α → Prop}
    (h : Unsigned f) (hP : ∀ db a w, f db = .ok (a, w) → P a) :
    Agrees (fun a b => a = b ∧ P a) (execute f) (execute f) := by
  refine agree_execute (X := Eq) (fun m n hS => ?_) fun _ _ _ _ he hS => ⟨congrArg _ he, hS⟩
  have hm := matched_of_unsigned h m n hS
  revert hm
  rcases hf : f m.view with e | ⟨a, v⟩ <;> rcases f n.view with e' | ⟨b, w⟩ <;> intro hm
  case ok.ok => exact ⟨⟨hm.1, hP _ _ _ hf⟩, hm.2⟩
  all_goals exact hm

theorem agrees_attempt {f : Database → Except SqlError (α × (Database → Database))}
    (h : Unsigned f) : Agrees Eq (attempt f) (attempt f) := fun m n hS =>
  wp₂_mono (agree_attempt (matched_of_unsigned h) m n hS)
    (fun _ _ _ _ hV => ⟨eq_of_results hV.1, hV.2⟩) (fun _ _ _ _ h => h) fun _ _ _ _ h => h

/-- After equal values the rest has to agree. -/
theorem agrees_bind {α' β' : Type} {p q : Routine α} {f : α → Routine α'} {g : α → Routine β'}
    {W : α' → β' → Prop} (hp : Agrees Eq p q) (hf : ∀ a, Agrees W (f a) (g a)) :
    Agrees W (p >>= f) (q >>= g) := agree_bind hp fun a _ hab => hab ▸ hf a

end Rules

section Stages

variable {env : Environment} {fingerprint : ℕ → ℤ → ℤ → Bytes}
  {hne : ∀ customerId startsAt partySize, fingerprint customerId startsAt partySize ≠ []}
  {request : BookingRequest} {f : Foundation} {start : ResolvedStart} {tieRank : Option ℤ}
  {stage : Option FailureStage} {readings : Readings}

theorem agrees_lockFoundation :
    Agrees Eq (lockFoundation env) (lockFoundation (env.signing fingerprint hne)) := by
  show Agrees Eq (lockFoundation env) (lockFoundation env)
  unfold lockFoundation
  refine agrees_bind (agrees_query fun _ => rfl) fun count => ?_
  split
  · exact agrees_ret rfl
  refine agrees_bind (agrees_query fun _ => rfl) fun rows => ?_
  refine agrees_bind (agrees_liftExcept _) fun configuration => ?_
  refine agrees_bind (agrees_query fun _ => rfl) fun complete => ?_
  split
  · exact agrees_ret rfl
  refine agrees_bind (agrees_query fun _ => rfl) fun tables => ?_
  refine agrees_bind (agrees_liftExcept _) fun capacity => ?_
  split
  · exact agrees_ret rfl
  split
  · exact agrees_ret rfl
  · exact agree_pure rfl

theorem agrees_resolveStart : Agrees Eq (resolveStart f request) (resolveStart f request) := by
  unfold resolveStart
  split
  · split
    · exact agrees_ret rfl
    · split
      · exact agrees_ret rfl
      · exact agree_pure rfl
    · exact agrees_ret rfl
  · exact agrees_raise rfl

theorem unsigned_insertCustomer (ct : CharacterType) (row : Customer) :
    Unsigned (Database.insertCustomer ct row) where
  value _ := rfl
  write h db' := by
    obtain ⟨-, -, -, rfl⟩ := insertCustomer_ok h
    exact ⟨rfl, rfl⟩

theorem unsigned_updateCustomer (ct : CharacterType) (n : ℕ) (change : Customer → Customer) :
    Unsigned (Database.updateCustomer ct n change) where
  value _ := rfl
  write h db' := by
    obtain ⟨-, -, rfl⟩ := updateCustomer_ok h
    exact ⟨rfl, rfl⟩

theorem agrees_resolveCustomer : Agrees Eq (resolveCustomer env request stage)
    (resolveCustomer (env.signing fingerprint hne) request stage) := by
  show Agrees Eq (resolveCustomer env request stage) (resolveCustomer env request stage)
  unfold resolveCustomer
  refine agrees_bind (agrees_query fun _ => rfl) fun stored => ?_
  split
  · exact agree_pure rfl
  refine agrees_bind (agrees_draw .customer) fun n => ?_
  refine agrees_bind (agrees_attempt (unsigned_insertCustomer _ _)) fun inserted => ?_
  split
  · split
    · exact agrees_raise rfl
    · exact agree_pure rfl
  · refine agrees_bind (agrees_query fun _ => rfl) fun other => ?_
    split
    · exact agree_pure rfl
    · exact agrees_raise rfl
  · exact agrees_raise rfl

theorem agrees_checkIdentity {c : Customer} : Agrees Eq (checkIdentity env request c)
    (checkIdentity (env.signing fingerprint hne) request c) := by
  show Agrees Eq (checkIdentity env request c) (checkIdentity env request c)
  unfold checkIdentity
  split
  · exact agrees_ret rfl
  split
  · exact agrees_ret rfl
  · exact agree_pure rfl

/-- At most one reservation has an identity, so that it does not matter which lookup finds it. -/
theorem run_findExisting {m : Memory Database Sequence} (h : m.view.DistinctIdentities)
    (customerId : ℕ) (startsAt partySize : ℤ) (signature : Bytes) :
    (findExisting customerId startsAt partySize signature).run m =
      (.value (m.view.reservations.find? fun r => SameIdentity customerId startsAt partySize r),
        m) := by
  unfold findExisting
  rw [bind_eq, run_bind]
  have hquery {α : Type} (q : Database → α) :
      (query q : Routine α).run m = (.value (q m.view), m) := rfl
  rw [hquery]
  simp only
  split
  · next r hr =>
    have hfound := List.mem_filter.mp (Sql.mem_orderBy.mp (List.mem_of_mem_head? hr))
    obtain ⟨-, -, hsame⟩ := of_decide_eq_true hfound.2
    have hfilter := filter_eq_of_nodup h hfound.1
    have hfind : (m.view.reservations.find? fun r => SameIdentity customerId startsAt partySize r) =
        some r := by
      obtain ⟨rfl, rfl, rfl⟩ := hsame
      rw [← List.head?_filter]
      simp only [Prod.mk.injEq] at hfilter
      simp only [SameIdentity, hfilter, List.head?_cons]
    rw [hfind]
    rfl
  · rfl

theorem agrees_findExisting (customerId : ℕ) (startsAt partySize : ℤ) (signature other : Bytes) :
    Agrees (fun r s => r.map Reservation.bare = s.map Reservation.bare)
      (findExisting customerId startsAt partySize signature)
      (findExisting customerId startsAt partySize other) := by
  intro m n hS
  unfold wp₂
  rw [run_findExisting hS.distinct, run_findExisting hS.distinct_right]
  refine ⟨?_, hS⟩
  simp only
  rw [← find?_bare, ← find?_bare, hS.view]

theorem agrees_exactRetry {c : Customer} (signature other : Bytes) :
    Agrees Eq (exactRetry request start c signature) (exactRetry request start c other) := by
  unfold exactRetry
  refine agree_bind (agrees_findExisting _ _ _ _ _) fun r s hrs => ?_
  cases r with
  | none =>
    obtain rfl := Option.map_eq_none_iff.mp hrs.symm
    exact agree_pure rfl
  | some r =>
    obtain ⟨s, rfl, hbare⟩ := Option.map_eq_some_iff.mp hrs.symm
    obtain ⟨hid, -, hstarts, hends, hparty⟩ := identity_of_bare hbare
    simp only [hid]
    refine agrees_bind (agrees_query fun _ => rfl) fun tables => agrees_ret ?_
    simp only [Answer.bare, BookingRow.bare, exactRetryRow, hid, hstarts, hends, hparty,
      Option.map_some]

theorem agrees_rejectOverlap {c : Customer} (signature other : Bytes) :
    Agrees Eq (rejectOverlap request start c signature) (rejectOverlap request start c other) := by
  unfold rejectOverlap
  refine agrees_bind (agrees_query fun db => decide_eq_decide.mpr (customerOverlap_bare _ _ _))
    fun overlap => ?_
  by_cases h : overlap = true
  · rw [if_pos h, if_pos h]
    exact agrees_ret rfl
  · rw [if_neg h, if_neg h]
    exact agree_pure rfl

theorem agrees_allocate (signature other : Bytes) :
    Agrees Eq (allocate request f start signature tieRank readings)
      (allocate request f start other tieRank readings) := by
  unfold allocate
  refine agrees_bind (agrees_query fun db => freeTables_bare _ _) fun free => ?_
  refine agrees_bind (agrees_liftExcept _) fun allocation => ?_
  cases allocation with
  | none => exact agrees_raise rfl
  | some a =>
    simp only
    by_cases h : OutsideWindow f start readings.second ∨ ShortLead f start readings.second
    · rw [if_pos h, if_pos h]
      exact agrees_raise rfl
    · rw [if_neg h, if_neg h]
      exact agree_pure rfl

theorem agrees_updateCustomer {c : Customer} {change : Customer → Customer}
    (hid : ∀ c, (change c).customerId = c.customerId) :
    Agrees (fun a b => a = b ∧ a.customerId = c.customerId) (updateCustomer env c change)
      (updateCustomer (env.signing fingerprint hne) c change) := by
  show Agrees _ (updateCustomer env c change) (updateCustomer env c change)
  unfold updateCustomer
  refine agree_bind (agrees_execute (P := fun x => ∀ d ∈ x, d.customerId = c.customerId)
    (unsigned_updateCustomer _ _ _) fun db a w h => ?_) ?_
  · obtain ⟨-, rfl, -⟩ := updateCustomer_ok h
    intro d hd
    obtain ⟨d', hd', rfl⟩ := Option.map_eq_some_iff.mp hd
    rw [hid]
    simpa using List.find?_some hd'
  · rintro a _ ⟨rfl, ha⟩
    cases a with
    | none => exact agrees_raise rfl
    | some d => exact agree_pure ⟨rfl, ha d rfl⟩

theorem agrees_populateOptionalFields {c : Customer} {isNew : Bool} :
    Agrees (fun a b => a = b ∧ a.customerId = c.customerId)
      (populateOptionalFields env request stage c isNew)
      (populateOptionalFields (env.signing fingerprint hne) request stage c isNew) := by
  unfold populateOptionalFields
  simp only
  split
  · refine agree_bind (agrees_updateCustomer fun _ => rfl) ?_
    rintro a _ ⟨rfl, ha⟩
    split
    · exact agrees_raise rfl
    · exact agree_pure ⟨rfl, ha⟩
  · exact agree_pure ⟨rfl, rfl⟩

theorem agrees_updateNewsletter {c : Customer} :
    Agrees (fun a b => a = b ∧ a.customerId = c.customerId)
      (updateNewsletter env request stage c)
      (updateNewsletter (env.signing fingerprint hne) request stage c) := by
  unfold updateNewsletter
  split
  · refine agree_bind (agrees_updateCustomer fun _ => rfl) ?_
    rintro a _ ⟨rfl, ha⟩
    split
    · exact agrees_raise rfl
    · exact agree_pure ⟨rfl, ha⟩
  · exact agree_pure ⟨rfl, rfl⟩

/-- A reservation with that number is stored under that fingerprint. -/
def Database.Bears (db : Database) (reservationId : ℕ) (signature : Bytes) : Prop :=
  ∃ r ∈ db.reservations, r.reservationId = reservationId ∧ r.fingerprintVersion = 1 ∧
    r.reservationFingerprint = signature

/-- Both memories hold the reservation, each under its own fingerprint. -/
structure Signed (reservationId : ℕ) (signature other : Bytes) (m n : Memory Database Sequence) :
    Prop extends Alike m n where
  left : m.view.Bears reservationId signature
  right : n.view.Bears reservationId other

theorem Alike.any {m n : Memory Database Sequence} (h : Alike m n) {P : Reservation → Prop}
    (hP : ∀ r, P r.bare ↔ P r) :
    (∃ r ∈ m.view.reservations, P r) ↔ ∃ r ∈ n.view.reservations, P r := by
  rw [← any_bare hP, h.view, any_bare hP]

/-- Rows that differ in their fingerprints are inserted alike or rejected alike. -/
theorem alike_insertReservation {m n : Memory Database Sequence} (h : Alike m n)
    {r s : Reservation} (hrs : r.bare = s.bare) :
    match Database.insertReservation r m.view, Database.insertReservation s n.view with
    | .ok (_, v), .ok (_, w) => (v = addReservation r ∧ w = addReservation s) ∧
      Alike { m with view := v m.view } { n with view := w n.view }
    | .error e, .error e' => e = e'
    | _, _ => False := by
  obtain ⟨hid, hcustomer, hstarts, -, hparty⟩ := identity_of_bare hrs
  have hunique := h.any (P := fun x => x.reservationId = s.reservationId ∨
    x.customerId = s.customerId ∧ x.startsAt = s.startsAt ∧ x.partySize = s.partySize) fun _ => .rfl
  have hcustomers : m.view.customers = n.view.customers := h.read (q := (·.customers)) fun _ => rfl
  unfold Database.insertReservation
  simp only [hid, hcustomer, hstarts, hparty, hcustomers, hunique]
  by_cases hused : ∃ x ∈ n.view.reservations, x.reservationId = s.reservationId ∨
      x.customerId = s.customerId ∧ x.startsAt = s.startsAt ∧ x.partySize = s.partySize
  · simp only [if_pos hused]
  simp only [if_neg hused]
  by_cases hmissing : ∀ c ∈ n.view.customers, c.customerId ≠ s.customerId
  · simp only [if_pos hmissing]
  simp only [if_neg hmissing]
  refine ⟨⟨trivial, trivial⟩, ⟨?_, h.marks, h.supply, ?_, h.distinct_marks⟩⟩
  · show (addReservation r m.view).bare = (addReservation s n.view).bare
    have hview := h.view
    simp only [Database.bare, Database.mk.injEq] at hview
    simp only [Database.bare, addReservation, List.map_append, List.map_cons, List.map_nil, hview,
      hrs]
  · refine nodup_map_concat h.distinct fun x hx hsame => ?_
    simp only [Prod.mk.injEq] at hsame
    rw [hcustomer, hstarts, hparty] at hsame
    exact hused (hunique.mp ⟨x, hx, .inr hsame⟩)

theorem results_checked {n c : ℕ} {startsAt endsAt partySize : ℤ} {signature other : Bytes}
    (hs : signature ≠ []) (ho : other ≠ []) :
    Results Eq (fun r s => r.bare = s.bare ∧
        (r.reservationId = n ∧ r.fingerprintVersion = 1 ∧ r.reservationFingerprint = signature) ∧
        s.reservationId = n ∧ s.fingerprintVersion = 1 ∧ s.reservationFingerprint = other)
      (Reservation.checked n c startsAt endsAt partySize signature)
      (Reservation.checked n c startsAt endsAt partySize other) := by
  unfold Reservation.checked
  by_cases h : endsAt - startsAt ∈ [Time.minutes 60, Time.minutes 90, Time.minutes 120] ∧
      0 < partySize
  · rw [dif_pos ⟨h.1, h.2, hs⟩, dif_pos ⟨h.1, h.2, ho⟩]
    exact ⟨rfl, ⟨rfl, rfl, rfl⟩, rfl, rfl, rfl⟩
  · rw [dif_neg fun hall => h ⟨hall.1, hall.2.1⟩, dif_neg fun hall => h ⟨hall.1, hall.2.1⟩]
    rfl

theorem bears_addReservation {db : Database} {r : Reservation} {n : ℕ} {signature : Bytes}
    (h : r.reservationId = n ∧ r.fingerprintVersion = 1 ∧ r.reservationFingerprint = signature) :
    (addReservation r db).Bears n signature :=
  ⟨r, List.mem_append_right _ (List.mem_singleton_self r), h⟩

theorem wp₂_insertReservation {m n : Memory Database Sequence} (h : Alike m n) {c : ℕ}
    {signature other : Bytes} (hs : signature ≠ []) (ho : other ≠ []) :
    (insertReservation request start stage c signature).wp₂
      (insertReservation request start stage c other)
      (fun a b m' n' => a = b ∧ Signed a signature other m' n') Returned Raised m n := by
  unfold insertReservation
  refine wp₂_bind (wp₂_mono (agrees_draw .reservation m n h) ?_ (fun _ _ _ _ h => h)
    fun _ _ _ _ h => h)
  rintro k _ m' n' ⟨rfl, h⟩
  refine wp₂_bind (wp₂_mono (agree_liftExcept (R := Returned) (E := Raised)
    (results_checked hs ho) (fun _ _ _ _ he hS => ⟨congrArg _ he, hS⟩) m' n' h) ?_
    (fun _ _ _ _ h => h) fun _ _ _ _ h => h)
  rintro r s m n ⟨⟨hbare, hr, hsigned⟩, h⟩
  refine wp₂_bind (wp₂_attempt ?_)
  have hinsert := alike_insertReservation h hbare
  revert hinsert
  rcases Database.insertReservation r m.view with e | ⟨-, v⟩ <;>
    rcases Database.insertReservation s n.view with e' | ⟨-, w⟩ <;> intro hinsert
  case error.error =>
    obtain rfl : e = e' := hinsert
    simp only
    split
    · exact ⟨rfl, h⟩
    · exact ⟨rfl, h⟩
    · next heq => cases heq
  case ok.ok =>
    obtain ⟨⟨rfl, rfl⟩, halike⟩ := hinsert
    simp only
    by_cases hstage : stage = some .afterReservationInsert
    · rw [if_pos hstage]
      exact ⟨rfl, halike⟩
    · rw [if_neg hstage]
      exact ⟨rfl, halike, bears_addReservation hr, bears_addReservation hsigned⟩
  all_goals exact hinsert.elim

theorem unsigned_insertAssignment (row : ReservationTableAssignment) :
    Unsigned (Database.insertAssignment row) where
  value db := by
    have hreservations : (∀ r ∈ db.bare.reservations, r.reservationId ≠ row.reservationId) ↔
        ∀ r ∈ db.reservations, r.reservationId ≠ row.reservationId := all_bare fun _ => .rfl
    unfold Database.insertAssignment
    simp only [hreservations]
    rfl
  write h db' := by
    obtain ⟨-, -, -, rfl⟩ := insertAssignment_ok h
    exact ⟨rfl, rfl⟩

theorem agree_insertAssignments {k : ℕ} {signature other : Bytes} (tables : List ℤ) (count : ℕ) :
    Agree (Signed k signature other) Returned Raised Eq (insertAssignments k stage tables count)
      (insertAssignments k stage tables count) := by
  induction tables generalizing count with
  | nil => exact agree_pure rfl
  | cons t tables ih =>
    unfold insertAssignments
    refine agree_bind (V := Eq) (agree_execute (X := Eq) (fun m n hS => ?_)
      fun _ _ _ _ he hS => ⟨congrArg _ he, hS.toAlike⟩) fun _ _ _ => ?_
    · have hm := matched_of_unsigned (unsigned_insertAssignment ⟨k, t⟩) m n hS.toAlike
      revert hm
      rcases hf : Database.insertAssignment ⟨k, t⟩ m.view with e | ⟨a, v⟩ <;>
        rcases hg : Database.insertAssignment ⟨k, t⟩ n.view with e' | ⟨b, w⟩ <;> intro hm
      case ok.ok =>
        obtain ⟨-, -, -, rfl⟩ := insertAssignment_ok hf
        obtain ⟨-, -, -, rfl⟩ := insertAssignment_ok hg
        exact ⟨hm.1, hm.2, hS.left, hS.right⟩
      all_goals exact hm
    · split
      · exact agree_raise fun _ _ hS => ⟨rfl, hS.toAlike⟩
      · exact ih _

/-- What the postconditions ask of the other reservations. -/
def Database.Clashes (db : Database) (a : Allocation) (start : ResolvedStart)
    (customerId reservationId : ℕ) : Prop :=
  (∃ t ∈ db.reservationTableAssignments, t.tableNumber ∈ a.tableNumbers ∧
      ∃ r ∈ db.reservations, r.reservationId = t.reservationId ∧
        r.reservationId ≠ reservationId ∧ Overlap r.startsAt r.endsAt start.startsAt start.endsAt) ∨
    ∃ r ∈ db.reservations, r.customerId = customerId ∧ r.reservationId ≠ reservationId ∧
      Overlap r.startsAt r.endsAt start.startsAt start.endsAt

theorem clashes_bare {db : Database} {a : Allocation} {customerId reservationId : ℕ} :
    db.bare.Clashes a start customerId reservationId ↔
      db.Clashes a start customerId reservationId :=
  or_congr (exists_congr fun _ => and_congr .rfl (and_congr .rfl (any_bare fun _ => .rfl)))
    (any_bare fun _ => .rfl)

/-- The recomputed fingerprint is the stored one, whatever the function is. -/
theorem violated_iff (env : Environment) {db : Database} {a : Allocation} {c n : ℕ} {partySize : ℤ}
    (h : db.Bears n (env.fingerprint c start.startsAt partySize)) :
    db.Violated env a start c n partySize ↔ db.Clashes a start c n := by
  obtain ⟨r, hr, hid, hversion, hsigned⟩ := h
  have hbears : ¬ ∀ r ∈ db.reservations, r.reservationId = n → r.fingerprintVersion = 1 →
      r.reservationFingerprint ≠ env.fingerprint c start.startsAt partySize := fun hall =>
    hall r hr hid hversion hsigned
  unfold Database.Violated Database.Clashes
  rw [← or_assoc, or_iff_left hbears]

theorem agree_checkPostconditions {a : Allocation} {c n : ℕ} :
    Agree (Signed n (env.fingerprint c start.startsAt request.partySize)
        (fingerprint c start.startsAt request.partySize)) Returned Raised Eq
      (checkPostconditions env request start a c n)
      (checkPostconditions (env.signing fingerprint hne) request start a c n) := by
  unfold checkPostconditions
  refine agree_bind (V := Eq) (agree_query fun _ _ hS =>
    hS.toAlike.read (q := (·.assignedTables n)) fun _ => rfl) ?_
  rintro assigned _ rfl
  refine agree_bind (V := Eq) (agree_liftExcept (results_refl _)
    fun _ _ _ _ he hS => ⟨congrArg _ he, hS.toAlike⟩) ?_
  rintro capacity _ rfl
  refine agree_bind (V := Eq) (agree_query fun m n hS => ?_) ?_
  · rw [decide_eq_decide, violated_iff _ hS.left,
      violated_iff (env.signing fingerprint hne) hS.right, ← clashes_bare, hS.view,
      clashes_bare]
  · rintro violated _ rfl
    split
    · exact agree_raise fun _ _ hS => ⟨rfl, hS.toAlike⟩
    · exact agree_pure rfl

theorem agrees_writeBooking {c : Customer} {isNew : Bool} {a : Allocation} :
    Agrees Eq
      (writeBooking env request start stage c isNew
        (env.fingerprint c.customerId start.startsAt request.partySize) a)
      (writeBooking (env.signing fingerprint hne) request start stage c isNew
        (fingerprint c.customerId start.startsAt request.partySize) a) := by
  unfold writeBooking
  refine agree_bind agrees_populateOptionalFields ?_
  rintro d _ ⟨rfl, hd⟩
  refine agree_bind agrees_updateNewsletter ?_
  rintro d' _ ⟨rfl, hd'⟩
  rw [← hd, ← hd']
  intro m n hS
  refine wp₂_bind (wp₂_mono (wp₂_insertReservation hS (env.fingerprint_ne_nil _ _ _) (hne _ _ _))
    ?_ (fun _ _ _ _ h => h) fun _ _ _ _ h => h)
  rintro k _ m n ⟨rfl, hS⟩
  refine wp₂_bind (wp₂_mono (agree_insertAssignments _ _ m n hS) ?_ (fun _ _ _ _ h => h)
    fun _ _ _ _ h => h)
  rintro - - m n ⟨-, hS⟩
  refine wp₂_bind (wp₂_mono (agree_checkPostconditions m n hS) ?_ (fun _ _ _ _ h => h)
    fun _ _ _ _ h => h)
  rintro - - m n ⟨-, hS⟩
  exact ⟨rfl, hS.toAlike⟩

theorem agrees_serveCustomer {c : Customer} {isNew : Bool} :
    Agrees Eq (serveCustomer env request f start tieRank stage readings c isNew)
      (serveCustomer (env.signing fingerprint hne) request f start tieRank stage readings c
        isNew) := by
  unfold serveCustomer
  refine agrees_bind agrees_checkIdentity fun _ => ?_
  refine agrees_bind (agrees_exactRetry _ _) fun _ => ?_
  refine agrees_bind (agrees_rejectOverlap _ _) fun _ => ?_
  exact agrees_bind (agrees_allocate _ _) fun a => agrees_writeBooking

theorem agrees_bookingBlock :
    Agrees Eq (bookingBlock env request f start tieRank stage readings)
      (bookingBlock (env.signing fingerprint hne) request f start tieRank stage readings) := by
  unfold bookingBlock
  refine agrees_bind (agrees_liftExcept (canonicalEmailLockKey env request.email)) fun key => ?_
  refine agrees_bind agree_acquire fun _ => ?_
  exact agrees_bind agrees_resolveCustomer fun ⟨c, isNew⟩ => agrees_serveCustomer

end Stages

section Calls

variable {env : Environment} {fingerprint : ℕ → ℤ → ℤ → Bytes}
  {hne : ∀ customerId startsAt partySize, fingerprint customerId startsAt partySize ≠ []}
  {request : BookingRequest} {start : ResolvedStart} {m n : Memory Database Sequence}

theorem Alike.mark (h : Alike m n) :
    Alike { m with marks := m.view :: m.marks } { n with marks := n.view :: n.marks } where
  view := h.view
  marks := by rw [List.map_cons, List.map_cons, h.view, h.marks]
  supply := h.supply
  distinct := h.distinct
  distinct_marks := List.forall_mem_cons.mpr ⟨h.distinct, h.distinct_marks⟩

theorem Alike.rollback (h : Alike m n) :
    Alike { m with view := m.marks.headD m.view, marks := m.marks.tail }
      { n with view := n.marks.headD n.view, marks := n.marks.tail } := by
  obtain ⟨v, marks, supply⟩ := m
  obtain ⟨w, marks', supply'⟩ := n
  obtain ⟨hview, hmarks, hsupply, hdistinct, hall⟩ := h
  cases marks with
  | nil =>
    obtain rfl : marks' = [] := List.map_eq_nil_iff.mp hmarks.symm
    exact ⟨hview, rfl, hsupply, hdistinct, hall⟩
  | cons x marks =>
    obtain ⟨y, rest, rfl, hy, hrest⟩ := List.map_eq_cons_iff.mp hmarks.symm
    exact ⟨hy.symm, hrest.symm, hsupply, hall x List.mem_cons_self,
      fun v hv => hall v (List.mem_cons_of_mem x hv)⟩

/-- The handler catches the same errors on both sides and answers alike. -/
theorem caught_of_raised {e f : SqlError} (h : Raised e f m n) :
    caught₂ (abortHandler request start) (abortHandler request start) Returned Raised e f m n := by
  obtain ⟨hbare, halike⟩ := h
  cases e with
  | bookingAborted outcome detail signature =>
    cases f with
    | bookingAborted outcome' detail' signature' =>
      cases hbare
      exact ⟨rfl, halike.rollback⟩
    | _ => cases hbare
  | _ =>
    cases f with
    | bookingAborted outcome' detail' signature' => cases hbare
    | _ => exact ⟨hbare, halike⟩

theorem agrees_bookRequest {tieRank : Option ℤ} {stage : Option FailureStage}
    {readings : Readings} : Agrees Eq (bookRequest env request tieRank stage readings)
      (bookRequest (env.signing fingerprint hne) request tieRank stage readings) := by
  unfold bookRequest
  refine agrees_bind agree_acquire fun _ => ?_
  refine agrees_bind agrees_lockFoundation fun f => ?_
  refine agrees_bind agrees_resolveStart fun start => ?_
  refine agrees_bind (agrees_query fun _ => rfl) fun rows => ?_
  refine agrees_bind (agrees_liftExcept _) fun hours => ?_
  cases currentPolicy f hours start request.partySize readings.first with
  | some refused => exact agrees_ret rfl
  | none =>
    intro m n hS
    apply wp₂_exceptionBlock
    exact wp₂_mono (agrees_bookingBlock _ _ hS.mark) (fun a => a.elim) (fun _ _ _ _ h => h)
      fun _ _ _ _ h => caught_of_raised h

/-- A call of `book_reservation_core`. -/
structure BookingCall where
  isolation : IsolationLevel
  arguments : BookingArguments
  tieRank : Option ℤ
  stage : Option FailureStage
  readings : Readings

/-- The routine that a call runs. -/
def BookingCall.body (env : Environment) (call : BookingCall) : Routine Empty :=
  bookReservationCore env call.isolation call.arguments call.tieRank call.stage call.readings

theorem agrees_body (call : BookingCall) :
    Agrees Eq (call.body env) (call.body (env.signing fingerprint hne)) := by
  unfold BookingCall.body bookReservationCore
  split
  · exact agrees_ret rfl
  have hsame : normalizedInput (env.signing fingerprint hne).character call.arguments call.stage =
      normalizedInput env.character call.arguments call.stage := rfl
  rw [hsame]
  cases normalizedInput env.character call.arguments call.stage with
  | none => exact agrees_ret rfl
  | some request => exact agrees_bookRequest

end Calls

end CafeFausse
