import CafeFausse.Concurrency.Regions

/-! # The routines are secured by their locks

Statement by statement, a booking reads and writes only what the restaurant lock and
the lock of its e-mail guard, a newsletter change only what the lock of its e-mail
guards, and the other writers only what the restaurant lock guards.
-/

namespace CafeFausse

open Transaction Program Guards

variable {env : Environment} {marks : List ((Database → Database) × List LockKey)}
  {pending : List (Sequence × ℕ)} {x : Position Database LockKey Sequence}
  {E : SqlError → Position Database LockKey Sequence → Prop} {key : ℤ}

section Booking

variable (hE : ∀ e y p, (guards env).Confined marks p y → E e y)

include hE

theorem secured_strict {α : Type} {l : List α} {Q : α → Position Database LockKey Sequence → Prop}
    (h : (guards env).Confined marks pending x) (hQ : ∀ a, Q a x) :
    (guards env).Secured E (liftExcept (strict l) : Routine α) x Q :=
  secured_liftExcept (fun e _ => hE e x _ h) fun a _ => hQ a

theorem secured_lockFoundation {Q : Foundation → Position Database LockKey Sequence → Prop}
    (h : (guards env).Confined marks pending x) (hl : LockKey.restaurant ∈ x.locks)
    (hQ : ∀ f, Q f x) : (guards env).Secured E (lockFoundation env) x Q := by
  unfold lockFoundation
  refine secured_bind (secured_query h (query_restaurant hl fun d l => rfl) ?_)
  split
  · exact secured_ret h _
  refine secured_bind (secured_query h (query_restaurant hl fun d l => rfl) ?_)
  refine secured_bind (secured_strict hE h fun configuration => ?_)
  refine secured_bind (secured_query h (query_restaurant hl fun d l => rfl) ?_)
  split
  · exact secured_ret h _
  refine secured_bind (secured_query h (query_restaurant hl fun d l => rfl) ?_)
  refine secured_bind (secured_liftExcept (fun e _ => hE e x _ h) fun total _ => ?_)
  split
  · exact secured_ret h _
  · split
    · exact secured_ret h _
    · exact hQ _

theorem secured_resolveStart {foundation : Foundation} {request : BookingRequest}
    {Q : ResolvedStart → Position Database LockKey Sequence → Prop}
    (h : (guards env).Confined marks pending x) (hQ : ∀ s, Q s x) :
    (guards env).Secured E (resolveStart foundation request) x Q := by
  unfold resolveStart
  split
  · split
    · exact secured_ret h _
    · split
      · exact secured_ret h _
      · exact hQ _
    · exact secured_ret h _
  · exact hE _ _ _ h

theorem secured_resolveCustomer {request : BookingRequest} {stage : Option FailureStage}
    {Q : Customer × Bool → Position Database LockKey Sequence → Prop}
    (h : (guards env).Confined marks pending x)
    (hl : LockKey.email (emailKey env request.email) ∈ x.locks)
    (hQ : ∀ c b y p, (guards env).Confined marks p y → y.locks = x.locks →
      Owned env (emailKey env request.email) c.customerId y.view → Q (c, b) y) :
    (guards env).Secured E (resolveCustomer env request stage) x Q := by
  have stored : ∀ {y : Position Database LockKey Sequence} {c : Customer},
      y.view.customerByEmail request.email = some c →
        Owned env (emailKey env request.email) c.customerId y.view := fun hc => by
    obtain ⟨hm, he⟩ := Database.customerByEmail_eq_some hc
    exact ⟨_, hm, rfl, by rw [he]⟩
  unfold resolveCustomer
  refine secured_bind (secured_query h (query_customer hl) ?_)
  split
  · next c hc => exact hQ c _ _ _ h rfl (stored hc)
  refine secured_bind (secured_draw h fun c n hc hn hd => ?_)
  have hn : (Sequence.customer, n) ∈ (Sequence.customer, n) :: pending := List.mem_cons_self ..
  have hfresh : ¬ InUse _ .customer n := hd.view_fresh hn
  refine secured_bind (secured_attempt hd
    (decided_insertCustomer (request.newCustomer n) hl hn hfresh)
    (fun e he => ?_) fun row w hw hx => ?_)
  · split
    · next hok => cases hok
    · refine secured_bind (secured_query hd (query_customer hl) ?_)
      split
      · next c hc => exact hQ c _ _ _ hd rfl (stored hc)
      · exact hE _ _ _ hd
    · exact hE _ _ _ hd
  · obtain ⟨-, -, rfl, rfl⟩ := Database.insertCustomer_ok hw
    simp only
    split
    · exact hE _ _ _ hx
    · refine hQ _ _ _ _ hx rfl ⟨_, List.mem_append_right _ (List.mem_singleton_self _), rfl, rfl⟩

end Booking

/-- The locks of a booking that has found its customer. -/
structure Serving (env : Environment) (marks : List ((Database → Database) × List LockKey))
    (key : ℤ) (customerId : ℕ) (x : Position Database LockKey Sequence) : Prop where
  confined : ∃ pending, (guards env).Confined marks pending x
  restaurant : LockKey.restaurant ∈ x.locks
  email : LockKey.email key ∈ x.locks
  owned : Owned env key customerId x.view

section Serving

variable (hE : ∀ e y p, (guards env).Confined marks p y → E e y) {customerId : ℕ}

theorem Serving.ret {α : Type} {Q : α → Position Database LockKey Sequence → Prop}
    (h : Serving env marks key customerId x) (r : Answer) :
    (guards env).Secured E (.ret r : Routine α) x Q := by
  obtain ⟨p, hc⟩ := h.confined
  exact secured_ret hc r

theorem Serving.query {α : Type} {q : Database → α}
    {Q : α → Position Database LockKey Sequence → Prop}
    (h : Serving env marks key customerId x) (hq : ∀ (d : Database) l, q { d with customers := l } = q d)
    (hQ : Q (q x.view) x) : (guards env).Secured E (query q : Routine α) x Q := by
  obtain ⟨p, hc⟩ := h.confined
  exact secured_query hc (query_restaurant h.restaurant hq) hQ

theorem secured_checkIdentity {request : BookingRequest} {customer : Customer}
    {Q : Unit → Position Database LockKey Sequence → Prop}
    (h : Serving env marks key customerId x) (hQ : Q () x) :
    (guards env).Secured E (checkIdentity env request customer) x Q := by
  unfold checkIdentity
  split
  · exact h.ret _
  · split
    · exact h.ret _
    · exact hQ

theorem secured_findExisting {startsAt partySize : ℤ} {fingerprint : Bytes} {n : ℕ}
    {Q : Option Reservation → Position Database LockKey Sequence → Prop}
    (h : Serving env marks key customerId x) (hQ : ∀ r, Q r x) :
    (guards env).Secured E (findExisting n startsAt partySize fingerprint) x Q := by
  unfold findExisting
  refine secured_bind (h.query (fun d l => rfl) ?_)
  split
  · exact hQ _
  · exact h.query (fun d l => rfl) (hQ _)

theorem secured_exactRetry {request : BookingRequest} {start : ResolvedStart}
    {customer : Customer} {fingerprint : Bytes}
    {Q : Unit → Position Database LockKey Sequence → Prop}
    (h : Serving env marks key customerId x) (hQ : Q () x) :
    (guards env).Secured E (exactRetry request start customer fingerprint) x Q := by
  unfold exactRetry
  refine secured_bind (secured_findExisting h fun r => ?_)
  split
  · exact hQ
  · exact secured_bind (h.query (fun d l => rfl) (h.ret _))

theorem secured_rejectOverlap {request : BookingRequest} {start : ResolvedStart}
    {customer : Customer} {fingerprint : Bytes}
    {Q : Unit → Position Database LockKey Sequence → Prop}
    (h : Serving env marks key customerId x) (hQ : Q () x) :
    (guards env).Secured E (rejectOverlap request start customer fingerprint) x Q := by
  unfold rejectOverlap
  refine secured_bind (h.query (fun d l => rfl) ?_)
  split
  · exact h.ret _
  · exact hQ

include hE

theorem Serving.raise {α : Type} {Q : α → Position Database LockKey Sequence → Prop}
    (h : Serving env marks key customerId x) (e : SqlError) :
    (guards env).Secured E (.raise e : Routine α) x Q := by
  obtain ⟨p, hc⟩ := h.confined
  exact hE e x p hc

theorem Serving.liftExcept {α : Type} {r : Except SqlError α}
    {Q : α → Position Database LockKey Sequence → Prop}
    (h : Serving env marks key customerId x) (hQ : ∀ a, r = .ok a → Q a x) :
    (guards env).Secured E (liftExcept r : Routine α) x Q := by
  obtain ⟨p, hc⟩ := h.confined
  exact secured_liftExcept (fun e _ => hE e x p hc) hQ

theorem secured_allocate {request : BookingRequest} {foundation : Foundation}
    {start : ResolvedStart} {fingerprint : Bytes} {tieRank : Option ℤ} {readings : Readings}
    {Q : Allocation → Position Database LockKey Sequence → Prop}
    (h : Serving env marks key customerId x) (hQ : ∀ a, Q a x) :
    (guards env).Secured E
      (allocate request foundation start fingerprint tieRank readings) x Q := by
  unfold allocate
  refine secured_bind (h.query (fun d l => rfl) ?_)
  refine secured_bind (h.liftExcept hE fun a _ => ?_)
  split
  · exact h.raise hE _
  · split
    · exact h.raise hE _
    · exact hQ _

theorem secured_updateCustomer {customer : Customer} {change : Customer → Customer}
    {Q : Customer → Position Database LockKey Sequence → Prop}
    (h : Serving env marks key customer.customerId x)
    (hid : ∀ c, (change c).customerId = c.customerId)
    (hemail : ∀ c, (change c).email = c.email)
    (hQ : ∀ c y, c.customerId = customer.customerId →
      Serving env marks key c.customerId y → Q c y) :
    (guards env).Secured E (updateCustomer env customer change) x Q := by
  obtain ⟨p, hc⟩ := h.confined
  unfold updateCustomer
  refine secured_bind (secured_execute hc
    (decided_updateCustomer h.owned hc.view_valid h.email hid hemail) (fun e _ => hE e x p hc)
    fun c w hw hx => ?_)
  obtain ⟨-, rfl, rfl⟩ := Database.updateCustomer_ok hw
  split
  · next c hc =>
    obtain ⟨b, hb, rfl⟩ := Option.map_eq_some_iff.mp hc
    have hbid : (change b).customerId = customer.customerId := by
      rw [hid]; simpa using List.find?_some hb
    refine hQ _ _ hbid ⟨⟨p, hx⟩, h.restaurant, h.email, ?_⟩
    obtain ⟨d, hd, hdid, hkey⟩ := h.owned
    refine ⟨change d, ?_, by rw [hid, hdid, hbid], by rw [hemail, hkey]⟩
    exact List.mem_map.mpr ⟨d, hd, if_pos hdid⟩
  · exact hE _ _ p hx

theorem secured_populateOptionalFields {request : BookingRequest} {stage : Option FailureStage}
    {customer : Customer} {isNewCustomer : Bool}
    {Q : Customer → Position Database LockKey Sequence → Prop}
    (h : Serving env marks key customer.customerId x)
    (hQ : ∀ c y, c.customerId = customer.customerId →
      Serving env marks key c.customerId y → Q c y) :
    (guards env).Secured E
      (populateOptionalFields env request stage customer isNewCustomer) x Q := by
  unfold populateOptionalFields
  simp only
  split
  · refine secured_bind (secured_updateCustomer hE h (fun _ => rfl) (fun _ => rfl)
      fun c y hc hy => ?_)
    split
    · exact hy.raise hE _
    · exact hQ c y hc hy
  · exact hQ _ _ rfl h

theorem secured_updateNewsletter {request : BookingRequest} {stage : Option FailureStage}
    {customer : Customer} {Q : Customer → Position Database LockKey Sequence → Prop}
    (h : Serving env marks key customer.customerId x)
    (hQ : ∀ c y, c.customerId = customer.customerId →
      Serving env marks key c.customerId y → Q c y) :
    (guards env).Secured E (updateNewsletter env request stage customer) x Q := by
  unfold updateNewsletter
  split
  · refine secured_bind (secured_updateCustomer hE h (fun _ => rfl) (fun _ => rfl)
      fun c y hc hy => ?_)
    split
    · exact hy.raise hE _
    · exact hQ c y hc hy
  · exact hQ _ _ rfl h

theorem secured_insertReservation {request : BookingRequest} {start : ResolvedStart}
    {stage : Option FailureStage} {fingerprint : Bytes}
    {Q : ℕ → Position Database LockKey Sequence → Prop}
    (h : Serving env marks key customerId x)
    (hQ : ∀ n y, Serving env marks key customerId y → Q n y) :
    (guards env).Secured E (insertReservation request start stage customerId fingerprint) x Q := by
  obtain ⟨p, hc⟩ := h.confined
  unfold insertReservation
  refine secured_bind (secured_draw hc fun c n hp hn hd => ?_)
  have howned : Owned env key customerId (x.writes c) := h.owned.of_eq (hc.inside c hp _ h.email)
  refine secured_bind (secured_liftExcept (fun e _ => hE e _ _ hd) fun row hrow => ?_)
  obtain ⟨rfl, hid⟩ : row.customerId = customerId ∧ row.reservationId = n := by
    unfold Reservation.checked at hrow
    split at hrow
    · cases hrow; exact ⟨rfl, rfl⟩
    · cases hrow
  refine secured_bind (secured_attempt hd
    (decided_insertReservation howned h.restaurant h.email (by rw [hid]; exact List.mem_cons_self ..))
    (fun e _ => ?_) fun u w hw hx => ?_)
  · split
    · exact hE _ _ _ hd
    · exact hE _ _ _ hd
    · next he => cases he
  · obtain ⟨-, -, rfl⟩ := Database.insertReservation_ok hw
    simp only
    split
    · exact hE _ _ _ hx
    · exact hQ _ _ ⟨⟨_, hx⟩, h.restaurant, h.email, howned⟩

theorem secured_insertAssignments {reservationId : ℕ} {stage : Option FailureStage}
    {Q : Unit → Position Database LockKey Sequence → Prop} (tables : List ℤ) (count : ℕ)
    (h : Serving env marks key customerId x)
    (hQ : ∀ y, Serving env marks key customerId y → Q () y) :
    (guards env).Secured E (insertAssignments reservationId stage tables count) x Q := by
  induction tables generalizing x count with
  | nil => exact hQ x h
  | cons t ts ih =>
    obtain ⟨p, hc⟩ := h.confined
    unfold insertAssignments
    refine secured_bind (secured_execute hc (decided_insertAssignment h.restaurant)
      (fun e _ => hE e x p hc) fun u w hw hx => ?_)
    obtain ⟨-, -, -, rfl⟩ := Database.insertAssignment_ok hw
    have hy : Serving env marks key customerId
        { x with writes := Database.addAssignment ⟨reservationId, t⟩ ∘ x.writes } :=
      ⟨⟨p, hx⟩, h.restaurant, h.email, h.owned⟩
    split
    · exact hy.raise hE _
    · exact ih _ hy

theorem secured_checkPostconditions {request : BookingRequest} {start : ResolvedStart}
    {allocation : Allocation} {customerId reservationId : ℕ}
    {Q : Unit → Position Database LockKey Sequence → Prop}
    (h : Serving env marks key customerId x) (hQ : Q () x) :
    (guards env).Secured E
      (checkPostconditions env request start allocation customerId reservationId) x Q := by
  unfold checkPostconditions
  refine secured_bind (h.query (fun d l => rfl) ?_)
  refine secured_bind (h.liftExcept hE fun c _ => ?_)
  refine secured_bind (h.query (fun d l => rfl) ?_)
  split
  · exact h.raise hE _
  · exact hQ

theorem secured_writeBooking {request : BookingRequest} {start : ResolvedStart}
    {stage : Option FailureStage} {customer : Customer} {isNewCustomer : Bool}
    {fingerprint : Bytes} {allocation : Allocation}
    {Q : Empty → Position Database LockKey Sequence → Prop}
    (h : Serving env marks key customer.customerId x) :
    (guards env).Secured E
      (writeBooking env request start stage customer isNewCustomer fingerprint allocation) x Q := by
  unfold writeBooking
  refine secured_bind (secured_populateOptionalFields hE h fun c y _ hy => ?_)
  refine secured_bind (secured_updateNewsletter hE hy fun c y _ hy => ?_)
  refine secured_bind (secured_insertReservation hE hy fun n y hy => ?_)
  refine secured_bind (secured_insertAssignments hE _ _ hy fun y hy => ?_)
  exact secured_bind (secured_checkPostconditions hE hy (hy.ret _))

theorem secured_bookingBlock {request : BookingRequest} {foundation : Foundation}
    {start : ResolvedStart} {tieRank : Option ℤ} {stage : Option FailureStage}
    {readings : Readings} {Q : Empty → Position Database LockKey Sequence → Prop}
    (h : (guards env).Confined marks pending x) (hl : LockKey.restaurant ∈ x.locks) :
    (guards env).Secured E
      (bookingBlock env request foundation start tieRank stage readings) x Q := by
  unfold bookingBlock
  refine secured_bind (secured_liftExcept (fun e _ => hE e x _ h) fun k hk => ?_)
  obtain rfl := canonicalEmailLockKey_ok hk
  refine secured_bind (secured_acquire h fun c _ hc => ?_)
  refine secured_bind (secured_resolveCustomer hE hc (List.mem_cons_self ..)
    fun customer isNew y p hy hlocks howned => ?_)
  have hs : Serving env marks (emailKey env request.email) customer.customerId y :=
    ⟨⟨p, hy⟩, hlocks ▸ List.mem_cons_of_mem _ hl, hlocks ▸ List.mem_cons_self .., howned⟩
  unfold serveCustomer
  refine secured_bind (secured_checkIdentity hs ?_)
  refine secured_bind (secured_exactRetry hs ?_)
  refine secured_bind (secured_rejectOverlap hs ?_)
  exact secured_bind (secured_allocate hE hs fun a => secured_writeBooking hE hs)

end Serving

/-- The errors of a call outside any exception block need no place to land. -/
def Unhandled (_ : SqlError) (_ : Position Database LockKey Sequence) : Prop := True

theorem secured_bookRequest {request : BookingRequest} {tieRank : Option ℤ}
    {stage : Option FailureStage} {readings : Readings} {c : Database} (hc : DistinctCustomers c) :
    (guards env).Secured Unhandled (bookRequest env request tieRank stage readings)
      ⟨c, [], [], id, []⟩ fun a _ => a.elim := by
  have hE : ∀ marks e y p, (guards env).Confined marks p y → Unhandled e y :=
    fun _ _ _ _ _ => trivial
  unfold bookRequest
  refine secured_bind (secured_acquire (.initial hc) fun c' _ h => ?_)
  have hl : LockKey.restaurant ∈ [LockKey.restaurant] := List.mem_singleton_self _
  refine secured_bind (secured_lockFoundation (hE _) h hl fun foundation => ?_)
  refine secured_bind (secured_resolveStart (hE _) h fun start => ?_)
  refine secured_bind (secured_query h (query_restaurant hl fun d l => rfl) ?_)
  refine secured_bind (secured_strict (hE _) h fun hours => ?_)
  split
  · exact secured_ret h _
  · refine secured_exceptionBlock h rfl (fun e p hp => ?_)
      fun hb => secured_bookingBlock (fun e y p hy => ⟨hy.marks_eq, ?_⟩) hb hl
    · cases e <;> simp only [abortHandler, Option.some.injEq, reduceCtorEq] at hp
      exact ⟨_, hp.symm, hl, _, _, _, _, _, rfl⟩
    · exact hy.marks_locks _ (List.mem_singleton_self _)

theorem secured_bookReservation {p : BookingArguments} {readings : Readings} {c : Database}
    (hc : DistinctCustomers c) :
    (guards env).Secured Unhandled (bookReservation env p readings) ⟨c, [], [], id, []⟩
      fun a _ => a.elim := by
  unfold bookReservation bookReservationCore
  rw [if_neg (by simp)]
  split
  · exact secured_ret (.initial hc) _
  · exact secured_bookRequest hc

theorem secured_newsletterCustomer {request : NewsletterRequest}
    {Q : Customer → Position Database LockKey Sequence → Prop}
    (h : (guards env).Confined marks pending x)
    (hl : LockKey.email (emailKey env request.email) ∈ x.locks)
    (hQ : ∀ c y p, (guards env).Confined marks p y → y.locks = x.locks →
      Owned env (emailKey env request.email) c.customerId y.view → Q c y) :
    (guards env).Secured Unhandled (newsletterCustomer env request) x Q := by
  have stored : ∀ {y : Position Database LockKey Sequence} {c : Customer},
      y.view.customerByEmail request.email = some c →
        Owned env (emailKey env request.email) c.customerId y.view := fun hc => by
    obtain ⟨hm, he⟩ := Database.customerByEmail_eq_some hc
    exact ⟨_, hm, rfl, by rw [he]⟩
  unfold newsletterCustomer
  refine secured_bind (secured_query h (query_customer hl) ?_)
  split
  · next c hc => exact hQ c _ _ h rfl (stored hc)
  split
  · exact secured_ret h _
  refine secured_bind (secured_draw h fun c n hc hn hd => ?_)
  have hn : (Sequence.customer, n) ∈ (Sequence.customer, n) :: pending := List.mem_cons_self ..
  have hfresh : ¬ InUse _ .customer n := hd.view_fresh hn
  refine secured_bind (secured_attempt hd
    (decided_insertCustomer (request.newCustomer n) hl hn hfresh)
    (fun e he => ?_) fun row w hw hx => ?_)
  · split
    · next hok => cases hok
    · refine secured_bind (secured_query hd (query_customer hl) ?_)
      split
      · next c hc => exact hQ c _ _ hd rfl (stored hc)
      · trivial
    · trivial
  · obtain ⟨-, -, rfl, rfl⟩ := Database.insertCustomer_ok hw
    exact hQ _ _ _ hx rfl ⟨_, List.mem_append_right _ (List.mem_singleton_self _), rfl, rfl⟩

theorem secured_setNewsletterPreference {p : NewsletterArguments} {c : Database}
    (hc : DistinctCustomers c) :
    (guards env).Secured Unhandled (setNewsletterPreference env p) ⟨c, [], [], id, []⟩
      fun a _ => a.elim := by
  unfold setNewsletterPreference
  split
  · exact secured_ret (.initial hc) _
  next request _ =>
  unfold setPreference
  refine secured_bind (secured_liftExcept (fun _ _ => trivial) fun k hk => ?_)
  obtain rfl := canonicalEmailLockKey_ok hk
  refine secured_bind (secured_acquire (.initial hc) fun c _ h => ?_)
  refine secured_bind (secured_newsletterCustomer h (List.mem_cons_self ..)
    fun customer y p hy hlocks howned => ?_)
  unfold storePreference
  split
  · exact secured_ret hy _
  split
  · exact secured_ret hy _
  refine secured_bind (secured_execute hy
    (decided_updateCustomer howned hy.view_valid (hlocks ▸ List.mem_cons_self ..)
      (fun _ => rfl) (fun _ => rfl)) (fun _ _ => trivial) fun u w hw hx => ?_)
  exact secured_ret hx _

theorem secured_setReservationConfiguration {p : ConfigurationArguments} {c : Database}
    (hc : DistinctCustomers c) :
    (guards env).Secured Unhandled (setReservationConfiguration env p) ⟨c, [], [], id, []⟩
      fun a _ => a.elim := by
  unfold setReservationConfiguration
  refine secured_bind (secured_acquire (.initial hc) fun c _ h => ?_)
  have hl : LockKey.restaurant ∈ [LockKey.restaurant] := List.mem_singleton_self _
  split
  · trivial
  refine secured_bind (secured_query h (query_restaurant hl fun d l => rfl) ?_)
  refine secured_bind (secured_liftExcept (fun _ _ => trivial) fun row _ => ?_)
  exact secured_bind (secured_execute h (decided_updateConfiguration hl) (fun _ _ => trivial)
    fun row w hw hx => secured_ret hx _)

theorem secured_setRestaurantOperatingHours {weekday : Option ℤ}
    {opensAt closesAt : Option TimeOfDay} {c : Database} (hc : DistinctCustomers c) :
    (guards env).Secured Unhandled (setRestaurantOperatingHours weekday opensAt closesAt)
      ⟨c, [], [], id, []⟩ fun a _ => a.elim := by
  unfold setRestaurantOperatingHours
  refine secured_bind (secured_acquire (.initial hc) fun c _ h => ?_)
  exact secured_bind (secured_execute h (decided_updateHours (List.mem_singleton_self _))
    (fun _ _ => trivial) fun row w hw hx => secured_ret hx _)

theorem secured_setRestaurantTableCapacity {tableNumber seatingCapacity : Option ℤ} {c : Database}
    (hc : DistinctCustomers c) :
    (guards env).Secured Unhandled (setRestaurantTableCapacity tableNumber seatingCapacity)
      ⟨c, [], [], id, []⟩ fun a _ => a.elim := by
  unfold setRestaurantTableCapacity
  refine secured_bind (secured_acquire (.initial hc) fun c _ h => ?_)
  exact secured_bind (secured_execute h (decided_updateTable (List.mem_singleton_self _))
    (fun _ _ => trivial) fun row w hw hx => secured_ret hx _)

/-- Every call of the server is secured by its locks. -/
theorem server_secured (call : Call) (c : Database) (hc : (guards env).valid c) :
    (guards env).Secured Unhandled ((server env).body call) ⟨c, [], [], id, []⟩
      fun a _ => a.elim := by
  cases call with
  | bookReservation p readings => exact secured_bookReservation hc
  | setNewsletterPreference p => exact secured_setNewsletterPreference hc
  | setReservationConfiguration p => exact secured_setReservationConfiguration hc
  | setRestaurantOperatingHours weekday opensAt closesAt =>
    exact secured_setRestaurantOperatingHours hc
  | setRestaurantTableCapacity tableNumber seatingCapacity =>
    exact secured_setRestaurantTableCapacity hc

end CafeFausse
