import CafeFausse.Routines.BookingEffect
import CafeFausse.Transaction.Answers

/-! # The rows a booking can return

Which outcomes each stage of `book_reservation_core` can report and which errors it can
raise, whatever its statements see.
-/

namespace CafeFausse

open Transaction Program

variable {env : Environment} {request : BookingRequest} {f : Foundation} {start : ResolvedStart}
  {tieRank : Option ℤ} {stage : Option FailureStage} {readings : Readings}

theorem plain_of_insertAssignment {row : ReservationTableAssignment} {db : Database} {e : SqlError}
    (h : Database.insertAssignment row db = .error e) : Plain e := by
  unfold Database.insertAssignment at h
  repeat' split at h
  all_goals cases h
  all_goals exact nofun

theorem plain_of_updateCustomer {ct : CharacterType} {n : ℕ} {change : Customer → Customer}
    {db : Database} {e : SqlError} (h : Database.updateCustomer ct n change db = .error e) :
    Plain e := by
  unfold Database.updateCustomer at h
  simp only at h
  split at h <;> cases h
  exact nofun

theorem plain_of_insertCustomer {ct : CharacterType} {row : Customer} {db : Database}
    {e : SqlError} (h : Database.insertCustomer ct row db = .error e) : Plain e := by
  unfold Database.insertCustomer at h
  repeat' split at h
  all_goals cases h
  all_goals exact nofun

theorem plain_of_insertReservation {row : Reservation} {db : Database} {e : SqlError}
    (h : Database.insertReservation row db = .error e) : Plain e := by
  unfold Database.insertReservation at h
  repeat' split at h
  all_goals cases h
  all_goals exact nofun

/-- `R` holds of the rows that report the outcome and no detail. -/
def Allows (R : Answer → Prop) (o : Outcome) : Prop :=
  ∀ row : BookingRow, row.outcome = o → row.detailCode = none → R (.booking row)

section Stages

variable {R : Answer → Prop} {E : SqlError → Prop}

theorem yields_checkIdentity {c : Customer} (hmismatch : Allows R .customerIdentityMismatch)
    (hinitial : Allows R .middleInitialConflict) : (checkIdentity env request c).Yields R E := by
  unfold checkIdentity
  split
  · exact hmismatch _ rfl rfl
  split
  · exact hinitial _ rfl rfl
  · trivial

theorem yields_exactRetry {c : Customer} {fingerprint : Bytes} (hretry : Allows R .exactRetry) :
    (exactRetry request start c fingerprint).Yields R E := by
  unfold exactRetry findExisting
  refine yields_bind (yields_bind yields_query fun r => ?_) fun r => ?_
  · cases r with
    | some r => trivial
    | none => exact yields_query
  · cases r with
    | none => trivial
    | some r => exact yields_bind yields_query fun tables => hretry _ rfl rfl

theorem yields_rejectOverlap {c : Customer} {fingerprint : Bytes}
    (hoverlap : Allows R .sameCustomerOverlap) :
    (rejectOverlap request start c fingerprint).Yields R E := by
  unfold rejectOverlap
  refine yields_bind yields_query fun overlap => ?_
  split
  · exact hoverlap _ rfl rfl
  · trivial

variable (hplain : ∀ e, Plain e → E e)
include hplain

theorem yields_resolveCustomer : (resolveCustomer env request stage).Yields R E := by
  unfold resolveCustomer
  refine yields_bind yields_query fun c => ?_
  cases c with
  | some c => trivial
  | none =>
    refine yields_bind yields_draw fun n => yields_attempt_bind (fun c => ?_) fun v e he => ?_
    · simp only
      split
      · exact hplain _ plain_injectedFailure
      · trivial
    · split
      · cases ‹Except.error _ = Except.ok _›
      · refine yields_bind yields_query fun c => ?_
        cases c with
        | some c => trivial
        | none => exact hplain _ nofun
      · next heq =>
        cases heq
        exact hplain _ (plain_of_insertCustomer he)

theorem yields_allocate {fingerprint : Bytes}
    (habort : ∀ o d, o = .unavailable ∨ o = .invalidRequest → d ≠ .invalidNormalizedInput →
      E (.bookingAborted o d fingerprint)) :
    (allocate request f start fingerprint tieRank readings).Yields R E := by
  unfold allocate
  refine yields_bind yields_query fun free => yields_bind (yields_liftExcept fun e he => ?_)
    fun a => ?_
  · exact hplain _ (plain_of_selectTableAllocation he)
  · cases a with
    | none => exact habort _ _ (.inl rfl) (by decide)
    | some a =>
      simp only
      split
      · exact habort _ _ (.inr rfl) (by decide)
      · trivial

theorem yields_updateCustomer {c : Customer} {change : Customer → Customer} :
    (updateCustomer env c change).Yields R E := by
  unfold updateCustomer
  refine yields_bind (yields_execute fun v e he => hplain _ (plain_of_updateCustomer he)) fun c => ?_
  cases c with
  | some c => trivial
  | none => exact hplain _ nofun

theorem yields_populateOptionalFields {c : Customer} {isNew : Bool} :
    (populateOptionalFields env request stage c isNew).Yields R E := by
  unfold populateOptionalFields
  simp only
  split
  · refine yields_bind (yields_updateCustomer hplain) fun c => ?_
    split
    · exact hplain _ plain_injectedFailure
    · trivial
  · trivial

theorem yields_updateNewsletter {c : Customer} :
    (updateNewsletter env request stage c).Yields R E := by
  unfold updateNewsletter
  split
  · refine yields_bind (yields_updateCustomer hplain) fun c => ?_
    split
    · exact hplain _ plain_injectedFailure
    · trivial
  · trivial

theorem yields_insertReservation {n : ℕ} {fingerprint : Bytes} :
    (insertReservation request start stage n fingerprint).Yields R E := by
  unfold insertReservation
  refine yields_bind yields_draw fun i => yields_bind (yields_liftExcept fun e he => ?_)
    fun row => yields_attempt_bind (fun _ => ?_) fun v e he => ?_
  · unfold Reservation.checked at he
    split at he <;> cases he
    exact hplain _ plain_checkViolation
  · simp only
    split
    · exact hplain _ plain_injectedFailure
    · trivial
  · cases e with
    | uniqueViolation => exact hplain _ plain_serializationFailure
    | _ => exact hplain _ (plain_of_insertReservation he)

theorem yields_insertAssignments {n : ℕ} {tables : List ℤ} {count : ℕ} :
    (insertAssignments n stage tables count).Yields R E := by
  induction tables generalizing count with
  | nil => trivial
  | cons t tables ih =>
    unfold insertAssignments
    refine yields_bind (yields_execute fun v e he => hplain _ (plain_of_insertAssignment he))
      fun _ => ?_
    split
    · exact hplain _ plain_injectedFailure
    · exact ih

theorem yields_checkPostconditions {a : Allocation} {c n : ℕ} :
    (checkPostconditions env request start a c n).Yields R E := by
  unfold checkPostconditions
  refine yields_bind yields_query fun assigned => yields_bind (yields_liftExcept fun e he => ?_)
    fun capacity => yields_bind yields_query fun violated => ?_
  · exact hplain _ (plain_of_nullableInteger he)
  · split
    · exact hplain _ nofun
    · trivial

theorem yields_writeBooking {c : Customer} {isNew : Bool} {fingerprint : Bytes} {a : Allocation}
    (hbooked : Allows R .booked) (hnotice : Allows R .bookedPhoneNotice) :
    (writeBooking env request start stage c isNew fingerprint a).Yields R E := by
  unfold writeBooking
  refine yields_bind (yields_populateOptionalFields hplain) fun c => ?_
  refine yields_bind (yields_updateNewsletter hplain) fun c => ?_
  refine yields_bind (yields_insertReservation hplain) fun n => ?_
  refine yields_bind (yields_insertAssignments hplain) fun _ => ?_
  refine yields_bind (yields_checkPostconditions hplain) fun _ => ?_
  rcases books_bookedRow with h | h
  · exact hbooked _ h rfl
  · exact hnotice _ h rfl

/-- What the block can report once it knows a customer who fits. -/
theorem yields_serve {c : Customer} {isNew : Bool} {fingerprint : Bytes}
    (hretry : Allows R .exactRetry) (hoverlap : Allows R .sameCustomerOverlap)
    (hbooked : Allows R .booked) (hnotice : Allows R .bookedPhoneNotice)
    (habort : ∀ o d, o = .unavailable ∨ o = .invalidRequest → d ≠ .invalidNormalizedInput →
      E (.bookingAborted o d fingerprint)) :
    (do
      exactRetry request start c fingerprint
      rejectOverlap request start c fingerprint
      let allocation ← allocate request f start fingerprint tieRank readings
      writeBooking env request start stage c isNew fingerprint allocation :
        Routine Empty).Yields R E := by
  refine yields_bind (yields_exactRetry hretry) fun _ => ?_
  refine yields_bind (yields_rejectOverlap hoverlap) fun _ => ?_
  refine yields_bind (yields_allocate hplain habort) fun a => ?_
  exact yields_writeBooking hplain hbooked hnotice

theorem yields_bookingBlock (hmismatch : Allows R .customerIdentityMismatch)
    (hinitial : Allows R .middleInitialConflict) (hretry : Allows R .exactRetry)
    (hoverlap : Allows R .sameCustomerOverlap) (hbooked : Allows R .booked)
    (hnotice : Allows R .bookedPhoneNotice)
    (habort : ∀ o d fingerprint, o = .unavailable ∨ o = .invalidRequest →
      d ≠ .invalidNormalizedInput → E (.bookingAborted o d fingerprint)) :
    (bookingBlock env request f start tieRank stage readings).Yields R E := by
  unfold bookingBlock
  refine yields_bind (yields_liftExcept fun e he => hplain _ (plain_of_canonicalEmailLockKey he))
    fun key => yields_bind yields_acquire fun _ => ?_
  refine yields_bind (yields_resolveCustomer hplain) fun ⟨c, isNew⟩ => ?_
  unfold serveCustomer
  refine yields_bind (yields_checkIdentity hmismatch hinitial) fun _ => ?_
  exact yields_serve hplain hretry hoverlap hbooked hnotice fun o d => habort o d _

theorem yields_lockFoundation
    (hunusable : ∀ d, R (.booking (refusal .invalidDatabaseConfiguration d))) :
    (lockFoundation env).Yields R E := by
  unfold lockFoundation
  refine yields_bind yields_query fun count => ?_
  split
  · exact hunusable _
  refine yields_bind yields_query fun rows => ?_
  refine yields_bind (yields_liftExcept fun e he => hplain _ (plain_of_strict he)) fun c => ?_
  refine yields_bind yields_query fun complete => ?_
  split
  · exact hunusable _
  refine yields_bind yields_query fun tables => ?_
  refine yields_bind (yields_liftExcept fun e he => hplain _ (plain_of_nullableInteger he)) ?_
  intro total
  split
  · exact hunusable _
  split
  · exact hunusable _
  · trivial

theorem yields_resolveStart (hinvalid : ∀ d, d ≠ .invalidNormalizedInput →
    R (.booking (refusal .invalidRequest d))) : (resolveStart f request).Yields R E := by
  unfold resolveStart
  split
  · split
    · exact hinvalid _ (by decide)
    · split
      · exact hinvalid _ (by decide)
      · trivial
    · exact hinvalid _ (by decide)
  · exact hplain _ nofun

omit hplain in
theorem detail_currentPolicy {hours : RestaurantOperatingHours} {partySize now : ℤ}
    {o : Outcome} {d : Detail} (h : currentPolicy f hours start partySize now = some (o, d)) :
    d ≠ .invalidNormalizedInput := by
  unfold currentPolicy at h
  simp only at h
  repeat' split at h
  all_goals cases h
  all_goals decide

/-- Every row for a request: a refusal, a row of the block, or the row of the handler. None of
them blames the input. -/
theorem yields_bookRequest
    (hinvalid : ∀ d, d ≠ .invalidNormalizedInput → R (.booking (refusal .invalidRequest d)))
    (hunusable : ∀ d, R (.booking (refusal .invalidDatabaseConfiguration d)))
    (hblock : ∀ o ∈ [.customerIdentityMismatch, .middleInitialConflict, .exactRetry,
      .sameCustomerOverlap, .booked, .bookedPhoneNotice], Allows R o)
    (haborted : ∀ request start o d fingerprint, o = .unavailable ∨ o = .invalidRequest →
      d ≠ .invalidNormalizedInput → R (.booking (abortedRow request start o d fingerprint))) :
    (bookRequest env request tieRank stage readings).Yields R E := by
  unfold bookRequest
  refine yields_bind yields_acquire fun _ => ?_
  refine yields_bind (yields_lockFoundation hplain hunusable) fun f => ?_
  refine yields_bind (yields_resolveStart hplain hinvalid) fun start => ?_
  refine yields_bind yields_query fun rows => ?_
  refine yields_bind (yields_liftExcept fun e he => hplain _ (plain_of_strict he)) fun hours => ?_
  split
  · next o d hpolicy =>
    rw [outcome_currentPolicy hpolicy]
    exact hinvalid d (detail_currentPolicy hpolicy)
  -- the handler turns what the block raises on purpose into a row
  have hyields : (bookingBlock env request f start tieRank stage readings).Yields R
      fun e => Plain e ∨ ∃ o d fingerprint, (o = .unavailable ∨ o = .invalidRequest) ∧
        d ≠ .invalidNormalizedInput ∧ e = .bookingAborted o d fingerprint :=
    yields_bookingBlock (fun _ he => .inl he) (hblock _ (by simp)) (hblock _ (by simp))
      (hblock _ (by simp)) (hblock _ (by simp)) (hblock _ (by simp)) (hblock _ (by simp))
      fun o d fingerprint ho hd => .inr ⟨o, d, fingerprint, ho, hd, rfl⟩
  refine yields_handle hyields fun e he => ?_
  rcases he with he | ⟨o, d, fingerprint, ho, hd, rfl⟩
  · cases e with
    | bookingAborted o d fingerprint => exact absurd rfl (he o d fingerprint)
    | _ => exact hplain _ he
  · exact haborted request start o d fingerprint ho hd

/-- Every row of a booking, those that blame the input included. -/
theorem yields_bookReservation {p : BookingArguments}
    (hinvalid : ∀ d, R (.booking (refusal .invalidRequest d)))
    (hunusable : ∀ d, R (.booking (refusal .invalidDatabaseConfiguration d)))
    (hblock : ∀ o ∈ [.customerIdentityMismatch, .middleInitialConflict, .exactRetry,
      .sameCustomerOverlap, .booked, .bookedPhoneNotice], Allows R o)
    (haborted : ∀ request start o d fingerprint, o = .unavailable ∨ o = .invalidRequest →
      R (.booking (abortedRow request start o d fingerprint))) :
    (bookReservation env p readings).Yields R E := by
  unfold bookReservation bookReservationCore
  split
  · exact hinvalid _
  split
  · exact hinvalid _
  · exact yields_bookRequest hplain (fun d _ => hinvalid d) hunusable hblock
      fun request start o d fingerprint ho _ => haborted request start o d fingerprint ho

omit hplain in
/-- A request that has passed the input check is not sent back for its input. -/
theorem yields_bookRequest_input : (bookRequest env request tieRank stage readings).Yields
    (fun answer => answer ≠ .booking (refusal .invalidRequest .invalidNormalizedInput))
    fun _ => True := by
  apply yields_bookRequest fun _ _ => trivial
  · rintro d hd ⟨⟩
    exact hd rfl
  · rintro d ⟨⟩
  · rintro o ho row houtcome hdetail ⟨⟩
    cases hdetail
  · rintro request start o d fingerprint ho hd ⟨⟩

end Stages

end CafeFausse
