import CafeFausse.Backend.Driver
import CafeFausse.Routines.Writers
import CafeFausse.Transaction.Calls

/-! # The newsletter gateway

`NewsletterGateway.set_preference`: one transaction that calls the routine. Unlike a
booking it checks the deadline again right before the call and before the commit, and it
builds its result anew once the transaction has committed.
-/

namespace CafeFausse.Backend

open Transaction Program Statement

/-- `NewsletterPreferenceOutcome`. -/
inductive NewsletterPreferenceOutcome where
  | subscribed
  | unsubscribed
  | noCustomerNoChange
  | invalidRequest
  | customerIdentityConflict
  | middleInitialConflict
  deriving DecidableEq

/-- `NewsletterPreferenceCommand`. -/
structure NewsletterPreferenceCommand where
  firstName : Text
  middleInitial : Option Text
  lastName : Text
  email : Text
  subscribed : Bool
  deriving DecidableEq

/-- The parameters of the statement that calls the routine. -/
def NewsletterPreferenceCommand.arguments (command : NewsletterPreferenceCommand) :
    NewsletterArguments where
  firstName := some command.firstName
  middleInitial := command.middleInitial
  lastName := some command.lastName
  email := some command.email
  subscribed := some command.subscribed

/-- The state that an outcome implies. -/
def NewsletterPreferenceOutcome.expectedState : NewsletterPreferenceOutcome → Option Bool
  | .subscribed => some true
  | .unsubscribed => some false
  | .noCustomerNoChange => some false
  | _ => none

/-- `NewsletterPreferenceResult`; the proof is the check of `__post_init__`. -/
structure NewsletterPreferenceResult where
  outcome : NewsletterPreferenceOutcome
  subscribed : Option Bool
  attempts : ℕ := 1
  cleanupFailed : Bool := false
  subscribed_ck : subscribed = outcome.expectedState
  deriving DecidableEq

namespace NewsletterGateway

/-- `_OUTCOME_MAP`. -/
def outcomeMap : NewsletterOutcome → NewsletterPreferenceOutcome
  | .subscribed => .subscribed
  | .unsubscribed => .unsubscribed
  | .noCustomerNoChange => .noCustomerNoChange
  | .customerIdentityMismatch => .customerIdentityConflict
  | .middleInitialConflict => .middleInitialConflict
  | .invalidRequest => .invalidRequest

/-- `success_outcomes`. -/
def success (outcome : NewsletterPreferenceOutcome) : Bool :=
  outcome = .subscribed ∨ outcome = .unsubscribed ∨ outcome = .noCustomerNoChange

/-- The constructor, which raises a `ValueError`. -/
def makeResult (outcome : NewsletterPreferenceOutcome) (subscribed : Option Bool) :
    Except Fault NewsletterPreferenceResult :=
  if h : subscribed = outcome.expectedState then .ok { outcome, subscribed, subscribed_ck := h }
  else .error { errorClass := .other }

/-- `_decode_result`, for the columns of the routine. -/
def decodeResult (outcome : NewsletterOutcome) (subscribed : Option Bool) :
    Except Fault NewsletterPreferenceResult :=
  let outcome := outcomeMap outcome
  if outcome = .invalidRequest ∧ subscribed.isSome then .error Attempt.contractError
  else if outcome ≠ .invalidRequest ∧ subscribed.isNone then .error Attempt.contractError
  else match makeResult outcome (if success outcome then subscribed else none) with
  | .ok result => .ok result
  | .error _ => .error Attempt.contractError

/-- The classes of errors that `_mutation_failure` finds safe to retry before the dispatch. -/
def retryable : List ErrorClass := [.interfaceError, .operationalError, .poolTimeout]

section SetPreference

variable (env : Environment) (command : NewsletterPreferenceCommand) (a : Attempt)

/-- The routine called in the state the attempt meets. -/
def reply : Exit SqlError Answer Empty × Database :=
  (setNewsletterPreference env command.arguments).transact a.memory

/-- The rows of the call. -/
def rows : Except Fault (NewsletterOutcome × Option Bool) :=
  match (reply env command a).1 with
  | .returned (.newsletter outcome subscribed) => .ok (outcome, subscribed)
  | .raised e => .error (a.sqlFault e)
  | _ => .error Attempt.contractError

/-- `if (deadline - self._clock()) * 1000 < 1: raise TimeoutError()`. -/
def requireTime (deadline : ℚ) :
    Statement (Locals NewsletterPreferenceResult) Fault Unit := do
  if (deadline - (← a.now)) * 1000 < 1 then throw Attempt.timeoutError else return

/-- The statements inside `with connection:`. -/
def transactionBody (deadline : ℚ) :
    Statement (Locals NewsletterPreferenceResult) Fault Unit := do
  a.requireMillisecond deadline
  a.withCursor do
    a.step .begin
    modify fun s => { s with transactionStarted := true }
    a.step .setConfig
    requireTime a deadline
    modify fun s => { s with dispatched := true }
    a.step .call
    let (outcome, subscribed) ← ofExcept (rows env command a)
    a.step .fetch
    let result ← ofExcept (decodeResult outcome subscribed)
    modify fun s => { s with result := some result }
    requireTime a deadline
  modify fun s => { s with bodyCompleted := true }

/-- The `else` clause: the result of a committed transaction. -/
def completed : Statement (Locals NewsletterPreferenceResult) Fault Unit := do
  modify fun s => { s with transactionStarted := false, pendingError := none }
  let s ← get
  match s.result with
  | none => throw { errorClass := .other }
  | some result => do
    let result ← ofExcept (makeResult result.outcome result.subscribed)
    modify fun s => { s with result := some result }

/-- The connection goes back to the pool, unless closing it has failed. -/
def release : Statement (Locals NewsletterPreferenceResult) Fault Unit := do
  let s ← get
  if s.unsafeDisposalFailed then
    modify fun s => { s with pendingError := s.pendingError.map GatewayError.withCleanupFailed }
  else a.putBack fun r => { r with cleanupFailed := true }

/-- What `set_preference` does with an acquired connection. -/
def useConnection (deadline : ℚ) : Statement (Locals NewsletterPreferenceResult) Fault Unit :=
  Statement.always
    (Statement.except
      (do
        match ← (a.withConnection (Attempt.recording
          (transactionBody env command a deadline))).outcome with
        | .ok () => completed
        | .error contextError => a.classify retryable contextError)
      fun error => modify fun s => { s with
        primaryError := some (s.primaryError.getD error)
        pendingError := some (.fault error) })
    (release a)

/-- `NewsletterGateway.set_preference`. -/
def setPreference (acquireTimeoutSeconds : ℚ) (timeoutSeconds : Option ℚ) :
    Statement (Locals NewsletterPreferenceResult) GatewayError NewsletterPreferenceResult :=
  a.gateway retryable (fun s => !s.transactionStarted) (useConnection env command a)
    acquireTimeoutSeconds timeoutSeconds

end SetPreference

section Spec

variable {env : Environment} {command : NewsletterPreferenceCommand} {a : Attempt}
  {deadline : ℚ} {s : Locals NewsletterPreferenceResult}

/-- The result reports the row of the routine. -/
def Reports (env : Environment) (command : NewsletterPreferenceCommand) (a : Attempt)
    (r : NewsletterPreferenceResult) : Prop :=
  ∃ outcome subscribed db,
    reply env command a = (.returned (.newsletter outcome subscribed), db) ∧
      r.outcome = outcomeMap outcome

theorem makeResult_ok {outcome : NewsletterPreferenceOutcome} {subscribed : Option Bool}
    {r : NewsletterPreferenceResult} (h : makeResult outcome subscribed = .ok r) :
    r.outcome = outcome := by
  unfold makeResult at h
  split at h
  · cases h
    rfl
  · cases h

theorem reports_of_decodeResult {row : NewsletterOutcome × Option Bool}
    {r : NewsletterPreferenceResult} (hrow : rows env command a = .ok row)
    (hr : decodeResult row.1 row.2 = .ok r) : Reports env command a r := by
  have houtcome : r.outcome = outcomeMap row.1 := by
    unfold decodeResult at hr
    simp only at hr
    split at hr
    · cases hr
    split at hr
    · cases hr
    split at hr
    · next result hresult =>
      cases hr
      exact makeResult_ok hresult
    · cases hr
  unfold rows at hrow
  split at hrow
  · next outcome subscribed hreply =>
    cases hrow
    exact ⟨outcome, subscribed, (reply env command a).2, Prod.ext hreply rfl, houtcome⟩
  · cases hrow
  · cases hrow

theorem wp_requireTime {Q : Unit → Locals NewsletterPreferenceResult → Prop}
    {E : Fault → Locals NewsletterPreferenceResult → Prop}
    (hQ : Q () { s with clockReads := s.clockReads + 1 })
    (hE : ∀ e, E e { s with clockReads := s.clockReads + 1 }) :
    (requireTime a deadline).wp Q E s := by
  unfold requireTime
  refine wp_bind.mpr (wp_now fun t => ?_)
  split
  · exact hE _
  · exact hQ

theorem wp_transactionBody (hs : s.Open) :
    (transactionBody env command a deadline).wp (fun _ s' => s'.Ran (Reports env command a))
      (fun _ s' => s'.Open) s := by
  obtain ⟨⟨hsent, htook⟩, hbody, hpending⟩ := hs
  unfold transactionBody
  refine wp_bind.mpr (wp_requireMillisecond ?_ fun _ => ⟨⟨hsent, htook⟩, hbody, hpending⟩)
  refine wp_bind.mpr (wp_withCursor ?_ fun _ => ⟨⟨hsent, htook⟩, hbody, hpending⟩)
  refine wp_bind.mpr (wp_step ?_ fun _ _ => ⟨⟨hsent, htook⟩, hbody, hpending⟩)
  refine wp_bind.mpr (wp_modify.mpr ?_)
  refine wp_bind.mpr (wp_step ?_ fun _ _ => ⟨⟨hsent, htook⟩, hbody, hpending⟩)
  refine wp_bind.mpr (wp_requireTime ?_ fun _ _ => ⟨⟨hsent, htook⟩, hbody, hpending⟩)
  refine wp_bind.mpr (wp_modify.mpr ?_)
  refine wp_bind.mpr (wp_step ?_ fun _ _ => ⟨⟨hsent, htook⟩, hbody, hpending⟩)
  refine wp_bind.mpr (wp_ofExcept.mpr ?_)
  split
  swap
  · exact fun _ => ⟨⟨hsent, htook⟩, hbody, hpending⟩
  next row hrow =>
  refine wp_bind.mpr (wp_step ?_ fun _ _ => ⟨⟨hsent, htook⟩, hbody, hpending⟩)
  refine wp_bind.mpr (wp_ofExcept.mpr ?_)
  split
  swap
  · exact fun _ => ⟨⟨hsent, htook⟩, hbody, hpending⟩
  next r hr =>
  refine wp_bind.mpr (wp_modify.mpr (wp_requireTime ?_ fun _ _ => ?_))
  · constructor
    · exact ⟨⟨hsent, htook⟩, rfl, rfl, hpending, r, rfl, reports_of_decodeResult hrow hr⟩
    · exact fun _ => ⟨⟨hsent, htook⟩, hbody, hpending⟩
  · exact ⟨⟨hsent, htook⟩, hbody, hpending⟩

/-- The result is built anew without an error: it has passed its check before. -/
theorem wp_completed {E : Fault → Locals NewsletterPreferenceResult → Prop}
    (hs : s.Committed (Reports env command a)) :
    completed.wp (fun _ s' => s'.Concluded False (Reports env command a)) E s := by
  obtain ⟨htook, hpending, r, hr, outcome, subscribed, db, hreply, houtcome⟩ := hs
  unfold completed
  refine wp_bind.mpr (wp_modify.mpr (wp_bind.mpr (wp_get.mpr ?_)))
  simp only [hr]
  rw [makeResult, dif_pos r.subscribed_ck]
  exact .inl ⟨htook, rfl, _, rfl, outcome, subscribed, db, hreply, houtcome⟩

theorem wp_release (hs : s.Concluded False (Reports env command a)) :
    (release a).wp (fun _ s' => s'.Concluded False (Reports env command a)) (fun _ _ => False) s := by
  unfold release
  refine wp_bind.mpr (wp_get.mpr ?_)
  split
  · rcases hs with ⟨htook, hpending, hr⟩ | ⟨e, hpending, he⟩
    · exact .inl ⟨htook, by simp only [hpending, Option.map_none], hr⟩
    · exact .inr ⟨e.withCleanupFailed, by simp only [hpending, Option.map_some],
        (truthful_withCleanupFailed he).congr rfl rfl⟩
  · exact wp_putBack (fun _ h => h) hs

theorem wp_useConnection (hs : s.Open) :
    (useConnection env command a deadline).wp
      (fun _ s' => s'.Concluded False (Reports env command a)) (fun _ _ => False) s := by
  unfold useConnection
  refine wp_always.mpr (wp_mono (Q := fun _ s' => s'.Concluded False (Reports env command a))
    (E := fun _ _ => False) ?_ (fun _ s' hs' => wp_release hs') fun _ _ h => h.elim)
  refine wp_except.mpr (wp_bind.mpr (wp_outcome.mpr (wp_mono
    (wp_withConnection (wp_recording (wp_transactionBody hs))) (fun _ s' hs' => ?_) ?_)))
  · exact wp_completed hs'
  · exact fun error s' hs' => wp_classify hs'

/-- A change that returns has committed and reports the row of the routine; one that
raises tells the truth about its COMMIT. -/
theorem wp_setPreference {acquireTimeoutSeconds : ℚ} {timeoutSeconds : Option ℚ} :
    (setPreference env command a acquireTimeoutSeconds timeoutSeconds).wp
      (fun r s' => s'.commitTook = true ∧ Reports env command a r) (fun e s' => e.Truthful False s')
      {} :=
  wp_gateway (fun _ _ hs => wp_useConnection hs) ⟨⟨rfl, rfl⟩, rfl, rfl⟩

end Spec

end NewsletterGateway

end CafeFausse.Backend
