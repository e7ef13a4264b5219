import CafeFausse.Backend.NewsletterGateway
import CafeFausse.Backend.ReservationGateway
import CafeFausse.Backend.Retry

/-! # The mutation services

`ReservationService.book` and `NewsletterPreferenceService.set_preference`: attempts at
the gateway under the retry loop, and the exceptions that tell the caller what is known.
A log records what became of the COMMIT of each attempt. Observers and measured times are
left out.
-/

namespace CafeFausse.Backend

open Statement

/-- What leaves a service. -/
inductive ServiceError where
  | temporaryFailure (attempts : ℕ) (cleanupFailed : Bool)
  | outcomeUnknown (attempts : ℕ) (cleanupFailed : Bool)
  | confirmationUnavailable (attempts : ℕ) (cleanupFailed : Bool)
  | serviceUnavailable (attempts : ℕ) (cleanupFailed : Bool)
  | databaseContractError (cleanupFailed : Bool)
  | unexpected (error : Fault)
  | attemptsOutOfRange
  | lostFailureContext
  deriving DecidableEq

/-- What became of one attempt: the state its routine met, and the one it would leave. -/
structure AttemptRecord where
  number : ℕ
  commitSent : Bool
  commitTook : Bool
  before : Database
  proposed : Database

/-- The state after the attempt. -/
def AttemptRecord.after (x : AttemptRecord) : Database :=
  if x.commitTook then x.proposed else x.before

/-- The variables of a call, the positions in its script and the log. -/
structure CallVariables where
  clockReads : ℕ := 0
  draws : ℕ := 0
  attempts : ℕ := 0
  cleanupFailed : Bool := false
  log : List AttemptRecord := []

/-- The settings of a service and its gateway, and everything a call meets. -/
structure Service where
  deadlineMs : ℤ
  retryPolicy : RetryPolicy
  acquireTimeoutSeconds : ℚ
  monotonic : ℕ → ℚ
  uniform : ℕ → ℚ → ℚ → ℚ
  attempts : ℕ → Attempt

namespace Service

variable {α : Type} (service : Service)

/-- The retry loop of the service. -/
def retry (operation : ℕ → ℚ → Statement CallVariables (RetryError ServiceError) α) :
    Retry CallVariables ServiceError α where
  operation
  deadlineMs := service.deadlineMs
  policy := service.retryPolicy
  monotonic := do
    let v ← get
    modify fun v => { v with clockReads := v.clockReads + 1 }
    return service.monotonic v.clockReads
  sleeper _ := return
  uniform a b := do
    let v ← get
    modify fun v => { v with draws := v.draws + 1 }
    return service.uniform v.draws a b

/-- The call of the gateway: its exception or result, and the record of the attempt. -/
def callGateway {ρ : Type} (gateway : Statement (Locals ρ) GatewayError ρ) (number : ℕ)
    (proposed : Database) :
    Statement CallVariables (RetryError ServiceError) (Except GatewayError ρ) := do
  let (outcome, locals) := gateway.execute {}
  modify fun v => { v with log := v.log ++ [{
    number
    commitSent := locals.commitSent
    commitTook := locals.commitTook
    before := (service.attempts number).memory.view
    proposed }] }
  return outcome

/-- The exceptions of the loop as the caller sees them. -/
def translated (p : Statement CallVariables (RetryError ServiceError) α) :
    Statement CallVariables ServiceError α :=
  p.except fun
    | .failure error => do
      let v ← get
      if error.outcomeUnknown then throw (.outcomeUnknown v.attempts v.cleanupFailed)
      else throw (.temporaryFailure v.attempts v.cleanupFailed)
    | .other error => throw error
    | .attemptsOutOfRange => throw .attemptsOutOfRange
    | .lostFailureContext => throw .lostFailureContext

/-- `AttemptFailure(…) from error`. -/
def attemptFailure (error : DatabaseMutationFailure) : AttemptFailure where
  sqlstate := error.sqlstate
  safeToRetry := error.safeToRetry
  mutationDispatched := error.mutationDispatched
  outcomeUnknown := error.outcomeUnknown

/-- `cleanup_failed = cleanup_failed or error.cleanup_failed`. -/
def noteCleanup (cleanupFailed : Bool) :
    Statement CallVariables (RetryError ServiceError) Unit :=
  modify fun v => { v with cleanupFailed := v.cleanupFailed || cleanupFailed }

section Book

variable (env : Environment) (zoneInfo : Text → Bool) (command : ReservationCommand)

/-- The closure `attempt` of `ReservationService.book`. -/
def bookAttempt (number : ℕ) (remaining : ℚ) :
    Statement CallVariables (RetryError ServiceError) ReservationBookingResult := do
  modify fun v => { v with attempts := number }
  let a := service.attempts number
  match ← service.callGateway (ReservationGateway.book env zoneInfo command a
    service.acquireTimeoutSeconds (some remaining)) number
    (ReservationGateway.reply env command a).2 with
  | .error (.mutation error) => do
    noteCleanup error.cleanupFailed
    throw (.failure (attemptFailure error))
  | .error (.confirmation cleanupFailed) => do
    noteCleanup cleanupFailed
    throw (.other (.confirmationUnavailable number (← get).cleanupFailed))
  | .error (.contract cleanupFailed) => do
    noteCleanup cleanupFailed
    throw (.other (.databaseContractError cleanupFailed))
  | .error (.fault error) => throw (.other (.unexpected error))
  | .ok result => do
    noteCleanup result.cleanupFailed
    let cleanupFailed := (← get).cleanupFailed
    if result.outcome = .invalidDatabaseConfiguration then
      throw (.other (.serviceUnavailable number cleanupFailed))
    else return { result with attempts := number, cleanupFailed }

/-- `ReservationService.book`. -/
def book : Statement CallVariables ServiceError ReservationBookingResult :=
  translated (service.retry (service.bookAttempt env zoneInfo command)).executeWithRetry

end Book

section SetPreference

variable (env : Environment) (command : NewsletterPreferenceCommand)

/-- The closure `attempt` of `NewsletterPreferenceService.set_preference`. -/
def preferenceAttempt (number : ℕ) (remaining : ℚ) :
    Statement CallVariables (RetryError ServiceError) NewsletterPreferenceResult := do
  modify fun v => { v with attempts := number }
  let a := service.attempts number
  match ← service.callGateway (NewsletterGateway.setPreference env command a
    service.acquireTimeoutSeconds (some remaining)) number
    (NewsletterGateway.reply env command a).2 with
  | .error (.mutation error) => do
    noteCleanup error.cleanupFailed
    throw (.failure (attemptFailure error))
  | .error (.contract cleanupFailed) => throw (.other (.databaseContractError cleanupFailed))
  | .error (.confirmation _) => throw (.other (.unexpected { errorClass := .other }))
  | .error (.fault error) => throw (.other (.unexpected error))
  | .ok result => do
    noteCleanup result.cleanupFailed
    let cleanupFailed := (← get).cleanupFailed
    return { result with attempts := number, cleanupFailed }

/-- `NewsletterPreferenceService.set_preference`. -/
def setPreference : Statement CallVariables ServiceError NewsletterPreferenceResult :=
  translated (service.retry (service.preferenceAttempt env command)).executeWithRetry

end SetPreference

end Service

end CafeFausse.Backend
