import CafeFausse.Backend.Statements
import CafeFausse.Routines.Writers

/-! # One attempt at a mutation

What both mutation gateways share: the exceptions of the driver, a script that says
which step of an attempt fails and how, the connection as a context manager, and the
translation of a failure into what is known about the commit. The script decides
everything outside the code, and the variables record whether COMMIT was sent and
whether it took effect. Measured times are left out.
-/

namespace CafeFausse.Backend

open Transaction Program Statement

/-- What the code asks of the class of an exception. A `PoolTimeout` is an
`OperationalError`. -/
inductive ErrorClass where
  | databaseContractError
  | programmingError
  | interfaceError
  | operationalError
  | poolTimeout
  | timeoutError
  | other
  deriving DecidableEq

/-- An exception that is no translated failure. Those that the code raises itself have no
identity of the driver. -/
structure Fault where
  identity : Option ℕ := none
  errorClass : ErrorClass
  sqlstate : Option String := none
  deriving DecidableEq

/-- `DatabaseMutationFailure`. -/
structure DatabaseMutationFailure where
  sqlstate : Option String
  safeToRetry : Bool
  mutationDispatched : Bool
  outcomeUnknown : Bool
  cleanupFailed : Bool
  deriving DecidableEq

/-- What leaves a gateway. -/
inductive GatewayError where
  | fault (error : Fault)
  | contract (cleanupFailed : Bool)
  | mutation (error : DatabaseMutationFailure)
  | confirmation (cleanupFailed : Bool)
  deriving DecidableEq

/-- `error.cleanup_failed = True`. -/
def GatewayError.withCleanupFailed : GatewayError → GatewayError
  | .fault error => .fault error
  | .contract _ => .contract true
  | .mutation error => .mutation { error with cleanupFailed := true }
  | .confirmation _ => .confirmation true

/-- `_RETRYABLE_SQLSTATES`. -/
def retryableSqlstates : List String := ["55P03", "40P01", "40001"]

def retryableSqlstate (sqlstate : Option String) : Bool :=
  sqlstate.any fun state => retryableSqlstates.contains state

/-- `_failure` of one gateway and `_mutation_failure` of the other: the failure of an
attempt, by what is known about its rollback. The gateways differ in the classes of errors
that are safe to retry before the dispatch. -/
def translate (retryable : List ErrorClass) (error : Fault)
    (dispatched rollbackConfirmed cleanupFailed : Bool) : GatewayError :=
  if error.errorClass = .databaseContractError ∧ rollbackConfirmed then .contract cleanupFailed
  else
    let outcomeUnknown := dispatched && !rollbackConfirmed
    if rollbackConfirmed ∧ error.errorClass = .programmingError ∧
        ¬ retryableSqlstate error.sqlstate then
      .contract cleanupFailed
    else .mutation {
      sqlstate := error.sqlstate
      safeToRetry := !outcomeUnknown && rollbackConfirmed &&
        ((!dispatched && retryable.contains error.errorClass) ||
          (dispatched && retryableSqlstate error.sqlstate))
      mutationDispatched := dispatched
      outcomeUnknown
      cleanupFailed }

/-- The steps of an attempt that can fail. -/
inductive Step where
  | getconn
  | cursor
  | begin
  | setConfig
  | call
  | fetch
  | cursorExit
  | commit
  | rollback
  | confirmation (n : ℕ)
  | close
  | putconn
  deriving DecidableEq

/-- Everything an attempt meets: the clock, the time zone of the session, the faults, whether a
COMMIT that fails has taken effect, and what the routine does when it is called. -/
structure Attempt where
  clock : ℕ → ℚ
  session : Zone
  fault : Step → Option Fault
  commitTook : Bool
  memory : Memory Database Sequence
  readings : Readings
  /-- How the driver presents an error of the routine. -/
  sqlFault : SqlError → Fault
  /-- The rows of the confirmation read. -/
  confirmation : List (Text × Option Text × Text × Text)

/-- The variables of an attempt, and what became of its COMMIT. -/
structure Locals (ρ : Type) where
  clockReads : ℕ := 0
  connectionAcquired : Bool := false
  transactionStarted : Bool := false
  dispatched : Bool := false
  bodyCompleted : Bool := false
  committed : Bool := false
  cleanupFailed : Bool := false
  unsafeDisposalFailed : Bool := false
  primaryError : Option Fault := none
  pendingError : Option GatewayError := none
  result : Option ρ := none
  commitSent : Bool := false
  commitTook : Bool := false

namespace Attempt

variable {ρ ε α : Type} (a : Attempt)

/-- A step outside the code. -/
def step (s : Step) : Statement (Locals ρ) Fault Unit :=
  match a.fault s with
  | none => return
  | some error => throw error

/-- `self._clock()`. -/
def now : Statement (Locals ρ) ε ℚ := do
  let s ← get
  modify fun s => { s with clockReads := s.clockReads + 1 }
  return a.clock s.clockReads

/-- `int(x)`, truncated towards zero. -/
def truncate (x : ℚ) : ℤ := if x < 0 then ⌈x⌉ else ⌊x⌋

/-- `int((deadline - self._clock()) * 1000)`. -/
def remainingMs (deadline : ℚ) : Statement (Locals ρ) ε ℤ := do
  return truncate ((deadline - (← a.now)) * 1000)

/-- `TimeoutError()`. -/
def timeoutError : Fault := { errorClass := .timeoutError }

/-- `DatabaseContractError()`. -/
def contractError : Fault := { errorClass := .databaseContractError }

/-- `if remaining_ms < 1: raise TimeoutError()`. -/
def requireMillisecond (deadline : ℚ) : Statement (Locals ρ) Fault Unit := do
  let remainingMs ← a.remainingMs deadline
  if remainingMs < 1 then throw timeoutError else return

/-- `with connection:` commits when the block ends and rolls back when it raises. A
rollback that fails is swallowed or replaces the exception. -/
def withConnection (block : Statement (Locals ρ) Fault Unit) : Statement (Locals ρ) Fault Unit := do
  match ← (block.outcome : Statement (Locals ρ) Fault _) with
  | .ok () => do
    modify fun s => { s with commitSent := true }
    match a.fault .commit with
    | none => modify fun s => { s with commitTook := true }
    | some error => do
      modify fun s => { s with commitTook := a.commitTook }
      throw error
  | .error error => do
    a.step .rollback
    throw error

/-- `with connection.cursor():`. -/
def withCursor (block : Statement (Locals ρ) Fault Unit) : Statement (Locals ρ) Fault Unit := do
  a.step .cursor
  block.always (a.step .cursorExit)

/-- `except Exception as operation_error: primary_error = operation_error; raise`. -/
def recording (block : Statement (Locals ρ) Fault Unit) : Statement (Locals ρ) Fault Unit :=
  block.except fun error => do
    modify fun s => { s with primaryError := some error }
    throw error

/-- `_close_unsafe`: whether closing the connection failed. -/
def closeUnsafe : Bool := (a.fault .close).isSome

/-- The branch that finds out what a failed transaction block leaves known. -/
def classify (retryable : List ErrorClass) (contextError : Fault) :
    Statement (Locals ρ) ε Unit :=
  modify fun s =>
    let primaryError := s.primaryError.getD contextError
    let rollbackConfirmed := !s.bodyCompleted && decide (contextError = primaryError)
    let cleanupFailed := s.cleanupFailed ||
      (!s.bodyCompleted && decide (contextError ≠ primaryError))
    let disposed := s.bodyCompleted || (s.dispatched && !rollbackConfirmed)
    let unsafeDisposalFailed := disposed && a.closeUnsafe
    let cleanupFailed := cleanupFailed || unsafeDisposalFailed
    { s with
      primaryError := some primaryError
      cleanupFailed
      unsafeDisposalFailed
      pendingError := some
        (translate retryable primaryError s.dispatched rollbackConfirmed cleanupFailed) }

/-- An exception that no clause has translated yet. -/
def raising (p : Statement (Locals ρ) Fault α) : Statement (Locals ρ) GatewayError α :=
  p.except fun error => throw (.fault error)

/-- `self._pool.putconn(connection)`; a failure is noted in the error or the result. -/
def putBack (markFailed : ρ → ρ) : Statement (Locals ρ) Fault Unit :=
  (a.step .putconn).except fun _ =>
    modify fun s => { s with
      cleanupFailed := true
      pendingError := s.pendingError.map GatewayError.withCleanupFailed
      result := if s.pendingError.isSome then s.result else s.result.map markFailed }

/-- The outer `try` of a gateway. It acquires a connection, uses it until a deadline, and
translates what no clause has translated yet. -/
def gateway (retryable : List ErrorClass) (rollbackConfirmed : Locals ρ → Bool)
    (use : ℚ → Statement (Locals ρ) Fault Unit) (acquireTimeoutSeconds : ℚ)
    (timeoutSeconds : Option ℚ) : Statement (Locals ρ) GatewayError ρ :=
  Statement.except (do
    let started ← a.now
    let deadline := started + timeoutSeconds.getD acquireTimeoutSeconds
    let remaining := deadline - (← a.now)
    raising (if remaining ≤ 0 then throw timeoutError else a.step .getconn)
    let _ ← a.now
    modify fun s => { s with connectionAcquired := true }
    raising (use deadline)
    let s ← get
    match s.pendingError, s.result with
    | some error, _ => throw error
    | none, some result => return result
    | none, none => throw (.fault { errorClass := .other }))
  fun
    | .fault error => do
      let s ← get
      throw (translate retryable error s.dispatched (rollbackConfirmed s) s.cleanupFailed)
    | error => throw error

end Attempt

section Certainty

variable {ρ ε : Type} {a : Attempt} {s : Locals ρ} {confirms : Prop}
  {dispatched rollbackConfirmed cleanupFailed : Bool}

/-- No COMMIT has been sent. -/
structure Locals.Uncommitted (s : Locals ρ) : Prop where
  commitSent : s.commitSent = false
  commitTook : s.commitTook = false

/-- Before the end of the transaction block. -/
structure Locals.Open (s : Locals ρ) : Prop extends s.Uncommitted where
  bodyCompleted : s.bodyCompleted = false
  pendingError : s.pendingError = none

/-- The transaction block has run to its end, with a result that satisfies `P`. -/
structure Locals.Ran (P : ρ → Prop) (s : Locals ρ) : Prop extends s.Uncommitted where
  bodyCompleted : s.bodyCompleted = true
  dispatched : s.dispatched = true
  pendingError : s.pendingError = none
  result : ∃ r, s.result = some r ∧ P r

/-- The transaction has committed, with a result that satisfies `P`. -/
structure Locals.Committed (P : ρ → Prop) (s : Locals ρ) : Prop where
  commitTook : s.commitTook = true
  pendingError : s.pendingError = none
  result : ∃ r, s.result = some r ∧ P r

/-- What an error says about the COMMIT is so; `confirms` tells whether the gateway reads a
confirmation. -/
def GatewayError.Truthful (confirms : Prop) (s : Locals ρ) : GatewayError → Prop
  | .fault _ => False
  | .contract _ => s.Uncommitted
  | .mutation error => (error.outcomeUnknown = false → s.Uncommitted) ∧
      (error.safeToRetry = true → error.outcomeUnknown = false)
  | .confirmation _ => confirms ∧ s.commitTook = true

/-- The attempt has committed and holds its result, or it knows its failure. -/
def Locals.Concluded (confirms : Prop) (P : ρ → Prop) (s : Locals ρ) : Prop :=
  s.Committed P ∨ ∃ e, s.pendingError = some e ∧ e.Truthful confirms s

/-- What an error says depends on the COMMIT alone. -/
theorem GatewayError.Truthful.congr {e : GatewayError} {s' : Locals ρ} (h : e.Truthful confirms s)
    (hsent : s'.commitSent = s.commitSent) (htook : s'.commitTook = s.commitTook) :
    e.Truthful confirms s' := by
  have huncommitted : s.Uncommitted → s'.Uncommitted := fun hs =>
    ⟨hsent.trans hs.commitSent, htook.trans hs.commitTook⟩
  cases e with
  | fault error => exact h
  | contract cleanupFailed => exact huncommitted h
  | mutation error => exact ⟨fun hknown => huncommitted (h.1 hknown), h.2⟩
  | confirmation cleanupFailed => exact ⟨h.1, htook.trans h.2⟩

theorem truthful_withCleanupFailed {e : GatewayError} (h : e.Truthful confirms s) :
    e.withCleanupFailed.Truthful confirms s := by
  cases e <;> exact h

/-- A translated failure is truthful if nothing was sent where the rollback is confirmed
or nothing was dispatched. -/
theorem truthful_translate {retryable : List ErrorClass} {error : Fault}
    (hrollback : rollbackConfirmed = true → s.Uncommitted)
    (hdispatched : dispatched = false → s.Uncommitted) :
    (translate retryable error dispatched rollbackConfirmed cleanupFailed).Truthful confirms s := by
  unfold translate
  split
  · next h => exact hrollback h.2
  split
  · next h => exact hrollback h.1
  constructor
  · intro hunknown
    cases hd : dispatched with
    | false => exact hdispatched hd
    | true => exact hrollback (by simpa [hd] using hunknown)
  · intro hsafe
    simp only [Bool.and_eq_true, Bool.not_eq_true'] at hsafe
    exact hsafe.1.1

theorem wp_step {st : Step} {Q : Unit → Locals ρ → Prop} {E : Fault → Locals ρ → Prop}
    (hQ : Q () s) (hE : ∀ e, E e s) : (a.step st : Statement (Locals ρ) Fault Unit).wp Q E s := by
  unfold Attempt.step
  cases a.fault st with
  | none => exact hQ
  | some e => exact hE e

theorem wp_now {Q : ℚ → Locals ρ → Prop} {E : ε → Locals ρ → Prop}
    (hQ : ∀ t, Q t { s with clockReads := s.clockReads + 1 }) :
    (a.now : Statement (Locals ρ) ε ℚ).wp Q E s := hQ _

theorem wp_requireMillisecond {deadline : ℚ} {Q : Unit → Locals ρ → Prop}
    {E : Fault → Locals ρ → Prop} (hQ : Q () { s with clockReads := s.clockReads + 1 })
    (hE : ∀ e, E e { s with clockReads := s.clockReads + 1 }) :
    (a.requireMillisecond deadline).wp Q E s := by
  unfold Attempt.requireMillisecond Attempt.remainingMs
  rw [wp_bind, wp_bind]
  refine wp_now fun t => wp_pure.mpr ?_
  split
  · exact hE _
  · exact hQ

/-- The cursor is closed however its block ends. -/
theorem wp_withCursor {block : Statement (Locals ρ) Fault Unit} {Q : Unit → Locals ρ → Prop}
    {E : Fault → Locals ρ → Prop}
    (h : block.wp (fun _ s' => Q () s' ∧ ∀ e, E e s') (fun _ s' => ∀ e, E e s') s)
    (hE : ∀ e, E e s) : (a.withCursor block).wp Q E s := by
  unfold Attempt.withCursor
  refine wp_bind.mpr (wp_step (wp_always.mpr (wp_mono h (fun _ s' hs => ?_) fun e s' hs => ?_)) hE)
  · exact wp_step hs.1 hs.2
  · exact wp_step (hs e) hs

variable {P : ρ → Prop} {block : Statement (Locals ρ) Fault Unit}

theorem wp_recording {Q : Unit → Locals ρ → Prop} (h : block.wp Q (fun _ s' => s'.Open) s) :
    (Attempt.recording block).wp Q (fun _ s' => s'.Open) s := by
  unfold Attempt.recording
  refine wp_except.mpr (wp_mono h (fun _ _ hq => hq) fun e s' hs => ?_)
  exact ⟨⟨hs.commitSent, hs.commitTook⟩, hs.bodyCompleted, hs.pendingError⟩

/-- COMMIT is sent only after a block that has run to its end. -/
theorem wp_withConnection (h : block.wp (fun _ s' => s'.Ran P) (fun _ s' => s'.Open) s) :
    (a.withConnection block).wp
      (fun _ s' => s'.Committed P)
      (fun _ s' => s'.Open ∨ (s'.bodyCompleted = true ∧ s'.dispatched = true)) s := by
  unfold Attempt.withConnection
  rw [wp_bind, wp_outcome]
  refine wp_mono h (fun _ s' hs => ?_) fun e s' hs => ?_
  · simp only [wp_bind, wp_modify]
    cases a.fault .commit with
    | none => exact ⟨rfl, hs.pendingError, hs.result⟩
    | some error => exact .inr ⟨hs.bodyCompleted, hs.dispatched⟩
  · exact wp_bind.mpr (wp_step (.inl hs) fun _ => .inl hs)

/-- The failure of a transaction block is translated truthfully. -/
theorem wp_classify {retryable : List ErrorClass} {error : Fault} {E : ε → Locals ρ → Prop}
    (hs : s.Open ∨ (s.bodyCompleted = true ∧ s.dispatched = true)) :
    (a.classify retryable error).wp (fun _ s' => s'.Concluded confirms P) E s := by
  refine .inr ⟨_, rfl, truthful_translate (fun hrollback => ?_) fun hdispatched => ?_⟩
  · rcases hs with hs | ⟨hbody, -⟩
    · exact ⟨hs.commitSent, hs.commitTook⟩
    · simp [hbody] at hrollback
  · rcases hs with hs | ⟨-, hd⟩
    · exact ⟨hs.commitSent, hs.commitTook⟩
    · simp [hd] at hdispatched

theorem wp_putBack {markFailed : ρ → ρ} (hP : ∀ r, P r → P (markFailed r)) (hs : s.Concluded confirms P) :
    (a.putBack markFailed).wp (fun _ s' => s'.Concluded confirms P) (fun _ _ => False) s := by
  unfold Attempt.putBack
  refine wp_except.mpr (wp_step hs fun error => ?_)
  rcases hs with ⟨htook, hpending, r, hr, h⟩ | ⟨e, hpending, he⟩
  · refine .inl ⟨htook, ?_, markFailed r, ?_, hP r h⟩
    · simp only [hpending, Option.map_none]
    · simp only [hpending, hr, Option.isSome_none, Bool.false_eq_true, if_false, Option.map_some]
  · refine .inr ⟨e.withCleanupFailed, ?_, (truthful_withCleanupFailed he).congr rfl rfl⟩
    simp only [hpending, Option.map_some]

/-- An attempt that returns has committed; one that raises tells the truth about its
COMMIT. -/
theorem wp_gateway {retryable : List ErrorClass} {rollbackConfirmed : Locals ρ → Bool}
    {use : ℚ → Statement (Locals ρ) Fault Unit} {acquireTimeoutSeconds : ℚ}
    {timeoutSeconds : Option ℚ}
    (huse : ∀ deadline s', s'.Open → (use deadline).wp (fun _ s' => s'.Concluded confirms P)
      (fun _ _ => False) s') (hs : s.Open) :
    (a.gateway retryable rollbackConfirmed use acquireTimeoutSeconds timeoutSeconds).wp
      (fun r s' => s'.commitTook = true ∧ P r) (fun e s' => e.Truthful confirms s') s := by
  unfold Attempt.gateway Attempt.raising
  refine wp_except.mpr (wp_bind.mpr (wp_now fun started => ?_))
  set deadline := started + timeoutSeconds.getD acquireTimeoutSeconds
  refine wp_bind.mpr (wp_now fun t => wp_bind.mpr (wp_except.mpr ?_))
  have early : ∀ (e : Fault) {s' : Locals ρ}, s'.Uncommitted →
      (translate retryable e s'.dispatched (rollbackConfirmed s') s'.cleanupFailed).Truthful confirms s' :=
    fun e s' hs' => truthful_translate (fun _ => hs') fun _ => hs'
  have hun : ({ s with clockReads := s.clockReads + 1 + 1 } : Locals ρ).Uncommitted :=
    ⟨hs.commitSent, hs.commitTook⟩
  split
  · exact early _ hun
  refine wp_step (wp_bind.mpr (wp_now fun acquired => wp_bind.mpr (wp_modify.mpr ?_)))
    fun e => early e hun
  refine wp_bind.mpr (wp_except.mpr (wp_mono (huse deadline _ ?_) ?_ fun e s' h => h.elim))
  · exact ⟨⟨hs.commitSent, hs.commitTook⟩, hs.bodyCompleted, hs.pendingError⟩
  rintro - s' (⟨htook, hpending, r, hr, hP⟩ | ⟨e, hpending, he⟩)
  · refine wp_bind.mpr (wp_get.mpr ?_)
    simp only [hpending, hr]
    exact ⟨htook, hP⟩
  · refine wp_bind.mpr (wp_get.mpr ?_)
    simp only [hpending]
    cases e with
    | fault error => exact he.elim
    | _ => exact he

end Certainty

end CafeFausse.Backend
