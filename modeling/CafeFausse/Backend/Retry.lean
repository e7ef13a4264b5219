import CafeFausse.Backend.Statements

/-! # Bounded retries

`execute_with_retry`: the operation is called again while it fails with a failure that is
eligible for a retry, attempts are left and the deadline leaves enough time. The clock,
the sleeper and the jitter are parameters that change the variables as they like.
-/

namespace CafeFausse.Backend

open Statement

/-- `RetryPolicy`. -/
structure RetryPolicy where
  maxAttempts : ℤ
  baseDelayMs : ℤ
  capDelayMs : ℤ
  jitterRatio : ℚ
  minRemainingMs : ℤ

/-- `AttemptFailure`. -/
structure AttemptFailure where
  sqlstate : Option String
  safeToRetry : Bool
  mutationDispatched : Bool
  outcomeUnknown : Bool
  deriving DecidableEq

/-- `_APPROVED_SQLSTATES`. -/
def approvedSqlstates : List String := ["55P03", "40P01", "40001"]

/-- `AttemptFailure.eligible`. -/
def AttemptFailure.eligible (e : AttemptFailure) : Bool :=
  if !e.safeToRetry || e.outcomeUnknown then false
  else if e.mutationDispatched then e.sqlstate.any approvedSqlstates.contains
  else e.sqlstate.all fun state => approvedSqlstates.contains state || state.startsWith "08"

/-- What leaves `execute_with_retry`: an exception of the operation, or one of its own. -/
inductive RetryError (ε : Type) where
  | failure (e : AttemptFailure)
  | other (e : ε)
  | attemptsOutOfRange
  | lostFailureContext
  deriving DecidableEq

/-- The arguments of `execute_with_retry`, over variables `σ`. -/
structure Retry (σ ε α : Type) where
  operation : ℕ → ℚ → Statement σ (RetryError ε) α
  deadlineMs : ℤ
  policy : RetryPolicy
  monotonic : StateM σ ℚ
  sleeper : ℚ → StateM σ Unit
  uniform : ℚ → ℚ → StateM σ ℚ

namespace Retry

variable {σ ε α : Type} (r : Retry σ ε α)

/-- `nominal_ms`. -/
def nominalMs (attempt : ℕ) : ℤ :=
  min r.policy.capDelayMs (r.policy.baseDelayMs * 2 ^ (attempt - 1))

/-- `(deadline - monotonic()) * 1000`. -/
def remainingMs (deadline : ℚ) : Statement σ (RetryError ε) ℚ := do
  return (deadline - (← perform r.monotonic)) * 1000

/-- The time that an attempt is given. -/
def remaining (deadline : ℚ) : Statement σ (RetryError ε) ℚ := do
  return max 0 (deadline - (← perform r.monotonic))

/-- What follows a failure that is eligible: the delay, unless the deadline is too close. -/
def delay (deadline : ℚ) (attempt : ℕ) (exc : AttemptFailure) :
    Statement σ (RetryError ε) Unit := do
  let jitter ← perform (r.uniform (1 - r.policy.jitterRatio) (1 + r.policy.jitterRatio))
  let delayMs := r.nominalMs attempt * jitter
  let remainingMs ← r.remainingMs deadline
  if remainingMs - delayMs < r.policy.minRemainingMs then throw (.failure exc)
  else
    perform (r.sleeper (delayMs / 1000))
    let postSleepRemainingMs ← r.remainingMs deadline
    if postSleepRemainingMs < r.policy.minRemainingMs then throw (.failure exc) else return

/-- The body of the `while` loop from an attempt on. -/
def loop (deadline : ℚ) (attempt : ℕ) (guardFailure : Option AttemptFailure) :
    Statement σ (RetryError ε) α := do
  let remaining ← r.remaining deadline
  if 1 < attempt ∧ remaining * 1000 < r.policy.minRemainingMs then
    match guardFailure with
    | none => throw .lostFailureContext
    | some failure => throw (.failure failure)
  else
    match ← (r.operation attempt remaining).outcome with
    | .ok result => return result
    | .error (.failure exc) =>
      if h : exc.eligible = false ∨ r.policy.maxAttempts ≤ attempt then throw (.failure exc)
      else
        r.delay deadline attempt exc
        loop deadline (attempt + 1) (some exc)
    | .error e => throw e
termination_by (r.policy.maxAttempts - attempt).toNat
decreasing_by omega

/-- `execute_with_retry`. -/
def executeWithRetry : Statement σ (RetryError ε) α := do
  if ¬ (1 ≤ r.policy.maxAttempts ∧ r.policy.maxAttempts ≤ 3) then throw .attemptsOutOfRange
  else
    let deadline := (← perform r.monotonic) + r.deadlineMs / 1000
    r.loop deadline 1 none

section Spec

variable {r} {I : σ → Prop} {Q : α → σ → Prop} {E : RetryError ε → σ → Prop} {s : σ}

/-- The clock, the sleeper and the jitter keep `P`. -/
structure Keeps (r : Retry σ ε α) (P : σ → Prop) : Prop where
  monotonic : ∀ s, P s → P (StateT.run r.monotonic s).2
  sleeper : ∀ seconds s, P s → P (StateT.run (r.sleeper seconds) s).2
  uniform : ∀ a b s, P s → P (StateT.run (r.uniform a b) s).2

theorem Keeps.and {P P' : σ → Prop} (h : r.Keeps P) (h' : r.Keeps P') :
    r.Keeps fun s => P s ∧ P' s :=
  ⟨fun s hs => ⟨h.monotonic s hs.1, h'.monotonic s hs.2⟩,
    fun x s hs => ⟨h.sleeper x s hs.1, h'.sleeper x s hs.2⟩,
    fun a b s hs => ⟨h.uniform a b s hs.1, h'.uniform a b s hs.2⟩⟩

theorem wp_delay {P : σ → Prop} {deadline : ℚ} {attempt : ℕ} {exc : AttemptFailure}
    (hP : r.Keeps P) (hs : P s) :
    (r.delay deadline attempt exc).wp (fun _ s' => P s') (fun e s' => e = .failure exc ∧ P s') s := by
  unfold delay remainingMs
  refine wp_bind.mpr (wp_perform.mpr (wp_bind.mpr (wp_bind.mpr (wp_perform.mpr ?_))))
  have hs' := hP.monotonic _ (hP.uniform (1 - r.policy.jitterRatio) (1 + r.policy.jitterRatio) s hs)
  refine wp_pure.mpr ?_
  split
  · exact ⟨rfl, hs'⟩
  · refine wp_bind.mpr (wp_perform.mpr (wp_bind.mpr (wp_bind.mpr (wp_perform.mpr ?_))))
    refine wp_pure.mpr ?_
    split
    · exact ⟨rfl, hP.monotonic _ (hP.sleeper _ _ hs')⟩
    · exact hP.monotonic _ (hP.sleeper _ _ hs')

/-- What holds before every attempt and after every eligible failure is what the loop
relies on; an error of the operation leaves as it is. -/
theorem wp_loop {deadline : ℚ} {attempt : ℕ} {guardFailure : Option AttemptFailure}
    (hI : r.Keeps I) (hE : ∀ exc, r.Keeps (E (.failure exc)))
    (hoperation : ∀ n remaining s, I s → (r.operation n remaining).wp Q
      (fun e s' => E e s' ∧ ∀ exc, e = .failure exc → exc.eligible = true → I s') s)
    (hguard : 1 < attempt → guardFailure.isSome = true) (hs : I s)
    (hfailure : ∀ exc ∈ guardFailure, E (.failure exc) s) :
    (r.loop deadline attempt guardFailure).wp Q E s := by
  induction hn : (r.policy.maxAttempts - attempt).toNat using Nat.strong_induction_on
    generalizing attempt guardFailure s with
  | _ n ih =>
  unfold loop remaining
  refine wp_bind.mpr (wp_bind.mpr (wp_perform.mpr (wp_pure.mpr ?_)))
  split
  · next hlate =>
    cases guardFailure with
    | none => simp at hguard; omega
    | some exc => exact (hE exc).monotonic _ (hfailure exc rfl)
  · refine wp_bind.mpr (wp_outcome.mpr (wp_mono
      (hoperation attempt _ _ (hI.monotonic _ hs)) (fun _ _ hq => hq) ?_))
    rintro e s' ⟨he, hretry⟩
    cases e with
    | failure exc =>
      simp only
      split
      · exact he
      · next h =>
        simp only [not_or, Bool.not_eq_false, not_le] at h
        refine wp_bind.mpr (wp_mono (wp_delay (hI.and (hE exc)) ⟨hretry exc rfl h.1, he⟩) ?_ ?_)
        · rintro - s'' ⟨hI', hE'⟩
          refine ih _ ?_ (fun _ => rfl) hI' ?_ rfl
          · omega
          · rintro _ ⟨⟩
            exact hE'
        · rintro _ s'' ⟨rfl, -, hE'⟩
          exact hE'
    | _ => exact he

/-- The rule for bounded retries. -/
theorem wp_executeWithRetry (hI : r.Keeps I) (hE : ∀ exc, r.Keeps (E (.failure exc)))
    (hoperation : ∀ n remaining s, I s → (r.operation n remaining).wp Q
      (fun e s' => E e s' ∧ ∀ exc, e = .failure exc → exc.eligible = true → I s') s)
    (hrange : E .attemptsOutOfRange s) (hs : I s) : r.executeWithRetry.wp Q E s := by
  unfold executeWithRetry
  split
  · exact hrange
  · refine wp_bind.mpr (wp_perform.mpr ?_)
    exact wp_loop hI hE hoperation (fun h => absurd h (lt_irrefl 1)) (hI.monotonic s hs) nofun

end Spec

end Retry

end CafeFausse.Backend
