import CafeFausse.Backend.Retry

/-! # The history of a retried call

A call of `execute_with_retry` beside a record of its attempts. The record changes nothing,
and it shows what every call does: the attempts are numbered, limited and timed, one follows
another only after an eligible failure and in time, and the last one decides how the call ends.
-/

namespace CafeFausse.Backend

open Statement

/-- One attempt: the reading of the clock before it, the time it was given, and its end. -/
structure RetryAttempt (ε α : Type) where
  number : ℕ
  reading : ℚ
  remaining : ℚ
  outcome : Except (RetryError ε) α

/-- The attempt failed, and its failure is eligible for a retry. -/
def RetryAttempt.Retriable {ε α : Type} (x : RetryAttempt ε α) (exc : AttemptFailure) : Prop :=
  x.outcome = .error (.failure exc) ∧ exc.eligible = true

/-- The variables of a call, the last reading of the clock and the attempts so far. -/
structure RetryRecord (σ ε α : Type) where
  state : σ
  reading : ℚ := 0
  attempts : List (RetryAttempt ε α) := []

namespace Retry

variable {σ ε α : Type} (r : Retry σ ε α)

/-- An action on the variables, beside the record. -/
def beside {β : Type} (action : StateM σ β) : StateM (RetryRecord σ ε α) β := fun s =>
  ((StateT.run action s.state).1, { s with state := (StateT.run action s.state).2 })

/-- The same call, which records its attempts. -/
def recorded : Retry (RetryRecord σ ε α) ε α where
  operation number remaining := ExceptT.mk fun s =>
    let (outcome, state) := (r.operation number remaining).execute s.state
    (outcome, { s with
      state
      attempts := s.attempts ++ [⟨number, s.reading, remaining, outcome⟩] })
  deadlineMs := r.deadlineMs
  policy := r.policy
  monotonic := do
    let reading ← beside r.monotonic
    modify fun s => { s with reading }
    return reading
  sleeper seconds := beside (r.sleeper seconds)
  uniform a b := beside (r.uniform a b)

section Erasure

/-- With the record left out, the statement does the same. -/
def Erases {β ε' : Type} (p : Statement (RetryRecord σ ε α) ε' β) (q : Statement σ ε' β) : Prop :=
  ∀ s, (p.execute s).1 = (q.execute s.state).1 ∧
    (p.execute s).2.state = (q.execute s.state).2

variable {β γ ε' : Type}

theorem erases_pure {b : β} :
    Erases (pure b : Statement (RetryRecord σ ε α) ε' β) (pure b) := fun _ => ⟨rfl, rfl⟩

theorem erases_throw {e : ε'} :
    Erases (throw e : Statement (RetryRecord σ ε α) ε' β) (throw e) := fun _ => ⟨rfl, rfl⟩

theorem erases_ite {c : Prop} [Decidable c] {p p' : Statement (RetryRecord σ ε α) ε' β}
    {q q' : Statement σ ε' β} (h : c → Erases p q) (h' : ¬ c → Erases p' q') :
    Erases (if c then p else p') (if c then q else q') := by
  split
  · next hc => exact h hc
  · next hc => exact h' hc

theorem erases_dite {c : Prop} [Decidable c] {p : c → Statement (RetryRecord σ ε α) ε' β}
    {p' : ¬ c → Statement (RetryRecord σ ε α) ε' β} {q : c → Statement σ ε' β}
    {q' : ¬ c → Statement σ ε' β} (h : ∀ hc, Erases (p hc) (q hc))
    (h' : ∀ hc, Erases (p' hc) (q' hc)) : Erases (dite c p p') (dite c q q') := by
  split
  · next hc => exact h hc
  · next hc => exact h' hc

theorem erases_bind {p : Statement (RetryRecord σ ε α) ε' β} {q : Statement σ ε' β}
    {f : β → Statement (RetryRecord σ ε α) ε' γ} {g : β → Statement σ ε' γ} (hp : Erases p q)
    (hf : ∀ b, Erases (f b) (g b)) : Erases (p >>= f) (q >>= g) := by
  intro s
  obtain ⟨hvalue, hstate⟩ := hp s
  rw [execute_bind, execute_bind]
  cases hs : p.execute s with
  | mk x s' =>
    cases ht : q.execute s.state with
    | mk y t' =>
      rw [hs, ht] at hvalue hstate
      simp only at hvalue hstate
      subst hvalue hstate
      cases x with
      | ok b => exact hf b s'
      | error e => exact ⟨rfl, rfl⟩

theorem erases_outcome {ε'' : Type} {p : Statement (RetryRecord σ ε α) ε' β}
    {q : Statement σ ε' β} (hp : Erases p q) :
    Erases (p.outcome : Statement (RetryRecord σ ε α) ε'' _) q.outcome := by
  intro s
  rw [execute_outcome, execute_outcome, (hp s).1]
  exact ⟨rfl, (hp s).2⟩

theorem erases_beside {action : StateM σ β} :
    Erases (perform (beside action) : Statement (RetryRecord σ ε α) ε' β) (perform action) :=
  fun _ => ⟨rfl, rfl⟩

theorem erases_monotonic :
    Erases (perform r.recorded.monotonic : Statement _ ε' ℚ) (perform r.monotonic) :=
  fun _ => ⟨rfl, rfl⟩

theorem erases_operation {number : ℕ} {remaining : ℚ} :
    Erases (r.recorded.operation number remaining) (r.operation number remaining) :=
  fun _ => ⟨rfl, rfl⟩

theorem erases_delay {deadline : ℚ} {attempt : ℕ} {exc : AttemptFailure} :
    Erases (r.recorded.delay deadline attempt exc) (r.delay deadline attempt exc) := by
  unfold delay remainingMs
  refine erases_bind erases_beside fun jitter => ?_
  refine erases_bind (erases_bind r.erases_monotonic fun _ => erases_pure) fun remainingMs => ?_
  refine erases_ite (fun _ => erases_throw) fun _ => ?_
  refine erases_bind erases_beside fun _ => ?_
  refine erases_bind (erases_bind r.erases_monotonic fun _ => erases_pure) fun postSleepMs => ?_
  exact erases_ite (fun _ => erases_throw) fun _ => erases_pure

theorem erases_loop {deadline : ℚ} {attempt : ℕ} {guardFailure : Option AttemptFailure} :
    Erases (r.recorded.loop deadline attempt guardFailure) (r.loop deadline attempt guardFailure) := by
  induction hn : (r.policy.maxAttempts - attempt).toNat using Nat.strong_induction_on
    generalizing attempt guardFailure with
  | _ n ih =>
  unfold loop remaining
  refine erases_bind (erases_bind r.erases_monotonic fun _ => erases_pure) fun remaining => ?_
  refine erases_ite (fun _ => ?_) fun _ => ?_
  · cases guardFailure with
    | none => exact erases_throw
    | some failure => exact erases_throw
  · refine erases_bind (erases_outcome r.erases_operation) fun outcome => ?_
    cases outcome with
    | ok result => exact erases_pure
    | error e =>
      cases e with
      | failure exc =>
        refine erases_dite (fun _ => erases_throw) fun h => ?_
        simp only [not_or, not_le] at h
        refine erases_bind r.erases_delay fun _ => ih _ ?_ rfl
        have := h.2
        simp only [recorded] at this
        omega
      | _ => exact erases_throw

theorem erases_executeWithRetry :
    Erases r.recorded.executeWithRetry r.executeWithRetry := by
  unfold executeWithRetry
  refine erases_ite (fun _ => erases_throw) fun _ => ?_
  exact erases_bind r.erases_monotonic fun _ => r.erases_loop

end Erasure

section History

variable {deadline : ℚ} {attempts : List (RetryAttempt ε α)} {x : RetryAttempt ε α}

/-- A record of attempts as the policy and the deadline allow them. -/
structure Orderly (r : Retry σ ε α) (deadline : ℚ) (attempts : List (RetryAttempt ε α)) :
    Prop where
  numbered : ∀ i x, attempts[i]? = some x → x.number = i + 1
  timed : ∀ x ∈ attempts, x.remaining = max 0 (deadline - x.reading)
  performed : ∀ x ∈ attempts, ∃ state,
    ((r.operation x.number x.remaining).execute state).1 = x.outcome
  retried : ∀ i x y, attempts[i]? = some x → attempts[i + 1]? = some y →
    (∃ exc, x.Retriable exc) ∧ (r.policy.minRemainingMs : ℚ) ≤ y.remaining * 1000
  limited : (attempts.length : ℤ) ≤ r.policy.maxAttempts

theorem orderly_nil (h : 1 ≤ r.policy.maxAttempts) : r.Orderly deadline ([] : List (RetryAttempt ε α)) where
  numbered i x hx := by simp at hx
  timed x hx := by simp at hx
  performed x hx := by simp at hx
  retried i x y hx := by simp at hx
  limited := by
    rw [List.length_nil]
    omega

/-- One more attempt, right after an eligible failure and in time, or the first of all. -/
theorem Orderly.snoc {r : Retry σ ε α} (h : r.Orderly deadline attempts)
    (hnumber : x.number = attempts.length + 1)
    (htime : x.remaining = max 0 (deadline - x.reading))
    (hperformed : ∃ state, ((r.operation x.number x.remaining).execute state).1 = x.outcome)
    (hretry : ∀ last, attempts.getLast? = some last →
      (∃ exc, last.Retriable exc) ∧ (r.policy.minRemainingMs : ℚ) ≤ x.remaining * 1000)
    (hlimit : (attempts.length : ℤ) < r.policy.maxAttempts) :
    r.Orderly deadline (attempts ++ [x]) where
  numbered i y hy := by
    rcases lt_or_ge i attempts.length with hi | hi
    · rw [List.getElem?_append_left hi] at hy
      exact h.numbered i y hy
    · rw [List.getElem?_append_right hi, List.getElem?_singleton] at hy
      split at hy
      · cases hy
        omega
      · cases hy
  timed y hy := by
    rcases List.mem_append.mp hy with hy | hy
    · exact h.timed y hy
    · rw [List.mem_singleton.mp hy]
      exact htime
  performed y hy := by
    rcases List.mem_append.mp hy with hy | hy
    · exact h.performed y hy
    · rw [List.mem_singleton.mp hy]
      exact hperformed
  retried i y z hy hz := by
    rcases lt_or_ge (i + 1) attempts.length with hi | hi
    · rw [List.getElem?_append_left (by omega)] at hy
      rw [List.getElem?_append_left hi] at hz
      exact h.retried i y z hy hz
    · rw [List.getElem?_append_right hi, List.getElem?_singleton] at hz
      split at hz
      · next hlast =>
        cases hz
        rw [List.getElem?_append_left (by omega)] at hy
        refine hretry y ?_
        rw [List.getLast?_eq_getElem?, show attempts.length - 1 = i by omega]
        exact hy
      · cases hz
  limited := by
    rw [List.length_append, List.length_singleton]
    push_cast
    omega

/-- The record is orderly and its last attempt ended as the call does. -/
def Decided (r : Retry σ ε α) (deadline : ℚ) (outcome : Except (RetryError ε) α)
    (s : RetryRecord σ ε α) : Prop :=
  r.Orderly deadline s.attempts ∧ ∃ last, s.attempts.getLast? = some last ∧ last.outcome = outcome

/-- The clock, the sleeper and the jitter leave the attempts alone. -/
theorem keeps_attempts : r.recorded.Keeps fun s => s.attempts = attempts :=
  ⟨fun _ h => h, fun _ _ h => h, fun _ _ _ h => h⟩

/-- An attempt that may start ends as the record says. -/
theorem wp_recorded_operation {number : ℕ} {remaining : ℚ} {s : RetryRecord σ ε α}
    (h : ∀ outcome, (∃ state, ((r.operation number remaining).execute state).1 = outcome) →
      r.Orderly deadline (s.attempts ++ [⟨number, s.reading, remaining, outcome⟩])) :
    (r.recorded.operation number remaining).wp
      (fun a s' => r.Decided deadline (.ok a) s' ∧ s'.attempts.length = s.attempts.length + 1)
      (fun e s' => r.Decided deadline (.error e) s' ∧
        s'.attempts.length = s.attempts.length + 1) s := by
  have hdecided (outcome : Except (RetryError ε) α) (state : σ)
      (houtcome : ((r.operation number remaining).execute s.state).1 = outcome) :
      r.Decided deadline outcome { s with
        state, attempts := s.attempts ++ [⟨number, s.reading, remaining, outcome⟩] } :=
    ⟨h outcome ⟨_, houtcome⟩, _, List.getLast?_concat, rfl⟩
  refine wp_iff.mpr ⟨fun a s' hs' => ?_, fun e s' hs' => ?_⟩
  · obtain ⟨houtcome, rfl⟩ := Prod.mk.inj hs'
    rw [houtcome]
    exact ⟨hdecided _ _ houtcome, List.length_append⟩
  · obtain ⟨houtcome, rfl⟩ := Prod.mk.inj hs'
    rw [houtcome]
    exact ⟨hdecided _ _ houtcome, List.length_append⟩

theorem wp_recorded_loop {attempt : ℕ} {guardFailure : Option AttemptFailure}
    {s : RetryRecord σ ε α} (hs : r.Orderly deadline s.attempts)
    (hattempt : attempt = s.attempts.length + 1) (hlimit : attempt ≤ r.policy.maxAttempts)
    (hguard : ∀ last, s.attempts.getLast? = some last →
      ∃ exc, guardFailure = some exc ∧ last.Retriable exc) :
    (r.recorded.loop deadline attempt guardFailure).wp (fun a => r.Decided deadline (.ok a))
      (fun e => r.Decided deadline (.error e)) s := by
  induction hn : (r.policy.maxAttempts - attempt).toNat using Nat.strong_induction_on
    generalizing attempt guardFailure s with
  | _ n ih =>
  unfold loop remaining
  refine wp_bind.mpr (wp_bind.mpr (wp_perform.mpr (wp_pure.mpr ?_)))
  -- the record after the look at the clock
  set s' := (StateT.run r.recorded.monotonic s).2 with hs'
  have hattempts : s'.attempts = s.attempts := r.keeps_attempts.monotonic s rfl
  have hreading : (StateT.run r.recorded.monotonic s).1 = s'.reading := rfl
  rw [hreading]
  split
  · next hlate =>
    -- only a later attempt can come too late, and it has a failure to raise
    obtain ⟨last, hlast⟩ : ∃ last, s.attempts.getLast? = some last := by
      cases hnil : s.attempts.getLast? with
      | some last => exact ⟨last, rfl⟩
      | none =>
        rw [List.getLast?_eq_none_iff.mp hnil] at hattempt
        exact absurd hlate.1 (by simp [hattempt])
    obtain ⟨exc, rfl, houtcome, -⟩ := hguard last hlast
    exact ⟨hattempts ▸ hs, last, hattempts ▸ hlast, houtcome⟩
  · next hontime =>
    have horderly (outcome : Except (RetryError ε) α)
        (houtcome : ∃ state, ((r.operation attempt (max 0 (deadline - s'.reading))).execute
          state).1 = outcome) : r.Orderly deadline
        (s'.attempts ++ [⟨attempt, s'.reading, max 0 (deadline - s'.reading), outcome⟩]) := by
      rw [hattempts]
      refine hs.snoc hattempt rfl houtcome (fun last hlast => ?_) (by omega)
      obtain ⟨exc, -, hretriable⟩ := hguard last hlast
      refine ⟨⟨exc, hretriable⟩, ?_⟩
      rw [not_and, not_lt] at hontime
      refine hontime ?_
      rw [hattempt, lt_add_iff_pos_left, List.length_pos_iff]
      rintro hnil
      rw [hnil] at hlast
      cases hlast
    refine wp_bind.mpr (wp_outcome.mpr (wp_mono (r.wp_recorded_operation horderly)
      (fun a s'' h => h.1) ?_))
    rintro e s'' ⟨hdecided, hlength⟩
    cases e with
    | failure exc =>
      simp only
      split
      · exact hdecided
      · next h =>
        simp only [not_or, Bool.not_eq_false, not_le] at h
        obtain ⟨horder, last, hlast, houtcome⟩ := hdecided
        refine wp_bind.mpr (wp_mono (wp_delay (keeps_attempts r) rfl) ?_ ?_)
        · rintro - t ht
          have hlen : s''.attempts.length = attempt := by rw [hlength, hattempts, hattempt]
          refine ih _ ?_ (ht ▸ horder) (by rw [ht, hlen]) ?_ ?_ rfl
          · have := h.2
            simp only [recorded] at this
            omega
          · have := h.2
            simp only [recorded] at this
            omega
          · rintro y hy
            rw [ht, hlast] at hy
            cases hy
            exact ⟨exc, rfl, houtcome, h.1⟩
        · rintro _ t ⟨rfl, ht⟩
          exact ⟨ht ▸ horder, last, ht ▸ hlast, houtcome⟩
    | _ => exact hdecided

/-- The attempts of a call are orderly and the last one decides it; the two errors of
`execute_with_retry` itself are raised only where an attempt raised them. -/
theorem retries_bounded
    (hpolicy : 1 ≤ r.policy.maxAttempts ∧ r.policy.maxAttempts ≤ 3) (s : σ) :
    ∃ outcome record,
      r.recorded.executeWithRetry.execute { state := s } = (outcome, record) ∧
      r.executeWithRetry.execute s = (outcome, record.state) ∧
      r.Orderly ((StateT.run r.monotonic s).1 + r.deadlineMs / 1000) record.attempts ∧
      (∃ last, record.attempts.getLast? = some last ∧ last.outcome = outcome) ∧
      ((∀ number remaining t,
          ((r.operation number remaining).execute t).1 ≠ .error .lostFailureContext) →
        outcome ≠ .error .lostFailureContext) := by
  obtain ⟨hvalue, hstate⟩ := r.erases_executeWithRetry { state := s }
  have hdecided : r.recorded.executeWithRetry.wp
      (fun a => r.Decided ((StateT.run r.monotonic s).1 + r.deadlineMs / 1000) (.ok a))
      (fun e => r.Decided ((StateT.run r.monotonic s).1 + r.deadlineMs / 1000) (.error e))
      { state := s } := by
    unfold executeWithRetry
    split
    · next hrange => exact absurd hpolicy hrange
    · refine wp_bind.mpr (wp_perform.mpr ?_)
      refine r.wp_recorded_loop (r.orderly_nil hpolicy.1) rfl (mod_cast hpolicy.1) ?_
      rintro last hlast
      cases hlast
  generalize hrecorded : r.recorded.executeWithRetry.execute { state := s } = result at *
  obtain ⟨outcome, record⟩ := result
  have hend : r.Decided ((StateT.run r.monotonic s).1 + r.deadlineMs / 1000) outcome record := by
    cases outcome with
    | ok a => exact (wp_iff.mp hdecided).1 a record hrecorded
    | error e => exact (wp_iff.mp hdecided).2 e record hrecorded
  obtain ⟨horderly, last, hlast, houtcome⟩ := hend
  refine ⟨outcome, record, rfl, ?_, horderly, ⟨last, hlast, houtcome⟩, fun hoperation => ?_⟩
  · exact Prod.ext hvalue.symm hstate.symm
  · obtain ⟨t, ht⟩ := horderly.performed last (List.mem_of_getLast? hlast)
    rw [← houtcome, ← ht]
    exact hoperation _ _ t

/-- A lock timeout on the first attempt, an answer on the second, and a clock that runs. -/
def lockTimeoutOnce : Retry ℕ Unit ℕ where
  operation number _ :=
    if number = 1 then throw (.failure ⟨some "55P03", true, true, false⟩) else return number
  deadlineMs := 5000
  policy := ⟨2, 50, 200, 1 / 5, 100⟩
  monotonic now := (now / 1000, now + 1)
  sleeper seconds now := ((), now + (seconds * 1000).ceil.toNat)
  uniform _ _ now := (1, now)

theorem retries_bounded_lock_timeout : ∃ outcome record,
    lockTimeoutOnce.recorded.executeWithRetry.execute { state := 0 } = (outcome, record) ∧
    lockTimeoutOnce.executeWithRetry.execute 0 = (outcome, record.state) ∧
    lockTimeoutOnce.Orderly ((StateT.run lockTimeoutOnce.monotonic 0).1 +
      lockTimeoutOnce.deadlineMs / 1000) record.attempts ∧
    (∃ last, record.attempts.getLast? = some last ∧ last.outcome = outcome) ∧
    ((∀ number remaining t, ((lockTimeoutOnce.operation number remaining).execute t).1 ≠
        .error .lostFailureContext) →
      outcome ≠ .error .lostFailureContext) :=
  retries_bounded lockTimeoutOnce ⟨by decide, by decide⟩ 0

end History

end Retry

end CafeFausse.Backend
