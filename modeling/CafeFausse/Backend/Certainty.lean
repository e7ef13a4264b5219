import CafeFausse.Backend.Services
import CafeFausse.Routines.Unusable

/-! # Reported certainty

What a mutation service reports about its transaction is so, whichever steps of its
attempts fail. Every attempt is settled before the next one starts, hence the log of a
call says what each of its attempts has done to the database.
-/

namespace CafeFausse.Backend

open Statement

/-- Nothing can come of the attempt. -/
structure AttemptRecord.Uncommitted (x : AttemptRecord) : Prop where
  commitSent : x.commitSent = false
  commitTook : x.commitTook = false

theorem AttemptRecord.Uncommitted.unchanged {x : AttemptRecord} (h : x.Uncommitted) :
    x.after = x.before := by
  simp [after, h.commitTook]

/-- What the log of a call must show, given how the call has ended; `reports` relates a
result to the attempt it comes from. -/
structure Certain {ρ : Type} (reports : ρ → ℕ → Prop) (outcome : Except ServiceError ρ)
    (log : List AttemptRecord) : Prop where
  /-- No attempt follows one that has committed or may have. -/
  earlier : ∀ x ∈ log.dropLast, x.Uncommitted
  once : log.countP (·.commitTook) ≤ 1
  reported : match outcome with
    | .ok r => ∃ x ∈ log.getLast?, x.commitTook = true ∧ reports r x.number
    | .error (.confirmationUnavailable _ _) => ∃ x ∈ log.getLast?, x.commitTook = true
    | .error (.temporaryFailure _ _) => ∀ x ∈ log, x.Uncommitted
    | .error (.databaseContractError _) => ∀ x ∈ log, x.Uncommitted
    | .error (.serviceUnavailable _ _) => ∀ x ∈ log, x.after = x.before
    | .error (.outcomeUnknown _ _) => True
    | .error .attemptsOutOfRange => log = []
    | .error (.unexpected _) => False
    | .error .lostFailureContext => False

/-- The call ends as its log bears out. -/
def CertainCall {ρ : Type} (reports : ρ → ℕ → Prop) (call : Statement CallVariables ServiceError ρ) :
    Prop :=
  Certain reports (call.execute {}).1 (call.execute {}).2.log

section Log

variable {service : Service} {log : List AttemptRecord} {x : AttemptRecord} {v : CallVariables}
  {α ρ : Type}

/-- All attempts so far are settled. -/
def CallVariables.Settled (v : CallVariables) : Prop := ∀ x ∈ v.log, x.Uncommitted

/-- The last attempt satisfies `P`, the ones before it are settled. -/
def CallVariables.Ended (P : AttemptRecord → Prop) (v : CallVariables) : Prop :=
  ∃ log x, v.log = log ++ [x] ∧ (∀ y ∈ log, y.Uncommitted) ∧ P x

/-- What the log shows when the loop ends with an error. -/
def Reported (e : RetryError ServiceError) (v : CallVariables) : Prop :=
  match e with
  | .failure error => v.Ended fun x => error.outcomeUnknown = false → x.Uncommitted
  | .other (.confirmationUnavailable _ _) => v.Ended fun x => x.commitTook = true
  | .other (.databaseContractError _) => v.Ended AttemptRecord.Uncommitted
  | .other (.serviceUnavailable _ _) => v.Ended fun x => x.after = x.before
  | .attemptsOutOfRange => v.log = []
  | _ => False

theorem CallVariables.Ended.certain {P : AttemptRecord → Prop} (h : v.Ended P) :
    (∀ x ∈ v.log.dropLast, x.Uncommitted) ∧ v.log.countP (·.commitTook) ≤ 1 ∧
      ∃ x ∈ v.log.getLast?, P x := by
  obtain ⟨log, x, hlog, hearlier, hx⟩ := h
  rw [hlog]
  refine ⟨by simpa using hearlier, ?_, x, by simp, hx⟩
  have hzero : log.countP (·.commitTook) = 0 := by
    rw [List.countP_eq_zero]
    exact fun y hy => by simp [(hearlier y hy).commitTook]
  rw [List.countP_append, hzero, zero_add]
  exact List.countP_le_length

theorem CallVariables.Ended.all {P R : AttemptRecord → Prop} (h : v.Ended P)
    (hP : ∀ x, P x → R x) (hR : ∀ x : AttemptRecord, x.Uncommitted → R x) :
    ∀ x ∈ v.log, R x := by
  obtain ⟨log, x, hlog, hearlier, hx⟩ := h
  rw [hlog]
  intro y hy
  rcases List.mem_append.mp hy with hy | hy
  · exact hR y (hearlier y hy)
  · rw [List.mem_singleton.mp hy]
    exact hP x hx

/-- The log is untouched by the clock, the sleeper and the jitter. -/
theorem keeps_log {P : List AttemptRecord → Prop}
    {operation : ℕ → ℚ → Statement CallVariables (RetryError ServiceError) α} :
    (service.retry operation).Keeps fun v => P v.log :=
  ⟨fun _ h => h, fun _ _ h => h, fun _ _ _ h => h⟩

theorem keeps_reported (exc : AttemptFailure)
    {operation : ℕ → ℚ → Statement CallVariables (RetryError ServiceError) α} :
    (service.retry operation).Keeps (Reported (.failure exc)) :=
  ⟨fun _ h => h, fun _ _ h => h, fun _ _ _ h => h⟩

/-- The gateway's word on its attempt, as the log shows it. -/
theorem wp_callGateway {gateway : Statement (Locals ρ) GatewayError ρ} {number : ℕ}
    {proposed : Database} {confirms : Prop} {P : ρ → Prop}
    (hgateway : gateway.wp (fun r s => s.commitTook = true ∧ P r)
      (fun e s => e.Truthful confirms s) {})
    {Q : Except GatewayError ρ → CallVariables → Prop}
    {E : RetryError ServiceError → CallVariables → Prop} (hv : v.Settled)
    (hreturned : ∀ r v', P r → v'.Ended (fun x => x.commitTook = true ∧ x.number = number ∧
      x.before = (service.attempts number).memory.view ∧ x.proposed = proposed) → Q (.ok r) v')
    (hmutation : ∀ error v', (error.safeToRetry = true → error.outcomeUnknown = false) →
      v'.Ended (fun x => error.outcomeUnknown = false → x.Uncommitted) →
      Q (.error (.mutation error)) v')
    (hcontract : ∀ c v', v'.Ended AttemptRecord.Uncommitted → Q (.error (.contract c)) v')
    (hconfirmation : ∀ c v', confirms → v'.Ended (fun x => x.commitTook = true) →
      Q (.error (.confirmation c)) v') :
    (service.callGateway gateway number proposed).wp Q E v := by
  unfold Service.callGateway
  simp only
  refine wp_bind.mpr (wp_modify.mpr (wp_pure.mpr ?_))
  unfold Statement.wp at hgateway
  cases hg : gateway.execute {} with
  | mk outcome locals =>
  rw [hg] at hgateway
  cases outcome with
  | ok r => exact hreturned r _ hgateway.2 ⟨v.log, _, rfl, hv, hgateway.1, rfl, rfl, rfl⟩
  | error e =>
    cases e with
    | fault error => exact hgateway.elim
    | contract c => exact hcontract c _ ⟨v.log, _, rfl, hv, ⟨hgateway.commitSent, hgateway.commitTook⟩⟩
    | mutation error =>
      refine hmutation error _ hgateway.2 ⟨v.log, _, rfl, hv, fun hknown => ?_⟩
      exact ⟨(hgateway.1 hknown).commitSent, (hgateway.1 hknown).commitTook⟩
    | confirmation c => exact hconfirmation c _ hgateway.1 ⟨v.log, _, rfl, hv, hgateway.2⟩

/-- The loop keeps the log truthful if every attempt does. -/
theorem certain_of_attempt {reports : ρ → ℕ → Prop}
    {operation : ℕ → ℚ → Statement CallVariables (RetryError ServiceError) ρ}
    (hoperation : ∀ number remaining v, v.Settled → (operation number remaining).wp
      (fun r v' => v'.Ended fun x => x.commitTook = true ∧ reports r x.number)
      (fun e v' => Reported e v' ∧ ∀ exc, e = .failure exc → exc.eligible = true → v'.Settled) v) :
    CertainCall reports (Service.translated (service.retry operation).executeWithRetry) := by
  have hloop := Retry.wp_executeWithRetry (r := service.retry operation) (E := Reported)
    (keeps_log (P := fun log => ∀ x ∈ log, x.Uncommitted)) (fun exc => keeps_reported exc) hoperation
    (s := {}) rfl (fun x hx => absurd hx (List.not_mem_nil))
  have hwp : (Service.translated (service.retry operation).executeWithRetry).wp
      (fun r v => Certain reports (.ok r) v.log) (fun e v => Certain reports (.error e) v.log) {} := by
    unfold Service.translated
    refine wp_except.mpr (wp_mono hloop (fun r v hv => ?_) fun e v he => ?_)
    · exact ⟨hv.certain.1, hv.certain.2.1, hv.certain.2.2⟩
    · cases e with
      | failure exc =>
        refine wp_bind.mpr (wp_get.mpr ?_)
        split
        · exact ⟨he.certain.1, he.certain.2.1, trivial⟩
        · next hknown =>
          have hknown : exc.outcomeUnknown = false := by simpa using hknown
          exact ⟨he.certain.1, he.certain.2.1, he.all (fun _ h => h hknown) fun _ h => h⟩
      | other error =>
        cases error with
        | confirmationUnavailable n c => exact ⟨he.certain.1, he.certain.2.1, he.certain.2.2⟩
        | databaseContractError c =>
          exact ⟨he.certain.1, he.certain.2.1, he.all (fun _ h => h) fun _ h => h⟩
        | serviceUnavailable n c =>
          exact ⟨he.certain.1, he.certain.2.1, he.all (fun _ h => h) fun _ h => h.unchanged⟩
        | _ => exact he.elim
      | attemptsOutOfRange =>
        have hlog : v.log = [] := he
        exact ⟨by simp [hlog], by simp [hlog], hlog⟩
      | lostFailureContext => exact he.elim
  unfold CertainCall
  cases hrun : (Service.translated (service.retry operation).executeWithRetry).execute {} with
  | mk outcome v =>
    cases outcome with
    | ok r => exact (wp_iff.mp hwp).1 r v hrun
    | error e => exact (wp_iff.mp hwp).2 e v hrun

end Log

section Services

variable {env : Environment} {zoneInfo : Text → Bool} {service : Service} {number : ℕ}
  {remaining : ℚ} {v : CallVariables}

theorem settled_of_eligible {error : DatabaseMutationFailure}
    (hsafe : error.safeToRetry = true → error.outcomeUnknown = false)
    (hv : v.Ended fun x => error.outcomeUnknown = false → x.Uncommitted)
    (he : (Service.attemptFailure error).eligible = true) : v.Settled := by
  have hknown : error.outcomeUnknown = false := by
    cases hs : error.safeToRetry with
    | true => exact hsafe hs
    | false => simp [AttemptFailure.eligible, Service.attemptFailure, hs] at he
  exact hv.all (fun _ h => h hknown) fun _ h => h

theorem wp_bookAttempt_decoded {command : ReservationCommand} (hv : v.Settled) :
    (service.bookAttempt env zoneInfo command number remaining).wp
      (fun r v' => v'.Ended fun x => x.commitTook = true ∧
        ReservationGateway.Decoded env command (service.attempts x.number) r)
      (fun e v' => Reported e v' ∧ ∀ exc, e = .failure exc → exc.eligible = true → v'.Settled)
      v := by
  unfold Service.bookAttempt Service.noteCleanup
  refine wp_bind.mpr (wp_modify.mpr (wp_bind.mpr (wp_callGateway ReservationGateway.wp_book
    hv (fun r v' hr hended => ?_) (fun error v' hsafe hended => ?_) (fun c v' hended => ?_)
    fun c v' _ hended => ?_)))
  · refine wp_bind.mpr (wp_modify.mpr (wp_bind.mpr (wp_get.mpr ?_)))
    split
    · next hinvalid =>
      refine ⟨?_, nofun⟩
      obtain ⟨log, x, hlog, hearlier, htook, rfl, hbefore, hproposed⟩ := hended
      refine ⟨log, x, hlog, hearlier, ?_⟩
      obtain ⟨row, db, hreply, houtcome⟩ := hr.reports
      have hrow : row.outcome = .invalidDatabaseConfiguration := by
        rw [houtcome] at hinvalid
        cases ho : row.outcome <;> simp_all [ReservationGateway.outcomeMap]
      rw [AttemptRecord.after, if_pos htook, hproposed, hbefore, hreply]
      exact transact_unusable hreply hrow
    · obtain ⟨log, x, hlog, hearlier, htook, rfl, -⟩ := hended
      exact ⟨log, x, hlog, hearlier, htook, hr⟩
  · refine wp_bind.mpr (wp_modify.mpr ⟨hended, ?_⟩)
    rintro _ ⟨⟩ he
    exact settled_of_eligible hsafe hended he
  · exact wp_bind.mpr (wp_modify.mpr ⟨hended, nofun⟩)
  · exact wp_bind.mpr (wp_modify.mpr (wp_bind.mpr (wp_get.mpr ⟨hended, nofun⟩)))

theorem wp_bookAttempt {command : ReservationCommand} (hv : v.Settled) :
    (service.bookAttempt env zoneInfo command number remaining).wp
      (fun r v' => v'.Ended fun x => x.commitTook = true ∧
        ReservationGateway.Reports env command (service.attempts x.number) r)
      (fun e v' => Reported e v' ∧ ∀ exc, e = .failure exc → exc.eligible = true → v'.Settled)
      v := by
  apply wp_mono (wp_bookAttempt_decoded hv) _ fun _ _ h => h
  rintro r v' ⟨log, x, hlog, hearlier, htook, hdecoded⟩
  exact ⟨log, x, hlog, hearlier, htook, hdecoded.reports⟩

theorem wp_preferenceAttempt {command : NewsletterPreferenceCommand} (hv : v.Settled) :
    (service.preferenceAttempt env command number remaining).wp
      (fun r v' => v'.Ended fun x => x.commitTook = true ∧
        NewsletterGateway.Reports env command (service.attempts x.number) r)
      (fun e v' => Reported e v' ∧ ∀ exc, e = .failure exc → exc.eligible = true → v'.Settled)
      v := by
  unfold Service.preferenceAttempt Service.noteCleanup
  refine wp_bind.mpr (wp_modify.mpr (wp_bind.mpr (wp_callGateway NewsletterGateway.wp_setPreference
    hv (fun r v' hr hended => ?_) (fun error v' hsafe hended => ?_) (fun c v' hended => ?_)
    fun c v' h _ => h.elim)))
  · refine wp_bind.mpr (wp_modify.mpr (wp_bind.mpr (wp_get.mpr ?_)))
    obtain ⟨log, x, hlog, hearlier, htook, rfl, -⟩ := hended
    exact ⟨log, x, hlog, hearlier, htook, hr⟩
  · refine wp_bind.mpr (wp_modify.mpr ⟨hended, ?_⟩)
    rintro _ ⟨⟩ he
    exact settled_of_eligible hsafe hended he
  · exact ⟨hended, nofun⟩

/-- What the mutation services report about their transactions is so. -/
theorem reported_certainty (env : Environment) (zoneInfo : Text → Bool) (service : Service)
    (booking : ReservationCommand) (preference : NewsletterPreferenceCommand) :
    CertainCall (fun r n => ReservationGateway.Reports env booking (service.attempts n) r)
        (service.book env zoneInfo booking) ∧
      CertainCall (fun r n => NewsletterGateway.Reports env preference (service.attempts n) r)
        (service.setPreference env preference) :=
  ⟨certain_of_attempt fun _ _ _ hv => wp_bookAttempt hv,
    certain_of_attempt fun _ _ _ hv => wp_preferenceAttempt hv⟩

end Services

end CafeFausse.Backend
