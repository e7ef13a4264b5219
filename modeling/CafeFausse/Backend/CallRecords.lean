import CafeFausse.Backend.AnswersDecoded
import CafeFausse.Backend.Certainty

/-! # The records of a call

What a service logs of an attempt is what the routine makes of the state that the attempt meets. So
a result that is returned is about the last state of the log.
-/

namespace CafeFausse.Backend

open Statement

/-- The record of an attempt of a call, whose routine leaves `proposed`. -/
structure AttemptRecord.Records (x : AttemptRecord) (service : Service)
    (proposed : ℕ → Database) : Prop where
  before : x.before = (service.attempts x.number).memory.view
  proposed : x.proposed = proposed x.number

section Records

variable {ρ : Type} {env : Environment} {zoneInfo : Text → Bool} {service : Service}
  {proposed : ℕ → Database} {v : CallVariables}

/-- All records are of the service. -/
def CallVariables.Recorded (v : CallVariables) (service : Service) (proposed : ℕ → Database) :
    Prop :=
  ∀ x ∈ v.log, x.Records service proposed

theorem wp_callGateway_recorded {gateway : Statement (Locals ρ) GatewayError ρ} {number : ℕ}
    (hv : v.Recorded service proposed) :
    (service.callGateway gateway number (proposed number)).wp
      (fun _ v' => v'.Recorded service proposed) (fun _ _ => False) v := by
  unfold Service.callGateway
  apply wp_bind.mpr
  apply wp_modify.mpr
  apply wp_pure.mpr
  intro x hx
  rcases List.mem_append.mp hx with hx | hx
  · exact hv x hx
  · rw [List.mem_singleton.mp hx]
    exact ⟨rfl, rfl⟩

theorem recorded_of_attempt
    {operation : ℕ → ℚ → Statement CallVariables (RetryError ServiceError) ρ}
    (hoperation : ∀ number remaining v, v.Recorded service proposed →
      (operation number remaining).wp (fun _ v' => v'.Recorded service proposed)
        (fun _ v' => v'.Recorded service proposed) v) :
    ((Service.translated (service.retry operation).executeWithRetry).execute {}).2.Recorded
      service proposed := by
  have hloop : (service.retry operation).executeWithRetry.wp
      (fun _ v => v.Recorded service proposed) (fun _ v => v.Recorded service proposed) {} := by
    apply Retry.wp_executeWithRetry
    · exact keeps_log (P := fun log => ∀ x ∈ log, x.Records service proposed)
    · exact fun _ => keeps_log (P := fun log => ∀ x ∈ log, x.Records service proposed)
    · exact fun number remaining v hv => wp_mono (hoperation number remaining v hv)
        (fun _ _ h => h) fun _ _ h => ⟨h, fun _ _ _ => h⟩
    · exact List.forall_mem_nil _
    · exact List.forall_mem_nil _
  have hwp : (Service.translated (service.retry operation).executeWithRetry).wp
      (fun _ v => v.Recorded service proposed) (fun _ v => v.Recorded service proposed) {} := by
    unfold Service.translated
    refine wp_except.mpr (wp_mono hloop (fun _ _ h => h) fun e v he => ?_)
    cases e with
    | failure error =>
      refine wp_bind.mpr (wp_get.mpr ?_)
      split <;> exact he
    | other error => exact he
    | attemptsOutOfRange => exact he
    | lostFailureContext => exact he
  cases hrun : (Service.translated (service.retry operation).executeWithRetry).execute {} with
  | mk outcome v =>
    cases outcome with
    | ok r => exact (wp_iff.mp hwp).1 r v hrun
    | error e => exact (wp_iff.mp hwp).2 e v hrun

theorem recorded_book (command : ReservationCommand) :
    ((service.book env zoneInfo command).execute {}).2.Recorded service
      fun n => (ReservationGateway.reply env command (service.attempts n)).2 := by
  apply recorded_of_attempt
  intro number remaining v hv
  unfold Service.bookAttempt Service.noteCleanup
  apply wp_bind.mpr
  apply wp_modify.mpr
  apply wp_bind.mpr
  apply wp_mono (wp_callGateway_recorded ?_) ?_ fun _ _ => False.elim
  · exact hv
  intro outcome v' hv'
  cases outcome with
  | ok result =>
    refine wp_bind.mpr (wp_modify.mpr (wp_bind.mpr (wp_get.mpr ?_)))
    split <;> exact hv'
  | error error =>
    cases error with
    | mutation error => exact wp_bind.mpr (wp_modify.mpr hv')
    | confirmation c => exact wp_bind.mpr (wp_modify.mpr (wp_bind.mpr (wp_get.mpr hv')))
    | contract c => exact wp_bind.mpr (wp_modify.mpr hv')
    | fault error => exact hv'

theorem recorded_setPreference (command : NewsletterPreferenceCommand) :
    ((service.setPreference env command).execute {}).2.Recorded service
      fun n => (NewsletterGateway.reply env command (service.attempts n)).2 := by
  apply recorded_of_attempt
  intro number remaining v hv
  unfold Service.preferenceAttempt Service.noteCleanup
  apply wp_bind.mpr
  apply wp_modify.mpr
  apply wp_bind.mpr
  apply wp_mono (wp_callGateway_recorded ?_) ?_ fun _ _ => False.elim
  · exact hv
  intro outcome v' hv'
  cases outcome with
  | ok result => exact wp_bind.mpr (wp_modify.mpr (wp_bind.mpr (wp_get.mpr hv')))
  | error error =>
    cases error with
    | mutation error => exact wp_bind.mpr (wp_modify.mpr hv')
    | confirmation c => exact hv'
    | contract c => exact hv'
    | fault error => exact hv'

end Records

/-- The states that the attempts meet are consistent, with numbers left for new rows. -/
structure Service.Meets (service : Service) (env : Environment) : Prop where
  constraints : ∀ n, Constraints env.character (service.attempts n).memory.view
  fresh : ∀ n q, ¬ InUse (service.attempts n).memory.view q
    ((service.attempts n).memory.supply q 0)

section Booking

open ReservationGateway

variable {env : Environment} {zoneInfo : Text → Bool} {service : Service}
  {command : ReservationCommand} {result : ReservationBookingResult} {row : BookingRow}
  {a : Attempt} {db : Database} {v : CallVariables}

/-- What the result states is stored by the attempt, or was there before. -/
structure AttemptRecord.Stores (x : AttemptRecord) (env : Environment)
    (command : ReservationCommand) (result : ReservationBookingResult) (r : Reservation)
    (c : Customer) : Prop where
  states : result.States command x.after r c
  created : result.outcome ≠ .exactRetry → ∃ request f start tables row,
    command.arguments = request.arguments ∧ Booked env request x.before f start r tables row x.after
  retried : result.outcome = .exactRetry → x.after = x.before

theorem exactRetry_outcomeMap {o : Outcome} (h : o.Succeeds) :
    outcomeMap o = .exactRetry ↔ ¬ o.Books := by
  revert h
  cases o <;> decide

theorem tables_of_decode {session : Zone} (h : decode session row = .ok result) (hsuccess : success result.outcome = true) :
    ∀ n ∈ result.assignedTableNumbers, 1 ≤ n ∧ n ≤ 32767 := by
  obtain ⟨hvalid, -, houtcome⟩ := decode_columns h
  rw [houtcome] at hsuccess
  unfold decode at h
  rw [if_pos hvalid] at h
  cases h
  unfold validRow at hvalid
  rw [if_pos hsuccess] at hvalid
  unfold validReservation at hvalid
  simp only [Bool.and_eq_true] at hvalid
  obtain ⟨⟨⟨⟨⟨-, htables⟩, -⟩, -⟩, -⟩, -⟩ := hvalid
  obtain ⟨tables, hrow, htables⟩ := (Option.any_eq_true _ _).mp htables
  simp only [Bool.and_eq_true] at htables
  intro n hn
  rw [hrow] at hn
  exact of_decide_eq_true (List.all_eq_true.mp htables.1.2 n hn)

/-- A call that books nothing leaves everything as it was. -/
theorem unchanged_of_reply (hc : Constraints env.character a.memory.view)
    (hfresh : ∀ q, ¬ InUse a.memory.view q (a.memory.supply q 0))
    (hreply : reply env command a = (.returned (.booking row), db)) (hb : ¬ row.outcome.Books) :
    db = a.memory.view := by
  have hall : AllOrNothing env command.arguments a.memory.view (reply env command a) :=
    transact_bookReservationCore hc hfresh
  rw [hreply] at hall
  exact (if_neg hb).mp hall

variable {x : AttemptRecord}

/-- A success is stored. -/
theorem stores_of_reply (hc : Constraints env.character a.memory.view)
    (hfresh : ∀ q, ¬ InUse a.memory.view q (a.memory.supply q 0))
    (hreply : reply env command a = (.returned (.booking row), db))
    (hdecode : decode a.session row = .ok (columns result)) (hsuccess : success result.outcome = true)
    (hbefore : x.before = a.memory.view) (hafter : x.after = db) :
    ∃ r c, x.Stores env command result r c := by
  have houtcome : result.outcome = outcomeMap row.outcome := (decode_columns hdecode).2.2
  have hsucceeds : row.outcome.Succeeds := success_outcomeMap.mp (houtcome ▸ hsuccess)
  have hretry := exactRetry_outcomeMap hsucceeds
  rw [← houtcome] at hretry
  subst hafter
  by_cases hb : row.outcome.Books
  · obtain ⟨request, hrequest, b, rfl, hdb⟩ := placement_of_transact hc hfresh hreply hb
    obtain ⟨tables, heffect⟩ := b.effect hc
    refine ⟨_, _, states_of_decode (hrequest ▸ hdb ▸ b.reports) hdecode, fun _ => ?_, fun h => ?_⟩
    · rw [hdb, hbefore]
      exact ⟨request, _, _, tables, _, hrequest, heffect⟩
    · exact absurd hb (hretry.mp h)
  · rcases shown_of_transact hc hfresh hreply with hrefuses | ⟨r, c, hreports⟩
    · exact absurd hsucceeds hrefuses.fails
    · refine ⟨r, c, states_of_decode hreports hdecode, fun h => ?_, fun _ => ?_⟩
      · exact absurd (hretry.mpr hb) h
      · rw [hbefore, unchanged_of_reply hc hfresh hreply hb]

/-- Whatever steps of a booking fail, a result that is returned is about the last attempt. -/
theorem stores_of_book (hmeets : service.Meets env)
    (hcall : (service.book env zoneInfo command).execute {} = (.ok result, v)) :
    ∃ x ∈ v.log.getLast?, x.commitTook = true ∧
      (success result.outcome = true →
        (∃ r c, x.Stores env command result r c) ∧
          ∀ n ∈ result.assignedTableNumbers, 1 ≤ n ∧ n ≤ 32767) ∧
      (success result.outcome = false → x.after = x.before) := by
  have hcertain : CertainCall (fun r n => Decoded env command (service.attempts n) r)
      (service.book env zoneInfo command) :=
    certain_of_attempt fun _ _ _ hv => wp_bookAttempt_decoded hv
  have hrecorded : ((service.book env zoneInfo command).execute {}).2.Recorded service _ :=
    recorded_book command
  unfold CertainCall at hcertain
  rw [hcall] at hcertain hrecorded
  obtain ⟨x, hx, htook, row, db, hreply, hdecode⟩ := hcertain.reported
  obtain ⟨hbefore, hproposed⟩ := hrecorded x (List.mem_of_mem_getLast? hx)
  have hafter : x.after = db := by
    rw [AttemptRecord.after, if_pos htook, hproposed, hreply]
  refine ⟨x, hx, htook, fun hsuccess => ⟨?_, ?_⟩, fun hfails => ?_⟩
  · exact stores_of_reply (hmeets.constraints _) (hmeets.fresh _) hreply hdecode hsuccess hbefore
      hafter
  · have htables := tables_of_decode hdecode hsuccess
    exact htables
  · have hb : ¬ row.outcome.Books := by
      intro hb
      have hsuccess := success_outcomeMap.mpr (.inl hb : row.outcome.Succeeds)
      rw [← (decode_columns hdecode).2.2] at hsuccess
      exact absurd hsuccess (Bool.eq_false_iff.mp hfails)
    rw [hafter, hbefore, unchanged_of_reply (hmeets.constraints _) (hmeets.fresh _) hreply hb]

end Booking

section Preference

open NewsletterGateway

open Transaction.Program (of_transact_returned)

variable {env : Environment} {service : Service} {command : NewsletterPreferenceCommand}
  {result : NewsletterPreferenceResult} {a : Attempt} {db : Database} {v : CallVariables}
  {o : NewsletterOutcome} {flag : Option Bool}

/-- The attempt has done what the result says. -/
structure AttemptRecord.Sets (x : AttemptRecord) (command : NewsletterPreferenceCommand)
    (result : NewsletterPreferenceResult) : Prop where
  set : result.outcome = .subscribed ∨ result.outcome = .unsubscribed →
    result.subscribed = some command.subscribed ∧
      ∃ request, command.arguments.request = some request ∧ PreferenceSet request x.before x.after
  absent : result.outcome = .noCustomerNoChange → command.subscribed = false ∧
    ∀ c ∈ x.after.customers, c.email ≠ command.email
  refused : result.outcome ≠ .subscribed → result.outcome ≠ .unsubscribed → x.after = x.before

theorem outcomeMap_injective : Function.Injective outcomeMap := by
  intro o o' h
  revert h
  cases o <;> cases o' <;> decide

/-- The flag of a row that stores a preference is the one that was asked for. -/
theorem expectedState_of_shown (hshown : PreferenceShown command.arguments db o flag)
    (ho : o = .subscribed ∨ o = .unsubscribed) :
    (outcomeMap o).expectedState = some command.subscribed := by
  cases hshown with
  | stored c _ _ hrequested =>
    have hsubscribed : command.subscribed = c.newsletterSubscribed := Option.some.inj hrequested
    rw [hsubscribed]
    cases c.newsletterSubscribed with
    | true => rfl
    | false => rfl
  | conflict _ _ _ o hconflicts =>
    rcases hconflicts with rfl | rfl
    · exact absurd ho (by decide)
    · exact absurd ho (by decide)
  | invalid => exact absurd ho (by decide)
  | absent _ _ => exact absurd ho (by decide)

theorem unknown_of_shown (hshown : PreferenceShown command.arguments db .noCustomerNoChange flag) :
    command.subscribed = false ∧ ∀ c ∈ db.customers, c.email ≠ command.email := by
  generalize ho : NewsletterOutcome.noCustomerNoChange = o at hshown
  cases hshown with
  | absent hunknown hunsubscribes =>
    exact ⟨Option.some.inj hunsubscribes, fun c hm he => hunknown c hm (congrArg some he.symm)⟩
  | stored c _ _ _ =>
    revert ho
    cases c.newsletterSubscribed <;> exact fun h => absurd h (by decide)
  | conflict _ _ _ o hconflicts =>
    rcases hconflicts with rfl | rfl
    · exact absurd ho (by decide)
    · exact absurd ho (by decide)
  | invalid => exact absurd ho (by decide)

theorem sets_of_reply {x : AttemptRecord} (hc : Constraints env.character a.memory.view)
    (hreply : reply env command a = (.returned (.newsletter o flag), db))
    (houtcome : result.outcome = outcomeMap o) (hbefore : x.before = a.memory.view)
    (hafter : x.after = db) : x.Sets command result := by
  unfold reply at hreply
  subst hafter
  obtain ⟨m₁, ⟨_, _, hans, hshown⟩, h₁⟩ :=
    of_transact_returned (wp_setNewsletterPreference_shown hc) hreply
  cases hans
  rw [h₁] at hshown
  have hmapped (o' : NewsletterOutcome) (h : result.outcome = outcomeMap o') : o = o' :=
    outcomeMap_injective (houtcome.symm.trans h)
  constructor
  · intro hset
    have ho : o = .subscribed ∨ o = .unsubscribed :=
      hset.imp (hmapped .subscribed) (hmapped .unsubscribed)
    obtain ⟨m₂, hset, h₂⟩ := of_transact_returned (wp_setNewsletterPreference_set hc) hreply
    rw [result.subscribed_ck, houtcome, hbefore, ← h₂]
    exact ⟨expectedState_of_shown hshown ho, hset _ _ rfl ho⟩
  · intro habsent
    cases hmapped .noCustomerNoChange habsent
    exact unknown_of_shown hshown
  · intro hsubscribed hunsubscribed
    obtain ⟨m₃, hrefused, h₃⟩ :=
      of_transact_returned (wp_setNewsletterPreference_refused hc) hreply
    rw [hbefore, ← h₃]
    apply hrefused _ _ rfl
    · rintro rfl
      exact hsubscribed houtcome
    · rintro rfl
      exact hunsubscribed houtcome

/-- Whatever steps of a preference fail, a result that is returned is about the last attempt. -/
theorem sets_of_setPreference (hmeets : service.Meets env)
    (hcall : (service.setPreference env command).execute {} = (.ok result, v)) :
    ∃ x ∈ v.log.getLast?, x.commitTook = true ∧ x.Sets command result := by
  have hcertain : CertainCall (fun r n => Reports env command (service.attempts n) r)
      (service.setPreference env command) :=
    certain_of_attempt fun _ _ _ hv => wp_preferenceAttempt hv
  have hrecorded : ((service.setPreference env command).execute {}).2.Recorded service _ :=
    recorded_setPreference command
  unfold CertainCall at hcertain
  rw [hcall] at hcertain hrecorded
  obtain ⟨x, hx, htook, o, flag, db, hreply, houtcome⟩ := hcertain.reported
  obtain ⟨hbefore, hproposed⟩ := hrecorded x (List.mem_of_mem_getLast? hx)
  refine ⟨x, hx, htook, sets_of_reply (hmeets.constraints _) hreply houtcome hbefore ?_⟩
  rw [AttemptRecord.after, if_pos htook, hproposed, hreply]

end Preference

end CafeFausse.Backend
