import CafeFausse.Clock.Candidates
import CafeFausse.Concurrency.Retry
import CafeFausse.Routines.BookingAnswers

/-! # No booking in the past

The last look at the clock compares local dates, and instants only where the dates agree.
In a zone that changes its offset once in a while this is enough: a later local start that
has only one instant has not passed.
-/

namespace CafeFausse

open Transaction Program Database

variable {env : Environment} {request : BookingRequest} {readings : Readings} {db db' : Database}
  {w w' : World Database LockKey Sequence SqlError Answer Call}

/-- The start has not passed at `now`, lies in the booking window that opens on that local
day, and is no earlier than the lead time on that day. -/
structure TimelyStart (configuration : ReservationConfiguration) (zone : Zone)
    (startsAt now : ℤ) : Prop where
  future : now ≤ startsAt
  opened : Time.date (zone.toLocal now) ≤ Time.date (zone.toLocal startsAt)
  window : Time.date (zone.toLocal startsAt) ≤
    Time.date (zone.toLocal now) + configuration.advanceBookingWindowDays
  lead : Time.date (zone.toLocal startsAt) = Time.date (zone.toLocal now) →
    now + Time.minutes configuration.sameDayLeadMinutes ≤ startsAt

/-- The row reports a reservation of `db'` with a timely start by the configuration of `db`. -/
def Timely (env : Environment) (db db' : Database) (now : ℤ) (row : BookingRow) : Prop :=
  ∃ configuration zone r, db.reservationConfiguration = [configuration] ∧
    env.timezones configuration.restaurantTimezone = some zone ∧
    r ∈ db'.reservations ∧ row.reservationId = some r.reservationId ∧
    row.startsAt = some r.startsAt ∧ TimelyStart configuration zone r.startsAt now

/-- The configured zone has offsets of whole minutes that change at most once around the
requested start. -/
def BookingArguments.Steady (env : Environment) (db : Database) (p : BookingArguments) : Prop :=
  ∀ c ∈ db.reservationConfiguration, ∀ zone, env.timezones c.restaurantTimezone = some zone →
    ∀ l, p.localStart = some (.finite l) → (∃ offset, zone.Follows offset) ∧ zone.Steady l

theorem Placement.timelyStart (b : Placement env request readings none db)
    (hsteady : request.arguments.Steady env db) :
    TimelyStart b.foundation.configuration b.foundation.zone b.start.startsAt readings.second := by
  have hresolved := b.admitted.resolved
  have hfoundation := b.admitted.foundation
  obtain ⟨⟨offset, hfollows⟩, hl⟩ := hsteady _ (hfoundation.configuration ▸ List.mem_singleton_self _)
    _ hfoundation.zone b.start.localStart (congrArg some hresolved.localStart)
  obtain ⟨hlocal, -⟩ := shown_once_of_candidates hfollows hl hresolved.candidates
  have hwindow := b.allocates.window
  have hlead := b.allocates.lead
  unfold OutsideWindow at hwindow
  unfold ShortLead at hlead
  rw [← hlocal] at hwindow hlead
  simp only [not_or, not_lt] at hwindow
  simp only [not_and, not_lt] at hlead
  refine ⟨?_, hwindow.1, hwindow.2, hlead⟩
  by_cases hday : Time.date (b.foundation.zone.toLocal b.start.startsAt) =
      Time.date (b.foundation.zone.toLocal readings.second)
  · have hpos := b.foundation.configuration.lead_ck.1
    have := hlead hday
    simp only [Time.minutes] at this
    omega
  · -- on a later day the reading of the clock is still before the local start
    have hlater : b.foundation.zone.toLocal readings.second < b.start.localStart := by
      rw [← hlocal]
      by_contra hle
      exact hday (le_antisymm (Int.ediv_le_ediv (by decide) (not_lt.mp hle)) hwindow.1)
    exact (before_of_candidates hfollows hl hresolved.candidates hlater).le

theorem Placement.timely (b : Placement env request readings none db)
    (hc : Constraints env.character db) (hsteady : request.arguments.Steady env db) :
    Timely env db b.after readings.second b.row := by
  obtain ⟨tables, heffect⟩ := b.effect hc
  obtain ⟨hid, hstart, -⟩ := heffect.reported
  refine ⟨_, _, b.reservation, b.admitted.foundation.configuration, b.admitted.foundation.zone,
    b.recorded.reservation, hid, hstart, ?_⟩
  rw [heffect.startsAt]
  exact b.timelyStart hsteady

/-- Whatever the state, a booking that is executed alone is timely at its last reading. -/
theorem timely_of_transact {m : Memory Database Sequence} {p : BookingArguments} {row : BookingRow}
    (hc : Constraints env.character m.view) (hfresh : ∀ q, ¬ InUse m.view q (m.supply q 0))
    (h : (bookReservation env p readings).transact m = (.returned (.booking row), db'))
    (hb : row.outcome.Books) (hsteady : p.Steady env m.view) :
    Timely env m.view db' readings.second row := by
  obtain ⟨request, rfl, b, rfl, rfl⟩ := placement_of_transact hc hfresh h hb
  exact b.timely hc hsteady

/-- No row with a detail reports a new reservation. -/
def Undetailed (call : Call) (ans : Answer) : Prop :=
  ∀ p readings row, call = .bookReservation p readings → ans = .booking row →
    row.detailCode.isSome → ¬ row.outcome.Books

theorem undetailed_server (call : Call) :
    ((server env).body call).Yields (Undetailed call) fun _ => True := by
  cases call with
  | bookReservation p readings =>
    apply yields_bookReservation fun _ _ => trivial
    · rintro d _ _ _ - ⟨⟩ -
      exact (by decide : ¬ Outcome.Books .invalidRequest)
    · rintro d _ _ _ - ⟨⟩ -
      exact (by decide : ¬ Outcome.Books .invalidDatabaseConfiguration)
    · rintro o - row - hnone _ _ _ - ⟨⟩ hsome
      rw [hnone] at hsome
      cases hsome
    · rintro request start o d fingerprint ho _ _ _ - ⟨⟩ -
      rcases ho with rfl | rfl
      · exact (by decide : ¬ Outcome.Books .unavailable)
      · exact (by decide : ¬ Outcome.Books .invalidRequest)
  | _ => exact (yields_trivial _).mono (fun _ _ _ _ _ => nofun) fun _ h => h

/-- A logged row is the one that its session was about to return. -/
theorem exists_session_of_logged (hstep : Step (server env) w w')
    {e : Entry Sequence Answer Call LockKey} (hlog : w'.log = w.log ++ [e]) :
    ∃ t s, w.sessions t = some s ∧ s.program = .ret e.row ∧ s.call = e.call ∧
      w'.committed = s.writes w.committed := by
  cases hstep with
  | commit t s hs r hp =>
    simp only [List.append_cancel_left_eq, List.cons.injEq, and_true] at hlog
    subst hlog
    exact ⟨t, s, hs, hp, rfl, rfl⟩
  | _ => simp at hlog

/-- What a step of a run logs as booked, its call books alone on the committed state. -/
theorem booked_of_logged (hw : Reaches (server env) seeded w) (hstep : Step (server env) w w')
    {e : Entry Sequence Answer Call LockKey} (hlog : w'.log = w.log ++ [e]) {p : BookingArguments}
    (hcall : e.call = .bookReservation p readings) {row : BookingRow}
    (hrow : e.row = .booking row) (hb : row.outcome.Books) :
    ∃ supply, (∀ q, ¬ InUse w.committed q (supply q 0)) ∧
      (bookReservation env p readings).transact ⟨w.committed, [], supply⟩ =
        (.returned (.booking row), w'.committed) := by
  obtain ⟨t, s, hs, hp, hsame, hafter⟩ := exists_session_of_logged hstep hlog
  rw [hrow] at hp
  rcases (invariant_of_reaches hw).returns hs hp with ⟨hdraws, hans⟩ | ⟨-, settled⟩
  · obtain ⟨supply, hfresh, hrun⟩ := transact_of_answers hdraws hans
    rw [hsame, hcall, ← hafter] at hrun
    exact ⟨supply, hfresh, hrun⟩
  · obtain ⟨request, start, o, d, fingerprint, heq⟩ := settled
    have hyields := yields_of_reaches undetailed_server hw t s hs
    rw [hp] at hyields
    have hdetail : row.detailCode.isSome := by
      cases heq
      rfl
    exact absurd hb (hyields p readings row (hsame.trans hcall) rfl hdetail)

/-- No booking in the past. Every call that returns a new reservation, executed alone in any
state or committed by a step of any run, is timely at the last clock reading it has taken. -/
theorem no_booking_in_the_past :
    (∀ (m : Memory Database Sequence) p readings row db', Constraints env.character m.view →
      (∀ q, ¬ InUse m.view q (m.supply q 0)) →
      (bookReservation env p readings).transact m = (.returned (.booking row), db') →
      row.outcome.Books → p.Steady env m.view → Timely env m.view db' readings.second row) ∧
    ∀ w w' e p readings row, Reaches (server env) seeded w → Step (server env) w w' →
      w'.log = w.log ++ [e] → e.call = .bookReservation p readings → e.row = .booking row →
      row.outcome.Books → p.Steady env w.committed →
      Timely env w.committed w'.committed readings.second row := by
  constructor
  · intro m p readings row db' hc hfresh hrun hb hsteady
    exact timely_of_transact hc hfresh hrun hb hsteady
  · intro w w' e p readings row hw hstep hlog hcall hrow hb hsteady
    obtain ⟨supply, hfresh, hrun⟩ := booked_of_logged hw hstep hlog hcall hrow hb
    exact timely_of_transact (m := ⟨w.committed, [], supply⟩)
      (consistent_of_reaches hw).constraints hfresh hrun hb hsteady

theorem steady_first : firstRequest.arguments.Steady .eastern seed := by
  rintro c hc zone hzone l -
  rw [List.mem_singleton.mp hc, seed_foundation.zone] at hzone
  cases hzone
  exact ⟨⟨_, Zone.fixed_follows (-300)⟩, Zone.fixed_steady⟩

theorem no_booking_in_the_past_first : ∃ row db',
    (bookReservation .eastern firstRequest.arguments firstNoon).transact (firstMemory seed) =
      (.returned (.booking row), db') ∧ row.outcome = .booked ∧
    Timely .eastern seed db' firstNoon.second row := by
  obtain ⟨row, db', hrun, hb⟩ : Returns (bookReservation .eastern firstRequest.arguments firstNoon)
      (firstMemory seed) (·.outcome = .booked) := by decide +kernel
  exact ⟨row, db', hrun, hb, no_booking_in_the_past.1 (firstMemory seed) _ _ _ _
    (constraints_seed _) (firstMemory_fresh rfl rfl) hrun (.inl hb) steady_first⟩

end CafeFausse
