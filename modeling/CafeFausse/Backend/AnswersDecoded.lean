import CafeFausse.Backend.NewsletterGateway
import CafeFausse.Backend.ReservationGateway
import CafeFausse.Concurrency.Reports

/-! # The gateways understand the database

Each gateway checks what the routine returns and takes anything unexpected for a broken
contract. No run of the database gives it a reason: whatever calls run beside it, the row is
decoded, and the result states what is stored when the call commits. Only the clock of the session
can: where it is set back meanwhile, a reservation seems to end before it starts.
-/

namespace CafeFausse.Backend

open Transaction Program

variable {env : Environment} {session : Zone} {db : Database} {row : BookingRow}
  {w : World Database LockKey Sequence SqlError Answer Call} {t : ℕ}
  {s : Session Database LockKey Sequence SqlError Answer Call} {ans : Answer}

/-- The result states a stored reservation that is the one the command asks for. -/
structure ReservationBookingResult.States (result : ReservationBookingResult)
    (command : ReservationCommand) (db : Database) (r : Reservation) (c : Customer) : Prop where
  reservation : r ∈ db.reservations
  customer : c ∈ db.customers
  customerId : r.customerId = c.customerId
  email : c.email = command.email
  start : r.startsAt = command.localStart - Time.minutes command.utcOffsetMinutes
  party : r.partySize = command.partySize
  reservationId : result.reservationId = some r.reservationId
  startsAt : result.startsAt = some r.startsAt
  endsAt : result.endsAt = some r.endsAt
  partySize : result.partySize = some r.partySize
  assignedTableNumbers : ∀ n, n ∈ result.assignedTableNumbers ↔
    ⟨r.reservationId, n⟩ ∈ db.reservationTableAssignments
  newsletterSubscribed : result.newsletterSubscribed = some c.newsletterSubscribed

namespace ReservationGateway

theorem success_outcomeMap {o : Outcome} : success (outcomeMap o) = true ↔ o.Succeeds := by
  cases o <;> decide

/-- A refusal is valid. -/
theorem validRow_of_refuses (h : row.Refuses) : validRow session row = true := by
  have hfails : success (outcomeMap row.outcome) = false := by
    rw [Bool.eq_false_iff, ne_eq, success_outcomeMap]
    exact h.fails
  unfold validRow
  rw [if_neg (by rw [hfails]; decide)]
  have hdetail := h.detail
  have hnot := h.fails
  unfold validRefusal
  rw [h.quiet, ← Option.not_isSome]
  generalize row.outcome = o, row.detailCode.isSome = detailed at hdetail hnot ⊢
  revert hdetail hnot
  cases o <;> cases detailed <;> decide

theorem second_of_minutes {n k : ℤ} (h : n % Time.second = 0) :
    (n - Time.minutes k) % Time.second = 0 ∧ (n + Time.minutes k) % Time.second = 0 := by
  unfold Time.minutes
  unfold Time.second at h ⊢
  omega

/-- The offsets of the zone are whole seconds. -/
def WholeSecondOffsets (zone : Zone) : Prop := ∀ t, (zone.toLocal t - t) % Time.second = 0

theorem WholeSecondOffsets.second (h : WholeSecondOffsets session) {t : ℤ}
    (ht : t % Time.second = 0) : session.toLocal t % Time.second = 0 := by
  have := h t
  unfold Time.second at *
  omega

/-- On the clock of the session a reservation that the row reports ends after it starts. -/
def EndsLater (session : Zone) (row : BookingRow) : Prop :=
  row.outcome.Succeeds →
    ∀ s ∈ row.startsAt, ∀ e ∈ row.endsAt, session.toLocal s < session.toLocal e

/-- The row of a stored reservation is valid if the request was for a whole second and the clock
of the session runs on. -/
theorem validRow_of_reports {p : BookingArguments} {r : Reservation} {c : Customer} {l : ℤ}
    (h : row.Reports p db r c) (hc : Constraints env.character db) (hdb : Reportable db)
    (hid : 1 ≤ r.reservationId) (hl : p.localStart = some (.finite l))
    (hsecond : l % Time.second = 0) (hsession : WholeSecondOffsets session)
    (hlater : EndsLater session row) : validRow session row = true := by
  have hstart : r.startsAt % Time.second = 0 := by
    obtain ⟨l', o, hl', -, hstart⟩ := h.startsAt
    rw [hl] at hl'
    cases hl'
    rw [hstart]
    exact (second_of_minutes hsecond).1
  have hend : r.endsAt % Time.second = 0 := by
    have hduration := r.duration_ck
    simp only [List.mem_cons, List.not_mem_nil, or_false] at hduration
    rcases hduration with hd | hd | hd <;> rw [← sub_add_cancel r.endsAt r.startsAt, hd, add_comm]
    · exact (second_of_minutes hstart).2
    · exact (second_of_minutes hstart).2
    · exact (second_of_minutes hstart).2
  obtain ⟨tables, htables, hne, hordered, hbounds⟩ := hdb.tables hc h.reservation
  have hall : tables.all (fun n => 1 ≤ n ∧ n ≤ 32767) = true := by
    rw [List.all_eq_true]
    exact fun n hn => decide_eq_true (hbounds n hn)
  have hnotice : (decide (row.outcome = .bookedPhoneNotice) ==
      decide (outcomeMap row.outcome = .bookedPhoneNotice)) = true := by
    cases row.outcome <;> decide
  have hends : session.toLocal r.startsAt < session.toLocal r.endsAt := by
    have hlater := hlater h.succeeds
    rw [h.shown] at hlater
    exact hlater _ rfl _ rfl
  unfold validRow
  rw [if_pos (success_outcomeMap.mpr h.succeeds), h.shown]
  unfold validReservation reportRow
  simp only [htables, hdb.version r h.reservation, hdb.digest r h.reservation, secondPrecision,
    Option.any_some, hsession.second hstart, hsession.second hend, hall, hordered,
    Option.isNone_none, Option.isSome_some, hends, r.party_size_ck, decide_true, Bool.and_true,
    Bool.true_and, beq_self_eq_true, hnotice, Bool.and_eq_true, decide_eq_true_eq]
  simp only [hne, Bool.not_eq_true', List.isEmpty_eq_false_iff, ne_eq, not_false_eq_true, and_true]
  omega

theorem mem_tableNumbersOf {r : Reservation} {n : ℤ} :
    n ∈ (db.tableNumbersOf r.reservationId).getD [] ↔
      ⟨r.reservationId, n⟩ ∈ db.reservationTableAssignments := by
  have hgetD (l : List ℤ) : (Sql.arrayAgg l).getD [] = l := by
    unfold Sql.arrayAgg
    split
    · next h => exact h.symm
    · rfl
  unfold Database.tableNumbersOf
  rw [hgetD, Sql.mem_orderBy, mem_assignedTables]

/-- What is decoded from the row of a stored reservation states it. -/
theorem states_of_decode {command : ReservationCommand} {result : ReservationBookingResult}
    {r : Reservation} {c : Customer} (h : row.Reports command.arguments db r c)
    (hdecode : decode session row = .ok (columns result)) : result.States command db r c := by
  unfold decode at hdecode
  rw [if_pos (decode_columns hdecode).1] at hdecode
  have hcolumns := Except.ok.inj hdecode
  have hshown := h.shown
  obtain ⟨l, o, hl, ho, hstart⟩ := h.startsAt
  cases hl
  cases ho
  constructor
  · exact h.reservation
  · exact h.customer
  · exact h.customerId
  · exact (Option.some.inj h.email).symm
  · exact hstart
  · exact (Option.some.inj h.partySize).symm
  · change (columns result).reservationId = _
    rw [← hcolumns, hshown, reportRow]
  · change (columns result).startsAt = _
    rw [← hcolumns, hshown, reportRow]
  · change (columns result).endsAt = _
    rw [← hcolumns, hshown, reportRow]
  · change (columns result).partySize = _
    rw [← hcolumns, hshown, reportRow]
  · intro n
    change n ∈ (columns result).assignedTableNumbers ↔ _
    rw [← hcolumns, hshown, reportRow]
    exact mem_tableNumbersOf
  · change (columns result).newsletterSubscribed = _
    rw [← hcolumns, hshown, reportRow]

theorem exists_decode_iff :
    (∃ result, decode session row = .ok result) ↔ validRow session row = true := by
  constructor
  · rintro ⟨result, hdecode⟩
    exact (decode_columns hdecode).1
  · intro h
    unfold decode
    rw [if_pos h]
    exact ⟨_, rfl⟩

/-- A valid row of a success ends later than it starts. -/
theorem endsLater_of_validRow (h : validRow session row = true) : EndsLater session row := by
  intro hsucceeds
  unfold validRow at h
  rw [if_pos (success_outcomeMap.mpr hsucceeds)] at h
  unfold validReservation at h
  simp only [Bool.and_eq_true] at h
  obtain ⟨⟨⟨⟨⟨⟨⟨-, hlater⟩, -⟩, -⟩, -⟩, -⟩, -⟩, -⟩ := h
  intro s hs e he
  rw [Option.mem_def.mp hs, Option.any_some, Option.mem_def.mp he, Option.any_some] at hlater
  exact of_decide_eq_true hlater

/-- Whatever runs beside it, the row of a booking is decoded if on the clock of the session it ends
after it starts, and not otherwise. -/
theorem decoded_of_session
    (hdigest : ∀ n startsAt partySize, (env.fingerprint n startsAt partySize).length = 32)
    (hsession : WholeSecondOffsets session)
    (hw : Reaches (server env) seeded w) (hs : w.sessions t = some s) (hp : s.program = .ret ans)
    {command : ReservationCommand} {readings : Readings}
    (hcall : s.call = .bookReservation command.arguments readings) :
    ∃ row, ans = .booking row ∧
      ((∃ result, decode session row = .ok result) ↔ EndsLater session row) ∧
      ∀ result, decode session row = .ok result → success result.outcome →
        ∃ r c, result.States command (s.writes w.committed) r c := by
  obtain ⟨row, rfl, hrow⟩ := shown_of_session hw hs hp hcall
  obtain ⟨hc, hdb, hpositive⟩ := left_of_session hdigest hw hs hp
  refine ⟨row, rfl, ?_, fun result hdecode hsuccess => ?_⟩
  · rw [exists_decode_iff]
    rcases hrow with hrefuses | ⟨r, c, hreports⟩
    · exact iff_of_true (validRow_of_refuses hrefuses) fun hsucceeds =>
        absurd hsucceeds hrefuses.fails
    · exact ⟨endsLater_of_validRow,
        validRow_of_reports hreports hc hdb (hpositive r hreports.reservation) rfl
          command.localStart_ck hsession⟩
  · obtain ⟨-, hcolumns, houtcome⟩ := decode_columns hdecode
    rcases hrow with hrefuses | ⟨r, c, hreports⟩
    · rw [houtcome] at hsuccess
      exact absurd (success_outcomeMap.mp hsuccess) hrefuses.fails
    · exact ⟨r, c, states_of_decode hreports (hcolumns.symm ▸ hdecode)⟩

end ReservationGateway

namespace NewsletterGateway

/-- Whatever runs beside it, the row of a preference is decoded. -/
theorem decoded_of_session (hw : Reaches (server env) seeded w) (hs : w.sessions t = some s)
    (hp : s.program = .ret ans) {command : NewsletterPreferenceCommand}
    (hcall : s.call = .setNewsletterPreference command.arguments) :
    ∃ o flag result, ans = .newsletter o flag ∧ decodeResult o flag = .ok result ∧
      (success result.outcome → result.subscribed = some command.subscribed ∧
        ∀ c ∈ (s.writes w.committed).customers, c.email = command.email →
          c.newsletterSubscribed = command.subscribed) := by
  obtain ⟨o, flag, rfl, hshown⟩ := preferenceShown_of_session hw hs hp hcall
  have hc : Constraints env.character (s.writes w.committed) :=
    (consistent_of_reaches (hw.tail (.commit t s hs _ hp))).constraints
  cases hshown with
  | invalid => exact ⟨_, _, _, rfl, rfl, nofun⟩
  | absent unknown unsubscribes =>
    refine ⟨_, _, _, rfl, rfl, fun _ => ⟨?_, fun c hmem he => ?_⟩⟩
    · exact unsubscribes.symm
    · exact absurd (congrArg some he.symm) (unknown c hmem)
  | stored c customer email requested =>
    have hcommand : command.subscribed = c.newsletterSubscribed := Option.some.inj requested
    have hstored : ∀ d ∈ (s.writes w.committed).customers, d.email = command.email →
        d.newsletterSubscribed = command.subscribed := by
      intro d hd he
      have hsame : d.email = c.email := he.trans (Option.some.inj email)
      rw [List.inj_on_of_nodup_map hc.customers_email_uq hd customer hsame, hcommand]
    rw [hcommand] at hstored ⊢
    cases hflag : c.newsletterSubscribed with
    | true => exact ⟨_, _, _, rfl, rfl, fun _ => ⟨rfl, hflag ▸ hstored⟩⟩
    | false => exact ⟨_, _, _, rfl, rfl, fun _ => ⟨rfl, hflag ▸ hstored⟩⟩
  | conflict c customer email o conflicts =>
    rcases conflicts with rfl | rfl
    · exact ⟨_, _, _, rfl, rfl, nofun⟩
    · exact ⟨_, _, _, rfl, rfl, nofun⟩

end NewsletterGateway

/-- The gateways understand every answer. In every run, a call of theirs that is about to commit
returns a row that they decode, and a success states what the call leaves behind. A row of a
reservation is decoded exactly if on the clock of the session it ends after it starts. -/
theorem answers_decoded
    (hdigest : ∀ n startsAt partySize, (env.fingerprint n startsAt partySize).length = 32)
    (hsession : ReservationGateway.WholeSecondOffsets session)
    (hw : Reaches (server env) seeded w) (hs : w.sessions t = some s) (hp : s.program = .ret ans) :
    (∀ command readings, s.call = .bookReservation (ReservationCommand.arguments command) readings →
      ∃ row, ans = .booking row ∧
        ((∃ result, ReservationGateway.decode session row = .ok result) ↔
          ReservationGateway.EndsLater session row) ∧
        ∀ result, ReservationGateway.decode session row = .ok result →
          ReservationGateway.success result.outcome →
            ∃ r c, result.States command (s.writes w.committed) r c) ∧
    ∀ command, s.call = .setNewsletterPreference (NewsletterPreferenceCommand.arguments command) →
      ∃ o flag result, ans = .newsletter o flag ∧
        NewsletterGateway.decodeResult o flag = .ok result ∧
        (NewsletterGateway.success result.outcome → result.subscribed = some command.subscribed ∧
          ∀ c ∈ (s.writes w.committed).customers, c.email = command.email →
            c.newsletterSubscribed = command.subscribed) :=
  ⟨fun _ _ hcall => ReservationGateway.decoded_of_session hdigest hsession hw hs hp hcall,
    fun _ hcall => NewsletterGateway.decoded_of_session hw hs hp hcall⟩

section FirstBooking

theorem firstSecond : (Time.day + Time.minutes (17 * 60)) % Time.second = 0 := by decide

/-- The command behind the first request. -/
def firstCommand : ReservationCommand where
  firstName := text "Ada"
  middleInitial := none
  lastName := text "Byron"
  email := text "ada@example.com"
  phone := none
  localStart := Time.day + Time.minutes (17 * 60)
  utcOffsetMinutes := -300
  partySize := 2
  newsletterAction := .subscribe
  localStart_ck := firstSecond
  utcOffsetMinutes_ck := by decide
  partySize_ck := by decide
  newsletterAction_ck := nofun

instance (session : Zone) (row : BookingRow) :
    Decidable (ReservationGateway.EndsLater session row) :=
  inferInstanceAs (Decidable (row.outcome.Succeeds →
    ∀ s ∈ row.startsAt, ∀ e ∈ row.endsAt, session.toLocal s < session.toLocal e))

/-- The session is about to return a new reservation to the first command. -/
def booksFirst (s : Session Database LockKey Sequence SqlError Answer Call) : Bool :=
  match s.program, s.call with
  | .ret (.booking row), .bookReservation p _ =>
    decide (row.outcome = .booked ∧ p = firstCommand.arguments ∧
      ReservationGateway.EndsLater (.fixed 0) row)
  | _, _ => false

theorem exists_books : ∃ w s row readings, Reaches (server .eastern) seeded w ∧
    w.sessions 0 = some s ∧ s.program = .ret (.booking row) ∧
    s.call = .bookReservation firstCommand.arguments readings ∧ row.outcome = .booked ∧
    ReservationGateway.EndsLater (.fixed 0) row := by
  obtain ⟨w, hw, hbooks⟩ := World.exists_reaches (server .eastern) seed (fun _ => 1) 2
    (firstRun.take 23) (fun w => (w.sessions 0).any booksFirst) (by decide +kernel)
  obtain ⟨s, hs, hbooks⟩ := (Option.any_eq_true _ _).mp hbooks
  unfold booksFirst at hbooks
  split at hbooks
  · next row p readings hp hcall =>
    obtain ⟨hrow, rfl, hlater⟩ := of_decide_eq_true hbooks
    exact ⟨w, s, row, readings, hw, hs, hp, hcall, hrow, hlater⟩
  · cases hbooks

/-- The first booking, decoded in a session in UTC while a change of the hours waits for it. -/
theorem answers_decoded_first : ∃ w s row result, Reaches (server .eastern) seeded w ∧
    w.sessions 0 = some s ∧ s.program = .ret (.booking row) ∧
    ReservationGateway.decode (.fixed 0) row = .ok result ∧ result.outcome = .booked ∧
    ∃ r c, result.States firstCommand (s.writes w.committed) r c := by
  obtain ⟨w, s, row, readings, hw, hs, hp, hcall, hbooked, hlater⟩ := exists_books
  have hutc : ReservationGateway.WholeSecondOffsets (.fixed 0) := by
    intro t
    simp [Zone.fixed, Time.minutes]
  obtain ⟨row', hans, hdecoded, hstates⟩ :=
    (answers_decoded (fun _ _ _ => rfl) hutc hw hs hp).1 firstCommand readings hcall
  cases hans
  obtain ⟨result, hdecode⟩ := hdecoded.mpr hlater
  have houtcome : result.outcome = .booked := by
    rw [(ReservationGateway.decode_columns hdecode).2.2, hbooked]
    rfl
  refine ⟨w, s, row, result, hw, hs, hp, hdecode, houtcome, hstates result hdecode ?_⟩
  rw [houtcome]
  decide

end FirstBooking

end CafeFausse.Backend
