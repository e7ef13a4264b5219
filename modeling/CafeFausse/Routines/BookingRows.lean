import CafeFausse.Concurrency.Retry
import CafeFausse.Routines.ExactRetry

/-! # What the row of a booking shows

A row with a reservation shows the one that is stored for the customer, the start and the
party size of the request, whether it is new or an exact retry. Any other row has a detail
exactly if its outcome calls for one, and no phone notice.
-/

namespace CafeFausse

open Transaction Program Database

variable {env : Environment} {request : BookingRequest} {m : Memory Database Sequence}
  {readings : Readings} {p : BookingArguments} {row : BookingRow} {db db' : Database}

/-- The outcomes that come with a reservation. -/
def Outcome.Succeeds (o : Outcome) : Prop := o.Books ∨ o = .exactRetry

/-- The outcomes that come with a detail. -/
def Outcome.Detailed (o : Outcome) : Prop :=
  o = .invalidRequest ∨ o = .invalidDatabaseConfiguration ∨ o = .unavailable

instance (o : Outcome) : Decidable o.Succeeds := instDecidableOr
instance (o : Outcome) : Decidable o.Detailed := instDecidableOr

/-- The columns of a reservation and its customer. -/
def reportRow (o : Outcome) (r : Reservation) (c : Customer) (db : Database) : BookingRow where
  outcome := o
  reservationId := some r.reservationId
  startsAt := some r.startsAt
  endsAt := some r.endsAt
  partySize := some r.partySize
  assignedTableNumbers := db.tableNumbersOf r.reservationId
  newsletterSubscribed := some c.newsletterSubscribed
  phoneNotice := o = .bookedPhoneNotice
  fingerprintVersion := some r.fingerprintVersion
  reservationFingerprint := some r.reservationFingerprint

/-- The row shows a stored reservation that is the one asked for. -/
structure BookingRow.Reports (row : BookingRow) (p : BookingArguments) (db : Database)
    (r : Reservation) (c : Customer) : Prop where
  succeeds : row.outcome.Succeeds
  shown : row = reportRow row.outcome r c db
  reservation : r ∈ db.reservations
  customer : c ∈ db.customers
  customerId : r.customerId = c.customerId
  email : p.email = some c.email
  startsAt : ∃ l o, p.localStart = some (.finite l) ∧ p.utcOffsetMinutes = some o ∧
    r.startsAt = l - Time.minutes o
  partySize : p.partySize = some r.partySize

/-- The row shows that nothing was booked, and why. -/
structure BookingRow.Refuses (row : BookingRow) : Prop where
  fails : ¬ row.outcome.Succeeds
  detail : row.detailCode.isSome ↔ row.outcome.Detailed
  quiet : row.phoneNotice = false

theorem refuses_refusal {o : Outcome} {d : Detail} (ho : o.Detailed) : (refusal o d).Refuses := by
  refine ⟨?_, iff_of_true rfl ho, rfl⟩
  rcases ho with rfl | rfl | rfl
  · exact (by decide : ¬ Outcome.Succeeds .invalidRequest)
  · exact (by decide : ¬ Outcome.Succeeds .invalidDatabaseConfiguration)
  · exact (by decide : ¬ Outcome.Succeeds .unavailable)

theorem refuses_abortedRow {start : ResolvedStart} {o : Outcome} {d : Detail} {fingerprint : Bytes}
    (ho : o = .unavailable ∨ o = .invalidRequest) :
    (abortedRow request start o d fingerprint).Refuses := by
  have hdetailed : o.Detailed := by
    rcases ho with rfl | rfl
    · exact .inr (.inr rfl)
    · exact .inl rfl
  have h : (refusal o d).Refuses := refuses_refusal hdetailed
  exact ⟨h.fails, iff_of_true rfl hdetailed, rfl⟩

theorem refuses_of_bare (ho : row.outcome = .customerIdentityMismatch ∨
      row.outcome = .middleInitialConflict ∨ row.outcome = .sameCustomerOverlap)
    (hdetail : row.detailCode = none) (hquiet : row.phoneNotice = false) : row.Refuses := by
  have hbare : ¬ row.outcome.Succeeds ∧ ¬ row.outcome.Detailed := by
    rcases ho with ho | ho | ho <;> rw [ho] <;> decide
  refine ⟨hbare.1, ?_, hquiet⟩
  rw [hdetail]
  exact iff_of_false (by decide) hbare.2

/-- What a row that books nothing is to show. -/
def Tells (p : BookingArguments) (db : Database) (answer : Answer) : Prop :=
  ∀ row, answer = .booking row → ¬ row.outcome.Books →
    row.Refuses ∨ ∃ r c, row.Reports p db r c

theorem tells_of_refuses (h : row.Refuses) : Tells p db (.booking row) := by
  rintro _ ⟨⟩ -
  exact .inl h

section Exits

variable {tieRank : Option ℤ} {stage : Option FailureStage} {f : Foundation}
  {start : ResolvedStart} {c : Customer} {isNew : Bool} {signature : Bytes}

/-- Behind the lookup a row that books nothing is a refusal, whatever the statements see. -/
theorem yields_afterLookup : (do
      rejectOverlap request start c signature
      let allocation ← allocate request f start signature tieRank readings
      writeBooking env request start stage c isNew signature allocation : Routine Empty).Yields
      (fun answer => ∀ row, answer = .booking row → ¬ row.outcome.Books → row.Refuses)
      (fun e => Plain e ∨ ∃ o d, (o = .unavailable ∨ o = .invalidRequest) ∧
        e = .bookingAborted o d signature) := by
  have hplain (e : SqlError) (he : Plain e) : Plain e ∨ ∃ o d,
      (o = .unavailable ∨ o = .invalidRequest) ∧ e = .bookingAborted o d signature := .inl he
  have hallows (o : Outcome) (ho : o.Books) : Allows (fun answer => ∀ row,
      answer = .booking row → ¬ row.outcome.Books → row.Refuses) o := by
    rintro row rfl - _ ⟨⟩ hnot
    exact absurd ho hnot
  apply yields_bind
  · unfold rejectOverlap
    refine yields_bind yields_query fun overlap => ?_
    split
    · rintro _ ⟨⟩ -
      exact refuses_of_bare (.inr (.inr rfl)) rfl rfl
    · trivial
  intro _
  refine yields_bind (yields_allocate hplain fun o d ho _ => .inr ⟨o, d, ho, rfl⟩) fun a => ?_
  exact yields_writeBooking hplain (hallows _ (.inl rfl)) (hallows _ (.inr rfl))

/-- The block with a customer who is stored, or of whom no reservation is. -/
theorem wp_serveCustomer_tells (hs : ResolvedTo f request start)
    (hc : (c ∈ m.view.customers ∧ c.email = request.email) ∨
      ∀ r ∈ m.view.reservations, r.customerId ≠ c.customerId) :
    (serveCustomer env request f start tieRank stage readings c isNew).wp (fun _ _ => True)
      (fun answer m' => Tells request.arguments m'.view answer)
      (caught (abortHandler request start) (fun _ _ => True)
        (fun answer m' => Tells request.arguments m'.view answer) fun _ _ => True) m := by
  unfold serveCustomer
  apply bind_wp
  apply wp_checkIdentity
  swap
  · rintro o (rfl | rfl) -
    · exact tells_of_refuses (refuses_of_bare (.inl rfl) rfl rfl)
    · exact tells_of_refuses (refuses_of_bare (.inr (.inl rfl)) rfl rfl)
  intro _ _
  apply bind_wp
  apply wp_exactRetry
  · rintro r hr ⟨hid, hstart, hparty⟩ row ⟨⟩ -
    rcases hc with ⟨hmem, hemail⟩ | hnone
    · refine .inr ⟨r, c, .inr rfl, rfl, hr, hmem, hid, ?_, ?_, ?_⟩
      · exact congrArg some hemail.symm
      · exact ⟨start.localStart, request.utcOffsetMinutes, congrArg some hs.localStart, rfl,
          hstart.trans hs.startsAt_eq⟩
      · exact congrArg some hparty.symm
    · exact absurd hid (hnone r hr)
  intro _
  apply wp_mono (yields_afterLookup.wp m)
  · exact fun _ _ _ => trivial
  · exact fun answer _ h row hrow hnot => .inl (h row hrow hnot)
  · rintro e m' (he | ⟨o, d, ho, rfl⟩)
    · exact caught_of_plain he trivial
    · exact tells_of_refuses (refuses_abortedRow ho)

/-- Every exit that books nothing tells why, or what is stored. -/
theorem wp_bookRequest_tells (hc : Constraints env.character m.view) :
    (bookRequest env request tieRank stage readings).wp (fun _ _ => True)
      (fun answer m' => Tells request.arguments m'.view answer) (fun _ _ => True) m := by
  apply wp_bookRequest_stages
  · rintro o d (rfl | ⟨rfl, -⟩)
    · exact tells_of_refuses (refuses_refusal (.inl rfl))
    · exact tells_of_refuses (refuses_refusal (.inr (.inl rfl)))
  · exact fun _ _ => trivial
  intro f start hours hadm
  unfold bookingBlock
  refine bind_wp (wp_liftExcept.mpr ?_)
  split
  case h_2 e he => exact caught_of_plain (plain_of_canonicalEmailLockKey he) trivial
  refine bind_wp (wp_acquire.mpr (bind_wp ?_))
  apply wp_resolveCustomer_any
  · intro c hstored
    obtain ⟨hmem, hemail⟩ := customerByEmail_eq_some hstored
    exact wp_serveCustomer_tells hadm.resolved (.inl ⟨hmem, hemail⟩)
  · intro n m' hunused hview
    refine wp_serveCustomer_tells hadm.resolved (.inr fun r hr hid => ?_)
    rw [hview] at hr
    obtain ⟨d, hd, hdr⟩ := hc.reservations_customer_fk r hr
    exact hunused d hd (hdr.trans hid)
  · exact fun e m' he => caught_of_plain he trivial

end Exits

/-- A placement shows what it has stored. -/
theorem Placement.reports {tieRank : Option ℤ} (b : Placement env request readings tieRank db) :
    b.row.Reports request.arguments b.after b.reservation (request.served b.customer) := by
  have hrecorded := b.recorded
  obtain ⟨l, hl, hstart⟩ := hrecorded.startsAt
  refine ⟨.inl b.row_books, ?_, hrecorded.reservation, hrecorded.customer, hrecorded.customerId,
    congrArg some hrecorded.email.symm, ⟨l, _, congrArg some hl, rfl, hstart⟩,
    congrArg some hrecorded.partySize.symm⟩
  unfold reportRow
  rw [hrecorded.assigned, b.booked.startsAt, b.booked.endsAt, b.booked.partySize, b.booked.version,
    b.booked.fingerprint]
  unfold Placement.row bookedRow
  cases !b.isNew && decide (DifferingPhone b.customer request) <;> rfl

/-- Whatever a booking returns that is executed alone, it is a refusal or shows what is stored. -/
theorem shown_of_transact (hc : Constraints env.character m.view)
    (hfresh : ∀ q, ¬ InUse m.view q (m.supply q 0))
    (h : (bookReservation env p readings).transact m = (.returned (.booking row), db')) :
    row.Refuses ∨ ∃ r c, row.Reports p db' r c := by
  by_cases hb : row.outcome.Books
  · obtain ⟨request, rfl, b, rfl, rfl⟩ := placement_of_transact hc hfresh h hb
    exact .inr ⟨_, _, b.reports⟩
  have hall : (bookReservation env p readings).wp (fun x _ => x.elim)
      (fun answer m' => Tells p m'.view answer) (fun _ _ => True) m := by
    unfold bookReservation bookReservationCore
    rw [if_neg (by simp)]
    split
    · exact tells_of_refuses (refuses_refusal (.inl rfl))
    next request hrequest =>
    obtain ⟨rfl, -, -⟩ := normalizedInput_eq_some.mp hrequest
    exact wp_mono (wp_bookRequest_tells hc) (fun x _ _ => x.elim) (fun _ _ h => h) fun _ _ h => h
  obtain ⟨m', htells, rfl⟩ := of_transact_returned hall h
  exact htells row rfl hb

end CafeFausse
