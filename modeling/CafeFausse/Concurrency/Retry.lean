import CafeFausse.Concurrency.Runs
import CafeFausse.Routines.Evolution

/-! # Recovering a booking

A booking that was made stays on record through every later call. Sending the same
request again finds it, but only behind the checks of the current policy, which are
made against the new clock and the new settings.
-/

namespace CafeFausse

open Transaction Program Database

variable {env : Environment} {request : BookingRequest} {m : Memory Database Sequence}
  {readings : Readings} {r : Reservation} {tables : Option (List ℤ)} {c : Customer}
  {db db' : Database}

/-- The record of a booking stays through any sequence of calls. -/
theorem Recorded.serial {L : List (Entry Sequence Answer Call LockKey)}
    (h : Recorded env request r tables c db) (hc : Consistent env.character db)
    (hrun : Serial (guards env) (server env).Answers db L db') :
    ∃ c', Recorded env request r tables c' db' := by
  have hboth := hrun.preserves
    (P := fun db' => Consistent env.character db' ∧ Evolves db db')
    (fun _ _ _ _ _ hdraws ha ⟨hc, he⟩ =>
      have hchange := change_of_answers hc.constraints hdraws ha
      ⟨hc.change hchange, he.trans (hchange.evolves hc.constraints)⟩)
    ⟨hc, .refl db⟩
  exact h.evolves hboth.2

/-- A request on record that the current policy admits is answered from the record. -/
theorem Recorded.retry {f : Foundation} {start : ResolvedStart} {hours : RestaurantOperatingHours}
    (h : Recorded env request r tables c m.view) (hc : Constraints env.character m.view)
    (hv : request.Valid env.character) (hfresh : ¬ InUse m.view .customer (m.supply .customer 0))
    (hadm : Admitted env request readings m.view f start hours) :
    Returns (bookReservation env request.arguments readings) m
      (· = exactRetryRow r tables c) := by
  refine (returns_bookReservation hv).mpr (returns_iff_wp.mpr (wp_bookRequest_admitted hadm ?_))
  unfold bookingBlock
  refine bind_wp (wp_liftExcept.mpr ?_)
  rw [canonicalEmailLockKey_of_valid hv]
  refine bind_wp (wp_acquire.mpr (bind_wp (wp_resolveCustomer hv hfresh (fun d hd he _ => ?_)
    (fun hno => absurd h.email (hno c h.customer)) nofun)))
  obtain rfl : d = c := List.inj_on_of_nodup_map hc.customers_email_uq hd h.customer
    (he.trans h.email.symm)
  show (serveCustomer env request f start none none readings d false).wp _ _ _ _
  unfold serveCustomer
  refine bind_wp (wp_checkIdentity (fun _ _ => ?_) fun o _ hdiff => ?_)
  swap
  · exact (hdiff.elim h.identifies.names h.identifies.initials).elim
  have hstart : r.startsAt = start.startsAt := by
    obtain ⟨l, hl, hr⟩ := h.startsAt
    have hl' : start.localStart = l :=
      Timestamp.finite.inj (hadm.resolved.localStart.symm.trans hl)
    rw [hr, hadm.resolved.startsAt_eq, hl']
  refine bind_wp (wp_exactRetry (fun s hs hsame => ⟨_, rfl, ?_⟩) fun hunique => ?_)
  · obtain rfl : s = r := List.inj_on_of_nodup_map hc.reservations_exact_identity_uq hs
      h.reservation (by
        simp only [Prod.mk.injEq]
        exact ⟨hsame.1.trans h.customerId.symm, hsame.2.1.trans hstart.symm,
          hsame.2.2.trans h.partySize.symm⟩)
    rw [← h.assigned]
  · exact absurd ⟨h.customerId, hstart, h.partySize⟩ (hunique r h.reservation)

/-- An exact retry is only found behind the checks of the current policy. -/
theorem Returns.admitted {request : BookingRequest} (hv : request.Valid env.character)
    (h : Returns (bookReservation env request.arguments readings) m (·.outcome = .exactRetry)) :
    ∃ f start hours, Admitted env request readings m.view f start hours := by
  have hstages : (bookRequest env request none none readings).wp (fun _ _ => True)
      (fun ans _ => ∀ row, ans = .booking row → row.outcome = .exactRetry →
        ∃ f start hours, Admitted env request readings m.view f start hours)
      (fun _ _ => True) m := by
    refine wp_bookRequest_stages (fun o d ho row he => ?_) (fun _ _ => trivial)
      fun f start hours hadm => ?_
    · cases he
      rcases ho with rfl | ⟨rfl, -⟩ <;> exact nofun
    · -- nothing is left to show of what the block returns
      refine wp_mono (wp_trivial _ _) (fun _ _ h => h)
        (fun _ _ _ row _ _ => ⟨f, start, hours, hadm⟩) fun e m' _ => ?_
      unfold caught
      split
      · exact wp_mono (wp_trivial _ _) (fun _ _ h => h)
          (fun _ _ _ row _ _ => ⟨f, start, hours, hadm⟩) fun _ _ h => h
      · trivial
  obtain ⟨row, hretry, himp⟩ := ((returns_bookReservation hv).mp h).all hstages
  exact himp hretry

/-- What returns as booked is a placement carried out. -/
theorem placement_of_transact {p : BookingArguments} {row : BookingRow}
    (hc : Constraints env.character m.view) (hfresh : ∀ q, ¬ InUse m.view q (m.supply q 0))
    (h : (bookReservation env p readings).transact m = (.returned (.booking row), db'))
    (hb : row.outcome.Books) :
    ∃ request, p = request.arguments ∧
      ∃ b : Placement env request readings none m.view, row = b.row ∧ db' = b.after := by
  have hall : (bookReservation env p readings).wp (fun x _ => x.elim)
      (fun ans m' => ∀ row, ans = .booking row → row.outcome.Books →
        ∃ request, p = request.arguments ∧
          ∃ b : Placement env request readings none m.view, row = b.row ∧ m'.view = b.after)
      (fun _ _ => True) m := by
    unfold bookReservation bookReservationCore
    rw [if_neg (by simp)]
    split
    · rintro row he hb
      cases he
      simp [refusal, Outcome.Books] at hb
    next request hrequest =>
    obtain ⟨rfl, hv, -⟩ := normalizedInput_eq_some.mp hrequest
    refine wp_mono (wp_bookRequest (P := fun row db' => row.outcome.Books →
      ∃ b : Placement env request readings none m.view, row = b.row ∧ db' = b.after) hc hfresh hv
      (fun row hno hb => absurd hb hno) fun b _ => ⟨b, rfl, rfl⟩) (fun _ _ hq => hq) ?_
      fun _ _ _ => trivial
    rintro _ m' ⟨row', rfl, h⟩ row he hb
    cases he
    exact ⟨request, rfl, h hb⟩
  obtain ⟨m', hall, rfl⟩ := of_transact_returned hall h
  exact hall row rfl hb

/-- After a booking and any calls that follow, the same request is answered with the
reservation as it was made and the current newsletter flag exactly if the current
policy admits it again. -/
theorem retry_recovers_iff {p : BookingArguments} {row : BookingRow}
    {L : List (Entry Sequence Answer Call LockKey)} {m' : Memory Database Sequence}
    (readings' : Readings) (hc : Consistent env.character m.view)
    (hfresh : ∀ q, ¬ InUse m.view q (m.supply q 0))
    (hbooked : (bookReservation env p readings).transact m = (.returned (.booking row), db'))
    (hb : row.outcome.Books)
    (hrun : Serial (guards env) (server env).Answers db' L m'.view)
    (hfresh' : ∀ q, ¬ InUse m'.view q (m'.supply q 0)) :
    ∃ request r c, p = request.arguments ∧ r ∈ db'.reservations ∧
      (row.reservationId = some r.reservationId ∧ row.startsAt = some r.startsAt ∧
        row.endsAt = some r.endsAt ∧ row.partySize = some r.partySize) ∧
      c ∈ m'.view.customers ∧ c.email = request.email ∧
      (Returns (bookReservation env p readings') m'
          (· = exactRetryRow r row.assignedTableNumbers c) ↔
        ∃ f start hours, Admitted env request readings' m'.view f start hours) := by
  obtain ⟨request, rfl, b, rfl, rfl⟩ := placement_of_transact hc.constraints hfresh hbooked hb
  have hafter : Consistent env.character b.after := hc.change (.booked b)
  obtain ⟨tables, heffect⟩ := b.effect hc.constraints
  obtain ⟨hid, hstart, hend, hparty, -⟩ := heffect.reported
  obtain ⟨c, hrec⟩ := b.recorded.serial hafter hrun
  refine ⟨request, b.reservation, c, rfl, b.recorded.reservation, ⟨hid, hstart, hend, hparty⟩,
    hrec.customer, hrec.email, fun hret => ?_, fun ⟨f, start, hours, hadm⟩ => ?_⟩
  · obtain ⟨row, db, hrun', hrow⟩ := hret
    exact Returns.admitted b.valid ⟨row, db, hrun', hrow ▸ rfl⟩
  · exact hrec.retry (hafter.serial hrun).constraints b.valid (hfresh' .customer) hadm

section FirstBooking

/-- A later look at the clock, one hour before the first booking starts. -/
def hourBefore : Readings where
  first := Time.day + Time.minutes (21 * 60)
  second := Time.day + Time.minutes (21 * 60)
  random := firstNoon.random

/-- The database after the first booking, and the numbers that are left. -/
def bookedMemory : Memory Database Sequence where
  view := ((bookReservation .eastern firstRequest.arguments firstNoon).transact
    (firstMemory seed)).2
  marks := []
  supply _ i := i + 2

/-- A change of a capacity answers without a number from a sequence. -/
theorem answers_setRestaurantTableCapacity {tableNumber seatingCapacity : Option ℤ}
    {row : RestaurantTable} {w : Database → Database}
    (h : db.updateTable tableNumber seatingCapacity = .ok (row, w)) :
    (server env).Answers (.setRestaurantTableCapacity tableNumber seatingCapacity) [] db
      (.table row) (w db) := by
  intro d
  refine ⟨[], ?_⟩
  show (setRestaurantTableCapacity tableNumber seatingCapacity).run ⟨db, [], d⟩ = _
  unfold setRestaurantTableCapacity
  simp only [Bind.bind, run_bind, acquire, execute, run, h]

/-- A call that draws no number leaves the same state with any supply. -/
theorem transact_of_answers_nil {call : Call} {row : Answer}
    (h : (server env).Answers call [] db row db') (d : Sequence → ℕ → ℕ) :
    ((server env).body call).transact ⟨db, [], d⟩ = (.returned row, db') := by
  obtain ⟨ms, hrun⟩ := h d
  unfold transact
  rw [show supplyOf [] d = d from rfl] at hrun
  rw [hrun]

/-- Table 16, which the booking has, is enlarged later. -/
def enlargedMemory : Memory Database Sequence where
  view := (((server .eastern).body (.setRestaurantTableCapacity (some 16) (some 6))).transact
    ⟨bookedMemory.view, [], bookedMemory.supply⟩).2
  marks := []
  supply _ i := i + 2

theorem enlargedMemory_fresh (q : Sequence) :
    ¬ InUse enlargedMemory.view q (enlargedMemory.supply q 0) := by
  cases q
  · show ¬ ∃ c ∈ enlargedMemory.view.customers, c.customerId = enlargedMemory.supply .customer 0
    decide +kernel
  · show ¬ ∃ r ∈ enlargedMemory.view.reservations,
      r.reservationId = enlargedMemory.supply .reservation 0
    decide +kernel

theorem serial_enlarged : ∃ L, L.length = 1 ∧
    Serial (guards .eastern) (server .eastern).Answers bookedMemory.view L enlargedMemory.view := by
  have hok : (bookedMemory.view.updateTable (some 16) (some 6)).toOption.isSome = true := by
    decide +kernel
  cases hupdate : bookedMemory.view.updateTable (some 16) (some 6) with
  | error e =>
    rw [hupdate] at hok
    cases hok
  | ok x =>
    obtain ⟨row, w⟩ := x
    have hanswers : (server .eastern).Answers (.setRestaurantTableCapacity (some 16) (some 6)) []
        bookedMemory.view (.table row) (w bookedMemory.view) :=
      answers_setRestaurantTableCapacity hupdate
    have hview : enlargedMemory.view = w bookedMemory.view := by
      unfold enlargedMemory
      simp only
      rw [transact_of_answers_nil hanswers]
    rw [hview]
    exact ⟨[⟨_, [], _, []⟩], rfl, .snoc (L := []) (.nil _) List.nodup_nil
      (List.forall_mem_nil _) hanswers⟩

/-- For the first booking, whose table is enlarged in between. -/
theorem retry_recovers_iff_first :
    ∃ request r c, firstRequest.arguments = request.arguments ∧
      r ∈ bookedMemory.view.reservations ∧ r.reservationId = 1 ∧
      c ∈ enlargedMemory.view.customers ∧ c.email = request.email ∧
      (Returns (bookReservation .eastern firstRequest.arguments hourBefore) enlargedMemory
          (· = exactRetryRow r (some [16]) c) ↔
        ∃ f start hours,
          Admitted .eastern request hourBefore enlargedMemory.view f start hours) := by
  obtain ⟨row, db', hrun, hb, hid, htables⟩ :
      Returns (bookReservation .eastern firstRequest.arguments firstNoon) (firstMemory seed)
        (fun row => row.outcome = .booked ∧ row.reservationId = some 1 ∧
          row.assignedTableNumbers = some [16]) := by decide +kernel
  have hview : bookedMemory.view = db' := by
    unfold bookedMemory
    rw [hrun]
  subst hview
  obtain ⟨L, -, hserial⟩ := serial_enlarged
  obtain ⟨request, r, c, hrequest, hr, ⟨hrid, -⟩, hc, hemail, hiff⟩ :=
    retry_recovers_iff (m := firstMemory seed) hourBefore (consistent_seed _)
      (firstMemory_fresh rfl rfl) hrun (.inl hb) hserial enlargedMemory_fresh
  rw [htables] at hiff
  exact ⟨request, r, c, hrequest, hr, Option.some.inj (hrid.symm.trans hid), hc, hemail, hiff⟩

/-- One hour before its start the booking cannot be recovered: the lead time has passed. -/
theorem retry_refused_hourBefore :
    Returns (bookReservation .eastern firstRequest.arguments firstNoon) (firstMemory seed)
        (fun row => row.outcome = .booked ∧ ∃ startsAt ∈ row.startsAt, hourBefore.first < startsAt) ∧
      Serial (guards .eastern) (server .eastern).Answers bookedMemory.view [] bookedMemory.view ∧
      Returns (bookReservation .eastern firstRequest.arguments hourBefore) bookedMemory
        (· = refusal .invalidRequest .insufficientSameDayLead) :=
  ⟨by decide +kernel, .nil _, by decide +kernel⟩

end FirstBooking

end CafeFausse
