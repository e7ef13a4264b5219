import CafeFausse.Concurrency.Secured
import CafeFausse.Routines.Rejection
import CafeFausse.Transaction.Serial

/-! # Calls executed alone

How a call answers when nothing runs beside it, and what a booking that has been turned
away keeps to show for its row while others commit: executed alone it would be turned
away again, unless somebody else's row is now stored under its e-mail.
-/

namespace CafeFausse

open Transaction Program Database

variable {env : Environment} {db db' : Database}

/-- Only finitely many numbers are in use. -/
theorem exists_unused (db : Database) (q : Sequence) : ∃ n, ¬ InUse db q n := by
  cases q with
  | customer =>
    obtain ⟨n, hn⟩ := Infinite.exists_notMem_finset (db.customers.map (·.customerId)).toFinset
    exact ⟨n, fun ⟨c, hc, hid⟩ => hn (List.mem_toFinset.mpr (List.mem_map.mpr ⟨c, hc, hid⟩))⟩
  | reservation =>
    obtain ⟨n, hn⟩ := Infinite.exists_notMem_finset (db.reservations.map (·.reservationId)).toFinset
    exact ⟨n, fun ⟨r, hr, hid⟩ => hn (List.mem_toFinset.mpr (List.mem_map.mpr ⟨r, hr, hid⟩))⟩

/-- The numbers that a call drew can be followed by others that are not in use. -/
theorem exists_supply {draws : List (Sequence × ℕ)} (hdraws : ∀ d ∈ draws, ¬ InUse db d.1 d.2) :
    ∃ n, ∀ q, ¬ InUse db q (supplyOf draws n q 0) := by
  choose n hn using exists_unused db
  refine ⟨fun q _ => n q, fun q => ?_⟩
  rcases supplyOf_zero draws (fun q _ => n q) q with hm | he
  · exact hdraws _ hm
  · exact he ▸ hn q

/-- A call that answers in a run does so alone, on numbers that nobody uses. -/
theorem transact_of_answers {call : Call} {draws : List (Sequence × ℕ)} {ans : Answer}
    (hdraws : ∀ d ∈ draws, ¬ InUse db d.1 d.2)
    (h : (server env).Answers call draws db ans db') :
    ∃ supply, (∀ q, ¬ InUse db q (supply q 0)) ∧
      ((server env).body call).transact ⟨db, [], supply⟩ = (.returned ans, db') := by
  obtain ⟨n, hn⟩ := exists_supply hdraws
  obtain ⟨ms, hrun⟩ := h n
  refine ⟨supplyOf draws n, hn, ?_⟩
  unfold transact
  rw [hrun]

/-- What a call with these draws returns and leaves satisfies what holds of a lone
call on unused numbers. -/
theorem answers_wp {call : Call} {draws : List (Sequence × ℕ)} {r : Answer} {c v : Database}
    {R : Answer → Memory Database Sequence → Prop}
    (hdraws : ∀ d ∈ draws, ¬ InUse c d.1 d.2) (h : (server env).Answers call draws c r v)
    (hwp : ∀ supply, (∀ q, ¬ InUse c q (supply q 0)) →
      ((server env).body call).wp (fun x _ => x.elim) R (fun _ _ => True) ⟨c, [], supply⟩) :
    ∃ m, R r m ∧ m.view = v := by
  obtain ⟨supply, hfresh, hrun⟩ := transact_of_answers hdraws h
  exact of_transact_returned (hwp supply hfresh) hrun

/-- A call that answers makes one of the changes. -/
theorem change_of_answers {call : Call} {draws : List (Sequence × ℕ)} {r : Answer}
    (hc : Constraints env.character db) (hdraws : ∀ d ∈ draws, ¬ InUse db d.1 d.2)
    (h : (server env).Answers call draws db r db') : Change env db db' := by
  obtain ⟨m, ⟨-, hm⟩, rfl⟩ := answers_wp
    (R := fun ans m => (ans.isBooking = true → call.isBooking = true) ∧ Change env db m.view)
    hdraws h fun supply hfresh => wp_server_change call hc hfresh
  exact hm

/-- The row without the fingerprint of a reservation that was not made. -/
def Answer.report : Answer → Answer
  | .booking row => .booking
      (if row.reservationId.isNone then { row with reservationFingerprint := none } else row)
  | ans => ans

/-- Executed alone on numbers that nobody uses, the call reports this row and turns `db`
into `db'`. -/
def Alone (env : Environment) (call : Call) (db : Database) (ans : Answer) (db' : Database) :
    Prop :=
  ∃ supply ans', (∀ q, ¬ InUse db q (supply q 0)) ∧ ans'.report = ans.report ∧
    ((server env).body call).transact ⟨db, [], supply⟩ = (.returned ans', db')

/-- Whoever is stored under the e-mail of a booking call fits its request. -/
def Fits (env : Environment) (call : Call) (db : Database) : Prop :=
  ∀ request readings, call = .bookReservation request.arguments readings →
    ∀ c ∈ db.customers, c.email = request.email → Identifies env request c

theorem alone_of_answers {call : Call} {draws : List (Sequence × ℕ)} {ans : Answer}
    (hdraws : ∀ d ∈ draws, ¬ InUse db d.1 d.2)
    (h : (server env).Answers call draws db ans db') : Alone env call db ans db' := by
  obtain ⟨supply, hfresh, hrun⟩ := transact_of_answers hdraws h
  exact ⟨supply, ans, hfresh, rfl, hrun⟩

theorem Fits.of_evolves {call : Call} (h : Fits env call db') (hev : Evolves db db') :
    Fits env call db := by
  intro request readings hcall c hc he
  obtain ⟨c', hc', hk⟩ := hev.customers c hc
  exact hk.identifies (h request readings hcall c' hc' (hk.email.trans he))

/-- A call executed alone makes one of the changes. -/
theorem Alone.change {call : Call} {ans : Answer} (h : Alone env call db ans db')
    (hc : Constraints env.character db) : Change env db db' := by
  obtain ⟨supply, ans', hfresh, -, hrun⟩ := h
  obtain ⟨m', ⟨-, hchange⟩, rfl⟩ :=
    of_transact_returned (wp_server_change call hc hfresh) hrun
  exact hchange

/-- Only a booking that is turned away returns the row of the handler. -/
theorem rejection_of_transact {m : Memory Database Sequence} {p : BookingArguments}
    {readings : Readings} {row : BookingRow} (hc : Constraints env.character m.view)
    (hfresh : ∀ q, ¬ InUse m.view q (m.supply q 0))
    (h : (bookReservation env p readings).transact m = (.returned (.booking row), db'))
    (hrow : row.Aborted) :
    ∃ request, p = request.arguments ∧
      ∃ t : Rejection env request readings none m.view, row = t.row := by
  have hwp : (bookReservation env p readings).wp (fun x _ => x.elim)
      (fun ans _ => ∀ row, ans = .booking row → row.Aborted → ∃ request, p = request.arguments ∧
        ∃ t : Rejection env request readings none m.view, row = t.row) (fun _ _ => True) m := by
    unfold bookReservation bookReservationCore
    rw [if_neg (by simp)]
    split
    · intro row he hrow
      cases he
      simp [refusal, BookingRow.Aborted] at hrow
    next request hrequest =>
    obtain ⟨rfl, hv, -⟩ := normalizedInput_eq_some.mp hrequest
    refine wp_mono (wp_bookRequest_exits (P := fun row _ => row.Aborted →
      ∃ t : Rejection env request readings none m.view, row = t.row) hc hfresh hv
      (fun row _ hno hrow => absurd hrow hno) (fun t _ => ⟨t, rfl⟩) fun b hrow => ?_)
      (fun _ _ hq => hq) ?_ fun _ _ _ => trivial
    · simp [Placement.row, bookedRow, BookingRow.Aborted] at hrow
    · rintro _ m' ⟨row', rfl, h⟩ row he hrow
      cases he
      exact ⟨request, rfl, h hrow⟩
  obtain ⟨m', hall, -⟩ := of_transact_returned hwp h
  exact hall row rfl hrow

/-- A call turned away in `db` is turned away by the customers of a later state, too. -/
theorem Rejection.alone {request : BookingRequest} {readings : Readings} {l : List Customer}
    (t : Rejection env request readings none db) (hc : Constraints env.character db)
    (hc' : Constraints env.character { db with customers := l })
    (hev : Evolves db { db with customers := l })
    (hfits : ∀ c ∈ l, c.email = request.email → Identifies env request c) :
    Alone env (.bookReservation request.arguments readings) { db with customers := l }
      (.booking t.row) { db with customers := l } := by
  choose n hn using exists_unused { db with customers := l }
  have hreturns : (bookReservation env request.arguments readings).wp (fun x _ => x.elim)
      (fun ans m' => m'.view = { db with customers := l } ∧
        ans.report = (Answer.booking t.row).report) (fun _ _ => False)
      ⟨{ db with customers := l }, [], fun q _ => n q⟩ := by
    unfold bookReservation bookReservationCore
    rw [if_neg (by simp), normalizedInput_eq_some.mpr ⟨rfl, t.valid, by simp⟩]
    exact wp_bookRequest_unserved t.admitted.withCustomers (hn .customer) t.valid
      (fun c isNew db' hres => t.unserved_again hc hc' hev hfits hres) fun k m' hm' => ⟨hm', rfl⟩
  obtain ⟨ans, m', hrun, hview, hans⟩ := exists_transact hreturns
  exact ⟨_, ans, hn, hans, hview ▸ hrun⟩

theorem report_eq_newsletter {ans : Answer} {o : NewsletterOutcome} {flag : Option Bool}
    (h : ans.report = .newsletter o flag) : ans = .newsletter o flag := by
  cases ans with
  | newsletter o' flag' => exact h
  | _ => cases h

/-- A subscription executed alone leaves a customer with the names that were sent. -/
theorem Alone.subscribed {p : NewsletterArguments} {ans : Answer} {flag : Option Bool}
    (h : Alone env (.setNewsletterPreference p) db ans db') (hc : Constraints env.character db)
    (hans : ans.report = .newsletter .subscribed flag) :
    ∃ request, p.request = some request ∧ ∃ c ∈ db'.customers, c.email = request.email ∧
      ¬ NamesDiffer env.character c request.firstName request.lastName := by
  obtain ⟨supply, ans', hfresh, hreport, hrun⟩ := h
  obtain ⟨m', hstored, rfl⟩ :=
    of_transact_returned (wp_setNewsletterPreference_subscribed (m := ⟨db, [], supply⟩) hc) hrun
  exact hstored flag (report_eq_newsletter (hreport.trans hans))

/-- A row of the handler, reported by a call executed alone, comes from a rejection. -/
theorem Alone.rejection {call : Call} {ans : Answer} {row : BookingRow}
    (h : Alone env call db ans db') (hc : Constraints env.character db)
    (hans : ans.report = (Answer.booking row).report) (hid : row.reservationId = none)
    (hrow : row.Aborted) :
    ∃ request readings, call = .bookReservation request.arguments readings ∧
      ∃ t : Rejection env request readings none db, (Answer.booking t.row).report = ans.report := by
  obtain ⟨supply, ans', hfresh, hreport, hrun⟩ := h
  obtain ⟨m', ⟨hbooking, -⟩, -⟩ :=
    of_transact_returned (wp_server_change call hc hfresh) hrun
  rw [← hreport] at hans ⊢
  cases ans' with
  | booking row' =>
    have hrow' : row'.Aborted := by
      simp only [Answer.report, hid, Option.isNone_none, if_true, Answer.booking.injEq] at hans
      split at hans
      · have hd := congrArg BookingRow.detailCode hans
        have hs := congrArg BookingRow.startsAt hans
        simp only at hd hs
        exact ⟨hd ▸ hrow.1, hs ▸ hrow.2⟩
      · subst hans
        exact hrow
    cases call with
    | bookReservation p readings =>
      obtain ⟨request, rfl, t, rfl⟩ :=
        rejection_of_transact (m := ⟨db, [], supply⟩) hc hfresh hrun hrow'
      exact ⟨request, readings, rfl, t, rfl⟩
    | _ => cases hbooking rfl
  | _ => cases hans

/-- What the serializability of the server rests on. -/
theorem server_accountable : Accountable (server env) (guards env)
    (fun call _ => Alone env call)
    (fun call _ db ans => Fits env call db → Alone env call db ans db)
    (Consistent env.character) where
  secured := server_secured
  answers hdraws h := alone_of_answers hdraws h
  settles hdraws h _ := alone_of_answers hdraws h
  preserves hc hdraws h := hc.change (change_of_answers hc.constraints hdraws h)
  outlasts := by
    intro call draws db ans locks call' draws' ans' db' hc hset hdraws h hagree hstands hfits
    obtain ⟨hrestaurant, request₀, start, o, d, fp, hans⟩ := hset
    have hchange := change_of_answers hc.constraints hdraws h
    have hev := hchange.evolves hc.constraints
    have hsame : db' = { db with customers := db'.customers } :=
      SameRestaurant.eq (hagree _ hrestaurant)
    obtain ⟨request, readings, rfl, t, ht⟩ := (hstands (hfits.of_evolves hev)).rejection
      hc.constraints (congrArg Answer.report hans) rfl ⟨rfl, rfl⟩
    have hc' := (hc.change hchange).constraints
    rw [hsame] at hev hc'
    obtain ⟨supply, ans'', hfresh, hreport, hrun⟩ := t.alone hc.constraints hc' hev
      fun c hm he => hfits request readings rfl c hm he
    rw [← hsame] at hfresh hrun
    exact ⟨supply, ans'', hfresh, hreport.trans ht, hrun⟩

/-- Executing calls one after another keeps the database consistent. -/
theorem Consistent.serial {L : List (Entry Sequence Answer Call LockKey)}
    (h : Serial (guards env) (server env).Answers db L db') (hc : Consistent env.character db) :
    Consistent env.character db' :=
  h.preserves (fun _ _ _ _ _ hdraws ha hc =>
    hc.change (change_of_answers hc.constraints hdraws ha)) hc

end CafeFausse
