import CafeFausse.Routines.BookingAnswers
import CafeFausse.Routines.BookingEffect
import CafeFausse.Routines.Consistency
import CafeFausse.Routines.FingerprintFree
import CafeFausse.Routines.Offers

/-! # Exact retries without fingerprints

A booking is answered as an exact retry if a reservation of its customer, start and party size
is stored, whatever function gives the fingerprints and whatever fingerprints are stored.
-/

namespace CafeFausse

open Transaction Program Database

variable {env : Environment} {request : BookingRequest} {m : Memory Database Sequence}
  {readings : Readings} {tieRank : Option ℤ} {stage : Option FailureStage}

/-- The request gets as far as its customer, of whom a reservation with the same start and
party size is stored. -/
def Repeats (env : Environment) (request : BookingRequest) (readings : Readings)
    (db : Database) : Prop :=
  ∃ f start hours c, Admitted env request readings db f start hours ∧
    db.customerByEmail request.email = some c ∧ Identifies env request c ∧
    ∃ r ∈ db.reservations, SameIdentity c.customerId start.startsAt request.partySize r

/-- The call passes its input check with a request that repeats a stored reservation. -/
def BookingCall.Repeats (call : BookingCall) (env : Environment) (db : Database) : Prop :=
  call.isolation = .readCommitted ∧ ∃ request,
    normalizedInput env.character call.arguments call.stage = some request ∧
      CafeFausse.Repeats env request call.readings db

section Found

/-- The customer is the stored one, or a new row whose number no customer has. -/
theorem wp_resolveCustomer_any {Q : Customer × Bool → Memory Database Sequence → Prop}
    {R : Answer → Memory Database Sequence → Prop} {E : SqlError → Memory Database Sequence → Prop}
    (hold : ∀ c, m.view.customerByEmail request.email = some c → Q (c, false) m)
    (hnew : ∀ n m', (∀ c ∈ m.view.customers, c.customerId ≠ n) →
      m'.view.reservations = m.view.reservations → Q (request.newCustomer n, true) m')
    (hE : ∀ e m', Plain e → E e m') : (resolveCustomer env request stage).wp Q R E m := by
  unfold resolveCustomer
  refine bind_wp (wp_query.mpr ?_)
  cases hstored : m.view.customerByEmail request.email with
  | some c => exact hold c hstored
  | none =>
    refine bind_wp (wp_draw.mpr (bind_wp (wp_attempt.mpr ?_)))
    simp only
    cases hinsert : Database.insertCustomer env.character
        (request.newCustomer (m.supply .customer 0)) m.view with
    | ok result =>
      obtain ⟨c, w⟩ := result
      obtain ⟨-, hunused, rfl, rfl⟩ := insertCustomer_ok hinsert
      simp only
      split
      · exact hE _ _ plain_injectedFailure
      · exact hnew _ _ (fun c hc => (hunused c hc).1) rfl
    | error e =>
      cases e with
      | uniqueViolation =>
        refine bind_wp (wp_query.mpr ?_)
        simp only [hstored]
        exact hE _ _ (plain_of_insertCustomer hinsert)
      | _ => exact hE _ _ (plain_of_insertCustomer hinsert)

/-- What is left to do after the lookup is no exact retry any more. -/
theorem wp_afterLookup {f : Foundation} {start : ResolvedStart} {c : Customer} {isNew : Bool}
    {signature : Bytes} {m : Memory Database Sequence} :
    (do
      rejectOverlap request start c signature
      let allocation ← allocate request f start signature tieRank readings
      writeBooking env request start stage c isNew signature allocation : Routine Empty).wp
      (fun _ _ => True) (fun answer _ => ∀ row, answer = .booking row → row.outcome ≠ .exactRetry)
      (fun e _ => Plain e ∨ ∃ o d, (o = .unavailable ∨ o = .invalidRequest) ∧
        e = .bookingAborted o d signature) m := by
  have hallows (o : Outcome) (ho : o ≠ .exactRetry) :
      Allows (fun answer => ∀ row, answer = .booking row → row.outcome ≠ .exactRetry) o := by
    rintro row rfl - _ ⟨⟩
    exact ho
  have hplain (e : SqlError) (he : Plain e) : Plain e ∨ ∃ o d,
      (o = .unavailable ∨ o = .invalidRequest) ∧ e = .bookingAborted o d signature := .inl he
  refine (yields_bind (yields_rejectOverlap (hallows _ (by decide))) fun _ => ?_).wp m
  refine yields_bind (yields_allocate hplain fun o d ho _ => .inr ⟨o, d, ho, rfl⟩) fun a => ?_
  exact yields_writeBooking hplain (hallows _ (by decide)) (hallows _ (by decide))

/-- An exact retry repeats a stored reservation. -/
theorem wp_bookRequest_exactRetry (hc : Constraints env.character m.view) :
    (bookRequest env request tieRank stage readings).wp (fun _ _ => True)
      (fun answer _ => ∀ row, answer = .booking row → row.outcome = .exactRetry →
        Repeats env request readings m.view) (fun _ _ => True) m := by
  refine wp_bookRequest_stages ?_ (fun _ _ => trivial) fun f start hours hadm => ?_
  · rintro o d ho row ⟨⟩ houtcome
    rcases ho with rfl | ⟨rfl, -⟩ <;> cases houtcome
  unfold bookingBlock
  refine bind_wp (wp_liftExcept.mpr ?_)
  split
  case h_2 e he => exact caught_of_plain (plain_of_canonicalEmailLockKey he) trivial
  refine bind_wp (wp_acquire.mpr (bind_wp ?_))
  -- the lookup decides: whatever comes after it is no exact retry
  have hserve (c : Customer) (isNew : Bool) (m' : Memory Database Sequence)
      (hview : m'.view.reservations = m.view.reservations)
      (hfound : ∀ r ∈ m.view.reservations, SameIdentity c.customerId start.startsAt
        request.partySize r → Identifies env request c → Repeats env request readings m.view) :
      (serveCustomer env request f start tieRank stage readings c isNew).wp (fun _ _ => True)
        (fun answer _ => ∀ row, answer = .booking row → row.outcome = .exactRetry →
          Repeats env request readings m.view)
        (caught (abortHandler request start) (fun _ _ => True)
          (fun answer _ => ∀ row, answer = .booking row → row.outcome = .exactRetry →
            Repeats env request readings m.view) fun _ _ => True) m' := by
    unfold serveCustomer
    refine bind_wp (wp_checkIdentity (fun hnames hinitials => ?_) ?_)
    · refine bind_wp (wp_exactRetry (fun r hr hsame => ?_) fun _ => ?_)
      · exact fun _ _ _ => hfound r (hview ▸ hr) hsame ⟨hnames, hinitials⟩
      · refine wp_mono wp_afterLookup (fun _ _ _ => trivial)
          (fun answer _ h row hrow ho => absurd ho (h row hrow)) fun e m'' he => ?_
        rcases he with he | ⟨o, d, ho, rfl⟩
        · exact caught_of_plain he trivial
        · rintro row ⟨⟩ houtcome
          rcases ho with rfl | rfl <;> cases houtcome
    · rintro o ho - row ⟨⟩ houtcome
      rcases ho with rfl | rfl <;> cases houtcome
  refine wp_resolveCustomer_any (fun c hstored => ?_) (fun n m' hunused hview => ?_)
    fun e m' he => caught_of_plain he trivial
  · exact hserve c false _ rfl fun r hr hsame hid =>
      ⟨f, start, hours, c, hadm, hstored, hid, r, hr, hsame⟩
  · refine hserve _ true m' hview fun r hr hsame _ => ?_
    obtain ⟨c, hmem, hid⟩ := hc.reservations_customer_fk r hr
    exact absurd (hid.trans hsame.1) (hunused c hmem)

/-- A request that repeats a stored reservation is answered as an exact retry. -/
theorem wp_bookRequest_repeats (tieRank : Option ℤ) (stage : Option FailureStage)
    (hv : request.Valid env.character)
    (h : Repeats env request readings m.view) :
    (bookRequest env request tieRank stage readings).wp (fun _ _ => True)
      (fun answer _ => ∃ row, answer = .booking row ∧ row.outcome = .exactRetry)
      (fun _ _ => False) m := by
  obtain ⟨f, start, hours, c, hadm, hstored, hid, r, hr, hsame⟩ := h
  refine wp_bookRequest_admitted hadm ?_
  unfold bookingBlock
  refine bind_wp (wp_liftExcept.mpr ?_)
  rw [canonicalEmailLockKey_of_valid hv]
  refine bind_wp (wp_acquire.mpr (bind_wp ?_))
  unfold resolveCustomer
  refine bind_wp (wp_query.mpr ?_)
  rw [hstored]
  show (serveCustomer env request f start tieRank stage readings c false).wp _ _ _ _
  unfold serveCustomer
  refine bind_wp (wp_checkIdentity (fun _ _ => ?_) fun o _ hdiff => ?_)
  · exact bind_wp (wp_exactRetry (fun s _ _ => ⟨_, rfl, rfl⟩) fun hnone =>
      absurd hsame (hnone r hr))
  · exact (hdiff.elim hid.names hid.initials).elim

end Found

section Calls

theorem exactRetry_iff (hc : Constraints env.character m.view) (call : BookingCall) :
    (∃ row v, (call.body env).transact m = (.returned (.booking row), v) ∧
      row.outcome = .exactRetry) ↔ call.Repeats env m.view := by
  unfold BookingCall.Repeats BookingCall.body bookReservationCore
  constructor
  · rintro ⟨row, v, ht, houtcome⟩
    split at ht
    · cases ht
      cases houtcome
    next hisolation =>
    split at ht
    · cases ht
      cases houtcome
    next request hrequest =>
    obtain ⟨m', hrepeats, -⟩ := of_transact_returned (wp_bookRequest_exactRetry hc) ht
    exact ⟨not_not.mp hisolation, request, hrequest, hrepeats row rfl houtcome⟩
  · rintro ⟨hisolation, request, hrequest, hrepeats⟩
    rw [if_neg (not_not.mpr hisolation), hrequest]
    obtain ⟨-, hv, -⟩ := normalizedInput_eq_some.mp hrequest
    obtain ⟨answer, m', ht, row, rfl, houtcome⟩ :=
      exists_transact (wp_bookRequest_repeats call.tieRank call.stage hv hrepeats)
    exact ⟨row, m'.view, ht, houtcome⟩

theorem body_related {fingerprint : ℕ → ℤ → ℤ → Bytes}
    (hne : ∀ customerId startsAt partySize, fingerprint customerId startsAt partySize ≠ [])
    (call : BookingCall) (c c' : Database) (d : Sequence → ℕ → ℕ)
    (hT : c.bare = c'.bare ∧ c.DistinctIdentities) :
    (call.body env).wp₂ (call.body (env.signing fingerprint hne)) (fun a _ _ _ => a.elim)
      (fun r s m n => r.bare = s.bare ∧ (m.view.bare = n.view.bare ∧ m.view.DistinctIdentities) ∧
        m.supply = n.supply)
      (fun e f m n => e.bare = f.bare ∧ m.supply = n.supply) ⟨c, [], d⟩ ⟨c', [], d⟩ :=
  wp₂_mono (agrees_body call ⟨c, [], d⟩ ⟨c', [], d⟩ ⟨hT.1, rfl, rfl, hT.2, nofun⟩)
    (fun a => a.elim) (fun _ _ _ _ h => ⟨h.1, ⟨h.2.view, h.2.distinct⟩, h.2.supply⟩)
    fun _ _ _ _ h => ⟨h.1, h.2.supply⟩

/-- Servers that give different fingerprints answer every sequence of bookings alike, over
databases that differ in the fingerprint columns, and differ in these columns only. What decides
on an exact retry is the stored identity. -/
theorem fingerprints_never_decide {fingerprint : ℕ → ℤ → ℤ → Bytes}
    (hne : ∀ customerId startsAt partySize, fingerprint customerId startsAt partySize ≠ [])
    {db db' : Database} (hc : Constraints env.character db) (hdb : db.bare = db'.bare)
    (calls : List BookingCall) (supply : Sequence → ℕ → ℕ) :
    let s := serve (BookingCall.body env) calls db supply
    let s' := serve (BookingCall.body (env.signing fingerprint hne)) calls db' supply
    (List.Forall₂ (Exit.Related (fun a b => a.bare = b.bare) fun e f => e.bare = f.bare) s.1 s'.1 ∧
      s.2.1.bare = s'.2.1.bare ∧ s.2.2 = s'.2.2) ∧
    ∀ m : Memory Database Sequence, Constraints env.character m.view → ∀ call : BookingCall,
      (∃ row v, (call.body env).transact m = (.returned (.booking row), v) ∧
        row.outcome = .exactRetry) ↔ call.Repeats env m.view := by
  intro s s'
  constructor
  · obtain ⟨hexits, ⟨hbare, -⟩, hsupply⟩ := serve_related
      (T := fun c c' : Database => c.bare = c'.bare ∧ c.DistinctIdentities)
      (body_related hne) calls (d := supply) ⟨hdb, hc.reservations_exact_identity_uq⟩
    exact ⟨hexits, hbare, hsupply⟩
  · exact fun m hm call => exactRetry_iff hm call

/-- The first booking, as a call. -/
def firstCall : BookingCall where
  isolation := .readCommitted
  arguments := firstRequest.arguments
  tieRank := none
  stage := none
  readings := firstNoon

/-- The same booking twice, on a server that gives one fingerprint to all. -/
theorem fingerprints_never_decide_twice :
    let s := serve (BookingCall.body .eastern) [firstCall, firstCall] seed fun _ i => i + 1
    let s' := serve (BookingCall.body (Environment.eastern.signing (fun _ _ _ => [7])
      fun _ _ _ => List.cons_ne_nil 7 [])) [firstCall, firstCall] seed fun _ i => i + 1
    (List.Forall₂ (Exit.Related (fun a b => a.bare = b.bare) fun e f => e.bare = f.bare) s.1 s'.1 ∧
      s.2.1.bare = s'.2.1.bare ∧ s.2.2 = s'.2.2) ∧
    ∀ m : Memory Database Sequence, Constraints Environment.eastern.character m.view →
      ∀ call : BookingCall, (∃ row v, (call.body .eastern).transact m =
        (.returned (.booking row), v) ∧ row.outcome = .exactRetry) ↔ call.Repeats .eastern m.view :=
  fingerprints_never_decide (fun _ _ _ => List.cons_ne_nil 7 []) (constraints_seed _) rfl
    [firstCall, firstCall] fun _ i => i + 1

end Calls

end CafeFausse
