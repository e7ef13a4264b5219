import CafeFausse.Concurrency.Runs

/-! # Serializability in commit order

A booking that is turned away rolls its block back, and the lock of its e-mail with it,
before it commits. In between a newsletter call may store another person under that
e-mail, whom the booking would have met had it been executed in commit order. Where
this does not happen, every run is the serial execution of its committed calls.
-/

namespace CafeFausse

open Transaction Program Database

variable {env : Environment} {w : World Database LockKey Sequence SqlError Answer Call}

/-- If the step commits a booking that has rolled back its block, whoever is stored
under its e-mail by then fits its request. -/
def CommitsFit (env : Environment)
    (w w' : World Database LockKey Sequence SqlError Answer Call) : Prop :=
  ∀ e, w'.log = w.log ++ [e] → e.released ≠ [] → Fits env e.call w.committed

/-- Executing the committed calls alone and in the order of their commits gives the
committed state and reports every row, and there is one customer for each e-mail. -/
theorem serializable_in_commit_order
    (hw : Relation.ReflTransGen (fun w w' => Step (server env) w w' ∧ CommitsFit env w w')
      seeded w) :
    Serial (guards env) (fun call _ => Alone env call) seed w.log w.committed ∧
      (w.committed.customers.map (·.email)).Nodup := by
  have h := Reaches.serial_vouched server_accountable
    (consistent_seed env.character).constraints.customers_pk (consistent_seed env.character)
    (fun q m hm => by cases q <;> simp [guards, InUse, seed] at hm)
    (Relation.ReflTransGen.mono (fun w w' ⟨hstep, hfit⟩ =>
      ⟨hstep, fun e hlog hreleased hstands => hstands (hfit e hlog hreleased)⟩) _ _ hw)
  exact ⟨h.serial_log, h.kept.constraints.customers_email_uq⟩

section Crossing

/-- The lead time passes between the two looks at the clock. -/
def crossing : Readings :=
  { firstNoon with
    first := Time.day + Time.minutes (20 * 60)
    second := Time.day + Time.minutes (20 * 60) + 1 }

/-- Somebody else subscribes with the e-mail of the first request. -/
def graceNewsletter : NewsletterArguments where
  firstName := some (text "Grace")
  middleInitial := none
  lastName := some (text "Hopper")
  email := some (text "ada@example.com")
  subscribed := some true

/-- The booking is turned away and has not committed yet. -/
def turnedAway : List (Move Call) :=
  .begin 0 (.bookReservation firstRequest.arguments crossing) :: List.replicate 16 (.step 0)

/-- The subscription begins in between, but the booking commits first. -/
theorem serializable_in_commit_order_crossing :
    ∃ w : World Database LockKey Sequence SqlError Answer Call,
    (w.log.map fun e => e.released.isEmpty) = [false, true] ∧
    Serial (guards .eastern) (fun call _ => Alone .eastern call) seed w.log w.committed ∧
      (w.committed.customers.map (·.email)).Nodup := by
  obtain ⟨w, hw, hlog⟩ := World.exists_run (server .eastern) seed (fun _ => 1) 2
    (fun w => w.committed.customers.isEmpty)
    (turnedAway ++ .begin 1 (.setNewsletterPreference graceNewsletter) :: .step 0 ::
      List.replicate 6 (.step 1))
    (fun w => (w.log.map fun e => e.released.isEmpty) == [false, true]) (by decide +kernel)
  refine ⟨w, eq_of_beq hlog, serializable_in_commit_order
    (Relation.ReflTransGen.mono ?_ _ _ hw)⟩
  rintro v v' ⟨hstep, hempty⟩
  refine ⟨hstep, fun e _ _ request readings _ c hc => ?_⟩
  rw [List.isEmpty_iff.mp hempty] at hc
  cases hc

/-- The subscription has committed first, but the booking is answered as if it had not. -/
def overtaken : List (Entry Sequence Answer Call LockKey) → Bool
  | [⟨.setNewsletterPreference p, _, .newsletter o flag, _⟩, ⟨.bookReservation q _, _, .booking row, _⟩] =>
    p = graceNewsletter ∧ o = .subscribed ∧ flag = some true ∧ q = firstRequest.arguments ∧
      row.outcome = .invalidRequest ∧ row.detailCode = some .timeBoundaryCrossedDuringBooking ∧
      row.startsAt.isSome ∧ row.reservationId = none
  | _ => false

/-- No execution of these calls in commit order reports these rows, whatever numbers it
draws: the booking would meet the other person. -/
theorem not_serial_of_overtaken {log L : List (Entry Sequence Answer Call LockKey)} {db : Database}
    (h : overtaken log = true)
    (hserial : Serial (guards .eastern) (fun call _ => Alone .eastern call) seed L db)
    (hcalls : L.map (·.call) = log.map (·.call)) :
    L.map (·.row.report) ≠ log.map (·.row.report) := by
  intro hrows
  unfold overtaken at h
  split at h
  case h_2 => cases h
  next p dp o flag rp q readings dq row rq =>
  obtain ⟨rfl, rfl, rfl, rfl, houtcome, hdetail, hstart, hid⟩ := of_decide_eq_true h
  obtain ⟨e₁, L, rfl, he₁, hcalls⟩ := List.map_eq_cons_iff.mp hcalls
  obtain ⟨e₂, L, rfl, he₂, hcalls⟩ := List.map_eq_cons_iff.mp hcalls
  obtain rfl := List.map_eq_nil_iff.mp hcalls
  simp only [List.map_cons, List.map_nil, List.cons.injEq, and_true] at hrows
  have hserial : Serial (guards .eastern) (fun call _ => Alone .eastern call) seed
      ([] ++ [e₁] ++ [e₂]) db := hserial
  obtain ⟨db₁, hfirst, halone₂⟩ := hserial.last
  obtain ⟨db₀, hnone, halone₁⟩ := hfirst.last
  obtain rfl := hnone.eq_of_nil
  rw [he₁] at halone₁
  rw [he₂] at halone₂
  have hc := (consistent_seed _).change (halone₁.change (constraints_seed _))
  obtain ⟨request, hrequest, c, hm, hemail, hnames⟩ :=
    halone₁.subscribed (constraints_seed _) hrows.1
  obtain rfl := Option.some.inj hrequest
  obtain ⟨request, readings', hcall, t, -⟩ := halone₂.rejection hc.constraints hrows.2 hid
    ⟨by rw [hdetail]; rfl, hstart⟩
  obtain rfl : request = firstRequest := by
    have harguments := request_eq_some.mpr (Call.bookReservation.inj hcall).1
    exact (Option.some.inj harguments).symm
  have hada := (t.identifies hc.constraints hm hemail).names
  have hfirst : (Environment.eastern).character.lowerText (text "Grace") =
      (Environment.eastern).character.lowerText (text "Ada") :=
    (not_not.mp (not_or.mp hnames).1).symm.trans (not_not.mp (not_or.mp hada).1)
  exact absurd hfirst (by decide)

/-- A subscription that overtakes a booking which has been turned away. -/
theorem subscription_overtakes_booking :
    ∃ w : World Database LockKey Sequence SqlError Answer Call,
      Reaches (server .eastern) seeded w ∧ overtaken w.log = true ∧
      ∀ L db, Serial (guards .eastern) (fun call _ => Alone .eastern call) seed L db →
        L.map (·.call) = w.log.map (·.call) → L.map (·.row.report) ≠ w.log.map (·.row.report) := by
  obtain ⟨w, hw, hlog⟩ := World.exists_reaches (server .eastern) seed (fun _ => 1) 2
    (turnedAway ++ .begin 1 (.setNewsletterPreference graceNewsletter) ::
      List.replicate 6 (.step 1) ++ [.step 0])
    (fun w => overtaken w.log) (by decide +kernel)
  exact ⟨w, hw, hlog, fun L db hserial hcalls => not_serial_of_overtaken hlog hserial hcalls⟩

end Crossing

end CafeFausse
