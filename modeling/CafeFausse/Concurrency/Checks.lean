import CafeFausse.Concurrency.Runs
import CafeFausse.Routines.CustomerChecks

/-! # No violated check in any run

In every state of a run, bookings never fail a check of the table, and neither do
newsletter calls, unless one would store a name without a letter.
-/

namespace CafeFausse

open Transaction Program Database

variable {env : Environment} {w : World Database LockKey Sequence SqlError Answer Call}

/-- What an open session raises in a run, its call raises alone on the committed state, on
numbers that nobody uses. -/
theorem exists_raised_of_reaches (hw : Reaches (server env) seeded w) {t : ℕ}
    {s : Session Database LockKey Sequence SqlError Answer Call} (hs : w.sessions t = some s)
    {e : SqlError} (he : s.program = .raise e) :
    ∃ supply, (∀ q, ¬ InUse w.committed q (supply q 0)) ∧
      (((server env).body s.call).transact ⟨w.committed, [], supply⟩).1 = .raised e := by
  obtain ⟨hdraws, -⟩ := (invariant_of_reaches hw).raises hs he fun _ _ => 0
  obtain ⟨n, hn⟩ := exists_supply hdraws
  obtain ⟨-, m, hrun⟩ := (invariant_of_reaches hw).raises hs he n
  refine ⟨supplyOf s.draws n, hn, ?_⟩
  unfold transact
  rw [hrun]

/-- A booking executed alone fails no check. -/
theorem transact_bookReservationCore_checked {m : Memory Database Sequence}
    {isolation : IsolationLevel} {p : BookingArguments} {tieRank : Option ℤ}
    {stage : Option FailureStage} {readings : Readings} (hc : Constraints env.character m.view)
    (hfresh : ∀ q, ¬ InUse m.view q (m.supply q 0)) :
    ((bookReservationCore env isolation p tieRank stage readings).transact m).1 ≠
      .raised .checkViolation := by
  refine transact_of_wp (P := fun x => x.1 ≠ .raised .checkViolation)
    (wp_mono (wp_bookReservationCore_checked hc hfresh) (fun x _ => x.elim) (fun _ _ _ => nofun) ?_)
  rintro e - he hraised
  cases hraised
  exact he rfl

/-- Whatever the interleaving, a booking fails no check of the table, and a newsletter call
fails one exactly when it would store a new customer without a letter in both names. -/
theorem table_checks_hold_iff (hw : Reaches (server env) seeded w) :
    (∀ isolation p tieRank stage readings,
      ((bookReservationCore env isolation p tieRank stage readings).transact w.memory).1 ≠
        .raised .checkViolation) ∧
    (∀ p, ((setNewsletterPreference env p).transact w.memory).1 ≠ .raised .checkViolation ↔
      Storable env p w.committed) ∧
    ∀ t s, w.sessions t = some s →
      (∀ p readings, s.call = .bookReservation p readings →
        s.program ≠ .raise .checkViolation) ∧
      ∀ p, s.call = .setNewsletterPreference p → Storable env p w.committed →
        s.program ≠ .raise .checkViolation := by
  have hc := (consistent_of_reaches hw).constraints
  refine ⟨fun _ _ _ _ _ => transact_bookReservationCore_checked (m := w.memory) hc
    fun q => unused_of_reaches hw q 0,
    fun p => transact_setNewsletterPreference_checked_iff (m := w.memory) hc, ?_⟩
  intro t s hs
  constructor
  · intro p readings hcall he
    obtain ⟨supply, hfresh, hraised⟩ := exists_raised_of_reaches hw hs he
    rw [hcall] at hraised
    have hbooked : ((bookReservationCore env .readCommitted p none none readings).transact
        ⟨w.committed, [], supply⟩).1 = .raised .checkViolation := hraised
    exact transact_bookReservationCore_checked hc hfresh hbooked
  · intro p hcall hstorable he
    obtain ⟨supply, -, hraised⟩ := exists_raised_of_reaches hw hs he
    rw [hcall] at hraised
    exact (transact_setNewsletterPreference_checked_iff (m := ⟨w.committed, [], supply⟩) hc).mpr
      hstorable hraised

theorem table_checks_hold_iff_firstRun : ∃ w, Reaches (server .eastern) seeded w ∧
    w.committed.reservations.length = 1 ∧
    ((bookReservationCore .eastern .readCommitted firstRequest.arguments none none
      firstNoon).transact w.memory).1 ≠ .raised .checkViolation := by
  obtain ⟨w, hw, hone⟩ := exists_firstRun
  exact ⟨w, hw, hone, (table_checks_hold_iff hw).1 _ _ _ _ _⟩

/-- A subscriber whose first name is a digit. -/
def numeral : NewsletterArguments where
  firstName := some (text "1")
  middleInitial := none
  lastName := some (text "Byron")
  email := some (text "ada@example.com")
  subscribed := some true

/-- The input check lets the numeral pass, and the insertion fails on it. -/
theorem numeral_violates : (newsletterInput Environment.eastern.character numeral).isSome ∧
    Reaches (server .eastern) seeded seeded ∧
    ((setNewsletterPreference .eastern numeral).transact
      (World.memory (seeded : World Database LockKey Sequence SqlError Answer Call))).1 =
        .raised .checkViolation :=
  ⟨by decide +kernel, .refl, by decide +kernel⟩

end CafeFausse
