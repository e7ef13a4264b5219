import CafeFausse.Concurrency.Alone
import CafeFausse.Routines.Offers
import CafeFausse.Transaction.Schedules

/-! # What holds in every run

From the seeded database on, whatever the interleaving, the committed state stays
consistent: the locks make it the result of the committed calls one by one, and each
of these preserves it.
-/

namespace CafeFausse

open Transaction Program Database

variable {env : Environment} {db db' : Database}

/-- The server right after the seed. The identity columns begin with 1. -/
def seeded : World Database LockKey Sequence SqlError Answer Call := World.initial seed fun _ => 1

section Reachable

variable {w : World Database LockKey Sequence SqlError Answer Call}

theorem invariant_of_reaches (hw : Reaches (server env) seeded w) :
    Invariant (server env) (guards env) (fun call _ => Alone env call)
      (fun call _ db ans => Fits env call db → Alone env call db ans db)
      (Consistent env.character) false seed w :=
  Reaches.serial server_accountable (consistent_seed env.character).constraints.customers_pk
    (consistent_seed env.character) (fun q m hm => by cases q <;> simp [guards, InUse, seed] at hm)
    hw

theorem consistent_of_reaches (hw : Reaches (server env) seeded w) :
    Consistent env.character w.committed := (invariant_of_reaches hw).kept

/-- No number that a sequence still has to give out is in use. -/
theorem unused_of_reaches (hw : Reaches (server env) seeded w) (q : Sequence) (i : ℕ) :
    ¬ InUse w.committed q (w.memory.supply q i) := fun hu =>
  absurd ((invariant_of_reaches hw).counted q _ hu) (Nat.not_lt.mpr (Nat.le_add_right _ _))

/-- No double booking, whatever the interleaving: reservations that share a table do
not overlap, and neither do those of one customer. -/
theorem no_double_booking (hw : Reaches (server env) seeded w) :
    NoTableOverlap w.committed ∧ NoCustomerOverlap w.committed :=
  ⟨(consistent_of_reaches hw).tables, (consistent_of_reaches hw).customers⟩

/-- In every state of a run, a booking call is all or nothing. -/
theorem booking_all_or_nothing (hw : Reaches (server env) seeded w) (isolation : IsolationLevel)
    (p : BookingArguments) (tieRank : Option ℤ) (stage : Option FailureStage)
    (readings : Readings) :
    AllOrNothing env p w.committed
      ((bookReservationCore env isolation p tieRank stage readings).transact w.memory) :=
  transact_bookReservationCore (m := w.memory) (consistent_of_reaches hw).constraints
    fun q => unused_of_reaches hw q 0

end Reachable

section FirstBooking

/-- The request is booked while a change of the hours waits for the lock. -/
def firstRun : List (Move Call) :=
  [.begin 0 (.bookReservation firstRequest.arguments firstNoon), .step 0,
    .begin 1 (.setRestaurantOperatingHours (some 5) (some ⟨0, by decide⟩) (some ⟨1, by decide⟩))] ++
    List.replicate 21 (.step 0) ++ List.replicate 3 (.step 1)

theorem exists_firstRun : ∃ w, Reaches (server .eastern) seeded w ∧
    w.committed.reservations.length = 1 := by
  obtain ⟨w, hw, hone⟩ := World.exists_reaches (server .eastern) seed (fun _ => 1) 2 firstRun
    (fun w => w.committed.reservations.length == 1) (by decide +kernel)
  exact ⟨w, hw, by simpa using hone⟩

theorem no_double_booking_firstRun : ∃ w, Reaches (server .eastern) seeded w ∧
    w.committed.reservations.length = 1 ∧
    NoTableOverlap w.committed ∧ NoCustomerOverlap w.committed := by
  obtain ⟨w, hw, hone⟩ := exists_firstRun
  exact ⟨w, hw, hone, no_double_booking hw⟩

/-- The same request again is a retry, which changes nothing. -/
theorem booking_all_or_nothing_firstRun : ∃ w, Reaches (server .eastern) seeded w ∧
    w.committed.reservations.length = 1 ∧
    AllOrNothing .eastern firstRequest.arguments w.committed
      ((bookReservationCore .eastern .readCommitted firstRequest.arguments none
        (some .afterReservationInsert) firstNoon).transact w.memory) := by
  obtain ⟨w, hw, hone⟩ := exists_firstRun
  exact ⟨w, hw, hone, booking_all_or_nothing hw _ _ _ _ _⟩

end FirstBooking

end CafeFausse
