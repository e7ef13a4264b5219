import CafeFausse.Routines.BookingAnswers

/-! # Bookings on an unusable foundation

`invalid_database_configuration` is answered ahead of the first write only: the block
that resolves the customer and writes has other answers. So nothing changes with it.
-/

namespace CafeFausse

open Transaction Program

/-- A row of the block that writes. -/
def Served (ans : Answer) : Prop :=
  ∃ row, ans = .booking row ∧ row.outcome ≠ .invalidDatabaseConfiguration

/-- The errors that lead to such a row, or to none. -/
def Turned (e : SqlError) : Prop :=
  ∀ d fingerprint, e ≠ .bookingAborted .invalidDatabaseConfiguration d fingerprint

theorem Plain.turned {e : SqlError} (h : Plain e) : Turned e := fun d f => h _ d f

section Block

variable {env : Environment} {request : BookingRequest} {f : Foundation} {start : ResolvedStart}
  {tieRank : Option ℤ} {stage : Option FailureStage} {readings : Readings}

theorem allows_served {o : Outcome} (h : o ≠ .invalidDatabaseConfiguration) : Allows Served o :=
  fun row ho _ => ⟨row, rfl, ho ▸ h⟩

theorem yields_bookingBlock_served :
    (bookingBlock env request f start tieRank stage readings).Yields Served Turned := by
  refine yields_bookingBlock (fun e he => he.turned) (allows_served nofun) (allows_served nofun)
    (allows_served nofun) (allows_served nofun) (allows_served nofun) (allows_served nofun) ?_
  rintro o d fingerprint ho - d' fingerprint' heq
  cases heq
  simp at ho

/-- A booking refused for the foundation changes nothing. -/
theorem wp_bookRequest_unusable {m : Memory Database Sequence} :
    (bookRequest env request tieRank stage readings).wp (fun x _ => x.elim)
      (fun ans m' => ∃ row, ans = .booking row ∧
        (row.outcome = .invalidDatabaseConfiguration → m'.view = m.view)) (fun _ _ => True) m := by
  refine wp_bookRequest_stages (fun o d _ => ⟨_, rfl, fun _ => rfl⟩) (fun _ _ => trivial)
    fun f start hours _ => ?_
  refine wp_mono (yields_bookingBlock_served.wp _) (fun x _ _ => x.elim) ?_ fun e m' he => ?_
  · rintro ans m' ⟨row, rfl, hrow⟩
    exact ⟨row, rfl, fun h => absurd h hrow⟩
  · unfold caught
    cases e with
    | bookingAborted o d fingerprint =>
      exact ⟨_, rfl, fun h => absurd rfl (h ▸ he d fingerprint)⟩
    | _ => trivial

theorem transact_unusable {p : BookingArguments} {m : Memory Database Sequence} {row : BookingRow}
    {db : Database}
    (h : (bookReservation env p readings).transact m = (.returned (.booking row), db))
    (hrow : row.outcome = .invalidDatabaseConfiguration) : db = m.view := by
  have hwp : (bookReservation env p readings).wp (fun x _ => x.elim)
      (fun ans m' => ∃ row, ans = .booking row ∧
        (row.outcome = .invalidDatabaseConfiguration → m'.view = m.view)) (fun _ _ => True) m := by
    unfold bookReservation bookReservationCore
    split
    · exact ⟨_, rfl, fun _ => rfl⟩
    split
    · exact ⟨_, rfl, fun _ => rfl⟩
    · exact wp_bookRequest_unusable
  obtain ⟨m', ⟨row', hrow', hview⟩, rfl⟩ := of_transact_returned hwp h
  cases hrow'
  exact hview hrow

end Block

end CafeFausse
