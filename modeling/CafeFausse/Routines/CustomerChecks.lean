import CafeFausse.Routines.Changes
import CafeFausse.Routines.Overflow

/-! # Input checks and table checks

The input check of a booking asks of the new customer row what the table asks. That of
the newsletter routine leaves one thing out: it does not ask the names for a letter.
-/

namespace CafeFausse

open Transaction Program Database

variable {env : Environment} {m : Memory Database Sequence} {ct : CharacterType}

/-- Both names have a letter. -/
def NewsletterRequest.Lettered (ct : CharacterType) (request : NewsletterRequest) : Prop :=
  request.firstName.any ct.isAlpha ∧ request.lastName.any ct.isAlpha

/-- The letters are all that the input check leaves to the table. -/
theorem NewsletterRequest.Valid.check_iff {request : NewsletterRequest} (h : request.Valid ct)
    (n : ℕ) : (request.newCustomer n).Check ct ↔ request.Lettered ct := by
  constructor
  · intro hck
    exact ⟨hck.firstName.2.2, hck.lastName.2.2⟩
  · rintro ⟨hfirst, hlast⟩
    exact {
      firstName := ⟨h.firstName.1, h.firstName.2, hfirst⟩
      middleInitial := h.middleInitial
      lastName := ⟨h.lastName.1, h.lastName.2, hlast⟩
      email := ⟨⟨List.length_pos_iff.mpr h.email.1, h.email.2.2.2⟩, h.email.2.1, h.email.2.2.1⟩
      phone := nofun }

/-- A subscription that would store a new customer has letters in both names. -/
def Storable (env : Environment) (p : NewsletterArguments) (db : Database) : Prop :=
  ∀ request, newsletterInput env.character p = some request → request.subscribed = true →
    (∀ c ∈ db.customers, c.email ≠ request.email) → request.Lettered env.character

/-- No booking fails a check. -/
theorem wp_bookReservationCore_checked {isolation : IsolationLevel} {p : BookingArguments}
    {tieRank : Option ℤ} {stage : Option FailureStage} {readings : Readings}
    (hc : Constraints env.character m.view) (hfresh : ∀ q, ¬ InUse m.view q (m.supply q 0)) :
    (bookReservationCore env isolation p tieRank stage readings).wp (fun x _ => x.elim)
      (fun _ _ => True) (fun e _ => e ≠ .checkViolation) m := by
  unfold bookReservationCore
  split
  · trivial
  split
  · trivial
  next request hrequest =>
  obtain ⟨-, hv, -⟩ := normalizedInput_eq_some.mp hrequest
  exact wp_mono (wp_bookRequest (P := fun _ _ => True) hc hfresh hv (fun _ _ => trivial)
    fun _ => trivial) (fun x _ _ => x.elim) (fun _ _ _ => trivial) fun e _ he => he.checked

/-- A newsletter call fails a check at most for a name without a letter. -/
theorem wp_setNewsletterPreference_checked {p : NewsletterArguments}
    (hc : Constraints env.character m.view) :
    (setNewsletterPreference env p).wp (fun x _ => x.elim) (fun _ _ => True)
      (fun e _ => e = .checkViolation → ¬ Storable env p m.view) m := by
  unfold setNewsletterPreference
  cases hrequest : newsletterInput env.character p with
  | none => trivial
  | some request =>
  have hv : request.Valid env.character :=
    of_decide_eq_true (Option.filter_eq_some_iff.mp hrequest).2
  unfold setPreference
  refine bind_wp (wp_liftExcept.mpr ?_)
  cases he : canonicalEmailLockKey env request.email with
  | error e =>
    unfold canonicalEmailLockKey at he
    split at he <;> cases he
    exact nofun
  | ok key =>
  refine bind_wp (wp_acquire.mpr (bind_wp (wp_newsletterCustomer (fun c hm _ => ?_)
    (fun n hsub hck hnew => ?_) trivial (fun n _ hsub hnone hck _ hstorable => ?_)
    fun _ => nofun)))
  · exact wp_storePreference hc hm (fun _ _ _ => trivial) fun _ _ => trivial
  · exact wp_storePreference (hc.addCustomer hck hnew)
      (List.mem_append_right m.view.customers (List.mem_singleton_self _)) (fun _ _ _ => trivial)
      fun _ _ => trivial
  · exact hck ((hv.check_iff n).mpr (hstorable request hrequest hsub hnone))

/-- A subscription without the letters fails the check of its new row. -/
theorem wp_setNewsletterPreference_unstorable {p : NewsletterArguments}
    (h : ¬ Storable env p m.view) :
    (setNewsletterPreference env p).wp (fun x _ => x.elim) (fun _ _ => False)
      (fun e _ => e = .checkViolation) m := by
  unfold Storable at h
  push Not at h
  obtain ⟨request, hrequest, hsub, hnone, hlettered⟩ := h
  have hv : request.Valid env.character :=
    of_decide_eq_true (Option.filter_eq_some_iff.mp hrequest).2
  unfold setNewsletterPreference setPreference newsletterCustomer
  rw [hrequest]
  refine bind_wp (wp_liftExcept.mpr ?_)
  rw [canonicalEmailLockKey, if_neg (not_or.mpr ⟨hv.email.1, not_or.mpr
    ⟨not_not.mpr hv.email.2.1, not_not.mpr hv.email.2.2.1⟩⟩)]
  refine bind_wp (wp_acquire.mpr (bind_wp (bind_wp (wp_query.mpr ?_))))
  rw [customerByEmail_of_none hnone]
  simp only [hsub, not_true_eq_false, if_false]
  refine bind_wp (wp_draw.mpr (bind_wp (wp_attempt.mpr ?_)))
  rw [insertCustomer, if_pos (fun hck => hlettered ((hv.check_iff _).mp hck))]
  rfl

/-- Executed alone, the newsletter routine fails a check exactly for such a subscription. -/
theorem transact_setNewsletterPreference_checked_iff {p : NewsletterArguments}
    (hc : Constraints env.character m.view) :
    ((setNewsletterPreference env p).transact m).1 ≠ .raised .checkViolation ↔
      Storable env p m.view := by
  constructor
  · intro hne
    by_contra h
    exact hne (transact_of_wp (P := fun x => x.1 = .raised .checkViolation)
      (wp_mono (wp_setNewsletterPreference_unstorable h) (fun x _ => x.elim)
        (fun _ _ => False.elim) fun e _ he => by rw [he]))
  · intro h
    refine transact_of_wp (P := fun x => x.1 ≠ .raised .checkViolation)
      (wp_mono (wp_setNewsletterPreference_checked hc) (fun x _ => x.elim) (fun _ _ _ => nofun) ?_)
    rintro e - he hraised
    cases hraised
    exact he rfl h

end CafeFausse
