import CafeFausse.Routines.Changes
import CafeFausse.Transaction.Answers

/-! # What the row of a preference shows

The flag of a row is the one that is stored under the e-mail when the call returns. Only a
request that is not valid has no flag.
-/

namespace CafeFausse

open Transaction Program Database

variable {env : Environment} {m : Memory Database Sequence} {p : NewsletterArguments}
  {request : NewsletterRequest} {c : Customer} {db db' : Database} {o : NewsletterOutcome}
  {flag : Option Bool}

/-- The outcome and the flag of a row, beside the database that the call leaves. -/
inductive PreferenceShown (p : NewsletterArguments) (db : Database) :
    NewsletterOutcome → Option Bool → Prop
  | invalid : PreferenceShown p db .invalidRequest none
  | absent (unknown : ∀ c ∈ db.customers, p.email ≠ some c.email)
      (unsubscribes : p.subscribed = some false) :
    PreferenceShown p db .noCustomerNoChange (some false)
  | stored (c : Customer) (customer : c ∈ db.customers) (email : p.email = some c.email)
      (requested : p.subscribed = some c.newsletterSubscribed) :
    PreferenceShown p db (if c.newsletterSubscribed then .subscribed else .unsubscribed)
      (some c.newsletterSubscribed)
  | conflict (c : Customer) (customer : c ∈ db.customers) (email : p.email = some c.email)
      (o : NewsletterOutcome) (conflicts : o = .customerIdentityMismatch ∨
        o = .middleInitialConflict) :
    PreferenceShown p db o (some c.newsletterSubscribed)

theorem newsletterRequest_eq_some (h : p.request = some request) :
    p.email = some request.email ∧ p.subscribed = some request.subscribed := by
  simp only [NewsletterArguments.request, Option.bind_eq_bind, Option.bind_eq_some_iff,
    Option.pure_def, Option.some.injEq] at h
  obtain ⟨firstName, -, lastName, -, email, hemail, subscribed, hsubscribed, rfl⟩ := h
  exact ⟨hemail, hsubscribed⟩

/-- The customer is stored under the e-mail, or there is nobody to unsubscribe. -/
theorem wp_newsletterCustomer_found {Q : Customer → Memory Database Sequence → Prop}
    {R : Answer → Memory Database Sequence → Prop} (hc : Constraints env.character m.view)
    (hQ : ∀ c m', Constraints env.character m'.view → c ∈ m'.view.customers →
      c.email = request.email → Q c m')
    (hR : (∀ c ∈ m.view.customers, c.email ≠ request.email) → request.subscribed = false →
      R (.newsletter .noCustomerNoChange (some false)) m) :
    (newsletterCustomer env request).wp Q R (fun _ _ => True) m := by
  unfold newsletterCustomer
  refine bind_wp (wp_query.mpr ?_)
  split
  · next c hfound =>
    obtain ⟨hmem, hemail⟩ := customerByEmail_eq_some hfound
    exact hQ c m hc hmem hemail
  next hnone =>
  split
  · next hsubscribed => exact hR (customerByEmail_eq_none hnone) (by simpa using hsubscribed)
  refine bind_wp (wp_draw.mpr (bind_wp (wp_attempt.mpr ?_)))
  split
  · next row w hw =>
    obtain ⟨hcheck, huniq, rfl, rfl⟩ := insertCustomer_ok hw
    exact hQ _ _ (hc.addCustomer hcheck huniq) (List.mem_append_right _ (List.mem_singleton_self _))
      rfl
  next e he =>
  cases e with
  | uniqueViolation =>
    refine bind_wp (wp_query.mpr ?_)
    simp only [hnone]
    trivial
  | _ => trivial

/-- A number stands for one customer. -/
theorem find?_customerId {ct : CharacterType} (hc : Constraints ct db) (hm : c ∈ db.customers) :
    (db.customers.find? fun d => d.customerId = c.customerId) = some c := by
  cases hfind : db.customers.find? fun d => d.customerId = c.customerId with
  | none => simpa using List.find?_eq_none.mp hfind c hm
  | some d =>
    have hid : d.customerId = c.customerId := by simpa using List.find?_some hfind
    rw [eq_of_customerId hc (List.mem_of_find?_eq_some hfind) hm hid]

theorem wp_storePreference_shown (hc : Constraints env.character m.view)
    (hm : c ∈ m.view.customers) (hemail : p.email = some c.email)
    (hsubscribed : p.subscribed = some request.subscribed) :
    (storePreference env request c).wp (fun x _ => x.elim)
      (fun ans m' => ∃ o flag, ans = .newsletter o flag ∧ PreferenceShown p m'.view o flag)
      (fun _ _ => True) m := by
  unfold storePreference
  split
  · exact ⟨_, _, rfl, .conflict c hm hemail _ (.inl rfl)⟩
  split
  · exact ⟨_, _, rfl, .conflict c hm hemail _ (.inr rfl)⟩
  refine bind_wp (wp_execute.mpr ?_)
  split
  swap
  · trivial
  next updated w hw =>
  obtain ⟨-, rfl, rfl⟩ := updateCustomer_ok hw
  rw [find?_customerId hc hm, updateRows_eq hc hm rfl]
  refine ⟨_, _, rfl, ?_⟩
  exact .stored { c with newsletterSubscribed := request.subscribed } (mem_replaceCustomer hm rfl)
    hemail hsubscribed

theorem wp_setNewsletterPreference_shown (hc : Constraints env.character m.view) :
    (setNewsletterPreference env p).wp (fun x _ => x.elim)
      (fun ans m' => ∃ o flag, ans = .newsletter o flag ∧ PreferenceShown p m'.view o flag)
      (fun _ _ => True) m := by
  unfold setNewsletterPreference
  split
  · exact ⟨_, _, rfl, .invalid⟩
  next request hrequest =>
  obtain ⟨hemail, hsubscribed⟩ :=
    newsletterRequest_eq_some (Option.filter_eq_some_iff.mp hrequest).1
  unfold setPreference
  refine bind_wp (wp_liftExcept.mpr ?_)
  split
  case h_2 => trivial
  refine bind_wp (wp_acquire.mpr (bind_wp ?_))
  apply wp_newsletterCustomer_found hc
  · intro c m' hc' hmem he
    exact wp_storePreference_shown hc' hmem (he ▸ hemail) hsubscribed
  · intro hnone hnot
    refine ⟨_, _, rfl, .absent (fun c hmem heq => ?_) (hnot ▸ hsubscribed)⟩
    exact hnone c hmem (Option.some.inj (hemail.symm.trans heq)).symm

/-- A new customer bears the names of the request. -/
theorem fits_newCustomer {n : ℕ} :
    ¬ (NamesDiffer env.character (request.newCustomer n) request.firstName request.lastName ∨
      InitialsConflict (request.newCustomer n).middleInitial request.middleInitial) := by
  rintro ((hfirst | hlast) | ⟨stored, hstored, given, hgiven, hne⟩)
  · exact hfirst rfl
  · exact hlast rfl
  · exact hne (Option.some.inj (hstored.symm.trans hgiven))

/-- A preference that is not stored leaves everything as it was. -/
theorem wp_setNewsletterPreference_refused (hc : Constraints env.character m.view) :
    (setNewsletterPreference env p).wp (fun x _ => x.elim)
      (fun ans m' => ∀ o flag, ans = .newsletter o flag → o ≠ .subscribed → o ≠ .unsubscribed →
        m'.view = m.view) (fun _ _ => True) m := by
  have hset {subscribed : Bool} {o : NewsletterOutcome} {flag flag' : Option Bool} {P : Prop}
      (he : Answer.newsletter (if subscribed then .subscribed else .unsubscribed) flag' =
        .newsletter o flag) (hsubscribed : o ≠ .subscribed) (hunsubscribed : o ≠ .unsubscribed) :
      P := by
    cases subscribed with
    | true =>
      cases he
      exact absurd rfl hsubscribed
    | false =>
      cases he
      exact absurd rfl hunsubscribed
  unfold setNewsletterPreference
  split
  · exact fun _ _ _ _ _ => rfl
  unfold setPreference
  refine bind_wp (wp_liftExcept.mpr ?_)
  split
  case h_2 => trivial
  refine bind_wp (wp_acquire.mpr (bind_wp (wp_newsletterCustomer (fun c hm _ => ?_)
    (fun n _ hck hnew => ?_) (fun _ _ _ _ _ => rfl) (fun _ _ _ _ _ => trivial) fun _ => trivial)))
  · apply wp_storePreference hc hm
    · exact fun _ _ _ _ _ _ _ _ => rfl
    · exact fun _ _ _ _ he hsubscribed hunsubscribed => hset he hsubscribed hunsubscribed
  · apply wp_storePreference (hc.addCustomer hck hnew)
      (List.mem_append_right _ (List.mem_singleton_self _))
    · exact fun _ _ hconflict => absurd hconflict fits_newCustomer
    · exact fun _ _ _ _ he hsubscribed hunsubscribed => hset he hsubscribed hunsubscribed

/-- What setting a preference does to the customers: the one with the e-mail has the flag, or there
was none and there is one now. -/
inductive PreferenceSet (request : NewsletterRequest) (db : Database) : Database → Prop
  | stored (c : Customer) (customer : c ∈ db.customers) (email : c.email = request.email) :
    PreferenceSet request db
      (replaceCustomer { c with newsletterSubscribed := request.subscribed } db)
  | added (n : ℕ) (subscribes : request.subscribed = true)
      (fresh : ∀ c ∈ db.customers, c.customerId ≠ n ∧ c.email ≠ request.email) :
    PreferenceSet request db (db.addCustomer (request.newCustomer n))

/-- A preference that is stored is stored for one customer. -/
theorem wp_setNewsletterPreference_set (hc : Constraints env.character m.view) :
    (setNewsletterPreference env p).wp (fun x _ => x.elim)
      (fun ans m' => ∀ o flag, ans = .newsletter o flag → o = .subscribed ∨ o = .unsubscribed →
        ∃ request, p.request = some request ∧ PreferenceSet request m.view m'.view)
      (fun _ _ => True) m := by
  have hrefused {o o' : NewsletterOutcome} {flag flag' : Option Bool} {P : Prop}
      (ho : o = .subscribed ∨ o = .unsubscribed) (he : Answer.newsletter o' flag' = .newsletter o flag)
      (ho' : o' ≠ .subscribed ∧ o' ≠ .unsubscribed) : P := by
    cases he
    exact absurd ho (not_or.mpr ho')
  unfold setNewsletterPreference
  split
  · exact fun _ _ he ho => hrefused ho he (by decide)
  next request hrequest =>
  have hp : p.request = some request := (Option.filter_eq_some_iff.mp hrequest).1
  unfold setPreference
  refine bind_wp (wp_liftExcept.mpr ?_)
  split
  case h_2 => trivial
  refine bind_wp (wp_acquire.mpr (bind_wp (wp_newsletterCustomer (fun c hm hemail => ?_)
    (fun n hsub hck hnew => ?_) (fun _ _ he ho => hrefused ho he (by decide))
    (fun _ _ _ _ _ => trivial) fun _ => trivial)))
  · apply wp_storePreference hc hm
    · rintro _ (rfl | rfl) - _ _ he ho
      · exact hrefused ho he (by decide)
      · exact hrefused ho he (by decide)
    · exact fun _ _ _ _ _ _ => ⟨request, hp, .stored c hm hemail⟩
  · have hadd := hc.addCustomer hck hnew
    have hm := List.mem_append_right m.view.customers
      (List.mem_singleton_self (request.newCustomer n))
    have hself : ({ request.newCustomer n with newsletterSubscribed := request.subscribed } :
        Customer) = request.newCustomer n := by rw [hsub]; rfl
    apply wp_storePreference hadd hm
    · exact fun _ _ hconflict => absurd hconflict fits_newCustomer
    · intro _ _ _ _ _ _
      rw [hself, replaceCustomer_self hadd hm]
      exact ⟨request, hp, .added n hsub hnew⟩

/-- Whatever its statements see, the routine answers with a row of its own. -/
theorem yields_setNewsletterPreference : (setNewsletterPreference env p).Yields
    (fun ans => ans.isBooking = false) fun _ => True := by
  unfold setNewsletterPreference
  split
  · rfl
  unfold setPreference newsletterCustomer
  refine yields_bind (yields_liftExcept fun _ _ => trivial) fun key => ?_
  refine yields_bind yields_acquire fun _ => ?_
  refine yields_bind (yields_bind yields_query fun found => ?_) fun c => ?_
  · cases found with
    | some c => trivial
    | none =>
      simp only
      split
      · rfl
      refine yields_bind yields_draw fun n => yields_attempt_bind (fun _ => trivial) fun _ e _ => ?_
      cases e with
      | uniqueViolation =>
        refine yields_bind yields_query fun found => ?_
        cases found <;> trivial
      | _ => trivial
  · unfold storePreference
    split
    · rfl
    split
    · rfl
    exact yields_bind (yields_execute fun _ _ _ => trivial) fun updated => rfl

end CafeFausse
