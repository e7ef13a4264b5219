import CafeFausse.Routines.BookingEffect
import CafeFausse.Routines.Writers

/-! # What a call can change

One rule for each call of the server, and one relation that says all they can do to
the database. Whatever every call preserves is shown of this relation, case by case.
-/

namespace CafeFausse

open Transaction Program Database

/-- What a call that returns can have done. -/
inductive Change (env : Environment) (db : Database) : Database → Prop
  | same : Change env db db
  | booked {request : BookingRequest} {readings : Readings} {tieRank : Option ℤ}
      (b : Placement env request readings tieRank db) : Change env db b.after
  | subscribed (row : Customer) (check : row.Check env.character)
      (fresh : ∀ c ∈ db.customers, c.customerId ≠ row.customerId ∧ c.email ≠ row.email) :
    Change env db (db.addCustomer row)
  | preference (c : Customer) (stored : c ∈ db.customers) (flag : Bool) :
    Change env db (replaceCustomer { c with newsletterSubscribed := flag } db)
  | configuration (row : ReservationConfiguration)
      (timezone : TimezoneCheck env.character row.restaurantTimezone) :
    Change env db (db.putConfiguration row)
  | hours (row : RestaurantOperatingHours) : Change env db (db.putHours row)
  | table (row : RestaurantTable) : Change env db (db.putTable row)

/-- The row of a booking call. -/
def Answer.isBooking : Answer → Bool
  | .booking _ => true
  | _ => false

/-- The calls of `book_reservation`. -/
def Call.isBooking : Call → Bool
  | .bookReservation _ _ => true
  | _ => false

variable {env : Environment} {m : Memory Database Sequence} {c : Customer}
  {R : Answer → Memory Database Sequence → Prop}

/-- The customer of a newsletter call is a stored row or a new subscriber. The row of a new
subscriber can fail a check. -/
theorem wp_newsletterCustomer {request : NewsletterRequest}
    {Q : Customer → Memory Database Sequence → Prop}
    {E : SqlError → Memory Database Sequence → Prop}
    (hold : ∀ c ∈ m.view.customers, c.email = request.email → Q c m)
    (hnew : ∀ n, request.subscribed = true → (request.newCustomer n).Check env.character →
      (∀ c ∈ m.view.customers, c.customerId ≠ n ∧ c.email ≠ request.email) →
      Q (request.newCustomer n) { m with
        view := m.view.addCustomer (request.newCustomer n)
        supply := advance m.supply .customer })
    (hR : R (.newsletter .noCustomerNoChange (some false)) m)
    (hcheck : ∀ n m', request.subscribed = true →
      (∀ c ∈ m.view.customers, c.email ≠ request.email) →
      ¬ (request.newCustomer n).Check env.character → E .checkViolation m')
    (hE : ∀ m', E .uniqueViolation m') :
    (newsletterCustomer env request).wp Q R E m := by
  unfold newsletterCustomer
  refine bind_wp (wp_query.mpr ?_)
  split
  · next c hc =>
    obtain ⟨hm, he⟩ := customerByEmail_eq_some hc
    exact hold c hm he
  next hnone =>
  split
  · exact hR
  next hsub =>
  refine bind_wp (wp_draw.mpr (bind_wp (wp_attempt.mpr ?_)))
  split
  · next row w hw =>
    obtain ⟨hck, huniq, rfl, rfl⟩ := insertCustomer_ok hw
    exact hnew _ (by simpa using hsub) hck huniq
  next e he =>
  unfold insertCustomer at he
  split at he
  · next hck =>
    cases he
    exact hcheck _ _ (by simpa using hsub) (customerByEmail_eq_none hnone) hck
  split at he
  · cases he
    -- the view is the one of the first look, which found no such customer
    refine bind_wp (wp_query.mpr ?_)
    simp only [hnone]
    exact hE _
  · cases he

/-- The preference of a stored customer. -/
theorem wp_storePreference {request : NewsletterRequest} (h : Constraints env.character m.view)
    (hm : c ∈ m.view.customers) {Q : Empty → Memory Database Sequence → Prop}
    {E : SqlError → Memory Database Sequence → Prop}
    (hsame : ∀ o, o = .customerIdentityMismatch ∨ o = .middleInitialConflict →
      (NamesDiffer env.character c request.firstName request.lastName ∨
        InitialsConflict c.middleInitial request.middleInitial) →
      R (.newsletter o (some c.newsletterSubscribed)) m)
    (hset : ∀ flag, ¬ NamesDiffer env.character c request.firstName request.lastName →
      R (.newsletter (if request.subscribed then .subscribed else .unsubscribed) flag) { m with
        view := replaceCustomer { c with newsletterSubscribed := request.subscribed } m.view }) :
    (storePreference env request c).wp Q R E m := by
  unfold storePreference
  split
  · next hnames => exact hsame _ (.inl rfl) (.inl hnames)
  next hnames =>
  split
  · next hinitials => exact hsame _ (.inr rfl) (.inr hinitials)
  refine bind_wp (wp_execute.mpr ?_)
  split
  · next updated w hw =>
    obtain ⟨-, -, rfl⟩ := updateCustomer_ok hw
    rw [updateRows_eq h hm rfl]
    exact hset _ hnames
  · next e he =>
    -- a stored row passes its checks with either preference
    unfold Database.updateCustomer at he
    rw [if_neg] at he
    · cases he
    rintro ⟨row, hrow, hck⟩
    obtain ⟨stored, hstored, rfl⟩ := List.mem_map.mp hrow
    exact hck ((h.customers_ck stored (List.mem_filter.mp hstored).1).newsletter _)

section Rules

variable {p : BookingArguments} {isolation : IsolationLevel} {tieRank : Option ℤ}
  {stage : Option FailureStage} {readings : Readings}

theorem wp_bookReservationCore_change (hc : Constraints env.character m.view)
    (hfresh : ∀ q, ¬ InUse m.view q (m.supply q 0)) :
    (bookReservationCore env isolation p tieRank stage readings).wp (fun x _ => x.elim)
      (fun _ m' => Change env m.view m'.view) (fun _ _ => True) m := by
  unfold bookReservationCore
  split
  · exact .same
  split
  · exact .same
  next request hrequest =>
  obtain ⟨-, hv, -⟩ := normalizedInput_eq_some.mp hrequest
  refine wp_mono (wp_bookRequest (P := fun _ => Change env m.view) hc hfresh hv
    (fun _ _ => .same) .booked) (fun x _ => x.elim) ?_ fun _ _ _ => trivial
  rintro _ _ ⟨_, _, h⟩
  exact h

theorem wp_setNewsletterPreference_change {p : NewsletterArguments}
    (hc : Constraints env.character m.view) :
    (setNewsletterPreference env p).wp (fun x _ => x.elim)
      (fun ans m' => ans.isBooking = false ∧ Change env m.view m'.view) (fun _ _ => True) m := by
  unfold setNewsletterPreference
  split
  · exact ⟨rfl, .same⟩
  next request hrequest =>
  unfold setPreference
  refine bind_wp (wp_liftExcept.mpr ?_)
  split
  case h_2 => trivial
  refine bind_wp (wp_acquire.mpr (bind_wp (wp_newsletterCustomer (fun c hm _ => ?_)
    (fun n hsub hck hnew => ?_) ⟨rfl, .same⟩ (fun _ _ _ _ _ => trivial) fun _ => trivial)))
  · exact wp_storePreference hc hm (fun _ _ _ => ⟨rfl, .same⟩) fun _ _ => ⟨rfl, .preference c hm _⟩
  · have hadd := hc.addCustomer hck hnew
    have hm := List.mem_append_right m.view.customers
      (List.mem_singleton_self (request.newCustomer n))
    refine wp_storePreference hadd hm (fun _ _ _ => ⟨rfl, .subscribed _ hck hnew⟩) fun _ _ => ?_
    have hself : ({ request.newCustomer n with newsletterSubscribed := request.subscribed } :
        Customer) = request.newCustomer n := by rw [hsub]; rfl
    rw [hself, replaceCustomer_self hadd hm]
    exact ⟨rfl, .subscribed _ hck hnew⟩

/-- A subscriber is stored under the e-mail, with the names that were sent. -/
theorem wp_setNewsletterPreference_subscribed {p : NewsletterArguments}
    (hc : Constraints env.character m.view) :
    (setNewsletterPreference env p).wp (fun x _ => x.elim)
      (fun ans m' => ∀ flag, ans = .newsletter .subscribed flag → ∃ request,
        p.request = some request ∧ ∃ c ∈ m'.view.customers, c.email = request.email ∧
          ¬ NamesDiffer env.character c request.firstName request.lastName)
      (fun _ _ => True) m := by
  unfold setNewsletterPreference
  split
  · intro flag he
    cases he
  next request hrequest =>
  have hp : p.request = some request := (Option.filter_eq_some_iff.mp hrequest).1
  unfold setPreference
  refine bind_wp (wp_liftExcept.mpr ?_)
  split
  case h_2 => trivial
  refine bind_wp (wp_acquire.mpr (bind_wp (wp_newsletterCustomer (fun c hm he => ?_)
    (fun n hsub hck hnew => ?_) (fun flag he => ?_) (fun _ _ _ _ _ => trivial)
    fun _ => trivial)))
  · refine wp_storePreference hc hm (fun o ho _ flag he => ?_) fun flag hnames _ _ =>
      ⟨request, hp, _, mem_replaceCustomer hm rfl, he, hnames⟩
    cases he
    rcases ho with ho | ho <;> cases ho
  · have hm := List.mem_append_right m.view.customers
      (List.mem_singleton_self (request.newCustomer n))
    refine wp_storePreference (hc.addCustomer hck hnew) hm (fun o ho _ flag he => ?_)
      fun flag hnames _ _ => ⟨request, hp, _, mem_replaceCustomer hm rfl, rfl, hnames⟩
    cases he
    rcases ho with ho | ho <;> cases ho
  · cases he

theorem wp_setReservationConfiguration_change {p : ConfigurationArguments} :
    (setReservationConfiguration env p).wp (fun x _ => x.elim)
      (fun ans m' => ans.isBooking = false ∧ Change env m.view m'.view) (fun _ _ => True) m := by
  unfold setReservationConfiguration
  refine bind_wp (wp_acquire.mpr ?_)
  split
  · trivial
  refine bind_wp (wp_query.mpr (bind_wp (wp_liftExcept.mpr ?_)))
  split
  case h_2 => trivial
  refine bind_wp (wp_execute.mpr ?_)
  split
  case h_2 => trivial
  next row w hw =>
  obtain ⟨hrow, rfl⟩ := updateConfiguration_ok hw
  obtain ⟨rfl, hz⟩ := row_ok hrow
  exact ⟨rfl, .configuration row hz⟩

theorem wp_setRestaurantOperatingHours_change {weekday : Option ℤ}
    {opensAt closesAt : Option TimeOfDay} :
    (setRestaurantOperatingHours weekday opensAt closesAt).wp (fun x _ => x.elim)
      (fun ans m' => ans.isBooking = false ∧ Change env m.view m'.view) (fun _ _ => True) m := by
  unfold setRestaurantOperatingHours
  refine bind_wp (wp_acquire.mpr (bind_wp (wp_execute.mpr ?_)))
  split
  case h_2 => trivial
  next row w hw =>
  obtain ⟨-, rfl⟩ := updateHours_ok hw
  exact ⟨rfl, .hours row⟩

theorem wp_setRestaurantTableCapacity_change {tableNumber seatingCapacity : Option ℤ} :
    (setRestaurantTableCapacity tableNumber seatingCapacity).wp (fun x _ => x.elim)
      (fun ans m' => ans.isBooking = false ∧ Change env m.view m'.view) (fun _ _ => True) m := by
  unfold setRestaurantTableCapacity
  refine bind_wp (wp_acquire.mpr (bind_wp (wp_execute.mpr ?_)))
  split
  case h_2 => trivial
  next row w hw =>
  obtain ⟨-, rfl⟩ := updateTable_ok hw
  exact ⟨rfl, .table row⟩

/-- Every call of the server makes one of the changes, and only bookings answer with
their rows. -/
theorem wp_server_change (call : Call) (hc : Constraints env.character m.view)
    (hfresh : ∀ q, ¬ InUse m.view q (m.supply q 0)) :
    ((server env).body call).wp (fun x _ => x.elim)
      (fun ans m' => (ans.isBooking = true → call.isBooking = true) ∧ Change env m.view m'.view)
      (fun _ _ => True) m := by
  have other : ∀ {p : Routine Empty}, p.wp (fun x _ => x.elim)
      (fun ans m' => ans.isBooking = false ∧ Change env m.view m'.view) (fun _ _ => True) m →
        p.wp (fun x _ => x.elim) (fun ans m' => (ans.isBooking = true → call.isBooking = true) ∧
          Change env m.view m'.view) (fun _ _ => True) m := by
    intro p h
    refine wp_mono h (fun _ _ hq => hq) ?_ fun _ _ he => he
    rintro ans m' ⟨hans, hchange⟩
    exact ⟨fun hb => absurd hb (by simp [hans]), hchange⟩
  cases call with
  | bookReservation p readings =>
    show (bookReservationCore env .readCommitted p none none readings).wp _ _ _ m
    exact wp_mono (wp_bookReservationCore_change hc hfresh) (fun _ _ hq => hq)
      (fun _ _ hchange => ⟨fun _ => rfl, hchange⟩) fun _ _ he => he
  | setNewsletterPreference p => exact other (wp_setNewsletterPreference_change hc)
  | setReservationConfiguration p => exact other wp_setReservationConfiguration_change
  | setRestaurantOperatingHours weekday opensAt closesAt =>
    exact other wp_setRestaurantOperatingHours_change
  | setRestaurantTableCapacity tableNumber seatingCapacity =>
    exact other wp_setRestaurantTableCapacity_change

end Rules

end CafeFausse
