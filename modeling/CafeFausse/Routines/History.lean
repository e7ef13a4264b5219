import CafeFausse.Routines.Evolution

/-! # Facts that are written once

What a call may do to a customer that is stored already: fill in an initial or a phone
number that is missing, and set the newsletter flag as the call asks for.
-/

namespace CafeFausse

open Transaction Program Database

/-- The row keeps every fact that is set. -/
structure Customer.WriteOnce (c c' : Customer) : Prop extends c.Keeps c' where
  phone : ∀ n ∈ c.phone, c'.phone = some n

/-- The call asks for the flag, and its answer says that it was set. -/
def Requested (call : Call) (ans : Answer) (flag : Bool) : Prop :=
  match call, ans with
  | .setNewsletterPreference p, .newsletter o _ =>
    p.subscribed = some flag ∧ o = if flag then .subscribed else .unsubscribed
  | .bookReservation p _, .booking row =>
    row.outcome.Books ∧ p.newsletterAction = some (if flag then .subscribe else .unsubscribe)
  | _, _ => False

/-- The row after a call that answered so. -/
structure Customer.Updates (call : Call) (ans : Answer) (c c' : Customer) : Prop
    extends c.WriteOnce c' where
  requested : c'.newsletterSubscribed ≠ c.newsletterSubscribed →
    Requested call ans c'.newsletterSubscribed

theorem Customer.WriteOnce.refl (c : Customer) : c.WriteOnce c := ⟨.refl c, fun _ h => h⟩

theorem Customer.WriteOnce.trans {a b c : Customer} (h : a.WriteOnce b) (h' : b.WriteOnce c) :
    a.WriteOnce c :=
  ⟨h.toKeeps.trans h'.toKeeps, fun n hn => h'.phone n (h.phone n hn)⟩

theorem Customer.Updates.refl (call : Call) (ans : Answer) (c : Customer) :
    c.Updates call ans c := ⟨.refl c, fun h => absurd rfl h⟩

/-- Every stored customer has a row after the call, with the updates it allows. -/
def RowsUpdated (call : Call) (ans : Answer) (db db' : Database) : Prop :=
  ∀ c ∈ db.customers, ∃ c' ∈ db'.customers, c.Updates call ans c'

theorem RowsUpdated.of_eq {call : Call} {ans : Answer} {db db' : Database}
    (h : db'.customers = db.customers) : RowsUpdated call ans db db' := fun c hc =>
  ⟨c, h ▸ hc, .refl call ans c⟩

variable {env : Environment} {m : Memory Database Sequence} {request : BookingRequest}
  {readings : Readings} {tieRank : Option ℤ} {db : Database}

section Booking

theorem phone_served (c : Customer) : (request.served c).phone = c.phone.or request.phone := by
  unfold BookingRequest.served BookingRequest.subscribed
  split <;> rfl

theorem newsletterSubscribed_served (c : Customer)
    (h : (request.served c).newsletterSubscribed ≠ c.newsletterSubscribed)
    (hv : request.newsletterAction ≠ .unrecognized) :
    request.newsletterAction =
      if (request.served c).newsletterSubscribed then .subscribe else .unsubscribe := by
  unfold BookingRequest.served BookingRequest.subscribed at h ⊢
  cases ha : request.newsletterAction with
  | noChange => simp [ha, BookingRequest.populated] at h
  | unrecognized => exact absurd ha hv
  | subscribe => simp
  | unsubscribe => simp

/-- A booking updates the row of its customer. -/
theorem Placement.rowsUpdated (b : Placement env request readings tieRank db) :
    RowsUpdated (.bookReservation request.arguments readings) (.booking b.row) db b.after := by
  have hupdates : b.customer.Updates (.bookReservation request.arguments readings)
      (.booking b.row) (request.served b.customer) := by
    refine ⟨⟨keeps_served b.customer, fun n hn => ?_⟩, fun hne => ⟨b.row_books, ?_⟩⟩
    · rw [phone_served, Option.mem_def.mp hn]
      rfl
    · exact congrArg some (newsletterSubscribed_served b.customer hne b.valid.newsletterAction)
  intro x hx
  have hx' : x ∈ b.resolved.customers := by
    have hres := b.resolves
    generalize b.customer = c, b.isNew = isNew, b.resolved = db' at hres
    cases hres with
    | stored => exact hx
    | created => exact List.mem_append_left _ hx
  exact exists_replaceCustomer (Customer.Updates.refl _ _) b.bookable.constraints b.bookable.customer
    (served_customerId b.customer) hupdates x hx'

end Booking

section Calls

theorem wp_bookReservation_rows {p : BookingArguments} (hc : Constraints env.character m.view)
    (hfresh : ∀ q, ¬ InUse m.view q (m.supply q 0)) :
    (bookReservation env p readings).wp (fun x _ => x.elim)
      (fun ans m' => RowsUpdated (.bookReservation p readings) ans m.view m'.view)
      (fun _ _ => True) m := by
  unfold bookReservation bookReservationCore
  split
  · exact .of_eq rfl
  split
  · exact .of_eq rfl
  next request hrequest =>
  obtain ⟨rfl, hv, -⟩ := normalizedInput_eq_some.mp hrequest
  refine wp_mono (wp_bookRequest (P := fun row db' =>
    RowsUpdated (.bookReservation request.arguments readings) (.booking row) m.view db') hc hfresh
    hv (fun _ _ => .of_eq rfl) fun b => b.rowsUpdated) (fun x _ => x.elim) ?_ fun _ _ _ => trivial
  rintro _ m' ⟨row, rfl, h⟩
  exact h

theorem subscribed_of_request {p : NewsletterArguments} {request : NewsletterRequest}
    (h : p.request = some request) : p.subscribed = some request.subscribed := by
  simp only [NewsletterArguments.request, Option.bind_eq_bind, Option.bind_eq_some_iff] at h
  obtain ⟨_, -, _, -, _, -, subscribed, hs, h⟩ := h
  cases h
  exact hs

theorem wp_setNewsletterPreference_rows {p : NewsletterArguments}
    (hc : Constraints env.character m.view) :
    (setNewsletterPreference env p).wp (fun x _ => x.elim)
      (fun ans m' => RowsUpdated (.setNewsletterPreference p) ans m.view m'.view)
      (fun _ _ => True) m := by
  unfold setNewsletterPreference
  split
  · exact .of_eq rfl
  next request hrequest =>
  have hp := subscribed_of_request (Option.filter_eq_some_iff.mp hrequest).1
  have hupdates : ∀ (c : Customer) (flag : Option Bool), c.Updates (.setNewsletterPreference p)
      (.newsletter (if request.subscribed then .subscribed else .unsubscribed) flag)
      { c with newsletterSubscribed := request.subscribed } := fun c flag =>
    ⟨⟨⟨rfl, rfl, fun _ h => h, rfl, rfl⟩, fun _ h => h⟩, fun _ => ⟨hp, rfl⟩⟩
  unfold setPreference
  refine bind_wp (wp_liftExcept.mpr ?_)
  split
  case h_2 => trivial
  refine bind_wp (wp_acquire.mpr (bind_wp (wp_newsletterCustomer (fun c hm he => ?_)
    (fun n hsub hck hnew => ?_) (.of_eq rfl) (fun _ _ _ _ _ => trivial) fun _ => trivial)))
  · exact wp_storePreference hc hm (fun _ _ _ => .of_eq rfl) fun flag _ =>
      exists_replaceCustomer (Customer.Updates.refl _ _) hc hm rfl (hupdates c flag)
  · have hadd := hc.addCustomer hck hnew
    have hm := List.mem_append_right m.view.customers
      (List.mem_singleton_self (request.newCustomer n))
    refine wp_storePreference hadd hm (fun _ _ _ c hc => ?_) fun flag _ c hc => ?_
    · exact ⟨c, List.mem_append_left _ hc, .refl _ _ c⟩
    · have hrow := hupdates (request.newCustomer n) flag
      exact exists_replaceCustomer (Customer.Updates.refl _ _) hadd hm hrow.customerId hrow c
        (List.mem_append_left _ hc)

theorem wp_setReservationConfiguration_rows {p : ConfigurationArguments} :
    (setReservationConfiguration env p).wp (fun x _ => x.elim)
      (fun _ m' => m'.view.customers = m.view.customers) (fun _ _ => True) m := by
  unfold setReservationConfiguration
  refine bind_wp (wp_acquire.mpr ?_)
  split
  · trivial
  refine bind_wp (wp_query.mpr (bind_wp (wp_liftExcept.mpr ?_)))
  split
  case h_2 => trivial
  refine bind_wp (wp_execute.mpr ?_)
  split
  case h_2 => trivial
  next row w hw =>
  obtain ⟨-, rfl⟩ := updateConfiguration_ok hw
  rfl

theorem wp_setRestaurantOperatingHours_rows {weekday : Option ℤ}
    {opensAt closesAt : Option TimeOfDay} :
    (setRestaurantOperatingHours weekday opensAt closesAt).wp (fun x _ => x.elim)
      (fun _ m' => m'.view.customers = m.view.customers) (fun _ _ => True) m := by
  unfold setRestaurantOperatingHours
  refine bind_wp (wp_acquire.mpr (bind_wp (wp_execute.mpr ?_)))
  split
  case h_2 => trivial
  next row w hw =>
  obtain ⟨-, rfl⟩ := updateHours_ok hw
  rfl

theorem wp_setRestaurantTableCapacity_rows {tableNumber seatingCapacity : Option ℤ} :
    (setRestaurantTableCapacity tableNumber seatingCapacity).wp (fun x _ => x.elim)
      (fun _ m' => m'.view.customers = m.view.customers) (fun _ _ => True) m := by
  unfold setRestaurantTableCapacity
  refine bind_wp (wp_acquire.mpr (bind_wp (wp_execute.mpr ?_)))
  split
  case h_2 => trivial
  next row w hw =>
  obtain ⟨-, rfl⟩ := updateTable_ok hw
  rfl

/-- Every call updates stored customers within what it allows. -/
theorem wp_server_rows (call : Call) (hc : Constraints env.character m.view)
    (hfresh : ∀ q, ¬ InUse m.view q (m.supply q 0)) :
    ((server env).body call).wp (fun x _ => x.elim)
      (fun ans m' => RowsUpdated call ans m.view m'.view) (fun _ _ => True) m := by
  cases call with
  | bookReservation p readings => exact wp_bookReservation_rows hc hfresh
  | setNewsletterPreference p => exact wp_setNewsletterPreference_rows hc
  | setReservationConfiguration p =>
    exact wp_mono wp_setReservationConfiguration_rows (fun _ _ h => h) (fun _ _ h => .of_eq h)
      fun _ _ h => h
  | setRestaurantOperatingHours weekday opensAt closesAt =>
    exact wp_mono wp_setRestaurantOperatingHours_rows (fun _ _ h => h) (fun _ _ h => .of_eq h)
      fun _ _ h => h
  | setRestaurantTableCapacity tableNumber seatingCapacity =>
    exact wp_mono wp_setRestaurantTableCapacity_rows (fun _ _ h => h) (fun _ _ h => .of_eq h)
      fun _ _ h => h

end Calls

end CafeFausse
