import CafeFausse.Frontend.ReservationWorkflow

/-! # Current offers

The times on display answer the last request for times, and that request asked for what is
entered. So a reservation carries a current offer; one that is sent again is the last one
sent, and nothing can be edited meanwhile.
-/

namespace CafeFausse.Frontend.ReservationWorkflow

open Interaction

variable {b : Browser} {context : ReservationContext} {events : List Event} {s s' : Workflow}
  {e : Event}

/-- The times on display answer the last request, which asked for what is entered, and an
answer that would count is being waited for. -/
structure Offers (b : Browser) (s : Workflow) : Prop where
  ready : ∀ slots, s.availability = .ready slots → ∃ x, s.exchanges.latest = some x ∧
    x.number = s.exchanges.counter ∧ x.query = s.request b ∧ x.answer = some (.slots slots)
  awaited : ∀ x ∈ s.exchanges.log, x.number = s.exchanges.counter → x.answer = none →
    s.availability = .loading ∧ x.query = s.request b

theorem offers_of_settled (hs : s.exchanges.Settled) (hr : ∀ slots, s.availability ≠ .ready slots) :
    Offers b s where
  ready slots hslots := absurd hslots (hr slots)
  awaited x hx hn ha := absurd ha (hs x hx hn)

theorem Offers.settled (h : Offers b s) (hne : s.availability ≠ .loading) : s.exchanges.Settled :=
  fun x hx hn ha => hne (h.awaited x hx hn ha).1

theorem Offers.congr (h : Offers b s) (ha : s'.availability = s.availability)
    (hx : s'.exchanges = s.exchanges) (hd : s'.localDate = s.localDate)
    (hp : s'.partySize = s.partySize) : Offers b s' := by
  have hreq : s'.request b = s.request b := by
    simp only [Workflow.request, Workflow.key, hd, hp]
  constructor
  · rw [ha, hx, hreq]
    exact h.ready
  · rw [ha, hx, hreq]
    exact h.awaited

theorem offers_invalidateAvailability {date party : Text} :
    Offers b { s.invalidateAvailability with localDate := date, partySize := party } :=
  offers_of_settled Exchanges.settled_skip nofun

theorem Offers.checkAvailability (h : Offers b s) : Offers b (s.checkAvailability b context) := by
  unfold Workflow.checkAvailability
  split
  · exact h
  · constructor
    · intro slots hslots
      cases hslots
    · intro x hx hn _
      -- the number is that of the request that has just been sent
      have hlast := Exchanges.latest_eq hx hn
      rw [Exchanges.latest_send] at hlast
      cases hlast
      exact ⟨rfl, rfl⟩

theorem eq_of_availability_ready {answer : AvailabilityAnswer} {slots : List Slot}
    (h : answer.availability = .ready slots) : answer = .slots slots := by
  rcases answer with slots' | _ | error
  · cases h
    rfl
  · cases h
  · cases h

/-- `t` is the state with the log that an answer leaves. -/
theorem Offers.answered (h : Offers b s) {t : Workflow} {n : ℕ} {answer : AvailabilityAnswer}
    {x : Exchange AvailabilityRequest AvailabilityAnswer}
    (hx : s.exchanges.settle n answer = some (x, t.exchanges))
    (ht : t.availability = s.availability) (hreq : t.request b = s.request b) :
    Offers b (t.availabilityAnswered x answer) := by
  obtain ⟨hmem, hnum, hnone, hcounter, hlog⟩ := Exchanges.settle_eq_some hx
  by_cases hn : n = s.exchanges.counter
  · obtain ⟨-, hquery⟩ := h.awaited x hmem (hnum.trans hn) hnone
    have hcounts : ¬ (x.number ≠ t.exchanges.counter ∨ x.query.key ≠ t.key) := by
      have hkey : x.query.key = t.key := congrArg AvailabilityRequest.key (hquery.trans hreq.symm)
      simp [hcounter, hnum, hn, hkey]
    unfold Workflow.availabilityAnswered
    rw [if_neg hcounts]
    constructor
    · intro slots hslots
      obtain rfl := eq_of_availability_ready hslots
      exact ⟨_, Exchanges.latest_settle_of_eq hx hn, by rw [hcounter]; exact hnum.trans hn,
        hquery.trans hreq.symm, rfl⟩
    · intro y hy hny hay
      exact absurd hay (Exchanges.settled_settle hx hn y hy hny)
  · -- the answer to an earlier request changes neither the times nor the last exchange
    have hstale : x.number ≠ t.exchanges.counter ∨ x.query.key ≠ t.key :=
      .inl (by rw [hcounter, hnum]; exact hn)
    unfold Workflow.availabilityAnswered
    rw [if_pos hstale]
    constructor
    · rw [ht, hreq]
      intro slots hslots
      obtain ⟨last, hlast, hlastnum, hquery, ha⟩ := h.ready slots hslots
      exact ⟨last, Exchanges.latest_settle_of_ne hx hlast hlastnum hn,
        by rw [hcounter]; exact hlastnum, hquery, ha⟩
    · rw [ht, hreq]
      intro y hy hny hay
      rw [hlog] at hy
      rw [hcounter] at hny
      obtain ⟨z, hz, rfl⟩ := List.mem_map.mp hy
      rw [Exchanges.Exchange.number_settle] at hny
      have hzn : z.number ≠ n := fun hzn => hn (hzn.symm.trans hny)
      simp only [Exchanges.Exchange.settle, if_neg hzn] at hay ⊢
      exact h.awaited z hz hny hay

/-- While a reservation is pending or can be sent again, it is the last one that was sent, no
times are being asked for, and the button that refreshes them is not shown. -/
structure Held (s : Workflow) : Prop where
  pending : ∀ body, s.pending = some body → s.sent.getLast? = some body
  recovery : ∀ recovery, s.recovery = some recovery → s.sent.getLast? = some recovery.body
  still : s.Locked → s.availability ≠ .loading
  unrefreshed : s.Locked → s.feedback ≠ some "Reservation time unavailable"

theorem held_of_not_locked (h : ¬ s.Locked) : Held s where
  pending body hb := absurd (.inl (by simp [hb])) h
  recovery recovery hr := absurd (.inr (by simp [hr])) h
  still hl := absurd hl h
  unrefreshed hl := absurd hl h

/-- A step that leaves the reservation alone. -/
theorem Held.congr (h : Held s) (hp : s'.pending = s.pending) (hr : s'.recovery = s.recovery)
    (hs : s'.sent = s.sent) (ha : s'.availability = .loading → s.availability = .loading)
    (hf : s'.feedback = s.feedback ∨ s'.feedback = none) : Held s' := by
  have hlocked : s'.Locked ↔ s.Locked := by simp only [Workflow.Locked, hp, hr]
  constructor
  · rw [hp, hs]
    exact h.pending
  · rw [hr, hs]
    exact h.recovery
  · rw [hlocked]
    exact fun hl hn => h.still hl (ha hn)
  · rw [hlocked]
    intro hl
    rcases hf with hf | hf
    · rw [hf]
      exact h.unrefreshed hl
    · rw [hf]
      exact nofun

/-- What every state of a run satisfies. -/
structure Sound (b : Browser) (s : Workflow) : Prop where
  offers : Offers b s
  held : Held s

theorem Sound.settled (h : Sound b s) (hl : s.Locked) : s.exchanges.Settled :=
  h.offers.settled (h.held.still hl)

theorem render_eq (b : Browser) (old new : Workflow) :
    ∃ hook, old.render b new = { new with hook } := by
  unfold Workflow.render
  split
  · exact ⟨_, rfl⟩
  · exact ⟨new.hook, rfl⟩

theorem Sound.checkAvailability (h : Sound b s) (hl : ¬ s.Locked) :
    Sound b (s.checkAvailability b context) := by
  refine ⟨h.offers.checkAvailability, held_of_not_locked ?_⟩
  unfold Workflow.checkAvailability
  split
  · exact hl
  · exact hl

theorem Sound.sendReservation (h : Sound b s) (body : ReservationBody)
    (ha : s.availability ≠ .loading) (hr : ∀ recovery, s.recovery = some recovery → recovery.body = body) :
    Sound b (s.sendReservation body) := by
  unfold Workflow.sendReservation
  split
  · exact h
  · have hlast : (s.sent ++ [body]).getLast? = some body := by simp
    refine ⟨h.offers.congr rfl rfl rfl rfl, ?_, ?_, fun _ => ha, fun _ => nofun⟩
    · intro _ hbody
      cases hbody
      exact hlast
    · intro recovery hrec
      rw [hr recovery hrec]
      exact hlast

theorem Sound.reservationSucceeded (h : Sound b s) (hl : s.Locked) :
    Sound b (s.reservationSucceeded b) := by
  obtain ⟨hook, heq⟩ := render_eq b s { s with
    pending := none, recovery := none, confirmed := true, customer := .empty, localDate := [],
    partySize := [], availability := .idle, selectedStart := [], newsletterChecked := false,
    newsletterChoiceVersion := 0 }
  unfold Workflow.reservationSucceeded
  rw [heq]
  exact ⟨offers_of_settled (h.settled hl) nofun, held_of_not_locked (by simp [Workflow.Locked])⟩

theorem Offers.mapServerFields (h : Offers b s) (fields : List FieldError) :
    Offers b (s.mapServerFields fields) := by
  unfold Workflow.mapServerFields
  split
  · exact offers_invalidateAvailability
  · exact h

@[simp] theorem locked_mapServerFields {fields : List FieldError} :
    (s.mapServerFields fields).Locked ↔ s.Locked := by
  unfold Workflow.mapServerFields
  split <;> rfl

/-- A failure that the reservation may be sent again after. -/
theorem Sound.unresolved (h : Sound b s) {body : ReservationBody} (hbody : s.pending = some body)
    {recovery : Option Recovery} {title : String} (hrec : ∀ r, recovery = some r → r.body = body)
    (htitle : title ≠ "Reservation time unavailable") :
    Sound b { s with pending := none, recovery, feedback := some title } := by
  refine ⟨h.offers.congr rfl rfl rfl rfl, nofun, ?_, fun _ => ?_, fun _ hf => ?_⟩
  · intro r hr
    rw [hrec r hr]
    exact h.held.pending body hbody
  · exact h.held.still (.inl (by simp [hbody]))
  · exact htitle (Option.some.inj hf)

theorem title_ne {p q : Prop} [Decidable p] [Decidable q] :
    (if p then "Reservation result not confirmed"
      else if q then "Reservation exists; confirmation unavailable"
      else "Reservation could not be processed") ≠ "Reservation time unavailable" := by
  split
  · decide
  · split <;> decide

theorem Sound.reservationFailed (h : Sound b s) {body : ReservationBody}
    (hbody : s.pending = some body) (error : Option ReservationError) :
    Sound b (s.reservationFailed body error) := by
  have hsettled := h.settled (.inl (by simp [hbody]))
  have hfree : ¬ { s with pending := none, recovery := none : Workflow }.Locked := by
    simp [Workflow.Locked]
  have hoffers : Offers b { s with pending := none, recovery := none } :=
    h.offers.congr rfl rfl rfl rfl
  have hrec : ∀ {unknown confirmationUnavailable retryable : Bool} (r : Recovery),
      (if unknown || confirmationUnavailable || retryable then
        some (⟨body, unknown, confirmationUnavailable⟩ : Recovery) else none) = some r →
      r.body = body := by
    intro unknown confirmationUnavailable retryable r hr
    split at hr
    · cases hr
      rfl
    · cases hr
  unfold Workflow.reservationFailed
  cases error with
  | none => exact h.unresolved hbody hrec title_ne
  | some error =>
    obtain ⟨error, fields⟩ := error
    simp only
    split
    · exact ⟨(hoffers.mapServerFields fields).congr rfl rfl rfl rfl,
        held_of_not_locked (mt locked_mapServerFields.mp hfree)⟩
    split
    · exact ⟨hoffers.congr rfl rfl rfl rfl, held_of_not_locked hfree⟩
    split
    · exact ⟨hoffers.congr rfl rfl rfl rfl, held_of_not_locked hfree⟩
    split
    · exact ⟨hoffers.congr rfl rfl rfl rfl, held_of_not_locked hfree⟩
    split
    · exact ⟨offers_of_settled hsettled nofun, held_of_not_locked hfree⟩
    · exact h.unresolved hbody hrec title_ne

theorem Sound.availabilityAnswered (h : Sound b s) {n : ℕ} {answer : AvailabilityAnswer}
    {x : Exchange AvailabilityRequest AvailabilityAnswer}
    {exchanges : Exchanges AvailabilityRequest AvailabilityAnswer}
    (hx : s.exchanges.settle n answer = some (x, exchanges)) :
    Sound b ({ s with exchanges }.availabilityAnswered x answer) := by
  refine ⟨h.offers.answered hx rfl rfl, ?_⟩
  unfold Workflow.availabilityAnswered
  split
  · exact h.held.congr rfl rfl rfl id (.inl rfl)
  · refine h.held.congr rfl rfl rfl (fun hn => ?_) (.inl rfl)
    rcases answer with slots | _ | error <;> cases hn

theorem selectedSlot_eq_some {slot : Slot} (h : s.selectedSlot = some slot) :
    ∃ slots, s.availability = .ready slots ∧ slot ∈ slots ∧ slot.available = true := by
  unfold Workflow.selectedSlot at h
  split at h
  · next slots ha =>
    have := List.find?_some h
    simp only [Bool.and_eq_true] at this
    exact ⟨slots, ha, List.mem_of_find?_eq_some h, this.2⟩
  · cases h

/-- What the visitor has entered. -/
def Workflow.entries (s : Workflow) : Text × Text × Text × Customer :=
  (s.localDate, s.partySize, s.selectedStart, s.customer)

/-- The step touches neither the times nor the reservation, nor what is entered if that is
locked. -/
structure Aside (s s' : Workflow) : Prop where
  availability : s'.availability = s.availability
  exchanges : s'.exchanges = s.exchanges
  localDate : s'.localDate = s.localDate
  partySize : s'.partySize = s.partySize
  pending : s'.pending = s.pending
  recovery : s'.recovery = s.recovery
  sent : s'.sent = s.sent
  feedback : s'.feedback = s.feedback ∨ s'.feedback = none
  entries : s.Locked → s'.entries = s.entries

/-- What the form can do at an event. -/
inductive Reaction (b : Browser) (context : ReservationContext) (s : Workflow) :
    Event → Workflow → Prop
  | aside {e : Event} {t : Workflow} (h : Aside s t) : Reaction b context s e t
  | invalidated {e : Event} (date party : Text) (h : ¬ s.Locked) :
    Reaction b context s e { s.invalidateAvailability with localDate := date, partySize := party }
  | asked {e : Event} (h : s.Locked → s.feedback = some "Reservation time unavailable") :
    Reaction b context s e (s.checkAvailability b context)
  | answered {n answer x exchanges} (h : s.exchanges.settle n answer = some (x, exchanges)) :
    Reaction b context s (.availabilityAnswered n answer)
      ({ s with exchanges }.availabilityAnswered x answer)
  | submitted {slot} (h : ¬ s.Locked) (hslot : s.selectedSlot = some slot) :
    Reaction b context s .submit (s.sendReservation (s.reservationBody b slot))
  | resent {recovery} (h : s.recovery = some recovery) (hp : s.pending = none) :
    Reaction b context s .retryReservation (s.sendReservation recovery.body)
  | succeeded {body} (h : s.pending = some body) :
    Reaction b context s .reservationSucceeded (s.reservationSucceeded b)
  | failed {body} (error : Option ReservationError) (h : s.pending = some body) :
    Reaction b context s (.reservationFailed error) (s.reservationFailed body error)
  | abandoned : Reaction b context s .abandon { s with recovery := none, feedback := none }

theorem of_offered {p : Prop} [Decidable p] {t : Workflow}
    (h : (if p then some t else none) = some s') : p ∧ t = s' :=
  (Option.ite_none_right_eq_some.mp h).imp_right Option.some.inj

/-- An event that leaves all but the lookup and its checkbox alone. -/
theorem aside_of_hook {hook : LookupHook} {newsletterChecked : Bool}
    {newsletterChoiceVersion lookupRetryVersion : ℕ} {confirmed : Bool} :
    Aside s { s with
      hook, newsletterChecked, newsletterChoiceVersion, lookupRetryVersion, confirmed } :=
  ⟨rfl, rfl, rfl, rfl, rfl, rfl, rfl, .inl rfl, fun _ => rfl⟩

theorem reaction_of_step (hs : step b context s e = some s') : Reaction b context s e s' := by
  cases e with
  | changeDate value =>
    obtain ⟨hedit, rfl⟩ := of_offered hs
    exact .invalidated value s.partySize hedit.2
  | changeParty value =>
    obtain ⟨hedit, rfl⟩ := of_offered hs
    exact .invalidated s.localDate value hedit.2
  | checkAvailability =>
    obtain ⟨⟨hedit, -⟩, rfl⟩ := of_offered hs
    exact .asked fun hl => absurd hl hedit.2
  | retryAvailability =>
    simp only [step] at hs
    split at hs
    · obtain ⟨hedit, rfl⟩ := of_offered hs
      exact .asked fun hl => absurd hl hedit.2
    · cases hs
  | refreshTimes =>
    obtain ⟨⟨-, hshown⟩, rfl⟩ := of_offered hs
    exact .asked fun _ => hshown
  | selectSlot slot =>
    simp only [step] at hs
    split at hs
    · obtain ⟨⟨hedit, -⟩, rfl⟩ := of_offered hs
      exact .aside ⟨rfl, rfl, rfl, rfl, rfl, rfl, rfl, .inl rfl, fun hl => absurd hl hedit.2⟩
    · cases hs
  | updateCustomer field value =>
    obtain ⟨hedit, rfl⟩ := of_offered hs
    obtain ⟨hook, heq⟩ := render_eq b s
      { s with customer := s.customer.update value field, feedback := none }
    rw [heq]
    exact .aside ⟨rfl, rfl, rfl, rfl, rfl, rfl, rfl, .inr rfl, fun hl => absurd hl hedit.2⟩
  | toggleNewsletter =>
    obtain ⟨-, rfl⟩ := of_offered hs
    exact .aside aside_of_hook
  | retryLookup =>
    obtain ⟨-, rfl⟩ := of_offered hs
    obtain ⟨hook, heq⟩ := render_eq b s { s with lookupRetryVersion := s.lookupRetryVersion + 1 }
    rw [heq]
    exact .aside aside_of_hook
  | timer =>
    obtain ⟨hook, -, rfl⟩ := Option.map_eq_some_iff.mp hs
    exact .aside aside_of_hook
  | lookupAnswered n result =>
    obtain ⟨⟨lookup, hook⟩, -, rfl⟩ := Option.map_eq_some_iff.mp hs
    exact .aside aside_of_hook
  | lookupFailed n error =>
    obtain ⟨⟨lookup, hook⟩, -, rfl⟩ := Option.map_eq_some_iff.mp hs
    exact .aside aside_of_hook
  | availabilityAnswered n answer =>
    obtain ⟨⟨x, exchanges⟩, hx, rfl⟩ := Option.map_eq_some_iff.mp hs
    exact .answered hx
  | submit =>
    obtain ⟨⟨-, -, hfree⟩, rfl⟩ := of_offered hs
    unfold Workflow.submit
    split
    · exact .aside aside_of_hook
    split
    · exact .aside aside_of_hook
    · next slot hslot => exact .submitted hfree hslot
  | reservationSucceeded =>
    obtain ⟨body, hbody, rfl⟩ := Option.map_eq_some_iff.mp hs
    exact .succeeded hbody
  | reservationFailed error =>
    obtain ⟨body, hbody, rfl⟩ := Option.map_eq_some_iff.mp hs
    exact .failed error hbody
  | retryReservation =>
    obtain ⟨⟨-, -, hnone⟩, hretry⟩ := Option.ite_none_right_eq_some.mp hs
    obtain ⟨recovery, hrec, rfl⟩ := Option.map_eq_some_iff.mp hretry
    exact .resent hrec hnone
  | abandon =>
    obtain ⟨-, rfl⟩ := of_offered hs
    exact .abandoned
  | newReservation =>
    obtain ⟨-, rfl⟩ := of_offered hs
    exact .aside aside_of_hook

theorem Sound.aside (h : Sound b s) (ha : Aside s s') : Sound b s' where
  offers := h.offers.congr ha.availability ha.exchanges ha.localDate ha.partySize
  held := h.held.congr ha.pending ha.recovery ha.sent (fun hn => ha.availability ▸ hn) ha.feedback

theorem Sound.reaction (h : Sound b s) (hr : Reaction b context s e s') : Sound b s' := by
  cases hr with
  | aside ha => exact h.aside ha
  | invalidated date party hl => exact ⟨offers_invalidateAvailability, held_of_not_locked hl⟩
  | asked hshown =>
    exact h.checkAvailability fun hl => h.held.unrefreshed hl (hshown hl)
  | answered hx => exact h.availabilityAnswered hx
  | submitted hl hslot =>
    obtain ⟨slots, ha, -⟩ := selectedSlot_eq_some hslot
    exact h.sendReservation _ (by simp [ha]) fun r hr => absurd (.inr (by simp [hr])) hl
  | resent hrec _ =>
    refine h.sendReservation _ (h.held.still (.inr (by simp [hrec]))) fun r hr => ?_
    rw [Option.some.inj (hr.symm.trans hrec)]
  | succeeded hbody => exact h.reservationSucceeded (.inl (by simp [hbody]))
  | failed error hbody => exact h.reservationFailed hbody error
  | abandoned =>
    exact ⟨h.offers.congr rfl rfl rfl rfl,
      ⟨h.held.pending, nofun, fun hl => h.held.still (hl.imp_right nofun), fun _ => nofun⟩⟩

theorem sound_of_runs (h : (form b context).Runs events s) : Sound b s := by
  refine h.invariant ?_ fun s e s' hs hstep => hs.reaction (reaction_of_step hstep)
  exact ⟨offers_of_settled nofun nofun, held_of_not_locked nofun⟩

section Frame

variable (b context s)

@[simp] theorem sent_render (t : Workflow) : (s.render b t).sent = t.sent := by
  unfold Workflow.render
  split <;> rfl

@[simp] theorem sent_checkAvailability : (s.checkAvailability b context).sent = s.sent := by
  unfold Workflow.checkAvailability
  split <;> rfl

@[simp] theorem sent_availabilityAnswered (x : Exchange AvailabilityRequest AvailabilityAnswer)
    (answer : AvailabilityAnswer) : (s.availabilityAnswered x answer).sent = s.sent := by
  unfold Workflow.availabilityAnswered
  split <;> rfl

@[simp] theorem entries_availabilityAnswered
    (x : Exchange AvailabilityRequest AvailabilityAnswer) (answer : AvailabilityAnswer) :
    (s.availabilityAnswered x answer).entries = s.entries := by
  unfold Workflow.availabilityAnswered
  split <;> rfl

@[simp] theorem entries_sendReservation (body : ReservationBody) :
    (s.sendReservation body).entries = s.entries := by
  unfold Workflow.sendReservation
  split <;> rfl

@[simp] theorem sent_mapServerFields (fields : List FieldError) :
    (s.mapServerFields fields).sent = s.sent := by
  unfold Workflow.mapServerFields
  split <;> rfl

@[simp] theorem sent_reservationFailed (body : ReservationBody) (error : Option ReservationError) :
    (s.reservationFailed body error).sent = s.sent := by
  unfold Workflow.reservationFailed
  rcases error with _ | ⟨error, fields⟩
  · rfl
  · simp only
    split
    · simp
    · repeat (split; · rfl)
      rfl

end Frame

/-- What a slot of the display makes of a body. -/
theorem Offers.currentOffer (h : Offers b s) {slot : Slot} (hslot : s.selectedSlot = some slot) :
    CurrentOffer b s (s.reservationBody b slot) := by
  obtain ⟨slots, ha, hmem, havailable⟩ := selectedSlot_eq_some hslot
  obtain ⟨x, hlatest, -, hquery, hanswer⟩ := h.ready slots ha
  exact ⟨x, slots, hlatest, hanswer, by rw [hquery]; rfl, by rw [hquery]; rfl,
    by rw [hquery]; rfl, slot, hmem, havailable, rfl, rfl⟩

/-- A body that is sent is a current offer built by the handler of the form, or is sent
again. -/
theorem Sound.sends (h : Sound b s) (hr : Reaction b context s e s') :
    s'.sent = s.sent ∨ ∃ body, s'.sent = s.sent ++ [body] ∧
      (e = .submit ∧ CurrentOffer b s body ∨ e = .retryReservation ∧
        ∃ recovery, s.recovery = some recovery ∧ body = recovery.body) := by
  cases hr with
  | aside ha => exact .inl ha.sent
  | invalidated => exact .inl rfl
  | asked => exact .inl (sent_checkAvailability b context s)
  | answered => exact .inl (sent_availabilityAnswered _ _ _)
  | submitted hl hslot =>
    have hnone : ¬ s.pending.isSome := fun hp => hl (.inl hp)
    refine .inr ⟨_, ?_, .inl ⟨rfl, h.offers.currentOffer hslot⟩⟩
    simp [Workflow.sendReservation, hnone]
  | resent hrec hnone =>
    refine .inr ⟨_, ?_, .inr ⟨rfl, _, hrec, rfl⟩⟩
    simp [Workflow.sendReservation, hnone]
  | succeeded => exact .inl (sent_render b s _)
  | failed error => exact .inl (sent_reservationFailed s _ error)
  | abandoned => exact .inl rfl

/-- The answer to a reservation has come. -/
def Event.IsReservationAnswer (e : Event) : Prop :=
  e = .reservationSucceeded ∨ ∃ error, e = .reservationFailed error

/-- While a reservation is pending or can be sent again, only its answer changes what is
entered. -/
theorem Sound.entries_eq (h : Sound b s) (hl : s.Locked) (hr : Reaction b context s e s')
    (he : ¬ e.IsReservationAnswer) : s'.entries = s.entries := by
  cases hr with
  | aside ha => exact ha.entries hl
  | invalidated date party hfree => exact absurd hl hfree
  | asked hshown => exact absurd (hshown hl) (h.held.unrefreshed hl)
  | answered => exact entries_availabilityAnswered _ _ _
  | submitted => exact entries_sendReservation _ _
  | resent => exact entries_sendReservation _ _
  | succeeded => exact absurd (.inl rfl) he
  | failed error => exact absurd (.inr ⟨error, rfl⟩) he
  | abandoned => rfl

/-- No edit is on offer while a reservation is pending or can be sent again. -/
theorem step_eq_none_of_isEdit (hl : s.Locked) (he : e.IsEdit) : step b context s e = none := by
  have hedit : ¬ s.Editable := fun h => h.2 hl
  cases e with
  | changeDate value => exact if_neg hedit
  | changeParty value => exact if_neg hedit
  | updateCustomer field value => exact if_neg hedit
  | toggleNewsletter => exact if_neg hedit
  | selectSlot slot =>
    simp only [step]
    split
    · exact if_neg fun h => hedit h.1
    · rfl
  | _ => cases he

/-- In every run, a body built from the form is a current offer and one that is sent again is
the last one sent. Meanwhile no field can be edited. -/
theorem submits_current_offer (h : (form b context).Runs events s)
    (hs : step b context s e = some s') :
    (s'.sent = s.sent ∨ ∃ body, s'.sent = s.sent ++ [body] ∧
      (e = .submit ∧ CurrentOffer b s body ∨
        e = .retryReservation ∧ s.recovery.map Recovery.body = some body ∧
          s.sent.getLast? = some body)) ∧
    (s.Locked → ¬ e.IsEdit ∧ (¬ e.IsReservationAnswer → s'.entries = s.entries)) := by
  have hsound := sound_of_runs h
  have hreaction := reaction_of_step hs
  constructor
  · rcases hsound.sends hreaction with hsame | ⟨body, hsent, hoffer | ⟨he, recovery, hrec, rfl⟩⟩
    · exact .inl hsame
    · exact .inr ⟨body, hsent, .inl hoffer⟩
    · exact .inr ⟨_, hsent, .inr ⟨he, by simp [hrec], hsound.held.recovery recovery hrec⟩⟩
  · intro hl
    refine ⟨fun he => ?_, hsound.entries_eq hl hreaction⟩
    rw [step_eq_none_of_isEdit hl he] at hs
    cases hs

/-- Two months of dates and parties of up to 120. -/
def autumn : ReservationContext := ⟨text "2026-08-24", text "2026-10-23", 120⟩

/-- The visitor enters everything and picks the first time, after an early answer that no
longer counts. -/
def picked : List Event :=
  [.changeDate (text "2026-09-11"), .changeParty (text "4"), .checkAvailability,
    .changeDate (text "2026-09-12"), .checkAvailability,
    .availabilityAnswered 3 (.slots [⟨text "2026-09-11T17:00:00-04:00", -240, true⟩]),
    .availabilityAnswered 5 (.slots [⟨text "2026-09-12T17:00:00-04:00", -240, true⟩]),
    .selectSlot ⟨text "2026-09-12T17:00:00-04:00", -240, true⟩,
    .updateCustomer (.identity .firstName) (text "Ada"),
    .updateCustomer (.identity .lastName) (text "Rivera"),
    .updateCustomer (.identity .email) (text "ada.rivera@example.com"),
    .updateCustomer (.identity .confirmationEmail) (text "ada.rivera@example.com")]

/-- The reservation is sent, and once more after a failure. -/
theorem submits_current_offer_picked :
    (∃ s s' body, (form .ascii autumn).Runs picked s ∧ step .ascii autumn s .submit = some s' ∧
      s'.sent = [body] ∧ CurrentOffer .ascii s body) ∧
    ∃ s s' body, (form .ascii autumn).Runs (picked ++ [.submit, .reservationFailed none]) s ∧
      step .ascii autumn s .retryReservation = some s' ∧ s'.sent = [body, body] := by
  constructor
  · obtain ⟨s, hs, hstate⟩ := (Option.any_eq_true _ _).mp (show
        ((form .ascii autumn).after picked).any (fun s => decide (s.sent = [] ∧
          (step .ascii autumn s .submit).any (fun t => decide (t.sent ≠ [])) = true)) = true by
      decide +kernel)
    obtain ⟨hnone, hstep⟩ := of_decide_eq_true hstate
    obtain ⟨s', hs', hsent⟩ := (Option.any_eq_true _ _).mp hstep
    obtain ⟨hsame | ⟨body, hbody, ⟨-, hoffer⟩ | ⟨he, -⟩⟩, -⟩ :=
      submits_current_offer (Machine.runs_iff.mpr hs) hs'
    · exact absurd (hsame.trans hnone) (of_decide_eq_true hsent)
    · exact ⟨s, s', body, Machine.runs_iff.mpr hs, hs', by rw [hbody, hnone]; rfl, hoffer⟩
    · cases he
  · obtain ⟨s, hs, hstate⟩ := (Option.any_eq_true _ _).mp (show
        ((form .ascii autumn).after (picked ++ [.submit, .reservationFailed none])).any
          (fun s => decide (s.sent.length = 1 ∧
            (step .ascii autumn s .retryReservation).any (fun t => decide (t.sent ≠ s.sent)) =
              true)) = true by
      decide +kernel)
    obtain ⟨hone, hstep⟩ := of_decide_eq_true hstate
    obtain ⟨s', hs', hsent⟩ := (Option.any_eq_true _ _).mp hstep
    obtain ⟨hsame | ⟨body, hbody, ⟨he, -⟩ | ⟨-, -, hlast⟩⟩, -⟩ :=
      submits_current_offer (Machine.runs_iff.mpr hs) hs'
    · exact absurd hsame (of_decide_eq_true hsent)
    · cases he
    · obtain ⟨x, hx⟩ := List.length_eq_one_iff.mp hone
      obtain rfl : x = body := by simpa [hx] using hlast
      exact ⟨s, s', x, Machine.runs_iff.mpr hs, hs', by rw [hbody, hx]; rfl⟩

end CafeFausse.Frontend.ReservationWorkflow
