import CafeFausse.Frontend.CurrentOffers
import CafeFausse.Frontend.LateLookup
import CafeFausse.Frontend.PostedForms

/-! # What the server makes of a visit

The visitor types, the server answers, and the forms send. Whatever the order, every body that
either form sends is what was entered at a submit, and the server makes of it what it says, but for
an initial that is no single letter.
-/

namespace CafeFausse.Frontend

open Python Interaction

section Reading

/-- What the form reads of a slot in an answer. -/
def readSlot : Json → Option ReservationWorkflow.Slot
  | .object members =>
    match Payload.get members (text "starts_at_local"),
        Payload.get members (text "utc_offset_minutes"), Payload.get members (text "available") with
    | some (.string startsAtLocal), some (.integer utcOffsetMinutes), some (.boolean available) =>
      some ⟨startsAtLocal, utcOffsetMinutes, available⟩
    | _, _, _ => none
  | _ => none

/-- The slots of an answer. -/
def readSlots (members : Payload) : Option (List ReservationWorkflow.Slot) :=
  match members.get (text "slots") with
  | some (.array slots) => slots.mapM readSlot
  | _ => none

-- the time zones of the server, and how its platform writes a year
variable (zoneInfo : Backend.ZoneInfo) (strftime : ℤ → Text)

/-- The zone is a whole number of minutes, up to fourteen hours, ahead of or behind UTC at `t`. -/
def WholeOffset (zone : Zone) (t : ℤ) : Prop :=
  ∃ m, Backend.utcoffset zone t = Time.minutes m ∧ -840 ≤ m ∧ m ≤ 840

/-- The slots are those of an answer of the server, which offers these in the zone. -/
def Served (zone : Zone) (offered : List Backend.AvailabilitySlot)
    (slots : List ReservationWorkflow.Slot) : Prop :=
  ∃ session request timezoneRows rows timezone members,
    Backend.decodeAvailability session zoneInfo request timezoneRows rows =
      .ok (.slots request timezone offered) ∧
    zoneInfo timezone = some zone ∧ (∀ slot ∈ offered, WholeOffset zone slot.startsAt) ∧
    Backend.serializeReservationAvailability strftime zoneInfo (.slots request timezone offered) =
      some (.payload 200 members) ∧
    readSlots members = some slots

/-- The server has served the times, and a name is a string of the browser. -/
def ReservationWorkflow.Event.Genuine : ReservationWorkflow.Event → Prop
  | .availabilityAnswered _ (.slots slots) =>
    ∃ zone offered, Served zoneInfo strftime zone offered slots
  | .updateCustomer _ value => Unpaired value
  | _ => True

variable {zoneInfo strftime} {zone : Zone} {offered : List Backend.AvailabilitySlot}
  {slots : List ReservationWorkflow.Slot} {shown : ReservationWorkflow.Slot}

/-- What the form reads of a serialized slot. -/
def shownSlot (zone : Zone) (slot : Backend.AvailabilitySlot) : ReservationWorkflow.Slot :=
  ⟨Backend.localText zone slot.startsAt, Backend.utcoffset zone slot.startsAt / Time.minutes 1,
    slot.available⟩

theorem readSlot_serializeSlot {slot : Backend.AvailabilitySlot} {members : Payload}
    (h : Backend.serializeSlot strftime zone slot = some members) :
    readSlot (.object members) = some (shownSlot zone slot) := by
  obtain ⟨hlocal, hoffset, havailable⟩ := Backend.members_of_serializeSlot h
  unfold readSlot
  simp only [hlocal, hoffset, havailable]
  rfl

/-- Every slot of an answer shows a valid slot in its zone. -/
theorem Served.exists_slot (h : Served zoneInfo strftime zone offered slots)
    (hshown : shown ∈ slots) : ∃ slot ∈ offered, (∃ session request, slot.Valid session zone request) ∧
      WholeOffset zone slot.startsAt ∧ shown = shownSlot zone slot := by
  obtain ⟨session, request, timezoneRows, rows, timezone, members, hdecode, hzone, hwhole,
    hserialize, hread⟩ := h
  obtain ⟨zone', hzone', hvalid⟩ := Backend.slots_of_decodeAvailability hdecode
  obtain rfl := Option.some.inj (hzone.symm.trans hzone')
  unfold Backend.serializeReservationAvailability at hserialize
  simp only [hzone, Option.bind_eq_bind, Option.bind_some] at hserialize
  obtain ⟨serialized, hserialized, hpayload⟩ := Option.bind_eq_some_iff.mp hserialize
  cases hpayload
  have hslots : (serialized.map Json.object).mapM readSlot = some slots := hread
  obtain ⟨_, hmem, hreads⟩ := Backend.exists_of_mem_mapM hslots hshown
  obtain ⟨m, hm, rfl⟩ := List.mem_map.mp hmem
  obtain ⟨slot, hslot, hm⟩ := Backend.exists_of_mem_mapM hserialized hm
  rw [readSlot_serializeSlot hm] at hreads
  exact ⟨slot, hslot, ⟨session, request, hvalid slot hslot⟩, hwhole slot hslot,
    (Option.some.inj hreads).symm⟩

end Reading

section Lookups

variable {b : Browser} {values : Identity} {hook hook' : LookupHook} {lookup : Lookup} {n : ℕ}
  {P R : IdentityBody → Prop}

theorem currentKey_eq_some {body : IdentityBody} : currentKey b values = some body ↔
    validateIdentity b values none = [] ∧ body = identityBody b values := by
  unfold currentKey identityIsEligible
  rw [Option.ite_none_right_eq_some, List.isEmpty_iff, Option.some_inj, eq_comm (a := body)]

/-- The lookups that wait or have been sent are for such identities. -/
def LookupHook.Asks (P : IdentityBody → Prop) (hook : LookupHook) : Prop :=
  ∀ lookup, hook.Underway lookup → P lookup.snapshot

theorem LookupHook.Asks.mono (h : hook.Asks P) (hR : ∀ body, P body → R body) : hook.Asks R :=
  fun lookup hl => hR _ (h lookup hl)

/-- No lookup is new. -/
def LookupHook.Fewer (hook hook' : LookupHook) : Prop :=
  ∀ lookup, hook'.Underway lookup → hook.Underway lookup

theorem LookupHook.Asks.fewer (h : hook.Asks P) (hfewer : hook.Fewer hook') : hook'.Asks P :=
  fun lookup hl => h lookup (hfewer lookup hl)

/-- The effect asks for the identity that is entered. -/
theorem LookupHook.Asks.effect (h : hook.Asks P)
    (hnew : ∀ body, currentKey b values = some body → P body) (version : ℕ) :
    (hook.effect b values version).Asks P := by
  intro lookup hl
  rcases NewsletterPreferences.underway_effect hl with hsent | ⟨-, hkey, -⟩
  · exact h lookup (.inr hsent)
  · exact hnew _ hkey

theorem fewer_of_fire (h : hook.fire = some hook') : hook.Fewer hook' := by
  obtain ⟨lookup, hlookup, rfl⟩ := Option.map_eq_some_iff.mp h
  rintro x (hx | hx)
  · cases hx
  · rcases List.mem_append.mp hx with hx | hx
    · exact .inr hx
    · exact .inl (List.mem_singleton.mp hx ▸ hlookup)

theorem fewer_of_take (h : hook.take n = some (lookup, hook')) (state : LookupState) :
    hook.Fewer { hook' with lookup := state } := by
  obtain ⟨-, -, rfl⟩ := NewsletterPreferences.take_eq_some h
  rintro x (hx | hx)
  · exact .inl hx
  · exact .inr (List.mem_filter.mp hx).1

theorem asks_initial : LookupHook.initial.Asks P := by
  rintro lookup (h | h)
  · cases h
  · cases h

theorem unpaired_empty : Identity.empty.Unpaired := ⟨List.IsChain.nil, List.IsChain.nil⟩

theorem Identity.Unpaired.update {value : Text} (h : values.Unpaired)
    (hvalue : Python.Unpaired value)
    (field : IdentityField) : (values.update value field).Unpaired := by
  cases field with
  | firstName => exact ⟨hvalue, h.2⟩
  | lastName => exact ⟨h.1, hvalue⟩
  | _ => exact h

/-- A lookup for an identity that was entered in a run of a form is understood. -/
theorem understood_lookup {σ ε : Type} {m : Machine σ ε} {entered : σ → Identity} {events : List ε}
    {py : Interpreter} (codecName : Text → Option Text) {maxContentLength : ℕ} {body : IdentityBody}
    (hb : b.AgreesWith py.toUnicode) (hdepth : 0 < py.maxDepth) (hlimit : 4096 ≤ maxContentLength)
    (hentered : ∀ before rest s, events = before ++ rest → m.Runs before s → (entered s).Unpaired)
    (hmeets : m.Meets (fun s => currentKey b (entered s) = some body) events) :
    m.Meets (fun s => body = identityBody b (entered s)) events ∧
      ∃ request, post maxContentLength body.payload = some request ∧
        Understood py.toUnicode body (fun identity => identity = body.customer py.toUnicode)
          (Backend.newsletterStatusRequest py codecName request) := by
  refine ⟨hmeets.mono fun s hkey => (currentKey_eq_some.mp hkey).2, ?_⟩
  obtain ⟨before, rest, s, heq, hrun, hkey⟩ := hmeets
  obtain ⟨hvalid, rfl⟩ := currentKey_eq_some.mp hkey
  exact understood_status codecName hb hdepth hlimit hvalid (hentered before rest s heq hrun)

end Lookups

/-- An interpreter that knows the letters of ASCII and the sharp s. -/
def sharpSInterpreter : Interpreter where
  __ := Interpreter.ascii
  toUnicode := .sharpS

namespace ReservationWorkflow

section Runs

variable {b : Browser} {context : ReservationContext} {events : List Event} {s s' : Workflow}
  {e : Event} {zoneInfo : Backend.ZoneInfo} {strftime : ℤ → Text} {P : IdentityBody → Prop}

/-- What the visitor has typed of the identity is text, and lookups are for such identities. -/
structure Typed (P : IdentityBody → Prop) (s : Workflow) : Prop where
  customer : s.customer.identity.Unpaired
  lookups : s.hook.Asks P

theorem Typed.congr (h : Typed P s) (hc : s'.customer = s.customer) (hh : s'.hook = s.hook) :
    Typed P s' := ⟨hc ▸ h.customer, hh ▸ h.lookups⟩

theorem customer_render (old new : Workflow) : (old.render b new).customer = new.customer := by
  unfold Workflow.render
  split <;> rfl

theorem Typed.render {old new : Workflow} (h : new.customer.identity.Unpaired)
    (hh : new.hook.Asks P)
    (hnew : ∀ body, currentKey b (old.render b new).customer.identity = some body → P body) :
    Typed P (old.render b new) := by
  rw [customer_render] at hnew
  unfold Workflow.render
  split
  · exact ⟨h, hh.effect hnew _⟩
  · exact ⟨h, hh⟩

theorem Typed.checkAvailability (h : Typed P s) : Typed P (s.checkAvailability b context) := by
  unfold Workflow.checkAvailability
  split
  · exact h
  · exact h.congr rfl rfl

theorem Typed.availabilityAnswered (h : Typed P s)
    (x : Exchange AvailabilityRequest AvailabilityAnswer) (answer : AvailabilityAnswer) :
    Typed P (s.availabilityAnswered x answer) := by
  unfold Workflow.availabilityAnswered
  split
  · exact h
  · exact h.congr rfl rfl

theorem Typed.sendReservation (h : Typed P s) (body : ReservationBody) :
    Typed P (s.sendReservation body) := by
  unfold Workflow.sendReservation
  split
  · exact h
  · exact h.congr rfl rfl

theorem Typed.mapServerFields (h : Typed P s) (fields : List FieldError) :
    Typed P (s.mapServerFields fields) := by
  unfold Workflow.mapServerFields
  split
  · exact h.congr rfl rfl
  · exact h

theorem Typed.reservationFailed (h : Typed P s) (body : ReservationBody)
    (error : Option ReservationError) : Typed P (s.reservationFailed body error) := by
  have hfree : Typed P { s with pending := none, recovery := none } := h.congr rfl rfl
  unfold Workflow.reservationFailed
  rcases error with - | ⟨error, fields⟩
  · exact h.congr rfl rfl
  · simp only
    split
    · exact (hfree.mapServerFields fields).congr rfl rfl
    · repeat (split; · exact h.congr rfl rfl)
      exact h.congr rfl rfl

/-- An event may start a lookup for the identity that is entered after it. -/
theorem Typed.step (h : Typed P s) (he : e.Genuine zoneInfo strftime)
    (hs : step b context s e = some s')
    (hnew : ∀ body, currentKey b s'.customer.identity = some body → P body) : Typed P s' := by
  cases e with
  | changeDate value =>
    obtain ⟨-, rfl⟩ := of_offered hs
    exact h.congr rfl rfl
  | changeParty value =>
    obtain ⟨-, rfl⟩ := of_offered hs
    exact h.congr rfl rfl
  | checkAvailability =>
    obtain ⟨-, rfl⟩ := of_offered hs
    exact h.checkAvailability
  | retryAvailability =>
    simp only [ReservationWorkflow.step] at hs
    split at hs
    · obtain ⟨-, rfl⟩ := of_offered hs
      exact h.checkAvailability
    · cases hs
  | refreshTimes =>
    obtain ⟨-, rfl⟩ := of_offered hs
    exact h.checkAvailability
  | selectSlot slot =>
    simp only [ReservationWorkflow.step] at hs
    split at hs
    · obtain ⟨-, rfl⟩ := of_offered hs
      exact h.congr rfl rfl
    · cases hs
  | updateCustomer field value =>
    obtain ⟨-, rfl⟩ := of_offered hs
    refine Typed.render ?_ h.lookups hnew
    cases field with
    | identity field => exact h.customer.update he field
    | phone => exact h.customer
  | toggleNewsletter =>
    obtain ⟨-, rfl⟩ := of_offered hs
    exact h.congr rfl rfl
  | retryLookup =>
    obtain ⟨-, rfl⟩ := of_offered hs
    exact Typed.render h.customer h.lookups hnew
  | timer =>
    obtain ⟨hook, hfire, rfl⟩ := Option.map_eq_some_iff.mp hs
    exact ⟨h.customer, h.lookups.fewer (fewer_of_fire hfire)⟩
  | lookupAnswered n result =>
    obtain ⟨⟨lookup, hook⟩, htake, rfl⟩ := Option.map_eq_some_iff.mp hs
    obtain ⟨state, hstate⟩ :=
      NewsletterPreferences.answer_eq b hook s.customer.identity lookup result
    refine ⟨h.customer, ?_⟩
    simp only [hstate]
    exact h.lookups.fewer (fewer_of_take htake state)
  | lookupFailed n error =>
    obtain ⟨⟨lookup, hook⟩, htake, rfl⟩ := Option.map_eq_some_iff.mp hs
    obtain ⟨state, hstate⟩ := NewsletterPreferences.fail_eq b hook s.customer.identity lookup error
    refine ⟨h.customer, ?_⟩
    simp only [hstate]
    exact h.lookups.fewer (fewer_of_take htake state)
  | availabilityAnswered n answer =>
    obtain ⟨⟨x, exchanges⟩, -, rfl⟩ := Option.map_eq_some_iff.mp hs
    have hanswered : Typed P { s with exchanges } := h.congr rfl rfl
    exact hanswered.availabilityAnswered x answer
  | submit =>
    obtain ⟨-, rfl⟩ := of_offered hs
    unfold Workflow.submit
    split
    · exact h
    split
    · exact h
    · exact h.sendReservation _
  | reservationSucceeded =>
    obtain ⟨body, -, rfl⟩ := Option.map_eq_some_iff.mp hs
    exact Typed.render unpaired_empty h.lookups hnew
  | reservationFailed error =>
    obtain ⟨body, -, rfl⟩ := Option.map_eq_some_iff.mp hs
    exact h.reservationFailed body error
  | retryReservation =>
    obtain ⟨-, hretry⟩ := Option.ite_none_right_eq_some.mp hs
    obtain ⟨recovery, -, rfl⟩ := Option.map_eq_some_iff.mp hretry
    exact h.sendReservation _
  | abandon =>
    obtain ⟨-, rfl⟩ := of_offered hs
    exact h.congr rfl rfl
  | newReservation =>
    obtain ⟨-, rfl⟩ := of_offered hs
    exact h.congr rfl rfl

@[simp] theorem availability_sendReservation (s : Workflow) (body : ReservationBody) :
    (s.sendReservation body).availability = s.availability := by
  unfold Workflow.sendReservation
  split <;> rfl

theorem availability_mapServerFields (s : Workflow) (fields : List FieldError) :
    (s.mapServerFields fields).availability = s.availability ∨
      (s.mapServerFields fields).availability = .idle := by
  unfold Workflow.mapServerFields
  split
  · exact .inr rfl
  · exact .inl rfl

theorem availability_reservationFailed (s : Workflow) (body : ReservationBody)
    (error : Option ReservationError) :
    (s.reservationFailed body error).availability = s.availability ∨
      (s.reservationFailed body error).availability = .idle := by
  unfold Workflow.reservationFailed
  rcases error with - | ⟨error, fields⟩
  · exact .inl rfl
  · simp only
    split
    · exact availability_mapServerFields { s with pending := none, recovery := none } fields
    split
    · exact .inl rfl
    split
    · exact .inl rfl
    split
    · exact .inl rfl
    split
    · exact .inr rfl
    · exact .inl rfl

/-- The times on display come from an answer of the server. -/
theorem ready_of_reaction (hr : Reaction b context s e s') {slots : List Slot}
    (hready : s'.availability = .ready slots) :
    s.availability = .ready slots ∨ ∃ n, e = .availabilityAnswered n (.slots slots) := by
  cases hr with
  | aside ha => exact .inl (ha.availability ▸ hready)
  | invalidated => cases hready
  | asked =>
    revert hready
    unfold Workflow.checkAvailability
    split
    · exact .inl
    · exact nofun
  | @answered n answer x exchanges h =>
    revert hready
    unfold Workflow.availabilityAnswered
    split
    · exact .inl
    · intro hready
      obtain rfl := eq_of_availability_ready hready
      exact .inr ⟨n, rfl⟩
  | submitted => exact .inl (by rwa [availability_sendReservation] at hready)
  | resent => exact .inl (by rwa [availability_sendReservation] at hready)
  | succeeded =>
    obtain ⟨hook, heq⟩ := render_eq b s { s with
      pending := none, recovery := none, confirmed := true, customer := .empty, localDate := [],
      partySize := [], availability := .idle, selectedStart := [], newsletterChecked := false,
      newsletterChoiceVersion := 0 }
    unfold Workflow.reservationSucceeded at hready
    rw [heq] at hready
    cases hready
  | failed error =>
    rcases availability_reservationFailed s _ error with hsame | hidle
    · exact .inl (hsame ▸ hready)
    · cases hidle.symm.trans hready
  | abandoned => exact .inl hready

/-- A body that is sent is built from what is entered, or is sent again. -/
theorem sent_of_step (hs : step b context s e = some s') :
    s'.sent = s.sent ∨
      (∃ slot, e = .submit ∧ s.selectedSlot = some slot ∧ s.eligibilityReason b context = none ∧
        s'.sent = s.sent ++ [s.reservationBody b slot]) ∨
      ∃ recovery, s.recovery = some recovery ∧ s'.sent = s.sent ++ [recovery.body] := by
  have hreaction := reaction_of_step hs
  cases hreaction with
  | aside ha => exact .inl ha.sent
  | invalidated => exact .inl rfl
  | asked => exact .inl (sent_checkAvailability b context s)
  | answered => exact .inl (sent_availabilityAnswered _ _ _)
  | submitted hfree hslot =>
    obtain ⟨⟨-, hreason, -⟩, -⟩ := of_offered hs
    have hnone : ¬ s.pending.isSome := fun hp => hfree (.inl hp)
    refine .inr (.inl ⟨_, rfl, hslot, hreason, ?_⟩)
    simp [Workflow.sendReservation, hnone]
  | resent hrecovery hnone =>
    refine .inr (.inr ⟨_, hrecovery, ?_⟩)
    simp [Workflow.sendReservation, hnone]
  | succeeded => exact .inl (sent_render b s _)
  | failed error => exact .inl (sent_reservationFailed s _ error)
  | abandoned => exact .inl rfl

theorem eligibilityReason_eq_none (h : s.eligibilityReason b context = none) :
    validateChoices b context s.localDate s.partySize = [] ∧
      validateIdentity b s.customer.identity (some s.customer.phone) = [] := by
  unfold Workflow.eligibilityReason at h
  split at h
  · cases h
  split at h
  · cases h
  split at h
  · cases h
  · next hchoices _ hidentity =>
    exact ⟨List.isEmpty_iff.mp (not_not.mp hchoices), List.isEmpty_iff.mp (not_not.mp hidentity)⟩

theorem number_of_validateChoices (hmax : context.maximumPartySize ≤ 2147483647)
    {date party : Text} (h : validateChoices b context date party = []) :
    ∃ n : ℤ, b.number party = some (n : ℚ) ∧ 1 ≤ n ∧ n ≤ 2147483647 := by
  have hparty : partyError b context party = none := by
    simp only [validateChoices, List.filterMap_eq_nil_iff, List.forall_mem_cons, List.not_mem_nil,
      false_imp_iff, implies_true, and_true, Option.map_eq_none_iff] at h
    exact h.2
  unfold partyError at hparty
  simp only at hparty
  split at hparty
  · cases hparty
  split at hparty
  · cases hparty
  · next q hq =>
    split at hparty
    · cases hparty
    · next hrange =>
      obtain ⟨hwhole, hrange⟩ := not_or.mp hrange
      obtain ⟨hone, hmaximum⟩ := not_or.mp hrange
      have hcast : q = (q.num : ℚ) := (Rat.coe_int_num_of_den_eq_one (not_not.mp hwhole)).symm
      rw [hcast] at hone hmaximum
      have hmaximum : q.num ≤ context.maximumPartySize := by exact_mod_cast not_lt.mp hmaximum
      refine ⟨q.num, hq.trans (congrArg some hcast), by exact_mod_cast not_lt.mp hone, ?_⟩
      omega

/-- A body is built at a submit, from what is entered and a time of an answer that came before. -/
def Submits (b : Browser) (context : ReservationContext) (body : ReservationBody)
    (before : List Event) (s : Workflow) (e : Event) : Prop :=
  e = .submit ∧ s.eligibilityReason b context = none ∧ ∃ n slots shown,
    .availabilityAnswered n (.slots slots) ∈ before ∧ shown ∈ slots ∧ shown.available = true ∧
    body = s.reservationBody b shown

/-- Where everything comes from that the form shows, asks for and sends. -/
structure History (b : Browser) (context : ReservationContext) (events : List Event)
    (s : Workflow) : Prop where
  sound : Sound b s
  typed : Typed (fun body => (form b context).Meets
    (fun t => currentKey b t.customer.identity = some body) events) s
  ready : ∀ slots, s.availability = .ready slots → ∃ n, .availabilityAnswered n (.slots slots) ∈ events
  sent : ∀ body ∈ s.sent, (form b context).Once (Submits b context body) events

theorem History.sent_step (h : History b context events s) (hrun : (form b context).Runs events s)
    (hs : step b context s e = some s') :
    ∀ body ∈ s'.sent, (form b context).Once (Submits b context body) (events ++ [e]) := by
  have hbefore : ∀ body ∈ s.sent, (form b context).Once (Submits b context body) (events ++ [e]) :=
    fun body hbody => (h.sent body hbody).append [e]
  rcases sent_of_step hs with hsame | ⟨slot, rfl, hslot, hreason, hsent⟩ | ⟨recovery, hrec, hsent⟩
  · rw [hsame]
    exact hbefore
  · obtain ⟨slots, hready, hmem, havailable⟩ := selectedSlot_eq_some hslot
    obtain ⟨n, hanswer⟩ := h.ready slots hready
    rw [hsent]
    refine List.forall_mem_append.mpr ⟨hbefore, fun body hbody => ?_⟩
    rw [List.mem_singleton.mp hbody]
    exact Machine.once_append hrun ⟨rfl, hreason, n, slots, slot, hanswer, hmem, havailable, rfl⟩
  · rw [hsent]
    refine List.forall_mem_append.mpr ⟨hbefore, fun body hbody => ?_⟩
    rw [List.mem_singleton.mp hbody]
    exact hbefore _ (List.mem_of_getLast? (h.sound.held.recovery recovery hrec))

theorem History.next (h : History b context events s) (hrun : (form b context).Runs events s)
    (he : e.Genuine zoneInfo strftime) (hs : step b context s e = some s') :
    History b context (events ++ [e]) s' := by
  have hreaction := reaction_of_step hs
  have htyped : Typed (fun body => (form b context).Meets
      (fun t => currentKey b t.customer.identity = some body) (events ++ [e])) s :=
    ⟨h.typed.customer, h.typed.lookups.mono fun _ hmeets => hmeets.append [e]⟩
  refine ⟨h.sound.reaction hreaction, htyped.step he hs fun _ hkey => ?_, fun slots hready => ?_,
    h.sent_step hrun hs⟩
  · exact Machine.meets_of_runs (hrun.next hs) hkey
  · rcases ready_of_reaction hreaction hready with hbefore | ⟨n, rfl⟩
    · obtain ⟨n, hanswer⟩ := h.ready slots hbefore
      exact ⟨n, List.mem_append_left _ hanswer⟩
    · exact ⟨n, List.mem_append_right _ (List.mem_singleton_self _)⟩

theorem history_of_runs (h : (form b context).Runs events s)
    (hevents : ∀ e ∈ events, e.Genuine zoneInfo strftime) : History b context events s := by
  refine h.history_of hevents ?_ fun events s e s' hrun he hs hstep => hs.next hrun he hstep
  refine ⟨sound_of_runs Machine.Runs.start, ⟨unpaired_empty, ?_⟩, nofun, nofun⟩
  show (LookupHook.initial.effect b .empty 0).Asks _
  exact asks_initial.effect (fun _ hkey => ⟨[], [], _, rfl, .start, hkey⟩) 0

/-- An answer of the server has offered the slot as available in the zone. -/
def Offered (zoneInfo : Backend.ZoneInfo) (strftime : ℤ → Text) (before : List Event) (zone : Zone)
    (slot : Backend.AvailabilitySlot) : Prop :=
  ∃ n slots offered, .availabilityAnswered n (.slots slots) ∈ before ∧
    Served zoneInfo strftime zone offered slots ∧ slot ∈ offered ∧ slot.available = true

/-- At a submit the body was built from what was entered there and a slot that the server had
offered, whose local time and offset it carries. -/
structure Entered (b : Browser) (context : ReservationContext) (zoneInfo : Backend.ZoneInfo)
    (strftime : ℤ → Text) (events : List Event) (zone : Zone) (slot : Backend.AvailabilitySlot)
    (body : ReservationBody) : Prop where
  submitted : (form b context).Once (fun before s e => e = .submit ∧
    Offered zoneInfo strftime before zone slot ∧
    body = s.reservationBody b (shownSlot zone slot)) events
  startsAtLocal : body.startsAtLocal = Backend.localText zone slot.startsAt
  offset : Backend.utcoffset zone slot.startsAt = Time.minutes body.utcOffsetMinutes

theorem exists_entered (hmax : context.maximumPartySize ≤ 2147483647)
    (hevents : ∀ e ∈ events, e.Genuine zoneInfo strftime) {body : ReservationBody}
    (h : (form b context).Once (Submits b context body) events) :
    ∃ zone slot, Entered b context zoneInfo strftime events zone slot body ∧
      Built b zone slot body := by
  obtain ⟨before, e, rest, s, rfl, hrun, rfl, hreason, n, slots, shown, hanswer, hmem, havailable,
    rfl⟩ := h
  have hbefore : ∀ e ∈ before, e.Genuine zoneInfo strftime :=
    fun e he => hevents e (List.mem_append_left _ he)
  have hcustomer := (history_of_runs hrun hbefore).typed.customer
  obtain ⟨zone, offered, hserved⟩ := hbefore _ hanswer
  obtain ⟨slot, hslot, hvalid, ⟨m, hoffset, hm⟩, rfl⟩ := hserved.exists_slot hmem
  obtain ⟨hchoices, hidentity⟩ := eligibilityReason_eq_none hreason
  have hminutes : Backend.utcoffset zone slot.startsAt / Time.minutes 1 = m := by
    rw [hoffset]
    simp only [Time.minutes]
    omega
  have hcarried : Backend.utcoffset zone slot.startsAt =
      Time.minutes (s.reservationBody b (shownSlot zone slot)).utcOffsetMinutes := by
    rw [hoffset]
    exact congrArg Time.minutes hminutes.symm
  refine ⟨zone, slot, ⟨?_, rfl, hcarried⟩, ⟨⟨s.customer.identity, s.customer.phone, hidentity,
    hcustomer, rfl, rfl⟩, hvalid, rfl, hcarried, ?_, number_of_validateChoices hmax hchoices⟩⟩
  · exact ⟨before, .submit, rest, s, rfl, hrun, rfl,
      ⟨n, slots, offered, hanswer, hserved, hslot, havailable⟩, rfl⟩
  · show -840 ≤ Backend.utcoffset zone slot.startsAt / Time.minutes 1 ∧
      Backend.utcoffset zone slot.startsAt / Time.minutes 1 ≤ 840
    rw [hminutes]
    exact hm

/-- Whatever the order of events, every body that the form has sent was built at a submit, and asks
the routine for what was entered there and a start that the server had offered as available, or its
initial does not fit. So is every lookup one for an identity that was entered. -/
theorem sent_bodies_understood (py : Interpreter) (codecName : Text → Option Text)
    {maxContentLength : ℕ} (hb : b.AgreesWith py.toUnicode) (hpy : Backend.ReadsIsoformat py)
    (hdepth : 0 < py.maxDepth) (hlimit : 4096 ≤ maxContentLength)
    (hmax : context.maximumPartySize ≤ 2147483647) (h : (form b context).Runs events s)
    (hevents : ∀ e ∈ events, e.Genuine zoneInfo strftime) :
    (∀ body ∈ s.sent, ∃ zone slot payload request,
      Entered b context zoneInfo strftime events zone slot body ∧ body.payload = some payload ∧
      post maxContentLength payload = some request ∧
      Understood py.toUnicode body.identity (Requests py.toUnicode slot body)
        (Backend.reservationsRequest py codecName request)) ∧
    ∀ lookup, s.hook.Underway lookup →
      (form b context).Meets (fun t => lookup.snapshot = identityBody b t.customer.identity) events ∧
      ∃ request, post maxContentLength lookup.snapshot.payload = some request ∧
        Understood py.toUnicode lookup.snapshot
          (fun identity => identity = lookup.snapshot.customer py.toUnicode)
          (Backend.newsletterStatusRequest py codecName request) := by
  have hhistory := history_of_runs h hevents
  constructor
  · intro body hbody
    obtain ⟨zone, slot, hentered, hbuilt⟩ := exists_entered hmax hevents (hhistory.sent body hbody)
    obtain ⟨payload, request, hpayload, hpost, hunderstood⟩ :=
      understood_reservation codecName hb hpy hdepth hlimit hbuilt
    exact ⟨zone, slot, payload, request, hentered, hpayload, hpost, hunderstood⟩
  · intro lookup hl
    refine understood_lookup codecName hb hdepth hlimit ?_ (hhistory.typed.lookups lookup hl)
    rintro before rest t rfl hrun
    have ht := history_of_runs hrun fun e he => hevents e (List.mem_append_left _ he)
    exact ht.typed.customer

/-- Dinner on September 12, 2026, four hours behind UTC. -/
def september : Backend.AvailabilitySlot where
  localStart := Time.minutes (20708 * 1440 + 1020)
  startsAt := Time.minutes (20708 * 1440 + 1260)
  endsAt := Time.minutes (20708 * 1440 + 1380)
  available := true

theorem served_september : Served (fun _ => some (.fixed (-240))) (fun _ => []) (.fixed (-240))
    [september] [shownSlot (.fixed (-240)) september] := by
  refine ⟨.fixed 0, ⟨20708, 4⟩, [[.string (text "America/New_York")]], [september.values], _, _,
    (by decide +kernel : _ = Except.ok (Backend.AvailabilityResult.slots _
      (text "America/New_York") _)), rfl, ?_, rfl, rfl⟩
  intro slot hslot
  obtain rfl := List.mem_singleton.mp hslot
  exact ⟨-240, by decide, by decide, by decide⟩

/-- The visitor enters everything, with an initial, and sends the reservation. -/
def visit (initial : Codepoint) : List Event :=
  [.changeDate (text "2026-09-12"), .changeParty (text "4"), .checkAvailability,
    .availabilityAnswered 3 (.slots [shownSlot (.fixed (-240)) september]),
    .selectSlot (shownSlot (.fixed (-240)) september),
    .updateCustomer (.identity .firstName) (text "Ada"),
    .updateCustomer (.identity .middleInitial) [initial],
    .updateCustomer (.identity .lastName) (text "Rivera"),
    .updateCustomer (.identity .email) (text "ADA@example.com"),
    .updateCustomer (.identity .confirmationEmail) (text "ada@example.com"), .timer, .submit]

theorem genuine_visit {initial : Codepoint} :
    ∀ e ∈ visit initial, e.Genuine (fun _ => some (.fixed (-240))) (fun _ => []) := by
  intro e he
  simp only [visit, List.mem_cons, List.not_mem_nil, or_false] at he
  rcases he with rfl | rfl | rfl | rfl | rfl | rfl | rfl | rfl | rfl | rfl | rfl | rfl
  case inr.inr.inr.inl => exact ⟨_, _, served_september⟩
  case inr.inr.inr.inr.inr.inr.inl => exact List.IsChain.singleton initial
  all_goals first
    | exact trivial
    | exact unpaired_of_ascii (forall_text (fun _ hc => hc) (by decide))

/-- A reservation with the initial `m` is booked as it is. -/
theorem sent_bodies_understood_m : ∃ s body, (form .sharpS autumn).Runs (visit ⟨0x6d, by decide⟩) s ∧
    s.sent = [body] ∧ body.identity.InitialFits .sharpS ∧
    ∃ zone slot payload request,
      Entered .sharpS autumn (fun _ => some (.fixed (-240))) (fun _ => [])
        (visit ⟨0x6d, by decide⟩) zone slot body ∧ body.payload = some payload ∧
      post 4096 payload = some request ∧
      Understood .sharpS body.identity (Requests .sharpS slot body)
        (Backend.reservationsRequest sharpSInterpreter (fun _ => none) request) := by
  obtain ⟨s, hs, hstate⟩ := (Option.any_eq_true _ _).mp (show
      ((form .sharpS autumn).after (visit ⟨0x6d, by decide⟩)).any (fun s => decide
        (s.sent.length = 1 ∧ ∀ body ∈ s.sent, ∀ t ∈ body.identity.middleInitial,
          (Unicode.sharpS.upperText t).length = 1)) = true by decide +kernel)
  obtain ⟨hlength, hfits⟩ := of_decide_eq_true hstate
  obtain ⟨body, hbody⟩ := List.length_eq_one_iff.mp hlength
  have hrun := Machine.runs_iff.mpr hs
  have hmem : body ∈ s.sent := hbody ▸ List.mem_singleton_self body
  exact ⟨s, body, hrun, hbody, hfits body hmem,
    (sent_bodies_understood sharpSInterpreter (fun _ => none) sharpS_agrees (fun _ _ _ h => h)
      (by decide) le_rfl (by decide) hrun genuine_visit).1 body hmem⟩

end Runs

end ReservationWorkflow

namespace NewsletterPreferences

variable {b : Browser} {events : List Event} {s s' : Form} {e : Event} {P : IdentityBody → Prop}
  {Q : PreferenceBody → Prop}

/-- A text that is typed is a string of the browser. -/
def Event.Genuine : Event → Prop
  | .update _ value => Unpaired value
  | _ => True

/-- What the visitor has typed is text, lookups are for such identities, and what has been or can be
sent are such bodies. -/
structure Typed (P : IdentityBody → Prop) (Q : PreferenceBody → Prop) (s : Form) : Prop where
  values : s.values.Unpaired
  lookups : s.hook.Asks P
  saving : ∀ body, s.saving = some body → Q body
  recovery : ∀ recovery, s.recovery = some recovery → Q recovery.body

theorem values_render (old new : Form) : (old.render b new).values = new.values := by
  unfold Form.render
  split <;> rfl

theorem Typed.render {old new : Form} (h : Typed P Q new)
    (hnew : ∀ body, currentKey b (old.render b new).values = some body → P body) :
    Typed P Q (old.render b new) := by
  rw [values_render] at hnew
  unfold Form.render
  split
  · exact ⟨h.values, h.lookups.effect hnew _, h.saving, h.recovery⟩
  · exact h

theorem Typed.sendPreference (h : Typed P Q s) {body : PreferenceBody} (hbody : Q body) :
    Typed P Q (s.sendPreference body) := by
  unfold Form.sendPreference
  split
  · exact h
  · refine ⟨h.values, h.lookups, ?_, h.recovery⟩
    intro saved hsaved
    obtain rfl := Option.some.inj hsaved
    exact hbody

theorem Typed.preferenceFailed (h : Typed P Q s) {body : PreferenceBody} (hbody : Q body)
    (error : Option PublicError) : Typed P Q (s.preferenceFailed body error) := by
  have hunsaved (result : Option PreferenceResult) (unknown offered : Bool) :
      Typed P Q { s with
        saving := none, recovery := if offered then some ⟨body, unknown⟩ else none, result } := by
    refine ⟨h.values, h.lookups, nofun, ?_⟩
    intro recovery hrecovery
    obtain ⟨-, hsome⟩ := Option.ite_none_right_eq_some.mp hrecovery
    obtain rfl := Option.some.inj hsome
    exact hbody
  unfold Form.preferenceFailed
  rcases error with - | error
  · exact hunsaved _ true true
  · simp only
    split
    · exact hunsaved s.result true false
    · exact hunsaved _ _ _

/-- An event may start a lookup for the identity that is entered after it, and a submit sends what
is entered. -/
theorem Typed.step (h : Typed P Q s) (he : e.Genuine) (hs : step b s e = some s')
    (hnew : ∀ body, currentKey b s'.values = some body → P body)
    (hsubmit : e = .submit → validateIdentity b s.values none = [] →
      Q ⟨identityBody b s.values, s.subscribed⟩) : Typed P Q s' := by
  cases e with
  | update field value =>
    obtain ⟨-, hs⟩ := Option.ite_none_left_eq_some.mp hs
    cases Option.some.inj hs
    refine Typed.render ?_ hnew
    exact ⟨h.values.update he field, h.lookups, h.saving, h.recovery⟩
  | toggle =>
    obtain ⟨-, hs⟩ := Option.ite_none_left_eq_some.mp hs
    cases Option.some.inj hs
    exact ⟨h.values, h.lookups, h.saving, h.recovery⟩
  | timer =>
    obtain ⟨hook, hfire, rfl⟩ := Option.map_eq_some_iff.mp hs
    exact ⟨h.values, h.lookups.fewer (fewer_of_fire hfire), h.saving, h.recovery⟩
  | lookupAnswered n result =>
    obtain ⟨⟨lookup, hook⟩, htake, rfl⟩ := Option.map_eq_some_iff.mp hs
    obtain ⟨state, hstate⟩ := answer_eq b hook s.values lookup result
    refine ⟨h.values, ?_, h.saving, h.recovery⟩
    simp only [hstate]
    exact h.lookups.fewer (fewer_of_take htake state)
  | lookupFailed n error =>
    obtain ⟨⟨lookup, hook⟩, htake, rfl⟩ := Option.map_eq_some_iff.mp hs
    obtain ⟨state, hstate⟩ := fail_eq b hook s.values lookup error
    refine ⟨h.values, ?_, h.saving, h.recovery⟩
    simp only [hstate]
    exact h.lookups.fewer (fewer_of_take htake state)
  | retryLookup =>
    obtain ⟨-, hs⟩ := Option.ite_none_left_eq_some.mp hs
    cases Option.some.inj hs
    refine Typed.render ?_ hnew
    exact ⟨h.values, h.lookups, h.saving, h.recovery⟩
  | submit =>
    obtain ⟨-, hs⟩ := Option.ite_none_left_eq_some.mp hs
    split at hs
    · cases Option.some.inj hs
      exact h
    · next heligible =>
      cases Option.some.inj hs
      exact h.sendPreference (hsubmit rfl (List.isEmpty_iff.mp (not_not.mp heligible)))
  | resend =>
    obtain ⟨-, hs⟩ := Option.ite_none_left_eq_some.mp hs
    obtain ⟨recovery, hrecovery, rfl⟩ := Option.map_eq_some_iff.mp hs
    exact h.sendPreference (h.recovery recovery hrecovery)
  | leaveUnresolved =>
    obtain ⟨-, hs⟩ := Option.ite_none_right_eq_some.mp hs
    cases Option.some.inj hs
    exact ⟨h.values, h.lookups, h.saving, nofun⟩
  | saved subscribed =>
    obtain ⟨body, -, rfl⟩ := Option.map_eq_some_iff.mp hs
    exact ⟨h.values, h.lookups, nofun, nofun⟩
  | saveFailed error =>
    obtain ⟨body, hbody, rfl⟩ := Option.map_eq_some_iff.mp hs
    exact h.preferenceFailed (h.saving body hbody) error

/-- The body is what was entered at a submit. -/
def Submits (b : Browser) (body : PreferenceBody) (_ : List Event) (s : Form) (e : Event) : Prop :=
  e = .submit ∧ validateIdentity b s.values none = [] ∧
    body = ⟨identityBody b s.values, s.subscribed⟩

/-- Lookups are for identities that were entered, and bodies are what was entered at a submit. -/
def History (b : Browser) (events : List Event) : Form → Prop :=
  Typed (fun body => (form b).Meets (fun t => currentKey b t.values = some body) events)
    (fun body => (form b).Once (Submits b body) events)

theorem Typed.mono {P' : IdentityBody → Prop} {Q' : PreferenceBody → Prop} (h : Typed P Q s)
    (hP : ∀ body, P body → P' body) (hQ : ∀ body, Q body → Q' body) : Typed P' Q' s :=
  ⟨h.values, h.lookups.mono hP, fun body hbody => hQ body (h.saving body hbody),
    fun recovery hrecovery => hQ _ (h.recovery recovery hrecovery)⟩

theorem history_of_runs (h : (form b).Runs events s) (hevents : ∀ e ∈ events, e.Genuine) :
    History b events s := by
  refine h.history_of hevents ?_ fun events s e s' hrun he hs hstep => ?_
  · refine ⟨unpaired_empty, ?_, nofun, nofun⟩
    show (LookupHook.initial.effect b .empty 0).Asks _
    exact asks_initial.effect (fun _ hkey => ⟨[], [], _, rfl, .start, hkey⟩) 0
  · refine (hs.mono (fun _ hmeets => hmeets.append [e]) fun _ honce => honce.append [e]).step he hstep
      (fun _ hkey => ?_) fun hsubmit hvalid => ?_
    · exact Machine.meets_of_runs (hrun.next hstep) hkey
    · exact Machine.once_append hrun ⟨hsubmit, hvalid, rfl⟩

/-- Whatever the order of events, every save that is pending or can be sent again asks for what was
entered at a submit, and every lookup that waits or has been sent for an identity that was entered,
or its initial does not fit. -/
theorem preferences_understood (py : Interpreter) (codecName : Text → Option Text)
    {maxContentLength : ℕ} (hb : b.AgreesWith py.toUnicode) (hdepth : 0 < py.maxDepth)
    (hlimit : 4096 ≤ maxContentLength) (h : (form b).Runs events s)
    (hevents : ∀ e ∈ events, e.Genuine) :
    (∀ body, s.saving = some body ∨ s.recovery.map PreferenceRecovery.body = some body →
      (form b).Once (fun _ t e => e = .submit ∧ body = ⟨identityBody b t.values, t.subscribed⟩)
        events ∧
      ∃ request, post maxContentLength body.payload = some request ∧
        Understood py.toUnicode body.identity
          (fun command =>
            command = (body.identity.customer py.toUnicode).preferenceCommand body.subscribed)
          (Backend.newsletterPreferencesRequest py codecName request)) ∧
    ∀ lookup, s.hook.Underway lookup →
      (form b).Meets (fun t => lookup.snapshot = identityBody b t.values) events ∧
      ∃ request, post maxContentLength lookup.snapshot.payload = some request ∧
        Understood py.toUnicode lookup.snapshot
          (fun identity => identity = lookup.snapshot.customer py.toUnicode)
          (Backend.newsletterStatusRequest py codecName request) := by
  have hhistory := history_of_runs h hevents
  constructor
  · intro body hbody
    have honce : (form b).Once (Submits b body) events := by
      rcases hbody with hsaving | hrecovery
      · exact hhistory.saving body hsaving
      · obtain ⟨recovery, hsome, rfl⟩ := Option.map_eq_some_iff.mp hrecovery
        exact hhistory.recovery recovery hsome
    obtain ⟨before, e, rest, t, rfl, hrun, rfl, hvalid, rfl⟩ := honce
    have ht := history_of_runs hrun fun e he => hevents e (List.mem_append_left _ he)
    exact ⟨⟨before, .submit, rest, t, rfl, hrun, rfl, rfl⟩,
      understood_preference codecName hb hdepth hlimit hvalid ht.values t.subscribed⟩
  · intro lookup hl
    refine understood_lookup codecName hb hdepth hlimit ?_ (hhistory.lookups lookup hl)
    rintro before rest t rfl hrun
    have ht := history_of_runs hrun fun e he => hevents e (List.mem_append_left _ he)
    exact ht.values

theorem genuine_asked : ∀ e ∈ asked ++ [.toggle, .submit], e.Genuine := by
  intro e he
  simp only [asked, List.cons_append, List.nil_append, List.mem_cons, List.not_mem_nil,
    or_false] at he
  rcases he with rfl | rfl | rfl | rfl | rfl | rfl | rfl
  all_goals first
    | exact trivial
    | exact unpaired_of_ascii (forall_text (fun _ hc => hc) (by decide))

/-- A subscription without an initial is understood, and the lookup before it. -/
theorem preferences_understood_asked : ∃ s body lookup,
    (form .sharpS).Runs (asked ++ [.toggle, .submit]) s ∧ s.saving = some body ∧
    body.subscribed = true ∧ s.hook.Underway lookup ∧
    ((form .sharpS).Once
        (fun _ t e => e = .submit ∧ body = ⟨identityBody .sharpS t.values, t.subscribed⟩)
        (asked ++ [.toggle, .submit]) ∧
      ∃ request, post 4096 body.payload = some request ∧ Understood .sharpS body.identity
        (fun command => command = (body.identity.customer .sharpS).preferenceCommand body.subscribed)
        (Backend.newsletterPreferencesRequest sharpSInterpreter (fun _ => none) request)) ∧
    (form .sharpS).Meets (fun t => lookup.snapshot = identityBody .sharpS t.values)
      (asked ++ [.toggle, .submit]) ∧
    ∃ request, post 4096 lookup.snapshot.payload = some request ∧ Understood .sharpS lookup.snapshot
      (fun identity => identity = lookup.snapshot.customer .sharpS)
      (Backend.newsletterStatusRequest sharpSInterpreter (fun _ => none) request) := by
  obtain ⟨s, hs, hstate⟩ := (Option.any_eq_true _ _).mp (show
      ((form .sharpS).after (asked ++ [.toggle, .submit])).any (fun s =>
        s.saving.any (·.subscribed) && !s.hook.sent.isEmpty) = true by decide +kernel)
  obtain ⟨hsaving, hsent⟩ := Bool.and_eq_true_iff.mp hstate
  obtain ⟨body, hbody, hsubscribed⟩ := (Option.any_eq_true _ _).mp hsaving
  obtain ⟨lookup, hlookup⟩ := List.exists_mem_of_ne_nil s.hook.sent (by simpa using hsent)
  have hrun := Machine.runs_iff.mpr hs
  obtain ⟨hsaves, hlookups⟩ := preferences_understood sharpSInterpreter (fun _ => none)
    sharpS_agrees (by decide) le_rfl hrun genuine_asked
  exact ⟨s, body, lookup, hrun, hbody, hsubscribed, .inr hlookup, hsaves body (.inl hbody),
    hlookups lookup (.inr hlookup)⟩

end NewsletterPreferences

end CafeFausse.Frontend
