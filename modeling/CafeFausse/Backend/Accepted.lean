import CafeFausse.Backend.Validation

/-! # What the validators return

Each validator returns a value or errors, never both. The errors are those of the declared
fields, in their order, and a value is made of what the fields are normalized to.
-/

namespace CafeFausse.Backend

open Python

variable {u : Unicode} {py : Interpreter} {payload : Payload} {field : Field}

section Results

variable {α : Type} {errors : List FieldError} {value : α}

theorem validationResult_errors (h : errors ≠ []) :
    validationResult (none : Option α) errors = .ok ⟨none, errors, by simp [h]⟩ :=
  dif_pos (by simp [h])

theorem validationResult_value : validationResult (some value) [] = .ok ⟨some value, [], rfl⟩ :=
  dif_pos rfl

theorem validationResult_of_value {result : ValidationResult α} (h : result.value = some value) :
    result = ⟨some value, [], rfl⟩ := by
  obtain ⟨v, errors, hone⟩ := result
  cases h
  obtain rfl : errors = [] := by simpa using hone
  rfl

/-- A value that can be computed is one that a result holds. -/
theorem exists_value {x : Except Exception (ValidationResult α)} {p : α → Bool}
    (h : (x.toOption.bind (·.value)).any p = true) :
    ∃ result a, x = .ok result ∧ result.value = some a ∧ p a = true := by
  cases x with
  | error e => cases h
  | ok result =>
    obtain ⟨a, ha, hp⟩ := (Option.any_eq_true _ _).mp h
    exact ⟨result, a, rfl, ha, hp⟩

/-- A list of errors is in declared order if the fields come in the order of the list and each
error names its own field. -/
structure InOrder (fieldOrder : List Field) (errors : List FieldError) : Prop where
  declared : ∀ e ∈ errors, e.field ∈ fieldOrder
  sorted : errors.Pairwise fun e e' => fieldOrder.idxOf e.field ≤ fieldOrder.idxOf e'.field

/-- Every error is filed under its own field. -/
def Errors.Filed (errors : Errors) : Prop := ∀ f, ∀ e ∈ errors f, e.field = f

theorem Errors.Filed.append {errors : Errors} {more : List FieldError} (h : errors.Filed)
    (hmore : ∀ e ∈ more, e.field = field) : (errors.append field more).Filed := by
  intro f e he
  unfold Errors.append at he
  split at he
  · next hf =>
    rcases List.mem_append.mp he with he | he
    · exact h f e he
    · exact (hmore e he).trans hf.symm
  · exact h f e he

theorem inOrder_orderedErrors {errors : Errors} (h : errors.Filed) {fieldOrder : List Field}
    (hnodup : fieldOrder.Nodup) : InOrder fieldOrder (orderedErrors errors fieldOrder) := by
  have hmem : ∀ e ∈ orderedErrors errors fieldOrder, e.field ∈ fieldOrder := by
    intro e he
    obtain ⟨f, hf, hef⟩ := List.mem_flatMap.mp he
    rwa [h f e hef]
  have hsorted : fieldOrder.Pairwise fun f f' => fieldOrder.idxOf f < fieldOrder.idxOf f' := by
    apply List.pairwise_iff_getElem.mpr
    intro i j hi hj hij
    rwa [hnodup.idxOf_getElem i hi, hnodup.idxOf_getElem j hj]
  refine ⟨hmem, List.pairwise_flatMap.mpr ⟨fun f hf => ?_, hsorted.imp fun {f f'} hlt => ?_⟩⟩
  · exact List.pairwise_of_forall_mem_list fun e he e' he' => by rw [h f e he, h f e' he']
  · intro e he e' he'
    rw [h f e he, h f' e' he']
    exact hlt.le

theorem orderedErrors_eq_nil {errors : Errors} {fieldOrder : List Field} :
    orderedErrors errors fieldOrder = [] ↔ ∀ f ∈ fieldOrder, errors f = [] :=
  List.flatMap_eq_nil_iff

theorem append_eq_nil {errors : Errors} {more : List FieldError} {f : Field} :
    errors.append field more f = [] ↔ errors f = [] ∧ (f = field → more = []) := by
  unfold Errors.append
  split
  · next hf => simp [hf]
  · next hf => simp [hf]

end Results

section Identity

/-- The identity is read from its own fields alone. -/
theorem validateNewsletterStatusIdentity_congr {other : Payload}
    (h : ∀ f ∈ identityFieldOrder, payload.get f.name = other.get f.name) :
    validateNewsletterStatusIdentity u payload = validateNewsletterStatusIdentity u other := by
  have hfield : ∀ f ∈ identityFieldOrder, identityField u payload f = identityField u other f := by
    intro f hf
    unfold identityField
    rw [h f hf]
  have hnormalized : ∀ f ∈ identityFieldOrder,
      normalizedField u payload f = normalizedField u other f := by
    intro f hf
    unfold normalizedField
    rw [hfield f hf]
  have htext : ∀ f ∈ identityFieldOrder,
      normalizedText u payload f = normalizedText u other f := by
    intro f hf
    unfold normalizedText
    rw [hnormalized f hf]
  have herrors : ∀ f ∈ identityFieldOrder,
      identityErrors u payload f = identityErrors u other f := by
    intro f hf
    unfold identityErrors
    simp only [hnormalized .email (by decide), hnormalized .confirmationEmail (by decide)]
    rcases normalizedField u other .email with - | email
    · simp only [hfield f hf]
    rcases normalizedField u other .confirmationEmail with - | confirmationEmail
    · simp only [hfield f hf]
    by_cases heq : email = confirmationEmail
    · simp only [heq, ne_eq, not_true, if_false, hfield f hf]
    · simp only [heq, ne_eq, not_false_iff, if_true, Errors.append, hfield f hf]
  have hordered : orderedErrors (identityErrors u payload) identityFieldOrder =
      orderedErrors (identityErrors u other) identityFieldOrder :=
    List.flatMap_congr herrors
  unfold validateNewsletterStatusIdentity
  simp only [hordered, htext .firstName (by decide), htext .lastName (by decide),
    htext .email (by decide), hnormalized .middleInitial (by decide)]

/-- A field that has to be there ends in an error or in a string. -/
theorem identityField_required (u : Unicode) (payload : Payload) (hf : field ≠ .middleInitial) :
    (∃ e, identityField u payload field = some (.error e)) ∨
      ∃ t, identityField u payload field = some (.ok (some t)) := by
  have hmap (x : Except FieldError Text) :
      (∃ e, some (x.map some) = some (.error e)) ∨ ∃ t, some (x.map some) = some (.ok (some t)) := by
    cases x with
    | error e => exact .inl ⟨e, rfl⟩
    | ok t => exact .inr ⟨t, rfl⟩
  unfold identityField
  split
  · rw [if_neg hf]
    exact .inl ⟨_, rfl⟩
  · exact .inl ⟨_, rfl⟩
  · by_cases hname : field = .firstName ∨ field = .lastName
    · rw [if_pos hname]
      exact hmap _
    · rw [if_neg hname, if_neg hf]
      exact hmap _

theorem identityErrors_eq_nil : identityErrors u payload field = [] ↔
    (∀ e, identityField u payload field ≠ some (.error e)) ∧
      (field = .confirmationEmail → ∀ email confirmationEmail,
        normalizedField u payload .email = some email →
        normalizedField u payload .confirmationEmail = some confirmationEmail →
        email = confirmationEmail) := by
  unfold identityErrors
  rcases normalizedField u payload .email with - | email
  · simp only
    rcases identityField u payload field with - | (e | r) <;> simp
  rcases normalizedField u payload .confirmationEmail with - | confirmationEmail
  · simp only
    rcases identityField u payload field with - | (e | r) <;> simp
  by_cases heq : email = confirmationEmail
  · simp only [ne_eq, heq, not_true, if_false]
    rcases identityField u payload field with - | (e | r) <;> simp
  · simp only [ne_eq, heq, not_false_iff, if_true, append_eq_nil]
    rcases identityField u payload field with - | (e | r) <;> simp [heq]

/-- The identity that the fields of a payload make. -/
structure Identifies (u : Unicode) (payload : Payload) (identity : CustomerIdentity) : Prop where
  firstName : identityField u payload .firstName = some (.ok (some identity.firstName))
  middleInitial : identityField u payload .middleInitial = none ∧ identity.middleInitial = none ∨
    identityField u payload .middleInitial = some (.ok identity.middleInitial)
  lastName : identityField u payload .lastName = some (.ok (some identity.lastName))
  email : identityField u payload .email = some (.ok (some identity.email))
  confirmationEmail : identityField u payload .confirmationEmail =
    some (.ok (some identity.email))

theorem normalizedField_of_ok {value : Option Text}
    (h : identityField u payload field = some (.ok value)) :
    normalizedField u payload field = some value := by
  unfold normalizedField
  rw [h]

theorem identifies_of_errors (h : ∀ f ∈ identityFieldOrder, identityErrors u payload f = []) :
    Identifies u payload ⟨normalizedText u payload .firstName,
      (normalizedField u payload .middleInitial).getD none, normalizedText u payload .lastName,
      normalizedText u payload .email⟩ := by
  have hrequired : ∀ f ∈ identityFieldOrder, f ≠ .middleInitial →
      identityField u payload f = some (.ok (some (normalizedText u payload f))) := by
    intro f hf hne
    rcases identityField_required u payload hne with ⟨e, he⟩ | ⟨t, ht⟩
    · exact absurd he ((identityErrors_eq_nil.mp (h f hf)).1 e)
    · rw [ht, normalizedText, normalizedField_of_ok ht]
      rfl
  have hmiddle := (identityErrors_eq_nil.mp (h .middleInitial (by decide))).1
  have hemail := hrequired .email (by decide) (by decide)
  have hconfirmation := hrequired .confirmationEmail (by decide) (by decide)
  have hsame := (identityErrors_eq_nil.mp (h .confirmationEmail (by decide))).2 rfl _ _
    (normalizedField_of_ok hemail) (normalizedField_of_ok hconfirmation)
  constructor
  · exact hrequired .firstName (by decide) (by decide)
  · unfold normalizedField
    rcases hfield : identityField u payload .middleInitial with - | (e | value)
    · exact .inl ⟨rfl, rfl⟩
    · exact absurd hfield (hmiddle e)
    · exact .inr rfl
  · exact hrequired .lastName (by decide) (by decide)
  · exact hemail
  · rw [hconfirmation, hsame]

/-- A payload is accepted exactly for the identity that its fields make. -/
theorem validateNewsletterStatusIdentity_eq_ok {identity : CustomerIdentity} :
    validateNewsletterStatusIdentity u payload = .ok ⟨some identity, [], rfl⟩ ↔
      Identifies u payload identity := by
  unfold validateNewsletterStatusIdentity
  simp only
  constructor
  · intro h
    by_cases hordered : orderedErrors (identityErrors u payload) identityFieldOrder = []
    · rw [if_neg (not_not.mpr hordered), validationResult_value] at h
      cases h
      exact identifies_of_errors (orderedErrors_eq_nil.mp hordered)
    · rw [if_pos hordered, validationResult_errors hordered] at h
      cases h
  · intro h
    have hfirst := normalizedField_of_ok h.firstName
    have hlast := normalizedField_of_ok h.lastName
    have hemail := normalizedField_of_ok h.email
    have hconfirmation := normalizedField_of_ok h.confirmationEmail
    have hmiddle : (normalizedField u payload .middleInitial).getD none =
        identity.middleInitial := by
      rcases h.middleInitial with ⟨hfield, hnone⟩ | hfield
      · unfold normalizedField
        rw [hfield, hnone]
        rfl
      · rw [normalizedField_of_ok hfield]
        rfl
    rw [if_neg, validationResult_value]
    · simp only [normalizedText, hfirst, hlast, hemail, hmiddle, Option.getD_some]
    · rw [not_not, orderedErrors_eq_nil]
      intro f hf
      rw [identityErrors_eq_nil]
      constructor
      · intro e he
        cases f with
        | firstName => exact absurd (h.firstName.symm.trans he) (by simp)
        | middleInitial =>
          rcases h.middleInitial with ⟨hnone, -⟩ | hok
          · exact absurd (hnone.symm.trans he) (by simp)
          · exact absurd (hok.symm.trans he) (by simp)
        | lastName => exact absurd (h.lastName.symm.trans he) (by simp)
        | email => exact absurd (h.email.symm.trans he) (by simp)
        | confirmationEmail => exact absurd (h.confirmationEmail.symm.trans he) (by simp)
        | _ => exact absurd hf (by decide)
      · rintro - email confirmationEmail hemail' hconfirmation'
        rw [hemail] at hemail'
        rw [hconfirmation] at hconfirmation'
        exact Option.some_inj.mp (hemail'.symm.trans hconfirmation')

/-- A command for a preference comes from an identity and a Boolean. -/
theorem identifies_of_validateNewsletterPreference {command : NewsletterPreferenceCommand}
    (h : validateNewsletterPreference u payload = .ok ⟨some command, [], rfl⟩) :
    ∃ identity subscribed, Identifies u payload identity ∧
      command = identity.preferenceCommand subscribed := by
  unfold validateNewsletterPreference at h
  obtain ⟨identityValidation, hidentity, h⟩ := bind_eq_ok.mp h
  extract_lets errors at h
  split at h
  · next herrors =>
    rw [validationResult_errors herrors] at h
    cases h
  · split at h
    · cases h
    · next identity subscribed hvalue _ =>
      rw [validationResult_value] at h
      cases h
      refine ⟨identity, subscribed, ?_, rfl⟩
      rw [← validateNewsletterStatusIdentity_eq_ok, hidentity,
        ← validationResult_of_value hvalue]
    · cases h

end Identity

section Reservation

theorem integerField_eq_nil {value : Option ℤ} {range : ℤ → List FieldError}
    (h : integerField payload field value range = []) : ∃ n, value = some n ∧ range n = [] := by
  unfold integerField at h
  split at h
  · cases h
  · cases h
  · cases h
  · next n _ _ => exact ⟨n, rfl, h⟩

theorem utcOffsetRange_eq_nil {offset : Option ℤ} {n : ℤ} :
    utcOffsetRange offset n = [] ↔ (-840 ≤ n ∧ n ≤ 840) ∧ ∀ o ∈ offset, n = o := by
  unfold utcOffsetRange
  by_cases hrange : -840 ≤ n ∧ n ≤ 840
  · rw [if_neg (not_not.mpr hrange)]
    cases offset with
    | none => simp [hrange]
    | some o =>
      by_cases h : n = o
      · simpa [h] using h ▸ hrange
      · simp [h]
  · rw [if_pos hrange]
    simp [hrange]

theorem partySizeRange_eq_nil {n : ℤ} : partySizeRange n = [] ↔ 1 ≤ n ∧ n ≤ 2147483647 := by
  unfold partySizeRange
  by_cases h : 1 ≤ n ∧ n ≤ 2147483647 <;> simp [h]

/-- The fields of a payload from which the command of a reservation is made. -/
structure Accepts (py : Interpreter) (payload : Payload) (command : ReservationCommand) : Prop where
  identity : ∃ identity, validateNewsletterStatusIdentity py.toUnicode payload =
      .ok ⟨some identity, [], rfl⟩ ∧ command.firstName = identity.firstName ∧
    command.middleInitial = identity.middleInitial ∧ command.lastName = identity.lastName ∧
    command.email = identity.email
  phone : phoneField py payload = ([], command.phone)
  start : ∃ offset, startField py payload = ([], some command.localStart, offset) ∧
    ∀ o ∈ offset, command.utcOffsetMinutes = o
  utcOffset : exactInteger py (payload.get Field.utcOffsetMinutes.name) =
    .ok (some command.utcOffsetMinutes)
  partySize : exactInteger py (payload.get Field.partySize.name) = .ok (some command.partySize)
  action : ∃ t, payload.get Field.newsletterAction.name = some (.string t) ∧
    newsletterAction t = command.newsletterAction

theorem reservationCommand_ok {identity : CustomerIdentity} {phone : Option Text}
    {localStart utcOffset partySize : ℤ} {action : NewsletterAction} {command : ReservationCommand}
    (h : reservationCommand identity phone localStart utcOffset partySize action = .ok command) :
    (command.firstName = identity.firstName ∧ command.middleInitial = identity.middleInitial ∧
      command.lastName = identity.lastName ∧ command.email = identity.email) ∧
      command.phone = phone ∧ command.localStart = localStart ∧
      command.utcOffsetMinutes = utcOffset ∧ command.partySize = partySize ∧
      command.newsletterAction = action := by
  unfold reservationCommand at h
  split at h
  · cases h
    exact ⟨⟨rfl, rfl, rfl, rfl⟩, rfl, rfl, rfl, rfl, rfl⟩
  · cases h

/-- A command comes from fields without errors. -/
theorem accepts_of_validateReservation {result : ValidationResult ReservationCommand}
    {command : ReservationCommand} (h : validateReservation py payload = .ok result)
    (hvalue : result.value = some command) : Accepts py payload command := by
  unfold validateReservation at h
  obtain ⟨identityValidation, hidentity, h⟩ := bind_eq_ok.mp h
  obtain ⟨utcOffset, hutc, h⟩ := bind_eq_ok.mp h
  obtain ⟨partySize, hparty, h⟩ := bind_eq_ok.mp h
  simp only at h
  split at h
  · next hfailures =>
    rw [validationResult_errors hfailures] at h
    cases h
    cases hvalue
  · next hfailures =>
    have herrors := orderedErrors_eq_nil.mp (not_not.mp hfailures)
    simp only [append_eq_nil] at herrors
    have hphone := (herrors .phone (by decide)).1.1.1.1.2 rfl
    have hstartErrors := (herrors .startsAtLocal (by decide)).1.1.1.2 rfl
    have hutcErrors := (herrors .utcOffsetMinutes (by decide)).1.1.2 rfl
    have hpartyErrors := (herrors .partySize (by decide)).1.2 rfl
    split at h
    · next identity localStart utcOffset partySize action hvalue' hlocal haction _ =>
      obtain ⟨command', hcommand, h⟩ := bind_eq_ok.mp h
      rw [validationResult_value] at h
      cases h
      cases hvalue
      obtain ⟨hnames, hphone', hlocal', hutc', hparty', hnewsletter⟩ :=
        reservationCommand_ok hcommand
      obtain ⟨n, hn, hrange⟩ := integerField_eq_nil hutcErrors
      cases hn
      refine ⟨⟨identity, ?_, hnames⟩, ?_, ⟨(startField py payload).2.2, ?_, ?_⟩, ?_, ?_, ?_⟩
      · rw [hidentity, ← validationResult_of_value hvalue']
      · rw [hphone', ← hphone]
      · rw [hlocal', ← hlocal, ← hstartErrors]
      · rw [hutc']
        exact (utcOffsetRange_eq_nil.mp hrange).2
      · rw [hutc, hutc']
      · rw [hparty, hparty']
      · exact ⟨action, haction, hnewsletter.symm⟩
    · cases h

theorem integerField_of_exactInteger {n : ℤ} {range : ℤ → List FieldError}
    (h : exactInteger py (payload.get field.name) = .ok (some n)) (hrange : range n = []) :
    integerField payload field (some n) range = [] := by
  unfold integerField
  cases hget : payload.get field.name with
  | none =>
    rw [hget] at h
    cases h
  | some value =>
    rw [hget] at h
    cases value with
    | null => cases h
    | _ => exact hrange

theorem reservationCommand_self (identity : CustomerIdentity) (command : ReservationCommand)
    (h : command.firstName = identity.firstName ∧ command.middleInitial = identity.middleInitial ∧
      command.lastName = identity.lastName ∧ command.email = identity.email) :
    reservationCommand identity command.phone command.localStart command.utcOffsetMinutes
      command.partySize command.newsletterAction = .ok command := by
  obtain ⟨firstName, middleInitial, lastName, email⟩ := identity
  obtain ⟨rfl, rfl, rfl, rfl⟩ := h
  exact dif_pos ⟨command.localStart_ck, command.utcOffsetMinutes_ck, command.partySize_ck,
    command.newsletterAction_ck⟩

theorem validateReservation_of_accepts {command : ReservationCommand}
    (h : Accepts py payload command) :
    validateReservation py payload = .ok ⟨some command, [], rfl⟩ := by
  obtain ⟨⟨identity, hidentity, hnames⟩, hphone, ⟨offset, hstart, hoffset⟩, hutc, hparty,
    t, hget, haction⟩ := h
  have haction' : actionErrors payload = [] := by
    unfold actionErrors
    rw [hget]
    exact if_neg (haction ▸ command.newsletterAction_ck)
  have hutc' := integerField_of_exactInteger hutc
    (utcOffsetRange_eq_nil.mpr ⟨command.utcOffsetMinutes_ck, hoffset⟩)
  have hparty' := integerField_of_exactInteger hparty
    (partySizeRange_eq_nil.mpr command.partySize_ck)
  unfold validateReservation
  rw [hidentity, bind_ok, hutc, bind_ok, hparty, bind_ok]
  simp only [hphone, hstart, hutc', hparty', haction', hget, haction]
  rw [if_neg, reservationCommand_self identity command hnames, bind_ok, validationResult_value]
  rw [not_not, orderedErrors_eq_nil]
  intro f _
  simp only [append_eq_nil, List.filter_nil, implies_true, and_self]

/-- A payload is accepted exactly for the command that its fields make. -/
theorem validateReservation_eq_ok {command : ReservationCommand} :
    validateReservation py payload = .ok ⟨some command, [], rfl⟩ ↔ Accepts py payload command :=
  ⟨fun h => accepts_of_validateReservation h rfl, validateReservation_of_accepts⟩

/-- A payload with a command is accepted. -/
theorem exists_command (h : ((validateReservation py payload).toOption.bind (·.value)).isSome) :
    ∃ command, validateReservation py payload = .ok ⟨some command, [], rfl⟩ := by
  obtain ⟨command, hcommand⟩ := Option.isSome_iff_exists.mp h
  have hany : ((validateReservation py payload).toOption.bind (·.value)).any (fun _ => true) =
      true := (Option.any_eq_true _ _).mpr ⟨command, hcommand, rfl⟩
  obtain ⟨result, command, hresult, hvalue, -⟩ := exists_value hany
  exact ⟨command, hresult.trans (congrArg Except.ok (validationResult_of_value hvalue))⟩

end Reservation

end CafeFausse.Backend
