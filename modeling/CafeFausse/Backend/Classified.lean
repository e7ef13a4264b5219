import CafeFausse.Backend.Accepted
import CafeFausse.Backend.Requests
import CafeFausse.Python.JsonNumbers

/-! # What requests end in

A request is refused with one of four codes, or its fields have errors in their declared order,
or it makes a command. The one thing that can go wrong besides is the conversion of a number.
-/

namespace CafeFausse.Backend

open Python

variable {u : Unicode} {py : Interpreter} {payload : Payload} {codecName : Text → Option Text}
  {request : Request}

section Ordered

variable {field : Field} {e : FieldError} {fieldOrder : List Field} {errors more : List FieldError}

/-- The errors of one more field come last. -/
theorem InOrder.append (h : InOrder fieldOrder errors) (hmore : ∀ e ∈ more, e.field = field)
    (hfield : field ∉ fieldOrder) : InOrder (fieldOrder ++ [field]) (errors ++ more) := by
  constructor
  · intro e he
    rcases List.mem_append.mp he with he | he
    · exact List.mem_append_left _ (h.declared e he)
    · rw [hmore e he]
      exact List.mem_append_right _ List.mem_cons_self
  · have hindex {e : FieldError} (he : e ∈ errors) :
        (fieldOrder ++ [field]).idxOf e.field = fieldOrder.idxOf e.field :=
      List.idxOf_append_of_mem (h.declared e he)
    apply List.pairwise_append.mpr
    refine ⟨?_, ?_, ?_⟩
    · refine h.sorted.imp_of_mem ?_
      intro e e' he he' hle
      rwa [hindex he, hindex he']
    · exact List.pairwise_of_forall_mem_list fun e he e' he' => by rw [hmore e he, hmore e' he']
    · intro e he e' he'
      rw [hindex he, hmore e' he', List.idxOf_append_of_notMem hfield]
      exact (List.idxOf_le_length).trans (Nat.le_add_right _ _)

theorem field_of_normalizeName {value : Json} (h : normalizeName u field value = .error e) :
    e.field = field := by
  unfold normalizeName at h
  split at h
  · extract_lets normalized at h
    split at h
    · cases h
      rfl
    split at h
    · cases h
      rfl
    split at h
    · cases h
      rfl
    · cases h
  · cases h
    rfl

theorem field_of_normalizeMiddle {value : Json} (h : normalizeMiddle u value = .error e) :
    e.field = .middleInitial := by
  unfold normalizeMiddle at h
  split at h
  · extract_lets invalid normalized at h
    split at h
    · cases h
    split at h
    · exact congrArg FieldError.field (Except.error.inj h).symm
    split at h
    · exact congrArg FieldError.field (Except.error.inj h).symm
    · cases h
  · cases h
    rfl

theorem field_of_normalizeEmail {value : Json} (h : normalizeEmail u field value = .error e) :
    e.field = field := by
  unfold normalizeEmail at h
  split at h
  · extract_lets normalized at h
    split at h
    · cases h
      rfl
    split at h
    · cases h
      rfl
    split at h
    · split at h
      · cases h
      · cases h
        rfl
    · cases h
      rfl
  · cases h
    rfl

theorem field_of_normalizePhone {value : Json} (h : normalizePhone u value = .error e) :
    e.field = .phone := by
  unfold normalizePhone at h
  split at h
  · extract_lets display digits at h
    split at h
    · cases h
      rfl
    split at h
    · cases h
      rfl
    split at h
    · cases h
      rfl
    · cases h
  · cases h
    rfl

theorem map_some_eq_error {x : Except FieldError Text} (h : x.map some = .error e) :
    x = .error e := by
  cases x with
  | error e' =>
    cases h
    rfl
  | ok t => cases h

theorem field_of_identityField (h : identityField u payload field = some (.error e)) :
    e.field = field := by
  unfold identityField at h
  split at h
  · split at h
    · cases h
    · cases h
      rfl
  · cases h
    rfl
  · have h := Option.some.inj h
    split at h
    · exact field_of_normalizeName (map_some_eq_error h)
    split at h
    · next hmiddle => exact (field_of_normalizeMiddle h).trans hmiddle.symm
    · exact field_of_normalizeEmail (map_some_eq_error h)

theorem filed_identityErrors (u : Unicode) (payload : Payload) :
    (identityErrors u payload).Filed := by
  unfold identityErrors
  extract_lets errors
  have hbase : errors.Filed := by
    intro f e he
    simp only [errors] at he
    split at he
    · next hfield =>
      rw [List.mem_singleton.mp he]
      exact field_of_identityField hfield
    · cases he
  split
  · split
    · exact hbase.append (by simp)
    · exact hbase
  · exact hbase

end Ordered

section Validators

theorem validateNewsletterStatusIdentity_inOrder (u : Unicode) (payload : Payload) :
    ∃ result, validateNewsletterStatusIdentity u payload = .ok result ∧
      InOrder identityFieldOrder result.errors := by
  unfold validateNewsletterStatusIdentity
  simp only
  split
  · next hordered =>
    rw [validationResult_errors hordered]
    exact ⟨_, rfl, inOrder_orderedErrors (filed_identityErrors u payload) (by decide)⟩
  · rw [validationResult_value]
    exact ⟨_, rfl, ⟨by simp, List.Pairwise.nil⟩⟩

theorem exists_value_of_errors {α : Type} {result : ValidationResult α} (h : result.errors = []) :
    ∃ value, result.value = some value := by
  have hone := result.exactly_one
  rw [h] at hone
  cases hvalue : result.value with
  | none =>
    rw [hvalue] at hone
    cases hone
  | some value => exact ⟨value, rfl⟩

theorem validateNewsletterPreference_inOrder (u : Unicode) (payload : Payload) :
    ∃ result, validateNewsletterPreference u payload = .ok result ∧
      InOrder preferenceFieldOrder result.errors := by
  obtain ⟨identity, hidentity, horder⟩ := validateNewsletterStatusIdentity_inOrder u payload
  unfold validateNewsletterPreference
  rw [hidentity, bind_ok]
  extract_lets errors
  have herrors : InOrder preferenceFieldOrder errors := by
    refine horder.append ?_ (by decide)
    intro e he
    split at he
    · rw [List.mem_singleton.mp he]
      rfl
    · rw [List.mem_singleton.mp he]
      rfl
    · cases he
    · rw [List.mem_singleton.mp he]
  split
  · next hne =>
    rw [validationResult_errors hne]
    exact ⟨_, rfl, herrors⟩
  · next hnil =>
    obtain ⟨hidentityErrors, hsubscribed⟩ := List.append_eq_nil_iff.mp (not_not.mp hnil)
    obtain ⟨value, hvalue⟩ := exists_value_of_errors hidentityErrors
    rw [hvalue]
    split at hsubscribed
    · cases hsubscribed
    · cases hsubscribed
    · next subscribed hget =>
      rw [hget]
      simp only
      rw [validationResult_value]
      exact ⟨_, rfl, ⟨by simp, List.Pairwise.nil⟩⟩
    · cases hsubscribed

variable {e : FieldError}

theorem field_of_phoneField (he : e ∈ (phoneField py payload).1) : e.field = .phone := by
  unfold phoneField at he
  split at he
  · cases he
  · rw [List.mem_singleton.mp he]
    rfl
  · split at he
    · next herror =>
      rw [List.mem_singleton.mp he]
      exact field_of_normalizePhone herror
    · cases he

theorem field_of_startField (he : e ∈ (startField py payload).1) : e.field = .startsAtLocal := by
  unfold startField at he
  extract_lets invalid at he
  split at he
  · rw [List.mem_singleton.mp he]
    rfl
  · rw [List.mem_singleton.mp he]
    rfl
  · split at he
    · rw [List.mem_singleton.mp he]
    split at he
    · rw [List.mem_singleton.mp he]
    split at he
    · rw [List.mem_singleton.mp he]
    split at he
    · rw [List.mem_singleton.mp he]
    · cases he
  · rw [List.mem_singleton.mp he]
    rfl

theorem field_of_integerField {field : Field} {value : Option ℤ} {range : ℤ → List FieldError}
    (hrange : ∀ n, ∀ e ∈ range n, e.field = field)
    (he : e ∈ integerField payload field value range) : e.field = field := by
  unfold integerField at he
  split at he
  · rw [List.mem_singleton.mp he]
    rfl
  · rw [List.mem_singleton.mp he]
    rfl
  · rw [List.mem_singleton.mp he]
  · exact hrange _ e he

theorem field_of_utcOffsetRange {offset : Option ℤ} {n : ℤ} (he : e ∈ utcOffsetRange offset n) :
    e.field = .utcOffsetMinutes := by
  unfold utcOffsetRange at he
  split at he
  · rw [List.mem_singleton.mp he]
  split at he
  · rw [List.mem_singleton.mp he]
  · cases he

theorem field_of_partySizeRange {n : ℤ} (he : e ∈ partySizeRange n) : e.field = .partySize := by
  unfold partySizeRange at he
  split at he
  · rw [List.mem_singleton.mp he]
  · cases he

theorem field_of_actionErrors (he : e ∈ actionErrors payload) : e.field = .newsletterAction := by
  unfold actionErrors at he
  split at he
  · rw [List.mem_singleton.mp he]
    rfl
  · rw [List.mem_singleton.mp he]
    rfl
  · split at he
    · rw [List.mem_singleton.mp he]
    · cases he
  · rw [List.mem_singleton.mp he]
    rfl

/-- A start without errors is a time to the second. -/
theorem startField_eq_nil (h : (startField py payload).1 = []) :
    ∃ localStart offset, startField py payload = ([], some localStart, offset) ∧
      localStart % Time.second = 0 := by
  revert h
  unfold startField
  extract_lets invalid
  split
  · exact fun h => absurd h (List.cons_ne_nil _ _)
  · exact fun h => absurd h (List.cons_ne_nil _ _)
  · split
    · exact fun h => absurd h (List.cons_ne_nil _ _)
    split
    · exact fun h => absurd h (List.cons_ne_nil _ _)
    · next localStart offset hread =>
      split
      · exact fun h => absurd h (List.cons_ne_nil _ _)
      split
      · exact fun h => absurd h (List.cons_ne_nil _ _)
      · exact fun _ => ⟨localStart, _, rfl, py.datetimeFromIsoformat_second _ _ _ hread⟩
  · exact fun h => absurd h (List.cons_ne_nil _ _)

theorem actionErrors_eq_nil (h : actionErrors payload = []) :
    ∃ t, payload.get Field.newsletterAction.name = some (.string t) ∧
      newsletterAction t ≠ .unrecognized := by
  unfold actionErrors at h
  split at h
  · cases h
  · cases h
  · next t hget =>
    split at h
    · cases h
    · next hrecognized => exact ⟨t, hget, hrecognized⟩
  · cases h

theorem validateReservation_inOrder {utcOffset partySize : Option ℤ}
    (hutc : exactInteger py (payload.get Field.utcOffsetMinutes.name) = .ok utcOffset)
    (hparty : exactInteger py (payload.get Field.partySize.name) = .ok partySize) :
    ∃ result, validateReservation py payload = .ok result ∧
      InOrder bookingFieldOrder result.errors := by
  obtain ⟨identity, hidentity, horder⟩ :=
    validateNewsletterStatusIdentity_inOrder py.toUnicode payload
  unfold validateReservation
  rw [hidentity, bind_ok, hutc, bind_ok, hparty, bind_ok]
  extract_lets errors₁ errors₂ errors₃ errors₄ errors₅ errors₆ failures
  have hfiled₁ : errors₁.Filed := by
    intro f e he
    exact of_decide_eq_true (List.mem_filter.mp he).2
  have hfiled : errors₆.Filed := by
    apply Errors.Filed.append
    · apply Errors.Filed.append
      · apply Errors.Filed.append
        · apply Errors.Filed.append
          · apply Errors.Filed.append hfiled₁
            exact fun e he => field_of_phoneField he
          · exact fun e he => field_of_startField he
        · exact fun e he => field_of_integerField (fun n e he => field_of_utcOffsetRange he) he
      · exact fun e he => field_of_integerField (fun n e he => field_of_partySizeRange he) he
    · exact fun e he => field_of_actionErrors he
  split
  · next hne =>
    rw [validationResult_errors hne]
    exact ⟨_, rfl, inOrder_orderedErrors hfiled (by decide)⟩
  · next hnil =>
    have herrors := orderedErrors_eq_nil.mp (not_not.mp hnil)
    simp only [errors₆, errors₅, errors₄, errors₃, errors₂, append_eq_nil] at herrors
    have hidentityErrors : identity.errors = [] := by
      rw [List.eq_nil_iff_forall_not_mem]
      intro e he
      have hfield : e.field ∈ bookingFieldOrder := by
        have hin : ∀ f ∈ identityFieldOrder, f ∈ bookingFieldOrder := by decide
        exact hin e.field (horder.declared e he)
      have hnone := (herrors e.field hfield).1.1.1.1.1
      have hmem : e ∈ errors₁ e.field := List.mem_filter.mpr ⟨he, decide_eq_true rfl⟩
      rw [hnone] at hmem
      cases hmem
    obtain ⟨value, hvalue⟩ := exists_value_of_errors hidentityErrors
    obtain ⟨localStart, offset, hstart, hsecond⟩ :=
      startField_eq_nil ((herrors .startsAtLocal (by decide)).1.1.1.2 rfl)
    obtain ⟨n, rfl, hrange⟩ :=
      integerField_eq_nil ((herrors .utcOffsetMinutes (by decide)).1.1.2 rfl)
    obtain ⟨size, rfl, hsize⟩ := integerField_eq_nil ((herrors .partySize (by decide)).1.2 rfl)
    obtain ⟨action, haction, hrecognized⟩ :=
      actionErrors_eq_nil ((herrors .newsletterAction (by decide)).2 rfl)
    simp only [hvalue, hstart, haction]
    rw [reservationCommand, dif_pos ⟨hsecond, (utcOffsetRange_eq_nil.mp hrange).1,
      partySizeRange_eq_nil.mp hsize, hrecognized⟩, bind_ok, validationResult_value]
    exact ⟨_, rfl, ⟨by simp, List.Pairwise.nil⟩⟩

end Validators

section Numbers

/-- The hooks of a request without limits on numbers. -/
def unlimitedHooks : Hooks HookError where
  objectPairsHook := objectWithoutDuplicates
  parseInt literal := .ok (.integer (intValue literal))
  parseFloat literal := .ok (.decimal (decimalValue literal))
  parseConstant := .error .invalidJson

/-- A number that the interpreter converts. -/
def Convertible (py : Interpreter) (literal : Literal) : Prop :=
  if literal.isInteger then literal.whole.length ≤ 4300 else py.decimalFits literal.text = true

instance (py : Interpreter) (literal : Literal) : Decidable (Convertible py literal) :=
  inferInstanceAs (Decidable
    (if literal.isInteger then literal.whole.length ≤ 4300 else py.decimalFits literal.text = true))

/-- The numbers in the body of a request that are read, up to the first place where it is no
JSON. -/
def Request.literals (py : Interpreter) (codecName : Text → Option Text) (request : Request) :
    List Literal :=
  match request.refusal codecName, Format.Utf8.decode request.body with
  | none, some t => Reader.literals unlimitedHooks py.maxDepth (.value []) (scan t)
  | _, _ => []

/-- Whole numbers with a point or an exponent can be converted where `int` is called on them. -/
def FieldsFit (py : Interpreter) (payload : Payload) : Prop :=
  ∀ f : Field, f = .utcOffsetMinutes ∨ f = .partySize → ∀ d,
    payload.get f.name = some (.decimal d) → d.isIntegral = true → py.intFits d = true

/-- The exceptions that are answered before the fields are looked at. -/
def protocolErrors : List Exception :=
  [invalidJson, invalidRequest, requestBodyRequired, unsupportedMediaType, .requestEntityTooLarge]

/-- What the conversion of a number raises. -/
def conversionErrors : List Exception := [.valueError, .invalidOperation, .conversionFailed]

theorem similar_unlimited (py : Interpreter) :
    Reader.Similar (requestHooks py) unlimitedHooks := ⟨rfl, rfl⟩

theorem convert_of_convertible {literal : Literal} (h : Convertible py literal) :
    Reader.convert (requestHooks py) literal = Reader.convert unlimitedHooks literal := by
  unfold Convertible at h
  unfold Reader.convert
  by_cases hinteger : literal.isInteger = true
  · rw [if_pos hinteger] at h ⊢
    rw [if_pos hinteger]
    exact if_neg (not_lt.mpr h)
  · rw [if_neg hinteger] at h ⊢
    rw [if_neg hinteger]
    exact if_pos h

theorem convert_of_not_convertible {literal : Literal} (h : ¬ Convertible py literal) :
    ∃ e ∈ conversionErrors, Reader.convert (requestHooks py) literal = .error (.escaped e) := by
  unfold Convertible at h
  unfold Reader.convert
  by_cases hinteger : literal.isInteger = true
  · rw [if_pos hinteger] at h ⊢
    exact ⟨.valueError, by decide, if_pos (not_le.mp h)⟩
  · rw [if_neg hinteger] at h ⊢
    exact ⟨.invalidOperation, by decide, if_neg h⟩

theorem addMembers_ne_escaped {result pairs : Payload} {e : Exception} :
    addMembers result pairs ≠ .error (.escaped e) := by
  induction pairs generalizing result with
  | nil => rintro ⟨⟩
  | cons pair pairs ih =>
    obtain ⟨name, value⟩ := pair
    rw [addMembers]
    split
    · rintro ⟨⟩
    · exact ih

/-- Without limits nothing else escapes. -/
theorem run_unlimited_ne_escaped {maxDepth : ℕ} {r : Reader} {tokens : List Token}
    {e : Exception} :
    Reader.run unlimitedHooks maxDepth r tokens ≠ .error (.raised (.escaped e)) := by
  intro h
  cases Reader.raises_of_run h with
  | object members hmembers => exact addMembers_ne_escaped hmembers
  | number literal hliteral =>
    unfold Reader.convert at hliteral
    split at hliteral <;> cases hliteral
  | constant hconstant => cases hconstant

theorem getData_error {content : Content} {e : Exception} (h : content.getData = .error e) :
    e = .requestEntityTooLarge := by
  unfold Content.getData at h
  split at h
  · cases h
    rfl
  · cases h

/-- A refusal has a code of the protocol. -/
theorem mem_protocolErrors_of_refusal {e : Exception} (h : request.refusal codecName = some e) :
    e ∈ protocolErrors := by
  unfold Request.refusal at h
  split at h
  · cases h
    decide
  split at h
  · cases h
    decide
  split at h
  · cases h
    decide
  split at h
  · next htoo =>
    cases h
    rw [getData_error htoo]
    decide
  · split at h
    · cases h
      decide
    · cases h

variable (request) in
/-- A body is read without failing on a number exactly if all of its numbers are converted. -/
theorem parsePostJsonObject_cases (py : Interpreter) (codecName : Text → Option Text)
    (allowedFields : List Field) :
    ((∀ l ∈ request.literals py codecName, Convertible py l) ∧
      ((∃ payload, parsePostJsonObject py codecName allowedFields request = .ok payload) ∨
        ∃ e ∈ protocolErrors,
          parsePostJsonObject py codecName allowedFields request = .error e)) ∨
    (¬ (∀ l ∈ request.literals py codecName, Convertible py l) ∧
      ∃ e ∈ conversionErrors,
        parsePostJsonObject py codecName allowedFields request = .error e) := by
  unfold Request.literals parsePostJsonObject
  cases hrefusal : request.refusal codecName with
  | some e =>
    exact .inl ⟨by simp, .inr ⟨e, mem_protocolErrors_of_refusal hrefusal, rfl⟩⟩
  | none =>
    simp only
    unfold parseBody
    cases hdecode : Format.Utf8.decode request.body with
    | none => exact .inl ⟨by simp, .inr ⟨invalidJson, by decide, rfl⟩⟩
    | some t =>
      simp only
      by_cases hall : ∀ l ∈ Reader.literals unlimitedHooks py.maxDepth (.value []) (scan t),
          Convertible py l
      · refine .inl ⟨hall, ?_⟩
        have hrun : loads (requestHooks py) py.maxDepth t =
            Reader.run unlimitedHooks py.maxDepth (.value []) (scan t) :=
          Reader.run_congr (similar_unlimited py) fun l hl => convert_of_convertible (hall l hl)
        rw [hrun]
        split
        · next value _ =>
          rw [bind_ok]
          cases value with
          | object members =>
            simp only
            split
            · exact .inr ⟨invalidRequest, by decide, rfl⟩
            · exact .inl ⟨members, rfl⟩
          | _ => exact .inr ⟨invalidJson, by decide, rfl⟩
        · next e hescaped => exact absurd hescaped run_unlimited_ne_escaped
        · exact .inr ⟨invalidJson, by decide, rfl⟩
      · refine .inr ⟨hall, ?_⟩
        have hagree (l : Literal) :
            Reader.convert (requestHooks py) l = Reader.convert unlimitedHooks l ∨
              ∃ e, Reader.convert (requestHooks py) l = .error e := by
          by_cases hl : Convertible py l
          · exact .inl (convert_of_convertible hl)
          · obtain ⟨e, -, he⟩ := convert_of_not_convertible hl
            exact .inr ⟨_, he⟩
        have hdiffer (l : Literal) (hne : ¬ Convertible py l) :
            Reader.convert (requestHooks py) l ≠ Reader.convert unlimitedHooks l := by
          obtain ⟨e, -, he⟩ := convert_of_not_convertible hne
          rw [he]
          unfold Reader.convert
          split
          · rintro ⟨⟩
          · rintro ⟨⟩
        push Not at hall
        obtain ⟨l, hl, hne⟩ := hall
        obtain ⟨l', -, hne', e, he, hrun⟩ := Reader.run_raised (similar_unlimited py) hagree
          ⟨l, hl, hdiffer l hne⟩
        obtain ⟨x, hx, hconvert⟩ := convert_of_not_convertible
          fun hconvertible => hne' (convert_of_convertible hconvertible)
        rw [hconvert] at he
        cases he
        refine ⟨x, hx, ?_⟩
        rw [loads, hrun]
        rfl

end Numbers

section Routes

variable {α β : Type} {fieldOrder : List Field}

/-- What a request may end in before a service is called. -/
inductive Classified (fieldOrder : List Field) :
    Except Exception (α ⊕ List FieldError) → Prop where
  | protocol (e : Exception) : e ∈ protocolErrors → Classified fieldOrder (.error e)
  | fields (errors : List FieldError) : errors ≠ [] → InOrder fieldOrder errors →
      Classified fieldOrder (.ok (.inr errors))
  | value (a : α) : Classified fieldOrder (.ok (.inl a))

/-- The conversion of a number fails. -/
def ConversionFails (result : Except Exception β) : Prop :=
  ∃ e ∈ conversionErrors, result = .error e

/-- `result` is classified exactly under a condition. Otherwise a number is not converted. -/
def ClassifiedIff (fieldOrder : List Field) (result : Except Exception (α ⊕ List FieldError))
    (condition : Prop) : Prop :=
  (Classified fieldOrder result ↔ condition) ∧
    (Classified fieldOrder result ∨ ConversionFails result)

/-- A failed conversion is no end of its own. -/
theorem not_classified_of_conversionFails {result : Except Exception (α ⊕ List FieldError)}
    (h : ConversionFails result) : ¬ Classified fieldOrder result := by
  obtain ⟨e, he, rfl⟩ := h
  intro hclassified
  cases hclassified with
  | protocol _ hprotocol =>
    have hdisjoint : ∀ e ∈ conversionErrors, e ∉ protocolErrors := by decide
    exact hdisjoint e he hprotocol

theorem classified_accepted {validation : ValidationResult α}
    (h : InOrder fieldOrder validation.errors) (missing : Exception) :
    Classified fieldOrder (accepted missing validation) := by
  unfold accepted
  split
  · next hne => exact .fields _ hne h
  · next hnil =>
    obtain ⟨value, hvalue⟩ := exists_value_of_errors (not_not.mp hnil)
    rw [hvalue]
    exact .value value

/-- A route classifies a request exactly if the numbers of its body are converted and its
validator fails on none. -/
theorem classified_route {validate : Payload → Except Exception (ValidationResult α)}
    {allowedFields : List Field} (fits : Payload → Prop) (missing : Exception)
    (hok : ∀ payload, fits payload →
      ∃ result, validate payload = .ok result ∧ InOrder fieldOrder result.errors)
    (hfail : ∀ payload, ¬ fits payload → ConversionFails (validate payload)) :
    ClassifiedIff fieldOrder (do
        let payload ← parsePostJsonObject py codecName allowedFields request
        let validation ← validate payload
        accepted missing validation)
      ((∀ l ∈ request.literals py codecName, Convertible py l) ∧
        ∀ payload, parsePostJsonObject py codecName allowedFields request = .ok payload →
          fits payload) := by
  generalize hresult' : (do
    let payload ← parsePostJsonObject py codecName allowedFields request
    let validation ← validate payload
    accepted missing validation) = result
  rcases parsePostJsonObject_cases request py codecName allowedFields with
    ⟨hall, ⟨payload, hpayload⟩ | ⟨e, he, herror⟩⟩ | ⟨hnot, e, he, herror⟩
  · have hresult : result = (do
        let validation ← validate payload
        accepted missing validation) := by
      rw [← hresult', hpayload, bind_ok]
    by_cases hfits : fits payload
    · obtain ⟨validation, hvalidation, horder⟩ := hok payload hfits
      have hclassified : Classified fieldOrder result := by
        rw [hresult, hvalidation, bind_ok]
        exact classified_accepted horder missing
      refine ⟨iff_of_true hclassified ⟨hall, ?_⟩, .inl hclassified⟩
      intro payload' h'
      cases hpayload.symm.trans h'
      exact hfits
    · have hfails : ConversionFails result := by
        obtain ⟨e, he, herror⟩ := hfail payload hfits
        refine ⟨e, he, ?_⟩
        rw [hresult, herror]
        rfl
      refine ⟨iff_of_false (not_classified_of_conversionFails hfails) ?_, .inr hfails⟩
      exact fun h => hfits (h.2 payload hpayload)
  · have hclassified : Classified fieldOrder result := by
      rw [← hresult', herror]
      exact .protocol e he
    refine ⟨iff_of_true hclassified ⟨hall, ?_⟩, .inl hclassified⟩
    intro payload h'
    cases herror.symm.trans h'
  · have hfails : ConversionFails result := by
      refine ⟨e, he, ?_⟩
      rw [← hresult', herror]
      rfl
    exact ⟨iff_of_false (not_classified_of_conversionFails hfails) fun h => hnot h.1, .inr hfails⟩

theorem exactInteger_cases (py : Interpreter) (value : Option Json) :
    ((∀ d, value = some (.decimal d) → d.isIntegral = true → py.intFits d = true) ∧
      ∃ n, exactInteger py value = .ok n) ∨
    (¬ (∀ d, value = some (.decimal d) → d.isIntegral = true → py.intFits d = true) ∧
      exactInteger py value = .error .conversionFailed) := by
  unfold exactInteger
  split
  · exact .inl ⟨by simp, _, rfl⟩
  · next d =>
    by_cases hintegral : d.isIntegral = true
    · rw [if_pos hintegral]
      by_cases hfits : py.intFits d = true
      · rw [if_pos hfits]
        exact .inl ⟨by simp [hfits], _, rfl⟩
      · rw [if_neg hfits]
        exact .inr ⟨fun h => hfits (h d rfl hintegral), rfl⟩
    · rw [if_neg hintegral]
      exact .inl ⟨by simp [hintegral], _, rfl⟩
  · next hdecimal => exact .inl ⟨fun d hd => absurd hd (hdecimal d), _, rfl⟩

theorem validateReservation_of_fits (h : FieldsFit py payload) :
    ∃ result, validateReservation py payload = .ok result ∧
      InOrder bookingFieldOrder result.errors := by
  obtain ⟨-, utcOffset, hutc⟩ := (exactInteger_cases py
    (payload.get Field.utcOffsetMinutes.name)).resolve_right fun hnot =>
      hnot.1 (h .utcOffsetMinutes (.inl rfl))
  obtain ⟨-, partySize, hparty⟩ := (exactInteger_cases py
    (payload.get Field.partySize.name)).resolve_right fun hnot => hnot.1 (h .partySize (.inr rfl))
  exact validateReservation_inOrder hutc hparty

theorem validateReservation_of_not_fits (h : ¬ FieldsFit py payload) :
    ConversionFails (validateReservation py payload) := by
  obtain ⟨identity, hidentity, -⟩ := validateNewsletterStatusIdentity_inOrder py.toUnicode payload
  refine ⟨.conversionFailed, by decide, ?_⟩
  unfold validateReservation
  rw [hidentity, bind_ok]
  rcases exactInteger_cases py (payload.get Field.utcOffsetMinutes.name) with
    ⟨hutc, n, hn⟩ | ⟨-, herror⟩
  · rw [hn, bind_ok]
    rcases exactInteger_cases py (payload.get Field.partySize.name) with ⟨hparty, -⟩ | ⟨-, herror⟩
    · refine absurd ?_ h
      rintro f (rfl | rfl) d
      · exact hutc d
      · exact hparty d
    · rw [herror]
      rfl
  · rw [herror]
    rfl

/-- The fields of an availability query, in their order. -/
def queryFieldOrder : List Field := [.localDate, .partySize]

/-- The digits of a party size can be converted. -/
def DigitsFit (partySizes : List Text) : Prop :=
  ∀ t ∈ partySizes, t.all isAsciiDigit = true → t.length ≤ 4300

/-- Both parameters have one value. -/
theorem queryArguments_ok {args : List (Text × Text)} {localDates partySizes : List Text}
    (h : queryArguments args = .ok (localDates, partySizes)) :
    ∃ d t, localDates = [d] ∧ partySizes = [t] := by
  unfold queryArguments at h
  extract_lets getlist fields at h
  split at h
  · cases h
  split at h
  · cases h
  · next hone =>
    cases h
    simp only [fields, List.any_cons, List.any_nil, Bool.or_false, Bool.or_eq_true,
      decide_eq_true_eq, not_or, not_not] at hone
    obtain ⟨⟨hdate, -⟩, hsize, -⟩ := hone
    obtain ⟨d, hd⟩ := List.length_eq_one_iff.mp hdate
    obtain ⟨t, ht⟩ := List.length_eq_one_iff.mp hsize
    exact ⟨d, t, hd, ht⟩

theorem queryArguments_error {args : List (Text × Text)} {e : Exception}
    (h : queryArguments args = .error e) : e = invalidRequest := by
  unfold queryArguments at h
  extract_lets getlist fields at h
  split at h
  · cases h
    rfl
  split at h
  · cases h
    rfl
  · cases h

theorem requireEmptyBody_error {content : Content} {e : Exception}
    (h : requireEmptyBody content = .error e) : e ∈ protocolErrors := by
  unfold requireEmptyBody at h
  split at h
  · cases h
    decide
  cases hdata : content.getData with
  | error e' =>
    rw [hdata] at h
    cases h
    rw [getData_error hdata]
    decide
  | ok raw =>
    rw [hdata, bind_ok] at h
    split at h
    · cases h
      decide
    · cases h

/-- What a query is refused with, or both values. -/
theorem availabilityArguments_cases (content : Content) (args : List (Text × Text)) :
    (∃ e ∈ protocolErrors, availabilityArguments content args = .error e) ∨
      ∃ d t, availabilityArguments content args = .ok ([d], [t]) := by
  unfold availabilityArguments
  cases hbody : requireEmptyBody content with
  | error e => exact .inl ⟨e, requireEmptyBody_error hbody, rfl⟩
  | ok _ =>
    rw [bind_ok]
    cases hquery : queryArguments args with
    | error e =>
      rw [queryArguments_error hquery]
      exact .inl ⟨invalidRequest, by decide, rfl⟩
    | ok arguments =>
      obtain ⟨localDates, partySizes⟩ := arguments
      obtain ⟨d, t, rfl, rfl⟩ := queryArguments_ok hquery
      exact .inr ⟨d, t, rfl⟩

/-- The errors of `local_date` and the date. -/
def localDateField (py : Interpreter) (t : Text) : List FieldError × Option ℤ :=
  if t = [] then
    ([⟨.localDate, "required", "This query parameter is required exactly once."⟩], none)
  else if ¬ matchesPattern "0000-00-00" t then
    ([⟨.localDate, "invalid_format", "Use a valid date in YYYY-MM-DD format."⟩], none)
  else match py.dateFromIsoformat t with
  | none => ([⟨.localDate, "invalid_value", "Use a valid calendar date."⟩], none)
  | some day => ([], some day)

/-- The errors of `party_size` and the size. -/
def partySizeField (t : Text) : Except Exception (List FieldError × Option ℤ) :=
  if t = [] then
    .ok ([⟨.partySize, "required", "This query parameter is required exactly once."⟩], none)
  else if ¬ t.all isAsciiDigit then
    .ok ([⟨.partySize, "invalid_type", "Use a base-10 whole number."⟩], none)
  else do
    let n ← parseInt t
    return (partySizeRange n, some n)

/-- The result for both fields. -/
def queryResult (date size : List FieldError × Option ℤ) :
    Except Exception (ValidationResult AvailabilityRequest) :=
  if date.1 ++ size.1 ≠ [] then validationResult none (date.1 ++ size.1)
  else match date.2, size.2 with
  | some localDate, some partySize => validationResult (some ⟨localDate, partySize⟩) []
  | _, _ => .error .assertionError

theorem validateAvailabilityQuery_eq (py : Interpreter) (d t : Text) :
    validateAvailabilityQuery py [d] [t] =
      (partySizeField t).bind (queryResult (localDateField py d)) := rfl

/-- Errors of a field, or its value. -/
structure Field.Settles (field : Field) (result : List FieldError × Option ℤ) : Prop where
  named : ∀ e ∈ result.1, e.field = field
  some_of_nil : result.1 = [] → result.2.isSome

theorem settles_localDateField (py : Interpreter) (t : Text) :
    Field.localDate.Settles (localDateField py t) := by
  unfold localDateField
  split
  · exact ⟨by simp, by simp⟩
  split
  · exact ⟨by simp, by simp⟩
  split
  · exact ⟨by simp, by simp⟩
  · exact ⟨by simp, by simp⟩

theorem partySizeField_cases (t : Text) :
    (DigitsFit [t] ∧ ∃ size, partySizeField t = .ok size ∧ Field.partySize.Settles size) ∨
    (¬ DigitsFit [t] ∧ partySizeField t = .error .valueError) := by
  have hfit : DigitsFit [t] ↔ (t.all isAsciiDigit = true → t.length ≤ 4300) := by
    unfold DigitsFit
    simp only [List.mem_singleton, forall_eq]
  rw [hfit]
  unfold partySizeField
  by_cases ht : t = []
  · rw [if_pos ht, ht]
    exact .inl ⟨fun _ => Nat.zero_le _, _, rfl, ⟨by simp, by simp⟩⟩
  rw [if_neg ht]
  by_cases hdigits : t.all isAsciiDigit = true
  · rw [if_neg (not_not.mpr hdigits), parseInt]
    by_cases hlength : 4300 < t.length
    · rw [if_pos hlength]
      exact .inr ⟨fun h => absurd (h hdigits) (not_le.mpr hlength), rfl⟩
    · rw [if_neg hlength, bind_ok]
      exact .inl ⟨fun _ => not_lt.mp hlength, _, rfl,
        ⟨fun e he => field_of_partySizeRange he, fun _ => rfl⟩⟩
  · rw [if_pos hdigits]
    exact .inl ⟨fun h => absurd h hdigits, _, rfl, ⟨by simp, by simp⟩⟩

theorem queryResult_inOrder {date size : List FieldError × Option ℤ}
    (hdate : Field.localDate.Settles date) (hsize : Field.partySize.Settles size) :
    ∃ result, queryResult date size = .ok result ∧ InOrder queryFieldOrder result.errors := by
  have hfirst : InOrder [.localDate] date.1 := by
    constructor
    · intro e he
      rw [hdate.named e he]
      exact List.mem_cons_self
    · exact List.pairwise_of_forall_mem_list fun e he e' he' => by
        rw [hdate.named e he, hdate.named e' he']
  unfold queryResult
  split
  · next hne =>
    rw [validationResult_errors hne]
    exact ⟨_, rfl, hfirst.append hsize.named (by decide)⟩
  · next hnil =>
    obtain ⟨hdate', hsize'⟩ := List.append_eq_nil_iff.mp (not_not.mp hnil)
    obtain ⟨localDate, hlocalDate⟩ := Option.isSome_iff_exists.mp (hdate.some_of_nil hdate')
    obtain ⟨partySize, hpartySize⟩ := Option.isSome_iff_exists.mp (hsize.some_of_nil hsize')
    rw [hlocalDate, hpartySize]
    simp only
    rw [validationResult_value]
    exact ⟨_, rfl, ⟨by simp, List.Pairwise.nil⟩⟩

theorem validateAvailabilityQuery_cases (py : Interpreter) (d t : Text) :
    (DigitsFit [t] ∧ ∃ result, validateAvailabilityQuery py [d] [t] = .ok result ∧
      InOrder queryFieldOrder result.errors) ∨
    (¬ DigitsFit [t] ∧ ConversionFails (validateAvailabilityQuery py [d] [t])) := by
  rw [validateAvailabilityQuery_eq]
  rcases partySizeField_cases t with ⟨hfits, size, hsize, hsettles⟩ | ⟨hnot, herror⟩
  · rw [hsize]
    exact .inl ⟨hfits, queryResult_inOrder (settles_localDateField py d) hsettles⟩
  · rw [herror]
    exact .inr ⟨hnot, .valueError, by decide, rfl⟩

/-- A query is classified exactly if the digits of its party size are converted. -/
theorem classified_query (content : Content) (args : List (Text × Text)) :
    ClassifiedIff queryFieldOrder (reservationAvailabilityRequest py content args)
      (∀ localDates partySizes, availabilityArguments content args = .ok (localDates, partySizes) →
        DigitsFit partySizes) := by
  unfold reservationAvailabilityRequest
  rcases availabilityArguments_cases content args with ⟨e, he, herror⟩ | ⟨d, t, harguments⟩
  · rw [herror]
    exact ⟨iff_of_true (.protocol e he) (by rintro _ _ ⟨⟩), .inl (.protocol e he)⟩
  · rw [harguments, bind_ok]
    rcases validateAvailabilityQuery_cases py d t with
      ⟨hfits, validation, hvalidation, horder⟩ | ⟨hnot, e, he, herror⟩
    · simp only [hvalidation, bind_ok]
      have hclassified := classified_accepted horder .assertionError
      refine ⟨iff_of_true hclassified ?_, .inl hclassified⟩
      rintro _ _ ⟨⟩
      exact hfits
    · have hfails : ConversionFails ((do
          let validation ← validateAvailabilityQuery py [d] [t]
          accepted .assertionError validation) :
          Except Exception (AvailabilityRequest ⊕ List FieldError)) := by
        refine ⟨e, he, ?_⟩
        rw [herror]
        rfl
      refine ⟨iff_of_false (not_classified_of_conversionFails hfails) ?_, .inr hfails⟩
      exact fun h => hnot (h _ _ rfl)

/-- A route whose validator converts no numbers. -/
theorem classified_identity_route {validate : Payload → Except Exception (ValidationResult α)}
    {allowedFields : List Field} (missing : Exception)
    (hok : ∀ payload, ∃ result, validate payload = .ok result ∧
      InOrder fieldOrder result.errors) :
    ClassifiedIff fieldOrder (do
        let payload ← parsePostJsonObject py codecName allowedFields request
        let validation ← validate payload
        accepted missing validation)
      (∀ l ∈ request.literals py codecName, Convertible py l) := by
  have h : ClassifiedIff fieldOrder (do
        let payload ← parsePostJsonObject py codecName allowedFields request
        let validation ← validate payload
        accepted missing validation)
      ((∀ l ∈ request.literals py codecName, Convertible py l) ∧ _) :=
    classified_route (fun _ => True) missing (fun payload _ => hok payload)
      fun payload h => absurd trivial h
  exact ⟨h.1.trans (and_iff_left fun _ _ => trivial), h.2⟩

end Routes

end CafeFausse.Backend
