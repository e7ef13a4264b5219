import CafeFausse.Backend.SlotRoundTrip
import CafeFausse.Frontend.PostedSize
import CafeFausse.Python.JsonExact

/-! # What the server makes of a form

Every body that a form without errors posts is small enough for the server, and is parsed and
validated without an error, but for one: that of an initial whose upper case is not a single letter.
-/

namespace CafeFausse.Frontend

open Python

variable {b : Browser} {u : Unicode} {py : Interpreter} {codecName : Text → Option Text}
  {values : Identity} {phone value t : Text} {allowedFields : List Backend.Field} {body : Payload}
  {maxContentLength : ℕ}

section Texts

theorem unpaired_of_ascii (h : ∀ c ∈ t, c.val < 0x80) : Unpaired t :=
  unpaired_of_scalarText (scalarText_of_ascii h)

theorem unpaired_trim (h : Unpaired value) : Unpaired (b.trim value) := by
  obtain ⟨after, hafter⟩ : (b.trim value) <+: value.dropWhile b.isSpace := by
    rw [← List.reverse_suffix, Browser.trim, List.reverse_reverse]
    exact List.dropWhile_suffix _
  apply List.IsChain.left_of_append
  rw [hafter]
  exact List.IsChain.suffix h (List.dropWhile_suffix _)

/-- A blank goes with every character. -/
theorem unpaired_collapseFrom (x : Codepoint) (after : Bool) (h : Unpaired (x :: t))
    (hafter : after = true → ¬ IsHighSurrogate x) :
    Unpaired (x :: b.collapseFrom after t) := by
  have hblank : ¬ IsHighSurrogate 0x20 ∧ ¬ IsLowSurrogate 0x20 := by decide
  induction t generalizing x after with
  | nil => exact List.IsChain.singleton x
  | cons c t ih =>
    obtain ⟨hxc, hct⟩ := List.isChain_cons_cons.mp h
    have hskip (y : Codepoint) (hy : ¬ IsHighSurrogate y) : Unpaired (y :: t) := by
      rcases t with - | ⟨d, t⟩
      · exact List.IsChain.singleton y
      · exact List.isChain_cons_cons.mpr ⟨fun hpair => hy hpair.1, (List.isChain_cons_cons.mp hct).2⟩
    change Unpaired (x :: if b.isSpace c then
      if after then b.collapseFrom true t else 0x20 :: b.collapseFrom true t
      else c :: b.collapseFrom false t)
    split
    · split
      · next hafter' => exact ih x true (hskip x (hafter hafter')) fun _ => hafter hafter'
      · exact List.isChain_cons_cons.mpr ⟨fun hpair => hblank.2 hpair.2,
          ih 0x20 true (hskip _ hblank.1) fun _ => hblank.1⟩
    · exact List.isChain_cons_cons.mpr ⟨hxc, ih c false hct (by simp)⟩

theorem unpaired_normalizeName (h : Unpaired value) : Unpaired (normalizeName b value) := by
  have hblank : ¬ IsHighSurrogate 0x20 := by decide
  have htrim : Unpaired (b.trim value) := unpaired_trim h
  have hstart : Unpaired (0x20 :: b.trim value) := by
    revert htrim
    rcases b.trim value with - | ⟨d, t⟩
    · exact fun _ => List.IsChain.singleton _
    · exact fun htrim => List.isChain_cons_cons.mpr ⟨fun hpair => hblank hpair.1, htrim⟩
  exact List.IsChain.tail (unpaired_collapseFrom 0x20 false hstart (by simp))

end Texts

section Plain

/-- A value that the forms send. -/
inductive Plain : Json → Prop where
  | boolean (value : Bool) : Plain (.boolean value)
  | integer (n : ℤ) : n.natAbs < 10 ^ 10 → Plain (.integer n)
  | string (t : Text) : Unpaired t → Plain (.string t)

theorem unpaired_name (f : Backend.Field) : Unpaired f.name := by
  cases f <;> decide

theorem Plain.safe {v : Json} (h : Plain v) : ∀ n ∈ v.integers, SafeInteger n := by
  cases h with
  | boolean value => exact List.forall_mem_nil _
  | integer n hn =>
    intro k hk
    rw [List.mem_singleton.mp hk]
    unfold SafeInteger
    omega
  | string t _ => exact List.forall_mem_nil _

/-- A member that a form sends. -/
inductive Entry : Text × Json → Prop where
  | intro (f : Backend.Field) (v : Json) : Plain v → Fits f v → Entry (f.name, v)

theorem Entry.plain {m : Text × Json} (h : Entry m) : Plain m.2 := by
  cases h with
  | intro _ _ hplain _ => exact hplain

theorem Entry.fits {m : Text × Json} (h : Entry m) (f : Backend.Field) (hname : f.name = m.1) :
    Fits f m.2 := by
  cases h with
  | intro f' v _ hfits => exact name_injective hname ▸ hfits

/-- The names of a body are distinct fields of its route, in their order, and the route has no room
for more than the least limit. -/
structure Named (allowedFields : List Backend.Field) (body : Payload) : Prop where
  distinct : allowedFields.Nodup
  bounded : (allowedFields.map fieldBytes).sum + 2 ≤ 4096
  fields : ∃ fields : List Backend.Field, fields.Sublist allowedFields ∧
    body.map (·.1) = fields.map Backend.Field.name

theorem Named.nodup (h : Named allowedFields body) : (body.map (·.1)).Nodup := by
  obtain ⟨fields, hfields, hbody⟩ := h.fields
  rw [hbody]
  exact (h.distinct.sublist hfields).map name_injective

theorem Named.allowed (h : Named allowedFields body) :
    ∀ m ∈ body, ∃ f ∈ allowedFields, f.name = m.1 := by
  obtain ⟨fields, hfields, hbody⟩ := h.fields
  intro m hm
  have hname : m.1 ∈ fields.map Backend.Field.name := hbody ▸ List.mem_map_of_mem hm
  obtain ⟨f, hf, hfname⟩ := List.mem_map.mp hname
  exact ⟨f, hfields.subset hf, hfname⟩

variable (codecName) in
/-- A body of fields arrives as it was posted. -/
theorem exists_post (hdepth : 0 < py.maxDepth) (hlimit : 4096 ≤ maxContentLength)
    (hnamed : Named allowedFields body)
    (hentries : ∀ m ∈ body, Entry m) :
    ∃ request, post maxContentLength body = some request ∧
      Backend.parsePostJsonObject py codecName allowedFields request = .ok body := by
  have hplain : ∀ m ∈ body, Plain m.2 := fun m hm => (hentries m hm).plain
  have hwrite : ∀ m ∈ body, ∃ t, write stringifyEscape m.2 = some t := by
    rintro ⟨n, v⟩ hm
    have hv : Plain v := hplain _ hm
    cases hv with
    | boolean value => cases value <;> exact ⟨_, rfl⟩
    | integer n _ => exact ⟨_, rfl⟩
    | string t _ => exact ⟨_, rfl⟩
  have hpasses : ∀ (d : ℕ), ∀ m ∈ body, Passes (Backend.requestHooks py) d m.2 := by
    rintro d ⟨n, v⟩ hm
    have hv : Plain v := hplain _ hm
    cases hv with
    | boolean value => exact .boolean _ _
    | integer n hn =>
      refine .integer _ _ (parseInt_integerLiteral ?_)
      exact (length_decimal_le hn (by decide)).trans (by decide)
    | string t ht => exact .string _ _ ht
  obtain ⟨parts, hparts⟩ := exists_writeMembers hwrite
  have hpost : ∃ request, post maxContentLength body = some request := by
    have hsafe : ∀ n ∈ (Json.object body).integers, SafeInteger n :=
      forall_integersOfMembers fun m hm => (hplain m hm).safe
    unfold post stringify
    rw [if_pos hsafe, write, hparts]
    exact ⟨_, rfl⟩
  obtain ⟨request, hrequest⟩ := hpost
  obtain ⟨fields, hfields, hbody⟩ := hnamed.fields
  have hsize : request.body.length ≤ maxContentLength :=
    (length_post_le hfields hbody (fun m hm => (hentries m hm).fits) hrequest).trans
      (hnamed.bounded.trans hlimit)
  refine ⟨request, hrequest,
    (post_read_back ?_ hnamed.allowed hrequest).trans (if_neg (not_lt.mpr hsize))⟩
  obtain ⟨d, hd⟩ := Nat.exists_eq_succ_of_ne_zero hdepth.ne'
  rw [hd]
  refine .object d body (objectWithoutDuplicates_of_nodup hnamed.nodup) ?_ (hpasses d)
  intro m hm
  obtain ⟨f, -, hname⟩ := hnamed.allowed m hm
  rw [← hname]
  exact unpaired_name f

end Plain

section Payloads

/-- Half of a pair never stands before its other half: the two would be one character. -/
def Identity.Unpaired (values : Identity) : Prop :=
  Python.Unpaired values.firstName ∧ Python.Unpaired values.lastName

instance : Decidable values.Unpaired := instDecidableAnd

theorem get_append (p q : Payload) (name : Text) :
    (p ++ q).get name = (p.get name).or (q.get name) := by
  unfold Payload.get
  rw [List.find?_append]
  cases p.find? (·.1 = name) <;> rfl

theorem formPayload_nil : formPayload b values [] = (identityBody b values).payload :=
  List.append_nil _

/-- A name that is valid in a form. -/
theorem entry_name {f : Backend.Field} (h : nameError b value = none) (hvalue : Unpaired value)
    (hsize : 602 ≤ valueBytes f) : Entry (f.name, .string (normalizeName b value)) := by
  have hlength := (nameError_eq_none.mp h).1
  exact .intro f _ (.string _ (unpaired_normalizeName hvalue)) (fits_text (by omega))

/-- An address that is valid in a form is sent in visible characters. -/
theorem entry_email {f : Backend.Field} (hb : b.AgreesWith u) (h : isValidEmail b value = true)
    (hsize : 510 ≤ valueBytes f) : Entry (f.name, .string (normalizeEmail b value)) := by
  obtain ⟨hlength, haddress⟩ := isAddress_of_isValidEmail h
  have hascii {t : Text} (ht : IsAddress t) : ∀ c ∈ t, c.val < 0x80 := by
    intro c hc
    have := (ht.visible hc).2
    omega
  unfold normalizeEmail
  rw [hb.toLowerCase _ (hascii haddress)]
  have hlower := haddress.map_asciiLower
  refine .intro f _ (.string _ (unpaired_of_ascii (hascii hlower))) ?_
  apply fits_string fun c hc => length_stringifyEscape_of_visible (hlower.visible hc)
  rw [List.length_map]
  omega

theorem entry_formPayload (hb : b.AgreesWith u) (h : validateIdentity b values (some phone) = [])
    (hvalues : values.Unpaired) : ∀ m ∈ formPayload b values phone, Entry m := by
  obtain ⟨hfirst, hlast, hmiddle, hemail, hconfirmation, hphone⟩ := errors_eq_none h
  have hconfirmation := (isValidEmail_of_confirmationEmailError hconfirmation).1
  intro m hm
  unfold formPayload IdentityBody.payload identityBody at hm
  rcases List.mem_append.mp hm with hm | hm
  · rcases List.mem_cons.mp hm with rfl | hm
    · exact entry_name hfirst hvalues.1 le_rfl
    rcases List.mem_append.mp hm with hm | hm
    · rcases middleInitialError_eq_none.mp hmiddle with hempty | ⟨c, hc, -⟩
      · simp [hempty] at hm
      · simp only [hc, List.cons_ne_nil, if_false, Option.toList_some, List.map_cons, List.map_nil,
          List.mem_singleton] at hm
        rw [hm]
        exact .intro .middleInitial _ (.string _ (List.IsChain.singleton c)) (fits_text le_rfl)
    · simp only [List.mem_cons, List.not_mem_nil, or_false] at hm
      rcases hm with rfl | rfl | rfl
      · exact entry_name hlast hvalues.2 le_rfl
      · exact entry_email hb (isValidEmail_of_emailError hemail) le_rfl
      · exact entry_email hb hconfirmation le_rfl
  · split at hm
    · cases hm
    · next hne =>
      rw [List.mem_singleton.mp hm]
      rcases phone_of_phoneError hphone with rfl | ⟨hlength, hcharacters, -⟩
      · exact absurd rfl hne
      · have hascii : ∀ c ∈ b.trim phone, c.val < 0x80 :=
          fun c hc => Backend.ascii_of_phoneCharacters hcharacters hc
        have hfits : Fits .phone (.string (b.trim phone)) := fits_text (by
          show 6 * (b.trim phone).length + 2 ≤ 194
          omega)
        exact .intro .phone _ (.string _ (unpaired_of_ascii hascii)) hfits

end Payloads

section Identity

/-- The only error that the server finds in a form without errors. -/
def initialError : Backend.FieldError := ⟨.middleInitial, "invalid_format", "Enter one letter."⟩

theorem identityField_of_not_fits (hb : b.AgreesWith u)
    (h : middleInitialError b values.middleInitial = none) (hfits : ¬ InitialFits b u values) :
    Backend.identityField u (formPayload b values phone) .middleInitial =
      some (.error initialError) := by
  obtain ⟨hne, hlength⟩ := not_or.mp hfits
  rcases middleInitialError_eq_none.mp h with hempty | ⟨c, hc, hletter⟩
  · exact absurd hempty hne
  have hget := get_formPayload b values phone .middleInitial
  simp only [hc, List.cons_ne_nil, if_false] at hget
  have hnot : ¬ ∃ initial, Backend.normalizeMiddle u (.string [c]) = .ok initial := by
    rw [normalizeMiddle_letter hb hletter, ← hc]
    exact hlength
  have herror : Backend.normalizeMiddle u (.string [c]) = .error initialError := by
    revert hnot
    unfold Backend.normalizeMiddle
    simp only
    split
    · exact fun hnot => absurd ⟨_, rfl⟩ hnot
    split
    · exact fun _ => rfl
    split
    · exact fun _ => rfl
    · exact fun hnot => absurd ⟨_, rfl⟩ hnot
  rw [identityField_of_string hget, ← herror]
  rfl

/-- A form whose fields have no error has none. -/
theorem validateIdentity_eq_nil (hfirst : nameError b values.firstName = none)
    (hlast : nameError b values.lastName = none)
    (hmiddle : middleInitialError b values.middleInitial = none)
    (hemail : emailError b values.email = none)
    (hconfirmation : confirmationEmailError b values.email values.confirmationEmail = none)
    (hphone : phoneError b phone = none) : validateIdentity b values (some phone) = [] := by
  simp only [validateIdentity, List.filterMap_eq_nil_iff, List.forall_mem_cons, List.not_mem_nil,
    false_imp_iff, implies_true, and_true, Option.map_eq_none_iff, Option.bind_some]
  exact ⟨hfirst, hlast, hmiddle, hemail, hconfirmation, hphone⟩

/-- The errors of an identity whose initial does not fit. -/
theorem identityErrors_of_not_fits (hb : b.AgreesWith u)
    (h : validateIdentity b values (some phone) = []) (hfits : ¬ InitialFits b u values)
    (f : Backend.Field) (hf : f ∈ Backend.identityFieldOrder) :
    Backend.identityErrors u (formPayload b values phone) f =
      if f = .middleInitial then [initialError] else [] := by
  obtain ⟨hfirst, hlast, hmiddle, hemail, hconfirmation, hphone⟩ := errors_eq_none h
  -- without its initial the form is accepted
  have hblank : b.trim [] = [] := rfl
  have hinitial : middleInitialError b [] = none := middleInitialError_eq_none.mpr (.inl hblank)
  have hvalid : validateIdentity b { values with middleInitial := [] } (some phone) = [] :=
    validateIdentity_eq_nil hfirst hlast hinitial hemail hconfirmation hphone
  have hidentity := identifies_formPayload (u := u) hb hvalid (.inl hblank)
  have hsame (f : Backend.Field) (hne : f ≠ .middleInitial) :
      Backend.identityField u (formPayload b values phone) f =
        Backend.identityField u (formPayload b { values with middleInitial := [] } phone) f := by
    unfold Backend.identityField
    rw [get_formPayload, get_formPayload]
    cases f <;> first | rfl | contradiction
  have hemailField := (hsame .email (by decide)).trans hidentity.email
  have hconfirmationField := (hsame .confirmationEmail (by decide)).trans hidentity.confirmationEmail
  by_cases hf' : f = .middleInitial
  · rw [if_pos hf', hf']
    unfold Backend.identityErrors
    simp only [Backend.normalizedField_of_ok hemailField,
      Backend.normalizedField_of_ok hconfirmationField, ne_eq, not_true, if_false,
      identityField_of_not_fits hb hmiddle hfits]
  · rw [if_neg hf', Backend.identityErrors_eq_nil]
    constructor
    · intro e he
      rw [hsame f hf'] at he
      cases f with
      | firstName => cases hidentity.firstName.symm.trans he
      | middleInitial => exact absurd rfl hf'
      | lastName => cases hidentity.lastName.symm.trans he
      | email => cases hidentity.email.symm.trans he
      | confirmationEmail => cases hidentity.confirmationEmail.symm.trans he
      | _ => exact absurd hf (by decide)
    · rintro - email confirmationEmail hemail' hconfirmation'
      rw [Backend.normalizedField_of_ok hemailField] at hemail'
      rw [Backend.normalizedField_of_ok hconfirmationField] at hconfirmation'
      exact Option.some_inj.mp (hemail'.symm.trans hconfirmation')

/-- What the server makes of the identity of a form without errors. -/
theorem validate_formPayload (hb : b.AgreesWith u)
    (h : validateIdentity b values (some phone) = []) :
    (InitialFits b u values ∧
      Backend.validateNewsletterStatusIdentity u (formPayload b values phone) =
        .ok ⟨some ((identityBody b values).customer u), [], rfl⟩) ∨
    ¬ InitialFits b u values ∧
      Backend.validateNewsletterStatusIdentity u (formPayload b values phone) =
        .ok ⟨none, [initialError], rfl⟩ := by
  by_cases hfits : InitialFits b u values
  · exact .inl ⟨hfits, Backend.validateNewsletterStatusIdentity_eq_ok.mpr
      (identifies_formPayload hb h hfits)⟩
  · have hordered : Backend.orderedErrors (Backend.identityErrors u (formPayload b values phone))
        Backend.identityFieldOrder = [initialError] :=
      List.flatMap_congr (identityErrors_of_not_fits hb h hfits)
    have hne : [initialError] ≠ [] := List.cons_ne_nil _ _
    refine .inr ⟨hfits, ?_⟩
    unfold Backend.validateNewsletterStatusIdentity
    simp only [hordered]
    rw [if_pos hne, Backend.validationResult_errors hne]

end Identity

section Routes

/-- The initial of a body is left out, or its upper case is a single character. -/
def IdentityBody.InitialFits (u : Unicode) (body : IdentityBody) : Prop :=
  ∀ t ∈ body.middleInitial, (u.upperText t).length = 1

theorem initialFits_identityBody :
    (identityBody b values).InitialFits u ↔ InitialFits b u values := by
  unfold IdentityBody.InitialFits InitialFits identityBody
  by_cases hempty : b.trim values.middleInitial = []
  · simp [hempty]
  · simp [hempty]

/-- The server goes on with a good value if the initial of the body fits. It does not with
another initial, and says so. -/
def Understood {α : Type} (u : Unicode) (body : IdentityBody) (good : α → Prop)
    (result : Except Exception (α ⊕ List Backend.FieldError)) : Prop :=
  (body.InitialFits u ∧ ∃ value, result = .ok (.inl value) ∧ good value) ∨
    ¬ body.InitialFits u ∧ result = .ok (.inr [initialError])

/-- The fields of an identity body and a phone. -/
def sentFields (middleInitial phone : Bool) : List Backend.Field :=
  .firstName :: (if middleInitial then [.middleInitial] else []) ++
    [.lastName, .email, .confirmationEmail] ++ if phone then [.phone] else []

theorem names_formPayload (b : Browser) (values : Identity) (phone : Text) :
    (formPayload b values phone).map (·.1) =
      (sentFields (b.trim values.middleInitial ≠ []) (b.trim phone ≠ [])).map Backend.Field.name := by
  unfold formPayload IdentityBody.payload identityBody sentFields
  by_cases hmiddle : b.trim values.middleInitial = [] <;>
  by_cases hphone : b.trim phone = [] <;>
  simp [hmiddle, hphone]

/-- The fields of a form, before others of its route. -/
theorem named_append {rest : Payload} (withPhone : Bool) (others : List Backend.Field)
    (hphone : decide (b.trim phone ≠ []) = withPhone)
    (hallowed : ∀ middleInitial, (sentFields middleInitial withPhone ++ others).Sublist allowedFields)
    (hnodup : allowedFields.Nodup) (hbounded : (allowedFields.map fieldBytes).sum + 2 ≤ 4096)
    (hrest : rest.map (·.1) = others.map Backend.Field.name) :
    Named allowedFields (formPayload b values phone ++ rest) := by
  refine ⟨hnodup, hbounded, _, hallowed (b.trim values.middleInitial ≠ []), ?_⟩
  rw [List.map_append, List.map_append, names_formPayload, hphone, hrest]

theorem accepted_value {α : Type} {missing : Exception} {value : α} :
    Backend.accepted missing ⟨some value, [], rfl⟩ = .ok (.inl value) := rfl

theorem accepted_initialError {α : Type} {missing : Exception} :
    Backend.accepted missing (⟨none, [initialError], rfl⟩ : Backend.ValidationResult α) =
      .ok (.inr [initialError]) := rfl

theorem validateIdentity_nil : validateIdentity b values (some []) = validateIdentity b values none :=
  rfl

section Newsletter

variable (codecName) (hb : b.AgreesWith py.toUnicode) (hdepth : 0 < py.maxDepth)
  (hlimit : 4096 ≤ maxContentLength) (h : validateIdentity b values none = [])
  (hvalues : values.Unpaired)

include hb hdepth hlimit h hvalues

/-- A lookup of an eligible identity. -/
theorem understood_status :
    ∃ request, post maxContentLength (identityBody b values).payload = some request ∧
      Understood py.toUnicode (identityBody b values)
        (fun identity => identity = (identityBody b values).customer py.toUnicode)
        (Backend.newsletterStatusRequest py codecName request) := by
  rw [← validateIdentity_nil] at h
  have hnamed : Named Backend.identityFieldOrder (formPayload b values [] ++ []) :=
    named_append false [] rfl (by decide) (by decide) (by decide +kernel) rfl
  rw [List.append_nil, formPayload_nil] at hnamed
  have hentries := entry_formPayload hb h hvalues
  rw [formPayload_nil] at hentries
  obtain ⟨request, hpost, hparse⟩ := exists_post codecName hdepth hlimit hnamed hentries
  refine ⟨request, hpost, ?_⟩
  unfold Backend.newsletterStatusRequest Understood
  rw [hparse, bind_ok, initialFits_identityBody]
  have hvalidate := validate_formPayload hb h
  rw [formPayload_nil] at hvalidate
  rcases hvalidate with ⟨hfits, hidentity⟩ | ⟨hfits, herror⟩
  · rw [hidentity, bind_ok]
    exact .inl ⟨hfits, _, accepted_value, rfl⟩
  · rw [herror, bind_ok]
    exact .inr ⟨hfits, accepted_initialError⟩

/-- A preference of an eligible identity. -/
theorem understood_preference (subscribed : Bool) :
    ∃ request, post maxContentLength
        (PreferenceBody.mk (identityBody b values) subscribed).payload = some request ∧
      Understood py.toUnicode (identityBody b values)
        (fun command =>
          command = ((identityBody b values).customer py.toUnicode).preferenceCommand subscribed)
        (Backend.newsletterPreferencesRequest py codecName request) := by
  rw [← validateIdentity_nil] at h
  set rest : Payload := [(Backend.Field.subscribed.name, .boolean subscribed)] with hrest
  have hnamed : Named Backend.preferenceFieldOrder (formPayload b values [] ++ rest) :=
    named_append false [.subscribed] rfl (by decide) (by decide) (by decide +kernel) rfl
  have hentries : ∀ m ∈ formPayload b values [] ++ rest, Entry m := by
    refine List.forall_mem_append.mpr ⟨entry_formPayload hb h hvalues, fun m hm => ?_⟩
    rw [List.mem_singleton.mp hm]
    exact .intro .subscribed _ (.boolean subscribed) (fits_boolean subscribed le_rfl)
  obtain ⟨request, hpost, hparse⟩ := exists_post codecName hdepth hlimit hnamed hentries
  have hget (f : Backend.Field) (hf : f ∈ Backend.identityFieldOrder) :
      (formPayload b values [] ++ rest).get f.name = (formPayload b values []).get f.name := by
    rw [get_append, hrest, get_cons]
    cases f <;> first | exact Option.or_none | exact absurd hf (by decide)
  have hsubscribed : (formPayload b values [] ++ rest).get Backend.Field.subscribed.name =
      some (.boolean subscribed) := by
    rw [get_append, get_formPayload, hrest, get_cons]
    rfl
  refine ⟨request, ?_, ?_⟩
  · rw [← hpost, formPayload_nil]
    rfl
  unfold Backend.newsletterPreferencesRequest Understood
  rw [hparse, bind_ok, initialFits_identityBody]
  unfold Backend.validateNewsletterPreference
  rw [Backend.validateNewsletterStatusIdentity_congr hget, hsubscribed]
  rcases validate_formPayload hb h with ⟨hfits, hidentity⟩ | ⟨hfits, herror⟩
  · rw [hidentity, bind_ok]
    exact .inl ⟨hfits, _, rfl, rfl⟩
  · rw [herror, bind_ok]
    exact .inr ⟨hfits, rfl⟩

end Newsletter

section Reservation

/-- The action that a routine is called with. -/
def ReservationWorkflow.NewsletterAction.requested :
    ReservationWorkflow.NewsletterAction → CafeFausse.NewsletterAction
  | .noChange => .noChange
  | .subscribe => .subscribe
  | .unsubscribe => .unsubscribe

theorem newsletterAction_text (action : ReservationWorkflow.NewsletterAction) :
    Backend.newsletterAction action.text = action.requested := by
  cases action <;> decide

theorem ascii_text (action : ReservationWorkflow.NewsletterAction) :
    ∀ c ∈ action.text, c.val < 0x80 := by
  cases action <;> exact forall_text (fun _ hc => hc) (by decide)

theorem ascii_of_matchesPattern {pattern : String}
    (hpattern : (text pattern).all (fun c => c.val < 0x80) = true)
    (h : Backend.matchesPattern pattern t = true) : ∀ c ∈ t, c.val < 0x80 := by
  obtain ⟨hlength, hall⟩ := Bool.and_eq_true_iff.mp h
  have hlength : t.length = (text pattern).length :=
    (of_decide_eq_true hlength).trans (Backend.length_text pattern).symm
  intro c hc
  obtain ⟨i, hi, rfl⟩ := List.getElem_of_mem hc
  have hi' : i < (text pattern).length := hlength ▸ hi
  have hp := List.all_eq_true.mp hpattern _ (List.getElem_mem hi')
  have hmem : (t[i], (text pattern)[i]) ∈ t.zip (text pattern) := by
    rw [← List.getElem_zip (h := by rw [List.length_zip]; omega)]
    exact List.getElem_mem _
  have hchar := List.all_eq_true.mp hall _ hmem
  simp only at hchar
  split at hchar
  · have hnine : (t[i]).val ≤ 0x39 := of_decide_eq_true (Bool.and_eq_true_iff.mp hchar).2
    omega
  · rw [eq_of_beq hchar]
    exact of_decide_eq_true hp

theorem ascii_of_matchesLocalStart (h : Backend.matchesLocalStart t = true) :
    ∀ c ∈ t, c.val < 0x80 := by
  rcases Bool.or_eq_true_iff.mp h with h | h
  · exact ascii_of_matchesPattern (by decide) h
  · exact ascii_of_matchesPattern (by decide) h

open Time in
/-- A body that a form without errors builds for a slot that the server has offered. -/
structure Built (b : Browser) (zone : Zone) (slot : Backend.AvailabilitySlot)
    (body : ReservationWorkflow.ReservationBody) : Prop where
  form : ∃ values phone, validateIdentity b values (some phone) = [] ∧ values.Unpaired ∧
    body.identity = identityBody b values ∧
    body.phone = if b.trim phone = [] then none else some (b.trim phone)
  valid : ∃ session request, slot.Valid session zone request
  startsAtLocal : body.startsAtLocal = Backend.localText zone slot.startsAt
  offset : Backend.utcoffset zone slot.startsAt = minutes body.utcOffsetMinutes
  utcOffsetMinutes : -840 ≤ body.utcOffsetMinutes ∧ body.utcOffsetMinutes ≤ 840
  partySize : ∃ n : ℤ, body.partySize = some (n : ℚ) ∧ 1 ≤ n ∧ n ≤ 2147483647

open Time in
/-- The command asks for what the body names. -/
structure Requests (u : Unicode) (slot : Backend.AvailabilitySlot)
    (body : ReservationWorkflow.ReservationBody) (command : Backend.ReservationCommand) : Prop where
  firstName : command.firstName = u.joined body.identity.firstName
  middleInitial : command.middleInitial = body.identity.middleInitial.map u.upperText
  lastName : command.lastName = u.joined body.identity.lastName
  email : command.email = body.identity.email
  phone : command.phone = body.phone.map u.strip
  localStart : command.localStart = slot.localStart
  utcOffsetMinutes : command.utcOffsetMinutes = body.utcOffsetMinutes
  startsAt : command.localStart - minutes command.utcOffsetMinutes = slot.startsAt
  partySize : body.partySize = some (command.partySize : ℚ)
  newsletterAction : command.newsletterAction = body.newsletterAction.requested

/-- The members of a reservation that follow the phone. -/
def reservationMembers (startsAtLocal : Text) (utcOffsetMinutes partySize : ℤ) (action : Text) :
    Payload :=
  [(Backend.Field.startsAtLocal.name, .string startsAtLocal),
    (Backend.Field.utcOffsetMinutes.name, .integer utcOffsetMinutes),
    (Backend.Field.partySize.name, .integer partySize),
    (Backend.Field.newsletterAction.name, .string action)]

theorem payload_of_built {body : ReservationWorkflow.ReservationBody} {n : ℤ}
    (hidentity : body.identity = identityBody b values)
    (hphone : body.phone = if b.trim phone = [] then none else some (b.trim phone))
    (hn : body.partySize = some (n : ℚ)) :
    body.payload = some (formPayload b values phone ++
      reservationMembers body.startsAtLocal body.utcOffsetMinutes n body.newsletterAction.text) := by
  have hwhole : wholeNumber (some (n : ℚ)) = some (.integer n) := by
    unfold wholeNumber
    simp
  unfold ReservationWorkflow.ReservationBody.payload
  rw [hn, hwhole, hidentity, hphone]
  unfold formPayload
  split <;> rfl

variable (b values phone) in
theorem get_reservation (startsAtLocal action : Text) (utcOffsetMinutes partySize : ℤ)
    (f : Backend.Field) : (formPayload b values phone ++
      reservationMembers startsAtLocal utcOffsetMinutes partySize action).get f.name = match f with
    | .startsAtLocal => some (.string startsAtLocal)
    | .utcOffsetMinutes => some (.integer utcOffsetMinutes)
    | .partySize => some (.integer partySize)
    | .newsletterAction => some (.string action)
    | _ => (formPayload b values phone).get f.name := by
  rw [get_append, get_formPayload]
  simp only [reservationMembers, get_cons]
  cases f <;> first | rfl | exact Option.or_none

theorem phoneField_formPayload (h : phoneError b phone = none) {p : Payload}
    (hget : p.get Backend.Field.phone.name =
      (formPayload b values phone).get Backend.Field.phone.name) :
    Backend.phoneField py p =
      ([], (if b.trim phone = [] then none else some (b.trim phone)).map py.strip) := by
  unfold Backend.phoneField
  rw [hget, get_formPayload]
  by_cases hempty : b.trim phone = []
  · simp only [hempty, if_true, Option.map_none]
  · simp only [hempty, if_false, normalizePhone_of_phoneError (u := py.toUnicode) h hempty,
      Option.map_some]

theorem length_of_matchesLocalStart (h : Backend.matchesLocalStart t = true) : t.length = 25 := by
  rcases Bool.or_eq_true_iff.mp h with h | h
  · exact of_decide_eq_true (Bool.and_eq_true_iff.mp h).1
  · exact of_decide_eq_true (Bool.and_eq_true_iff.mp h).1

theorem entry_reservationMembers {startsAtLocal : Text} {utcOffsetMinutes n : ℤ}
    {action : ReservationWorkflow.NewsletterAction}
    (hmatches : Backend.matchesLocalStart startsAtLocal = true)
    (hutc : -840 ≤ utcOffsetMinutes ∧ utcOffsetMinutes ≤ 840) (hn : 1 ≤ n ∧ n ≤ 2147483647) :
    ∀ m ∈ reservationMembers startsAtLocal utcOffsetMinutes n action.text, Entry m := by
  have hlength := length_of_matchesLocalStart hmatches
  have haction : 6 * action.text.length + 2 ≤ 68 := by cases action <;> decide
  intro m hm
  simp only [reservationMembers, List.mem_cons, List.not_mem_nil, or_false] at hm
  rcases hm with rfl | rfl | rfl | rfl
  · have hascii := ascii_of_matchesLocalStart hmatches
    have hfits : Fits .startsAtLocal (.string startsAtLocal) := fits_text (by rw [hlength]; decide)
    exact .intro .startsAtLocal _ (.string _ (unpaired_of_ascii hascii)) hfits
  · have hsmall : utcOffsetMinutes.natAbs < 10 ^ 10 := by omega
    exact .intro .utcOffsetMinutes _ (.integer _ hsmall) (fits_integer hsmall le_rfl)
  · have hsmall : n.natAbs < 10 ^ 10 := by omega
    exact .intro .partySize _ (.integer _ hsmall) (fits_integer hsmall le_rfl)
  · exact .intro .newsletterAction _ (.string _ (unpaired_of_ascii (ascii_text action)))
      (fits_text haction)

variable (codecName) in
/-- A reservation that a form without errors builds. -/
theorem understood_reservation (hb : b.AgreesWith py.toUnicode) (hpy : Backend.ReadsIsoformat py)
    (hdepth : 0 < py.maxDepth) (hlimit : 4096 ≤ maxContentLength) {zone : Zone}
    {slot : Backend.AvailabilitySlot} {body : ReservationWorkflow.ReservationBody}
    (h : Built b zone slot body) :
    ∃ payload request, body.payload = some payload ∧
      post maxContentLength payload = some request ∧
      Understood py.toUnicode body.identity (Requests py.toUnicode slot body)
        (Backend.reservationsRequest py codecName request) := by
  obtain ⟨values, phone, herrors, hvalues, hidentity, hphone⟩ := h.form
  obtain ⟨session, availabilityRequest, hslot⟩ := h.valid
  obtain ⟨n, hn, hn1, hnmax⟩ := h.partySize
  set p : Payload := formPayload b values phone ++
    reservationMembers body.startsAtLocal body.utcOffsetMinutes n body.newsletterAction.text with hp
  have hget := get_reservation b values phone body.startsAtLocal body.newsletterAction.text
    body.utcOffsetMinutes n
  rw [← hp] at hget
  have hstart : Backend.startField py p =
      ([], some slot.localStart, some body.utcOffsetMinutes) := by
    refine Backend.startField_localText hpy hslot h.offset h.utcOffsetMinutes ?_
    rw [hget, h.startsAtLocal]
  have hmatches : Backend.matchesLocalStart body.startsAtLocal = true := by
    rw [h.startsAtLocal, Backend.localText, hslot.shown, h.offset]
    have := h.utcOffsetMinutes
    exact Backend.matchesLocalStart_local hslot.fits ⟨by omega, by omega⟩
  have hnamed : Named Backend.bookingFieldOrder p :=
    named_append (decide (b.trim phone ≠ [])) [.startsAtLocal, .utcOffsetMinutes, .partySize,
      .newsletterAction] rfl (fun middleInitial => (show ∀ middleInitial phone : Bool,
        (sentFields middleInitial phone ++ _).Sublist Backend.bookingFieldOrder by decide)
          middleInitial _) (by decide) (by decide +kernel) rfl
  have hentries : ∀ m ∈ p, Entry m :=
    List.forall_mem_append.mpr ⟨entry_formPayload hb herrors hvalues,
      entry_reservationMembers hmatches h.utcOffsetMinutes ⟨hn1, hnmax⟩⟩
  obtain ⟨request, hpost, hparse⟩ := exists_post codecName hdepth hlimit hnamed hentries
  refine ⟨p, request, payload_of_built hidentity hphone hn, hpost, ?_⟩
  have hdisplay : Backend.phoneField py p = ([], body.phone.map py.strip) := by
    rw [hphone]
    exact phoneField_formPayload (errors_eq_none herrors).2.2.2.2.2 (hget .phone)
  have hutc : Backend.exactInteger py (p.get Backend.Field.utcOffsetMinutes.name) =
      .ok (some body.utcOffsetMinutes) := by rw [hget]; rfl
  have hparty : Backend.exactInteger py (p.get Backend.Field.partySize.name) =
      .ok (some n) := by rw [hget]; rfl
  have hsame : Backend.validateNewsletterStatusIdentity py.toUnicode p =
      Backend.validateNewsletterStatusIdentity py.toUnicode (formPayload b values phone) := by
    refine Backend.validateNewsletterStatusIdentity_congr fun f hf => ?_
    rw [hget]
    cases f <;> first | rfl | exact absurd hf (by decide)
  unfold Backend.reservationsRequest Understood
  rw [hparse, bind_ok, hidentity, initialFits_identityBody]
  rcases validate_formPayload hb herrors with ⟨hfits, hok⟩ | ⟨hfits, herror⟩
  · set identity := (identityBody b values).customer py.toUnicode with hcustomer
    set command : Backend.ReservationCommand := {
      firstName := identity.firstName
      middleInitial := identity.middleInitial
      lastName := identity.lastName
      email := identity.email
      phone := body.phone.map py.strip
      localStart := slot.localStart
      utcOffsetMinutes := body.utcOffsetMinutes
      partySize := n
      newsletterAction := body.newsletterAction.requested
      localStart_ck := hslot.localStart
      utcOffsetMinutes_ck := h.utcOffsetMinutes
      partySize_ck := ⟨hn1, hnmax⟩
      newsletterAction_ck := by cases body.newsletterAction <;> exact nofun } with hcommand
    have haccepts : Backend.Accepts py p command := by
      refine ⟨⟨identity, hsame.trans hok, rfl, rfl, rfl, rfl⟩, hdisplay, ⟨_, hstart, ?_⟩, hutc,
        hparty, _, hget .newsletterAction, newsletterAction_text _⟩
      rintro o ⟨⟩
      rfl
    rw [Backend.validateReservation_of_accepts haccepts, bind_ok]
    refine .inl ⟨hfits, command, accepted_value, ?_⟩
    have hstarts : slot.localStart - Time.minutes body.utcOffsetMinutes = slot.startsAt := by
      rw [← h.offset, Backend.utcoffset, hslot.shown]
      exact sub_sub_cancel _ _
    constructor
    · rw [hidentity]
      rfl
    · rw [hidentity]
      rfl
    · rw [hidentity]
      rfl
    · rw [hidentity]
      rfl
    · rfl
    · rfl
    · rfl
    · exact hstarts
    · exact hn
    · rfl
  · have hutcErrors := Backend.integerField_of_exactInteger hutc
      (Backend.utcOffsetRange_eq_nil.mpr ⟨h.utcOffsetMinutes, fun o ho => Option.some.inj ho⟩)
    have hpartyErrors := Backend.integerField_of_exactInteger hparty
      (Backend.partySizeRange_eq_nil.mpr ⟨hn1, hnmax⟩)
    have haction : Backend.actionErrors p = [] := by
      unfold Backend.actionErrors
      rw [hget]
      exact if_neg (by rw [newsletterAction_text]; cases body.newsletterAction <;> exact nofun)
    unfold Backend.validateReservation
    rw [hsame, herror, bind_ok, hutc, bind_ok, hparty, bind_ok]
    simp only [hdisplay, hstart, hutcErrors, hpartyErrors, haction]
    exact .inr ⟨hfits, rfl⟩

end Reservation

end Routes

end CafeFausse.Frontend
