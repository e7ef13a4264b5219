import CafeFausse.Backend.Accepted
import CafeFausse.Backend.Normalized
import CafeFausse.Python.Datetimes
import CafeFausse.Python.Strings
import CafeFausse.Routines.BookingAnswers

/-! # Validated commands as normalized input

What the validators let through is sent to the database as text and checked there once more.
The database agrees, but for characters that no text can hold and letters without case.
-/

namespace CafeFausse.Backend

open Python Transaction Program

variable {u : Unicode} {ct : CharacterType} {payload : Payload} {field : Field} {t : Text}

section Fields

theorem encodable_of_visible {c : Codepoint} (h : Visible c) : Python.Encodable c := by
  obtain ⟨hlow, hhigh⟩ := h
  unfold Python.Encodable
  omega

/-- A normalized name passes the check of the names. -/
theorem nameCheck_joined (h : Agrees u ct) (hlength : (u.joined t).length ≤ 100)
    (halpha : (u.joined t).any u.isAlpha = true) : NameCheck ct (u.joined t) := by
  refine ⟨⟨?_, hlength⟩, (collapse_joined h).symm, ?_⟩
  · obtain ⟨c, hc, -⟩ := List.any_eq_true.mp halpha
    exact List.length_pos_of_mem hc
  · obtain ⟨c, hc, hletter⟩ := List.any_eq_true.mp halpha
    exact List.any_eq_true.mpr ⟨c, hc, (h.isAlpha c).trans hletter⟩

/-- An address in small letters passes the check of the e-mail. -/
theorem emailCheck_map (h : Agrees u ct) (haddress : IsAddress t) (hlength : t.length ≤ 254) :
    EmailCheck ct (t.map asciiLower) := by
  have hsmall := haddress.map_asciiLower
  refine ⟨⟨List.length_pos_iff.mpr hsmall.ne_nil, ?_⟩, ?_, ?_⟩
  · rw [List.length_map]
    exact hlength
  · refine (Format.trim_eq_self fun c hc => ?_).symm
    have hvisible := (hsmall.visible hc).1
    rw [beq_eq_false_iff_ne]
    rintro rfl
    exact absurd hvisible (by decide)
  · rw [CharacterType.lowerText, List.map_map]
    refine List.map_congr_left fun c hc => ?_
    have hascii : (asciiLower c).val < 0x80 := by
      have := (hsmall.visible (List.mem_map_of_mem hc)).2
      omega
    rw [Function.comp_apply, h.lower _ hascii, asciiLower_idem]

theorem sendable_of_isAddress (h : IsAddress t) : Sendable t := fun _ hc =>
  encodable_of_visible (h.visible hc)

theorem sendable_of_phoneCharacters (h : t.phoneCharacters = true) : Sendable t := by
  intro c hc
  rcases Bool.or_eq_true_iff.mp (List.all_eq_true.mp (Bool.and_eq_true_iff.mp h).2 c hc) with
    hdigit | hother
  · have hlow : 0x30 ≤ c.val := of_decide_eq_true (Bool.and_eq_true_iff.mp hdigit).1
    have hhigh : c.val ≤ 0x39 := of_decide_eq_true (Bool.and_eq_true_iff.mp hdigit).2
    exact encodable_of_visible ⟨by omega, by omega⟩
  · obtain ⟨a, ha, rfl⟩ := List.mem_map.mp (List.contains_iff_mem.mp hother)
    have hall : (" +().-".toList.all fun a => 0x20 ≤ a.toNat && a.toNat ≤ 0x7e) = true := by
      decide
    have hprintable := List.all_eq_true.mp hall a ha
    rw [Bool.and_eq_true, decide_eq_true_eq, decide_eq_true_eq] at hprintable
    unfold Python.Encodable
    simp only
    omega

/-- The name that a payload is normalized to. -/
theorem name_of_identityField {name : Text} (hf : field = .firstName ∨ field = .lastName)
    (h : identityField u payload field = some (.ok (some name))) :
    ∃ t, payload.get field.name = some (.string t) ∧ name = u.joined t ∧ name.length ≤ 100 ∧
      name.any u.isAlpha = true := by
  unfold identityField at h
  split at h
  · split at h <;> cases h
  · cases h
  · next value _ hget =>
    rw [if_pos hf] at h
    cases hname : normalizeName u field value with
    | error e =>
      rw [hname] at h
      cases h
    | ok name' =>
      rw [hname] at h
      cases h
      obtain ⟨t, rfl, hrest⟩ := normalizeName_eq_ok.mp hname
      exact ⟨t, hget, hrest⟩

theorem email_of_identityField {email : Text} (hf : field = .email ∨ field = .confirmationEmail)
    (h : identityField u payload field = some (.ok (some email))) :
    ∃ t, (u.strip t).length ≤ 254 ∧ IsAddress (u.strip t) ∧
      email = (u.strip t).map asciiLower := by
  have hne : field ≠ .firstName ∧ field ≠ .lastName ∧ field ≠ .middleInitial := by
    rcases hf with rfl | rfl <;> decide
  unfold identityField at h
  split at h
  · split at h <;> cases h
  · cases h
  · next value _ _ =>
    rw [if_neg (not_or.mpr ⟨hne.1, hne.2.1⟩), if_neg hne.2.2] at h
    cases hemail : normalizeEmail u field value with
    | error e =>
      rw [hemail] at h
      cases h
    | ok email' =>
      rw [hemail] at h
      cases h
      obtain ⟨t, -, hrest⟩ := normalizeEmail_eq_ok.mp hemail
      exact ⟨t, hrest⟩

theorem initial_of_identityField {initial : Option Text}
    (h : identityField u payload .middleInitial = some (.ok initial)) :
    ∃ t, payload.get Field.middleInitial.name = some (.string t) ∧
      (u.strip t = [] ∧ initial = none ∨
        ∃ c d, u.strip t = [c] ∧ u.isAlpha c = true ∧ u.upper c = [d] ∧ initial = some [d]) := by
  unfold identityField at h
  split at h
  · split at h <;> cases h
  · cases h
  · next value _ hget =>
    obtain ⟨t, rfl, hrest⟩ := normalizeMiddle_eq_ok.mp (Option.some_inj.mp h)
    exact ⟨t, hget, hrest⟩

theorem phone_of_phoneField {py : Interpreter} {phone : Option Text}
    (h : phoneField py payload = ([], phone)) {n : Text} (hn : n ∈ phone) :
    PhoneCheck n ∧ Sendable n := by
  unfold phoneField at h
  split at h
  · cases h
    cases hn
  · cases h
  · next value _ _ =>
    split at h
    · cases h
    · next display hdisplay =>
      cases h
      obtain rfl := Option.some_inj.mp hn
      obtain ⟨t, -, -, -, hcharacters, hdigits⟩ := normalizePhone_eq_ok.mp hdisplay
      exact ⟨⟨hcharacters, hdigits⟩, sendable_of_phoneCharacters hcharacters⟩

end Fields

section Identity

/-- The names have no character that a text cannot hold, and the upper case of the initial is an
upper-case letter. -/
def Clean (u : Unicode) (payload : Payload) : Prop :=
  (∀ field ∈ [Field.firstName, .lastName], ∀ t,
      payload.get field.name = some (.string t) → Sendable t) ∧
    ∀ t, payload.get Field.middleInitial.name = some (.string t) →
      ∀ c ∈ u.upperText (u.strip t), u.isUpper c = true

variable {identity : CustomerIdentity}

theorem sendable_of_middleInitialCheck (h : Agrees u ct) (hinitial : MiddleInitialCheck ct t) :
    Sendable t := by
  obtain ⟨c, rfl, hupper⟩ := hinitial
  intro d hd
  rw [List.mem_singleton.mp hd]
  exact u.isUpper_encodable c ((h.isUpper c).symm.trans hupper)

theorem Identifies.nameChecks (h : Agrees u ct) (hid : Identifies u payload identity) :
    NameCheck ct identity.firstName ∧ NameCheck ct identity.lastName := by
  obtain ⟨t, -, hfirst, hlength, halpha⟩ := name_of_identityField (.inl rfl) hid.firstName
  obtain ⟨t', -, hlast, hlength', halpha'⟩ := name_of_identityField (.inr rfl) hid.lastName
  rw [hfirst] at hlength halpha
  rw [hlast] at hlength' halpha'
  rw [hfirst, hlast]
  exact ⟨nameCheck_joined h hlength halpha, nameCheck_joined h hlength' halpha'⟩

theorem Identifies.emailCheck (h : Agrees u ct) (hid : Identifies u payload identity) :
    EmailCheck ct identity.email ∧ Sendable identity.email := by
  obtain ⟨t, hlength, haddress, hemail⟩ := email_of_identityField (.inl rfl) hid.email
  rw [hemail]
  exact ⟨emailCheck_map h haddress hlength, sendable_of_isAddress haddress.map_asciiLower⟩

/-- What is left to ask of an accepted identity is asked of its names and its initial. -/
theorem Identifies.clean_iff (h : Agrees u ct) (hid : Identifies u payload identity) :
    Clean u payload ↔ Sendable identity.firstName ∧ Sendable identity.lastName ∧
      ∀ i ∈ identity.middleInitial, MiddleInitialCheck ct i := by
  obtain ⟨t, hget, hfirst, -⟩ := name_of_identityField (.inl rfl) hid.firstName
  obtain ⟨t', hget', hlast, -⟩ := name_of_identityField (.inr rfl) hid.lastName
  have hnames : (∀ field ∈ [Field.firstName, .lastName], ∀ t,
      payload.get field.name = some (.string t) → Sendable t) ↔
      Sendable identity.firstName ∧ Sendable identity.lastName := by
    rw [hfirst, hlast, sendable_joined, sendable_joined]
    simp [hget, hget']
  have hinitial : (∀ t, payload.get Field.middleInitial.name = some (.string t) →
      ∀ c ∈ u.upperText (u.strip t), u.isUpper c = true) ↔
      ∀ i ∈ identity.middleInitial, MiddleInitialCheck ct i := by
    rcases hid.middleInitial with ⟨hfield, hnone⟩ | hfield
    · have hget : payload.get Field.middleInitial.name = none := by
        unfold identityField at hfield
        split at hfield
        · assumption
        · cases hfield
        · cases hfield
      rw [hget, hnone]
      constructor
      · rintro - i ⟨⟩
      · rintro - t ⟨⟩
    · obtain ⟨t, hget, hrest⟩ := initial_of_identityField hfield
      rw [hget]
      rcases hrest with ⟨hempty, hnone⟩ | ⟨c, d, hstrip, -, hupper, hsome⟩
      · rw [hnone]
        constructor
        · rintro - i ⟨⟩
        · rintro - _ ⟨⟩ c hc
          rw [hempty] at hc
          cases hc
      · have hletters : u.upperText (u.strip t) = [d] := by
          rw [hstrip, Unicode.upperText, List.flatMap_cons, List.flatMap_nil, List.append_nil, hupper]
        rw [hsome]
        constructor
        · rintro hall _ ⟨⟩
          refine ⟨d, rfl, (h.isUpper d).trans (hall t rfl d ?_)⟩
          rw [hletters]
          exact List.mem_singleton_self d
        · rintro hcheck _ ⟨⟩ c hc
          obtain ⟨d', hd, hd'⟩ := hcheck [d] rfl
          cases hd
          rw [hletters, List.mem_singleton] at hc
          rw [hc, ← h.isUpper]
          exact hd'
  exact (and_congr hnames hinitial).trans and_assoc

end Identity

section Commands

variable {env : Environment} {py : Interpreter}

/-- The texts of a command for a reservation. -/
def ReservationCommand.texts (command : ReservationCommand) : List Text :=
  [command.firstName, command.lastName, command.email] ++ command.middleInitial.toList ++
    command.phone.toList

/-- The texts of a command for a preference. -/
def NewsletterPreferenceCommand.texts (command : NewsletterPreferenceCommand) : List Text :=
  [command.firstName, command.lastName, command.email] ++ command.middleInitial.toList

/-- The database takes the command of a reservation: its texts can be sent, they pass the input
check, and no answer blames them. -/
structure TakesReservation (env : Environment) (command : ReservationCommand) : Prop where
  sendable : ∀ t ∈ command.texts, Sendable t
  input : (normalizedInput env.character command.arguments none).isSome = true
  answer : ∀ readings m, ((bookReservation env command.arguments readings).transact m).1 ≠
    .returned (.booking (refusal .invalidRequest .invalidNormalizedInput))

/-- The database takes the command of a preference. -/
structure TakesPreference (env : Environment) (command : NewsletterPreferenceCommand) : Prop where
  sendable : ∀ t ∈ command.texts, Sendable t
  input : (newsletterInput env.character command.arguments).isSome = true
  answer : ∀ m subscribed, ((setNewsletterPreference env command.arguments).transact m).1 ≠
    .returned (.newsletter .invalidRequest subscribed)

/-- The parameters of the routine for a command. -/
def ReservationCommand.request (command : ReservationCommand) : BookingRequest where
  firstName := command.firstName
  middleInitial := command.middleInitial
  lastName := command.lastName
  email := command.email
  phone := command.phone
  localStart := .finite command.localStart
  utcOffsetMinutes := command.utcOffsetMinutes
  partySize := command.partySize
  newsletterAction := command.newsletterAction

def NewsletterPreferenceCommand.request (command : NewsletterPreferenceCommand) :
    NewsletterRequest where
  firstName := command.firstName
  middleInitial := command.middleInitial
  lastName := command.lastName
  email := command.email
  subscribed := command.subscribed

theorem normalizedInput_command (command : ReservationCommand) (ct : CharacterType) :
    normalizedInput ct command.arguments none =
      if command.request.Valid ct then some command.request else none := by
  split
  · next hv => exact normalizedInput_eq_some.mpr ⟨rfl, hv, by decide⟩
  · next hv =>
    rw [Option.eq_none_iff_forall_ne_some]
    intro request hrequest
    obtain ⟨harguments, hvalid, -⟩ := normalizedInput_eq_some.mp hrequest
    have hsame : command.request = request :=
      Option.some_inj.mp ((request_eq_some.mpr rfl).symm.trans (request_eq_some.mpr harguments))
    exact hv (hsame ▸ hvalid)

theorem newsletterInput_command (command : NewsletterPreferenceCommand) (ct : CharacterType) :
    newsletterInput ct command.arguments =
      if command.request.Valid ct then some command.request else none := by
  unfold newsletterInput
  rw [show command.arguments.request = some command.request from rfl, Option.filter_some]
  simp only [decide_eq_true_eq]

theorem yields_setPreference {request : NewsletterRequest} {subscribed : Option Bool} :
    (CafeFausse.setPreference env request).Yields
      (fun answer => answer ≠ .newsletter .invalidRequest subscribed) fun _ => True := by
  unfold CafeFausse.setPreference newsletterCustomer
  refine yields_bind (yields_liftExcept fun _ _ => trivial) fun key => ?_
  refine yields_bind yields_acquire fun _ => ?_
  refine yields_bind (yields_bind yields_query fun found => ?_) fun c => ?_
  · cases found with
    | some c => trivial
    | none =>
      simp only
      split
      · exact nofun
      refine yields_bind yields_draw fun n => yields_attempt_bind (fun _ => trivial) fun _ e _ => ?_
      cases e with
      | uniqueViolation =>
        refine yields_bind yields_query fun found => ?_
        cases found <;> trivial
      | _ => trivial
  · unfold storePreference
    split
    · exact nofun
    split
    · exact nofun
    refine yields_bind (yields_execute fun _ _ _ => trivial) fun updated => ?_
    intro heq
    split at heq <;> cases heq

/-- No answer blames the input of a command that passes the check. -/
theorem answer_of_valid {command : ReservationCommand} (hv : command.request.Valid env.character)
    (readings : Readings) (m : Memory Database Sequence) :
    ((bookReservation env command.arguments readings).transact m).1 ≠
      .returned (.booking (refusal .invalidRequest .invalidNormalizedInput)) := by
  have hyields : (bookReservation env command.arguments readings).Yields
      (fun answer => answer ≠ .booking (refusal .invalidRequest .invalidNormalizedInput))
      fun _ => True := by
    unfold bookReservation bookReservationCore
    rw [if_neg (by simp), normalizedInput_command, if_pos hv]
    exact yields_bookRequest_input
  refine transact_of_wp (P := fun x => x.1 ≠ .returned (.booking (refusal .invalidRequest
    .invalidNormalizedInput))) (wp_mono (hyields.wp m) (fun x _ _ => x.elim) ?_ fun _ _ _ => nofun)
  rintro answer - hne ⟨⟩
  exact hne rfl

theorem preference_of_valid {command : NewsletterPreferenceCommand}
    (hv : command.request.Valid env.character) (m : Memory Database Sequence)
    (subscribed : Option Bool) :
    ((setNewsletterPreference env command.arguments).transact m).1 ≠
      .returned (.newsletter .invalidRequest subscribed) := by
  have hyields : (setNewsletterPreference env command.arguments).Yields
      (fun answer => answer ≠ .newsletter .invalidRequest subscribed) fun _ => True := by
    unfold setNewsletterPreference
    rw [newsletterInput_command, if_pos hv]
    exact yields_setPreference
  refine transact_of_wp (P := fun x => x.1 ≠ .returned (.newsletter .invalidRequest subscribed))
    (wp_mono (hyields.wp m) (fun x _ _ => x.elim) ?_ fun _ _ _ => nofun)
  rintro answer - hne ⟨⟩
  exact hne rfl

theorem valid_of_checks {command : ReservationCommand}
    (hnames : NameCheck ct command.firstName ∧ NameCheck ct command.lastName)
    (hemail : EmailCheck ct command.email)
    (hinitial : ∀ i ∈ command.middleInitial, MiddleInitialCheck ct i)
    (hphone : ∀ n ∈ command.phone, PhoneCheck n) : command.request.Valid ct where
  newsletterAction := command.newsletterAction_ck
  firstName := hnames.1
  lastName := hnames.2
  email := ⟨List.length_pos_iff.mp hemail.1.1, hemail.2.1, hemail.2.2, hemail.1.2⟩
  middleInitial := hinitial
  phone := hphone

theorem takesReservation_iff {command : ReservationCommand}
    (h : Agrees py.toUnicode env.character) (haccepts : Accepts py payload command) :
    TakesReservation env command ↔ Clean py.toUnicode payload := by
  obtain ⟨identity, hidentity, hfirst, hmiddle, hlast, hemail⟩ := haccepts.identity
  have hid := validateNewsletterStatusIdentity_eq_ok.mp hidentity
  obtain ⟨hname, hname'⟩ := hid.nameChecks h
  obtain ⟨hemailCheck, hemailSendable⟩ := hid.emailCheck h
  rw [hid.clean_iff h]
  constructor
  · rintro ⟨hsend, hinput, -⟩
    rw [normalizedInput_command] at hinput
    have hv : command.request.Valid env.character := by
      by_contra hnot
      rw [if_neg hnot] at hinput
      cases hinput
    refine ⟨?_, ?_, ?_⟩
    · exact hsend _ (by simp [ReservationCommand.texts, hfirst])
    · exact hsend _ (by simp [ReservationCommand.texts, hlast])
    · rw [← hmiddle]
      exact hv.middleInitial
  · rintro ⟨hsendFirst, hsendLast, hinitial⟩
    rw [← hmiddle] at hinitial
    rw [← hfirst] at hname hsendFirst
    rw [← hlast] at hname' hsendLast
    rw [← hemail] at hemailCheck hemailSendable
    have hphone (n : Text) (hn : n ∈ command.phone) := phone_of_phoneField haccepts.phone hn
    have hv : command.request.Valid env.character :=
      valid_of_checks ⟨hname, hname'⟩ hemailCheck hinitial fun n hn => (hphone n hn).1
    refine ⟨?_, ?_, answer_of_valid hv⟩
    · intro t ht
      simp only [ReservationCommand.texts, List.mem_append, List.mem_cons, List.not_mem_nil,
        or_false, Option.mem_toList] at ht
      rcases ht with ((rfl | rfl | rfl) | ht) | ht
      · exact hsendFirst
      · exact hsendLast
      · exact hemailSendable
      · exact sendable_of_middleInitialCheck h (hinitial t ht)
      · exact (hphone t ht).2
    · rw [normalizedInput_command, if_pos hv]
      rfl

theorem takesPreference_iff {identity : CustomerIdentity} {subscribed : Bool}
    (h : Agrees u env.character) (hid : Identifies u payload identity) :
    TakesPreference env (identity.preferenceCommand subscribed) ↔ Clean u payload := by
  obtain ⟨hname, hname'⟩ := hid.nameChecks h
  obtain ⟨hemail, hemailSendable⟩ := hid.emailCheck h
  rw [hid.clean_iff h]
  constructor
  · rintro ⟨hsend, hinput, -⟩
    rw [newsletterInput_command] at hinput
    have hv : (identity.preferenceCommand subscribed).request.Valid env.character := by
      by_contra hnot
      rw [if_neg hnot] at hinput
      cases hinput
    refine ⟨hsend _ ?_, hsend _ ?_, hv.middleInitial⟩
    · exact List.mem_cons_self
    · exact List.mem_cons_of_mem _ List.mem_cons_self
  · rintro ⟨hsendFirst, hsendLast, hinitial⟩
    have hv : (identity.preferenceCommand subscribed).request.Valid env.character := {
      firstName := ⟨hname.1, hname.2.1⟩
      lastName := ⟨hname'.1, hname'.2.1⟩
      email := ⟨List.length_pos_iff.mp hemail.1.1, hemail.2.1, hemail.2.2, hemail.1.2⟩
      middleInitial := hinitial }
    refine ⟨?_, ?_, preference_of_valid hv⟩
    · intro t ht
      simp only [NewsletterPreferenceCommand.texts, List.mem_append, List.mem_cons,
        List.not_mem_nil, or_false, Option.mem_toList] at ht
      rcases ht with (rfl | rfl | rfl) | ht
      · exact hsendFirst
      · exact hsendLast
      · exact hemailSendable
      · exact sendable_of_middleInitialCheck h (hinitial t ht)
    · rw [newsletterInput_command, if_pos hv]
      rfl

/-- The database takes what the validators accept exactly if the payload is clean. -/
theorem takes_iff (h : Agrees py.toUnicode env.character) (payload : Payload) :
    (∀ result command, validateReservation py payload = .ok result →
      result.value = some command →
        (TakesReservation env command ↔ Clean py.toUnicode payload)) ∧
    ∀ result command, validateNewsletterPreference py.toUnicode payload = .ok result →
      result.value = some command →
        (TakesPreference env command ↔ Clean py.toUnicode payload) := by
  constructor
  · intro result command hresult hvalue
    exact takesReservation_iff h (accepts_of_validateReservation hresult hvalue)
  · intro result command hresult hvalue
    rw [validationResult_of_value hvalue] at hresult
    obtain ⟨identity, subscribed, hid, rfl⟩ := identifies_of_validateNewsletterPreference hresult
    exact takesPreference_iff h hid

/-- A subscription under the given first name. -/
def subscription (firstName : Text) : Payload :=
  [(Field.firstName.name, .string firstName), (Field.lastName.name, .string (text "Rivera")),
    (Field.email.name, .string (text "ada@example.com")),
    (Field.confirmationEmail.name, .string (text "ada@example.com")),
    (Field.subscribed.name, .boolean true)]

theorem clean_subscription {firstName : Text} (h : Sendable firstName) :
    Clean u (subscription firstName) := by
  constructor
  · intro field hf t ht
    rcases List.mem_pair.mp hf with rfl | rfl
    · obtain rfl : firstName = t := Json.string.inj (Option.some_inj.mp ht)
      exact h
    · obtain rfl : text "Rivera" = t := Json.string.inj (Option.some_inj.mp ht)
      decide
  · rintro t ⟨⟩

/-- `Ada` and a NUL. -/
def nulName : Text := text "Ada" ++ [⟨0, by decide⟩]

theorem ascii_agrees : Agrees Interpreter.ascii.toUnicode CharacterType.ascii where
  isAlpha _ := rfl
  isUpper _ := rfl
  isSpace c h := by
    simp only [CharacterType.ascii, Bool.or_eq_true, beq_iff_eq, Bool.and_eq_true,
      decide_eq_true_eq, Fin.ext_iff, Fin.le_def] at h
    simp only [Interpreter.ascii, Unicode.ascii, Bool.or_eq_true, beq_iff_eq, Bool.and_eq_true,
      decide_eq_true_eq]
    rcases h with h | h
    · exact .inl (.inl h)
    · exact .inl (.inr h)
  lower c _ := by
    ext
    rw [asciiLower_val]
    simp only [CharacterType.ascii, Fin.le_def]
    split
    · next hletter =>
      have hlow : 0x41 ≤ c.val := hletter.1
      have hhigh : c.val ≤ 0x5a := hletter.2
      have hshift : (0x20 : Codepoint).val = 0x20 := rfl
      rw [if_pos ⟨hlow, hhigh⟩, Fin.val_add, hshift]
      omega
    · next hletter => exact (if_neg hletter).symm

theorem takes_ada : ∃ result command,
    validateNewsletterPreference Interpreter.ascii.toUnicode (subscription (text "Ada")) =
      .ok result ∧ result.value = some command ∧ TakesPreference Environment.eastern command := by
  obtain ⟨result, command, hresult, hvalue, -⟩ := exists_value (p := fun _ => true)
    (show ((validateNewsletterPreference Interpreter.ascii.toUnicode
      (subscription (text "Ada"))).toOption.bind (·.value)).any _ = true by decide +kernel)
  refine ⟨result, command, hresult, hvalue, ?_⟩
  exact ((takes_iff ascii_agrees (subscription (text "Ada"))).2 result command hresult hvalue).mpr
    (clean_subscription (by decide))

/-- The validator lets a name with a NUL pass, and it cannot be sent. -/
theorem nul_name_accepted : Agrees Interpreter.ascii.toUnicode Environment.eastern.character ∧
    ∃ result command,
      validateNewsletterPreference Interpreter.ascii.toUnicode (subscription nulName) =
        .ok result ∧ result.value = some command ∧ ∃ t ∈ command.texts, ¬ Sendable t := by
  refine ⟨ascii_agrees, ?_⟩
  obtain ⟨result, command, hresult, hvalue, htexts⟩ := exists_value
    (p := fun command : NewsletterPreferenceCommand =>
      decide (∃ t ∈ command.texts, ¬ Sendable t))
    (show ((validateNewsletterPreference Interpreter.ascii.toUnicode
      (subscription nulName)).toOption.bind (·.value)).any _ = true by decide +kernel)
  exact ⟨result, command, hresult, hvalue, of_decide_eq_true htexts⟩

end Commands

end CafeFausse.Backend
