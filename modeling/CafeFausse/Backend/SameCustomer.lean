import CafeFausse.Backend.CustomerGateway
import CafeFausse.Backend.NormalizedInput

/-! # Who a customer is

The lookup and the routines that write hold an identity against the same stored customer. They
come to the same result unless case folding and lower case part, or the input check of the
routines fails.
-/

namespace CafeFausse.Backend

open Python Transaction Program Database

variable {env : Environment} {m : Memory Database Sequence} {c : Customer}

section Writers

/-- What the answer to a preference says of the identity. -/
def preferenceStatus : Exit SqlError Answer Empty → Option NewsletterStatusOutcome
  | .returned (.newsletter .subscribed _) => some .matched
  | .returned (.newsletter .unsubscribed _) => some .matched
  | .returned (.newsletter .noCustomerNoChange _) => some .notFound
  | .returned (.newsletter .customerIdentityMismatch _) => some .customerIdentityConflict
  | .returned (.newsletter .middleInitialConflict _) => some .middleInitialConflict
  | _ => none

/-- What the answer to a booking says of the identity, if it has passed the checks of its time.
All that can go wrong after the identity says that it fits. -/
def bookingStatus : Exit SqlError Answer Empty → Option NewsletterStatusOutcome
  | .returned (.booking row) =>
    if row.outcome = .customerIdentityMismatch then some .customerIdentityConflict
    else if row.outcome = .middleInitialConflict then some .middleInitialConflict
    else if row.detailCode = some .invalidNormalizedInput then none
    else some .matched
  | .raised _ => some .matched
  | _ => none

/-- The call of `set_newsletter_preference`, which texts that cannot be sent prevent. -/
def callPreference (env : Environment) (command : NewsletterPreferenceCommand)
    (m : Memory Database Sequence) : Option (Exit SqlError Answer Empty) :=
  if ∀ t ∈ command.texts, Sendable t then
    some ((setNewsletterPreference env command.arguments).transact m).1
  else none

/-- The call of `book_reservation`. -/
def callReservation (env : Environment) (command : ReservationCommand) (readings : Readings)
    (m : Memory Database Sequence) : Option (Exit SqlError Answer Empty) :=
  if ∀ t ∈ command.texts, Sendable t then
    some ((bookReservation env command.arguments readings).transact m).1
  else none

/-- The result of the routines for a stored customer. -/
def writerStatus (ct : CharacterType) (identity : CustomerIdentity) (c : Customer) :
    NewsletterStatusOutcome :=
  identityStatus (NamesDiffer ct c identity.firstName identity.lastName)
    (InitialsConflict c.middleInitial identity.middleInitial)

theorem status_setPreference {request : NewsletterRequest} (hc : Constraints env.character m.view)
    (hm : c ∈ m.view.customers) (he : c.email = request.email)
    (hv : request.Valid env.character) :
    preferenceStatus ((CafeFausse.setPreference env request).transact m).1 =
      some (identityStatus (NamesDiffer env.character c request.firstName request.lastName)
        (InitialsConflict c.middleInitial request.middleInitial)) := by
  have hkey : ∃ key, canonicalEmailLockKey env request.email = .ok key := by
    unfold canonicalEmailLockKey
    rw [if_neg]
    · exact ⟨_, rfl⟩
    rintro (h | h | h)
    · exact hv.email.1 h
    · exact h hv.email.2.1
    · exact h hv.email.2.2.1
  obtain ⟨key, hkey⟩ := hkey
  refine transact_of_wp (P := fun x => preferenceStatus x.1 = some (identityStatus
    (NamesDiffer env.character c request.firstName request.lastName)
    (InitialsConflict c.middleInitial request.middleInitial))) ?_
  unfold CafeFausse.setPreference newsletterCustomer
  refine bind_wp (wp_liftExcept.mpr ?_)
  rw [hkey]
  refine bind_wp (wp_acquire.mpr (bind_wp (bind_wp (wp_query.mpr ?_))))
  rw [← he, customerByEmail_of_mem hc.customers_email_uq hm]
  change (storePreference env request c).wp _ _ _ m
  unfold identityStatus
  by_cases hnames : NamesDiffer env.character c request.firstName request.lastName
  · unfold storePreference
    rw [if_pos hnames, if_pos hnames]
    rfl
  rw [if_neg hnames]
  by_cases hinitials : InitialsConflict c.middleInitial request.middleInitial
  · unfold storePreference
    rw [if_neg hnames, if_pos hinitials, if_pos hinitials]
    rfl
  rw [if_neg hinitials]
  refine wp_storePreference hc hm (fun o _ hdiff => ?_) fun flag _ => ?_
  · exact (hdiff.elim hnames hinitials).elim
  · cases request.subscribed <;> rfl

variable {readings : Readings} {f : Foundation} {start : ResolvedStart}
  {hours : RestaurantOperatingHours}

/-- Whatever the block answers about a customer who fits says so. -/
theorem wp_serve_status {request : BookingRequest} {fingerprint : Bytes}
    {m : Memory Database Sequence} :
    (do
      exactRetry request start c fingerprint
      rejectOverlap request start c fingerprint
      let allocation ← allocate request f start fingerprint none readings
      writeBooking env request start none c false fingerprint allocation : Routine Empty).wp
      (fun x _ => bookingStatus (.value x) = some .matched)
      (fun answer _ => bookingStatus (.returned answer) = some .matched)
      (caught (abortHandler request start) (fun x _ => bookingStatus (.value x) = some .matched)
        (fun answer _ => bookingStatus (.returned answer) = some .matched)
        fun e _ => bookingStatus (.raised e) = some .matched) m := by
  have hallows (o : Outcome) (hmismatch : o ≠ .customerIdentityMismatch)
      (hinitial : o ≠ .middleInitialConflict) :
      Allows (fun answer => bookingStatus (.returned answer) = some .matched) o := by
    rintro row rfl hdetail
    unfold bookingStatus
    simp only
    rw [if_neg hmismatch, if_neg hinitial, if_neg (by rw [hdetail]; exact nofun)]
  refine wp_mono (Yields.wp (R := fun answer => bookingStatus (.returned answer) = some .matched)
    (E := fun e => Plain e ∨ ∃ o d, (o = .unavailable ∨ o = .invalidRequest) ∧
      d ≠ .invalidNormalizedInput ∧ e = .bookingAborted o d fingerprint)
    (yields_serve (fun _ he => .inl he) (hallows _ nofun nofun) (hallows _ nofun nofun)
      (hallows _ nofun nofun) (hallows _ nofun nofun)
      fun o d ho hd => .inr ⟨o, d, ho, hd, rfl⟩) m)
    (fun x _ _ => x.elim) (fun _ _ h => h) ?_
  rintro e m' (he | ⟨o, d, ho, hd, rfl⟩)
  · exact caught_of_plain he rfl
  · have hstatus : bookingStatus
        (.returned (.booking (abortedRow request start o d fingerprint))) = some .matched := by
      unfold bookingStatus
      simp only [abortedRow, Option.some.injEq]
      rcases ho with rfl | rfl
      · rw [if_neg nofun, if_neg nofun, if_neg hd]
      · rw [if_neg nofun, if_neg nofun, if_neg hd]
    exact hstatus

theorem status_bookRequest {request : BookingRequest} (hc : Constraints env.character m.view)
    (hm : c ∈ m.view.customers) (he : c.email = request.email) (hv : request.Valid env.character)
    (hadm : Admitted env request readings m.view f start hours) :
    bookingStatus ((bookRequest env request none none readings).transact m).1 =
      some (identityStatus (NamesDiffer env.character c request.firstName request.lastName)
        (InitialsConflict c.middleInitial request.middleInitial)) := by
  refine transact_of_wp (P := fun x => bookingStatus x.1 = some (identityStatus
    (NamesDiffer env.character c request.firstName request.lastName)
    (InitialsConflict c.middleInitial request.middleInitial))) (wp_bookRequest_admitted hadm ?_)
  unfold bookingBlock resolveCustomer
  refine bind_wp (wp_liftExcept.mpr ?_)
  rw [canonicalEmailLockKey_of_valid hv]
  refine bind_wp (wp_acquire.mpr (bind_wp (bind_wp (wp_query.mpr ?_))))
  simp only
  rw [← he, customerByEmail_of_mem hc.customers_email_uq hm]
  change (serveCustomer env request f start none none readings c false).wp _ _ _ _
  unfold serveCustomer identityStatus
  by_cases hnames : NamesDiffer env.character c request.firstName request.lastName
  · unfold checkIdentity
    rw [if_pos hnames, if_pos hnames]
    rfl
  rw [if_neg hnames]
  by_cases hinitials : InitialsConflict c.middleInitial request.middleInitial
  · unfold checkIdentity
    rw [if_neg hnames, if_pos hinitials, if_pos hinitials]
    rfl
  rw [if_neg hinitials]
  refine bind_wp (wp_checkIdentity (fun _ _ => ?_) fun o _ hdiff => ?_)
  · exact wp_serve_status
  · exact (hdiff.elim hnames hinitials).elim

end Writers

section Agreement

variable {py : Interpreter} {u : Unicode} {payload : Payload} {identity : CustomerIdentity}
  {status : NewsletterStatusOutcome}

/-- A preference is held against the stored customer if the database takes it. -/
theorem status_callPreference (h : Agrees u env.character)
    (hc : Constraints env.character m.view) (hm : c ∈ m.view.customers)
    (hid : Identifies u payload identity) (he : c.email = identity.email) (subscribed : Bool) :
    (callPreference env (identity.preferenceCommand subscribed) m).bind preferenceStatus =
      some status ↔ Clean u payload ∧ writerStatus env.character identity c = status := by
  have htakes : TakesPreference env (identity.preferenceCommand subscribed) ↔ Clean u payload :=
    takesPreference_iff h hid
  unfold callPreference
  by_cases hsend : ∀ t ∈ (identity.preferenceCommand subscribed).texts, Sendable t
  · rw [if_pos hsend, Option.bind_some]
    by_cases hv : (identity.preferenceCommand subscribed).request.Valid env.character
    · have hclean := htakes.mp ⟨hsend, by rw [newsletterInput_command, if_pos hv]; rfl,
        preference_of_valid hv⟩
      unfold setNewsletterPreference
      rw [newsletterInput_command, if_pos hv]
      simp only
      rw [status_setPreference hc hm he hv, Option.some_inj]
      exact (and_iff_right hclean).symm
    · constructor
      · intro hstatus
        unfold setNewsletterPreference at hstatus
        rw [newsletterInput_command, if_neg hv] at hstatus
        cases hstatus
      · rintro ⟨hclean, -⟩
        have hinput := (htakes.mpr hclean).input
        rw [newsletterInput_command, if_neg hv] at hinput
        cases hinput
  · rw [if_neg hsend]
    constructor
    · rintro ⟨⟩
    · rintro ⟨hclean, -⟩
      exact absurd (htakes.mpr hclean).sendable hsend

/-- So is a booking that has passed the checks of its time. -/
theorem status_callReservation {command : ReservationCommand} {readings : Readings}
    {f : Foundation} {start : ResolvedStart} {hours : RestaurantOperatingHours}
    (h : Agrees py.toUnicode env.character) (hc : Constraints env.character m.view)
    (hm : c ∈ m.view.customers) (haccepts : Accepts py payload command)
    (he : c.email = command.email)
    (hadm : Admitted env command.request readings m.view f start hours) :
    (callReservation env command readings m).bind bookingStatus = some status ↔
      Clean py.toUnicode payload ∧
        identityStatus (NamesDiffer env.character c command.firstName command.lastName)
          (InitialsConflict c.middleInitial command.middleInitial) = status := by
  have htakes := takesReservation_iff h haccepts
  unfold callReservation
  by_cases hsend : ∀ t ∈ command.texts, Sendable t
  · rw [if_pos hsend, Option.bind_some]
    by_cases hv : command.request.Valid env.character
    · have hclean := htakes.mp ⟨hsend, by rw [normalizedInput_command, if_pos hv]; rfl,
        answer_of_valid hv⟩
      unfold bookReservation bookReservationCore
      rw [if_neg (by simp), normalizedInput_command, if_pos hv]
      simp only
      rw [status_bookRequest hc hm he hv hadm, Option.some_inj]
      exact (and_iff_right hclean).symm
    · constructor
      · intro hstatus
        unfold bookReservation bookReservationCore at hstatus
        rw [if_neg (by simp), normalizedInput_command, if_neg hv] at hstatus
        cases hstatus
      · rintro ⟨hclean, -⟩
        have hinput := (htakes.mpr hclean).input
        rw [normalizedInput_command, if_neg hv] at hinput
        cases hinput
  · rw [if_neg hsend]
    constructor
    · rintro ⟨⟩
    · rintro ⟨hclean, -⟩
      exact absurd (htakes.mpr hclean).sendable hsend

/-- The identity of a command. -/
def ReservationCommand.customerIdentity (command : ReservationCommand) : CustomerIdentity where
  firstName := command.firstName
  middleInitial := command.middleInitial
  lastName := command.lastName
  email := command.email

/-- The names agree by case folding if and only if they agree in lower case, and if they do, then
initials that agree by case folding are the same. -/
structure SameCase (u : Unicode) (ct : CharacterType) (identity : CustomerIdentity)
    (c : Customer) : Prop where
  names : FoldedNamesDiffer u identity c.firstName c.lastName ↔
    NamesDiffer ct c identity.firstName identity.lastName
  initials : ¬ FoldedNamesDiffer u identity c.firstName c.lastName →
    ∀ s ∈ c.middleInitial, ∀ g ∈ identity.middleInitial,
      u.casefoldText s = u.casefoldText g → s = g

theorem sameCase_iff {ct : CharacterType} : SameCase u ct identity c ↔
    identityStatus (FoldedNamesDiffer u identity c.firstName c.lastName)
        (FoldedInitialsConflict u c.middleInitial identity.middleInitial) =
      writerStatus ct identity c := by
  have hinitials : (FoldedInitialsConflict u c.middleInitial identity.middleInitial ↔
      InitialsConflict c.middleInitial identity.middleInitial) ↔
      ∀ s ∈ c.middleInitial, ∀ g ∈ identity.middleInitial,
        u.casefoldText s = u.casefoldText g → s = g := by
    constructor
    · intro hiff s hs g hg heq
      by_contra hne
      obtain ⟨s', hs', g', hg', hne'⟩ := hiff.mpr ⟨s, hs, g, hg, hne⟩
      cases Option.mem_unique hs hs'
      cases Option.mem_unique hg hg'
      exact hne' heq
    · intro hsame
      constructor
      · rintro ⟨s, hs, g, hg, hne⟩
        exact ⟨s, hs, g, hg, fun heq => hne (congrArg u.casefoldText heq)⟩
      · rintro ⟨s, hs, g, hg, hne⟩
        exact ⟨s, hs, g, hg, fun heq => hne (hsame s hs g hg heq)⟩
  unfold writerStatus
  rw [identityStatus_eq_iff]
  constructor
  · rintro ⟨hnames, hsame⟩
    exact ⟨hnames, fun hfold => hinitials.mpr (hsame hfold)⟩
  · rintro ⟨hnames, hsame⟩
    exact ⟨hnames, fun hfold => hinitials.mp (hsame hfold)⟩

/-- The writers come to the status on the identity, with every command that has it. -/
structure WritersAgree (env : Environment) (py : Interpreter) (m : Memory Database Sequence)
    (identity : CustomerIdentity) (status : NewsletterStatusOutcome) : Prop where
  preference : ∀ subscribed, (callPreference env (identity.preferenceCommand subscribed) m).bind
    preferenceStatus = some status
  booking : ∀ payload command readings f start hours,
    validateReservation py payload = .ok ⟨some command, [], rfl⟩ →
    command.customerIdentity = identity →
    Admitted env command.request readings m.view f start hours →
    (callReservation env command readings m).bind bookingStatus = some status

theorem Accepts.identifies {command : ReservationCommand} (h : Accepts py payload command) :
    Identifies py.toUnicode payload command.customerIdentity := by
  obtain ⟨⟨firstName, middleInitial, lastName, email⟩, hidentity, hfirst, hmiddle, hlast, hemail⟩ :=
    h.identity
  rw [← validateNewsletterStatusIdentity_eq_ok, hidentity, ReservationCommand.customerIdentity,
    hfirst, hmiddle, hlast, hemail]

/-- The payloads of one identity are clean together. -/
theorem Identifies.clean_congr {ct : CharacterType} {other : Payload} (h : Agrees u ct)
    (hid : Identifies u payload identity) (hother : Identifies u other identity) :
    Clean u payload ↔ Clean u other :=
  (hid.clean_iff h).trans (hother.clean_iff h).symm

/-- The lookup and the writers agree on a stored customer exactly if the payload is clean and
lower case and case folding do not part. -/
theorem lookup_agrees_iff (h : Agrees py.toUnicode env.character)
    (hc : Constraints env.character m.view) (hm : c ∈ m.view.customers)
    (hidentity : validateNewsletterStatusIdentity py.toUnicode payload =
      .ok ⟨some identity, [], rfl⟩) (he : c.email = identity.email) :
    (∃ result, getNewsletterStatus py.toUnicode m.view identity = .ok result ∧
        WritersAgree env py m identity result.outcome) ↔
      Clean py.toUnicode payload ∧ SameCase py.toUnicode env.character identity c := by
  have hid := validateNewsletterStatusIdentity_eq_ok.mp hidentity
  obtain ⟨result, hresult, houtcome⟩ := getNewsletterStatus_of_mem (u := py.toUnicode) hc hm he
  rw [sameCase_iff, ← houtcome]
  constructor
  · rintro ⟨result', hresult', hagree⟩
    cases hresult.symm.trans hresult'
    obtain ⟨hclean, hstatus⟩ :=
      (status_callPreference h hc hm hid he true).mp (hagree.preference true)
    exact ⟨hclean, hstatus.symm⟩
  · rintro ⟨hclean, hstatus⟩
    refine ⟨result, hresult, ?_, ?_⟩
    · intro subscribed
      exact (status_callPreference h hc hm hid he subscribed).mpr ⟨hclean, hstatus.symm⟩
    · intro payload' command readings f start hours hvalidated hcommand hadm
      have haccepts := validateReservation_eq_ok.mp hvalidated
      subst hcommand
      refine (status_callReservation h hc hm haccepts he hadm).mpr ⟨?_, hstatus.symm⟩
      exact (hid.clean_congr h haccepts.identifies).mp hclean

end Agreement

section SharpS

/-- The characters of ASCII and the sharp s, which is its own lower case. -/
def sharpCharacters : CharacterType := { CharacterType.ascii with isAlpha := Unicode.sharpS.isAlpha }

def sharpEnvironment : Environment := { Environment.eastern with character := sharpCharacters }

def sharpInterpreter : Interpreter := { Interpreter.ascii with toUnicode := .sharpS }

theorem sharp_agrees : Agrees sharpInterpreter.toUnicode sharpEnvironment.character where
  isAlpha _ := rfl
  isUpper _ := rfl
  isSpace := ascii_agrees.isSpace
  lower := ascii_agrees.lower

/-- A customer of that first name. -/
def riveraCustomer (firstName : Text) : Customer where
  customerId := 1
  firstName
  middleInitial := none
  lastName := text "Rivera"
  email := text "ada@example.com"
  phone := none
  newsletterSubscribed := true

/-- The one customer of the seeded database. -/
def riveraMemory (firstName : Text) : Memory Database Sequence :=
  ⟨seed.addCustomer (riveraCustomer firstName), [], fun _ i => i + 2⟩

theorem riveraMemory_constraints {firstName : Text}
    (h : NameCheck sharpCharacters firstName) :
    Constraints sharpEnvironment.character (riveraMemory firstName).view := by
  refine (constraints_seed _).addCustomer ?_ fun c hc => ?_
  · constructor
    · exact h
    · rintro _ ⟨⟩
    · show NameCheck sharpCharacters (text "Rivera")
      decide +kernel
    · show EmailCheck sharpCharacters (text "ada@example.com")
      decide +kernel
    · rintro _ ⟨⟩
  · cases hc

/-- What the validator makes of a subscription. -/
def riveraIdentity (firstName : Text) : CustomerIdentity :=
  ⟨firstName, none, text "Rivera", text "ada@example.com"⟩

/-- A name that passes is kept. -/
theorem subscription_accepted {firstName : Text}
    (h : normalizeName Unicode.sharpS .firstName (.string firstName) = .ok firstName) :
    validateNewsletterStatusIdentity sharpInterpreter.toUnicode (subscription firstName) =
      .ok ⟨some (riveraIdentity firstName), [], rfl⟩ := by
  refine validateNewsletterStatusIdentity_eq_ok.mpr ⟨?_, .inl ⟨rfl, rfl⟩, ?_, ?_, ?_⟩
  · show some ((normalizeName Unicode.sharpS .firstName (.string firstName)).map some) = _
    rw [h]
    rfl
  · show some ((normalizeName Unicode.sharpS .lastName (.string (text "Rivera"))).map some) =
      some (.ok (some (text "Rivera")))
    decide +kernel
  · show some ((normalizeEmail Unicode.sharpS .email (.string (text "ada@example.com"))).map some) =
      some (.ok (some (text "ada@example.com")))
    decide +kernel
  · show some ((normalizeEmail Unicode.sharpS .confirmationEmail
      (.string (text "ada@example.com"))).map some) = some (.ok (some (text "ada@example.com")))
    decide +kernel

theorem lookup_agrees_ada :
    ∃ result, getNewsletterStatus sharpInterpreter.toUnicode (riveraMemory (text "Ada")).view
        (riveraIdentity (text "ADA")) = .ok result ∧
      WritersAgree sharpEnvironment sharpInterpreter (riveraMemory (text "Ada"))
        (riveraIdentity (text "ADA")) result.outcome := by
  have haccepted := subscription_accepted (show normalizeName Unicode.sharpS .firstName
    (.string (text "ADA")) = .ok (text "ADA") by decide +kernel)
  refine (lookup_agrees_iff (c := riveraCustomer (text "Ada")) sharp_agrees
    (riveraMemory_constraints (by decide +kernel)) (List.mem_singleton_self _) haccepted rfl).mpr
      ⟨clean_subscription (by decide), ?_, ?_⟩
  · decide +kernel
  · rintro - s ⟨⟩

/-- The lookup takes `STRASSE` for the stored name, and the writers do not. -/
theorem strasse_matched_and_refused :
    Agrees sharpInterpreter.toUnicode sharpEnvironment.character ∧
      Constraints sharpEnvironment.character (riveraMemory (text "Straße")).view ∧
      validateNewsletterStatusIdentity sharpInterpreter.toUnicode (subscription (text "STRASSE")) =
        .ok ⟨some (riveraIdentity (text "STRASSE")), [], rfl⟩ ∧
      (∃ result, getNewsletterStatus sharpInterpreter.toUnicode (riveraMemory (text "Straße")).view
        (riveraIdentity (text "STRASSE")) = .ok result ∧ result.outcome = .matched) ∧
      (callPreference sharpEnvironment ((riveraIdentity (text "STRASSE")).preferenceCommand true)
        (riveraMemory (text "Straße"))).bind preferenceStatus = some .customerIdentityConflict := by
  have hc := riveraMemory_constraints (show NameCheck sharpCharacters (text "Straße") by
    decide +kernel)
  have he : (riveraCustomer (text "Straße")).email = (riveraIdentity (text "STRASSE")).email := rfl
  refine ⟨sharp_agrees, hc, subscription_accepted (by decide +kernel), ?_, by decide +kernel⟩
  obtain ⟨result, hresult, houtcome⟩ := getNewsletterStatus_of_mem
    (u := sharpInterpreter.toUnicode) hc (List.mem_singleton_self _) he
  exact ⟨result, hresult, houtcome.trans (by decide +kernel)⟩

end SharpS

end CafeFausse.Backend
