import CafeFausse.Backend.Accepted
import CafeFausse.Backend.Normalized
import CafeFausse.Frontend.Identity
import CafeFausse.Python.Datetimes
import CafeFausse.Python.Strings

/-! # The forms against the server

What passes the checks of the forms also passes those of the server, one letter apart: a letter
whose upper case is not one character.
-/

namespace CafeFausse.Frontend

open Python

variable {b : Browser} {u : Unicode} {values : Identity} {value phone : Text}

/-- The browser and the interpreter know the same letters, none of which is a space, and write
the letters of ASCII small in the same way. -/
structure Browser.AgreesWith (b : Browser) (u : Unicode) : Prop where
  isLetter : ∀ c, b.isLetter c = u.isAlpha c
  isSpace : ∀ c, u.isAlpha c = true → u.isSpace c = false
  toLowerCase : ∀ t : Text, (∀ c ∈ t, c.val < 0x80) → b.toLowerCase t = t.map asciiLower

section Payload

/-- The members of an identity body. -/
def IdentityBody.payload (body : IdentityBody) : Payload :=
  (Backend.Field.firstName.name, .string body.firstName) ::
    (body.middleInitial.toList.map fun t => (Backend.Field.middleInitial.name, Json.string t)) ++
    [(Backend.Field.lastName.name, .string body.lastName),
      (Backend.Field.email.name, .string body.email),
      (Backend.Field.confirmationEmail.name, .string body.confirmationEmail)]

/-- The identity that the server makes of a body. -/
def IdentityBody.customer (u : Unicode) (body : IdentityBody) : Backend.CustomerIdentity where
  firstName := u.joined body.firstName
  middleInitial := body.middleInitial.map u.upperText
  lastName := u.joined body.lastName
  email := body.email

/-- The identity of a form and its trimmed phone, which is left out if it is empty. -/
def formPayload (b : Browser) (values : Identity) (phone : Text) : Payload :=
  (identityBody b values).payload ++
    if b.trim phone = [] then [] else [(Backend.Field.phone.name, .string (b.trim phone))]

theorem name_injective : Function.Injective Backend.Field.name := by
  intro f f' h
  cases f <;> cases f' <;> first | rfl | exact absurd h (by decide)

theorem get_cons (f f' : Backend.Field) (v : Json) (rest : Payload) :
    Payload.get ((f.name, v) :: rest) f'.name = if f = f' then some v else rest.get f'.name := by
  unfold Payload.get
  by_cases h : f = f'
  · rw [if_pos h, List.find?_cons_of_pos (by simp [h])]
    rfl
  · rw [if_neg h, List.find?_cons_of_neg (by simpa using fun hname => h (name_injective hname))]

/-- What the server reads of a form. -/
theorem get_formPayload (b : Browser) (values : Identity) (phone : Text) (f : Backend.Field) :
    (formPayload b values phone).get f.name = match f with
    | .firstName => some (.string (normalizeName b values.firstName))
    | .middleInitial => if b.trim values.middleInitial = [] then none
      else some (.string (b.trim values.middleInitial))
    | .lastName => some (.string (normalizeName b values.lastName))
    | .email => some (.string (normalizeEmail b values.email))
    | .confirmationEmail => some (.string (normalizeEmail b values.confirmationEmail))
    | .phone => if b.trim phone = [] then none else some (.string (b.trim phone))
    | _ => none := by
  unfold formPayload IdentityBody.payload identityBody
  by_cases hmiddle : b.trim values.middleInitial = [] <;>
  by_cases hphone : b.trim phone = [] <;>
  simp only [hmiddle, hphone, if_true, if_false, Option.toList_none, Option.toList_some,
    List.map_nil, List.map_cons, List.nil_append, List.cons_append, get_cons] <;>
  cases f <;> rfl

end Payload

section Fields

theorem length_le_utf16Length (t : Text) : t.length ≤ utf16Length t := by
  induction t with
  | nil => exact le_rfl
  | cons c t ih =>
    simp only [utf16Length, List.map_cons, List.sum_cons, List.length_cons] at ih ⊢
    split <;> omega

theorem nameError_eq_none : nameError b value = none ↔
    (normalizeName b value).length ≤ 100 ∧ (normalizeName b value).any b.isLetter = true := by
  unfold nameError
  simp only
  constructor
  · intro h
    split at h
    · cases h
    split at h
    · cases h
    · next hrest =>
      obtain ⟨hlength, hletter⟩ := not_or.mp hrest
      exact ⟨not_lt.mp hlength, not_not.mp hletter⟩
  · rintro ⟨hlength, hletter⟩
    have hne : normalizeName b value ≠ [] := by
      intro h
      rw [h] at hletter
      cases hletter
    rw [if_neg hne, if_neg (not_or.mpr ⟨not_lt.mpr hlength, not_not.mpr hletter⟩)]

theorem middleInitialError_eq_none : middleInitialError b value = none ↔
    b.trim value = [] ∨ ∃ c, b.trim value = [c] ∧ b.isLetter c = true := by
  unfold middleInitialError
  rcases b.trim value with - | ⟨c, - | ⟨c', rest⟩⟩
  · simp
  · by_cases hc : b.isLetter c = true <;> simp [hc]
  · simp

/-- The address in a form that is valid there. -/
theorem isAddress_of_isValidEmail (h : isValidEmail b value = true) :
    (b.trim value).length ≤ 254 ∧ IsAddress (b.trim value) := by
  unfold isValidEmail at h
  simp only at h
  split at h
  · cases h
  · next hshape =>
    split at h
    · next localPart domain hsplit =>
      obtain ⟨hlocal, hlabels⟩ := Bool.and_eq_true_iff.mp h
      have hlength : utf16Length (b.trim value) ≤ 254 := not_lt.mp (not_or.mp (not_or.mp hshape).2).1
      refine ⟨(length_le_utf16Length _).trans hlength, localPart, domain, hsplit, hlocal, ?_⟩
      exact List.all_eq_true.mpr fun label hlabel =>
        (Bool.and_eq_true_iff.mp (List.all_eq_true.mp hlabels label hlabel)).2
    · cases h

theorem isValidEmail_of_emailError (h : emailError b value = none) :
    isValidEmail b value = true := by
  unfold emailError at h
  split at h
  · cases h
  split at h
  · cases h
  · next hvalid => exact not_not.mp hvalid

theorem isValidEmail_of_confirmationEmailError {email : Text}
    (h : confirmationEmailError b email value = none) : isValidEmail b value = true ∧
      (isValidEmail b email = true → normalizeEmail b email = normalizeEmail b value) := by
  unfold confirmationEmailError at h
  split at h
  · cases h
  split at h
  · cases h
  split at h
  · cases h
  · next hvalid hmatch =>
    exact ⟨not_not.mp hvalid, fun hemail => not_not.mp fun hne => hmatch ⟨hemail, hne⟩⟩

theorem phone_of_phoneError (h : phoneError b value = none) : value = [] ∨
    (b.trim value).length ≤ 32 ∧ (b.trim value).phoneCharacters = true ∧
      7 ≤ (b.trim value).digits.length ∧ (b.trim value).digits.length ≤ 15 := by
  unfold phoneError at h
  simp only at h
  split at h
  · next hempty => exact .inl hempty
  split at h
  · cases h
  · next hrest =>
    obtain ⟨hlength, hrest⟩ := not_or.mp hrest
    obtain ⟨hcharacters, hrest⟩ := not_or.mp hrest
    obtain ⟨hfew, hmany⟩ := not_or.mp hrest
    exact .inr ⟨(length_le_utf16Length _).trans (not_lt.mp hlength), not_not.mp hcharacters,
      not_lt.mp hfew, not_lt.mp hmany⟩

/-- A form without errors has none in any field. -/
theorem errors_eq_none (h : validateIdentity b values (some phone) = []) :
    nameError b values.firstName = none ∧ nameError b values.lastName = none ∧
      middleInitialError b values.middleInitial = none ∧ emailError b values.email = none ∧
      confirmationEmailError b values.email values.confirmationEmail = none ∧
      phoneError b phone = none := by
  simpa only [validateIdentity, List.filterMap_eq_nil_iff, List.forall_mem_cons,
    List.not_mem_nil, false_imp_iff, implies_true, and_true, Option.map_eq_none_iff,
    Option.bind_some] using h

end Fields

section Server

theorem identityField_of_string {payload : Payload} {field : Backend.Field} {t : Text}
    (h : payload.get field.name = some (.string t)) : Backend.identityField u payload field =
      some (if field = .firstName ∨ field = .lastName then
          (Backend.normalizeName u field (.string t)).map some
        else if field = .middleInitial then Backend.normalizeMiddle u (.string t)
        else (Backend.normalizeEmail u field (.string t)).map some) := by
  unfold Backend.identityField
  rw [h]

/-- A letter stands in a word, and the words are no longer than the text. -/
theorem normalizeName_of_nameError (hb : b.AgreesWith u) (h : nameError b value = none)
    (field : Backend.Field) : Backend.normalizeName u field (.string (normalizeName b value)) =
      .ok (u.joined (normalizeName b value)) := by
  obtain ⟨hlength, hletter⟩ := nameError_eq_none.mp h
  obtain ⟨c, hc, hcletter⟩ := List.any_eq_true.mp hletter
  rw [hb.isLetter] at hcletter
  obtain ⟨w, hw, hcw⟩ := exists_mem_split hc (hb.isSpace c hcletter)
  refine Backend.normalizeName_eq_ok.mpr ⟨_, rfl, rfl, ?_, ?_⟩
  · exact (Format.length_words_le blank u.isSpace _).trans hlength
  · exact List.any_eq_true.mpr ⟨c, mem_intercalate_of_mem hw hcw, hcletter⟩

/-- An address that a form sends comes back as it is. -/
theorem normalizeEmail_of_isValidEmail (hb : b.AgreesWith u) (h : isValidEmail b value = true)
    (field : Backend.Field) : Backend.normalizeEmail u field (.string (normalizeEmail b value)) =
      .ok (normalizeEmail b value) := by
  obtain ⟨hlength, haddress⟩ := isAddress_of_isValidEmail h
  have hlower : normalizeEmail b value = (b.trim value).map asciiLower :=
    hb.toLowerCase _ fun c hc => by
      have := (haddress.visible hc).2
      omega
  have hstrip : u.strip (normalizeEmail b value) = normalizeEmail b value := by
    rw [hlower, Backend.strip_of_isAddress haddress.map_asciiLower]
  refine Backend.normalizeEmail_eq_ok.mpr ⟨_, rfl, ?_, ?_, ?_⟩
  · rw [hstrip, hlower, List.length_map]
    exact hlength
  · rw [hstrip, hlower]
    exact haddress.map_asciiLower
  · rw [hstrip, hlower, List.map_map]
    exact List.map_congr_left fun c _ => (asciiLower_idem c).symm

theorem normalizePhone_of_phoneError (h : phoneError b value = none) (hne : b.trim value ≠ []) :
    Backend.normalizePhone u (.string (b.trim value)) = .ok (u.strip (b.trim value)) := by
  rcases phone_of_phoneError h with rfl | ⟨hlength, hcharacters, hdigits⟩
  · exact absurd rfl hne
  have hsublist := Format.trim_sublist u.isSpace (b.trim value)
  have hsame : (u.strip (b.trim value)).digits = (b.trim value).digits := by
    refine Format.filter_trim fun c hc => Bool.eq_false_iff.mpr fun hdigit => ?_
    have hlow : 0x30 ≤ c.val := of_decide_eq_true (Bool.and_eq_true_iff.mp hdigit).1
    have hhigh : c.val ≤ 0x39 := of_decide_eq_true (Bool.and_eq_true_iff.mp hdigit).2
    rw [Backend.isSpace_of_visible ⟨by omega, by omega⟩] at hc
    cases hc
  refine Backend.normalizePhone_eq_ok.mpr ⟨_, rfl, rfl, ?_, ?_, ?_⟩
  · exact hsublist.length_le.trans hlength
  · have hsome : u.strip (b.trim value) ≠ [] := by
      intro hempty
      rw [← hsame, hempty] at hdigits
      exact absurd hdigits.1 (by decide)
    refine Bool.and_eq_true_iff.mpr ⟨?_, List.all_eq_true.mpr fun c hc => ?_⟩
    · simpa using hsome
    · exact List.all_eq_true.mp (Bool.and_eq_true_iff.mp hcharacters).2 c (hsublist.subset hc)
  · rw [hsame]
    exact hdigits

theorem strip_letter (hb : b.AgreesWith u) {c : Codepoint} (h : b.isLetter c = true) :
    u.strip [c] = [c] := by
  refine Format.trim_eq_self fun x hx => ?_
  rw [List.mem_singleton.mp hx]
  exact hb.isSpace c (hb.isLetter c ▸ h)

theorem upperText_singleton (u : Unicode) (c : Codepoint) : u.upperText [c] = u.upper c := by
  rw [Unicode.upperText, List.flatMap_cons, List.flatMap_nil, List.append_nil]

/-- A letter whose upper case is one character is kept as that. -/
theorem normalizeMiddle_upper (hb : b.AgreesWith u) {c : Codepoint} (h : b.isLetter c = true)
    (hone : (u.upperText [c]).length = 1) :
    Backend.normalizeMiddle u (.string [c]) = .ok (some (u.upperText [c])) := by
  obtain ⟨d, hd⟩ := List.length_eq_one_iff.mp hone
  rw [hd]
  refine Backend.normalizeMiddle_eq_ok.mpr ⟨_, rfl, .inr ⟨c, d, strip_letter hb h, ?_, ?_, rfl⟩⟩
  · rw [← hb.isLetter, h]
  · rw [← upperText_singleton, hd]

/-- A letter is accepted as an initial if its upper case is one character. -/
theorem normalizeMiddle_letter (hb : b.AgreesWith u) {c : Codepoint} (h : b.isLetter c = true) :
    (∃ initial, Backend.normalizeMiddle u (.string [c]) = .ok initial) ↔
      (u.upperText [c]).length = 1 := by
  constructor
  · rintro ⟨initial, hinitial⟩
    obtain ⟨t, ht, hkept⟩ := Backend.normalizeMiddle_eq_ok.mp hinitial
    cases ht
    rw [strip_letter hb h] at hkept
    rcases hkept with ⟨hnil, -⟩ | ⟨c', d, hc, -, hd, -⟩
    · cases hnil
    · cases hc
      rw [upperText_singleton, hd]
      rfl
  · exact fun hone => ⟨_, normalizeMiddle_upper hb h hone⟩

/-- The form has no initial, or one whose upper case is a single character. -/
def InitialFits (b : Browser) (u : Unicode) (values : Identity) : Prop :=
  b.trim values.middleInitial = [] ∨ (u.upperText (b.trim values.middleInitial)).length = 1

instance : Decidable (InitialFits b u values) := instDecidableOr

theorem initialFits_of_identifies (hb : b.AgreesWith u)
    (h : middleInitialError b values.middleInitial = none) {identity : Backend.CustomerIdentity}
    (hidentity : Backend.Identifies u (formPayload b values phone) identity) :
    InitialFits b u values := by
  rcases middleInitialError_eq_none.mp h with hempty | ⟨c, hc, hletter⟩
  · exact .inl hempty
  have hget := get_formPayload b values phone .middleInitial
  simp only [hc, List.cons_ne_nil, if_false] at hget
  have hfield := identityField_of_string (u := u) hget
  simp only [reduceCtorEq, or_self, if_false, if_true] at hfield
  right
  rw [hc, ← normalizeMiddle_letter hb hletter]
  rcases hidentity.middleInitial with ⟨hnone, -⟩ | hok
  · rw [hfield] at hnone
    cases hnone
  · rw [hfield] at hok
    exact ⟨_, Option.some_inj.mp hok⟩

/-- The server makes of a form the identity that its body names. -/
theorem identifies_formPayload (hb : b.AgreesWith u)
    (h : validateIdentity b values (some phone) = []) (hfits : InitialFits b u values) :
    Backend.Identifies u (formPayload b values phone) ((identityBody b values).customer u) := by
  obtain ⟨hfirst, hlast, hmiddle, hemail, hconfirmation, -⟩ := errors_eq_none h
  have hvalid := isValidEmail_of_emailError hemail
  obtain ⟨hconfirmed, hmatch⟩ := isValidEmail_of_confirmationEmailError hconfirmation
  have field (f : Backend.Field) := get_formPayload b values phone f
  constructor
  · rw [identityField_of_string (field .firstName), if_pos (.inl rfl),
      normalizeName_of_nameError hb hfirst]
    rfl
  · have hget := field .middleInitial
    unfold IdentityBody.customer identityBody
    rcases middleInitialError_eq_none.mp hmiddle with hempty | ⟨c, hc, hletter⟩
    · simp only [hempty, if_true] at hget
      refine .inl ⟨?_, by simp only [hempty, if_true, Option.map_none]⟩
      unfold Backend.identityField
      rw [hget]
      rfl
    · simp only [hc, List.cons_ne_nil, if_false] at hget
      have hone : (u.upperText [c]).length = 1 := by
        rcases hfits with hempty | hone
        · rw [hc] at hempty
          cases hempty
        · rwa [hc] at hone
      refine .inr ?_
      simp only [hc, List.cons_ne_nil, if_false, Option.map_some]
      rw [identityField_of_string hget, ← normalizeMiddle_upper hb hletter hone]
      rfl
  · rw [identityField_of_string (field .lastName), if_pos (.inr rfl),
      normalizeName_of_nameError hb hlast]
    rfl
  · rw [identityField_of_string (field .email), if_neg (by decide), if_neg (by decide),
      normalizeEmail_of_isValidEmail hb hvalid]
    rfl
  · rw [identityField_of_string (field .confirmationEmail), if_neg (by decide),
      if_neg (by decide), normalizeEmail_of_isValidEmail hb hconfirmed, ← hmatch hvalid]
    rfl

/-- What a form without errors sends is accepted by the server exactly if its initial fits. The
server then keeps the address as the form sends it. -/
theorem server_accepts_iff (hb : b.AgreesWith u)
    (h : validateIdentity b values (some phone) = []) :
    ((∃ identity, Backend.validateNewsletterStatusIdentity u (formPayload b values phone) =
        .ok ⟨some identity, [], rfl⟩ ∧ identity.email = normalizeEmail b values.email) ∧
      ∀ value ∈ (formPayload b values phone).get Backend.Field.phone.name,
        ∃ display, Backend.normalizePhone u value = .ok display) ↔
      InitialFits b u values := by
  constructor
  · rintro ⟨⟨identity, hidentity, -⟩, -⟩
    exact initialFits_of_identifies hb (errors_eq_none h).2.2.1
      (Backend.validateNewsletterStatusIdentity_eq_ok.mp hidentity)
  · intro hfits
    have hidentity := identifies_formPayload hb h hfits
    refine ⟨⟨_, Backend.validateNewsletterStatusIdentity_eq_ok.mpr hidentity, rfl⟩, ?_⟩
    intro value hvalue
    have hget := get_formPayload b values phone .phone
    rw [Option.mem_def.mp hvalue] at hget
    by_cases hempty : b.trim phone = []
    · simp only [hempty, if_true] at hget
      cases hget
    · simp only [hempty, if_false] at hget
      cases hget
      exact ⟨_, normalizePhone_of_phoneError (errors_eq_none h).2.2.2.2.2 hempty⟩

end Server

section SharpS

/-- A browser that knows the letters of ASCII and the sharp s. -/
def Browser.sharpS : Browser where
  isSpace := CharacterType.ascii.isSpace
  isLetter := Unicode.sharpS.isAlpha
  toLowerCase t := t.map asciiLower
  number := Browser.ascii.number

theorem sharpS_agrees : Browser.sharpS.AgreesWith Unicode.sharpS where
  isLetter _ := rfl
  isSpace c h := by
    simp only [Unicode.sharpS, isAsciiLetter, Bool.or_eq_true, Bool.and_eq_true,
      decide_eq_true_eq, beq_iff_eq] at h
    simp only [Unicode.sharpS, Unicode.ascii, Bool.or_eq_false_iff, beq_eq_false_iff_ne,
      Bool.and_eq_false_iff, decide_eq_false_iff_not]
    omega
  toLowerCase _ _ := rfl

/-- A form with the initial `c`. -/
def adaRivera (c : Codepoint) : Identity where
  firstName := text "Ada"
  middleInitial := [c]
  lastName := text "Rivera"
  email := text "ADA@example.com"
  confirmationEmail := text "ada@example.com"

theorem server_accepts_m : ((∃ identity, Backend.validateNewsletterStatusIdentity Unicode.sharpS
      (formPayload Browser.sharpS (adaRivera ⟨0x6d, by decide⟩) (text "202 555 4567")) =
        .ok ⟨some identity, [], rfl⟩ ∧
      identity.email = normalizeEmail Browser.sharpS (adaRivera ⟨0x6d, by decide⟩).email) ∧
    ∀ value ∈ (formPayload Browser.sharpS (adaRivera ⟨0x6d, by decide⟩)
        (text "202 555 4567")).get Backend.Field.phone.name,
      ∃ display, Backend.normalizePhone Unicode.sharpS value = .ok display) ↔
    InitialFits Browser.sharpS Unicode.sharpS (adaRivera ⟨0x6d, by decide⟩) :=
  server_accepts_iff sharpS_agrees (by decide +kernel)

/-- The form takes the sharp s for one letter. The server does not. -/
theorem sharp_s_rejected :
    Browser.sharpS.AgreesWith Unicode.sharpS ∧
      validateIdentity Browser.sharpS (adaRivera ⟨0xdf, by decide⟩) (some []) = [] ∧
      ¬ ∃ identity, Backend.validateNewsletterStatusIdentity Unicode.sharpS
        (formPayload Browser.sharpS (adaRivera ⟨0xdf, by decide⟩) []) =
          .ok ⟨some identity, [], rfl⟩ := by
  refine ⟨sharpS_agrees, by decide +kernel, ?_⟩
  rintro ⟨identity, h⟩
  have hnone : (Backend.validateNewsletterStatusIdentity Unicode.sharpS
      (formPayload Browser.sharpS (adaRivera ⟨0xdf, by decide⟩) [])).toOption.bind (·.value) =
        none := by decide +kernel
  rw [h] at hnone
  cases hnone

end SharpS

end CafeFausse.Frontend
