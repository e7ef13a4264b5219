import CafeFausse.Frontend.Posted

/-! # How large a form is

Every value of a form is bounded, and JSON takes six bytes for a character at most. So no body of a
form is larger than the least limit that the server can be configured with.
-/

namespace CafeFausse.Frontend

open Python Format.Utf8

section Written

variable {t : Text} {c : Codepoint} {k : ℕ}

theorem length_hexEscape (c : Codepoint) : (encode (hexEscape c)).length = 6 :=
  length_encode_of_ascii fun _ => ascii_hexEscape

/-- No character is written in more than six bytes. -/
theorem length_stringifyEscape_le (c : Codepoint) : (encode (stringifyEscape c)).length ≤ 6 := by
  unfold stringifyEscape dumpsEscape
  split
  · exact (length_hexEscape c).le
  split_ifs
  · decide
  · decide
  · decide
  · decide
  · decide
  · decide
  · decide
  · exact (length_hexEscape c).le
  · rw [encode, List.flatMap_singleton]
    exact (length_encodeChar_le c).trans (by decide)

/-- A visible character of ASCII is written as it is, or after a backslash. -/
theorem length_stringifyEscape_of_visible (h : Visible c) :
    (encode (stringifyEscape c)).length ≤ 2 := by
  obtain ⟨hlow, hhigh⟩ := h
  unfold stringifyEscape dumpsEscape IsHighSurrogate IsLowSurrogate
  rw [if_neg (by omega), if_neg (show ¬ c.val = 0x08 by omega), if_neg (show ¬ c.val = 0x09 by omega),
    if_neg (show ¬ c.val = 0x0a by omega), if_neg (show ¬ c.val = 0x0c by omega),
    if_neg (show ¬ c.val = 0x0d by omega), if_neg (show ¬ c.val < 0x20 by omega)]
  split_ifs
  · decide
  · decide
  · have hascii : ∀ d ∈ [c], d.val < 0x80 := by
      intro d hd
      rw [List.mem_singleton.mp hd]
      omega
    rw [length_encode_of_ascii hascii]
    exact Nat.le_succ 1

theorem length_quoted_le (h : ∀ c ∈ t, (encode (stringifyEscape c)).length ≤ k) :
    (encode (quoted stringifyEscape t)).length ≤ k * t.length + 2 := by
  have hquote : (encode (text "\"")).length = 1 := by decide
  rw [quoted, encode_append, encode_append, List.length_append, List.length_append, hquote]
  have := length_encode_flatMap_le h
  omega

theorem length_integerText_le {n : ℤ} (h : n.natAbs < 10 ^ 10) :
    (encode (Python.integerText n)).length ≤ 11 := by
  have hsign : (if n < 0 then text "-" else []).length ≤ 1 := by split <;> decide
  rw [length_encode_of_ascii (forall_integerText (fun _ hc => hc) n), Python.integerText,
    List.length_append]
  have := length_decimal_le h (by decide)
  omega

end Written

section Fields

variable {f : Backend.Field} {fields allowedFields : List Backend.Field} {body : Payload}
  {maxContentLength k : ℕ} {request : Backend.Request}

/-- The most bytes that a form takes for the value of a field. -/
def valueBytes : Backend.Field → ℕ
  | .firstName | .lastName => 602
  | .middleInitial => 8
  | .email | .confirmationEmail => 510
  | .phone => 194
  | .startsAtLocal => 152
  | .utcOffsetMinutes | .partySize => 11
  | .newsletterAction => 68
  | .subscribed => 5
  | .localDate => 0

/-- The most bytes that a form takes for a field, its name and the marks around it. -/
def fieldBytes (f : Backend.Field) : ℕ :=
  (encode (quoted stringifyEscape f.name)).length + valueBytes f + 2

/-- The value takes no more bytes than the field has. -/
def Fits (f : Backend.Field) (value : Json) : Prop :=
  ∀ t, write stringifyEscape value = some t → (encode t).length ≤ valueBytes f

theorem fits_string {t : Text} (h : ∀ c ∈ t, (encode (stringifyEscape c)).length ≤ k)
    (hsize : k * t.length + 2 ≤ valueBytes f) : Fits f (.string t) := by
  rintro _ ⟨⟩
  exact (length_quoted_le h).trans hsize

theorem fits_text {t : Text} (hsize : 6 * t.length + 2 ≤ valueBytes f) : Fits f (.string t) :=
  fits_string (fun c _ => length_stringifyEscape_le c) hsize

theorem fits_integer {n : ℤ} (h : n.natAbs < 10 ^ 10) (hsize : 11 ≤ valueBytes f) :
    Fits f (.integer n) := by
  rintro _ ⟨⟩
  exact (length_integerText_le h).trans hsize

theorem fits_boolean (value : Bool) (hsize : 5 ≤ valueBytes f) : Fits f (.boolean value) := by
  cases value with
  | true =>
    rintro _ ⟨⟩
    exact le_trans (by decide) hsize
  | false =>
    rintro _ ⟨⟩
    exact le_trans (by decide) hsize

theorem length_intercalate_le (part : Text) (parts : List Text) :
    (encode (List.intercalate (text ",") (part :: parts))).length ≤
      (encode part).length + 1 + (encode (List.intercalate (text ",") parts)).length := by
  have hcomma : (encode (text ",")).length = 1 := by decide
  rcases parts with - | ⟨part', parts⟩
  · rw [List.intercalate_singleton]
    omega
  · rw [List.intercalate_cons_cons, encode_append, encode_append, List.length_append,
      List.length_append, hcomma]

/-- The fields of a body one after the other. -/
theorem length_writeMembers_le (hbody : body.map (·.1) = fields.map Backend.Field.name)
    (hfits : ∀ m ∈ body, ∀ f : Backend.Field, f.name = m.1 → Fits f m.2) {parts : List Text}
    (hparts : writeMembers stringifyEscape body = some parts) :
    (encode (List.intercalate (text ",") parts)).length ≤ (fields.map fieldBytes).sum := by
  have hcolon : (encode (text ":")).length = 1 := by decide
  induction body generalizing fields parts with
  | nil =>
    cases hparts
    exact Nat.zero_le _
  | cons m body ih =>
    obtain ⟨name, value⟩ := m
    obtain ⟨hvalue, hrest⟩ := List.forall_mem_cons.mp hfits
    rcases fields with - | ⟨f, fields⟩
    · cases hbody
    obtain ⟨hname, hbody⟩ := List.cons_eq_cons.mp hbody
    change name = f.name at hname
    rw [writeMembers] at hparts
    obtain ⟨part, hpart, hparts⟩ := Option.bind_eq_some_iff.mp hparts
    obtain ⟨more, hmore, hparts⟩ := Option.bind_eq_some_iff.mp hparts
    cases hparts
    have hmore := ih hbody hrest hmore
    have hpart := hvalue f hname.symm part hpart
    have hmember : (encode (quoted stringifyEscape name ++ text ":" ++ part)).length + 1 ≤
        fieldBytes f := by
      rw [encode_append, encode_append, List.length_append, List.length_append, hcolon, fieldBytes,
        ← hname]
      omega
    rw [List.map_cons, List.sum_cons]
    exact (length_intercalate_le _ _).trans (Nat.add_le_add hmember hmore)

/-- A body is no larger than the fields that its route allows. -/
theorem length_post_le (hfields : fields.Sublist allowedFields)
    (hbody : body.map (·.1) = fields.map Backend.Field.name)
    (hfits : ∀ m ∈ body, ∀ f : Backend.Field, f.name = m.1 → Fits f m.2)
    (h : post maxContentLength body = some request) :
    request.body.length ≤ (allowedFields.map fieldBytes).sum + 2 := by
  have hopen : (encode (text "\x7b")).length = 1 := by decide
  have hclose : (encode (text "\x7d")).length = 1 := by decide
  obtain ⟨t, ht, rfl⟩ := Option.map_eq_some_iff.mp h
  obtain ⟨parts, hparts, rfl⟩ := Option.map_eq_some_iff.mp (stringify_eq_some.mp ht).2
  have hmembers := length_writeMembers_le hbody hfits hparts
  have hsum : (fields.map fieldBytes).sum ≤ (allowedFields.map fieldBytes).sum :=
    (hfields.map fieldBytes).sum_le_sum fun _ _ => Nat.zero_le _
  simp only
  rw [encode_append, encode_append, List.length_append, List.length_append, hopen, hclose]
  omega

end Fields

end CafeFausse.Frontend
