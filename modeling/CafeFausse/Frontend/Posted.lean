import CafeFausse.Backend.Requests
import CafeFausse.Frontend.NewsletterPreferences
import CafeFausse.Frontend.ReservationWorkflow
import CafeFausse.Frontend.ServerAccepts
import CafeFausse.Python.JsonExact

/-! # What the client posts

`JSON.stringify` and the requests of the live client. The server reads a body as the object that
was posted, or it is too large.
-/

namespace CafeFausse.Frontend

open Python

section Stringify

/-- How `JSON.stringify` writes a character. A surrogate stands alone. -/
def stringifyEscape (c : Codepoint) : Text :=
  if IsHighSurrogate c ∨ IsLowSurrogate c then hexEscape c else dumpsEscape c

/-- From `Number.MIN_SAFE_INTEGER` to `Number.MAX_SAFE_INTEGER`. -/
def SafeInteger (n : ℤ) : Prop := -9007199254740991 ≤ n ∧ n ≤ 9007199254740991

instance (n : ℤ) : Decidable (SafeInteger n) := instDecidableAnd

/-- `JSON.stringify(value)` of a value whose numbers are whole and safe. Others are not written
digit by digit. -/
def stringify (value : Json) : Option Text :=
  if ∀ n ∈ value.integers, SafeInteger n then write stringifyEscape value else none

theorem escapes_stringify : Escapes stringifyEscape := by
  intro c
  unfold stringifyEscape
  split
  · next hc =>
    apply escapes_hex
    unfold IsHighSurrogate IsLowSurrogate at hc
    omega
  · exact escapes_dumps c

theorem stringify_eq_some {value : Json} {t : Text} :
    stringify value = some t ↔
      (∀ n ∈ value.integers, SafeInteger n) ∧ write stringifyEscape value = some t :=
  Option.ite_none_right_eq_some

end Stringify

section Post

/-- A `Number`, if it is whole or not finite. No other is sent. -/
def wholeNumber : Option ℚ → Option Json
  | none => some .null
  | some q => if q.den = 1 then some (.integer q.num) else none

def ReservationWorkflow.NewsletterAction.text : ReservationWorkflow.NewsletterAction → Text
  | .noChange => CafeFausse.text "no_change"
  | .subscribe => CafeFausse.text "subscribe"
  | .unsubscribe => CafeFausse.text "unsubscribe"

/-- The members of a reservation body. -/
def ReservationWorkflow.ReservationBody.payload (body : ReservationWorkflow.ReservationBody) :
    Option Payload := do
  let partySize ← wholeNumber body.partySize
  return body.identity.payload ++
    (body.phone.toList.map fun t => (Backend.Field.phone.name, Json.string t)) ++
    [(Backend.Field.startsAtLocal.name, .string body.startsAtLocal),
      (Backend.Field.utcOffsetMinutes.name, .integer body.utcOffsetMinutes),
      (Backend.Field.partySize.name, partySize),
      (Backend.Field.newsletterAction.name, .string body.newsletterAction.text)]

/-- The members of a preference body. -/
def PreferenceBody.payload (body : PreferenceBody) : Payload :=
  body.identity.payload ++ [(Backend.Field.subscribed.name, .boolean body.subscribed)]

/-- `post(path, body)`, as a server with this `MAX_CONTENT_LENGTH` receives it. -/
def post (maxContentLength : ℕ) (body : Payload) : Option Backend.Request :=
  (stringify (.object body)).map fun t =>
    let raw := Format.Utf8.encode t
    { contentLength := some raw.length
      maxContentLength
      body := raw
      queryString := []
      mimetype := text "application/json"
      charset := none }

variable {py : Interpreter} {codecName : Text → Option Text} {maxContentLength : ℕ}
  {allowedFields : List Backend.Field} {body : Payload} {request : Backend.Request}

/-- No surrogate is written as it is. -/
theorem scalar_stringify {value : Json} {t : Text} (h : stringify value = some t) :
    ∀ c ∈ t, Format.Utf8.Scalar c.val := by
  have hascii (c : Codepoint) (hc : c.val < 0x80) : Format.Utf8.Scalar c.val := by
    unfold Format.Utf8.Scalar
    omega
  refine forall_write hascii (fun c d hd => ?_) value (stringify_eq_some.mp h).2
  unfold stringifyEscape at hd
  split at hd
  · exact hascii d (ascii_hexEscape hd)
  · next hplain =>
    rcases mem_dumpsEscape hd with hd | rfl
    · exact hascii d hd
    · unfold Format.Utf8.Scalar
      unfold IsHighSurrogate IsLowSurrogate at hplain
      omega

/-- Only the size of a body can be refused. -/
theorem refusal_post (h : post maxContentLength body = some request) :
    request.refusal codecName =
      if maxContentLength < request.body.length then some .requestEntityTooLarge else none := by
  obtain ⟨t, ht, rfl⟩ := Option.map_eq_some_iff.mp h
  obtain ⟨c, s, rfl, -⟩ := exists_write (stringify_eq_some.mp ht).2
  have hne : Format.Utf8.encode (c :: s) ≠ [] := by
    rw [Format.Utf8.encode, List.flatMap_cons, Format.Utf8.encodeChar, List.cons_append]
    exact List.cons_ne_nil _ _
  unfold Backend.Request.refusal Backend.Content.getData
  rw [if_neg (by simp), if_neg (by simp), if_neg (by simp)]
  simp only [Option.getD_some]
  by_cases hsize : maxContentLength < (Format.Utf8.encode (c :: s)).length
  · rw [if_pos hsize, if_pos hsize]
  · rw [if_neg hsize, if_neg hsize]
    exact if_neg hne

/-- A `dict` with distinct names passes. -/
theorem addMembers_of_nodup {result pairs : Payload} (h : ((result ++ pairs).map (·.1)).Nodup) :
    Backend.addMembers result pairs = .ok (result ++ pairs) := by
  induction pairs generalizing result with
  | nil => rw [Backend.addMembers, List.append_nil]
  | cons pair pairs ih =>
    obtain ⟨n, v⟩ := pair
    have happend : result ++ (n, v) :: pairs = result ++ [(n, v)] ++ pairs := by
      rw [List.append_assoc, List.singleton_append]
    rw [Backend.addMembers, if_neg, happend]
    · exact ih (happend ▸ h)
    · intro hany
      obtain ⟨m, hm, hname⟩ := List.any_eq_true.mp hany
      rw [List.map_append, List.map_cons] at h
      have hdisjoint := (List.nodup_append.mp h).2.2
      exact hdisjoint m.1 (List.mem_map_of_mem hm) n List.mem_cons_self (of_decide_eq_true hname)

theorem objectWithoutDuplicates_of_nodup (h : (body.map (·.1)).Nodup) :
    Backend.objectWithoutDuplicates body = .ok body :=
  addMembers_of_nodup h

theorem length_decimal_le {n k : ℕ} (h : n < 10 ^ k) (hk : 1 ≤ k) :
    (decimalDigits.decimal n).length ≤ k := by
  have hdigits := (Nat.digits_length_le_iff (by decide) n).mpr h
  rw [Format.Digits.decimal, Format.Digits.padded, List.length_map, List.length_reverse,
    Nat.digitsAppend, List.length_append, List.length_replicate]
  omega

theorem intValue_integerLiteral (n : ℤ) : Backend.intValue (integerLiteral n) = n := by
  unfold Backend.intValue integerLiteral
  simp only [Format.Digits.decimal, Format.Digits.value_padded, decide_eq_true_eq]
  split
  · omega
  · omega

/-- A number of at most 4300 digits passes. -/
theorem parseInt_integerLiteral {n : ℤ} (h : (decimalDigits.decimal n.natAbs).length ≤ 4300) :
    (Backend.requestHooks py).parseInt (integerLiteral n) = .ok (.integer n) := by
  show Backend.parseIntLiteral (integerLiteral n) = _
  unfold Backend.parseIntLiteral
  rw [intValue_integerLiteral]
  exact if_neg (not_lt.mpr h)

/-- A body is refused if it is too large. Otherwise the server reads it as the object that was
posted. -/
theorem post_read_back
    (hpasses : Passes (Backend.requestHooks py) py.maxDepth (.object body))
    (hallowed : ∀ m ∈ body, ∃ f ∈ allowedFields, f.name = m.1)
    (h : post maxContentLength body = some request) :
    Backend.parsePostJsonObject py codecName allowedFields request =
      if maxContentLength < request.body.length then .error .requestEntityTooLarge
      else .ok body := by
  have hrefusal : request.refusal codecName =
      if maxContentLength < request.body.length then some .requestEntityTooLarge else none :=
    refusal_post h
  unfold Backend.parsePostJsonObject
  by_cases hsize : maxContentLength < request.body.length
  · rw [hrefusal, if_pos hsize, if_pos hsize]
  rw [hrefusal, if_neg hsize, if_neg hsize]
  obtain ⟨t, ht, rfl⟩ := Option.map_eq_some_iff.mp h
  have hloads := loads_write escapes_stringify hpasses (stringify_eq_some.mp ht).2
  unfold Backend.parseBody
  simp only [Format.Utf8.decode_encode (scalar_stringify ht), hloads]
  refine Eq.trans (if_neg ?_) rfl
  intro hany
  obtain ⟨m, hm, hnone⟩ := List.any_eq_true.mp hany
  obtain ⟨f, hf, hname⟩ := hallowed m hm
  exact of_decide_eq_true hnone (List.any_eq_true.mpr ⟨f, hf, decide_eq_true hname⟩)

/-- Texts with a quote, a line break, a character of two code units and half of one, and a
number, an object and no value at all. -/
def nested : Payload :=
  [(text "first_name", .array
    [.string (text "\"Ada\"\n\\" ++ [⟨0x1f600, by decide⟩, ⟨0xd800, by decide⟩]), .integer (-240),
      .object [(text "\t", .null), ([], .boolean true)]])]

theorem post_read_back_nested : ∃ request, post 4096 nested = some request ∧
    Backend.parsePostJsonObject .ascii (fun _ => none) [.firstName] request = .ok nested := by
  obtain ⟨request, hrequest, hsize⟩ := (Option.any_eq_true _ _).mp
    (show (post 4096 nested).any (·.body.length ≤ 4096) = true by decide +kernel)
  refine ⟨request, hrequest, (post_read_back ?_ ?_ hrequest).trans
    (if_neg (not_lt.mpr (of_decide_eq_true hsize)))⟩
  · refine .object _ _ (objectWithoutDuplicates_of_nodup (by decide)) (by decide) ?_
    intro m hm
    obtain rfl := List.mem_singleton.mp hm
    refine .array _ _ ?_
    intro v hv
    simp only [List.mem_cons, List.not_mem_nil, or_false] at hv
    rcases hv with rfl | rfl | rfl
    · exact .string _ _ (by decide)
    · exact .integer _ _ (parseInt_integerLiteral (by decide +kernel))
    · refine .object _ _ (objectWithoutDuplicates_of_nodup (by decide)) (by decide) ?_
      intro m hm
      simp only [List.mem_cons, List.not_mem_nil, or_false] at hm
      rcases hm with rfl | rfl
      · exact .null _
      · exact .boolean _ _
  · intro m hm
    obtain rfl := List.mem_singleton.mp hm
    exact ⟨.firstName, List.mem_singleton_self _, rfl⟩

end Post

end CafeFausse.Frontend
