import CafeFausse.Clock.WallTimes
import CafeFausse.Database.Routine

/-! # The text behind a fingerprint

`reservation_fingerprint_serialization_v1`: the customer, the start and the party of a
reservation as framed fields. Equal texts come from equal reservations.
-/

namespace CafeFausse

/-- The octets of a character in UTF-8. -/
def octets (c : Codepoint) : ℕ :=
  if c.val < 0x80 then 1 else if c.val < 0x800 then 2 else if c.val < 0x10000 then 3 else 4

/-- `octet_length(convert_to(t, 'UTF8'))`. -/
def octetLength (t : Text) : ℕ := (t.map octets).sum

/-- `n::text`. -/
def integerText (n : ℤ) : Text :=
  if n < 0 then text "-" ++ decimalDigits.decimal n.natAbs else decimalDigits.decimal n.natAbs

/-- The number of a year, which counts back before the year 1. -/
def yearNumber (year : ℤ) : ℕ := (if 0 < year then year else 1 - year).natAbs

/-- `to_char(startsAt AT TIME ZONE 'UTC', 'YYYY-MM-DD"T"HH24:MI:SS.US"Z"')`. -/
def startValue (startsAt : ℤ) : Text :=
  let w := WallTime.ofTimestamp startsAt
  decimalDigits.padded 4 (yearNumber w.date.year) ++ (w.dateTimeText ++ (text "." ++
    (decimalDigits.padded 6 w.microsecond ++ text "Z")))

/-- `octet_length(…)::text || ':' || value`. -/
def lengthPrefixed (value : Text) : Text :=
  integerText (octetLength value) ++ text ":" ++ value

/-- `reservation_fingerprint_serialization_v1`, of a finite start. -/
def reservationFingerprintSerialization (customerId startsAt partySize : ℤ) :
    Except SqlError Text :=
  if customerId ≤ 0 ∨ partySize ≤ 0 then .error .invalidParameterValue
  else
    let customerValue := integerText customerId
    let startValue := startValue startsAt
    let partyValue := integerText partySize
    .ok (lengthPrefixed customerValue ++ text "|" ++ lengthPrefixed startValue ++ text "|" ++
      lengthPrefixed partyValue)

section Unambiguous

/-- Fields are framed by their length in octets and a colon. -/
def lengthFraming : Format.Framing Codepoint where
  toDigits := decimalDigits
  mark := ascii 0x3a (by decide)
  size := octets
  mark_ne_digit n hn h := by
    have := congrArg Fin.val h
    simp only [ascii, decimalDigits] at this
    omega
  size_pos c := by
    unfold octets
    split_ifs <;> decide

theorem integerText_natCast (n : ℕ) : integerText n = decimalDigits.decimal n := by
  unfold integerText
  rw [if_neg (by omega), Int.natAbs_natCast]

theorem lengthPrefixed_eq (value : Text) : lengthPrefixed value = lengthFraming.frame value := by
  rw [lengthPrefixed, integerText_natCast, List.append_assoc]
  rfl

theorem integerText_inj {m n : ℤ} (hm : 0 < m) (hn : 0 < n) (h : integerText m = integerText n) :
    m = n := by
  unfold integerText at h
  rw [if_neg (by omega), if_neg (by omega)] at h
  have := decimalDigits.padded_inj.mp h
  omega

/-- From the year 1 on the text of a start tells the start. -/
theorem startValue_inj {s s' : ℤ} (hs : 0 < (WallTime.ofTimestamp s).date.year)
    (hs' : 0 < (WallTime.ofTimestamp s').date.year) (h : startValue s = startValue s') :
    s = s' := by
  have hmicro := (WallTime.ofTimestamp s).microsecond_valid
  have hmicro' := (WallTime.ofTimestamp s').microsecond_valid
  -- all but the year has a fixed width
  have hlength (w : WallTime) : (w.dateTimeText ++ (text "." ++
      (decimalDigits.padded 6 w.microsecond ++ text "Z"))).length = 23 := by
    have := w.microsecond_valid
    simp only [List.length_append, w.length_dateTimeText,
      decimalDigits.length_padded (show w.microsecond < 10 ^ 6 by omega)]
    rfl
  obtain ⟨hyear, hrest⟩ := List.append_inj' h (by rw [hlength, hlength])
  obtain ⟨⟨hmonth, hday⟩, ⟨hhour, hminute, hsecond⟩, hrest⟩ :=
    WallTime.dateTimeText_append_inj hrest
  obtain ⟨hmicrosecond, -⟩ := decimalDigits.padded_append_inj (by omega) (by omega)
    (List.append_cancel_left hrest)
  have hyear := decimalDigits.padded_inj.mp hyear
  unfold yearNumber at hyear
  rw [if_pos hs, if_pos hs'] at hyear
  refine WallTime.ofTimestamp_injective (WallTime.ext (Calendar.Date.ext ?_ hmonth hday) hhour
    hminute hsecond hmicrosecond)
  omega

/-- Positive inputs have a text, and two of them share it only if they are the same. -/
theorem reservationFingerprintSerialization_unambiguous
    {customerId customerId' startsAt startsAt' partySize partySize' : ℤ}
    (hcustomer : 0 < customerId) (hcustomer' : 0 < customerId')
    (hparty : 0 < partySize) (hparty' : 0 < partySize')
    (hyear : 0 < (WallTime.ofTimestamp startsAt).date.year)
    (hyear' : 0 < (WallTime.ofTimestamp startsAt').date.year) :
    ∃ t t', reservationFingerprintSerialization customerId startsAt partySize = .ok t ∧
      reservationFingerprintSerialization customerId' startsAt' partySize' = .ok t' ∧
      (t = t' → (customerId, startsAt, partySize) = (customerId', startsAt', partySize')) := by
  refine ⟨_, _, if_neg (by omega), if_neg (by omega), fun h => ?_⟩
  simp only [lengthPrefixed_eq, List.append_assoc] at h
  obtain ⟨hc, h⟩ := lengthFraming.frame_append_inj h
  obtain ⟨hs, h⟩ := lengthFraming.frame_append_inj (List.append_cancel_left h)
  have h := List.append_cancel_left h
  rw [← List.append_nil (lengthFraming.frame (integerText partySize)),
    ← List.append_nil (lengthFraming.frame (integerText partySize'))] at h
  obtain ⟨hp, -⟩ := lengthFraming.frame_append_inj h
  rw [integerText_inj hcustomer hcustomer' hc, startValue_inj hyear hyear' hs,
    integerText_inj hparty hparty' hp]

/-- Two starts a microsecond apart, in a year of five digits. -/
theorem reservationFingerprintSerialization_unambiguous_far :
    ∃ t t', reservationFingerprintSerialization 1 253402300800000000 12 = .ok t ∧
      reservationFingerprintSerialization 11 253402300800000001 2 = .ok t' ∧
      (t = t' → ((1 : ℤ), (253402300800000000 : ℤ), (12 : ℤ)) = (11, 253402300800000001, 2)) :=
  reservationFingerprintSerialization_unambiguous (by decide) (by decide) (by decide) (by decide)
    (by decide +kernel) (by decide +kernel)

end Unambiguous

end CafeFausse
