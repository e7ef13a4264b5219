import CafeFausse.Clock.WallTimes
import CafeFausse.Python.Values

/-! # Dates and times of the interpreter

The range of `date` and `datetime`, and the text that `isoformat` writes and `fromisoformat`
reads back.
-/

namespace CafeFausse.Python

open Time Calendar

/-- From `date.min` to `date.max`. -/
def DateFits (d : ℤ) : Prop := -719162 ≤ d ∧ d ≤ 2932896

instance (d : ℤ) : Decidable (DateFits d) := instDecidableAnd

/-- From `datetime.min` to `datetime.max`. -/
def DatetimeFits (l : ℤ) : Prop := DateFits (Time.date l)

instance (l : ℤ) : Decidable (DatetimeFits l) := inferInstanceAs (Decidable (DateFits _))

theorem year_of_fits {l : ℤ} (h : DatetimeFits l) :
    1 ≤ (WallTime.ofTimestamp l).date.year ∧ (WallTime.ofTimestamp l).date.year ≤ 9999 := by
  obtain ⟨hmin, hmax⟩ := h
  refine ⟨le_year_ofDay ?_, year_ofDay_le ?_⟩
  · rw [show daysBeforeYear 1 = 0 by decide]
    omega
  · rw [show daysBeforeYear (9999 + 1) = 3652059 by decide]
    omega

/-- `value.isoformat(timespec="seconds")` of a wall time. -/
def isoformat (l : ℤ) : Text :=
  let w := WallTime.ofTimestamp l
  decimalDigits.padded 4 w.date.year.toNat ++ w.dateTimeText

/-- The offset in a text, with as many parts as it has. -/
def offsetText (offset : ℤ) : Text :=
  let size := offset.natAbs
  let sign := if offset < 0 then text "-" else text "+"
  let seconds := size / 1000000 % 60
  let microseconds := size % 1000000
  sign ++ decimalDigits.padded 2 (size / 3600000000) ++ text ":" ++
    decimalDigits.padded 2 (size / 60000000 % 60) ++
    (if seconds = 0 ∧ microseconds = 0 then []
    else text ":" ++ decimalDigits.padded 2 seconds ++
      if microseconds = 0 then [] else text "." ++ decimalDigits.padded 6 microseconds)

/-- The offset that a text names, in seconds. -/
def readOffset (t : Text) : Option ℤ :=
  let (hour, rest) := decimalDigits.read 2 (t.drop 1)
  let (minute, _) := decimalDigits.read 2 (rest.drop 1)
  let size : ℤ := hour * 3600 + minute * 60
  if hour < 24 ∧ minute < 60 then some (if t.head? = (text "-").head? then -size else size)
  else none

/-- `datetime.fromisoformat` of a text in the accepted format: the wall time and the offset in
seconds. -/
def fromisoformat (t : Text) : Option (ℤ × ℤ) :=
  let (year, t) := decimalDigits.read 4 t
  let (month, t) := decimalDigits.read 2 (t.drop 1)
  let (day, t) := decimalDigits.read 2 (t.drop 1)
  let (hour, t) := decimalDigits.read 2 (t.drop 1)
  let (minute, t) := decimalDigits.read 2 (t.drop 1)
  let (second, t) := decimalDigits.read 2 (t.drop 1)
  if h : (1 ≤ (month : ℤ) ∧ (month : ℤ) ≤ 12) ∧
      (1 ≤ (day : ℤ) ∧ (day : ℤ) ≤ daysInMonth year month) ∧ hour < 24 ∧ minute < 60 ∧
      second < 60 ∧ 1 ≤ year then
    let date : Calendar.Date := ⟨year, month, day, h.1, h.2.1⟩
    let w : WallTime :=
      ⟨date, hour, minute, second, 0, h.2.2.1, h.2.2.2.1, h.2.2.2.2.1, by decide⟩
    (readOffset t).map fun offset => (w.timestamp, offset)
  else none

section RoundTrip

variable {l m : ℤ}

theorem offsetText_minutes (hm : -1440 < m ∧ m < 1440) : offsetText (minutes m) =
    (if m < 0 then text "-" else text "+") ++ (decimalDigits.padded 2 (m.natAbs / 60) ++
      (text ":" ++ decimalDigits.padded 2 (m.natAbs % 60))) := by
  have hsize : (minutes m).natAbs = m.natAbs * 60000000 := by
    rw [minutes, Int.natAbs_mul]
    rfl
  have hneg : minutes m < 0 ↔ m < 0 := by
    unfold minutes
    omega
  have hwhole : m.natAbs * 60000000 / 1000000 % 60 = 0 ∧ m.natAbs * 60000000 % 1000000 = 0 := by
    omega
  unfold offsetText
  simp only [hsize, hneg]
  rw [show m.natAbs * 60000000 / 3600000000 = m.natAbs / 60 by omega,
    show m.natAbs * 60000000 / 60000000 % 60 = m.natAbs % 60 by omega, if_pos hwhole]
  simp only [List.append_assoc, List.append_nil]

@[simp] theorem drop_hyphen {t : Text} : (text "-" ++ t).drop 1 = t := rfl
@[simp] theorem drop_plus {t : Text} : (text "+" ++ t).drop 1 = t := rfl
@[simp] theorem drop_letter {t : Text} : (text "T" ++ t).drop 1 = t := rfl
@[simp] theorem drop_colon {t : Text} : (text ":" ++ t).drop 1 = t := rfl

theorem readOffset_offsetText (hm : -1440 < m ∧ m < 1440) :
    readOffset (offsetText (minutes m)) = some (m * 60) := by
  have hhour : m.natAbs / 60 < 10 ^ 2 := by omega
  have hminute : m.natAbs % 60 < 10 ^ 2 := by omega
  rw [offsetText_minutes hm, readOffset]
  by_cases hneg : m < 0
  · have hhead {t : Text} : (text "-" ++ t).head? = (text "-").head? := rfl
    simp only [hneg, if_true, drop_hyphen, decimalDigits.read_padded_append hhour, drop_colon,
      decimalDigits.read_padded hminute, hhead]
    rw [if_pos (by omega)]
    exact congrArg some (by omega)
  · have hhead {t : Text} : ¬ (text "+" ++ t).head? = (text "-").head? := by
      rw [show (text "+" ++ t).head? = (text "+").head? from rfl]
      decide
    simp only [hneg, if_false, drop_plus, decimalDigits.read_padded_append hhour, drop_colon,
      decimalDigits.read_padded hminute, hhead]
    rw [if_pos (by omega)]
    exact congrArg some (by omega)

/-- What is written is read back. -/
theorem fromisoformat_isoformat (hfits : DatetimeFits l) (hsecond : l % Time.second = 0)
    (hm : -1440 < m ∧ m < 1440) :
    fromisoformat (isoformat l ++ offsetText (minutes m)) = some (l, m * 60) := by
  have hl := WallTime.timestamp_ofTimestamp l
  have hyear := year_of_fits hfits
  have hmicro : (WallTime.ofTimestamp l).microsecond = 0 := by
    simp only [WallTime.ofTimestamp, timeOfDay, day, Time.second] at hsecond ⊢
    omega
  unfold isoformat
  generalize WallTime.ofTimestamp l = w at *
  have hmonth := w.date.month_valid
  have hday := w.date.day_valid
  have hhour := w.hour_valid
  have hminute := w.minute_valid
  have hsecond := w.second_valid
  simp only [fromisoformat, WallTime.dateTimeText, List.append_assoc,
    decimalDigits.read_padded_append (show w.date.year.toNat < 10 ^ 4 by omega),
    decimalDigits.read_padded_append w.month_lt, decimalDigits.read_padded_append w.day_lt,
    decimalDigits.read_padded_append (show w.hour < 10 ^ 2 by omega),
    decimalDigits.read_padded_append (show w.minute < 10 ^ 2 by omega),
    decimalDigits.read_padded_append (show w.second < 10 ^ 2 by omega), drop_hyphen, drop_letter,
    drop_colon, readOffset_offsetText hm, Option.map_some]
  have hy : (w.date.year.toNat : ℤ) = w.date.year := by omega
  have hmo : (w.date.month.toNat : ℤ) = w.date.month := by omega
  have hd : (w.date.day.toNat : ℤ) = w.date.day := by omega
  rw [dif_pos (by
    rw [hy, hmo, hd]
    exact ⟨hmonth, hday, hhour, hminute, hsecond, by omega⟩)]
  refine congrArg some (Prod.ext (Eq.trans (congrArg WallTime.timestamp ?_) hl) rfl)
  exact WallTime.ext (Calendar.Date.ext hy hmo hd) rfl rfl rfl hmicro.symm

theorem fromisoformat_second {t : Text} {o : ℤ} (h : fromisoformat t = some (l, o)) :
    l % Time.second = 0 := by
  unfold fromisoformat at h
  simp only at h
  split at h
  · obtain ⟨offset, -, hl⟩ := Option.map_eq_some_iff.mp h
    cases hl
    simp only [WallTime.timestamp, day, Time.second]
    omega
  · cases h

end RoundTrip

/-- The letters of ASCII, upper case before lower case. -/
def isAsciiLetter (c : Codepoint) : Bool :=
  (0x41 ≤ c.val && c.val ≤ 0x5a) || (0x61 ≤ c.val && c.val ≤ 0x7a)

/-- A character database that knows ASCII only. -/
def Unicode.ascii : Unicode where
  isSpace c := c.val == 0x20 || (0x09 ≤ c.val && c.val ≤ 0x0d) || (0x1c ≤ c.val && c.val ≤ 0x1f)
  isAlpha := isAsciiLetter
  isUpper c := 0x41 ≤ c.val && c.val ≤ 0x5a
  isDigit := isAsciiDigit
  upper c := if h : 0x61 ≤ c.val ∧ c.val ≤ 0x7a then [⟨c.val - 0x20, by omega⟩] else [c]
  casefold c := [asciiLower c]
  lower t := t.map asciiLower
  isSpace_ascii _ _ := rfl
  isDigit_ascii _ _ := rfl
  lower_ascii _ _ := rfl
  isSpace_encodable c h := by
    simp only [Bool.or_eq_true, beq_iff_eq, Bool.and_eq_true, decide_eq_true_eq] at h
    unfold Encodable
    omega
  isUpper_encodable c h := by
    simp only [Bool.and_eq_true, decide_eq_true_eq] at h
    unfold Encodable
    omega

/-- One that knows the sharp s as well, whose upper case and case folding are two characters. -/
def Unicode.sharpS : Unicode where
  __ := Unicode.ascii
  isAlpha c := isAsciiLetter c || c.val == 0xdf
  upper c := if c.val = 0xdf then text "SS" else Unicode.ascii.upper c
  casefold c := if c.val = 0xdf then text "ss" else Unicode.ascii.casefold c

/-- An interpreter with the characters of ASCII. -/
def Interpreter.ascii : Interpreter where
  toUnicode := .ascii
  dateFromIsoformat t := (fromisoformat (t ++ text "T00:00:00+00:00")).map fun r => Time.date r.1
  datetimeFromIsoformat := fromisoformat
  decimalFits _ := true
  intFits _ := true
  maxDepth := 1000
  datetimeFromIsoformat_second _ _ _ := fromisoformat_second

end CafeFausse.Python
