import CafeFausse.Calendar.Dates
import CafeFausse.Format.Framing
import CafeFausse.Sql.Text
import CafeFausse.Sql.Time

/-! # Wall times

The calendar date and the time of the day that a timestamp shows, and how they are written.
-/

namespace CafeFausse

open Time

/-- A character of ASCII. -/
def ascii (n : ℕ) (h : n < 0x80) : Codepoint := ⟨n, by omega⟩

/-- The decimal digits. -/
def decimalDigits : Format.Digits Codepoint where
  digit n := ⟨0x30 + n % 10, by omega⟩
  worth c := c.val - 0x30
  worth_digit n h := by
    simp only
    omega

/-- A date and a time of the day. -/
@[ext]
structure WallTime where
  date : Calendar.Date
  hour : ℕ
  minute : ℕ
  second : ℕ
  microsecond : ℕ
  hour_valid : hour < 24
  minute_valid : minute < 60
  second_valid : second < 60
  microsecond_valid : microsecond < 1000000

namespace WallTime

/-- The timestamp that shows a wall time. -/
def timestamp (w : WallTime) : ℤ :=
  w.date.toDay * day +
    ((w.hour * 3600 + w.minute * 60 + w.second) * Time.second + w.microsecond)

def ofTimestamp (l : ℤ) : WallTime where
  date := Calendar.ofDay (Time.date l)
  hour := (timeOfDay l / (3600 * Time.second)).toNat
  minute := (timeOfDay l / (60 * Time.second) % 60).toNat
  second := (timeOfDay l / Time.second % 60).toNat
  microsecond := (timeOfDay l % Time.second).toNat
  hour_valid := by
    have := timeOfDay_lt l
    simp only [day, Time.second] at *
    omega
  minute_valid := by omega
  second_valid := by omega
  microsecond_valid := by
    simp only [Time.second]
    omega

theorem timestamp_ofTimestamp (l : ℤ) : (ofTimestamp l).timestamp = l := by
  have hlo := timeOfDay_nonneg l
  have hl := date_add_timeOfDay l
  simp only [timestamp, ofTimestamp, Calendar.toDay_ofDay]
  generalize timeOfDay l = t at *
  simp only [Time.second] at *
  omega

theorem ofTimestamp_injective : Function.Injective ofTimestamp :=
  Function.LeftInverse.injective timestamp_ofTimestamp

/-- Month, day, hour, minute and second, after the year, in two digits each. -/
def dateTimeText (w : WallTime) : Text :=
  text "-" ++ (decimalDigits.padded 2 w.date.month.toNat ++
  (text "-" ++ (decimalDigits.padded 2 w.date.day.toNat ++
  (text "T" ++ (decimalDigits.padded 2 w.hour ++
  (text ":" ++ (decimalDigits.padded 2 w.minute ++
  (text ":" ++ decimalDigits.padded 2 w.second))))))))

theorem month_lt (w : WallTime) : w.date.month.toNat < 10 ^ 2 := by
  have := w.date.month_valid
  omega

theorem day_lt (w : WallTime) : w.date.day.toNat < 10 ^ 2 := by
  have := w.date.day_valid
  have : Calendar.daysInMonth w.date.year w.date.month ≤ 31 := by
    unfold Calendar.daysInMonth
    split_ifs <;> decide
  omega

theorem length_dateTimeText (w : WallTime) : w.dateTimeText.length = 15 := by
  have hour := w.hour_valid
  have minute := w.minute_valid
  have second := w.second_valid
  have hyphen : (text "-").length = 1 := rfl
  have letter : (text "T").length = 1 := rfl
  have colon : (text ":").length = 1 := rfl
  simp only [dateTimeText, List.length_append, decimalDigits.length_padded w.month_lt,
    decimalDigits.length_padded w.day_lt, hyphen, letter, colon,
    decimalDigits.length_padded (show w.hour < 10 ^ 2 by omega),
    decimalDigits.length_padded (show w.minute < 10 ^ 2 by omega),
    decimalDigits.length_padded (show w.second < 10 ^ 2 by omega)]

/-- What is written of two wall times is the same only if they agree on it. -/
theorem dateTimeText_append_inj {w w' : WallTime} {r s : Text}
    (h : w.dateTimeText ++ r = w'.dateTimeText ++ s) :
    (w.date.month = w'.date.month ∧ w.date.day = w'.date.day) ∧
      (w.hour = w'.hour ∧ w.minute = w'.minute ∧ w.second = w'.second) ∧ r = s := by
  have hour := w.hour_valid
  have hour' := w'.hour_valid
  have minute := w.minute_valid
  have minute' := w'.minute_valid
  have second := w.second_valid
  have second' := w'.second_valid
  simp only [dateTimeText, List.append_assoc] at h
  obtain ⟨hmonth, h⟩ := decimalDigits.padded_append_inj w.month_lt w'.month_lt
    (List.append_cancel_left h)
  obtain ⟨hday, h⟩ := decimalDigits.padded_append_inj w.day_lt w'.day_lt
    (List.append_cancel_left h)
  obtain ⟨hhour, h⟩ := decimalDigits.padded_append_inj (by omega) (by omega)
    (List.append_cancel_left h)
  obtain ⟨hminute, h⟩ := decimalDigits.padded_append_inj (by omega) (by omega)
    (List.append_cancel_left h)
  obtain ⟨hsecond, h⟩ := decimalDigits.padded_append_inj (by omega) (by omega)
    (List.append_cancel_left h)
  have := w.date.month_valid
  have := w'.date.month_valid
  have := w.date.day_valid
  have := w'.date.day_valid
  exact ⟨⟨by omega, by omega⟩, ⟨hhour, hminute, hsecond⟩, h⟩

end WallTime

end CafeFausse
