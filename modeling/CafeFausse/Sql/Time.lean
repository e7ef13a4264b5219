import CafeFausse.Sql.Values

/-! # Instants and local times

Instants and finite local times are integers and count microseconds from the start
of 1970. A time zone converts in both directions, by rules that are a parameter. The limits of the
calendar of the database are left out.
-/

namespace CafeFausse

/-- A `timestamp without time zone`. -/
inductive Timestamp where
  | negInfinity
  | finite (l : ℤ)
  | infinity
  deriving DecidableEq

namespace Time

/-- `make_interval(mins => n)`. -/
def minutes (n : ℤ) : ℤ := n * 60000000

def second : ℤ := 1000000

def day : ℤ := 86400000000

/-- `l::date`, in days. -/
def date (l : ℤ) : ℤ := l / day

/-- `l::time`. -/
def timeOfDay (l : ℤ) : ℤ := l % day

/-- `EXTRACT(isodow FROM d)`. -/
def isodow (d : ℤ) : ℤ := (d + 3) % 7 + 1

/-- `round(a / b)`, halves away from zero. -/
def round (a b : ℤ) : ℤ :=
  if 0 ≤ a then (2 * a + b) / (2 * b) else -((-2 * a + b) / (2 * b))

theorem date_add_timeOfDay (l : ℤ) : date l * day + timeOfDay l = l :=
  Int.ediv_mul_add_emod l day

theorem timeOfDay_nonneg (l : ℤ) : 0 ≤ timeOfDay l := Int.emod_nonneg _ (by decide)

theorem timeOfDay_lt (l : ℤ) : timeOfDay l < day := Int.emod_lt_of_pos _ (by decide)

theorem round_mul {n b : ℤ} (hb : 0 < b) : round (n * b) b = n := by
  unfold round
  split
  · rw [show 2 * (n * b) + b = b + n * (2 * b) by ring, Int.add_mul_ediv_right _ _ (by omega),
      Int.ediv_eq_zero_of_lt (by omega) (by omega), zero_add]
  · rw [show -2 * (n * b) + b = b + (-n) * (2 * b) by ring, Int.add_mul_ediv_right _ _ (by omega),
      Int.ediv_eq_zero_of_lt (by omega) (by omega), zero_add, neg_neg]

end Time

/-- A `time without time zone`; midnight at the end of the day is one. -/
abbrev TimeOfDay := { t : ℤ // 0 ≤ t ∧ t ≤ Time.day }

/-- The conversions of a time zone: `AT TIME ZONE` in both directions. -/
structure Zone where
  toLocal : ℤ → ℤ
  toInstant : ℤ → ℤ

/-- A zone with one offset, in minutes. -/
def Zone.fixed (offset : ℤ) : Zone where
  toLocal t := t + Time.minutes offset
  toInstant l := l - Time.minutes offset

open Time in
/-- `local_timestamp_candidates`: the instants whose local time is `l` under an offset
in force around it, each with that offset in minutes. -/
def localTimestampCandidates (l : ℤ) (zone : Zone) : List (ℤ × ℤ) :=
  let sampledLocal := [l - 2 * day, l, l + 2 * day]
  let sampledOffsets := (sampledLocal.map fun s => round (s - zone.toInstant s) (minutes 1)).dedup
  let candidates := sampledOffsets.map fun offset => (l - minutes offset, offset)
  Sql.orderBy Prod.fst (candidates.filter fun c => zone.toLocal c.1 = l)

theorem mem_localTimestampCandidates {l : ℤ} {zone : Zone} {c : ℤ × ℤ}
    (h : c ∈ localTimestampCandidates l zone) :
    c.1 = l - Time.minutes c.2 ∧ zone.toLocal c.1 = l := by
  simp only [localTimestampCandidates, Sql.mem_orderBy, List.mem_filter, List.mem_map,
    decide_eq_true_eq] at h
  obtain ⟨⟨o, -, rfl⟩, h⟩ := h
  exact ⟨rfl, h⟩

end CafeFausse
