import CafeFausse.Backend.ReadGateways

/-! # Serialized availability

`serialize_reservation_availability`: the answer to a query for times. A slot shows its local
times with their offset, and the offset once more in minutes.
-/

namespace CafeFausse.Backend

open Python Time

/-- `ResponseProjection`. -/
inductive ResponseProjection where
  | payload (status : ℕ) (members : List (Text × Json))
  | error (status : ℕ) (code : String) (fields : List FieldError)

/-- What a map that may fail has returned was made of an element. -/
theorem exists_of_mem_mapM {α β : Type} {f : α → Option β} {l : List α} {ys : List β}
    (h : l.mapM f = some ys) {y : β} (hy : y ∈ ys) : ∃ x ∈ l, f x = some y := by
  induction l generalizing ys with
  | nil =>
    cases h
    cases hy
  | cons x l ih =>
    rw [List.mapM_cons] at h
    obtain ⟨z, hz, h⟩ := Option.bind_eq_some_iff.mp h
    obtain ⟨zs, hzs, h⟩ := Option.bind_eq_some_iff.mp h
    cases h
    rcases List.mem_cons.mp hy with rfl | hy
    · exact ⟨x, List.mem_cons_self, hz⟩
    · obtain ⟨x', hx', hfx⟩ := ih hzs hy
      exact ⟨x', List.mem_cons_of_mem _ hx', hfx⟩

section Serialization

-- `strftime("%Y-%m-%dT%H:%M:%SZ")` of an instant in UTC, whose year the platform writes
variable (strftime : ℤ → Text)

/-- `value.isoformat()` of a date. -/
def isoDate (d : ℤ) : Text :=
  let date := Calendar.ofDay d
  decimalDigits.padded 4 date.year.toNat ++ text "-" ++ decimalDigits.padded 2 date.month.toNat ++
    text "-" ++ decimalDigits.padded 2 date.day.toNat

/-- `value.utcoffset()` in a zone. -/
def utcoffset (zone : Zone) (t : ℤ) : ℤ := zone.toLocal t - t

/-- What `_local` writes. -/
def localText (zone : Zone) (t : ℤ) : Text :=
  isoformat (zone.toLocal t) ++ offsetText (utcoffset zone t)

/-- `_local`, unless the year is out of range. -/
def localTime (zone : Zone) (t : ℤ) : Option Text :=
  if DatetimeFits (zone.toLocal t) then some (localText zone t) else none

/-- `_instant`, unless the year is out of range. -/
def instantTime (t : ℤ) : Option Text := if DatetimeFits t then some (strftime t) else none

/-- The members of one slot, unless a year is out of range. -/
def serializeSlot (zone : Zone) (slot : AvailabilitySlot) : Option Payload := do
  let startsAtLocal ← localTime zone slot.startsAt
  let startsAt ← instantTime strftime slot.startsAt
  let endsAtLocal ← localTime zone slot.endsAt
  let endsAt ← instantTime strftime slot.endsAt
  return [(text "starts_at_local", .string startsAtLocal),
    (text "utc_offset_minutes", .integer (utcoffset zone slot.startsAt / minutes 1)),
    (text "starts_at", .string startsAt),
    (text "ends_at_local", .string endsAtLocal),
    (text "ends_at", .string endsAt),
    (text "available", .boolean slot.available)]

/-- `serialize_reservation_availability`, unless it raises. -/
def serializeReservationAvailability (zoneInfo : ZoneInfo) :
    AvailabilityResult → Option ResponseProjection
  | .invalidRequest _ =>
    some (.error 422 "validation_failed" ([.localDate, .partySize].map fun field =>
      ⟨field, "out_of_range", "The value is outside the current reservable range."⟩))
  | .slots request restaurantTimezone slots => do
    let zone ← zoneInfo restaurantTimezone
    let members ← slots.mapM (serializeSlot strftime zone)
    return .payload 200
      [(text "local_date", .string (isoDate request.localDate)),
        (text "party_size", .integer request.partySize),
        (text "restaurant_timezone", .string restaurantTimezone),
        (text "provisional", .boolean true),
        (text "slots", .array (members.map .object))]

variable {strftime} {zone : Zone} {slot : AvailabilitySlot} {members : Payload}

/-- The members by which a client knows the slot. -/
theorem members_of_serializeSlot (h : serializeSlot strftime zone slot = some members) :
    members.get (text "starts_at_local") = some (.string (localText zone slot.startsAt)) ∧
      members.get (text "utc_offset_minutes") =
        some (.integer (utcoffset zone slot.startsAt / minutes 1)) ∧
      members.get (text "available") = some (.boolean slot.available) := by
  unfold serializeSlot at h
  obtain ⟨startsAtLocal, hlocal, h⟩ := Option.bind_eq_some_iff.mp h
  obtain ⟨startsAt, -, h⟩ := Option.bind_eq_some_iff.mp h
  obtain ⟨endsAtLocal, -, h⟩ := Option.bind_eq_some_iff.mp h
  obtain ⟨endsAt, -, h⟩ := Option.bind_eq_some_iff.mp h
  obtain ⟨-, hlocal⟩ := Option.ite_none_right_eq_some.mp hlocal
  cases hlocal
  cases h
  exact ⟨rfl, rfl, rfl⟩

end Serialization

section Wire

variable {l m : ℤ}

theorem length_text (s : String) : (text s).length = s.length := by
  rw [text, List.length_map, String.length_toList]

theorem text_append (p q : String) : text (p ++ q) = text p ++ text q := by
  rw [text, String.toList_append, List.map_append]
  rfl

/-- A text matches a pattern piece by piece. -/
theorem matchesPattern_append {p q : String} {t s : Text} (ht : matchesPattern p t = true)
    (hs : matchesPattern q s = true) : matchesPattern (p ++ q) (t ++ s) = true := by
  unfold matchesPattern at *
  simp only [Bool.and_eq_true, decide_eq_true_eq] at ht hs ⊢
  obtain ⟨hlt, ht⟩ := ht
  obtain ⟨hls, hs⟩ := hs
  constructor
  · rw [List.length_append, String.length_append, hlt, hls]
  · rw [text_append, List.zip_append (by rw [hlt, length_text]), List.all_append, ht, hs]
    rfl

theorem matchesPattern_padded {p : String} {width n : ℕ} (h : n < 10 ^ width)
    (hp : text p = List.replicate width (ascii 0x30 (by decide))) :
    matchesPattern p (decimalDigits.padded width n) = true := by
  have hlength : p.length = width := by
    rw [← length_text, hp, List.length_replicate]
  unfold matchesPattern
  rw [decimalDigits.length_padded h, hlength, hp]
  simp only [decide_true, Bool.true_and, List.all_eq_true]
  rintro ⟨c, z⟩ hcz
  obtain ⟨d, hd, rfl⟩ := decimalDigits.mem_padded (List.of_mem_zip hcz).1
  obtain ⟨-, rfl⟩ := List.mem_replicate.mp (List.of_mem_zip hcz).2
  simp only [ascii, if_true, isAsciiDigit, decimalDigits, Bool.and_eq_true]
  exact ⟨decide_eq_true (by omega), decide_eq_true (by omega)⟩

/-- What `_local` writes is in the accepted format. -/
theorem matchesLocalStart_local (hfits : DatetimeFits l) (hm : -1440 < m ∧ m < 1440) :
    matchesLocalStart (isoformat l ++ offsetText (minutes m)) = true := by
  have hyear := year_of_fits hfits
  unfold isoformat
  generalize WallTime.ofTimestamp l = w at *
  have hhour := w.hour_valid
  have hminute := w.minute_valid
  have hsecond := w.second_valid
  have two {n : ℕ} (h : n < 10 ^ 2) : matchesPattern "00" (decimalDigits.padded 2 n) = true :=
    matchesPattern_padded h (by decide)
  have four : matchesPattern "0000" (decimalDigits.padded 4 w.date.year.toNat) = true :=
    matchesPattern_padded (by omega) (by decide)
  have hstart := matchesPattern_append four <|
    matchesPattern_append (p := "-") (t := text "-") (by decide) <|
    matchesPattern_append (two w.month_lt) <|
    matchesPattern_append (p := "-") (t := text "-") (by decide) <|
    matchesPattern_append (two w.day_lt) <|
    matchesPattern_append (p := "T") (t := text "T") (by decide) <|
    matchesPattern_append (two (show w.hour < 10 ^ 2 by omega)) <|
    matchesPattern_append (p := ":") (t := text ":") (by decide) <|
    matchesPattern_append (two (show w.minute < 10 ^ 2 by omega)) <|
    matchesPattern_append (p := ":") (t := text ":") (by decide)
      (two (show w.second < 10 ^ 2 by omega))
  have hoffset := matchesPattern_append (two (show m.natAbs / 60 < 10 ^ 2 by omega)) <|
    matchesPattern_append (p := ":") (t := text ":") (by decide)
      (two (show m.natAbs % 60 < 10 ^ 2 by omega))
  rw [offsetText_minutes hm, matchesLocalStart, Bool.or_eq_true]
  by_cases hneg : m < 0
  · have hsign := matchesPattern_append (p := "-") (t := text "-") (by decide) hoffset
    rw [if_pos hneg]
    exact .inr (by simpa [WallTime.dateTimeText] using matchesPattern_append hstart hsign)
  · have hsign := matchesPattern_append (p := "+") (t := text "+") (by decide) hoffset
    rw [if_neg hneg]
    exact .inl (by simpa [WallTime.dateTimeText] using matchesPattern_append hstart hsign)

end Wire

end CafeFausse.Backend
