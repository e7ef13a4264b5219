import CafeFausse.Backend.Accepted
import CafeFausse.Backend.Serialization

/-! # A slot survives the wire

The two values with which an availability answer names a slot come back from the validator
as the wall time and the offset of that slot.
-/

namespace CafeFausse.Backend

open Python Time

/-- The interpreter reads texts in the accepted format as the calendar says. -/
def ReadsIsoformat (py : Interpreter) : Prop :=
  ∀ t r, matchesLocalStart t = true → fromisoformat t = some r → py.datetimeFromIsoformat t = some r

/-- With another start and offset the payload is accepted. -/
def OtherwiseValid (py : Interpreter) (payload : Payload) : Prop :=
  ∃ other command, validateReservation py other = .ok ⟨some command, [], rfl⟩ ∧
    ∀ f : Field, f ≠ .startsAtLocal → f ≠ .utcOffsetMinutes →
      payload.get f.name = other.get f.name

variable {py : Interpreter} {session : Zone} {zoneInfo : ZoneInfo} {zone : Zone}
  {request : AvailabilityRequest} {slot : AvailabilitySlot} {slots : List AvailabilitySlot}
  {payload members : Payload} {m : ℤ} {strftime : ℤ → Text}

/-- The start of a slot as the validator reads it. -/
theorem startField_localText (hpy : ReadsIsoformat py) (hslot : slot.Valid session zone request)
    (hoffset : utcoffset zone slot.startsAt = minutes m) (hm : -840 ≤ m ∧ m ≤ 840)
    (hstart : payload.get Field.startsAtLocal.name =
      some (.string (localText zone slot.startsAt))) :
    startField py payload = ([], some slot.localStart, some m) := by
  have hget : payload.get Field.startsAtLocal.name =
      some (.string (isoformat slot.localStart ++ offsetText (minutes m))) := by
    rw [hstart, ← hslot.shown, ← hoffset]
    rfl
  have hmatches := matchesLocalStart_local hslot.fits (show -1440 < m ∧ m < 1440 by omega)
  have hread := hpy _ _ hmatches
    (fromisoformat_isoformat hslot.fits hslot.localStart (by omega))
  unfold startField
  simp only [hget, hmatches, hread]
  rw [if_neg (by simp), if_neg (by omega), if_neg (by omega),
    show m * 60 / 60 = m by omega]

/-- What a slot is serialized to names the slot. -/
theorem slot_survives (hpy : ReadsIsoformat py) {timezoneRows rows : List (List Value)}
    {timezone : Text}
    (hresult : decodeAvailability session zoneInfo request timezoneRows rows =
      .ok (.slots request timezone slots)) (hslot : slot ∈ slots)
    (hzone : zoneInfo timezone = some zone)
    (hoffset : utcoffset zone slot.startsAt = minutes m) (hm : -840 ≤ m ∧ m ≤ 840)
    (hvalid : OtherwiseValid py payload) (hmembers : serializeSlot strftime zone slot = some members)
    (hstart : payload.get Field.startsAtLocal.name = members.get (text "starts_at_local"))
    (hutc : payload.get Field.utcOffsetMinutes.name = members.get (text "utc_offset_minutes")) :
    ∃ command, validateReservation py payload = .ok ⟨some command, [], rfl⟩ ∧
      command.localStart = slot.localStart ∧
      command.localStart - minutes command.utcOffsetMinutes = slot.startsAt := by
  obtain ⟨zone', hzone', hslots⟩ := slots_of_decodeAvailability hresult
  obtain rfl := Option.some.inj (hzone'.symm.trans hzone)
  have hslot := hslots slot hslot
  obtain ⟨hsentStart, hsentOffset, -⟩ := members_of_serializeSlot hmembers
  obtain ⟨other, command, haccepted, hsame⟩ := hvalid
  obtain ⟨⟨identity, hidentity, hnames⟩, hphone, -, -, hparty, t, hget, haction⟩ :=
    validateReservation_eq_ok.mp haccepted
  have hutc' : payload.get Field.utcOffsetMinutes.name = some (.integer m) := by
    have hdiv : utcoffset zone' slot.startsAt / minutes 1 = m := by
      rw [hoffset]
      simp only [minutes]
      omega
    rw [hutc, hsentOffset, hdiv]
  refine ⟨{ command with
    localStart := slot.localStart
    utcOffsetMinutes := m
    localStart_ck := hslot.localStart
    utcOffsetMinutes_ck := hm }, ?_, rfl, ?_⟩
  · refine validateReservation_of_accepts ⟨⟨identity, ?_, hnames⟩, ?_, ⟨some m, ?_, ?_⟩, ?_, ?_,
      t, ?_, haction⟩
    · rw [← hidentity]
      refine validateNewsletterStatusIdentity_congr fun f hf => hsame f ?_ ?_
      · rintro rfl
        exact absurd hf (by decide)
      · rintro rfl
        exact absurd hf (by decide)
    · rw [← hphone]
      unfold phoneField
      rw [hsame .phone (by decide) (by decide)]
    · exact startField_localText hpy hslot hoffset hm (hstart.trans hsentStart)
    · rintro o ⟨⟩
      rfl
    · rw [hutc']
      rfl
    · rw [← hparty, hsame .partySize (by decide) (by decide)]
    · rw [← hget, hsame .newsletterAction (by decide) (by decide)]
  · show slot.localStart - minutes m = slot.startsAt
    rw [← hslot.shown, ← hoffset, utcoffset]
    ring

/-- A booking for two, at a start that is still to be chosen. -/
def dinner (startsAtLocal : Text) (utcOffsetMinutes : ℤ) : Payload :=
  [(text "first_name", .string (text "Ada")),
    (text "last_name", .string (text "Lovelace")),
    (text "email", .string (text "ada@example.com")),
    (text "confirmation_email", .string (text "ada@example.com")),
    (text "starts_at_local", .string startsAtLocal),
    (text "utc_offset_minutes", .integer utcOffsetMinutes),
    (text "party_size", .integer 2),
    (text "newsletter_action", .string (text "no_change"))]

/-- Five in the afternoon, five hours behind. -/
def afternoon : AvailabilitySlot where
  localStart := minutes 1020
  startsAt := minutes 1320
  endsAt := minutes 1440
  available := true

theorem slot_survives_afternoon : ∃ command,
    validateReservation .ascii (dinner (localText (.fixed (-300)) afternoon.startsAt) (-300)) =
        .ok ⟨some command, [], rfl⟩ ∧
      command.localStart = afternoon.localStart ∧
      command.localStart - minutes command.utcOffsetMinutes = afternoon.startsAt := by
  have hresult : decodeAvailability (.fixed 0) (fun _ => some (.fixed (-300))) ⟨0, 2⟩
      [[.string (text "America/New_York")]] [afternoon.values] =
      .ok (.slots ⟨0, 2⟩ (text "America/New_York") [afternoon]) := by decide +kernel
  have hoffset : utcoffset (.fixed (-300)) afternoon.startsAt = minutes (-300) := by decide
  obtain ⟨members, hmembers⟩ := Option.isSome_iff_exists.mp (show
    (serializeSlot (fun _ => []) (.fixed (-300)) afternoon).isSome = true by decide +kernel)
  obtain ⟨hstart, hutc, -⟩ := members_of_serializeSlot hmembers
  refine slot_survives (fun _ _ _ h => h) hresult List.mem_cons_self rfl hoffset (by decide) ?_
    hmembers hstart.symm hutc.symm
  have hother : ((validateReservation .ascii (dinner (text "1970-01-01T18:00:00-05:00")
      (-300))).toOption.bind (·.value)).isSome := by decide +kernel
  obtain ⟨command, hcommand⟩ := exists_command hother
  refine ⟨_, command, hcommand, fun f hstart hutc => ?_⟩
  cases f <;> first | rfl | contradiction

end CafeFausse.Backend
