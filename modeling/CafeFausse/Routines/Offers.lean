import CafeFausse.Routines.Consistency

/-! # Offers and bookings

`provisional_availability` and `book_reservation_core` decide the same question with
different clocks. An offer compares local times, a booking converts the real end of
the reservation back; an offer walks the grid, a booking rounds to whole seconds.
These theorems say exactly where the two agree.
-/

namespace CafeFausse

open Transaction Program Database

variable {env : Environment} {db : Database} {f : Foundation} {hours : RestaurantOperatingHours}
  {localDate partySize now s startsAt : ℤ}

/-- The slot at `s` is offered. -/
structure Offers (env : Environment) (db : Database) (f : Foundation)
    (hours : RestaurantOperatingHours) (localDate partySize now s startsAt : ℤ) : Prop where
  foundation : FoundationOf env db f
  tables : db.restaurantTables.length = 30
  openOn : db.restaurantOperatingHours.filter (·.weekday = Time.isodow localDate) = [hours]
  window : Time.date (f.zone.toLocal now) ≤ localDate ∧
    localDate ≤ Time.date (f.zone.toLocal now) + f.configuration.advanceBookingWindowDays
  party : 1 ≤ partySize ∧ Sql.less f.totalCapacity partySize ≠ some true
  slot : s + Time.minutes f.configuration.reservationDurationMinutes ≤
      localDate * Time.day + hours.closesAt ∧
    ∃ k : ℕ, s = localDate * Time.day + hours.opensAt +
      k * Time.minutes f.configuration.startIntervalMinutes
  candidate : ∃ o, localTimestampCandidates s f.zone = [(startsAt, o)]
  capacity : partySize ≤ ((db.freeTables startsAt
    (startsAt + Time.minutes f.configuration.reservationDurationMinutes)).map
      (·.seatingCapacity)).sum
  lead : localDate ≠ Time.date (f.zone.toLocal now) ∨
    now + Time.minutes f.configuration.sameDayLeadMinutes ≤ startsAt

/-- The rows show the start `s` as available. -/
def Shows (rows : List AvailabilityRow) (s : ℤ) : Prop :=
  ∃ row ∈ rows, row.localStart = some s ∧ row.available = some true

/-- The rows show the start `s` as available at this instant. -/
def Lists (rows : List AvailabilityRow) (s startsAt : ℤ) : Prop :=
  ∃ row ∈ rows, row.localStart = some s ∧ row.startsAt = some startsAt ∧ row.available = some true

instance (rows : List AvailabilityRow) : Decidable (Shows rows s) := by
  unfold Shows; infer_instance
instance (rows : List AvailabilityRow) : Decidable (Lists rows s startsAt) := by
  unfold Lists; infer_instance

/-- The booking rejects a table population other than 30, unless there is none. -/
theorem badTablePopulation_eq_true {tables : List RestaurantTable} :
    badTablePopulation tables = some true ↔ tables ≠ [] ∧ tables.length ≠ 30 := by
  have hcap : ¬ ∃ t ∈ tables, t.seatingCapacity ≤ 0 := fun ⟨t, _, ht⟩ =>
    absurd t.capacity_ck (not_lt.mpr ht)
  unfold badTablePopulation Sql.arrayAgg
  simp only [Sql.or_eq_true, hcap, decide_false, Option.some.injEq, Bool.false_eq_true, or_false,
    List.map_eq_nil_iff]
  split
  · next h => simp [h]
  · next h => simp [h]

theorem FoundationOf.tables_length (h : FoundationOf env db f) (hne : db.restaurantTables ≠ []) :
    db.restaurantTables.length = 30 := by
  by_contra hlen
  refine h.tables (badTablePopulation_eq_true.mpr ⟨fun he => hne ?_, by simpa using hlen⟩)
  exact List.length_eq_zero_iff.mp (by rw [← Sql.length_orderBy (·.tableNumber), he]; rfl)

theorem not_incomplete (h : FoundationOf env db f) (ht : db.restaurantTables.length = 30) :
    ¬ db.Incomplete := by
  rintro (hc | hh | hw | hl | ⟨t, -, hcap⟩)
  · exact hc (by simp [h.configuration])
  · exact hh h.hours.1
  · exact hw h.hours.2
  · exact hl ht
  · exact absurd t.capacity_ck (not_lt.mpr hcap)

theorem FoundationOf.of_complete (h : ¬ db.Incomplete)
    (hc : strict (db.reservationConfiguration.filter (·.configurationId = 1)) =
      .ok f.configuration)
    (hz : env.timezones f.configuration.restaurantTimezone = some f.zone)
    (ht : nullableInteger db.totalCapacity = .ok f.totalCapacity) : FoundationOf env db f := by
  simp only [Database.Incomplete, not_or, not_not] at h
  obtain ⟨-, hl, hw, ht30, -⟩ := h
  rw [filter_configurationId] at hc
  refine ⟨strict_eq_ok.mp hc, ⟨hl, hw⟩, ht, fun hbad => ?_, hz⟩
  exact (badTablePopulation_eq_true.mp hbad).2 (by simpa using ht30)

/-- The seats of the free tables fit in an integer. -/
theorem FoundationOf.free_integer (h : FoundationOf env db f) (startsAt endsAt : ℤ) :
    integer ((db.freeTables startsAt endsAt).map (·.seatingCapacity)).sum =
      .ok ((db.freeTables startsAt endsAt).map (·.seatingCapacity)).sum := by
  have hle := (CafeFausse.capacity_le (freeTables_subperm db startsAt endsAt)).trans h.capacity_le
  have hnonneg : 0 ≤ ((db.freeTables startsAt endsAt).map (·.seatingCapacity)).sum :=
    List.sum_nonneg fun x hx => by
      obtain ⟨t, -, rfl⟩ := List.mem_map.mp hx
      exact t.capacity_ck.le
  unfold integer
  rw [if_pos ⟨by omega, hle⟩]

/-- The row of a slot. -/
def offerRow (db : Database) (f : Foundation) (localDate partySize now l startsAt : ℤ) :
    AvailabilityRow where
  outcome := .slots
  localStart := some l
  startsAt := some startsAt
  endsAt := some (startsAt + Time.minutes f.configuration.reservationDurationMinutes)
  available := some (decide (partySize ≤ ((db.freeTables startsAt
      (startsAt + Time.minutes f.configuration.reservationDurationMinutes)).map
        (·.seatingCapacity)).sum ∧
    (localDate ≠ Time.date (f.zone.toLocal now) ∨
      now + Time.minutes f.configuration.sameDayLeadMinutes ≤ startsAt)))

theorem slotRow_of (h : FoundationOf env db f) {l o : ℤ}
    (hc : localTimestampCandidates l f.zone = [(startsAt, o)]) :
    slotRow db f.configuration f.zone localDate partySize now l =
      .ok (some (offerRow db f localDate partySize now l startsAt)) := by
  unfold slotRow
  rw [hc]
  simp only [h.free_integer]
  rfl

theorem slotRow_none {l : ℤ} (hc : ∀ startsAt o, localTimestampCandidates l f.zone ≠ [(startsAt, o)]) :
    slotRow db f.configuration f.zone localDate partySize now l = .ok none := by
  unfold slotRow
  split
  · next startsAt o h => exact absurd h (hc startsAt o)
  · rfl

/-- A turn of the loop gives the row of the slot if the local start has one instant. -/
theorem slotRow_eq_some (h : FoundationOf env db f) {l : ℤ} {row : AvailabilityRow} :
    slotRow db f.configuration f.zone localDate partySize now l = .ok (some row) ↔
      ∃ startsAt o, localTimestampCandidates l f.zone = [(startsAt, o)] ∧
        offerRow db f localDate partySize now l startsAt = row := by
  constructor
  · intro hrow
    by_cases hc : ∃ startsAt o, localTimestampCandidates l f.zone = [(startsAt, o)]
    · obtain ⟨startsAt, o, hc⟩ := hc
      rw [slotRow_of h hc] at hrow
      exact ⟨startsAt, o, hc, Option.some.inj (Except.ok.inj hrow)⟩
    · rw [slotRow_none fun startsAt o he => hc ⟨startsAt, o, he⟩] at hrow
      cases hrow
  · rintro ⟨startsAt, o, hc, rfl⟩
    exact slotRow_of h hc

theorem exists_slotRow (h : FoundationOf env db f) (localDate partySize now l : ℤ) :
    ∃ row, slotRow db f.configuration f.zone localDate partySize now l = .ok row := by
  by_cases hc : ∃ startsAt o, localTimestampCandidates l f.zone = [(startsAt, o)]
  · obtain ⟨startsAt, o, hc⟩ := hc
    exact ⟨_, slotRow_of h hc⟩
  · exact ⟨none, slotRow_none fun startsAt o he => hc ⟨startsAt, o, he⟩⟩

theorem exists_dayRows (h : FoundationOf env db f) (hours : RestaurantOperatingHours)
    (localDate partySize now : ℤ) :
    ∃ rows, dayRows db f.configuration f.zone hours localDate partySize now = .ok rows := by
  obtain ⟨rows, hrows⟩ := exists_mapM
    (l := slotLocals (Time.minutes f.configuration.startIntervalMinutes)
      (Time.minutes f.configuration.reservationDurationMinutes)
      (localDate * Time.day + hours.closesAt) f.configuration.startInterval_pos
      (localDate * Time.day + hours.opensAt))
    fun l _ => exists_slotRow h localDate partySize now l
  exact ⟨rows.reduceOption, by unfold dayRows; rw [hrows]; rfl⟩

/-- The rows of a day are those of its slots. -/
theorem mem_dayRows (h : FoundationOf env db f) {rows : List AvailabilityRow}
    (hrows : dayRows db f.configuration f.zone hours localDate partySize now = .ok rows)
    {row : AvailabilityRow} :
    row ∈ rows ↔ ∃ l ∈ slotLocals (Time.minutes f.configuration.startIntervalMinutes)
      (Time.minutes f.configuration.reservationDurationMinutes)
      (localDate * Time.day + hours.closesAt) f.configuration.startInterval_pos
      (localDate * Time.day + hours.opensAt), ∃ startsAt o,
        localTimestampCandidates l f.zone = [(startsAt, o)] ∧
        offerRow db f localDate partySize now l startsAt = row := by
  obtain ⟨slots, hslots, hrows⟩ := bind_eq_ok.mp hrows
  cases hrows
  rw [List.reduceOption_mem_iff, mem_of_mapM hslots]
  simp only [slotRow_eq_some h]

theorem localStart_noSlots {o : AvailabilityOutcome} {d : AvailabilityDetail}
    {row : AvailabilityRow} (h : row ∈ [noSlots o d]) : row.localStart ≠ some s := by
  obtain rfl := List.mem_singleton.mp h
  exact nofun

/-- A request for the slots of a day goes through its checks. -/
theorem provisionalAvailability_eq (h : FoundationOf env db f)
    (ht : db.restaurantTables.length = 30)
    (hw : Time.date (f.zone.toLocal now) ≤ localDate ∧
      localDate ≤ Time.date (f.zone.toLocal now) + f.configuration.advanceBookingWindowDays)
    (hp : 1 ≤ partySize ∧ Sql.less f.totalCapacity partySize ≠ some true)
    (ho : db.restaurantOperatingHours.filter (·.weekday = Time.isodow localDate) = [hours]) :
    provisionalAvailability env db (some localDate) (some partySize) now =
      dayRows db f.configuration f.zone hours localDate partySize now := by
  have hrange : ¬ (localDate < Time.date (f.zone.toLocal now) ∨
      Time.date (f.zone.toLocal now) + f.configuration.advanceBookingWindowDays < localDate ∨
      partySize < 1 ∨ Sql.less f.totalCapacity partySize = some true) := by
    rintro (h | h | h | h)
    · omega
    · omega
    · omega
    · exact hp.2 h
  unfold provisionalAvailability
  rw [if_neg (not_incomplete h ht), filter_configurationId, strict_eq_ok.mpr h.configuration]
  simp only [bind_ok, h.zone, h.capacity, if_neg hrange, ho]
  rfl

/-- A row that is available is that of an offered slot. -/
theorem offers_of_mem {rows : List AvailabilityRow} {row : AvailabilityRow}
    (hrows : provisionalAvailability env db (some localDate) (some partySize) now = .ok rows)
    (hrow : row ∈ rows) (hl : row.localStart = some s) (havail : row.available = some true) :
    ∃ f hours startsAt, row.startsAt = some startsAt ∧
      Offers env db f hours localDate partySize now s startsAt := by
  unfold provisionalAvailability at hrows
  split at hrows
  · cases hrows
    exact absurd hl (localStart_noSlots hrow)
  next hcomplete =>
  obtain ⟨configuration, hc, hrows⟩ := bind_eq_ok.mp hrows
  split at hrows
  · cases hrows
    exact absurd hl (localStart_noSlots hrow)
  next zone hz =>
  obtain ⟨total, ht, hrows⟩ := bind_eq_ok.mp hrows
  simp only at hrows
  split at hrows
  · cases hrows
    exact absurd hl (localStart_noSlots hrow)
  next hrange =>
  obtain ⟨hours, ho, hrows⟩ := bind_eq_ok.mp hrows
  simp only [not_or, not_lt] at hrange
  have h : FoundationOf env db ⟨configuration, total, zone⟩ := .of_complete hcomplete hc hz ht
  have h30 : db.restaurantTables.length = 30 := by
    simp only [Database.Incomplete, not_or, not_not] at hcomplete
    exact hcomplete.2.2.2.1
  obtain ⟨l, hslot, startsAt, o, hcand, rfl⟩ := (mem_dayRows h hrows).mp hrow
  cases hl
  have havail := of_decide_eq_true (Option.some.inj havail)
  exact ⟨_, hours, startsAt, rfl, h, h30, strict_eq_ok.mp ho, ⟨hrange.1, hrange.2.1⟩,
    ⟨hrange.2.2.1, hrange.2.2.2⟩, mem_slotLocals.mp hslot, ⟨o, hcand⟩, havail.1, havail.2⟩

/-- An offered slot has an available row. -/
theorem Offers.lists (h : Offers env db f hours localDate partySize now s startsAt) :
    ∃ rows, provisionalAvailability env db (some localDate) (some partySize) now = .ok rows ∧
      Lists rows s startsAt := by
  obtain ⟨rows, hrows⟩ := exists_dayRows h.foundation hours localDate partySize now
  obtain ⟨o, hcand⟩ := h.candidate
  refine ⟨rows, ?_, offerRow db f localDate partySize now s startsAt,
    (mem_dayRows h.foundation hrows).mpr ⟨s, mem_slotLocals.mpr h.slot, startsAt, o, hcand, rfl⟩,
    rfl, rfl, congrArg some (decide_eq_true ⟨h.capacity, h.lead⟩)⟩
  rw [provisionalAvailability_eq h.foundation h.tables h.window h.party h.openOn, hrows]

section Times

theorem Time.date_eq {l d : ℤ} (h : d * Time.day ≤ l) (h' : l < d * Time.day + Time.day) :
    Time.date l = d := by
  unfold Time.date Time.day at *
  omega

theorem ReservationConfiguration.duration_pos (c : ReservationConfiguration) :
    0 < Time.minutes c.reservationDurationMinutes := by
  have := c.duration_ck
  simp only [List.mem_cons, List.not_mem_nil, or_false, Time.minutes] at this ⊢
  omega

/-- A start on the grid is aligned. -/
theorem aligned_of_grid {c : ReservationConfiguration} {k : ℤ}
    (h : s = Time.date s * Time.day + hours.opensAt + k * Time.minutes c.startIntervalMinutes) :
    Aligned c hours s := by
  have hsince : s - (Time.date s * Time.day + hours.opensAt) =
      k * (c.startIntervalMinutes * 60) * Time.second := by
    rw [show s - (Time.date s * Time.day + hours.opensAt) =
      k * Time.minutes c.startIntervalMinutes by omega]
    unfold Time.minutes Time.second
    ring
  unfold Aligned
  simp only
  rw [hsince, Time.round_mul (by decide), Int.mul_tmod_left]

end Times

/-- The interval of a start under the configured duration. -/
def Foundation.startAt (f : Foundation) (s startsAt : ℤ) : ResolvedStart where
  localStart := s
  startsAt
  endsAt := startsAt + Time.minutes f.configuration.reservationDurationMinutes

/-- The real end, read on the local clock, is on the date of the start and not after
closing. -/
def ClosesAfter (f : Foundation) (hours : RestaurantOperatingHours) (s startsAt : ℤ) : Prop :=
  let localEnd :=
    f.zone.toLocal (startsAt + Time.minutes f.configuration.reservationDurationMinutes)
  Time.date localEnd = Time.date s ∧ Time.timeOfDay localEnd ≤ hours.closesAt

instance : Decidable (ClosesAfter f hours s startsAt) := instDecidableAnd

/-- What the current policy asks for, and nothing else. -/
theorem currentPolicy_eq_none {start : ResolvedStart} :
    currentPolicy f hours start partySize now = none ↔
      ¬ OutsideWindow f start now ∧ ¬ ShortLead f start now ∧
      ↑hours.opensAt ≤ Time.timeOfDay start.localStart ∧
      Aligned f.configuration hours start.localStart ∧
      (Time.date (f.zone.toLocal start.endsAt) = Time.date start.localStart ∧
        Time.timeOfDay (f.zone.toLocal start.endsAt) ≤ hours.closesAt) ∧
      1 ≤ partySize ∧ Sql.less f.totalCapacity partySize ≠ some true := by
  unfold currentPolicy
  simp only
  split
  · next h => exact iff_of_false nofun fun h' => h'.1 h
  split
  · next h => exact iff_of_false nofun fun h' => h'.2.1 h
  split
  · next h => exact iff_of_false nofun fun h' => absurd h (not_lt.mpr h'.2.2.1)
  split
  · next h => exact iff_of_false nofun fun h' => h h'.2.2.2.1
  split
  · next h =>
    refine iff_of_false nofun fun ⟨_, _, _, _, ⟨hd, ht⟩, _⟩ => h.elim (· hd) fun hlt => ?_
    exact absurd hlt (not_lt.mpr ht)
  split
  · next h => exact absurd f.configuration.duration_ck h
  split
  · next h =>
    refine iff_of_false nofun fun ⟨_, _, _, _, _, hp, hl⟩ => ?_
    rcases Sql.or_eq_true.mp h with h | h
    · exact absurd (of_decide_eq_true (Option.some.inj h)) (not_lt.mpr hp)
    · exact hl h
  next h₁ h₂ h₃ h₄ h₅ _ h₇ =>
  refine iff_of_true rfl ⟨h₁, h₂, not_lt.mp h₃, not_not.mp h₄, ?_, ?_, ?_⟩
  · exact ⟨not_not.mp (not_or.mp h₅).1, not_lt.mp (not_or.mp h₅).2⟩
  · by_contra hp
    exact h₇ (Sql.or_eq_true.mpr (.inl (congrArg some (decide_eq_true (not_le.mp hp)))))
  · exact fun hl => h₇ (Sql.or_eq_true.mpr (.inr hl))

theorem Offers.date (h : Offers env db f hours localDate partySize now s startsAt) :
    Time.date s = localDate := by
  obtain ⟨hend, k, hk⟩ := h.slot
  have hopen := hours.opensAt.2.1
  have hclose := hours.closesAt.2.2
  have hdur := f.configuration.duration_pos
  have hint := mul_nonneg (Int.natCast_nonneg k) f.configuration.startInterval_pos.le
  exact Time.date_eq (by omega) (by omega)

theorem Offers.not_outside (h : Offers env db f hours localDate partySize now s startsAt) :
    ¬ OutsideWindow f (f.startAt s startsAt) now := by
  have hdate := h.date
  rintro (hlt | hlt)
  · exact absurd (hdate ▸ hlt) (not_lt.mpr h.window.1)
  · exact absurd (hdate ▸ hlt) (not_lt.mpr h.window.2)

theorem Offers.not_short (h : Offers env db f hours localDate partySize now s startsAt) :
    ¬ ShortLead f (f.startAt s startsAt) now := by
  rintro ⟨htoday, hlt⟩
  rcases h.lead with hne | hle
  · exact hne (h.date.symm.trans htoday)
  · exact absurd hlt (not_lt.mpr hle)

/-- The policy admits an offered slot exactly if it closes in time. -/
theorem Offers.policy (h : Offers env db f hours localDate partySize now s startsAt) :
    currentPolicy f hours (f.startAt s startsAt) partySize now = none ↔
      ClosesAfter f hours s startsAt := by
  have hdate := h.date
  obtain ⟨hend, k, hk⟩ := h.slot
  have hint := mul_nonneg (Int.natCast_nonneg k) f.configuration.startInterval_pos.le
  rw [currentPolicy_eq_none]
  refine ⟨fun hp => hp.2.2.2.2.1, fun hc => ⟨h.not_outside, h.not_short, ?_, ?_, hc, h.party⟩⟩
  · have := Time.date_add_timeOfDay s
    show (hours.opensAt : ℤ) ≤ Time.timeOfDay s
    rw [hdate] at this
    omega
  · show Aligned f.configuration hours s
    exact aligned_of_grid (k := k) (by rw [hdate]; exact hk)

/-- The free tables are fit for the allocator. -/
theorem validTables_free {ct : CharacterType} (hc : Constraints ct db) (startsAt endsAt : ℤ) :
    Allocation.ValidTables
      ((db.freeTables startsAt endsAt).map fun t => (t.tableNumber, t.seatingCapacity)) := by
  refine ⟨fun t ht => ?_, ?_⟩
  · obtain ⟨row, -, rfl⟩ := List.mem_map.mp ht
    exact ⟨row.number_ck, row.capacity_ck⟩
  · rw [List.map_map, List.isChain_iff_pairwise, List.pairwise_map]
    exact Sql.orderBy_pairwise_lt ((List.filter_sublist.map _).nodup hc.tables_pk)

/-- The tables of an offered slot seat the party. -/
theorem Offers.allocates {ct : CharacterType} {readings : Readings}
    (h : Offers env db f hours localDate partySize now s startsAt) (hc : Constraints ct db)
    (hsecond : readings.second = now) :
    ∃ a, Allocates db f (f.startAt s startsAt) partySize none readings a := by
  have hzip := zip_freeTables db startsAt
    (startsAt + Time.minutes f.configuration.reservationDurationMinutes)
  have hsum (l : List RestaurantTable) :
      Allocation.capacity (l.map fun t => (t.tableNumber, t.seatingCapacity)) =
        (l.map (·.seatingCapacity)).sum := by
    simp [Allocation.capacity, Function.comp_def]
  have hlen := (freeTables_subperm db startsAt
    (startsAt + Time.minutes f.configuration.reservationDurationMinutes)).length_le
  have hpos : 0 < partySize := by have := h.party.1; omega
  obtain ⟨a, ha⟩ := exists_selectTableAllocation readings.random (by simp)
    (by rwa [List.length_map, ← h.tables]) hpos (hzip ▸ validTables_free hc _ _)
    (by rw [hzip, hsum]; exact h.foundation.free_integer _ _) (by rw [hzip, hsum]; exact h.capacity)
  exact ⟨a, ha, hsecond ▸ h.not_outside, hsecond ▸ h.not_short⟩

section Booking

variable {m : Memory Database Sequence} {request : BookingRequest} {readings : Readings}

/-- The call returns a row with this property. -/
def Returns (p : Routine Empty) (m : Memory Database Sequence) (P : BookingRow → Prop) : Prop :=
  ∃ row db', p.transact m = (.returned (.booking row), db') ∧ P row

theorem returns_iff_wp {p : Routine Empty} {P : BookingRow → Prop} :
    Returns p m P ↔ p.wp (fun x _ => x.elim) (fun ans _ => ∃ row, ans = .booking row ∧ P row)
      (fun _ _ => False) m := by
  unfold Returns wp transact
  cases p.run m with
  | mk x m' =>
    cases x with
    | value x => exact x.elim
    | returned r => simp
    | raised e => simp

/-- A call returns one row, of which all holds that holds of its rows. -/
theorem Returns.all {p : Routine Empty} {P R : BookingRow → Prop}
    {Q : Empty → Memory Database Sequence → Prop} {E : SqlError → Memory Database Sequence → Prop}
    (h : Returns p m P) (h' : p.wp Q (fun ans _ => ∀ row, ans = .booking row → R row) E m) :
    ∃ row, P row ∧ R row := by
  obtain ⟨row, db, hrun, hrow⟩ := h
  unfold wp at h'
  unfold transact at hrun
  cases hp : p.run m with
  | mk x m' =>
    rw [hp] at h' hrun
    cases x with
    | value x => exact x.elim
    | returned r =>
      cases hrun
      exact ⟨row, hrow, h' row rfl⟩
    | raised e => cases hrun

theorem Returns.meet {p : Routine Empty} {P R : BookingRow → Prop}
    {Q : Empty → Memory Database Sequence → Prop} {E : SqlError → Memory Database Sequence → Prop}
    (h : Returns p m P) (h' : p.wp Q (fun ans _ => ∃ row, ans = .booking row ∧ R row) E m) :
    ∃ row, P row ∧ R row :=
  h.all (wp_mono h' (fun _ _ hq => hq) (fun _ _ ⟨_, he, hrow⟩ _ he' =>
    Answer.booking.inj (he.symm.trans he') ▸ hrow) fun _ _ he => he)

theorem FoundationOf.unique {f' : Foundation} (h : FoundationOf env db f)
    (h' : FoundationOf env db f') : f = f' := by
  obtain ⟨c, t, z⟩ := f
  obtain ⟨c', t', z'⟩ := f'
  obtain rfl : c = c' := List.singleton_inj.mp (h.configuration.symm.trans h'.configuration)
  obtain rfl : t = t' := Except.ok.inj (h.capacity.symm.trans h'.capacity)
  obtain rfl : z = z' := Option.some.inj (h.zone.symm.trans h'.zone)
  rfl

theorem returns_bookReservation {P : BookingRow → Prop} (hv : request.Valid env.character) :
    Returns (bookReservation env request.arguments readings) m P ↔
      Returns (bookRequest env request none none readings) m P := by
  unfold bookReservation bookReservationCore
  rw [if_neg (by simp), normalizedInput_eq_some.mpr ⟨rfl, hv, by simp⟩]

theorem Offers.resolved {o : ℤ} (hcand : localTimestampCandidates s f.zone = [(startsAt, o)])
    (hs : request.localStart = .finite s)
    (ho : startsAt = s - Time.minutes request.utcOffsetMinutes) :
    ResolvedTo f request (f.startAt s startsAt) := by
  have hcand' := mem_localTimestampCandidates (hcand ▸ List.mem_singleton_self _)
  refine ⟨hs, ?_, rfl⟩
  show localTimestampCandidates s f.zone = [(startsAt, _)]
  rw [hcand]
  have : o = request.utcOffsetMinutes := by
    have := hcand'.1
    unfold Time.minutes at this ho
    omega
  rw [this]

theorem not_books_currentPolicy {o : Outcome} {d : Detail}
    {start : ResolvedStart} (h : currentPolicy f hours start partySize now = some (o, d)) :
    ¬ o.Books := by
  rw [outcome_currentPolicy h]
  simp [Outcome.Books]

/-- What availability offers, booking accepts, exactly for the slots that also end in
time on the local clock: the real end falls on the same date and not after closing. -/
theorem offered_booked_iff (hc : Constraints env.character m.view)
    (hfresh : ∀ q, ¬ InUse m.view q (m.supply q 0))
    (hlisted : ∃ rows, provisionalAvailability env m.view (some localDate) (some partySize) now =
      .ok rows ∧ Lists rows s startsAt)
    (hv : request.Valid env.character) (hnew : ∀ c ∈ m.view.customers, c.email ≠ request.email)
    (hs : request.localStart = .finite s) (hp : request.partySize = partySize)
    (ho : startsAt = s - Time.minutes request.utcOffsetMinutes)
    (hfirst : readings.first = now) (hsecond : readings.second = now) :
    Returns (bookReservation env request.arguments readings) m (·.outcome = .booked) ↔
      ∃ f hours, FoundationOf env m.view f ∧ m.view.restaurantOperatingHours.filter
        (·.weekday = Time.isodow localDate) = [hours] ∧ ClosesAfter f hours s startsAt := by
  obtain ⟨rows, hrows, row, hrow, hl, hstart, havail⟩ := hlisted
  obtain ⟨f, hours, startsAt', hstart', h⟩ := offers_of_mem hrows hrow hl havail
  obtain rfl : startsAt = startsAt' := Option.some.inj (hstart.symm.trans hstart')
  obtain ⟨o, hcand⟩ := h.candidate
  have hres : ResolvedTo f request (f.startAt s startsAt) := Offers.resolved hcand hs ho
  have hopen : m.view.restaurantOperatingHours.filter
      (·.weekday = Time.isodow (Time.date (f.startAt s startsAt).localStart)) = [hours] := by
    show m.view.restaurantOperatingHours.filter
      (·.weekday = Time.isodow (Time.date s)) = [hours]
    rw [h.date]
    exact h.openOn
  rw [returns_bookReservation hv]
  subst hp hfirst
  constructor
  · intro hret
    refine ⟨f, hours, h.foundation, h.openOn, ?_⟩
    by_contra hclose
    obtain ⟨⟨outcome, detail⟩, hpolicy⟩ := Option.ne_none_iff_exists'.mp (mt h.policy.mp hclose)
    obtain ⟨row, hbooked, hno⟩ := hret.meet (R := fun row => ¬ row.outcome.Books)
      (wp_bookRequest_refused (Q := fun x _ => x.elim) (E := fun _ _ => True) h.foundation hres
        hopen hpolicy ⟨_, rfl, not_books_currentPolicy hpolicy⟩)
    exact hno (.inl hbooked)
  · rintro ⟨f', hours', hf', hh', hclose⟩
    obtain rfl := h.foundation.unique hf'
    obtain rfl := List.singleton_inj.mp (h.openOn.symm.trans hh')
    obtain ⟨a, ha⟩ := h.allocates hc hsecond
    have hadm : Admitted env request readings m.view f (f.startAt s startsAt) hours :=
      ⟨h.foundation, hres, hopen, h.policy.mpr hclose⟩
    exact returns_iff_wp.mpr (wp_bookRequest_new hadm hc hfresh hv hnew ha
      fun row m' hrow => ⟨row, rfl, hrow⟩)

/-- The request is admitted and seated. -/
def Seated (env : Environment) (request : BookingRequest) (readings : Readings) (db : Database) :
    Prop :=
  ∃ f start hours a, Admitted env request readings db f start hours ∧
    Allocates db f start request.partySize none readings a

theorem Placement.seated (b : Placement env request readings none db) :
    Seated env request readings db := by
  have ha := b.allocates
  rw [b.resolves.restaurant] at ha
  exact ⟨_, _, _, _, b.admitted, ha.allocation, ha.window, ha.lead⟩

/-- What a call must have found to book. -/
theorem Returns.seated {p : BookingArguments} (hc : Constraints env.character m.view)
    (hfresh : ∀ q, ¬ InUse m.view q (m.supply q 0))
    (h : Returns (bookReservation env p readings) m (·.outcome.Books)) :
    ∃ request, p = request.arguments ∧ request.Valid env.character ∧
      Seated env request readings m.view := by
  cases hp : normalizedInput env.character p none with
  | none =>
    obtain ⟨row, db', hrun, hrow⟩ := h
    unfold bookReservation bookReservationCore at hrun
    rw [if_neg (by simp), hp] at hrun
    cases hrun
    simp [refusal, Outcome.Books] at hrow
  | some request =>
    obtain ⟨rfl, hv, -⟩ := normalizedInput_eq_some.mp hp
    obtain ⟨row, hbooks, himp⟩ := ((returns_bookReservation hv).mp h).meet
      (R := fun row => row.outcome.Books → Seated env request readings m.view)
      (wp_bookRequest (P := fun row _ => row.outcome.Books → Seated env request readings m.view)
        hc hfresh hv (fun row hno hb => absurd hb hno) fun b _ => b.seated)
    exact ⟨request, rfl, hv, himp hbooks⟩

/-- The start lies on the grid of the day and ends by closing, both in local time. -/
structure OnSchedule (f : Foundation) (hours : RestaurantOperatingHours) (s : ℤ) : Prop where
  grid : ∃ k : ℕ, s = Time.date s * Time.day + hours.opensAt +
    k * Time.minutes f.configuration.startIntervalMinutes
  closing : s + Time.minutes f.configuration.reservationDurationMinutes ≤
    Time.date s * Time.day + hours.closesAt

/-- A start that booking admitted and seated is offered as soon as it is on schedule. -/
theorem Admitted.offers {f : Foundation} {start : ResolvedStart} {hours : RestaurantOperatingHours}
    {a : CafeFausse.Allocation} (h : Admitted env request readings db f start hours)
    (ha : Allocates db f start request.partySize none readings a)
    (hs : OnSchedule f hours start.localStart) :
    Offers env db f hours (Time.date start.localStart) request.partySize readings.first
      start.localStart start.startsAt := by
  obtain ⟨hout, hshort, hopens, -, -, hp, hl⟩ := currentPolicy_eq_none.mp h.policy
  obtain ⟨hpos, rows, hsub, -, htotal, hparty⟩ := ha.seats
  have hne : db.restaurantTables ≠ [] := by
    rintro he
    have hnil := (hsub.subperm.trans (freeTables_subperm db _ _)).subset
    rw [he] at hnil
    rw [List.eq_nil_iff_forall_not_mem.mpr fun t ht => List.not_mem_nil (hnil ht)] at htotal
    simp only [List.map_nil, List.sum_nil] at htotal
    omega
  refine ⟨h.foundation, h.foundation.tables_length hne, h.openOn, ⟨?_, ?_⟩, ⟨hp, hl⟩,
    ⟨hs.closing, hs.grid⟩, ⟨_, h.resolved.candidates⟩, ?_, ?_⟩
  · exact not_lt.mp fun hlt => hout (.inl hlt)
  · exact not_lt.mp fun hlt => hout (.inr hlt)
  · rw [← h.resolved.endsAt]
    exact (htotal ▸ hparty).trans (CafeFausse.capacity_le hsub.subperm)
  · by_contra hno
    rw [not_or, not_not, not_le] at hno
    exact hshort hno

/-- What booking admits, availability lists, exactly if the start lies on the grid to
the microsecond and ends by closing in local time. -/
theorem booked_listed_iff {p : BookingArguments} (hc : Constraints env.character m.view)
    (hfresh : ∀ q, ¬ InUse m.view q (m.supply q 0))
    (hfirst : readings.first = now)
    (hbooked : Returns (bookReservation env p readings) m (·.outcome.Books)) :
    ∃ s partySize, p.localStart = some (.finite s) ∧ p.partySize = some partySize ∧
      ((∃ rows, provisionalAvailability env m.view (some (Time.date s)) (some partySize) now =
          .ok rows ∧ Shows rows s) ↔
        ∃ f hours, FoundationOf env m.view f ∧ m.view.restaurantOperatingHours.filter
          (·.weekday = Time.isodow (Time.date s)) = [hours] ∧ OnSchedule f hours s) := by
  obtain ⟨request, rfl, hv, f, start, hours, a, hadm, ha⟩ := hbooked.seated hc hfresh
  subst hfirst
  refine ⟨start.localStart, request.partySize, congrArg some hadm.resolved.localStart, rfl, ?_⟩
  constructor
  · rintro ⟨rows, hrows, row, hrow, hl, havail⟩
    obtain ⟨f', hours', startsAt, -, h⟩ := offers_of_mem hrows hrow hl havail
    exact ⟨f', hours', h.foundation, h.openOn, h.slot.2, h.slot.1⟩
  · rintro ⟨f', hours', hf', hh', hs⟩
    obtain rfl := hadm.foundation.unique hf'
    obtain rfl := List.singleton_inj.mp (hadm.openOn.symm.trans hh')
    obtain ⟨rows, hrows, row, hrow, hl, -, havail⟩ := (hadm.offers ha hs).lists
    exact ⟨rows, hrows, row, hrow, hl, havail⟩

end Booking

instance {p : Routine Empty} {m : Memory Database Sequence} {P : BookingRow → Prop}
    [DecidablePred P] : Decidable (Returns p m P) :=
  match h : p.transact m with
  | (.returned (.booking row), db') => decidable_of_iff (P row) (by simp [Returns, h])
  | (.returned (.newsletter _ _), _) => .isFalse (by simp [Returns, h])
  | (.returned (.configuration _), _) => .isFalse (by simp [Returns, h])
  | (.returned (.hours _), _) => .isFalse (by simp [Returns, h])
  | (.returned (.table _), _) => .isFalse (by simp [Returns, h])
  | (.raised _, _) => .isFalse (by simp [Returns, h])

section FirstBooking

/-- A request for the opening of the second day. -/
def firstRequest : BookingRequest where
  firstName := text "Ada"
  middleInitial := none
  lastName := text "Byron"
  email := text "ada@example.com"
  phone := none
  localStart := .finite (Time.day + Time.minutes (17 * 60))
  utcOffsetMinutes := -300
  partySize := 2
  newsletterAction := .subscribe

/-- Both looks at the clock show noon of the first day, and any draw takes the first table. -/
def firstNoon : Readings where
  first := Time.minutes (17 * 60)
  second := Time.minutes (17 * 60)
  random := ⟨fun _ => 0, fun _ h => h⟩

/-- A lone call on a database without customers and reservations. -/
def firstMemory (db : Database) : Memory Database Sequence := ⟨db, [], fun _ i => i + 1⟩

theorem seed_foundation :
    FoundationOf .eastern seed ⟨seedConfiguration, some 120, .fixed (-300)⟩ where
  configuration := rfl
  hours := by decide
  capacity := by decide +kernel
  tables := by decide +kernel
  zone := by simp [Environment.eastern, seedConfiguration]

theorem firstMemory_fresh {db : Database} (hc : db.customers = []) (hr : db.reservations = [])
    (q : Sequence) : ¬ InUse (firstMemory db).view q ((firstMemory db).supply q 0) := by
  cases q <;> simp [firstMemory, InUse, hc, hr]

theorem offered_booked_iff_first :
    Returns (bookReservation .eastern firstRequest.arguments firstNoon) (firstMemory seed)
      (·.outcome = .booked) := by
  have hlisted : ∃ rows, provisionalAvailability .eastern seed (some 1) (some 2) firstNoon.first =
      .ok rows ∧ Lists rows (Time.day + Time.minutes (17 * 60))
        (Time.day + Time.minutes (22 * 60)) := by decide +kernel
  exact (offered_booked_iff (m := firstMemory seed) (constraints_seed _) (firstMemory_fresh rfl rfl)
    hlisted (by decide +kernel) nofun rfl rfl (by decide) rfl rfl).mpr
    ⟨_, _, seed_foundation, rfl, by decide +kernel⟩

theorem friday : 1 ≤ (5 : ℤ) ∧ (5 : ℤ) ≤ 7 := by decide

theorem midnight : 17 < (24 : ℤ) ∧ (24 : ℤ) ≤ 24 := by decide

/-- Fridays are open until midnight. -/
def lateFriday : Database := seed.putHours (seedHours 5 24 friday midnight)

/-- A request for the last ninety minutes of a Friday. -/
def lateRequest : BookingRequest :=
  { firstRequest with localStart := .finite (Time.day + Time.minutes (22 * 60 + 30)) }

/-- A slot that ends at midnight is offered, and its booking is refused. -/
theorem midnight_offered_refused :
    Constraints (Environment.eastern).character lateFriday ∧
      lateRequest.Valid (Environment.eastern).character ∧ lateFriday.customers = [] ∧
      (∃ rows, provisionalAvailability .eastern lateFriday (some 1) (some lateRequest.partySize)
        firstNoon.first = .ok rows ∧ Lists rows (Time.day + Time.minutes (22 * 60 + 30))
          (Time.day + Time.minutes (22 * 60 + 30) -
            Time.minutes lateRequest.utcOffsetMinutes)) ∧
      Returns (bookReservation .eastern lateRequest.arguments firstNoon) (firstMemory lateFriday)
        (· = refusal .invalidRequest .endAfterClosing) :=
  ⟨(constraints_seed _).putHours, by decide +kernel, rfl, by decide +kernel, by decide +kernel⟩

/-- A start four tenths of a second after opening. -/
def subsecondRequest : BookingRequest :=
  { firstRequest with localStart := .finite (Time.day + Time.minutes (17 * 60) + 400000) }

theorem booked_listed_iff_first :
    ∃ s partySize, firstRequest.arguments.localStart = some (.finite s) ∧
      firstRequest.arguments.partySize = some partySize ∧
      ((∃ rows, provisionalAvailability .eastern seed (some (Time.date s)) (some partySize)
          firstNoon.first = .ok rows ∧ Shows rows s) ↔
        ∃ f hours, FoundationOf .eastern seed f ∧ seed.restaurantOperatingHours.filter
          (·.weekday = Time.isodow (Time.date s)) = [hours] ∧ OnSchedule f hours s) :=
  booked_listed_iff (m := firstMemory seed) (constraints_seed _) (firstMemory_fresh rfl rfl) rfl
    (by decide +kernel)

/-- It is booked, and no list of slots shows it. -/
theorem subsecond_booked_unlisted :
    Constraints (Environment.eastern).character seed ∧
      Returns (bookReservation .eastern subsecondRequest.arguments firstNoon) (firstMemory seed)
        (·.outcome = .booked) ∧
      ¬ ∃ rows, provisionalAvailability .eastern seed (some 1) (some subsecondRequest.partySize)
        firstNoon.first = .ok rows ∧ Shows rows (Time.day + Time.minutes (17 * 60) + 400000) :=
  ⟨constraints_seed _, by decide +kernel, by decide +kernel⟩

end FirstBooking

end CafeFausse
