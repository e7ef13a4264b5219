import CafeFausse.Backend.Reads
import CafeFausse.Clock.Candidates
import CafeFausse.Routines.Overflow

/-! # The reads accept what the writers leave

The checks of the read gateways against all foundation states that the three writers can
reach. Both reads answer exactly where every opening and closing time is one of Python, in whole
seconds, the booking window lies in its calendar, and the clock of the session neither stretches
nor reorders the slots.
-/

namespace CafeFausse.Backend

open Python Time Transaction Program Database

/-- The calls that write the foundation. -/
def writesFoundation : Call → Bool
  | .setReservationConfiguration _ => true
  | .setRestaurantOperatingHours _ _ _ => true
  | .setRestaurantTableCapacity _ _ => true
  | _ => false

/-- The foundation rows are those that the writers make of the seed, in a database with any
customers and reservations. -/
inductive Reached (env : Environment) : Database → Prop
  | seed : Reached env seed
  | others {db : Database} (h : Reached env db) (customers : List Customer)
      (reservations : List Reservation) (assignments : List ReservationTableAssignment) :
    Reached env { db with
      customers, reservations, reservationTableAssignments := assignments }
  | written {db : Database} (h : Reached env db) {call : Call} (hcall : writesFoundation call = true)
      (supply : Sequence → ℕ → ℕ) :
    Reached env (((server env).body call).transact ⟨db, [], supply⟩).2

/-- The foundation rows are complete, and the server knows the zone. -/
structure Furnished (env : Environment) (db : Database) : Prop where
  configuration : ∃ c, db.reservationConfiguration = [c] ∧
    (env.timezones c.restaurantTimezone).isSome = true
  weekdays : db.restaurantOperatingHours.map (·.weekday) = [1, 2, 3, 4, 5, 6, 7]
  tables : db.restaurantTables.length = 30

variable {env : Environment} {db : Database} {m : Memory Database Sequence}

section Writers

theorem Furnished.putConfiguration (h : Furnished env db) {row : ReservationConfiguration}
    (hz : (env.timezones row.restaurantTimezone).isSome = true) :
    Furnished env (db.putConfiguration row) := by
  obtain ⟨c, hc, -⟩ := h.configuration
  refine ⟨⟨row, ?_, hz⟩, h.weekdays, h.tables⟩
  simp only [Database.putConfiguration, hc, List.map_cons, List.map_nil, c.singleton_ck, if_true]

theorem Furnished.putHours (h : Furnished env db) (row : RestaurantOperatingHours) :
    Furnished env (db.putHours row) := by
  refine ⟨h.configuration, ?_, h.tables⟩
  rw [← h.weekdays]
  simp only [Database.putHours, List.map_map]
  refine List.map_congr_left fun x _ => ?_
  simp only [Function.comp_apply]
  split
  · next hx => exact hx.symm
  · rfl

theorem Furnished.putTable (h : Furnished env db) (row : RestaurantTable) :
    Furnished env (db.putTable row) := by
  refine ⟨h.configuration, h.weekdays, ?_⟩
  rw [Database.putTable, List.length_map]
  exact h.tables

theorem Furnished.written (h : Furnished env m.view) {call : Call}
    (hcall : writesFoundation call = true) :
    Furnished env (((server env).body call).transact m).2 := by
  refine transact_of_wp (P := fun r => Furnished env r.2) ?_
  cases call with
  | bookReservation p readings => cases hcall
  | setNewsletterPreference p => cases hcall
  | setReservationConfiguration p =>
    show (setReservationConfiguration env p).wp _ _ _ m
    unfold setReservationConfiguration
    refine bind_wp (wp_acquire.mpr ?_)
    split
    · exact h
    next timezone htimezone =>
    refine bind_wp (wp_query.mpr (bind_wp (wp_liftExcept.mpr ?_)))
    split
    case h_2 => exact h
    refine bind_wp (wp_execute.mpr ?_)
    split
    case h_2 => exact h
    next row w hw =>
    obtain ⟨hrow, rfl⟩ := updateConfiguration_ok hw
    obtain ⟨hname, -⟩ := row_ok hrow
    obtain ⟨-, hknown⟩ := Option.filter_eq_some_iff.mp htimezone
    exact h.putConfiguration (hname ▸ hknown)
  | setRestaurantOperatingHours weekday opensAt closesAt =>
    show (setRestaurantOperatingHours weekday opensAt closesAt).wp _ _ _ m
    unfold setRestaurantOperatingHours
    refine bind_wp (wp_acquire.mpr (bind_wp (wp_execute.mpr ?_)))
    split
    case h_2 => exact h
    next row w hw =>
    obtain ⟨-, rfl⟩ := updateHours_ok hw
    exact h.putHours row
  | setRestaurantTableCapacity tableNumber seatingCapacity =>
    show (setRestaurantTableCapacity tableNumber seatingCapacity).wp _ _ _ m
    unfold setRestaurantTableCapacity
    refine bind_wp (wp_acquire.mpr (bind_wp (wp_execute.mpr ?_)))
    split
    case h_2 => exact h
    next row w hw =>
    obtain ⟨-, rfl⟩ := updateTable_ok hw
    exact h.putTable row

theorem furnished_of_reached
    (hseed : (env.timezones seedConfiguration.restaurantTimezone).isSome = true)
    (h : Reached env db) : Furnished env db := by
  induction h with
  | seed => exact ⟨⟨seedConfiguration, rfl, hseed⟩, by decide, by decide⟩
  | others h customers reservations assignments ih =>
    exact ⟨ih.configuration, ih.weekdays, ih.tables⟩
  | written h hcall supply ih => exact ih.written hcall

/-- What both routines find of a complete foundation. -/
theorem Furnished.foundationOf (h : Furnished env db) (hfit : SeatsFit db) :
    ∃ f, FoundationOf env db f := by
  obtain ⟨c, hc, hz⟩ := h.configuration
  obtain ⟨zone, hz⟩ := Option.isSome_iff_exists.mp hz
  obtain ⟨total, htotal⟩ := totalCapacity_ok_iff.mpr hfit
  refine ⟨⟨c, total, zone⟩, hc, ⟨?_, ?_⟩, htotal, ?_, hz⟩
  · rw [← List.length_map (·.weekday), h.weekdays]
    rfl
  · rw [Database.weekdays, h.weekdays]
    decide
  · intro hbad
    exact (badTablePopulation_eq_true.mp hbad).2 (by rw [Sql.length_orderBy, h.tables])

end Writers

section Loads

variable {α β ε : Type}

/-- A map that fails in one way only fails if it fails somewhere. -/
theorem mapM_ite {f : α → Except ε β} {p : α → Prop} [DecidablePred p] {g : α → β} {e : ε}
    (hf : ∀ x, f x = if p x then .ok (g x) else .error e) (l : List α) :
    l.mapM f = if ∀ x ∈ l, p x then .ok (l.map g) else .error e := by
  induction l with
  | nil => rfl
  | cons x l ih =>
    rw [List.mapM_cons, hf x, ih]
    by_cases hx : p x
    · by_cases hl : ∀ y ∈ l, p y
      · rw [if_pos hx, if_pos hl, if_pos (List.forall_mem_cons.mpr ⟨hx, hl⟩)]
        rfl
      · rw [if_pos hx, if_neg hl, if_neg fun h => hl (List.forall_mem_cons.mp h).2]
        rfl
    · rw [if_neg hx, if_neg fun h => hx (List.forall_mem_cons.mp h).1]
      rfl

end Loads

section Context

variable {zoneInfo : ZoneInfo} {now : ℤ} {f : Foundation}

/-- Every opening and closing time is one of Python, in whole seconds. -/
def WholeSeconds (db : Database) : Prop :=
  ∀ h ∈ db.restaurantOperatingHours,
    h.opensAt.val % second = 0 ∧ h.closesAt.val % second = 0 ∧ h.closesAt.val < day

instance (db : Database) : Decidable (WholeSeconds db) := List.decidableBAll _ _

/-- The values of opening hours. -/
def hoursValues (h : RestaurantOperatingHours) : List Value :=
  [.integer h.weekday, .time h.opensAt, .time h.closesAt]

theorem hoursRow_eq (h : RestaurantOperatingHours) : hoursRow h =
    if h.closesAt.val < day then .ok (hoursValues h) else .error .databaseContractError := by
  have hbounds : h.opensAt.val < h.closesAt.val := h.bounds_ck
  unfold hoursRow loadTime load
  by_cases hc : h.closesAt.val < day
  · rw [if_pos (hbounds.trans hc), if_pos hc, if_pos hc]
    rfl
  · rw [if_neg hc, if_neg hc]
    split <;> rfl

/-- Days that come in order are checked for their times only. -/
theorem decodeHours_isOk {hours : List RestaurantOperatingHours} {n : ℕ}
    (hdays : hours.map (·.weekday) = (List.range' n hours.length).map fun (k : ℕ) => (k : ℤ)) :
    (∃ r, decodeHours n (hours.map hoursValues) = .ok r) ↔
      ∀ h ∈ hours, h.opensAt.val % second = 0 ∧ h.closesAt.val % second = 0 := by
  induction hours generalizing n with
  | nil => simp [decodeHours]
  | cons h hours ih =>
    rw [List.length_cons, List.range'_succ, List.map_cons, List.map_cons, List.cons_eq_cons] at hdays
    obtain ⟨hday, hdays⟩ := hdays
    rw [List.forall_mem_cons, ← ih hdays]
    have hhour : decodeHour n (hoursValues h) =
        if h.opensAt.val % second = 0 ∧ h.closesAt.val % second = 0 then
          .ok ⟨n, h.opensAt, h.closesAt⟩ else .error .databaseContractError := by
      unfold decodeHour hoursValues contractUnless
      have hbounds : h.opensAt.val < h.closesAt.val := h.bounds_ck
      simp only [hday, hbounds, and_true, true_and]
      split <;> rfl
    rw [List.map_cons, decodeHours, hhour]
    by_cases hwhole : h.opensAt.val % second = 0 ∧ h.closesAt.val % second = 0
    · rw [if_pos hwhole, bind_ok]
      simp only [hwhole, and_self, true_and, bind_eq_ok]
      constructor
      · rintro ⟨r, rest, hrest, -⟩
        exact ⟨rest, hrest⟩
      · rintro ⟨rest, hrest⟩
        exact ⟨_, rest, hrest, rfl⟩
    · rw [if_neg hwhole]
      simp only [hwhole, false_and, iff_false]
      rintro ⟨r, hr⟩
      cases hr

theorem orderBy_weekday (h : Furnished env db) :
    Sql.orderBy (·.weekday) db.restaurantOperatingHours = db.restaurantOperatingHours := by
  have hsorted : (db.restaurantOperatingHours.map (·.weekday)).Pairwise (· ≤ ·) := by
    rw [h.weekdays]
    decide
  exact (List.pairwise_map.mp hsorted).insertionSort_eq

theorem hours_isOk (h : Furnished env db) :
    (∃ hours, db.restaurantOperatingHours.mapM hoursRow = .ok hours ∧ hours.length = 7 ∧
      ∃ r, decodeHours 1 hours = .ok r) ↔ WholeSeconds db := by
  have hlength : db.restaurantOperatingHours.length = 7 := by
    rw [← List.length_map (·.weekday), h.weekdays]
    rfl
  have hdays : db.restaurantOperatingHours.map (·.weekday) =
      (List.range' 1 db.restaurantOperatingHours.length).map fun (k : ℕ) => (k : ℤ) := by
    rw [h.weekdays, hlength]
    decide
  rw [mapM_ite hoursRow_eq]
  by_cases hclose : ∀ x ∈ db.restaurantOperatingHours, x.closesAt.val < day
  · simp only [if_pos hclose, Except.ok.injEq, exists_eq_left', List.length_map, hlength, true_and,
      decodeHours_isOk hdays]
    exact ⟨fun hw x hx => ⟨(hw x hx).1, (hw x hx).2, hclose x hx⟩,
      fun hw x hx => ⟨(hw x hx).1, (hw x hx).2.1⟩⟩
  · rw [if_neg hclose]
    refine iff_of_false ?_ fun hw => hclose fun x hx => (hw x hx).2.2
    rintro ⟨hours, hhours, -⟩
    cases hhours

/-- The days from today to the end of the booking window. -/
def firstDay (f : Foundation) (now : ℤ) : ℤ := Time.date (f.zone.toLocal now)

def lastDay (f : Foundation) (now : ℤ) : ℤ :=
  firstDay f now + f.configuration.advanceBookingWindowDays

theorem exists_totalCapacity (h : db.restaurantTables.length = 30) :
    ∃ n, db.totalCapacity = some n ∧ 1 ≤ n := by
  cases htables : db.restaurantTables with
  | nil =>
    rw [htables] at h
    cases h
  | cons table tables =>
    have hrest := seats_nonneg tables
    have htable := table.capacity_ck
    refine ⟨_, by rw [Database.totalCapacity, htables]; rfl, ?_⟩
    rw [List.map_cons, List.sum_cons]
    omega

theorem totalCapacity_eq (hf : FoundationOf env db f) : f.totalCapacity = db.totalCapacity := by
  have hcapacity := hf.capacity
  cases htotal : db.totalCapacity with
  | none =>
    rw [htotal] at hcapacity
    exact (Except.ok.inj hcapacity).symm
  | some n =>
    rw [htotal] at hcapacity
    obtain ⟨k, hk, htotal⟩ := map_eq_ok.mp hcapacity
    rw [← htotal, integer_eq_ok hk]

/-- The values of the configuration, of today and of all tables. -/
def contextValues (c : ReservationConfiguration) (first last capacity : ℤ) : List Value :=
  [.integer c.startIntervalMinutes, .integer c.reservationDurationMinutes,
    .integer c.advanceBookingWindowDays, .integer c.sameDayLeadMinutes,
    .string c.restaurantTimezone, .date first, .date last, .integer 30, .integer capacity,
    .integer 0]

theorem contextRow_eq (now : ℤ) (h : Furnished env db) (hf : FoundationOf env db f) {capacity : ℤ}
    (hcapacity : db.totalCapacity = some capacity) :
    contextRow env db now f.configuration =
      if DateFits (firstDay f now) ∧ DateFits (lastDay f now) then
        .ok (contextValues f.configuration (firstDay f now) (lastDay f now) capacity)
      else .error .databaseContractError := by
  have hpositive : db.restaurantTables.filter (·.seatingCapacity ≤ 0) = [] := by
    refine List.filter_eq_nil_iff.mpr fun t _ => ?_
    simpa using t.capacity_ck
  unfold contextRow loadDate load
  simp only [hf.zone, hcapacity, nullable, hpositive, h.tables]
  change (if DateFits (firstDay f now) then _ else _) >>= _ = _
  by_cases hfirst : DateFits (firstDay f now)
  · rw [if_pos hfirst, bind_ok]
    change (if DateFits (lastDay f now) then _ else _) >>= _ = _
    by_cases hlast : DateFits (lastDay f now)
    · rw [if_pos hlast, bind_ok, if_pos ⟨hfirst, hlast⟩]
      rfl
    · rw [if_neg hlast, if_neg fun hboth => hlast hboth.2]
      rfl
  · have hboth : ¬ (DateFits (firstDay f now) ∧ DateFits (lastDay f now)) := fun hb => hfirst hb.1
    rw [if_neg hfirst, if_neg hboth]
    rfl

theorem decodeContext_isOk {c : ReservationConfiguration} {zone : Zone} {first capacity : ℤ}
    {hours : List (List Value)} (hzone : zoneInfo c.restaurantTimezone = some zone)
    (hlast : DateFits (first + c.advanceBookingWindowDays)) (hcapacity : 1 ≤ capacity) :
    (∃ r, decodeContext zoneInfo
      [contextValues c first (first + c.advanceBookingWindowDays) capacity] hours = .ok r) ↔
      hours.length = 7 ∧ ∃ r, decodeHours 1 hours = .ok r := by
  unfold decodeContext
  by_cases hlength : hours.length = 7
  · rw [contractUnless, if_pos ⟨rfl, hlength⟩, bind_ok]
    simp only [contextValues]
    rw [contractUnless, if_pos ⟨c.interval_ck, c.duration_ck, c.window_ck, c.lead_ck, hlast, trivial,
      trivial, trivial, hcapacity⟩, bind_ok, find_eq_ok.mpr hzone, bind_ok]
    simp only [bind_eq_ok, hlength, true_and]
    constructor
    · rintro ⟨r, parsed, hparsed, -⟩
      exact ⟨parsed, hparsed⟩
    · rintro ⟨parsed, hparsed⟩
      exact ⟨_, parsed, hparsed, rfl⟩
  · rw [contractUnless, if_neg fun hboth => hlength hboth.2]
    refine iff_of_false ?_ fun hboth => hlength hboth.1
    rintro ⟨r, hr⟩
    cases hr

/-- The context is read where its times and dates are those of Python. -/
theorem getContext_isOk (h : Furnished env db) (hf : FoundationOf env db f)
    (hsame : zoneInfo f.configuration.restaurantTimezone = some f.zone) :
    (∃ r, getContext env zoneInfo db now = .ok r) ↔
      WholeSeconds db ∧ DateFits (firstDay f now) ∧ DateFits (lastDay f now) := by
  obtain ⟨capacity, hcapacity, hpositive⟩ := exists_totalCapacity h.tables
  unfold getContext
  rw [filter_configurationId, hf.configuration, orderBy_weekday h, ← hours_isOk h]
  by_cases hdates : DateFits (firstDay f now) ∧ DateFits (lastDay f now)
  · have hrow := contextRow_eq now h hf hcapacity
    rw [if_pos hdates] at hrow
    have hrows : [f.configuration].mapM (contextRow env db now) =
        .ok [contextValues f.configuration (firstDay f now) (lastDay f now) capacity] := by
      rw [List.mapM_cons, hrow]
      rfl
    rw [hrows, bind_ok]
    simp only [bind_eq_ok, hdates, and_true]
    constructor
    · rintro ⟨r, hours, hhours, hr⟩
      exact ⟨hours, hhours, (decodeContext_isOk hsame hdates.2 hpositive).mp ⟨r, hr⟩⟩
    · rintro ⟨hours, hhours, hdecode⟩
      obtain ⟨r, hr⟩ := (decodeContext_isOk hsame hdates.2 hpositive).mpr hdecode
      exact ⟨r, hours, hhours, hr⟩
  · have hrow := contextRow_eq now h hf hcapacity
    rw [if_neg hdates] at hrow
    refine iff_of_false ?_ fun hboth => hdates hboth.2
    rintro ⟨r, hr⟩
    obtain ⟨rows, hrows, -⟩ := bind_eq_ok.mp hr
    rw [List.mapM_cons, hrow] at hrows
    cases hrows

end Context

section Availability

variable {session : Zone} {zoneInfo : ZoneInfo} {fits : ℤ → Bool} {now : ℤ} {f : Foundation}
  {hours : RestaurantOperatingHours} {request : AvailabilityRequest} {localDate partySize l t : ℤ}

/-- The local starts of a day that have a single instant, each with that instant. -/
def dayStarts (f : Foundation) (hours : RestaurantOperatingHours) (localDate : ℤ) : List (ℤ × ℤ) :=
  (slotLocals (minutes f.configuration.startIntervalMinutes)
    (minutes f.configuration.reservationDurationMinutes) (localDate * day + hours.closesAt)
    f.configuration.startInterval_pos (localDate * day + hours.opensAt)).filterMap fun l =>
      match localTimestampCandidates l f.zone with
      | [(t, _)] => some (l, t)
      | _ => none

theorem mem_dayStarts : (l, t) ∈ dayStarts f hours localDate ↔
    (l + minutes f.configuration.reservationDurationMinutes ≤ localDate * day + hours.closesAt ∧
      ∃ k : ℕ, l = localDate * day + hours.opensAt +
        k * minutes f.configuration.startIntervalMinutes) ∧
      ∃ o, localTimestampCandidates l f.zone = [(t, o)] := by
  unfold dayStarts
  rw [List.mem_filterMap, ← mem_slotLocals (h := f.configuration.startInterval_pos)]
  constructor
  · rintro ⟨l', hl, h⟩
    split at h
    · next o hc =>
      cases h
      exact ⟨hl, o, hc⟩
    · cases h
  · rintro ⟨hl, o, hc⟩
    exact ⟨l, hl, by rw [hc]⟩

theorem slotLocals_pairwise {interval duration closing slotLocal : ℤ} (h : 0 < interval) :
    (slotLocals interval duration closing h slotLocal).Pairwise (· < ·) := by
  induction slotLocal using slotLocals.induct interval duration closing h with
  | case1 slotLocal hle ih =>
    rw [slotLocals, if_pos hle]
    refine List.pairwise_cons.mpr ⟨fun l hl => ?_, ih⟩
    obtain ⟨-, k, rfl⟩ := mem_slotLocals.mp hl
    have : 0 ≤ (k : ℤ) * interval := mul_nonneg (by omega) h.le
    omega
  | case2 slotLocal hgt =>
    rw [slotLocals, if_neg hgt]
    exact List.Pairwise.nil

/-- The zone has whole-minute offsets and changes its offset at most once within three days of
any local time of these days. -/
def Regular (zone : Zone) (first last : ℤ) : Prop :=
  ∃ offset, zone.Follows offset ∧
    ∀ l, first ≤ Time.date l → Time.date l ≤ last → zone.Steady l

/-- A start is on its day. -/
theorem date_of_mem_dayStarts (h : (l, t) ∈ dayStarts f hours localDate) :
    Time.date l = localDate := by
  obtain ⟨⟨hclose, k, rfl⟩, -⟩ := mem_dayStarts.mp h
  have hduration := f.configuration.duration_pos
  have hk : 0 ≤ (k : ℤ) * minutes f.configuration.startIntervalMinutes :=
    mul_nonneg (by omega) f.configuration.startInterval_pos.le
  have hopens := hours.opensAt.2.1
  have hcloses := hours.closesAt.2.2
  exact Time.date_eq (by omega) (by omega)

/-- Later local starts have later instants. -/
theorem dayStarts_pairwise {first last : ℤ} (hzone : Regular f.zone first last)
    (hd : first ≤ localDate ∧ localDate ≤ last) :
    (dayStarts f hours localDate).Pairwise fun x y => x.2 < y.2 := by
  obtain ⟨offset, hfollows, hsteady⟩ := hzone
  have hlocals : (dayStarts f hours localDate).Pairwise fun x y => x.1 < y.1 := by
    refine (slotLocals_pairwise _).filterMap _ ?_
    rintro l l' hlt x hx y hy
    split at hx <;> split at hy <;> cases hx <;> cases hy
    exact hlt
  refine hlocals.imp_of_mem ?_
  rintro ⟨l, t⟩ ⟨l', t'⟩ hx hy hlt
  obtain ⟨-, o, hc⟩ := mem_dayStarts.mp hx
  obtain ⟨-, o', hc'⟩ := mem_dayStarts.mp hy
  have hlocal : f.zone.toLocal t = l := (mem_localTimestampCandidates (hc ▸ List.mem_singleton_self _)).2
  have hdate := date_of_mem_dayStarts hy
  exact before_of_candidates hfollows (hsteady l' (by omega) (by omega)) hc' (hlocal ▸ hlt)

/-- The rows of a day, in order. -/
theorem dayRows_eq (hf : FoundationOf env db f) :
    dayRows db f.configuration f.zone hours localDate partySize now =
      .ok ((dayStarts f hours localDate).map fun x =>
        offerRow db f localDate partySize now x.1 x.2) := by
  have hrow (l : ℤ) : slotRow db f.configuration f.zone localDate partySize now l =
      if True then .ok (match localTimestampCandidates l f.zone with
        | [(t, _)] => some (offerRow db f localDate partySize now l t)
        | _ => none) else .error .numericValueOutOfRange := by
    rw [if_pos trivial]
    split
    · next o hc => exact slotRow_of hf hc
    · next hc => exact slotRow_none fun t o h => hc t o h
  unfold dayRows
  rw [mapM_ite hrow, if_pos fun _ _ => trivial, bind_ok]
  refine congrArg Except.ok ?_
  rw [List.reduceOption, List.filterMap_map, dayStarts, List.map_filterMap]
  refine List.filterMap_congr fun l _ => ?_
  simp only [Function.comp_apply, id]
  split <;> rfl

/-- The slot that the gateway makes of a row. -/
def slotOf (db : Database) (f : Foundation) (localDate partySize now : ℤ) (x : ℤ × ℤ) :
    AvailabilitySlot where
  localStart := x.1
  startsAt := x.2
  endsAt := x.2 + minutes f.configuration.reservationDurationMinutes
  available := (offerRow db f localDate partySize now x.1 x.2).available.getD false

/-- The driver has a value for both ends of the slot. -/
def Presents (fits : ℤ → Bool) (f : Foundation) (x : ℤ × ℤ) : Prop :=
  fits x.2 = true ∧ fits (x.2 + minutes f.configuration.reservationDurationMinutes) = true

instance (x : ℤ × ℤ) : Decidable (Presents fits f x) := instDecidableAnd

theorem availabilityRow_eq (x : ℤ × ℤ) :
    availabilityRow fits (offerRow db f localDate partySize now x.1 x.2) =
      if DatetimeFits x.1 ∧ Presents fits f x then
        .ok (slotOf db f localDate partySize now x).values
      else .error .databaseContractError := by
  unfold availabilityRow offerRow
  simp only [nullable, loadTimestamp, loadInstant, load, bind_ok]
  by_cases hall : DatetimeFits x.1 ∧ Presents fits f x
  · obtain ⟨hl, hs, he⟩ := hall
    rw [if_pos hl, if_pos hs, if_pos he, if_pos ⟨hl, hs, he⟩]
    rfl
  · rw [if_neg hall]
    split
    · next hl =>
      split
      · next hs =>
        have he : ¬ fits (x.2 + minutes f.configuration.reservationDurationMinutes) = true :=
          fun he => hall ⟨hl, hs, he⟩
        rw [if_neg he]
        rfl
      · rfl
    · rfl

theorem values_injective : Function.Injective AvailabilitySlot.values := by
  rintro ⟨l, s, e, a⟩ ⟨l', s', e', a'⟩ h
  simp only [AvailabilitySlot.values, List.cons.injEq, Value.datetime.injEq, Value.instant.injEq,
    Value.boolean.injEq] at h
  obtain ⟨-, -, rfl, rfl, rfl, rfl, -⟩ := h
  rfl

/-- Rows of slots are decoded if the slots are valid and come in order. -/
theorem decodeAvailability_isOk {timezone : Text} {zone : Zone} {slots : List AvailabilitySlot}
    (hzone : zoneInfo timezone = some zone) :
    (∃ r, decodeAvailability session zoneInfo request [[.string timezone]]
      (slots.map AvailabilitySlot.values) = .ok r) ↔
      (∀ slot ∈ slots, slot.Valid session zone request) ∧
        slots.Pairwise (fun a b => Before session a.startsAt b.startsAt) := by
  have hdecode : decodeAvailability session zoneInfo request [[.string timezone]]
      (slots.map AvailabilitySlot.values) = do
        return .slots request timezone
          (← decodeSlots session zone request .none (slots.map AvailabilitySlot.values)) := by
    unfold decodeAvailability
    simp only [find_eq_ok.mpr hzone, bind_ok]
    split
    · next heq =>
      cases slots with
      | nil => cases heq
      | cons slot slots => cases heq
    · rfl
  rw [hdecode]
  constructor
  · rintro ⟨r, hr⟩
    obtain ⟨slots', hslots, -⟩ := bind_eq_ok.mp hr
    obtain ⟨hrows, hvalid, -, hsorted⟩ := decodeSlots_eq_ok.mp hslots
    rw [values_injective.list_map hrows]
    exact ⟨hvalid, hsorted⟩
  · rintro ⟨hvalid, hsorted⟩
    rw [decodeSlots_eq_ok.mpr ⟨rfl, hvalid, fun _ hp => absurd hp (Option.not_mem_none _), hsorted⟩]
    exact ⟨_, rfl⟩

/-- The clock of the session shows both ends of the slot as the checks ask for. -/
def ShownOnClock (session : Zone) (f : Foundation) (x : ℤ × ℤ) : Prop :=
  OnClock session x.2 (x.2 + minutes f.configuration.reservationDurationMinutes)

/-- A start in whole seconds makes a valid slot if the clock of the session shows it so. -/
theorem valid_slotOf_iff (hfits : DateFits request.localDate)
    (h : (l, t) ∈ dayStarts f hours request.localDate) :
    (slotOf db f request.localDate partySize now (l, t)).Valid session f.zone request ↔
      l % second = 0 ∧ ShownOnClock session f (l, t) := by
  have hdate := date_of_mem_dayStarts h
  obtain ⟨-, o, hc⟩ := mem_dayStarts.mp h
  obtain ⟨-, hshown⟩ := mem_localTimestampCandidates (hc ▸ List.mem_singleton_self _)
  constructor
  · exact fun hvalid => ⟨hvalid.localStart, hvalid.clock⟩
  · rintro ⟨hwhole, hclock⟩
    refine ⟨hwhole, hclock, hdate, ?_, hshown⟩
    show DateFits (Time.date l)
    rw [hdate]
    exact hfits

/-- A day is read where its starts are in whole seconds, the driver has values for them, and the
clock of the session shows them in order. -/
theorem getAvailability_isOk (h : Furnished env db) (hf : FoundationOf env db f)
    (hsame : zoneInfo f.configuration.restaurantTimezone = some f.zone)
    (hfits : DateFits request.localDate)
    (hd : firstDay f now ≤ request.localDate ∧ request.localDate ≤ lastDay f now)
    (hparty : 1 ≤ request.partySize ∧ Sql.less f.totalCapacity request.partySize ≠ some true)
    (hours_mem : db.restaurantOperatingHours.filter
      (·.weekday = Time.isodow request.localDate) = [hours]) :
    (∃ r, getAvailability env session zoneInfo fits db request now = .ok r) ↔
      (∀ x ∈ dayStarts f hours request.localDate,
        Presents fits f x ∧ x.1 % second = 0 ∧ ShownOnClock session f x) ∧
      (dayStarts f hours request.localDate).Pairwise fun x y => Before session x.2 y.2 := by
  have hrows : provisionalAvailability env db (some request.localDate) (some request.partySize)
      now = .ok ((dayStarts f hours request.localDate).map fun x =>
        offerRow db f request.localDate request.partySize now x.1 x.2) := by
    rw [provisionalAvailability_eq hf h.tables hd hparty hours_mem, dayRows_eq hf]
  have hload : ((dayStarts f hours request.localDate).map fun x =>
      offerRow db f request.localDate request.partySize now x.1 x.2).mapM (availabilityRow fits) =
      if ∀ x ∈ dayStarts f hours request.localDate, DatetimeFits x.1 ∧ Presents fits f x then
        .ok (((dayStarts f hours request.localDate).map
          (slotOf db f request.localDate request.partySize now)).map AvailabilitySlot.values)
      else .error .databaseContractError := by
    rw [List.mapM_map, List.map_map]
    exact mapM_ite availabilityRow_eq _
  have hdates : ∀ x ∈ dayStarts f hours request.localDate, DatetimeFits x.1 := by
    rintro ⟨l, t⟩ hx
    rw [DatetimeFits, date_of_mem_dayStarts hx]
    exact hfits
  unfold getAvailability
  rw [filter_configurationId, hf.configuration, hrows]
  simp only [hload]
  by_cases hpresents : ∀ x ∈ dayStarts f hours request.localDate, Presents fits f x
  · rw [if_pos fun x hx => ⟨hdates x hx, hpresents x hx⟩, bind_ok]
    simp only [List.map_cons, List.map_nil]
    rw [decodeAvailability_isOk hsame, List.pairwise_map]
    refine and_congr_left' ?_
    constructor
    · rintro hvalid ⟨l, t⟩ hx
      exact ⟨hpresents _ hx, (valid_slotOf_iff hfits hx).mp (hvalid _ (List.mem_map_of_mem hx))⟩
    · intro hwhole slot hslot
      obtain ⟨⟨l, t⟩, hx, rfl⟩ := List.mem_map.mp hslot
      exact (valid_slotOf_iff hfits hx).mpr (hwhole _ hx).2
  · rw [if_neg fun hall => hpresents fun x hx => (hall x hx).2]
    refine iff_of_false ?_ fun hall => hpresents fun x hx => (hall.1 x hx).1
    rintro ⟨r, hr⟩
    cases hr

/-- A request beyond the window or the tables is answered as such. -/
theorem getAvailability_outside (h : Furnished env db) (hf : FoundationOf env db f)
    (hsame : zoneInfo f.configuration.restaurantTimezone = some f.zone)
    (hrange : request.localDate < firstDay f now ∨ lastDay f now < request.localDate ∨
      request.partySize < 1 ∨ Sql.less f.totalCapacity request.partySize = some true) :
    getAvailability env session zoneInfo fits db request now = .ok (.invalidRequest request) := by
  have hrows : provisionalAvailability env db (some request.localDate) (some request.partySize)
      now = .ok [noSlots .invalidRequest .dateOrPartySizeOutOfRange] := by
    unfold provisionalAvailability
    rw [if_neg (not_incomplete hf h.tables), filter_configurationId,
      strict_eq_ok.mpr hf.configuration]
    simp only [bind_ok, hf.zone, hf.capacity]
    exact if_pos hrange
  have hload : [noSlots .invalidRequest .dateOrPartySizeOutOfRange].mapM (availabilityRow fits) =
      .ok [[.string (text "invalid_request"),
        .string (text "date_or_party_size_out_of_range"), .none, .none, .none, .none]] := rfl
  unfold getAvailability
  rw [filter_configurationId, hf.configuration, hrows]
  simp only [hload, bind_ok, List.map_cons, List.map_nil]
  unfold decodeAvailability
  simp only [find_eq_ok.mpr hsame, bind_ok]
  rw [contractUnless, if_pos ⟨trivial, trivial⟩]
  rfl

theorem exists_hours (h : Furnished env db) (d : ℤ) :
    ∃ hours, db.restaurantOperatingHours.filter (·.weekday = Time.isodow d) = [hours] := by
  have hday : (db.restaurantOperatingHours.filter (·.weekday = Time.isodow d)).map (·.weekday) =
      [1, 2, 3, 4, 5, 6, 7].filter (· = Time.isodow d) := by
    rw [← h.weekdays, List.filter_map]
    rfl
  have hone : ([1, 2, 3, 4, 5, 6, 7].filter (· = Time.isodow d)).length = 1 := by
    obtain ⟨k, hk, hlo, hhi⟩ : ∃ k, Time.isodow d = k ∧ 1 ≤ k ∧ k ≤ 7 :=
      ⟨_, rfl, by unfold Time.isodow; omega, by unfold Time.isodow; omega⟩
    rw [hk]
    interval_cases k <;> rfl
  rw [← hday, List.length_map] at hone
  exact List.length_eq_one_iff.mp hone

end Availability

section Served

/-- The booking window lies in the calendar of Python, and so do the instants of its slots as
the driver presents them. -/
def InCalendar (env : Environment) (fits : ℤ → Bool) (db : Database) (now : ℤ) : Prop :=
  ∀ f, FoundationOf env db f → DateFits (firstDay f now) ∧ DateFits (lastDay f now) ∧
    ∀ d, firstDay f now ≤ d → d ≤ lastDay f now → ∀ hours,
      db.restaurantOperatingHours.filter (·.weekday = Time.isodow d) = [hours] →
        ∀ x ∈ dayStarts f hours d, Presents fits f x

/-- On the clock of the session every slot of the booking window lasts a duration that the gateway
knows, and the slots of a day come in order. -/
def OnSessionClock (env : Environment) (session : Zone) (db : Database) (now : ℤ) : Prop :=
  ∀ f, FoundationOf env db f → ∀ d, firstDay f now ≤ d → d ≤ lastDay f now → ∀ hours,
    db.restaurantOperatingHours.filter (·.weekday = Time.isodow d) = [hours] →
      (∀ x ∈ dayStarts f hours d, ShownOnClock session f x) ∧
        (dayStarts f hours d).Pairwise fun x y => Before session x.2 y.2

/-- Every start of a day is in whole seconds if the opening time is. -/
theorem whole_of_mem_dayStarts {f : Foundation} {hours : RestaurantOperatingHours} {d : ℤ}
    (hopens : hours.opensAt.val % second = 0) {x : ℤ × ℤ} (h : x ∈ dayStarts f hours d) :
    x.1 % second = 0 := by
  obtain ⟨⟨-, k, hl⟩, -⟩ := mem_dayStarts.mp h
  have hgrid : x.1 = (d * 86400 + hours.opensAt.val / second +
      k * (f.configuration.startIntervalMinutes * 60)) * second := by
    rw [hl]
    have := Int.ediv_mul_add_emod hours.opensAt.val second
    simp only [day, minutes, second] at *
    linarith
  rw [hgrid]
  exact Int.mul_emod_left _ _

/-- A session with one offset shows every slot as it is, if the zone of the restaurant changes its
offset once at most around a day of the window. -/
theorem onSessionClock_of_offset {session : Zone} {now o : ℤ}
    (hsession : ∀ t, session.toLocal t = t + o) (ho : o % second = 0) (hwhole : WholeSeconds db)
    (hregular : ∀ f, FoundationOf env db f → Regular f.zone (firstDay f now) (lastDay f now)) :
    OnSessionClock env session db now := by
  intro f hf d hd hd' hours hhours
  constructor
  · rintro ⟨l, t⟩ hx
    have hmem := List.mem_of_mem_filter (hhours ▸ List.mem_singleton_self hours)
    have hl : l % second = 0 := whole_of_mem_dayStarts (hwhole hours hmem).1 hx
    obtain ⟨-, o', hc⟩ := mem_dayStarts.mp hx
    obtain ⟨heq, -⟩ := mem_localTimestampCandidates (hc ▸ List.mem_singleton_self _)
    have hduration := f.configuration.duration_ck
    constructor
    · simp only [hsession, minutes, second] at heq hl ho ⊢
      omega
    · simp only [hsession, minutes, second] at heq hl ho ⊢
      omega
    · simp only [hsession, add_sub_add_right_eq_sub, add_sub_cancel_left]
      simp only [List.mem_cons, List.not_mem_nil, or_false] at hduration ⊢
      rcases hduration with h | h | h <;> simp [h]
  · refine (dayStarts_pairwise (hregular f hf) ⟨hd, hd'⟩).imp fun hlt => ?_
    unfold Before
    rw [hsession, hsession]
    exact add_lt_add_left hlt o

/-- Both reads answer, for every date and party size, exactly where the times of the foundation
and its booking window are ones that Python has, and the clock of the session keeps the lengths
and the order of the slots. -/
theorem reads_served_iff {session : Zone} {zoneInfo : ZoneInfo} {fits : ℤ → Bool} {now : ℤ}
    (hreached : Reached env db) (hfit : SeatsFit db)
    (hseed : (env.timezones seedConfiguration.restaurantTimezone).isSome = true)
    (hsame : ∀ name zone, env.timezones name = some zone → zoneInfo name = some zone) :
    ((∃ r, getContext env zoneInfo db now = .ok r) ∧
      ∀ request : AvailabilityRequest, DateFits request.localDate →
        1 ≤ request.partySize ∧ request.partySize ≤ 2147483647 →
        ∃ r, getAvailability env session zoneInfo fits db request now = .ok r) ↔
      WholeSeconds db ∧ InCalendar env fits db now ∧ OnSessionClock env session db now := by
  have h := furnished_of_reached hseed hreached
  obtain ⟨f, hf⟩ := h.foundationOf hfit
  have hzone := hsame _ _ hf.zone
  constructor
  · rintro ⟨hcontext, havailability⟩
    have hdates (g : Foundation) (hg : FoundationOf env db g) :=
      ((getContext_isOk h hg (hsame _ _ hg.zone)).mp hcontext).2
    -- a party of one can ask for every day of the window
    have hread (g : Foundation) (hg : FoundationOf env db g) (d : ℤ) (hd : firstDay g now ≤ d)
        (hd' : d ≤ lastDay g now) (hours : RestaurantOperatingHours)
        (hhours : db.restaurantOperatingHours.filter (·.weekday = Time.isodow d) = [hours]) := by
      have hdate : DateFits d := ⟨(hdates g hg).1.1.trans hd, hd'.trans (hdates g hg).2.2⟩
      have hone : 1 ≤ (1 : ℤ) ∧ Sql.less g.totalCapacity (some 1) ≠ some true := by
        obtain ⟨n, hn, hpositive⟩ := exists_totalCapacity h.tables
        rw [totalCapacity_eq hg, hn, ne_eq, Sql.less_eq_true]
        omega
      exact (getAvailability_isOk h hg (hsame _ _ hg.zone) hdate ⟨hd, hd'⟩ hone hhours).mp
        (havailability ⟨d, 1⟩ hdate ⟨le_refl 1, show (1 : ℤ) ≤ 2147483647 by decide⟩)
    refine ⟨((getContext_isOk h hf hzone).mp hcontext).1, fun g hg => ?_, ?_⟩
    · refine ⟨(hdates g hg).1, (hdates g hg).2, fun d hd hd' hours hhours x hx => ?_⟩
      exact ((hread g hg d hd hd' hours hhours).1 x hx).1
    · intro g hg d hd hd' hours hhours
      obtain ⟨hslots, hordered⟩ := hread g hg d hd hd' hours hhours
      exact ⟨fun x hx => (hslots x hx).2.2, hordered⟩
  · rintro ⟨hwhole, hcalendar, hsession⟩
    obtain ⟨hfirst, hlast, hpresents⟩ := hcalendar f hf
    refine ⟨(getContext_isOk h hf hzone).mpr ⟨hwhole, hfirst, hlast⟩, fun request hdate hparty => ?_⟩
    by_cases hrange : request.localDate < firstDay f now ∨ lastDay f now < request.localDate ∨
        request.partySize < 1 ∨ Sql.less f.totalCapacity request.partySize = some true
    · exact ⟨_, getAvailability_outside h hf hzone hrange⟩
    · simp only [not_or, not_lt] at hrange
      obtain ⟨hours, hhours⟩ := exists_hours h request.localDate
      have hmem := List.mem_of_mem_filter (hhours ▸ List.mem_singleton_self hours)
      obtain ⟨hclock, hordered⟩ := hsession f hf _ hrange.1 hrange.2.1 hours hhours
      refine (getAvailability_isOk h hf hzone hdate ⟨hrange.1, hrange.2.1⟩
        ⟨hrange.2.2.1, hrange.2.2.2⟩ hhours).mpr ⟨fun x hx => ⟨?_, ?_, hclock x hx⟩, hordered⟩
      · exact hpresents _ hrange.1 hrange.2.1 hours hhours x hx
      · exact whole_of_mem_dayStarts (hwhole hours hmem).1 hx

/-- An interpreter with the zones of the server. -/
def easternZones : ZoneInfo := (Environment.eastern).timezones

/-- A session in UTC. -/
def utc : Zone := .fixed 0

/-- What a driver can present in it. -/
def fitsUtc (t : ℤ) : Bool := DatetimeFits t

theorem reads_served_iff_seed :
    (∃ r, getContext .eastern easternZones seed firstNoon.first = .ok r) ∧
      ∀ request : AvailabilityRequest, DateFits request.localDate →
        1 ≤ request.partySize ∧ request.partySize ≤ 2147483647 →
        ∃ r, getAvailability .eastern utc easternZones fitsUtc seed request firstNoon.first =
          .ok r := by
  have hzone : ∀ f, FoundationOf .eastern seed f →
      f.configuration = seedConfiguration ∧ f.zone = .fixed (-300) := by
    intro f hf
    have hc : f.configuration = seedConfiguration := (List.singleton_inj.mp hf.configuration).symm
    refine ⟨hc, ?_⟩
    have hz := hf.zone
    rw [hc] at hz
    exact (Option.some.inj (hz.symm.trans rfl))
  refine (reads_served_iff .seed (by decide) rfl fun _ _ h => h).mpr ⟨by decide, fun f hf => ?_, ?_⟩
  · have hfirst : firstDay f firstNoon.first = 0 := by
      rw [firstDay, (hzone f hf).2]
      decide
    have hlast : lastDay f firstNoon.first = 60 := by
      rw [lastDay, hfirst, (hzone f hf).1]
      decide
    have hduration : f.configuration.reservationDurationMinutes = 90 := by
      rw [(hzone f hf).1]
      rfl
    rw [hfirst, hlast]
    refine ⟨by decide, by decide, ?_⟩
    rintro d hd hd' hours - ⟨l, t⟩ hx
    obtain ⟨-, o, hc⟩ := mem_dayStarts.mp hx
    have hshown : t + minutes (-300) = l := by
      have h := (mem_localTimestampCandidates (hc ▸ List.mem_singleton_self _)).2
      rwa [(hzone f hf).2] at h
    have hdate : l / day = d := date_of_mem_dayStarts hx
    have hfits (t' : ℤ) (ht' : 0 ≤ t' ∧ t' < 64 * day) : fitsUtc t' = true := by
      refine decide_eq_true ?_
      unfold DatetimeFits DateFits Time.date day at *
      omega
    simp only [minutes, day] at hshown hdate
    constructor
    · exact hfits _ (by simp only [day]; omega)
    · exact hfits _ (by simp only [hduration, minutes, day]; omega)
  · refine onSessionClock_of_offset (fun _ => rfl) (by decide) (by decide) fun f hf => ?_
    rw [(hzone f hf).2]
    exact ⟨_, Zone.fixed_follows _, fun _ _ _ => Zone.fixed_steady⟩

/-- Half a second past five on a Thursday. -/
def pastFive : TimeOfDay := ⟨61200500000, by decide⟩

/-- The hours of Thursday are set to open then, which the writer takes. -/
def pastFiveState : Database :=
  (((server .eastern).body (.setRestaurantOperatingHours (some 4) (some pastFive)
    (some (fullHour 23 (by decide))))).transact (firstMemory seed)).2

theorem past_five_rejected : Reached .eastern pastFiveState ∧ SeatsFit pastFiveState ∧
    getContext .eastern easternZones pastFiveState firstNoon.first =
      .error .databaseContractError ∧
    getAvailability .eastern utc easternZones fitsUtc pastFiveState ⟨0, 2⟩ firstNoon.first =
      .error .databaseContractError :=
  ⟨.written .seed rfl _, by decide +kernel, by decide +kernel, by decide +kernel⟩

end Served

end CafeFausse.Backend
