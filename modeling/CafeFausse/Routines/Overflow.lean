import CafeFausse.Routines.AllocationRanks
import CafeFausse.Routines.FoundationChecks

/-! # Sums of capacities

Every capacity is an integer of 32 bits, and so are the variables for their sums. Each of
the three routines that add capacities up fails exactly when it gets as far as a total
beyond that range; every other sum is part of the total.
-/

namespace CafeFausse

open Transaction Program Allocation

variable {env : Environment} {db : Database} {m : Memory Database Sequence}

/-- The values of an `integer`. -/
def IsInteger (n : ℤ) : Prop := -2147483648 ≤ n ∧ n ≤ 2147483647

/-- The seats of all tables together are an `integer`. -/
def SeatsFit (db : Database) : Prop :=
  (db.restaurantTables.map (·.seatingCapacity)).sum ≤ 2147483647

instance decidableIsInteger (n : ℤ) : Decidable (IsInteger n) := instDecidableAnd
instance decidableSeatsFit (db : Database) : Decidable (SeatsFit db) :=
  inferInstanceAs (Decidable (_ ≤ _))

theorem totalCapacity_error (h : ¬ SeatsFit db) :
    nullableInteger db.totalCapacity = .error .numericValueOutOfRange := by
  cases htotal : nullableInteger db.totalCapacity with
  | ok total => exact absurd (totalCapacity_ok_iff.mp ⟨total, htotal⟩) h
  | error e =>
    obtain ⟨k, -, hk⟩ := nullableInteger_eq_error.mp htotal
    rw [(integer_eq_error.mp hk).1]

section Availability

variable {c : ReservationConfiguration} {zone : Zone} {hours : RestaurantOperatingHours}
  {now : ℤ}

/-- Free seats are part of all seats. -/
theorem SeatsFit.slotRow (h : SeatsFit db) {localDate partySize l : ℤ} {e : SqlError} :
    slotRow db c zone localDate partySize now l ≠ .error e := by
  unfold CafeFausse.slotRow
  split
  · next slotStart _ _ =>
    intro he
    rcases bind_eq_error.mp he with he | ⟨free, -, he⟩
    · have hle := capacity_le (freeTables_subperm db slotStart
        (slotStart + Time.minutes c.reservationDurationMinutes))
      have hnonneg := seats_nonneg (db.freeTables slotStart
        (slotStart + Time.minutes c.reservationDurationMinutes))
      unfold SeatsFit at h
      obtain ⟨-, hrange⟩ := integer_eq_error.mp he
      omega
    · cases he
  · exact nofun

theorem SeatsFit.dayRows (h : SeatsFit db) {localDate partySize : ℤ} {e : SqlError} :
    dayRows db c zone hours localDate partySize now ≠ .error e := by
  obtain ⟨rows, hrows⟩ := exists_mapM
    (l := slotLocals (Time.minutes c.startIntervalMinutes)
      (Time.minutes c.reservationDurationMinutes) (localDate * Time.day + hours.closesAt)
      c.startInterval_pos (localDate * Time.day + hours.opensAt))
    (f := CafeFausse.slotRow db c zone localDate partySize now) fun l _ => by
      cases hrow : CafeFausse.slotRow db c zone localDate partySize now l with
      | ok row => exact ⟨row, rfl⟩
      | error e => exact absurd hrow h.slotRow
  unfold CafeFausse.dayRows
  rw [hrows]
  exact nofun

/-- Availability fails on the total as soon as it has found the foundation usable. -/
theorem availability_fits_iff {localDate partySize : Option ℤ} :
    provisionalAvailability env db localDate partySize now ≠ .error .numericValueOutOfRange ↔
      db.Incomplete ∨ db.Zoneless env ∨ SeatsFit db := by
  unfold provisionalAvailability
  split
  · next h => exact iff_of_true nofun (.inl h)
  next h =>
  obtain ⟨c, hc⟩ := List.length_eq_one_iff.mp (not_not.mp fun hn => h (.inl hn))
  rw [filter_configurationId, strict_eq_ok.mpr hc, bind_ok]
  split
  · next hz =>
    refine iff_of_true nofun (.inr (.inl fun c' hm => ?_))
    rw [hc, List.mem_singleton] at hm
    rw [hm, hz]
  next zone hz =>
  have hzone : ¬ db.Zoneless env := fun hzone => by
    rw [hzone c (hc ▸ List.mem_singleton_self c)] at hz
    cases hz
  by_cases hfit : SeatsFit db
  · refine iff_of_true ?_ (.inr (.inr hfit))
    obtain ⟨total, htotal⟩ := totalCapacity_ok_iff.mpr hfit
    rw [htotal, bind_ok]
    simp only
    split
    · split
      · exact nofun
      · intro he
        rcases bind_eq_error.mp he with he | ⟨hours, -, he⟩
        · exact absurd ((Expected.of_strict he).range rfl) (not_lt.mpr hfit)
        · exact hfit.dayRows he
    · exact nofun
  · refine iff_of_false (not_not.mpr ?_) (by simp [h, hzone, hfit])
    rw [totalCapacity_error hfit]
    rfl

end Availability

section Booking

variable {request : BookingRequest} {tieRank : Option ℤ} {stage : Option FailureStage}
  {readings : Readings} {Q : Foundation → Memory Database Sequence → Prop}
  {R : Answer → Memory Database Sequence → Prop} {E : SqlError → Memory Database Sequence → Prop}

/-- The sum under the restaurant lock is out of range. -/
theorem wp_lockFoundation_overflow (h : ¬ m.view.Unprepared) (hfit : ¬ SeatsFit m.view)
    (hE : E .numericValueOutOfRange m) : (lockFoundation env).wp Q R E m := by
  simp only [Database.Unprepared, not_or, not_not] at h
  obtain ⟨hcount, hhours⟩ := h
  obtain ⟨configuration, hc⟩ := List.length_eq_one_iff.mp hcount
  unfold lockFoundation
  refine bind_wp (wp_query.mpr ?_)
  rw [if_neg (not_not.mpr hcount)]
  refine bind_wp (wp_query.mpr (bind_wp (wp_liftExcept.mpr ?_)))
  rw [filter_configurationId, strict_eq_ok.mpr hc]
  refine bind_wp (wp_query.mpr ?_)
  rw [if_neg (by simpa using hhours)]
  refine bind_wp (wp_query.mpr (bind_wp (wp_liftExcept.mpr ?_)))
  rw [sum_orderBy_tables, totalCapacity_error hfit]
  exact hE

/-- A booking whose input is accepted fails on the total as soon as it has found
configuration and hours usable. -/
theorem booking_fits_iff {p : BookingArguments} (hc : Constraints env.character m.view)
    (hfresh : ∀ q, ¬ InUse m.view q (m.supply q 0)) :
    ((bookReservation env p readings).transact m).1 ≠ .raised .numericValueOutOfRange ↔
      normalizedInput env.character p none = none ∨ m.view.Unprepared ∨ SeatsFit m.view := by
  have exits : ∀ P : Exit SqlError Answer Empty → Prop,
      (bookReservation env p readings).wp (fun x _ => x.elim) (fun r _ => P (.returned r))
        (fun e _ => P (.raised e)) m → P ((bookReservation env p readings).transact m).1 := fun P h =>
    transact_of_wp (P := fun x => P x.1) (wp_mono h (fun x _ _ => x.elim) (fun _ _ h => h)
      fun _ _ h => h)
  cases hp : normalizedInput env.character p none with
  | none =>
    refine iff_of_true (exits (· ≠ .raised .numericValueOutOfRange) ?_) (.inl rfl)
    unfold bookReservation bookReservationCore
    rw [if_neg (by simp), hp]
    exact nofun
  | some request =>
    obtain ⟨rfl, hv, -⟩ := normalizedInput_eq_some.mp hp
    have hbody : bookReservation env request.arguments readings =
        bookRequest env request none none readings := by
      unfold bookReservation bookReservationCore
      rw [if_neg (by simp), hp]
    by_cases hprepared : m.view.Unprepared
    · refine iff_of_true (exits (· ≠ .raised .numericValueOutOfRange) ?_) (.inr (.inl hprepared))
      rw [hbody]
      refine bind_wp (wp_acquire.mpr (bind_wp ?_))
      exact wp_lockFoundation_unusable (.inl hprepared) fun d => nofun
    by_cases hfit : SeatsFit m.view
    · refine iff_of_true (exits (· ≠ .raised .numericValueOutOfRange) ?_) (.inr (.inr hfit))
      rw [hbody]
      refine wp_mono (wp_bookRequest (P := fun _ _ => True) hc hfresh hv (fun _ _ => trivial)
        fun _ => trivial) (fun x _ _ => x.elim) (fun _ _ _ => nofun) fun e _ he => ?_
      rintro ⟨⟩
      exact absurd (he.range rfl) (not_lt.mpr hfit)
    · refine iff_of_false (not_not.mpr (exits (· = .raised .numericValueOutOfRange) ?_))
        (by simp [hprepared, hfit])
      rw [hbody]
      exact bind_wp (wp_acquire.mpr (bind_wp (wp_lockFoundation_overflow hprepared hfit rfl)))

end Booking

section Allocator

variable {numbers capacities : List ℤ} {partySize : ℤ} {tieRank : Option ℤ} {random : Random}
  {tables : List Table}

/-- The allocator fails on the total as soon as it has accepted its arguments. -/
theorem allocation_fits_iff :
    selectTableAllocation numbers capacities partySize tieRank random ≠
        .error .numericValueOutOfRange ↔
      numbers.length ≠ capacities.length ∨ 30 < numbers.length ∨ partySize ≤ 0 ∨
        ¬ ValidTables (numbers.zip capacities) ∨
        capacity (numbers.zip capacities) ≤ 2147483647 := by
  by_cases hguard : numbers.length ≠ capacities.length ∨ 30 < numbers.length ∨ partySize ≤ 0
  · refine iff_of_true ?_ (by tauto)
    unfold selectTableAllocation
    simp only
    rw [if_pos hguard]
    exact nofun
  by_cases hv : ValidTables (numbers.zip capacities)
  swap
  · refine iff_of_true ?_ (by tauto)
    unfold selectTableAllocation
    simp only
    rw [if_neg hguard, if_pos hv]
    split <;> exact nofun
  have hnonneg := capacity_nonneg hv
  by_cases hfit : capacity (numbers.zip capacities) ≤ 2147483647
  · refine iff_of_true (fun he => ?_) (by tauto)
    rcases selectTableAllocation_error he with hraised | hinteger
    · exact hraised.elim
    · obtain ⟨-, hrange⟩ := integer_eq_error.mp hinteger
      omega
  · refine iff_of_false (not_not.mpr ?_) (by tauto)
    have hne : numbers.zip capacities ≠ [] := by
      intro hnil
      rw [hnil] at hfit
      exact hfit (by decide)
    have hinteger : integer (capacity (numbers.zip capacities)) =
        .error .numericValueOutOfRange := integer_eq_error.mpr ⟨rfl, by omega⟩
    unfold selectTableAllocation
    simp only
    rw [if_neg hguard, if_neg hne, if_neg (not_not.mpr hv), hinteger]
    rfl

/-- Every sum and difference of the search is part of the total or of the party size. -/
theorem search_fits_iff (hv : ValidTables tables) :
    (∀ l ∈ subsets (left tables), ∀ r ∈ subsets (right tables),
      IsInteger l.capacitySum ∧ IsInteger r.capacitySum ∧
        IsInteger (l.capacitySum + r.capacitySum) ∧
        ∀ partySize, 0 < partySize ∧ IsInteger partySize →
          IsInteger (partySize - l.capacitySum)) ↔ capacity tables ≤ 2147483647 := by
  have hsplit : capacity (left tables) + capacity (right tables) = capacity tables := by
    rw [← capacity_append, List.take_append_drop]
  constructor
  · intro h
    have hwhole := (h (.of (left tables)) (mem_subsets.mpr ⟨_, List.Sublist.refl _, rfl⟩)
      (.of (right tables)) (mem_subsets.mpr ⟨_, List.Sublist.refl _, rfl⟩)).2.2.1.2
    exact hsplit ▸ hwhole
  · intro hfit l hl r hr
    obtain ⟨s, hs, rfl⟩ := mem_subsets.mp hl
    obtain ⟨t, ht, rfl⟩ := mem_subsets.mp hr
    have hs₀ := capacity_nonneg (hv.left.sublist hs)
    have ht₀ := capacity_nonneg (hv.right.sublist ht)
    have hs₁ := Allocation.capacity_le hv.left hs
    have ht₁ := Allocation.capacity_le hv.right ht
    simp only [IsInteger, Subset.of]
    refine ⟨by omega, by omega, by omega, fun partySize hp => by omega⟩

end Allocator

/-- No call fails on a number out of range exactly if the capacities that it comes to add up
have a total within the range. -/
theorem capacities_fit_iff (hc : Constraints env.character m.view)
    (hfresh : ∀ q, ¬ InUse m.view q (m.supply q 0)) :
    (∀ localDate partySize now, provisionalAvailability env m.view localDate partySize now ≠
        .error .numericValueOutOfRange ↔
      m.view.Incomplete ∨ m.view.Zoneless env ∨ SeatsFit m.view) ∧
    (∀ p readings, ((bookReservation env p readings).transact m).1 ≠
        .raised .numericValueOutOfRange ↔
      normalizedInput env.character p none = none ∨ m.view.Unprepared ∨ SeatsFit m.view) ∧
    (∀ numbers capacities partySize tieRank random,
      selectTableAllocation numbers capacities partySize tieRank random ≠
        .error .numericValueOutOfRange ↔
      numbers.length ≠ capacities.length ∨ 30 < numbers.length ∨ partySize ≤ 0 ∨
        ¬ ValidTables (numbers.zip capacities) ∨
        capacity (numbers.zip capacities) ≤ 2147483647) ∧
    ∀ tables, ValidTables tables →
      ((∀ l ∈ subsets (left tables), ∀ r ∈ subsets (right tables),
        IsInteger l.capacitySum ∧ IsInteger r.capacitySum ∧
          IsInteger (l.capacitySum + r.capacitySum) ∧
          ∀ partySize, 0 < partySize ∧ IsInteger partySize →
            IsInteger (partySize - l.capacitySum)) ↔ capacity tables ≤ 2147483647) :=
  ⟨fun _ _ _ => availability_fits_iff, fun _ _ => booking_fits_iff hc hfresh,
    fun _ _ _ _ _ => allocation_fits_iff, fun _ => search_fits_iff⟩

theorem capacities_fit_iff_first :
    ((bookReservation .eastern firstRequest.arguments firstNoon).transact (firstMemory seed)).1 ≠
      .raised .numericValueOutOfRange :=
  ((capacities_fit_iff (m := firstMemory seed) (constraints_seed _)
    (firstMemory_fresh rfl rfl)).2.1 _ _).mpr (.inr (.inr (by decide +kernel)))

theorem second_pos : 0 < (2 : ℤ) := by decide

theorem largest_pos : 0 < (2147483647 : ℤ) := by decide

/-- Two tables with the largest capacity that the column admits. -/
def crowded : Database :=
  (seed.putTable ⟨1, 2147483647, Int.one_pos, largest_pos⟩).putTable
    ⟨2, 2147483647, second_pos, largest_pos⟩

theorem crowded_overflows :
    Constraints (Environment.eastern).character crowded ∧ (∀ t ∈ crowded.restaurantTables, IsInteger t.seatingCapacity) ∧
      provisionalAvailability .eastern crowded (some 1) (some 2) firstNoon.first =
        .error .numericValueOutOfRange ∧
      (bookReservation .eastern firstRequest.arguments firstNoon).transact (firstMemory crowded) =
        (.raised .numericValueOutOfRange, crowded) ∧
      selectTableAllocation [1, 2] [2147483647, 2147483647] 2 none firstNoon.random =
        .error .numericValueOutOfRange :=
  ⟨(constraints_seed _).putTable.putTable, by decide +kernel⟩

end CafeFausse
