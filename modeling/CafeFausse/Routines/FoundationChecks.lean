import CafeFausse.Routines.Offers
import CafeFausse.Routines.Unusable

/-! # When the foundation is unusable

Availability counts the tables; the booking takes the length of an array of them, which is
missing when there is no table, and adds their capacities up before it looks at that
length. The two agree on an unusable foundation but for these two populations.
-/

namespace CafeFausse

open Transaction Program

variable {env : Environment} {db : Database} {m : Memory Database Sequence}
  {localDate partySize : Option ℤ} {now : ℤ}

/-- The rows report an unusable foundation. -/
def ReportsUnusable (rows : List AvailabilityRow) : Prop :=
  ∃ row ∈ rows, row.outcome = .invalidDatabaseConfiguration

instance (rows : List AvailabilityRow) : Decidable (ReportsUnusable rows) := by
  unfold ReportsUnusable; infer_instance

theorem incomplete_iff : db.Incomplete ↔ db.Unprepared ∨ db.restaurantTables.length ≠ 30 := by
  have hcap : ¬ ∃ t ∈ db.restaurantTables, t.seatingCapacity ≤ 0 := fun ⟨t, _, ht⟩ =>
    absurd t.capacity_ck (not_lt.mpr ht)
  simp only [Database.Incomplete, Database.Unprepared, hcap, or_false, or_assoc]

section Availability

theorem outcome_slotRow {c : ReservationConfiguration} {zone : Zone} {localDate partySize l : ℤ}
    {row : AvailabilityRow} (h : slotRow db c zone localDate partySize now l = .ok (some row)) :
    row.outcome = .slots := by
  unfold slotRow at h
  split at h
  · obtain ⟨free, -, hrow⟩ := bind_eq_ok.mp h
    cases hrow
    rfl
  · cases h

theorem outcome_dayRows {c : ReservationConfiguration} {zone : Zone}
    {hours : RestaurantOperatingHours} {localDate partySize : ℤ} {rows : List AvailabilityRow}
    (h : dayRows db c zone hours localDate partySize now = .ok rows) {row : AvailabilityRow}
    (hrow : row ∈ rows) : row.outcome = .slots := by
  obtain ⟨slots, hslots, hrows⟩ := bind_eq_ok.mp h
  cases hrows
  obtain ⟨l, -, hl⟩ := (mem_of_mapM hslots).mp (List.reduceOption_mem_iff.mp hrow)
  exact outcome_slotRow hl

theorem not_reportsUnusable {d : AvailabilityDetail} :
    ¬ ReportsUnusable [noSlots .invalidRequest d] := by
  rintro ⟨row, hrow, ho⟩
  rw [List.mem_singleton.mp hrow] at ho
  cases ho

/-- Availability reports any incomplete population and any unknown zone. -/
theorem availability_unusable_iff : (∃ rows,
    provisionalAvailability env db localDate partySize now = .ok rows ∧ ReportsUnusable rows) ↔
      db.Incomplete ∨ db.Zoneless env := by
  unfold provisionalAvailability
  split
  · next h => exact iff_of_true ⟨_, rfl, _, List.mem_singleton_self _, rfl⟩ (.inl h)
  next h =>
  obtain ⟨c, hc⟩ := List.length_eq_one_iff.mp (not_not.mp fun hn => h (.inl hn))
  rw [filter_configurationId, strict_eq_ok.mpr hc, bind_ok]
  split
  · next hz =>
    refine iff_of_true ⟨_, rfl, _, List.mem_singleton_self _, rfl⟩ (.inr fun c' hm => ?_)
    rw [hc, List.mem_singleton] at hm
    rw [hm, hz]
  next zone hz =>
  refine iff_of_false ?_ (not_or.mpr ⟨h, fun hzone => ?_⟩)
  · rintro ⟨rows, hrows, hunusable⟩
    obtain ⟨total, -, hrows⟩ := bind_eq_ok.mp hrows
    split at hrows
    · simp only at hrows
      split at hrows
      · cases hrows
        exact not_reportsUnusable hunusable
      · obtain ⟨hours, -, hrows⟩ := bind_eq_ok.mp hrows
        obtain ⟨row, hrow, ho⟩ := hunusable
        rw [outcome_dayRows hrows hrow] at ho
        cases ho
    · cases hrows
      exact not_reportsUnusable hunusable
  · rw [hzone c (hc ▸ List.mem_singleton_self c)] at hz
    cases hz

end Availability

section Booking

variable {request : BookingRequest} {tieRank : Option ℤ} {stage : Option FailureStage}
  {readings : Readings}

/-- The booking reports exactly the foundation that its locked reads turn away. -/
theorem returns_unusable_iff : Returns (bookRequest env request tieRank stage readings) m
    (·.outcome = .invalidDatabaseConfiguration) ↔ m.view.Unusable env := by
  constructor
  · intro h
    have hexits : (bookRequest env request tieRank stage readings).wp (fun x _ => x.elim)
        (fun ans _ => ∃ row, ans = .booking row ∧
          (row.outcome = .invalidDatabaseConfiguration → m.view.Unusable env))
        (fun _ _ => True) m := by
      refine wp_bookRequest_stages (fun o d ho => ⟨_, rfl, fun he => ?_⟩) (fun _ _ => trivial)
        fun f start hours _ => ?_
      · rcases ho with rfl | ⟨-, hu⟩
        · cases he
        · exact hu
      refine wp_mono (yields_bookingBlock_served.wp _) (fun x _ _ => x.elim) ?_ fun e m' he => ?_
      · rintro ans m' ⟨row, rfl, hrow⟩
        exact ⟨row, rfl, fun h => absurd h hrow⟩
      · unfold caught
        cases e with
        | bookingAborted o d fingerprint =>
          exact ⟨_, rfl, fun h => absurd rfl (h ▸ he d fingerprint)⟩
        | _ => trivial
    obtain ⟨row, ho, hu⟩ := h.meet hexits
    exact hu ho
  · intro h
    refine returns_iff_wp.mpr (bind_wp (wp_acquire.mpr (bind_wp ?_)))
    exact wp_lockFoundation_unusable h fun d => ⟨_, rfl, rfl⟩

/-- The populations on which both sets of checks come to the same: one that the booking
rejects before it reads the tables, one without tables in a zone that is unknown, one with
tables whose seats add up to an integer, or a full one in a known zone. -/
def ChecksAgree (env : Environment) (db : Database) : Prop :=
  db.Unprepared ∨ (db.restaurantTables = [] ∧ db.Zoneless env) ∨
    (db.restaurantTables ≠ [] ∧ (db.restaurantTables.map (·.seatingCapacity)).sum ≤ 2147483647) ∨
    (db.restaurantTables.length = 30 ∧ ¬ db.Zoneless env)

theorem totalCapacity_ok_iff : (∃ t, nullableInteger db.totalCapacity = .ok t) ↔
    (db.restaurantTables.map (·.seatingCapacity)).sum ≤ 2147483647 := by
  have hnonneg : 0 ≤ (db.restaurantTables.map (·.seatingCapacity)).sum :=
    List.sum_nonneg fun c hc => by
      obtain ⟨t, -, rfl⟩ := List.mem_map.mp hc
      exact t.capacity_ck.le
  unfold Database.totalCapacity Sql.sum
  split
  · next h => simp [h, nullableInteger]
  constructor
  · rintro ⟨t, ht⟩
    obtain ⟨n, hn, -⟩ := map_eq_ok.mp ht
    unfold integer at hn
    split at hn
    · next hle => exact hle.2
    · cases hn
  · intro hle
    refine ⟨_, map_eq_ok.mpr ⟨_, if_pos ⟨by omega, hle⟩, rfl⟩⟩

theorem unusable_iff : db.Unusable env ↔ db.Unprepared ∨
    (db.restaurantTables.map (·.seatingCapacity)).sum ≤ 2147483647 ∧
      (db.restaurantTables ≠ [] ∧ db.restaurantTables.length ≠ 30 ∨ db.Zoneless env) := by
  have hnil : Sql.orderBy (·.tableNumber) db.restaurantTables = [] ↔ db.restaurantTables = [] := by
    rw [← List.length_eq_zero_iff, Sql.length_orderBy, List.length_eq_zero_iff]
  unfold Database.Unusable
  rw [totalCapacity_ok_iff, badTablePopulation_eq_true, Sql.length_orderBy, ne_eq, hnil]

/-- Booking and availability report an unusable foundation in the same states, exactly
where the checks agree. -/
theorem foundation_checks_agree_iff {p : BookingArguments}
    (hp : normalizedInput env.character p stage = some request) :
    (Returns (bookReservationCore env .readCommitted p tieRank stage readings) m
        (·.outcome = .invalidDatabaseConfiguration) ↔
      ∃ rows, provisionalAvailability env m.view localDate partySize now = .ok rows ∧
        ReportsUnusable rows) ↔ ChecksAgree env m.view := by
  have hbook : Returns (bookReservationCore env .readCommitted p tieRank stage readings) m
      (·.outcome = .invalidDatabaseConfiguration) ↔ m.view.Unusable env := by
    unfold bookReservationCore
    rw [if_neg (by simp), hp]
    exact returns_unusable_iff
  rw [hbook, availability_unusable_iff, incomplete_iff, unusable_iff]
  unfold ChecksAgree
  by_cases hprepared : m.view.Unprepared
  · simp [hprepared]
  by_cases hnil : m.view.restaurantTables = []
  · simp [hprepared, hnil]
  by_cases hsum : (m.view.restaurantTables.map (·.seatingCapacity)).sum ≤ 2147483647
  · simp [hprepared, hnil, hsum]
  · simp only [hprepared, hnil, hsum]
    tauto

end Booking

/-- The seed without its tables. -/
def tableless : Database := { seed with restaurantTables := [] }

theorem foundation_checks_agree_iff_first :
    Returns (bookReservationCore .eastern .readCommitted firstRequest.arguments none none firstNoon)
        (firstMemory seed) (·.outcome = .invalidDatabaseConfiguration) ↔
      ∃ rows, provisionalAvailability .eastern seed (some 1) (some 2) firstNoon.first = .ok rows ∧
        ReportsUnusable rows :=
  (foundation_checks_agree_iff (m := firstMemory seed)
    (normalizedInput_eq_some.mpr ⟨rfl, by decide +kernel, by decide⟩)).mpr
      (.inr (.inr (.inl ⟨by decide +kernel, by decide +kernel⟩)))

/-- Without a single table availability reports the foundation, and a booking is decided. -/
theorem tableless_decided :
    Constraints (Environment.eastern).character tableless ∧
      provisionalAvailability .eastern tableless (some 1) (some 2) firstNoon.first =
        .ok [noSlots .invalidDatabaseConfiguration .incompleteFoundationPopulation] ∧
      Returns (bookReservationCore .eastern .readCommitted firstRequest.arguments none none
        firstNoon) (firstMemory tableless) (·.outcome = .unavailable) :=
  ⟨{ constraints_seed _ with
      tables_pk := List.nodup_nil, assignments_table_fk := fun _ h => absurd h List.not_mem_nil },
    by decide +kernel, by decide +kernel⟩

end CafeFausse
