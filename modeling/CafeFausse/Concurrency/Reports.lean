import CafeFausse.Concurrency.Timely
import CafeFausse.Routines.BookingRows
import CafeFausse.Routines.PreferenceRows
import CafeFausse.Transaction.Numbers

/-! # What a run reports

In every state of a run a session that is about to return shows what it leaves behind: a
stored reservation, a stored flag, or the reason why there is none. The reservations have
positive numbers, tables, and a digest of 32 bytes.
-/

namespace CafeFausse

open Transaction Program Database

variable {env : Environment} {db db' : Database} {r : Reservation}

/-- What the constraints leave open about tables and reservations. -/
structure Reportable (db : Database) : Prop where
  numbers : ∀ t ∈ db.restaurantTables, t.tableNumber ≤ 32767
  seated : ∀ r ∈ db.reservations, ∃ t, ⟨r.reservationId, t⟩ ∈ db.reservationTableAssignments
  version : ∀ r ∈ db.reservations, r.fingerprintVersion = 1
  digest : ∀ r ∈ db.reservations, r.reservationFingerprint.length = 32

theorem reportable_seed : Reportable seed where
  numbers := by decide
  seated := nofun
  version := nofun
  digest := nofun

section Changes

variable (hdigest : ∀ n startsAt partySize, (env.fingerprint n startsAt partySize).length = 32)
include hdigest

theorem Reportable.booked {request : BookingRequest} {readings : Readings} {tieRank : Option ℤ}
    (h : Reportable db) (b : Placement env request readings tieRank db) : Reportable b.after := by
  have hsame := b.resolves.restaurant
  have hreservations : b.resolved.reservations = db.reservations := by rw [hsame]
  constructor
  · intro t ht
    have ht' : t ∈ b.resolved.restaurantTables := ht
    rw [hsame] at ht'
    exact h.numbers t ht'
  · intro r hr
    rcases mem_reservations_withBooking.mp hr with hr | rfl
    · rw [hreservations] at hr
      obtain ⟨t, ht⟩ := h.seated r hr
      refine ⟨t, mem_assignments_withBooking.mpr (.inl ?_)⟩
      rw [hsame]
      exact ht
    · obtain ⟨t, ht⟩ := List.exists_mem_of_ne_nil _ b.bookable.tables_ne_nil
      exact ⟨t, mem_assignments_withBooking.mpr (.inr ⟨rfl, ht⟩)⟩
  · intro r hr
    rcases mem_reservations_withBooking.mp hr with hr | rfl
    · exact h.version r (hreservations ▸ hr)
    · exact b.booked.version
  · intro r hr
    rcases mem_reservations_withBooking.mp hr with hr | rfl
    · exact h.digest r (hreservations ▸ hr)
    · rw [b.booked.fingerprint]
      exact hdigest _ _ _

theorem Reportable.change (h : Reportable db) (hchange : Change env db db') : Reportable db' := by
  cases hchange with
  | booked b => exact h.booked hdigest b
  | table row =>
    refine ⟨fun t ht => ?_, h.seated, h.version, h.digest⟩
    obtain ⟨stored, hstored, rfl⟩ := List.mem_map.mp ht
    split
    · next hsame => exact hsame ▸ h.numbers stored hstored
    · exact h.numbers stored hstored
  | _ => exact ⟨h.numbers, h.seated, h.version, h.digest⟩

end Changes

theorem mem_assignedTables {number : ℕ} {t : ℤ} :
    t ∈ (db.reservationTableAssignments.filter (·.reservationId = number)).map (·.tableNumber) ↔
      ⟨number, t⟩ ∈ db.reservationTableAssignments := by
  constructor
  · intro ht
    obtain ⟨a, ha, rfl⟩ := List.mem_map.mp ht
    obtain ⟨ha, hid⟩ := List.mem_filter.mp ha
    rw [← of_decide_eq_true hid]
    exact ha
  · intro ha
    exact List.mem_map.mpr ⟨_, List.mem_filter.mpr ⟨ha, decide_eq_true rfl⟩, rfl⟩

/-- The tables of a reservation are one or more, in order, each of them one of the restaurant. -/
theorem Reportable.tables {ct : CharacterType} (h : Reportable db) (hc : Constraints ct db)
    (hr : r ∈ db.reservations) : ∃ tables, db.tableNumbersOf r.reservationId = some tables ∧
      tables ≠ [] ∧ tables.Pairwise (· < ·) ∧ ∀ t ∈ tables, 1 ≤ t ∧ t ≤ 32767 := by
  set numbers := (db.reservationTableAssignments.filter
    (·.reservationId = r.reservationId)).map (·.tableNumber) with hnumbers
  have hmem (t : ℤ) : t ∈ Sql.orderBy id numbers ↔
      ⟨r.reservationId, t⟩ ∈ db.reservationTableAssignments :=
    Sql.mem_orderBy.trans mem_assignedTables
  obtain ⟨t, ht⟩ := h.seated r hr
  have hne : Sql.orderBy id numbers ≠ [] := List.ne_nil_of_mem ((hmem t).mpr ht)
  refine ⟨Sql.orderBy id numbers, ?_, hne, ?_, fun t ht => ?_⟩
  · unfold Database.tableNumbersOf Sql.arrayAgg
    rw [← hnumbers, if_neg hne]
  · apply Sql.orderBy_pairwise_lt
    rw [hnumbers, List.map_map]
    apply List.Nodup.map_on
    · intro a ha b hb hab
      have hid := (of_decide_eq_true (List.mem_filter.mp ha).2).trans
        (of_decide_eq_true (List.mem_filter.mp hb).2).symm
      cases a
      cases b
      exact congrArg₂ ReservationTableAssignment.mk hid hab
    · exact hc.assignments_pk.filter _
  · obtain ⟨row, hrow, hnumber⟩ := hc.assignments_table_fk _ ((hmem t).mp ht)
    have hnumber' : row.tableNumber = t := hnumber
    have hpositive := row.number_ck
    have hsmall := h.numbers row hrow
    omega

section Runs

variable {w : World Database LockKey Sequence SqlError Answer Call} {t : ℕ}
  {s : Session Database LockKey Sequence SqlError Answer Call} {ans : Answer}

/-- The sequences begin with 1. -/
theorem used_of_reaches (hw : Reaches (server env) seeded w) (q : Sequence) (n : ℕ)
    (hused : InUse w.committed q n) : 1 ≤ n :=
  Reaches.used_ge server_accountable (consistent_seed env.character).constraints.customers_pk
    (consistent_seed env.character) (fun q m hm => by cases q <;> simp [guards, InUse, seed] at hm)
    hw q n hused

theorem reportable_of_reaches
    (hdigest : ∀ n startsAt partySize, (env.fingerprint n startsAt partySize).length = 32)
    (hw : Reaches (server env) seeded w) : Reportable w.committed := by
  induction hw with
  | refl => exact reportable_seed
  | tail hprior hstep ih =>
    rcases (invariant_of_reaches hprior).answers hstep with hsame | ⟨e, -, hdraws, hans⟩
    · exact hsame ▸ ih
    · exact ih.change hdigest
        (change_of_answers (consistent_of_reaches hprior).constraints hdraws hans)

/-- Each routine answers with its own rows, and beside a detail stands one of the outcomes that
come with one. -/
structure Explained (call : Call) (ans : Answer) : Prop where
  booking : ∀ p readings, call = .bookReservation p readings → ∃ row, ans = .booking row ∧
    (row.detailCode.isSome → row.outcome.Detailed)
  newsletter : ∀ p, call = .setNewsletterPreference p → ans.isBooking = false

theorem explained_server (call : Call) :
    ((server env).body call).Yields (Explained call) fun _ => True := by
  have hbooking {p readings} {row : BookingRow} (h : row.detailCode.isSome → row.outcome.Detailed) :
      Explained (.bookReservation p readings) (.booking row) := by
    constructor
    · exact fun _ _ _ => ⟨row, rfl, h⟩
    · rintro _ ⟨⟩
  cases call with
  | bookReservation p readings =>
    apply yields_bookReservation fun _ _ => trivial
    · exact fun d => hbooking fun _ => .inl rfl
    · exact fun d => hbooking fun _ => .inr (.inl rfl)
    · intro o _ row _ hnone
      apply hbooking
      rw [hnone]
      exact nofun
    · rintro request start o d fingerprint (rfl | rfl)
      · exact hbooking fun _ => .inr (.inr rfl)
      · exact hbooking fun _ => .inl rfl
  | setNewsletterPreference p =>
    apply yields_setNewsletterPreference.mono _ fun _ h => h
    intro ans hans
    constructor
    · rintro _ _ ⟨⟩
    · exact fun _ _ => hans
  | _ =>
    apply (yields_trivial _).mono _ fun _ h => h
    intro ans _
    constructor
    · rintro _ _ ⟨⟩
    · rintro _ ⟨⟩

/-- What a session that is about to return stands for. -/
theorem returned_of_session (hw : Reaches (server env) seeded w) (hs : w.sessions t = some s)
    (hp : s.program = .ret ans) :
    (∃ supply, (∀ q, ¬ InUse w.committed q (supply q 0)) ∧
      ((server env).body s.call).transact ⟨w.committed, [], supply⟩ =
        (.returned ans, s.writes w.committed)) ∨
    ∃ request start o d fingerprint, ans = .booking (abortedRow request start o d fingerprint) := by
  rcases (invariant_of_reaches hw).returns hs hp with ⟨hdraws, hans⟩ | ⟨-, settled⟩
  · exact .inl (transact_of_answers hdraws hans)
  · exact .inr settled

theorem explained_of_session (hw : Reaches (server env) seeded w) (hs : w.sessions t = some s)
    (hp : s.program = .ret ans) : Explained s.call ans := by
  have hyields := yields_of_reaches explained_server hw t s hs
  rw [hp] at hyields
  exact hyields

/-- Whatever runs beside it, a booking that is about to return refuses or shows what it leaves. -/
theorem shown_of_session (hw : Reaches (server env) seeded w) (hs : w.sessions t = some s)
    (hp : s.program = .ret ans) {p : BookingArguments} {readings : Readings}
    (hcall : s.call = .bookReservation p readings) : ∃ row, ans = .booking row ∧
      (row.Refuses ∨ ∃ r c, row.Reports p (s.writes w.committed) r c) := by
  obtain ⟨row, rfl, hdetail⟩ := (explained_of_session hw hs hp).booking p readings hcall
  refine ⟨row, rfl, ?_⟩
  rcases returned_of_session hw hs hp with ⟨supply, hfresh, hrun⟩ | ⟨request, start, o, d, fp, heq⟩
  · rw [hcall] at hrun
    exact shown_of_transact (m := ⟨w.committed, [], supply⟩) (consistent_of_reaches hw).constraints
      hfresh hrun
  · cases heq
    have hdetailed : o.Detailed := hdetail rfl
    have h : (refusal o d).Refuses := refuses_refusal hdetailed
    exact .inl ⟨h.fails, iff_of_true rfl hdetailed, rfl⟩

/-- Whatever runs beside it, a preference that is about to return shows the flag it leaves. -/
theorem preferenceShown_of_session (hw : Reaches (server env) seeded w)
    (hs : w.sessions t = some s) (hp : s.program = .ret ans) {p : NewsletterArguments}
    (hcall : s.call = .setNewsletterPreference p) : ∃ o flag, ans = .newsletter o flag ∧
      PreferenceShown p (s.writes w.committed) o flag := by
  rcases returned_of_session hw hs hp with ⟨supply, hfresh, hrun⟩ | ⟨request, start, o, d, fp, rfl⟩
  · rw [hcall] at hrun
    obtain ⟨m', hshown, hm'⟩ := of_transact_returned (wp_setNewsletterPreference_shown
      (m := ⟨w.committed, [], supply⟩) (consistent_of_reaches hw).constraints) hrun
    rw [hm'] at hshown
    exact hshown
  · cases (explained_of_session hw hs hp).newsletter p hcall

/-- What a session leaves is as good as what it found. -/
theorem left_of_session
    (hdigest : ∀ n startsAt partySize, (env.fingerprint n startsAt partySize).length = 32)
    (hw : Reaches (server env) seeded w) (hs : w.sessions t = some s) (hp : s.program = .ret ans) :
    Constraints env.character (s.writes w.committed) ∧ Reportable (s.writes w.committed) ∧
      ∀ r ∈ (s.writes w.committed).reservations, 1 ≤ r.reservationId := by
  have hcommit : Reaches (server env) seeded _ := hw.tail (.commit t s hs ans hp)
  refine ⟨(consistent_of_reaches hcommit).constraints, reportable_of_reaches hdigest hcommit, ?_⟩
  exact fun r hr => used_of_reaches hcommit .reservation _ ⟨r, hr, rfl⟩

end Runs

end CafeFausse
