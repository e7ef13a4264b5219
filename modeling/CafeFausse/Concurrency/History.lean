import CafeFausse.Concurrency.Runs
import CafeFausse.Routines.History

/-! # History

Whatever the interleaving, what is committed stays: reservations with their tables for
good, the facts of a customer once they are set, and the newsletter flag until a call
asks for the other value.
-/

namespace CafeFausse

open Transaction Program Database

/-- Reservations, their tables and the facts of customers are as they were. -/
structure Preserved (db db' : Database) : Prop where
  reservation_stays : ∀ r ∈ db.reservations, r ∈ db'.reservations
  reservation_same : ∀ r ∈ db.reservations, ∀ r' ∈ db'.reservations,
    r'.reservationId = r.reservationId → r' = r
  tables : ∀ r ∈ db.reservations, ∀ t, ⟨r.reservationId, t⟩ ∈ db'.reservationTableAssignments ↔
    ⟨r.reservationId, t⟩ ∈ db.reservationTableAssignments
  customer_stays : ∀ c ∈ db.customers, ∃ c' ∈ db'.customers, c'.customerId = c.customerId
  customer_facts : ∀ c ∈ db.customers, ∀ c' ∈ db'.customers, c'.customerId = c.customerId →
    c.WriteOnce c'

variable {env : Environment} {w w' : World Database LockKey Sequence SqlError Answer Call}

/-- What a step of a run may do to the committed state. -/
structure Stepped (w w' : World Database LockKey Sequence SqlError Answer Call) : Prop where
  evolves : Evolves w.committed w'.committed
  rows : ∀ c ∈ w.committed.customers, ∃ c' ∈ w'.committed.customers, c.WriteOnce c' ∧
    (c'.newsletterSubscribed ≠ c.newsletterSubscribed → ∃ e, w'.log = w.log ++ [e] ∧
      Requested e.call e.row c'.newsletterSubscribed)

theorem stepped_of_step (hw : Reaches (server env) seeded w) (hstep : Step (server env) w w') :
    Stepped w w' := by
  have hc := (consistent_of_reaches hw).constraints
  rcases (invariant_of_reaches hw).answers hstep with hsame | ⟨e, hlog, hdraws, hans⟩
  · exact ⟨hsame ▸ .refl _, fun c hc => ⟨c, hsame ▸ hc, .refl c, fun hne => absurd rfl hne⟩⟩
  · refine ⟨(change_of_answers hc hdraws hans).evolves hc, fun c hmem => ?_⟩
    obtain ⟨m, hrows, hm⟩ := answers_wp
      (R := fun ans m => RowsUpdated e.call ans w.committed m.view) hdraws hans
      fun supply hfresh => wp_server_rows e.call hc hfresh
    obtain ⟨c', hc', hupdates⟩ := hrows c hmem
    exact ⟨c', hm ▸ hc', hupdates.toWriteOnce, fun hne => ⟨e, hlog, hupdates.requested hne⟩⟩

/-- What holds from one state of a run to a later one. -/
structure Kept (db db' : Database) : Prop where
  evolves : Evolves db db'
  rows : ∀ c ∈ db.customers, ∃ c' ∈ db'.customers, c.WriteOnce c'

theorem kept_of_reaches (hw : Reaches (server env) seeded w) (hw' : Reaches (server env) w w') :
    Kept w.committed w'.committed := by
  induction hw' with
  | refl => exact ⟨.refl _, fun c hc => ⟨c, hc, .refl c⟩⟩
  | tail hprior hstep ih =>
    have hs := stepped_of_step (hw.trans hprior) hstep
    refine ⟨ih.evolves.trans hs.evolves, fun c hc => ?_⟩
    obtain ⟨c₁, hc₁, h₁⟩ := ih.rows c hc
    obtain ⟨c₂, hc₂, h₂, -⟩ := hs.rows c₁ hc₁
    exact ⟨c₂, hc₂, h₁.trans h₂⟩

/-- Under the constraints of the later state, a number stands for one row. -/
theorem Kept.preserved {db db' : Database} (h : Kept db db') (hc : Constraints env.character db') :
    Preserved db db' where
  reservation_stays := h.evolves.reservations
  reservation_same r hr r' hr' hid :=
    eq_of_reservationId hc hr' (h.evolves.reservations r hr) hid
  tables r hr t := by
    have hmem : ∀ d : Database, (⟨r.reservationId, t⟩ : ReservationTableAssignment) ∈
        d.reservationTableAssignments.filter (·.reservationId = r.reservationId) ↔
          ⟨r.reservationId, t⟩ ∈ d.reservationTableAssignments := fun d => by simp
    rw [← hmem db', h.evolves.assignments r hr, hmem db]
  customer_stays c hm := by
    obtain ⟨c', hc', hk⟩ := h.rows c hm
    exact ⟨c', hc', hk.customerId⟩
  customer_facts c hm c' hc' hid := by
    obtain ⟨d, hd, hk⟩ := h.rows c hm
    obtain rfl := eq_of_customerId hc hc' hd (hid.trans hk.customerId.symm)
    exact hk

/-- History is immutable. What a state of a run holds, every later state holds, and a step
that changes a newsletter flag commits a call that asked for its value. -/
theorem history_immutable (hw : Reaches (server env) seeded w) :
    (∀ w', Reaches (server env) w w' → Preserved w.committed w'.committed) ∧
    ∀ w', Step (server env) w w' → ∀ c ∈ w.committed.customers, ∀ c' ∈ w'.committed.customers,
      c'.customerId = c.customerId → c'.newsletterSubscribed ≠ c.newsletterSubscribed →
      ∃ e, w'.log = w.log ++ [e] ∧ Requested e.call e.row c'.newsletterSubscribed := by
  constructor
  · intro w' hw'
    exact (kept_of_reaches hw hw').preserved (consistent_of_reaches (hw.trans hw')).constraints
  · intro w' hstep c hm c' hc' hid hne
    obtain ⟨d, hd, hk, hrequested⟩ := (stepped_of_step hw hstep).rows c hm
    obtain rfl := eq_of_customerId (consistent_of_reaches (hw.tail hstep)).constraints hc' hd
      (hid.trans hk.customerId.symm)
    exact hrequested hne

/-- The first booking, and all that may come after it. -/
theorem history_immutable_firstRun : ∃ w, Reaches (server .eastern) seeded w ∧
    w.committed.reservations.length = 1 ∧
    (∀ w', Reaches (server .eastern) w w' → Preserved w.committed w'.committed) ∧
    ∀ w', Step (server .eastern) w w' → ∀ c ∈ w.committed.customers,
      ∀ c' ∈ w'.committed.customers, c'.customerId = c.customerId →
      c'.newsletterSubscribed ≠ c.newsletterSubscribed →
      ∃ e, w'.log = w.log ++ [e] ∧ Requested e.call e.row c'.newsletterSubscribed := by
  obtain ⟨w, hw, hone⟩ := exists_firstRun
  exact ⟨w, hw, hone, history_immutable hw⟩

end CafeFausse
