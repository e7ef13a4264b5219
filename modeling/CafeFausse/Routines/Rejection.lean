import CafeFausse.Routines.Evolution

/-! # Turned away again

A booking that is turned away after its customer was found to fit is turned away with
the same report by every later state of the customers, as long as the customer that is
then stored under its e-mail still fits.
-/

namespace CafeFausse

open Transaction Program Database

variable {env : Environment} {request : BookingRequest} {m : Memory Database Sequence}
  {readings : Readings} {tieRank : Option ℤ} {f : Foundation} {start : ResolvedStart}
  {hours : RestaurantOperatingHours} {db : Database} {l : List Customer} {c : Customer}
  {o : Outcome} {d : Detail}

theorem FoundationOf.withCustomers (h : FoundationOf env db f) :
    FoundationOf env { db with customers := l } f :=
  ⟨h.configuration, h.hours, h.capacity, h.tables, h.zone⟩

theorem Admitted.withCustomers (h : Admitted env request readings db f start hours) :
    Admitted env request readings { db with customers := l } f start hours :=
  ⟨h.foundation.withCustomers, h.resolved, h.openOn, h.policy⟩

/-- The allocation does not look at the customers. -/
theorem TurnsDown.withCustomers {partySize : ℤ}
    (h : TurnsDown db f start partySize tieRank readings o d) :
    TurnsDown { db with customers := l } f start partySize tieRank readings o d := by
  cases h with
  | unavailable h => exact .unavailable h
  | boundary a h crossed => exact .boundary a h crossed

/-- A stored customer who fits now did so before. -/
theorem Customer.Keeps.identifies {c' : Customer} (h : c.Keeps c')
    (hi : Identifies env request c') : Identifies env request c := by
  constructor
  · have hnames := hi.names
    unfold NamesDiffer at hnames ⊢
    rwa [h.firstName, h.lastName] at hnames
  · rintro ⟨s, hs, g, hg, hne⟩
    exact hi.initials ⟨s, h.middleInitial s hs, g, hg, hne⟩

/-- The customer who was stored under the e-mail fits the request. -/
theorem Rejection.identifies (t : Rejection env request readings tieRank db)
    (hc : Constraints env.character db) (hm : c ∈ db.customers) (he : c.email = request.email) :
    Identifies env request c := by
  have hid := t.unserved.identifies
  have hres := t.resolves
  generalize t.customer = c₀, t.isNew = isNew, t.resolved = db' at hres hid
  cases hres with
  | stored c₀ hc₀ he₀ =>
    rwa [List.inj_on_of_nodup_map hc.customers_email_uq hm hc₀ (he.trans he₀.symm)]
  | created n hn hnew => exact absurd he (hnew c hm)

/-- A reservation of the customer now stored under the e-mail was one of the customer
whom the booking had found. -/
theorem Rejection.reserved (t : Rejection env request readings tieRank db)
    (hc : Constraints env.character db) (hc' : Constraints env.character { db with customers := l })
    (hev : Evolves db { db with customers := l }) (hm : c ∈ l) (he : c.email = request.email)
    {r : Reservation} (hr : r ∈ db.reservations) (hid : r.customerId = c.customerId) :
    r.customerId = t.customer.customerId := by
  obtain ⟨b, hb, hbr⟩ := hc.reservations_customer_fk r hr
  obtain ⟨b', hb', hk⟩ := hev.customers b hb
  have hsame : b' = c := eq_of_customerId hc' hb' hm (hk.customerId.trans (hbr.trans hid))
  have hemail : b.email = request.email := by rw [← hk.email, hsame, he]
  have hres := t.resolves
  generalize t.customer = c₀, t.isNew = isNew, t.resolved = db' at hres
  cases hres with
  | stored c₀ hc₀ he₀ =>
    have : b = c₀ := List.inj_on_of_nodup_map hc.customers_email_uq hb hc₀ (hemail.trans he₀.symm)
    rw [← hbr, this]
  | created n hn hnew => exact absurd hemail (hnew b hb)

/-- Whoever the booking finds now cannot be served either. -/
theorem Rejection.unserved_again (t : Rejection env request readings tieRank db)
    (hc : Constraints env.character db) (hc' : Constraints env.character { db with customers := l })
    (hev : Evolves db { db with customers := l })
    (hfits : ∀ c ∈ l, c.email = request.email → Identifies env request c) {isNew : Bool}
    {db' : Database} (hres : Resolves request { db with customers := l } c isNew db') :
    Unserved env request t.foundation t.start tieRank readings db' c t.outcome t.detail := by
  have hdown : TurnsDown db' t.foundation t.start request.partySize tieRank readings t.outcome
      t.detail := by
    have h := t.unserved.turnedDown
    rw [t.resolves.restaurant] at h
    rw [hres.restaurant]
    exact (h.withCustomers (l := db'.customers) :)
  cases hres with
  | stored c hm he =>
    have hunique := t.unserved.unique
    have hclear := t.unserved.clear
    rw [t.resolves.restaurant] at hunique hclear
    refine ⟨hfits c hm he, fun r hr hsame => ?_, ?_, hdown⟩
    · exact hunique r hr ⟨t.reserved hc hc' hev hm he hr hsame.1, hsame.2⟩
    · rintro ⟨r, hr, hid, hover⟩
      exact hclear ⟨r, hr, t.reserved hc hc' hev hm he hr hid, hover⟩
  | created n hn he =>
    have hcreated := Resolves.created n hn he
    refine ⟨hcreated.identifies env, fun r hr hsame => ?_, ?_, hdown⟩
    · exact hcreated.unreserved hc' r hr hsame.1
    · rintro ⟨r, hr, hid, -⟩
      exact hcreated.unreserved hc' r hr hid

/-- An admitted booking whose customer cannot be served returns the row of the handler
and leaves the database alone. -/
theorem wp_bookRequest_unserved {R : Answer → Memory Database Sequence → Prop}
    {E : SqlError → Memory Database Sequence → Prop} {Q : Empty → Memory Database Sequence → Prop}
    (hadm : Admitted env request readings m.view f start hours)
    (hfresh : ¬ InUse m.view .customer (m.supply .customer 0)) (hv : request.Valid env.character)
    (hunserved : ∀ c isNew db', Resolves request m.view c isNew db' →
      Unserved env request f start tieRank readings db' c o d)
    (hR : ∀ n m', m'.view = m.view → R (.booking (abortedRow request start o d
      (env.fingerprint n start.startsAt request.partySize))) m') :
    (bookRequest env request tieRank none readings).wp Q R E m := by
  refine wp_bookRequest_admitted hadm ?_
  unfold bookingBlock
  refine bind_wp (wp_liftExcept.mpr ?_)
  rw [canonicalEmailLockKey_of_valid hv]
  refine bind_wp (wp_acquire.mpr (bind_wp (wp_resolveCustomer hv hfresh (fun c hm he _ => ?_)
    (fun hno => ?_) nofun)))
  · exact wp_serveCustomer_unserved (hunserved c false _ (.stored c hm he)) (hR _ _ rfl)
  · exact wp_serveCustomer_unserved (hunserved _ true _ (.created _ hfresh hno)) (hR _ _ rfl)

end CafeFausse
