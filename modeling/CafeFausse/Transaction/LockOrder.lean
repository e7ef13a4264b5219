import CafeFausse.Transaction.Locking

/-! # Ordered locks exclude deadlocks

The rules of `Ordered`, the invariant it gives in every interleaving, and what follows for
the transactions that wait: along their chain the locks they ask for ascend.
-/

namespace CafeFausse.Transaction

variable {σ κ ι ε ρ γ α : Type} [Preorder α] {o : LockOrder κ α} {V : σ → Prop}

namespace Program

variable {β δ : Type} {Q : β → List κ → List (List κ) → Prop} {held : List κ}
  {marks : List (List κ)}

theorem ordered_bind {p : Program σ κ ι ε ρ β} {f : β → Program σ κ ι ε ρ δ}
    {R : δ → List κ → List (List κ) → Prop} :
    (p.bind f).Ordered o V R held marks ↔
      p.Ordered o V (fun a h m => (f a).Ordered o V R h m) held marks := by
  induction p generalizing held marks with
  | pure a => rfl
  | ret r => rfl
  | raise e => rfl
  | lock r next ih => exact and_congr_right fun _ => ih
  | nextval s next ih => exact forall_congr' fun n => ih n
  | statement write next ih =>
    exact forall_congr' fun v => imp_congr_right fun _ => and_congr_right fun _ => ih v
  | savepoint next ih => exact ih
  | rollback next ih =>
    cases marks with
    | nil => rfl
    | cons mark marks => exact ih

theorem Ordered.mono {p : Program σ κ ι ε ρ β} {R : β → List κ → List (List κ) → Prop}
    (h : p.Ordered o V Q held marks) (hQ : ∀ a h m, Q a h m → R a h m) :
    p.Ordered o V R held marks := by
  induction p generalizing held marks with
  | pure a => exact hQ _ _ _ h
  | ret r => trivial
  | raise e => trivial
  | lock r next ih => exact ⟨h.1, ih h.2⟩
  | nextval s next ih => exact fun n => ih n (h n)
  | statement write next ih => exact fun v hv => ⟨(h v hv).1, ih v (h v hv).2⟩
  | savepoint next ih => exact ih h
  | rollback next ih =>
    cases marks with
    | nil => trivial
    | cons mark marks => exact ih h

/-- A handler starts from the locks of the savepoint. -/
theorem Ordered.handle {p : Program σ κ ι ε ρ β} {h : ε → Option (Program σ κ ι ε ρ β)}
    (hp : p.Ordered o V Q held marks)
    (hq : ∀ e q, h e = some q → ∀ held marks, q.Ordered o V Q held marks) :
    (p.handle h).Ordered o V Q held marks := by
  induction p generalizing held marks with
  | pure a => exact hp
  | ret r => trivial
  | raise e =>
    unfold Program.handle
    split
    · next q he =>
      cases marks with
      | nil => trivial
      | cons mark marks => exact hq e q he mark marks
    · trivial
  | lock r next ih => exact ⟨hp.1, ih hp.2⟩
  | nextval s next ih => exact fun n => ih n (hp n)
  | statement write next ih => exact fun v hv => ⟨(hp v hv).1, ih v (hp v hv).2⟩
  | savepoint next ih => exact ih hp
  | rollback next ih =>
    cases marks with
    | nil => trivial
    | cons mark marks => exact ih hp

theorem ordered_acquire {r : κ} {Q : Unit → List κ → List (List κ) → Prop} :
    (acquire r : Program σ κ ι ε ρ Unit).Ordered o V Q held marks ↔
      o.Admits held r ∧ Q () (r :: held) marks := Iff.rfl

theorem ordered_draw {s : ι} {Q : ℕ → List κ → List (List κ) → Prop} :
    (draw s : Program σ κ ι ε ρ ℕ).Ordered o V Q held marks ↔ ∀ n, Q n held marks := Iff.rfl

theorem ordered_query {q : σ → β} (h : ∀ v, V v → Q (q v) held marks) :
    (query q : Program σ κ ι ε ρ β).Ordered o V Q held marks :=
  fun v hv => ⟨fun _ hc => hc, h v hv⟩

theorem ordered_liftExcept {x : Except ε β} (h : ∀ a, x = .ok a → Q a held marks) :
    (liftExcept x : Program σ κ ι ε ρ β).Ordered o V Q held marks := by
  cases x with
  | ok a => exact h a rfl
  | error e => trivial

theorem ordered_execute {f : σ → Except ε (β × (σ → σ))}
    (h : ∀ v a w, V v → f v = .ok (a, w) → (∀ c, V c → V (w c)) ∧ Q a held marks) :
    (execute f : Program σ κ ι ε ρ β).Ordered o V Q held marks := by
  intro v hv
  cases hf : f v with
  | ok x =>
    simp only [hf]
    exact h v x.1 x.2 hv hf
  | error e =>
    simp only [hf]
    exact ⟨fun _ hc => hc, trivial⟩

theorem ordered_attempt {f : σ → Except ε (β × (σ → σ))}
    {Q : Except ε β → List κ → List (List κ) → Prop}
    (hok : ∀ v a w, V v → f v = .ok (a, w) → (∀ c, V c → V (w c)) ∧ Q (.ok a) held marks)
    (herror : ∀ v e, V v → f v = .error e → Q (.error e) held marks) :
    (attempt f : Program σ κ ι ε ρ (Except ε β)).Ordered o V Q held marks := by
  intro v hv
  cases hf : f v with
  | ok x =>
    simp only [hf]
    exact hok v x.1 x.2 hv hf
  | error e =>
    simp only [hf]
    exact ⟨fun _ hc => hc, herror v e hv hf⟩

/-- Nothing is locked, written or drawn. -/
def Quiet : Program σ κ ι ε ρ β → Prop
  | .pure _ | .ret _ | .raise _ => True
  | .statement write next => (∀ v c, write v c = c) ∧ ∀ v, Quiet (next v)
  | _ => False

theorem Quiet.bind {p : Program σ κ ι ε ρ β} {f : β → Program σ κ ι ε ρ δ} (hp : p.Quiet)
    (hf : ∀ a, (f a).Quiet) : (p.bind f).Quiet := by
  induction p with
  | pure a => exact hf a
  | ret r => trivial
  | raise e => trivial
  | statement write next ih => exact ⟨hp.1, fun v => ih v (hp.2 v)⟩
  | _ => exact hp.elim

theorem quiet_query (q : σ → β) : (query q : Program σ κ ι ε ρ β).Quiet :=
  ⟨fun _ _ => rfl, fun _ => trivial⟩

theorem quiet_liftExcept (x : Except ε β) : (liftExcept x : Program σ κ ι ε ρ β).Quiet := by
  cases x <;> trivial

/-- A quiet routine is in order from any held locks. -/
theorem Quiet.ordered {κ' : Type} {f : κ' → κ} {p : Program σ κ' ι ε ρ β} (hp : p.Quiet)
    (hQ : ∀ a, Q a held marks) : (p.mapLocks f).Ordered o V Q held marks := by
  induction p with
  | pure a => exact hQ a
  | ret r => trivial
  | raise e => trivial
  | statement write next ih =>
    exact fun v _ => ⟨fun c hc => by rwa [hp.1], ih v (hp.2 v)⟩
  | _ => exact hp.elim

/-- Locks in ascending order, where one may come twice. -/
theorem ordered_acquireAll {l : List κ} {Q : Unit → List κ → List (List κ) → Prop}
    (hl : l.Pairwise fun r x => o.rank r < o.rank x ∨ r = x)
    (hheld : ∀ h ∈ held, ∀ r ∈ l, o.rank h < o.rank r ∨ h = r)
    (hQ : ∀ held', (∀ x, x ∈ held' ↔ x ∈ l ∨ x ∈ held) → Q () held' marks) :
    (acquireAll l : Program σ κ ι ε ρ Unit).Ordered o V Q held marks := by
  induction l generalizing held with
  | nil => exact hQ held fun x => by simp
  | cons r rest ih =>
    obtain ⟨hr, hrest⟩ := List.pairwise_cons.mp hl
    constructor
    · by_cases hmem : r ∈ held
      · exact .inl (.of_mem o hmem)
      · exact .inr fun h hh => (hheld h hh r (List.mem_cons_self ..)).resolve_right
          fun he => hmem (he ▸ hh)
    · refine ih hrest ?_ fun held' hheld' => hQ held' fun x => ?_
      · rintro h hh x hx
        rcases List.mem_cons.mp hh with rfl | hh
        · exact hr x hx
        · exact hheld h hh x (List.mem_cons_of_mem _ hx)
      · rw [hheld', List.mem_cons, List.mem_cons]
        tauto

/-- Locks that are all covered. -/
theorem ordered_acquireAll_of_covers {l : List κ} {Q : Unit → List κ → List (List κ) → Prop}
    (hl : ∀ r ∈ l, o.Covers held r) (hQ : ∀ held', Q () held' marks) :
    (acquireAll l : Program σ κ ι ε ρ Unit).Ordered o V Q held marks := by
  induction l generalizing held with
  | nil => exact hQ held
  | cons r rest ih =>
    refine ⟨.inl (hl r (List.mem_cons_self ..)), ih fun x hx => ?_⟩
    obtain ⟨h, hh, hcover⟩ := hl x (List.mem_cons_of_mem _ hx)
    exact ⟨h, List.mem_cons_of_mem _ hh, hcover⟩

end Program

variable (o V)

/-- The rest of the session takes its locks in order, on views with `V`. -/
structure Session.Disciplined (s : Session σ κ ι ε ρ γ) : Prop where
  ordered : s.program.Ordered o V (fun x _ _ => x.elim) s.locks (s.marks.map (·.2))
  writes : ∀ v, V v → V (s.writes v)
  marks : ∀ m ∈ s.marks, ∀ v, V v → V (m.1 v)
  nested : (s.locks :: s.marks.map (·.2)).Pairwise fun a b => b ⊆ a

/-- The sessions are disciplined, and no two of them hold conflicting locks. -/
structure World.Disciplined (w : World σ κ ι ε ρ γ) : Prop where
  committed : V w.committed
  sessions : ∀ t s, w.sessions t = some s → s.Disciplined o V
  exclusive : ∀ t u s s', t ≠ u → w.sessions t = some s → w.sessions u = some s' →
    ∀ r ∈ s.locks, ∀ x ∈ s'.locks, ¬ o.Conflicts r x

variable {o V} {w w' : World σ κ ι ε ρ γ} {t u : ℕ} {s : Session σ κ ι ε ρ γ}

section Steps

/-- One session goes on, with locks that the others admit. -/
theorem World.Disciplined.set (h : w.Disciplined o V) (hs : s.Disciplined o V)
    (hex : ∀ r ∈ s.locks, w.Grants o.Conflicts t r) : (w.set t (some s)).Disciplined o V where
  committed := h.committed
  sessions u x hx := by
    rcases World.set_sessions_eq_some hx with ⟨-, he⟩ | ⟨-, hx⟩
    · exact Option.some.inj he ▸ hs
    · exact h.sessions u x hx
  exclusive u v x y huv hx hy r hr z hz hc := by
    rcases World.set_sessions_eq_some hx with ⟨rfl, he⟩ | ⟨hu, hx'⟩
    · rcases World.set_sessions_eq_some hy with ⟨rfl, -⟩ | ⟨hv, hy'⟩
      · exact huv rfl
      · cases Option.some.inj he
        exact hex r hr v y hv hy' z hz hc
    · rcases World.set_sessions_eq_some hy with ⟨rfl, he⟩ | ⟨-, hy'⟩
      · cases Option.some.inj he
        exact hex z hz u x hu hx' r hr (o.symm hc)
      · exact h.exclusive u v x y huv hx' hy' r hr z hz hc

/-- One session ends. -/
theorem World.Disciplined.set_none (h : w.Disciplined o V) : (w.set t none).Disciplined o V where
  committed := h.committed
  sessions u x hx := by
    rcases World.set_sessions_eq_some hx with ⟨-, he⟩ | ⟨-, hx⟩
    · cases he
    · exact h.sessions u x hx
  exclusive u v x y huv hx hy := by
    rcases World.set_sessions_eq_some hx with ⟨-, he⟩ | ⟨-, hx⟩
    · cases he
    · rcases World.set_sessions_eq_some hy with ⟨-, he⟩ | ⟨-, hy⟩
      · cases he
      · exact h.exclusive u v x y huv hx hy

/-- What a session holds, the others admit. -/
theorem World.Disciplined.grants (h : w.Disciplined o V) (hs : w.sessions t = some s) {r : κ}
    (hr : r ∈ s.locks) : w.Grants o.Conflicts t r := fun u x hu hx z hz =>
  h.exclusive t u s x hu.symm hs hx r hr z hz

variable [DecidableEq κ] [DecidableEq ι] {sys : System σ κ ι ε ρ γ}

theorem World.Disciplined.step
    (hsys : ∀ call, (sys.body call).Ordered o V (fun x _ _ => x.elim) [] [])
    (h : w.Disciplined o V) (hstep : LockStep sys o.Conflicts w w') : w'.Disciplined o V := by
  cases hstep with
  | begin t call ht =>
    exact h.set ⟨hsys call, fun v hv => hv, by simp, by simp⟩ (by simp)
  | lock t s hs r next hp hg =>
    have hd := h.sessions t s hs
    have ho := hd.ordered
    rw [hp] at ho
    refine h.set ⟨ho.2, hd.writes, hd.marks, ?_⟩ ?_
    · obtain ⟨hlocks, hmarks⟩ := List.pairwise_cons.mp hd.nested
      exact List.pairwise_cons.mpr
        ⟨fun m hm => List.subset_cons_of_subset _ (hlocks m hm), hmarks⟩
    · rintro x hx
      rcases List.mem_cons.mp hx with rfl | hx
      · exact hg
      · exact h.grants hs hx
  | nextval t s hs q next hp =>
    have hd := h.sessions t s hs
    have ho := hd.ordered
    rw [hp] at ho
    obtain ⟨hc, hses, hex⟩ := h.set (t := t)
      (s := { s with program := next (w.counters q), draws := s.draws ++ [(q, w.counters q)] })
      ⟨ho _, hd.writes, hd.marks, hd.nested⟩ fun r hr => h.grants hs hr
    exact ⟨hc, hses, hex⟩
  | statement t s hs write next hp =>
    have hd := h.sessions t s hs
    have ho := hd.ordered
    rw [hp] at ho
    obtain ⟨hwrite, hnext⟩ := ho _ (hd.writes _ h.committed)
    exact h.set ⟨hnext, fun v hv => hwrite _ (hd.writes v hv), hd.marks, hd.nested⟩
      fun r hr => h.grants hs hr
  | savepoint t s hs next hp =>
    have hd := h.sessions t s hs
    have ho := hd.ordered
    rw [hp] at ho
    refine h.set ⟨ho, hd.writes, ?_, ?_⟩ fun r hr => h.grants hs hr
    · rintro m hm
      rcases List.mem_cons.mp hm with rfl | hm
      · exact hd.writes
      · exact hd.marks m hm
    · refine List.pairwise_cons.mpr ⟨fun m hm => ?_, hd.nested⟩
      rcases List.mem_cons.mp hm with rfl | hm
      · exact List.Subset.refl _
      · exact (List.pairwise_cons.mp hd.nested).1 m hm
  | rollback t s hs next mark marks hp hm =>
    have hd := h.sessions t s hs
    have ho := hd.ordered
    rw [hp, hm] at ho
    have hn := hd.nested
    rw [hm] at hn
    obtain ⟨hlocks, hmarks⟩ := List.pairwise_cons.mp hn
    refine h.set ⟨ho, hd.marks mark (hm ▸ List.mem_cons_self ..), fun m hmem =>
      hd.marks m (hm ▸ List.mem_cons_of_mem _ hmem), hmarks⟩ fun r hr => ?_
    exact h.grants hs (hlocks mark.2 (List.mem_cons_self ..) hr)
  | commit t s hs r hp =>
    obtain ⟨-, hses, hex⟩ := h.set_none (t := t)
    exact ⟨(h.sessions t s hs).writes _ h.committed, hses, hex⟩
  | abort t s hs => exact h.set_none

/-- In every interleaving of such calls the sessions stay disciplined. -/
theorem disciplined_of_lockSteps {c : σ} {n : ι → ℕ} (hc : V c)
    (hsys : ∀ call, (sys.body call).Ordered o V (fun x _ _ => x.elim) [] [])
    (hw : Relation.ReflTransGen (LockStep sys o.Conflicts) (World.initial c n) w) :
    w.Disciplined o V := by
  induction hw with
  | refl => exact ⟨hc, nofun, nofun⟩
  | tail _ hstep ih => exact ih.step hsys hstep

end Steps

section Waiting

variable {place : ℕ → ℕ} {r r' : κ}

theorem Session.Requests.unique (h : s.Requests r) (h' : s.Requests r') : r = r' := by
  obtain ⟨next, hp⟩ := h
  obtain ⟨next', hp'⟩ := h'
  rw [hp] at hp'
  cases hp'
  rfl

/-- The lock that `t` asks for comes before the one that `u` asks for, or is of the same
rank and `u` queued for it first. -/
def World.Behind (o : LockOrder κ α) (place : ℕ → ℕ) (w : World σ κ ι ε ρ γ) (t u : ℕ) : Prop :=
  ∃ s s' r r', w.sessions t = some s ∧ w.sessions u = some s' ∧ s.Requests r ∧ s'.Requests r' ∧
    (o.rank r < o.rank r' ∨ o.rank r = o.rank r' ∧ place u < place t)

theorem World.Behind.irrefl : ¬ w.Behind o place t t := by
  rintro ⟨s, s', r, r', hs, hs', hr, hr', hlt⟩
  cases hs.symm.trans hs'
  cases hr.unique hr'
  rcases hlt with hlt | ⟨-, hlt⟩
  · exact lt_irrefl _ hlt
  · exact lt_irrefl _ hlt

theorem World.Behind.trans {v : ℕ} (h : w.Behind o place t u) (h' : w.Behind o place u v) :
    w.Behind o place t v := by
  obtain ⟨s, s', r, r', hs, hs', hr, hr', hlt⟩ := h
  obtain ⟨x, x', z, z', hx, hx', hz, hz', hlt'⟩ := h'
  cases hs'.symm.trans hx
  cases hr'.unique hz
  refine ⟨s, x', r, z', hs, hx', hr, hz', ?_⟩
  rcases hlt with hlt | ⟨heq, hlt⟩ <;> rcases hlt' with hlt' | ⟨heq', hlt'⟩
  · exact .inl (hlt.trans hlt')
  · exact .inl (heq' ▸ hlt)
  · exact .inl (heq ▸ hlt')
  · exact .inr ⟨heq.trans heq', hlt'.trans hlt⟩

/-- Who waits asks for a lock after all that he holds. -/
theorem World.Disciplined.rank_lt_of_waitsFor (h : w.Disciplined o V)
    (hw : w.WaitsFor o.Conflicts place t u) (hs : w.sessions t = some s) (hr : s.Requests r) :
    ∀ x ∈ s.locks, o.rank x < o.rank r := by
  obtain ⟨hne, s₁, s', r₁, x, hs₁, hs', hr₁, hc, hx⟩ := hw
  cases hs.symm.trans hs₁
  cases hr.unique hr₁
  obtain ⟨next, hp⟩ := hr
  have ho := (h.sessions t s hs).ordered
  rw [hp] at ho
  refine ho.1.resolve_left fun ⟨y, hy, hcover⟩ => ?_
  rcases hx with hx | ⟨-, -, hfront⟩
  · exact h.exclusive t u s s' hne hs hs' y hy x hx (hcover x hc)
  · exact hfront y hy (hcover x hc)

theorem World.Disciplined.behind_of_waitsFor {v : ℕ} (h : w.Disciplined o V)
    (htu : w.WaitsFor o.Conflicts place t u) (huv : w.WaitsFor o.Conflicts place u v) :
    w.Behind o place t u := by
  obtain ⟨-, s, s', r, x, hs, hs', hr, hc, hx⟩ := htu
  obtain ⟨-, s₁, -, r', -, hs₁, -, hr', -⟩ := id huv
  cases hs'.symm.trans hs₁
  refine ⟨s, s', r, r', hs, hs', hr, hr', ?_⟩
  rw [o.rank_eq hc]
  rcases hx with hx | ⟨hx, hlt, -⟩
  · exact .inl (h.rank_lt_of_waitsFor huv hs' hr' x hx)
  · exact .inr ⟨by rw [hx.unique hr'], hlt⟩

/-- Nobody waits for himself, over any number of others. -/
theorem World.Disciplined.not_transGen_waitsFor (h : w.Disciplined o V) (place : ℕ → ℕ) (t : ℕ) :
    ¬ Relation.TransGen (w.WaitsFor o.Conflicts place) t t := by
  have hbehind : ∀ u, Relation.TransGen (w.WaitsFor o.Conflicts place) t u →
      ∀ v, w.WaitsFor o.Conflicts place u v → w.Behind o place t u := by
    intro u hu
    induction hu with
    | single htu => exact fun v huv => h.behind_of_waitsFor htu huv
    | tail _ hxu ih => exact fun v huv => (ih _ hxu).trans (h.behind_of_waitsFor hxu huv)
  intro hcycle
  obtain ⟨v, hv, -⟩ := Relation.TransGen.head'_iff.mp hcycle
  exact (hbehind t hcycle v hv).irrefl

end Waiting

end CafeFausse.Transaction
