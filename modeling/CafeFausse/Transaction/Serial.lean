import CafeFausse.Transaction.Guards

/-! # Serializability in commit order

Replaying an open session of a secured routine on the current committed state leads
to exactly where the session stands, so commits are serializable in their order. A
session that gave locks up in a rollback has its row already. What still speaks for
that row when the session commits has to outlast the commits in between.
-/

namespace CafeFausse.Transaction

open Program

variable {σ κ ι ε ρ γ : Type}

section Supply

variable [DecidableEq ι]

/-- A supply that gives out `n` first. -/
def push (q : ι) (n : ℕ) (d : ι → ℕ → ℕ) : ι → ℕ → ℕ :=
  Function.update d q fun
    | 0 => n
    | i + 1 => d q i

/-- A supply that gives out the recorded draws in their order. -/
def supplyOf (draws : List (ι × ℕ)) (d : ι → ℕ → ℕ) : ι → ℕ → ℕ :=
  draws.foldr (fun p d => push p.1 p.2 d) d

@[simp] theorem push_self (q : ι) (n : ℕ) (d : ι → ℕ → ℕ) : push q n d q 0 = n := by
  simp [push]

@[simp] theorem advance_push (q : ι) (n : ℕ) (d : ι → ℕ → ℕ) : advance (push q n d) q = d := by
  funext r; by_cases h : r = q
  · subst h; simp [advance, push]
  · simp [advance, push, h]

@[simp] theorem supplyOf_nil (d : ι → ℕ → ℕ) : supplyOf [] d = d := rfl

theorem supplyOf_append (draws : List (ι × ℕ)) (q : ι) (n : ℕ) (d : ι → ℕ → ℕ) :
    supplyOf (draws ++ [(q, n)]) d = supplyOf draws (push q n d) := by
  simp [supplyOf]

/-- The first number comes from the draws or from the supply behind them. -/
theorem supplyOf_zero (draws : List (ι × ℕ)) (d : ι → ℕ → ℕ) (q : ι) :
    (q, supplyOf draws d q 0) ∈ draws ∨ supplyOf draws d q 0 = d q 0 := by
  induction draws with
  | nil => exact .inr rfl
  | cons p draws ih =>
    show (q, push p.1 p.2 (supplyOf draws d) q 0) ∈ _ ∨ push p.1 p.2 (supplyOf draws d) q 0 = _
    by_cases h : q = p.1
    · subst h
      exact .inl (by simp)
    · have : push p.1 p.2 (supplyOf draws d) q 0 = supplyOf draws d q 0 := by simp [push, h]
      rw [this]
      exact ih.imp_left (List.mem_cons_of_mem _)

end Supply

variable [DecidableEq ι] (sys : System σ κ ι ε ρ γ)

/-- A lone call with these draws turns `c` into `v` and returns `r`. -/
def System.Answers (call : γ) (draws : List (ι × ℕ)) (c : σ) (r : ρ) (v : σ) : Prop :=
  ∀ d, ∃ ms, (sys.body call).run ⟨c, [], supplyOf draws d⟩ = (.returned r, ⟨v, ms, d⟩)

variable (g : Guards σ κ ι ρ) (A : γ → List (ι × ℕ) → σ → ρ → σ → Prop)

/-- Executing the logged calls one after another leads from `c` to `c'`, where each
answers as logged in the sense of `A` and draws numbers not in use. -/
inductive Serial : σ → List (Entry ι ρ γ κ) → σ → Prop
  | nil (c) : Serial c [] c
  | snoc {c c' c'' L e} (prior : Serial c L c') (distinct : e.draws.Nodup)
      (fresh : ∀ d ∈ e.draws, ¬ g.used c' d.1 d.2) (answers : A e.call e.draws c' e.row c'') :
      Serial c (L ++ [e]) c''

omit [DecidableEq ι] in
/-- What every call preserves holds at the end of a serial execution. -/
theorem Serial.preserves {g : Guards σ κ ι ρ} {A : γ → List (ι × ℕ) → σ → ρ → σ → Prop}
    {P : σ → Prop} (hA : ∀ call draws c r v, (∀ d ∈ draws, ¬ g.used c d.1 d.2) →
      A call draws c r v → P c → P v) {c c' : σ} {L : List (Entry ι ρ γ κ)}
    (h : Serial g A c L c') (hc : P c) : P c' := by
  induction h with
  | nil => exact hc
  | snoc prior distinct fresh answers ih => exact hA _ _ _ _ _ fresh answers ih

omit [DecidableEq ι] in
theorem Serial.eq_of_nil {g : Guards σ κ ι ρ} {A : γ → List (ι × ℕ) → σ → ρ → σ → Prop} {c c' : σ}
    (h : Serial g A c [] c') : c' = c := by
  generalize hL : ([] : List (Entry ι ρ γ κ)) = L at h
  cases h with
  | nil => rfl
  | snoc prior distinct fresh answers => simp at hL

omit [DecidableEq ι] in
/-- The last entry of a serial execution. -/
theorem Serial.last {g : Guards σ κ ι ρ} {A : γ → List (ι × ℕ) → σ → ρ → σ → Prop} {c c'' : σ}
    {L : List (Entry ι ρ γ κ)} {e : Entry ι ρ γ κ} (h : Serial g A c (L ++ [e]) c'') :
    ∃ c', Serial g A c L c' ∧ A e.call e.draws c' e.row c'' := by
  generalize hL : L ++ [e] = M at h
  cases h with
  | nil => simp at hL
  | snoc prior distinct fresh answers =>
    obtain ⟨rfl, he⟩ := List.append_inj' hL rfl
    obtain rfl := List.singleton_inj.mp he
    exact ⟨_, prior, answers⟩

variable (B : γ → List (ι × ℕ) → σ → ρ → Prop) (K : σ → Prop)

/-- What the serializability of a system rests on. `A` is how a call answers when
executed alone, `B` is what a call that has given up locks keeps to show for its row,
and `K` holds of every committed state. -/
structure Accountable : Prop where
  secured : ∀ call c, g.valid c →
    g.Secured (fun _ _ => True) (sys.body call) ⟨c, [], [], id, []⟩ fun a _ => a.elim
  answers : ∀ {call draws c r v}, (∀ d ∈ draws, ¬ g.used c d.1 d.2) →
    sys.Answers call draws c r v → A call draws c r v
  settles : ∀ {call draws c r}, (∀ d ∈ draws, ¬ g.used c d.1 d.2) →
    sys.Answers call draws c r c → B call draws c r
  preserves : ∀ {call draws c r v}, K c → (∀ d ∈ draws, ¬ g.used c d.1 d.2) →
    sys.Answers call draws c r v → K v
  outlasts : ∀ {call draws c r locks call' draws' r' v}, K c → g.settled locks r →
    (∀ d ∈ draws', ¬ g.used c d.1 d.2) → sys.Answers call' draws' c r' v →
      (∀ k ∈ locks, g.agree k c v) → B call draws c r → B call draws v r

/-- If the step commits a call that had given up locks, what the call has to show for
its row is enough. -/
def Vouched (w w' : World σ κ ι ε ρ γ) : Prop :=
  ∀ e, w'.log = w.log ++ [e] → e.released ≠ [] → B e.call e.draws w.committed e.row →
    A e.call e.draws w.committed e.row w.committed

/-- The position of a session over a committed state. -/
def Session.position (s : Session σ κ ι ε ρ γ) (c : σ) : Position σ κ ι where
  base := c
  locks := s.locks
  draws := s.draws
  writes := s.writes
  marks := s.marks

/-- The rest of the session is what replaying its call leaves to do. -/
structure Follows (c : σ) (s : Session σ κ ι ε ρ γ) : Prop where
  secured : g.Secured (fun _ _ => True) s.program (s.position c) fun a _ => a.elim
  replay : ∀ c', g.Peer (s.position c) c' → ∀ d,
    (sys.body s.call).run ⟨c', [], supplyOf s.draws d⟩ =
      s.program.run ⟨s.writes c', s.marks.map (·.1 c'), d⟩

/-- The session has rolled back its writes and only returns its row. -/
structure Settled (c : σ) (s : Session σ κ ι ε ρ γ) (r : ρ) : Prop where
  program : s.program = .ret r
  writes : s.writes = id
  settled : g.settled s.locks r
  keeps : B s.call s.draws c r

/-- Entries whose place in the serial order is their commit. -/
def Entry.tracked (q : Bool) (e : Entry ι ρ γ κ) : Bool := q || e.released.isEmpty

/-- What holds in every reachable world. With `q` the calls that gave locks up early
are part of the serial execution as well. -/
structure Invariant (q : Bool) (c₀ : σ) (w : World σ κ ι ε ρ γ) : Prop where
  valid : g.valid w.committed
  kept : K w.committed
  counted : ∀ q n, g.used w.committed q n → n < w.counters q
  serial : Serial g A c₀ (w.log.filter (Entry.tracked q)) w.committed
  distinct : ∀ t s, w.sessions t = some s → s.draws.Nodup
  drawn : ∀ t s, w.sessions t = some s → ∀ d ∈ s.draws,
    d.2 < w.counters d.1 ∧ ¬ g.used w.committed d.1 d.2
  apart : ∀ t u s x, t ≠ u → w.sessions t = some s → w.sessions u = some x →
    ∀ d ∈ s.draws, d ∉ x.draws
  exclusive : ∀ t u s x, t ≠ u → w.sessions t = some s → w.sessions u = some x →
    ∀ k ∈ s.locks, k ∉ x.locks
  stands : ∀ t s, w.sessions t = some s →
    (s.released = [] ∧ Follows sys g w.committed s) ∨
      (s.released ≠ [] ∧ ∃ r, Settled g B w.committed s r)

variable {sys g A B K} {q : Bool} {c₀ : σ} {w w' : World σ κ ι ε ρ γ}

theorem Follows.rebase {c c' : σ} {s : Session σ κ ι ε ρ γ} (h : Follows sys g c s)
    (hc : g.Peer (s.position c) c') : Follows sys g c' s where
  secured := h.secured.rebase hc
  replay c'' hc'' := h.replay c'' (hc.rebase hc'')

theorem Invariant.peer (h : Invariant sys g A B K q c₀ w) {t : ℕ} {s} (hs : w.sessions t = some s) :
    g.Peer (s.position w.committed) w.committed where
  valid := h.valid
  agree k _ := (g.equivalence k).refl _
  fresh d hd := (h.drawn t s hs d hd).2

/-- Replacing one session by what it steps to keeps the invariant. -/
theorem Invariant.set (h : Invariant sys g A B K q c₀ w) {t : ℕ} {s'} (distinct : s'.draws.Nodup)
    (drawn : ∀ d ∈ s'.draws, d.2 < w.counters d.1 ∧ ¬ g.used w.committed d.1 d.2)
    (apart : ∀ u x, u ≠ t → w.sessions u = some x → ∀ d ∈ s'.draws, d ∉ x.draws)
    (exclusive : ∀ u x, u ≠ t → w.sessions u = some x → ∀ k ∈ s'.locks, k ∉ x.locks)
    (stands : (s'.released = [] ∧ Follows sys g w.committed s') ∨
      (s'.released ≠ [] ∧ ∃ r, Settled g B w.committed s' r)) :
    Invariant sys g A B K q c₀ (w.set t (some s')) where
  valid := h.valid
  kept := h.kept
  counted := h.counted
  serial := h.serial
  distinct u x hx := by
    obtain ⟨rfl, hs⟩ | ⟨-, hx⟩ := World.set_sessions_eq_some hx
    · cases hs; exact distinct
    · exact h.distinct u x hx
  drawn u x hx := by
    obtain ⟨rfl, hs⟩ | ⟨-, hx⟩ := World.set_sessions_eq_some hx
    · cases hs; exact drawn
    · exact h.drawn u x hx
  apart u v x y huv hx hy := by
    obtain ⟨rfl, hs⟩ | ⟨hu, hx'⟩ := World.set_sessions_eq_some hx
    · obtain ⟨rfl, -⟩ | ⟨hv, hy'⟩ := World.set_sessions_eq_some hy
      · exact absurd rfl huv
      · cases hs; exact apart v y hv hy'
    · obtain ⟨rfl, hs⟩ | ⟨hv, hy'⟩ := World.set_sessions_eq_some hy
      · cases hs; exact fun d hd hd' => apart u x hu hx' d hd' hd
      · exact h.apart u v x y huv hx' hy'
  exclusive u v x y huv hx hy := by
    obtain ⟨rfl, hs⟩ | ⟨hu, hx'⟩ := World.set_sessions_eq_some hx
    · obtain ⟨rfl, -⟩ | ⟨hv, hy'⟩ := World.set_sessions_eq_some hy
      · exact absurd rfl huv
      · cases hs; exact exclusive v y hv hy'
    · obtain ⟨rfl, hs⟩ | ⟨hv, hy'⟩ := World.set_sessions_eq_some hy
      · cases hs; exact fun d hd hd' => exclusive u x hu hx' d hd' hd
      · exact h.exclusive u v x y huv hx' hy'
  stands u x hx := by
    obtain ⟨rfl, hs⟩ | ⟨-, hx⟩ := World.set_sessions_eq_some hx
    · cases hs; exact stands
    · exact h.stands u x hx

/-- A session that still has statements to run follows its call. -/
theorem Invariant.follows (h : Invariant sys g A B K q c₀ w) {t : ℕ} {s} (hs : w.sessions t = some s)
    (hp : ∀ r, s.program ≠ .ret r) : s.released = [] ∧ Follows sys g w.committed s := by
  rcases h.stands t s hs with hf | ⟨-, r, hr⟩
  · exact hf
  · exact absurd hr.program (hp r)

theorem Invariant.drop (h : Invariant sys g A B K q c₀ w) (t : ℕ) :
    Invariant sys g A B K q c₀ (w.set t none) := by
  have keep : ∀ {u x}, (w.set t none).sessions u = some x → w.sessions u = some x := by
    intro u x hx
    obtain ⟨-, hs⟩ | ⟨-, hx'⟩ := World.set_sessions_eq_some hx
    · cases hs
    · exact hx'
  exact ⟨h.valid, h.kept, h.counted, h.serial, fun u x hx => h.distinct u x (keep hx),
    fun u x hx => h.drawn u x (keep hx),
    fun u v x y huv hx hy => h.apart u v x y huv (keep hx) (keep hy),
    fun u v x y huv hx hy => h.exclusive u v x y huv (keep hx) (keep hy),
    fun u x hx => h.stands u x (keep hx)⟩

theorem Invariant.counters (h : Invariant sys g A B K q c₀ w) {n : ι → ℕ}
    (hn : ∀ q, w.counters q ≤ n q) : Invariant sys g A B K q c₀ { w with counters := n } where
  valid := h.valid
  kept := h.kept
  counted q m hm := Nat.lt_of_lt_of_le (h.counted q m hm) (hn q)
  serial := h.serial
  distinct := h.distinct
  drawn t s hs d hd := ⟨Nat.lt_of_lt_of_le (h.drawn t s hs d hd).1 (hn _), (h.drawn t s hs d hd).2⟩
  apart := h.apart
  exclusive := h.exclusive
  stands := h.stands

/-- A session that steps without touching locks, draws or the committed state. -/
theorem Invariant.continue (h : Invariant sys g A B K q c₀ w) {t : ℕ} {s s'}
    (hs : w.sessions t = some s) (hd : s'.draws = s.draws) (hl : s'.locks = s.locks)
    (hr : s'.released = []) (hf : Follows sys g w.committed s') :
    Invariant sys g A B K q c₀ (w.set t (some s')) :=
  h.set (hd ▸ h.distinct t s hs) (hd ▸ h.drawn t s hs)
    (fun u x hu hx => hd ▸ h.apart t u s x hu.symm hs hx)
    (fun u x hu hx => hl ▸ h.exclusive t u s x hu.symm hs hx) (.inl ⟨hr, hf⟩)

theorem Invariant.commit (h : Invariant sys g A B K q c₀ w) {t : ℕ} {s} (hs : w.sessions t = some s)
    {v : σ} {L : List (Entry ι ρ γ κ)} (kept : g.Kept s.locks s.draws w.committed v)
    (hK : K v) (hL : Serial g A c₀ (L.filter (Entry.tracked q)) v)
    (settled : ∀ u x r, u ≠ t → w.sessions u = some x → Settled g B w.committed x r →
      Settled g B v x r) :
    Invariant sys g A B K q c₀ { w.set t none with committed := v, log := L } := by
  have keep : ∀ {u x}, (w.set t none).sessions u = some x →
      u ≠ t ∧ w.sessions u = some x := by
    intro u x hx
    obtain ⟨-, hs⟩ | h := World.set_sessions_eq_some hx
    · cases hs
    · exact h
  have fresh : ∀ {u x}, u ≠ t → w.sessions u = some x → ∀ d ∈ x.draws, ¬ g.used v d.1 d.2 := by
    intro u x hu hx d hd hv
    rcases kept.used _ _ hv with hc | hc
    · exact (h.drawn u x hx d hd).2 hc
    · exact h.apart t u s x hu.symm hs hx _ hc hd
  refine ⟨kept.valid, hK, fun p n hn => ?_, hL, fun u x hx => h.distinct u x (keep hx).2,
    fun u x hx d hd => ?_,
    fun u v x y huv hx hy => h.apart u v x y huv (keep hx).2 (keep hy).2,
    fun u v x y huv hx hy => h.exclusive u v x y huv (keep hx).2 (keep hy).2, fun u x hx => ?_⟩
  · rcases kept.used p n hn with hc | hc
    · exact h.counted p n hc
    · exact (h.drawn t s hs _ hc).1
  · exact ⟨(h.drawn u x (keep hx).2 d hd).1, fresh (keep hx).1 (keep hx).2 d hd⟩
  · obtain ⟨hu, hx⟩ := keep hx
    rcases h.stands u x hx with ⟨hr, hf⟩ | ⟨hr, r, hq⟩
    · refine .inl ⟨hr, hf.rebase ⟨kept.valid, fun k hk => kept.agree k fun hk' => ?_, fresh hu hx⟩⟩
      exact h.exclusive t u s x hu.symm hs hx k hk' hk
    · exact .inr ⟨hr, r, settled u x r hu hx hq⟩

theorem Invariant.initial {n : ι → ℕ} (hv : g.valid c₀) (hK : K c₀)
    (hn : ∀ p m, g.used c₀ p m → m < n p) :
    Invariant sys g A B K q c₀ (World.initial c₀ n) where
  valid := hv
  kept := hK
  counted := hn
  serial := .nil c₀
  distinct := by simp [World.initial]
  drawn := by simp [World.initial]
  apart := by simp [World.initial]
  exclusive := by simp [World.initial]
  stands := by simp [World.initial]

theorem Invariant.serial_log (h : Invariant sys g A B K true c₀ w) : Serial g A c₀
    w.log w.committed := by
  have hall : w.log.filter (Entry.tracked true) = w.log :=
    List.filter_eq_self.mpr fun e _ => by simp [Entry.tracked]
  exact hall ▸ h.serial

variable [DecidableEq κ]

/-- What one step preserves. -/
theorem Invariant.step (hsys : Accountable sys g A B K) (h : Invariant sys g A B K q c₀ w) (hw : Step sys w w')
    (hq : q = true → Vouched A B w w') : Invariant sys g A B K q c₀ w' := by
  cases hw with
  | begin t call ht =>
    exact h.set (by simp) (by simp) (by simp) (by simp)
      (.inl ⟨rfl, hsys.secured call _ h.valid, fun c' _ d => rfl⟩)
  | lock t s hs key next hp hf =>
    obtain ⟨hr, hsc, hre⟩ := h.follows hs (by simp [hp])
    rw [hp] at hsc
    refine h.set (h.distinct t s hs) (h.drawn t s hs) (fun u x hu hx => h.apart t u s x hu.symm hs hx)
      (fun u x hu hx k hk => ?_) (.inl ⟨hr, hsc _ (h.peer hs), fun c' hc' d => ?_⟩)
    · rcases List.mem_cons.mp hk with rfl | hk
      · exact hf u x hu hx
      · exact h.exclusive t u s x hu.symm hs hx k hk
    · rw [hre c' ⟨hc'.valid, fun k hk => hc'.agree k (List.mem_cons_of_mem _ hk), hc'.fresh⟩, hp]
      rfl
  | nextval t s hs p next hp =>
    obtain ⟨hr, hsc, hre⟩ := h.follows hs (by simp [hp])
    rw [hp] at hsc
    have hn : ¬ g.used w.committed p (w.counters p) := fun hu => Nat.lt_irrefl _ (h.counted p _ hu)
    have hle : ∀ r, w.counters r ≤ Function.update w.counters p (w.counters p + 1) r := by
      intro r; by_cases hr : r = p
      · subst hr; simp
      · simp [hr]
    have hd : (p, w.counters p) ∉ s.draws := fun hm => Nat.lt_irrefl _ (h.drawn t s hs _ hm).1
    refine (h.counters hle).set (List.nodup_append.mpr ⟨h.distinct t s hs,
        by simp, fun a ha b hb hab => hd (by simp_all)⟩) (fun d hd => ?_)
      (fun u x hu hx d hd => ?_) (fun u x hu hx => h.exclusive t u s x hu.symm hs hx)
      (.inl ⟨hr, hsc _ (h.peer hs) _ hn hd, fun c' hc' d => ?_⟩)
    · rcases List.mem_append.mp hd with hd | hd
      · exact ⟨Nat.lt_of_lt_of_le (h.drawn t s hs d hd).1 (hle _), (h.drawn t s hs d hd).2⟩
      · obtain rfl := List.mem_singleton.mp hd
        exact ⟨by simp, hn⟩
    · rcases List.mem_append.mp hd with hd | hd
      · exact h.apart t u s x hu.symm hs hx d hd
      · obtain rfl := List.mem_singleton.mp hd
        exact fun hx' => Nat.lt_irrefl _ (h.drawn u x hx _ hx').1
    · have hc : g.Peer (s.position w.committed) c' :=
        ⟨hc'.valid, hc'.agree, fun d hd => hc'.fresh d (List.mem_append_left _ hd)⟩
      simp only [supplyOf_append]
      rw [hre c' hc, hp]
      simp [run]
  | statement t s hs write next hp =>
    obtain ⟨hr, hsc, hre⟩ := h.follows hs (by simp [hp])
    rw [hp] at hsc
    refine h.continue hs rfl rfl hr ⟨hsc.2, fun c' hc' d => ?_⟩
    obtain ⟨h₁, h₂⟩ := hsc.1 c' ⟨hc'.valid, hc'.agree, hc'.fresh⟩
    change write (s.writes c') = write (s.writes w.committed) at h₁
    change next (s.writes c') = next (s.writes w.committed) at h₂
    rw [hre c' ⟨hc'.valid, hc'.agree, hc'.fresh⟩, hp]
    simp [run, h₁, h₂]
  | savepoint t s hs next hp =>
    obtain ⟨hr, hsc, hre⟩ := h.follows hs (by simp [hp])
    rw [hp] at hsc
    refine h.continue hs rfl rfl hr ⟨hsc, fun c' hc' d => ?_⟩
    rw [hre c' ⟨hc'.valid, hc'.agree, hc'.fresh⟩, hp]
    simp [run]
  | rollback t s hs next mark marks hp hm =>
    obtain ⟨hr, hsc, hre⟩ := h.follows hs (by simp [hp])
    rw [hp] at hsc
    obtain ⟨r, locks, ms, rfl, hms, hlocks, hset⟩ := hsc
    obtain ⟨rfl, rfl⟩ : mark = (id, locks) ∧ marks = ms := by simpa using hm.symm.trans hms
    have hrun : ∀ c', g.Peer (s.position w.committed) c' → ∀ d,
        (sys.body s.call).run ⟨c', [], supplyOf s.draws d⟩ =
          (.returned r, ⟨c', marks.map (·.1 c'), d⟩) := by
      intro c' hc' d
      rw [hre c' hc', hp, hm]
      simp [run]
    refine h.set (h.distinct t s hs) (h.drawn t s hs) (fun u x hu hx => h.apart t u s x hu.symm hs hx)
      (fun u x hu hx k hk => h.exclusive t u s x hu.symm hs hx k (hlocks hk)) ?_
    by_cases hl : s.locks.filter (· ∉ locks) = []
    · refine .inl ⟨by simpa [hr] using hl, fun c' hc' => .refl g hc'.valid, fun c' hc' d => ?_⟩
      have hin : ∀ k ∈ s.locks, k ∈ locks := by simpa [List.filter_eq_nil_iff] using hl
      exact hrun c' ⟨hc'.valid, fun k hk => hc'.agree k (hin k hk), hc'.fresh⟩ d
    · exact .inr ⟨fun h => hl (List.append_eq_nil_iff.mp h).1, r, rfl, rfl, hset,
        hsys.settles (fun d hd => (h.drawn t s hs d hd).2) fun d => ⟨_, hrun _ (h.peer hs) d⟩⟩
  | commit t s hs r hp =>
    rcases h.stands t s hs with ⟨hr, hf⟩ | ⟨hr, r', hset⟩
    · have hans : sys.Answers s.call s.draws w.committed r (s.writes w.committed) := fun d =>
        ⟨s.marks.map (·.1 w.committed), by rw [hf.replay _ (h.peer hs) d, hp]; rfl⟩
      have hfresh : ∀ d ∈ s.draws, ¬ g.used w.committed d.1 d.2 :=
        fun d hd => (h.drawn t s hs d hd).2
      have hkept : g.Kept s.locks s.draws w.committed (s.writes w.committed) :=
        (hp ▸ hf.secured : g.Secured _ (.ret r) _ _) _ (h.peer hs)
      refine h.commit hs hkept (hsys.preserves h.kept hfresh hans) ?_ fun u x r' hu hx hset =>
        ⟨hset.program, hset.writes, hset.settled,
          hsys.outlasts h.kept hset.settled hfresh hans (fun k hk => hkept.agree k fun hk' => ?_)
            hset.keeps⟩
      · simpa [Entry.tracked, hr] using h.serial.snoc (e := ⟨s.call, s.draws, r, []⟩)
          (h.distinct t s hs) hfresh (hsys.answers hfresh hans)
      · exact h.exclusive t u s x hu.symm hs hx k hk' hk
    · obtain rfl : r = r' := by simpa using hp.symm.trans hset.program
      have hw : s.writes w.committed = w.committed := by rw [hset.writes]; rfl
      rw [hw]
      refine h.commit hs (.refl g h.valid) h.kept ?_ fun u x r' _ _ hset => hset
      cases q with
      | false => simpa [Entry.tracked, hr] using h.serial
      | true =>
        simpa [Entry.tracked] using
          h.serial.snoc (e := ⟨s.call, s.draws, r, s.released⟩)
            (h.distinct t s hs) (fun d hd => (h.drawn t s hs d hd).2)
            (hq rfl _ rfl hr hset.keeps)
  | abort t s hs => exact h.drop t

omit [DecidableEq κ] in
/-- A step changes the committed state by the answer of a call it logs, or not at all. -/
theorem Invariant.answers [DecidableEq κ] (h : Invariant sys g A B K q c₀ w) (hw : Step sys w w') :
    w'.committed = w.committed ∨ ∃ e, w'.log = w.log ++ [e] ∧
      (∀ d ∈ e.draws, ¬ g.used w.committed d.1 d.2) ∧
        sys.Answers e.call e.draws w.committed e.row w'.committed := by
  cases hw with
  | commit t s hs r hp =>
    rcases h.stands t s hs with ⟨-, hf⟩ | ⟨-, r', hset⟩
    · refine .inr ⟨_, rfl, fun d hd => (h.drawn t s hs d hd).2, fun d => ?_⟩
      exact ⟨s.marks.map (·.1 w.committed), by rw [hf.replay _ (h.peer hs) d, hp]; rfl⟩
    · left
      show s.writes w.committed = w.committed
      rw [hset.writes]
      rfl
  | _ => exact .inl rfl

omit [DecidableEq κ] in
/-- A session that returns a row has the answer of its call on the committed state, or it has
rolled back. -/
theorem Invariant.returns (h : Invariant sys g A B K q c₀ w) {t : ℕ} {s} {r : ρ}
    (hs : w.sessions t = some s) (hp : s.program = .ret r) :
    ((∀ d ∈ s.draws, ¬ g.used w.committed d.1 d.2) ∧
      sys.Answers s.call s.draws w.committed r (s.writes w.committed)) ∨ g.settled s.locks r := by
  rcases h.stands t s hs with ⟨-, hf⟩ | ⟨-, r', hset⟩
  · refine .inl ⟨fun d hd => (h.drawn t s hs d hd).2, fun d => ?_⟩
    exact ⟨s.marks.map (·.1 w.committed), by rw [hf.replay _ (h.peer hs) d, hp]; rfl⟩
  · right
    rw [hset.program] at hp
    cases hp
    exact hset.settled

omit [DecidableEq κ] in
/-- A session that has raised an error has raised that of its call on the committed state. -/
theorem Invariant.raises (h : Invariant sys g A B K q c₀ w) {t : ℕ} {s} {e : ε}
    (hs : w.sessions t = some s) (hp : s.program = .raise e) (d : ι → ℕ → ℕ) :
    (∀ d ∈ s.draws, ¬ g.used w.committed d.1 d.2) ∧
      ∃ m, (sys.body s.call).run ⟨w.committed, [], supplyOf s.draws d⟩ = (.raised e, m) := by
  obtain ⟨-, hf⟩ := h.follows hs (by simp [hp])
  exact ⟨fun d hd => (h.drawn t s hs d hd).2, _, by rw [hf.replay _ (h.peer hs) d, hp]; rfl⟩

variable {n : ι → ℕ}

/-- Whatever the interleaving, the committed state is that of the logged calls that
kept their locks, executed one after another in commit order. -/
theorem Reaches.serial (hsys : Accountable sys g A B K) (hv : g.valid c₀) (hK : K c₀)
    (hn : ∀ p m, g.used c₀ p m → m < n p) (hw : Reaches sys (World.initial c₀ n) w) :
    Invariant sys g A B K false c₀ w := by
  induction hw with
  | refl => exact .initial hv hK hn
  | tail _ hstep ih => exact ih.step hsys hstep (by simp)

/-- Where every call that gave locks up is vouched for when it commits, the whole log is
a serial execution in commit order. -/
theorem Reaches.serial_vouched (hsys : Accountable sys g A B K) (hv : g.valid c₀) (hK : K c₀)
    (hn : ∀ p m, g.used c₀ p m → m < n p)
    (hw : Relation.ReflTransGen (fun w w' => Step sys w w' ∧ Vouched A B w w')
      (World.initial c₀ n) w) : Invariant sys g A B K true c₀ w := by
  induction hw with
  | refl => exact .initial hv hK hn
  | tail _ hstep ih => exact ih.step hsys hstep.1 fun _ => hstep.2

end CafeFausse.Transaction
