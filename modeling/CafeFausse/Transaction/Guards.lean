import CafeFausse.Transaction.Interleaving

/-! # Routines secured by their locks

Each lock key guards a part of the state. A routine is secured when every
statement reads only parts whose locks it holds and its writes stay inside them.
Other sessions then cannot change what it does, however they interleave. The rules
below establish this statement by statement.
-/

namespace CafeFausse.Transaction

open Program

variable {σ κ ι ε ρ α β : Type}

/-- What the lock keys guard: agreement of two states on the part under a key, the
states the table constraints allow, and the sequence numbers a state contains. With the
locks that a rollback leaves it, a call returns only a row that is `settled`. -/
structure Guards (σ κ ι ρ : Type) where
  agree : κ → σ → σ → Prop
  valid : σ → Prop
  used : σ → ι → ℕ → Prop
  settled : List κ → ρ → Prop
  equivalence : ∀ k, Equivalence (agree k)

/-- Where an open session stands, relative to a committed state. -/
structure Position (σ κ ι : Type) where
  base : σ
  locks : List κ := []
  draws : List (ι × ℕ) := []
  writes : σ → σ := id
  marks : List ((σ → σ) × List κ) := []

/-- What the session sees. -/
def Position.view (x : Position σ κ ι) : σ := x.writes x.base

namespace Guards

variable (g : Guards σ κ ι ρ)

/-- The committed states that other sessions may bring about meanwhile. -/
structure Peer (x : Position σ κ ι) (c : σ) : Prop where
  valid : g.valid c
  agree : ∀ k ∈ x.locks, g.agree k x.base c
  fresh : ∀ d ∈ x.draws, ¬ g.used c d.1 d.2

/-- A commit of `v` over `c` stays within the locks held and the numbers drawn. -/
structure Kept (locks : List κ) (draws : List (ι × ℕ)) (c v : σ) : Prop where
  valid : g.valid v
  agree : ∀ k, k ∉ locks → g.agree k c v
  used : ∀ q n, g.used v q n → g.used c q n ∨ (q, n) ∈ draws

variable {g} in
theorem Peer.rebase {x : Position σ κ ι} {c c' : σ} (h : g.Peer x c)
    (h' : g.Peer { x with base := c } c') : g.Peer x c' :=
  ⟨h'.valid, fun k hk => (g.equivalence k).trans (h.agree k hk) (h'.agree k hk), h'.fresh⟩

theorem Kept.refl {locks : List κ} {draws : List (ι × ℕ)} {c : σ} (h : g.valid c) :
    g.Kept locks draws c c :=
  ⟨h, fun k _ => (g.equivalence k).refl c, fun _ _ => .inl⟩

/-- Every read of the routine is decided by what its locks guard, and what it
commits stays under them. `Q` holds where the routine falls through, `E` where it
raises. -/
def Secured (E : ε → Position σ κ ι → Prop) :
    Program σ κ ι ε ρ α → Position σ κ ι → (α → Position σ κ ι → Prop) → Prop
  | .pure a, x, Q => Q a x
  | .ret _, x, _ => ∀ c, g.Peer x c → g.Kept x.locks x.draws c (x.writes c)
  | .raise e, x, _ => E e x
  | .lock key next, x, Q => ∀ c, g.Peer x c →
      Secured E next { x with base := c, locks := key :: x.locks } Q
  | .nextval q next, x, Q => ∀ c, g.Peer x c → ∀ n, ¬ g.used c q n → (q, n) ∉ x.draws →
      Secured E (next n) { x with base := c, draws := x.draws ++ [(q, n)] } Q
  | .statement write next, x, Q =>
      (∀ c, g.Peer x c → write (x.writes c) = write x.view ∧ next (x.writes c) = next x.view) ∧
      Secured E (next x.view) { x with writes := write x.view ∘ x.writes } Q
  | .savepoint next, x, Q => Secured E next { x with marks := (x.writes, x.locks) :: x.marks } Q
  | .rollback next, x, _ => ∃ r K ms, next = .ret r ∧ x.marks = (id, K) :: ms ∧
      K ⊆ x.locks ∧ g.settled K r

section Rules

variable {g} {E : ε → Position σ κ ι → Prop} {x : Position σ κ ι}

theorem secured_bind {p : Program σ κ ι ε ρ α} {f : α → Program σ κ ι ε ρ β}
    {Q : β → Position σ κ ι → Prop} :
    g.Secured E p x (fun a y => g.Secured E (f a) y Q) → g.Secured E (p.bind f) x Q := by
  induction p generalizing x with
  | pure a => exact id
  | ret r => exact id
  | raise e => exact id
  | lock key next ih => exact fun h c hc => ih (h c hc)
  | nextval q next ih => exact fun h c hc n hn hd => ih n (h c hc n hn hd)
  | statement write next ih =>
    rintro ⟨h, h'⟩
    exact ⟨fun c hc => ⟨(h c hc).1, congrArg (·.bind f) (h c hc).2⟩, ih _ h'⟩
  | savepoint next ih => exact fun h => ih h
  | rollback next _ =>
    rintro ⟨r, K, ms, rfl, h⟩
    exact ⟨r, K, ms, rfl, h⟩

theorem secured_mono {p : Program σ κ ι ε ρ α} {Q Q' : α → Position σ κ ι → Prop}
    (hQ : ∀ a y, Q a y → Q' a y) (h : g.Secured E p x Q) : g.Secured E p x Q' := by
  induction p generalizing x with
  | pure a => exact hQ a x h
  | ret r => exact h
  | raise e => exact h
  | lock key next ih => exact fun c hc => ih (h c hc)
  | nextval q next ih => exact fun c hc n hn hd => ih n (h c hc n hn hd)
  | statement write next ih => exact ⟨h.1, ih _ h.2⟩
  | savepoint next ih => exact ih h
  | rollback next _ => exact h

/-- A handler that gives its row right after the rollback. -/
theorem secured_handle {p : Program σ κ ι ε ρ α} {h : ε → Option (Program σ κ ι ε ρ α)}
    {E' : ε → Position σ κ ι → Prop} {Q : α → Position σ κ ι → Prop}
    (hE : ∀ e y, E e y → match h e with
      | some q => g.Secured E' (.rollback q) y Q
      | none => E' e y)
    (hp : g.Secured E p x Q) : g.Secured E' (p.handle h) x Q := by
  induction p generalizing x with
  | pure a => exact hp
  | ret r => exact hp
  | raise e =>
    have := hE e x hp
    unfold handle
    split <;> simp_all [Secured]
  | lock key next ih => exact fun c hc => ih (hp c hc)
  | nextval q next ih => exact fun c hc n hn hd => ih n (hp c hc n hn hd)
  | statement write next ih =>
    exact ⟨fun c hc => ⟨(hp.1 c hc).1, congrArg (·.handle h) (hp.1 c hc).2⟩, ih _ hp.2⟩
  | savepoint next ih => exact ih hp
  | rollback next _ =>
    obtain ⟨r, K, ms, rfl, h⟩ := hp
    exact ⟨r, K, ms, rfl, h⟩

/-- A secured routine stays secured when other sessions commit. -/
theorem Secured.rebase {p : Program σ κ ι ε ρ Empty} {Q : Empty → Position σ κ ι → Prop}
    (h : g.Secured (fun _ _ => True) p x Q) {c : σ} (hc : g.Peer x c) :
    g.Secured (fun _ _ => True) p { x with base := c } Q := by
  induction p generalizing x c with
  | pure a => exact a.elim
  | ret r => exact fun c' hc' => h c' (hc.rebase hc')
  | raise e => trivial
  | lock key next ih => exact fun c' hc' => h c' (hc.rebase hc')
  | nextval q next ih => exact fun c' hc' => h c' (hc.rebase hc')
  | statement write next ih =>
    obtain ⟨hr, hs⟩ := h
    have hv := hr c hc
    refine ⟨fun c' hc' => ?_, ?_⟩
    · have hv' := hr c' (hc.rebase hc')
      exact ⟨hv'.1.trans hv.1.symm, hv'.2.trans hv.2.symm⟩
    · show g.Secured _ (next (x.writes c)) _ Q
      rw [hv.2]
      have := ih _ hs (c := c) ⟨hc.valid, hc.agree, hc.fresh⟩
      simpa [Position.view, hv.1] using this
  | savepoint next ih => exact ih h ⟨hc.valid, hc.agree, hc.fresh⟩
  | rollback next _ => exact h

end Rules

/-- The session's writes stay under its locks whatever the others commit, its open
savepoints are `marks`, and the numbers in `pending` are drawn but not written. -/
structure Confined (marks : List ((σ → σ) × List κ)) (pending : List (ι × ℕ))
    (x : Position σ κ ι) : Prop where
  peer : g.Peer x x.base
  drawn : pending ⊆ x.draws
  valid : ∀ c, g.Peer x c → g.valid (x.writes c)
  outside : ∀ c, g.Peer x c → ∀ k, k ∉ x.locks → g.agree k c (x.writes c)
  inside : ∀ c, g.Peer x c → ∀ k ∈ x.locks, g.agree k x.view (x.writes c)
  used : ∀ c, g.Peer x c → ∀ q n, g.used (x.writes c) q n →
    g.used c q n ∨ (q, n) ∈ x.draws ∧ (q, n) ∉ pending
  marks_eq : x.marks = marks
  marks_locks : ∀ m ∈ marks, m.2 ⊆ x.locks

/-- Two views a session cannot tell apart while it holds its locks. -/
structure Alike (locks : List κ) (pending : List (ι × ℕ)) (v v' : σ) : Prop where
  valid : g.valid v'
  agree : ∀ k ∈ locks, g.agree k v v'
  fresh : ∀ d ∈ pending, ¬ g.used v' d.1 d.2

/-- A write that stays under the locks and uses up `pending` down to `pending'`. -/
structure Within (locks : List κ) (pending pending' : List (ι × ℕ)) (v : σ) (write : σ → σ) :
    Prop where
  valid : ∀ v', g.Alike locks pending v v' → g.valid (write v')
  outside : ∀ v', g.Alike locks pending v v' → ∀ k, k ∉ locks → g.agree k v' (write v')
  inside : ∀ v', g.Alike locks pending v v' → ∀ k ∈ locks, g.agree k (write v) (write v')
  used : ∀ v', g.Alike locks pending v v' → ∀ q n, g.used (write v') q n →
    g.used v' q n ∨ (q, n) ∈ pending ∧ (q, n) ∉ pending'

section Confined

variable {g} {E : ε → Position σ κ ι → Prop} {x : Position σ κ ι}
  {marks : List ((σ → σ) × List κ)} {pending pending' : List (ι × ℕ)}

theorem Confined.initial {c : σ} (h : g.valid c) : g.Confined [] [] ⟨c, [], [], id, []⟩ where
  peer := ⟨h, by simp, by simp⟩
  drawn := by simp
  valid _ hc := hc.valid
  outside c _ k _ := (g.equivalence k).refl c
  inside := by simp
  used _ _ _ _ := .inl
  marks_eq := rfl
  marks_locks := by simp

theorem Confined.alike (h : g.Confined marks pending x) {c : σ} (hc : g.Peer x c) :
    g.Alike x.locks pending x.view (x.writes c) where
  valid := h.valid c hc
  agree := h.inside c hc
  fresh d hd hu := (h.used c hc d.1 d.2 hu).elim (hc.fresh d (h.drawn hd)) fun hp => hp.2 hd

theorem Confined.view_valid (h : g.Confined marks pending x) : g.valid x.view :=
  h.valid _ h.peer

theorem Confined.view_fresh (h : g.Confined marks pending x) {d : ι × ℕ} (hd : d ∈ pending) :
    ¬ g.used x.view d.1 d.2 := (h.alike h.peer).fresh d hd

theorem Confined.rebase (h : g.Confined marks pending x) {c : σ} (hc : g.Peer x c) :
    g.Confined marks pending { x with base := c } where
  peer := ⟨hc.valid, fun k _ => (g.equivalence k).refl c, hc.fresh⟩
  drawn := h.drawn
  valid c' hc' := h.valid c' (hc.rebase hc')
  outside c' hc' := h.outside c' (hc.rebase hc')
  inside c' hc' k hk := (g.equivalence k).trans ((g.equivalence k).symm (h.inside c hc k hk))
    (h.inside c' (hc.rebase hc') k hk)
  used c' hc' := h.used c' (hc.rebase hc')
  marks_eq := h.marks_eq
  marks_locks := h.marks_locks

theorem Confined.lock (h : g.Confined marks pending x) {c : σ} (hc : g.Peer x c) (key : κ) :
    g.Confined marks pending { x with base := c, locks := key :: x.locks } := by
  have peer : ∀ {c'}, g.Peer { x with base := c, locks := key :: x.locks } c' → g.Peer x c' :=
    fun hc' => hc.rebase
      ⟨hc'.valid, fun k hk => hc'.agree k (List.mem_cons_of_mem _ hk), hc'.fresh⟩
  refine ⟨⟨hc.valid, fun k _ => (g.equivalence k).refl c, hc.fresh⟩, h.drawn,
    fun c' hc' => h.valid c' (peer hc'), fun c' hc' k hk => h.outside c' (peer hc') k fun hk' =>
      hk (List.mem_cons_of_mem _ hk'), fun c' hc' k hk => ?_, fun c' hc' => h.used c' (peer hc'),
    h.marks_eq, fun m hm => List.subset_cons_of_subset _ (h.marks_locks m hm)⟩
  by_cases hk' : k ∈ x.locks
  · exact (h.rebase hc).inside c'
      ⟨hc'.valid, fun k hk => hc'.agree k (List.mem_cons_of_mem _ hk), hc'.fresh⟩ k hk'
  · exact (g.equivalence k).trans ((g.equivalence k).symm (h.outside c hc k hk'))
      ((g.equivalence k).trans (hc'.agree k hk) (h.outside c' (peer hc') k hk'))

theorem Confined.nextval (h : g.Confined marks pending x) {c : σ} (hc : g.Peer x c) {q : ι}
    {n : ℕ} (hn : ¬ g.used c q n) (hd : (q, n) ∉ x.draws) :
    g.Confined marks ((q, n) :: pending)
      { x with base := c, draws := x.draws ++ [(q, n)] } := by
  have peer : ∀ {c'}, g.Peer { x with base := c, draws := x.draws ++ [(q, n)] } c' →
      g.Peer { x with base := c } c' :=
    fun hc' => ⟨hc'.valid, hc'.agree, fun d hd => hc'.fresh d (List.mem_append_left _ hd)⟩
  have hb := h.rebase hc
  refine ⟨⟨hc.valid, hb.peer.agree, fun d hd => ?_⟩, fun d hd => ?_,
    fun c' hc' => hb.valid c' (peer hc'), fun c' hc' => hb.outside c' (peer hc'),
    fun c' hc' => hb.inside c' (peer hc'), fun c' hc' r m hu => ?_, h.marks_eq, h.marks_locks⟩
  · rcases List.mem_append.mp hd with hd | hd
    · exact hc.fresh d hd
    · obtain rfl := List.mem_singleton.mp hd; exact hn
  · rcases List.mem_cons.mp hd with rfl | hd
    · exact List.mem_append_right _ (List.mem_singleton_self _)
    · exact List.mem_append_left _ (h.drawn hd)
  · refine (hb.used c' (peer hc') r m hu).imp_right fun ⟨hr, hp⟩ => ?_
    refine ⟨List.mem_append_left _ hr, fun hm => ?_⟩
    rcases List.mem_cons.mp hm with heq | hm
    · exact hd (heq ▸ hr)
    · exact hp hm

theorem Confined.write (h : g.Confined marks pending x) {write : σ → σ}
    (hw : g.Within x.locks pending pending' x.view write) (hp : pending' ⊆ pending) :
    g.Confined marks pending' { x with writes := write ∘ x.writes } where
  peer := ⟨h.peer.valid, h.peer.agree, h.peer.fresh⟩
  drawn := List.Subset.trans hp h.drawn
  valid c hc := hw.valid _ (h.alike ⟨hc.valid, hc.agree, hc.fresh⟩)
  outside c hc k hk := (g.equivalence k).trans (h.outside c ⟨hc.valid, hc.agree, hc.fresh⟩ k hk)
    (hw.outside _ (h.alike ⟨hc.valid, hc.agree, hc.fresh⟩) k hk)
  inside c hc := hw.inside _ (h.alike ⟨hc.valid, hc.agree, hc.fresh⟩)
  used c hc q n hu := by
    have hc' : g.Peer x c := ⟨hc.valid, hc.agree, hc.fresh⟩
    rcases hw.used _ (h.alike hc') q n hu with hu | ⟨hq, hq'⟩
    · exact (h.used c hc' q n hu).imp_right fun hr => ⟨hr.1, fun hm => hr.2 (hp hm)⟩
    · exact .inr ⟨h.drawn hq, hq'⟩
  marks_eq := h.marks_eq
  marks_locks := h.marks_locks

theorem Confined.savepoint (h : g.Confined [] pending x) (hw : x.writes = id) :
    g.Confined [(id, x.locks)] pending { x with marks := (x.writes, x.locks) :: x.marks } where
  peer := ⟨h.peer.valid, h.peer.agree, h.peer.fresh⟩
  drawn := h.drawn
  valid c hc := h.valid c ⟨hc.valid, hc.agree, hc.fresh⟩
  outside c hc := h.outside c ⟨hc.valid, hc.agree, hc.fresh⟩
  inside c hc := h.inside c ⟨hc.valid, hc.agree, hc.fresh⟩
  used c hc := h.used c ⟨hc.valid, hc.agree, hc.fresh⟩
  marks_eq := by simp [h.marks_eq, hw]
  marks_locks := by simp

theorem Within.id {v : σ} : g.Within x.locks pending pending v id where
  valid _ h := h.valid
  outside v' _ k _ := (g.equivalence k).refl v'
  inside _ h := h.agree
  used _ _ _ _ := .inl

variable {Q : α → Position σ κ ι → Prop}

theorem secured_ret (h : g.Confined marks pending x) (r : ρ) :
    g.Secured E (.ret r : Program σ κ ι ε ρ α) x Q := fun c hc =>
  ⟨h.valid c hc, h.outside c hc, fun q n hu => (h.used c hc q n hu).imp_right And.left⟩

theorem secured_acquire (h : g.Confined marks pending x) {key : κ}
    {Q : Unit → Position σ κ ι → Prop}
    (hQ : ∀ c, g.Peer x c → g.Confined marks pending { x with base := c, locks := key :: x.locks } →
      Q () { x with base := c, locks := key :: x.locks }) :
    g.Secured E (acquire key : Program σ κ ι ε ρ Unit) x Q :=
  fun c hc => hQ c hc (h.lock hc key)

theorem secured_query (h : g.Confined marks pending x) {q : σ → α}
    (hq : ∀ v', g.Alike x.locks pending x.view v' → q v' = q x.view) (hQ : Q (q x.view) x) :
    g.Secured E (query q : Program σ κ ι ε ρ α) x Q :=
  ⟨fun _ hc => ⟨rfl, congrArg Program.pure (hq _ (h.alike hc))⟩, hQ⟩

theorem secured_draw (h : g.Confined marks pending x) {q : ι} {Q : ℕ → Position σ κ ι → Prop}
    (hQ : ∀ c n, g.Peer x c → ¬ g.used c q n →
      g.Confined marks ((q, n) :: pending) { x with base := c, draws := x.draws ++ [(q, n)] } →
      Q n { x with base := c, draws := x.draws ++ [(q, n)] }) :
    g.Secured E (draw q : Program σ κ ι ε ρ ℕ) x Q :=
  fun c hc n hn hd => hQ c n hc hn (h.nextval hc hn hd)

/-- A data change whose verdict rests on what the locks guard. -/
structure Decided (locks : List κ) (pending pending' : List (ι × ℕ)) (v : σ)
    (f : σ → Except ε (α × (σ → σ))) : Prop where
  same : ∀ v', g.Alike locks pending v v' → f v' = f v
  within : ∀ a w, f v = .ok (a, w) → g.Within locks pending pending' v w
  spent : pending' ⊆ pending

theorem secured_execute (h : g.Confined marks pending x) {f : σ → Except ε (α × (σ → σ))}
    (hf : g.Decided x.locks pending pending' x.view f)
    (hE : ∀ e, f x.view = .error e → E e x)
    (hQ : ∀ a w, f x.view = .ok (a, w) → g.Confined marks pending' { x with writes := w ∘ x.writes } →
      Q a { x with writes := w ∘ x.writes }) :
    g.Secured E (execute f : Program σ κ ι ε ρ α) x Q := by
  refine ⟨fun c hc => by simp only [hf.same _ (h.alike hc), and_self], ?_⟩
  cases hv : f x.view with
  | error e => simp only [hv]; exact hE e hv
  | ok r => simp only [hv]; exact hQ r.1 r.2 hv (h.write (hf.within _ _ hv) hf.spent)

theorem secured_attempt (h : g.Confined marks pending x) {f : σ → Except ε (α × (σ → σ))}
    (hf : g.Decided x.locks pending pending' x.view f)
    {Q : Except ε α → Position σ κ ι → Prop}
    (hE : ∀ e, f x.view = .error e → Q (.error e) x)
    (hQ : ∀ a w, f x.view = .ok (a, w) → g.Confined marks pending' { x with writes := w ∘ x.writes } →
      Q (.ok a) { x with writes := w ∘ x.writes }) :
    g.Secured E (attempt f : Program σ κ ι ε ρ (Except ε α)) x Q := by
  refine ⟨fun c hc => by simp only [hf.same _ (h.alike hc), and_self], ?_⟩
  cases hv : f x.view with
  | error e => simp only [hv]; exact hE e hv
  | ok r => simp only [hv]; exact hQ r.1 r.2 hv (h.write (hf.within _ _ hv) hf.spent)

theorem secured_liftExcept {r : Except ε α} (hE : ∀ e, r = .error e → E e x)
    (hQ : ∀ a, r = .ok a → Q a x) : g.Secured E (liftExcept r : Program σ κ ι ε ρ α) x Q := by
  cases r with
  | error e => exact hE e rfl
  | ok a => exact hQ a rfl

/-- An exception block entered before any write. Its handler gives its row at once. -/
theorem secured_exceptionBlock {h : ε → Option (Program σ κ ι ε ρ Empty)}
    {body : Program σ κ ι ε ρ Empty} {Q : Empty → Position σ κ ι → Prop}
    (hx : g.Confined [] pending x) (hw : x.writes = id)
    (hret : ∀ e p, h e = some p → ∃ r, p = .ret r ∧ g.settled x.locks r)
    (hbody : g.Confined [(id, x.locks)] pending
        { x with marks := (x.writes, x.locks) :: x.marks } →
      g.Secured (fun _ y => y.marks = [(id, x.locks)] ∧ x.locks ⊆ y.locks) body
        { x with marks := (x.writes, x.locks) :: x.marks } fun a _ => a.elim) :
    g.Secured (fun _ _ => True) (exceptionBlock h body) x Q := by
  refine secured_handle (fun e y hy => ?_)
    (secured_mono (fun a => a.elim) (hbody (hx.savepoint hw)))
  split
  · next p hp =>
    obtain ⟨r, hr, hset⟩ := hret e p hp
    exact ⟨r, _, _, hr, hy.1, hy.2, hset⟩
  · trivial

end Confined

end Guards

end CafeFausse.Transaction
