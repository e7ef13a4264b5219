import CafeFausse.Transaction.Program

/-! # Reasoning about lone calls

The three ways a routine can end are three postconditions. Each kind of statement has
one rule, and sequencing composes them, so that a long routine is followed stage by
stage.
-/

namespace CafeFausse.Transaction.Program

variable {σ κ ι ε ρ α β : Type} [DecidableEq ι]

/-- The call falls through into `Q`, returns into `R` or raises into `E`. -/
def wp (p : Program σ κ ι ε ρ α) (Q : α → Memory σ ι → Prop) (R : ρ → Memory σ ι → Prop)
    (E : ε → Memory σ ι → Prop) (m : Memory σ ι) : Prop :=
  match p.run m with
  | (.value a, m') => Q a m'
  | (.returned r, m') => R r m'
  | (.raised e, m') => E e m'

variable {Q : α → Memory σ ι → Prop} {R : ρ → Memory σ ι → Prop} {E : ε → Memory σ ι → Prop}
  {m : Memory σ ι}

theorem wp_pure {a : α} : (pure a : Program σ κ ι ε ρ α).wp Q R E m ↔ Q a m := .rfl

theorem wp_ret {r : ρ} : (ret r : Program σ κ ι ε ρ α).wp Q R E m ↔ R r m := .rfl

theorem wp_bind {p : Program σ κ ι ε ρ α} {f : α → Program σ κ ι ε ρ β}
    {Q : β → Memory σ ι → Prop} :
    (p.bind f).wp Q R E m ↔ p.wp (fun a m' => (f a).wp Q R E m') R E m := by
  unfold wp
  rw [run_bind]
  cases p.run m with
  | mk x m' => cases x <;> rfl

theorem wp_mono {p : Program σ κ ι ε ρ α} {Q' : α → Memory σ ι → Prop}
    {R' : ρ → Memory σ ι → Prop} {E' : ε → Memory σ ι → Prop} (h : p.wp Q R E m)
    (hQ : ∀ a m', Q a m' → Q' a m') (hR : ∀ r m', R r m' → R' r m')
    (hE : ∀ e m', E e m' → E' e m') : p.wp Q' R' E' m := by
  unfold wp at h ⊢
  cases hp : p.run m with
  | mk x m' =>
    rw [hp] at h
    cases x with
    | value a => exact hQ a m' h
    | returned r => exact hR r m' h
    | raised e => exact hE e m' h

theorem wp_trivial (p : Program σ κ ι ε ρ α) (m : Memory σ ι) :
    p.wp (fun _ _ => True) (fun _ _ => True) (fun _ _ => True) m := by
  unfold wp
  cases p.run m with
  | mk x m' => cases x <;> trivial

theorem wp_query {q : σ → α} :
    (query q : Program σ κ ι ε ρ α).wp Q R E m ↔ Q (q m.view) m := .rfl

theorem wp_acquire {key : κ} {Q : Unit → Memory σ ι → Prop} :
    (acquire key : Program σ κ ι ε ρ Unit).wp Q R E m ↔ Q () m := .rfl

theorem wp_draw {s : ι} {Q : ℕ → Memory σ ι → Prop} :
    (draw s : Program σ κ ι ε ρ ℕ).wp Q R E m ↔
      Q (m.supply s 0) { m with supply := advance m.supply s } := .rfl

theorem wp_liftExcept {x : Except ε α} :
    (liftExcept x : Program σ κ ι ε ρ α).wp Q R E m ↔
      match x with
      | .ok a => Q a m
      | .error e => E e m := by
  cases x <;> rfl

theorem wp_execute {f : σ → Except ε (α × (σ → σ))} :
    (execute f : Program σ κ ι ε ρ α).wp Q R E m ↔
      match f m.view with
      | .ok (a, w) => Q a { m with view := w m.view }
      | .error e => E e m := by
  unfold wp execute
  simp only [run]
  cases f m.view with
  | ok r => rfl
  | error e => rfl

theorem wp_attempt {f : σ → Except ε (α × (σ → σ))} {Q : Except ε α → Memory σ ι → Prop} :
    (attempt f : Program σ κ ι ε ρ (Except ε α)).wp Q R E m ↔
      match f m.view with
      | .ok (a, w) => Q (.ok a) { m with view := w m.view }
      | .error e => Q (.error e) m := by
  unfold wp attempt
  simp only [run]
  cases f m.view with
  | ok r => rfl
  | error e => rfl

/-- A lone call in its own transaction: how it ends, and the state it leaves. An error
takes all its writes back. -/
def transact (p : Program σ κ ι ε ρ α) (m : Memory σ ι) : Exit ε ρ α × σ :=
  match p.run m with
  | (.raised e, _) => (.raised e, m.view)
  | (x, m') => (x, m'.view)

theorem transact_of_wp {p : Program σ κ ι ε ρ α} {P : Exit ε ρ α × σ → Prop}
    (h : p.wp (fun a m' => P (.value a, m'.view)) (fun r m' => P (.returned r, m'.view))
      (fun e _ => P (.raised e, m.view)) m) : P (p.transact m) := by
  unfold wp at h
  unfold transact
  cases hp : p.run m with
  | mk x m' =>
    rw [hp] at h
    cases x <;> exact h

/-- What a call that returned has brought about. -/
theorem of_transact_returned {p : Program σ κ ι ε ρ Empty} {Q : Empty → Memory σ ι → Prop}
    {r : ρ} {v : σ} (h : p.wp Q R E m) (ht : p.transact m = (.returned r, v)) :
    ∃ m', R r m' ∧ m'.view = v := by
  unfold wp at h
  unfold transact at ht
  cases hp : p.run m with
  | mk x m' =>
    rw [hp] at h ht
    cases x with
    | value a => exact a.elim
    | returned r' =>
      cases ht
      exact ⟨m', h, rfl⟩
    | raised e => cases ht

/-- A call that does not raise returns. -/
theorem exists_transact {p : Program σ κ ι ε ρ Empty} {Q : Empty → Memory σ ι → Prop}
    (h : p.wp Q R (fun _ _ => False) m) :
    ∃ r m', p.transact m = (.returned r, m'.view) ∧ R r m' := by
  unfold wp at h
  unfold transact
  cases hp : p.run m with
  | mk x m' =>
    rw [hp] at h
    cases x with
    | value a => exact a.elim
    | returned r => exact ⟨r, m', rfl, h⟩
    | raised e => exact h.elim

theorem run_handle (h : ε → Option (Program σ κ ι ε ρ α)) (p : Program σ κ ι ε ρ α)
    (m : Memory σ ι) : (p.handle h).run m = match p.run m with
      | (.raised e, m') => (match h e with | some q => rollback q | none => raise e).run m'
      | x => x := by
  induction p generalizing m with
  | pure a => rfl
  | ret r => rfl
  | raise e => rfl
  | lock key next ih => exact ih m
  | nextval s next ih => exact ih _ _
  | statement write next ih => exact ih _ _
  | savepoint next ih => exact ih _
  | rollback next ih => exact ih _

/-- What holds of an error that reaches an exception block: its handler goes on from
the savepoint, or it escapes. -/
def caught (h : ε → Option (Program σ κ ι ε ρ Empty)) (Q : Empty → Memory σ ι → Prop)
    (R : ρ → Memory σ ι → Prop) (E : ε → Memory σ ι → Prop) (e : ε) (m : Memory σ ι) : Prop :=
  match h e with
  | some q => q.wp Q R E { m with view := m.marks.headD m.view, marks := m.marks.tail }
  | none => E e m

/-- The block runs under a new savepoint. -/
theorem wp_exceptionBlock {h : ε → Option (Program σ κ ι ε ρ Empty)}
    {body : Program σ κ ι ε ρ Empty} {Q : Empty → Memory σ ι → Prop} :
    (exceptionBlock h body).wp Q R E m ↔
      body.wp Q R (caught h Q R E) { m with marks := m.view :: m.marks } := by
  unfold wp exceptionBlock
  simp only [run, run_handle]
  cases body.run { m with marks := m.view :: m.marks } with
  | mk x m' =>
    cases x with
    | value a => exact a.elim
    | returned r => rfl
    | raised e =>
      simp only [caught]
      cases h e <;> rfl

end CafeFausse.Transaction.Program
