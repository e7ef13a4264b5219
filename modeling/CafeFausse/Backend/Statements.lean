import Mathlib

/-! # Statements that may raise

Imperative code with mutable variables and exceptions. An exception leaves the
variables as the statements before it have set them. The three ways a handler can see
a block end are covered by one rule each.
-/

namespace CafeFausse.Backend

/-- A statement over variables `σ` that may raise an `ε`. -/
abbrev Statement (σ ε : Type) := ExceptT ε (StateM σ)

namespace Statement

variable {σ ε ε' α β : Type}

/-- A call that raises nothing. -/
def perform (m : StateM σ α) : Statement σ ε α := ExceptT.lift m

/-- How the statement ends and the variables it leaves. -/
def execute (p : Statement σ ε α) (s : σ) : Except ε α × σ := StateT.run (ExceptT.run p) s

/-- The block's exception as a value, as an `except` clause receives it. -/
def outcome (p : Statement σ ε α) : Statement σ ε' (Except ε α) :=
  ExceptT.mk fun s =>
    match p.execute s with
    | (x, s') => (.ok x, s')

/-- `try: p  except Exception as e: h e`. -/
def except (p : Statement σ ε α) (h : ε → Statement σ ε' α) : Statement σ ε' α := do
  match ← p.outcome with
  | .ok a => return a
  | .error e => h e

/-- `try: p  finally: q`. -/
def always (p : Statement σ ε α) (q : Statement σ ε Unit) : Statement σ ε α := do
  let x ← p.outcome
  q
  match x with
  | .ok a => return a
  | .error e => throw e

/-- The statement ends regularly in `Q` or raises into `E`. -/
def wp (p : Statement σ ε α) (Q : α → σ → Prop) (E : ε → σ → Prop) (s : σ) : Prop :=
  match p.execute s with
  | (.ok a, s') => Q a s'
  | (.error e, s') => E e s'

variable {Q : α → σ → Prop} {E : ε → σ → Prop} {s : σ}

@[simp] theorem execute_pure (a : α) : (pure a : Statement σ ε α).execute s = (.ok a, s) := rfl

@[simp] theorem execute_throw (e : ε) : (throw e : Statement σ ε α).execute s = (.error e, s) := rfl

@[simp] theorem execute_get : (get : Statement σ ε σ).execute s = (.ok s, s) := rfl

@[simp] theorem execute_modify (f : σ → σ) :
    (modify f : Statement σ ε PUnit).execute s = (.ok ⟨⟩, f s) := rfl

@[simp] theorem execute_outcome (p : Statement σ ε α) :
    (p.outcome : Statement σ ε' _).execute s = (.ok (p.execute s).1, (p.execute s).2) := rfl

theorem execute_bind (p : Statement σ ε α) (f : α → Statement σ ε β) :
    (p >>= f).execute s = match p.execute s with
      | (.ok a, s') => (f a).execute s'
      | (.error e, s') => (.error e, s') := by
  unfold execute ExceptT.run StateT.run
  simp only [bind, ExceptT.bind, ExceptT.mk, StateT.bind]
  cases p s with
  | mk x s' => cases x <;> rfl

theorem wp_pure {a : α} : (pure a : Statement σ ε α).wp Q E s ↔ Q a s := .rfl

theorem wp_get {Q : σ → σ → Prop} : (get : Statement σ ε σ).wp Q E s ↔ Q s s := .rfl

theorem wp_modify {f : σ → σ} {Q : PUnit → σ → Prop} :
    (modify f : Statement σ ε PUnit).wp Q E s ↔ Q ⟨⟩ (f s) := .rfl

theorem wp_perform {m : StateM σ α} :
    (perform m : Statement σ ε α).wp Q E s ↔ Q (StateT.run m s).1 (StateT.run m s).2 := .rfl

theorem wp_bind {p : Statement σ ε α} {f : α → Statement σ ε β} {Q : β → σ → Prop} :
    (p >>= f).wp Q E s ↔ p.wp (fun a s' => (f a).wp Q E s') E s := by
  unfold wp
  rw [execute_bind]
  cases p.execute s with
  | mk x s' => cases x <;> rfl

theorem wp_outcome {p : Statement σ ε α} {E : ε' → σ → Prop} {Q : Except ε α → σ → Prop} :
    p.outcome.wp Q E s ↔ p.wp (fun a => Q (.ok a)) (fun e => Q (.error e)) s := by
  unfold wp
  rw [execute_outcome]
  cases p.execute s with
  | mk x s' => cases x <;> rfl

theorem wp_except {p : Statement σ ε α} {h : ε → Statement σ ε' α} {E : ε' → σ → Prop} :
    (p.except h).wp Q E s ↔ p.wp Q (fun e s' => (h e).wp Q E s') s := by
  unfold except
  rw [wp_bind, wp_outcome]
  rfl

theorem wp_always {p : Statement σ ε α} {q : Statement σ ε Unit} :
    (p.always q).wp Q E s ↔ p.wp (fun a s' => q.wp (fun _ => Q a) E s')
      (fun e s' => q.wp (fun _ => E e) E s') s := by
  unfold always
  rw [wp_bind, wp_outcome]
  simp only [wp_bind]
  rfl

theorem wp_ofExcept {x : Except ε α} : (ofExcept x : Statement σ ε α).wp Q E s ↔
    match x with
    | .ok a => Q a s
    | .error e => E e s := by
  cases x <;> rfl

theorem wp_iff {p : Statement σ ε α} : p.wp Q E s ↔
    (∀ a s', p.execute s = (.ok a, s') → Q a s') ∧
      ∀ e s', p.execute s = (.error e, s') → E e s' := by
  unfold wp
  cases p.execute s with
  | mk x s' => cases x <;> simp

theorem wp_mono {p : Statement σ ε α} {Q' : α → σ → Prop} {E' : ε → σ → Prop} (h : p.wp Q E s)
    (hQ : ∀ a s', Q a s' → Q' a s') (hE : ∀ e s', E e s' → E' e s') : p.wp Q' E' s := by
  unfold wp at h ⊢
  cases hp : p.execute s with
  | mk x s' =>
    rw [hp] at h
    cases x with
    | ok a => exact hQ a s' h
    | error e => exact hE e s' h

end Statement

end CafeFausse.Backend
