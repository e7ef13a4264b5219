import CafeFausse.Transaction.Calls

/-! # Two calls side by side

Two routines are run from two memories that a relation pairs. They agree if they always end in
the same way and keep the relation. Agreement is established statement by statement and carries
over to calls made one after another.
-/

namespace CafeFausse.Transaction.Program

variable {σ κ ι ε ρ α β α' β' γ : Type} [DecidableEq ι]

/-- Both calls fall through into `Q`, return into `R` or raise into `E`. -/
def wp₂ (p : Program σ κ ι ε ρ α) (q : Program σ κ ι ε ρ β)
    (Q : α → β → Memory σ ι → Memory σ ι → Prop) (R : ρ → ρ → Memory σ ι → Memory σ ι → Prop)
    (E : ε → ε → Memory σ ι → Memory σ ι → Prop) (m n : Memory σ ι) : Prop :=
  match p.run m, q.run n with
  | (.value a, m'), (.value b, n') => Q a b m' n'
  | (.returned r, m'), (.returned s, n') => R r s m' n'
  | (.raised e, m'), (.raised f, n') => E e f m' n'
  | _, _ => False

section Rules

variable {p : Program σ κ ι ε ρ α} {q : Program σ κ ι ε ρ β}
  {Q : α → β → Memory σ ι → Memory σ ι → Prop} {R : ρ → ρ → Memory σ ι → Memory σ ι → Prop}
  {E : ε → ε → Memory σ ι → Memory σ ι → Prop} {m n : Memory σ ι}

theorem wp₂_mono {Q' : α → β → Memory σ ι → Memory σ ι → Prop}
    {R' : ρ → ρ → Memory σ ι → Memory σ ι → Prop} {E' : ε → ε → Memory σ ι → Memory σ ι → Prop}
    (h : p.wp₂ q Q R E m n) (hQ : ∀ a b m' n', Q a b m' n' → Q' a b m' n')
    (hR : ∀ r s m' n', R r s m' n' → R' r s m' n')
    (hE : ∀ e f m' n', E e f m' n' → E' e f m' n') : p.wp₂ q Q' R' E' m n := by
  revert h
  unfold wp₂
  rcases p.run m with ⟨a | r | e, m'⟩ <;> rcases q.run n with ⟨b | s | f, n'⟩ <;> intro h
  case value.value => exact hQ a b m' n' h
  case returned.returned => exact hR r s m' n' h
  case raised.raised => exact hE e f m' n' h
  all_goals exact h.elim

theorem wp₂_bind {f : α → Program σ κ ι ε ρ α'} {g : β → Program σ κ ι ε ρ β'}
    {Q : α' → β' → Memory σ ι → Memory σ ι → Prop}
    (h : p.wp₂ q (fun a b m' n' => (f a).wp₂ (g b) Q R E m' n') R E m n) :
    (p >>= f).wp₂ (q >>= g) Q R E m n := by
  rw [bind_eq, bind_eq]
  revert h
  unfold wp₂
  rw [run_bind, run_bind]
  rcases p.run m with ⟨a | r | e, m'⟩ <;> rcases q.run n with ⟨b | s | f, n'⟩ <;> intro h
  case value.value => exact h
  case returned.returned => exact h
  case raised.raised => exact h
  all_goals exact h.elim

theorem run_execute (f : σ → Except ε (α × (σ → σ))) (m : Memory σ ι) :
    (execute f : Program σ κ ι ε ρ α).run m = match f m.view with
      | .ok (a, w) => (.value a, { m with view := w m.view })
      | .error e => (.raised e, m) := by
  unfold execute
  simp only [run]
  cases f m.view with
  | ok r => rfl
  | error e => rfl

theorem run_attempt (f : σ → Except ε (α × (σ → σ))) (m : Memory σ ι) :
    (attempt f : Program σ κ ι ε ρ (Except ε α)).run m = match f m.view with
      | .ok (a, w) => (.value (.ok a), { m with view := w m.view })
      | .error e => (.value (.error e), m) := by
  unfold attempt
  simp only [run]
  cases f m.view with
  | ok r => rfl
  | error e => rfl

/-- What holds of two errors that reach exception blocks: both are handled from the savepoint,
or both escape. -/
def caught₂ (h h' : ε → Option (Program σ κ ι ε ρ Empty))
    (R : ρ → ρ → Memory σ ι → Memory σ ι → Prop) (E : ε → ε → Memory σ ι → Memory σ ι → Prop)
    (e f : ε) (m n : Memory σ ι) : Prop :=
  match h e, h' f with
  | some p, some q => p.wp₂ q (fun a _ _ _ => a.elim) R E
      { m with view := m.marks.headD m.view, marks := m.marks.tail }
      { n with view := n.marks.headD n.view, marks := n.marks.tail }
  | none, none => E e f m n
  | _, _ => False

theorem wp₂_exceptionBlock {h h' : ε → Option (Program σ κ ι ε ρ Empty)}
    {p q : Program σ κ ι ε ρ Empty} {Q : Empty → Empty → Memory σ ι → Memory σ ι → Prop}
    (hbody : p.wp₂ q (fun a _ _ _ => a.elim) R (caught₂ h h' R E)
      { m with marks := m.view :: m.marks } { n with marks := n.view :: n.marks }) :
    (exceptionBlock h p).wp₂ (exceptionBlock h' q) Q R E m n := by
  revert hbody
  unfold wp₂ exceptionBlock
  simp only [run, run_handle]
  rcases p.run { m with marks := m.view :: m.marks } with ⟨a | r | e, m'⟩ <;>
    rcases q.run { n with marks := n.view :: n.marks } with ⟨b | s | f, n'⟩ <;> intro hbody
  case returned.returned => exact hbody
  case raised.raised =>
    revert hbody
    simp only [caught₂]
    cases h e <;> cases h' f <;> intro hbody
    case none.none => exact hbody
    case some.some =>
      exact wp₂_mono hbody (fun a => a.elim) (fun _ _ _ _ h => h) fun _ _ _ _ h => h
    all_goals exact hbody.elim
  all_goals first | exact a.elim | exact b.elim | exact hbody.elim

end Rules

/-- From memories that `S` pairs, both routines fall through with values that `V` pairs and
memories that `S` pairs, or end in the same way, as `R` and `E` relate it. -/
def Agree (S : Memory σ ι → Memory σ ι → Prop) (R : ρ → ρ → Memory σ ι → Memory σ ι → Prop)
    (E : ε → ε → Memory σ ι → Memory σ ι → Prop) (V : α → β → Prop)
    (p : Program σ κ ι ε ρ α) (q : Program σ κ ι ε ρ β) : Prop :=
  ∀ m n, S m n → p.wp₂ q (fun a b m' n' => V a b ∧ S m' n') R E m n

section Agree

variable {S : Memory σ ι → Memory σ ι → Prop} {R : ρ → ρ → Memory σ ι → Memory σ ι → Prop}
  {E : ε → ε → Memory σ ι → Memory σ ι → Prop} {V : α → β → Prop} {W : α' → β' → Prop}
  {p : Program σ κ ι ε ρ α} {q : Program σ κ ι ε ρ β}

theorem agree_pure {a : α} {b : β} (h : V a b) :
    Agree S R E V (pure a : Program σ κ ι ε ρ α) (pure b) := fun _ _ hS => ⟨h, hS⟩

theorem agree_ret {r s : ρ} (h : ∀ m n, S m n → R r s m n) :
    Agree S R E V (ret r : Program σ κ ι ε ρ α) (ret s) := h

theorem agree_raise {e f : ε} (h : ∀ m n, S m n → E e f m n) :
    Agree S R E V (raise e : Program σ κ ι ε ρ α) (raise f) := h

theorem agree_bind {f : α → Program σ κ ι ε ρ α'} {g : β → Program σ κ ι ε ρ β'}
    (hp : Agree S R E V p q) (hf : ∀ a b, V a b → Agree S R E W (f a) (g b)) :
    Agree S R E W (p >>= f) (q >>= g) := fun m n hS =>
  wp₂_bind (wp₂_mono (hp m n hS) (fun a b m' n' h => hf a b h.1 m' n' h.2)
    (fun _ _ _ _ h => h) fun _ _ _ _ h => h)

theorem agree_query {f : σ → α} {g : σ → β} (h : ∀ m n, S m n → V (f m.view) (g n.view)) :
    Agree S R E V (query f : Program σ κ ι ε ρ α) (query g) := fun m n hS => ⟨h m n hS, hS⟩

theorem agree_acquire {key : κ} :
    Agree S R E Eq (acquire key : Program σ κ ι ε ρ Unit) (acquire key) := fun _ _ hS => ⟨rfl, hS⟩

theorem agree_draw {s : ι} (h : ∀ m n, S m n → m.supply s 0 = n.supply s 0 ∧
      S { m with supply := advance m.supply s } { n with supply := advance n.supply s }) :
    Agree S R E Eq (draw s : Program σ κ ι ε ρ ℕ) (draw s) := h

/-- Both are values or both are errors. -/
def Results (X : ε → ε → Prop) (V : α → β → Prop) : Except ε α → Except ε β → Prop
  | .ok a, .ok b => V a b
  | .error e, .error e' => X e e'
  | _, _ => False

theorem results_refl (x : Except ε α) : Results Eq Eq x x := by
  cases x <;> rfl

theorem eq_of_results {x y : Except ε α} (h : Results Eq Eq x y) : x = y := by
  cases x <;> cases y
  case error.error => exact congrArg _ h
  case ok.ok => exact congrArg _ h
  all_goals exact h.elim

theorem agree_liftExcept {x : Except ε α} {y : Except ε β} {X : ε → ε → Prop}
    (h : Results X V x y) (hX : ∀ e e' m n, X e e' → S m n → E e e' m n) :
    Agree S R E V (liftExcept x : Program σ κ ι ε ρ α) (liftExcept y) := by
  intro m n hS
  cases x <;> cases y
  case error.error => exact hX _ _ m n h hS
  case ok.ok => exact ⟨h, hS⟩
  all_goals exact h.elim

/-- Both changes are made or both rejected. -/
def Matched (S : Memory σ ι → Memory σ ι → Prop) (X : ε → ε → Prop) (V : α → β → Prop)
    (f : σ → Except ε (α × (σ → σ))) (g : σ → Except ε (β × (σ → σ))) : Prop :=
  ∀ m n, S m n → match f m.view, g n.view with
    | .ok (a, v), .ok (b, w) =>
      V a b ∧ S { m with view := v m.view } { n with view := w n.view }
    | .error e, .error e' => X e e'
    | _, _ => False

theorem agree_execute {f : σ → Except ε (α × (σ → σ))} {g : σ → Except ε (β × (σ → σ))}
    {X : ε → ε → Prop} (h : Matched S X V f g) (hX : ∀ e e' m n, X e e' → S m n → E e e' m n) :
    Agree S R E V (execute f : Program σ κ ι ε ρ α) (execute g) := by
  intro m n hS
  have hm := h m n hS
  revert hm
  unfold wp₂
  rw [run_execute, run_execute]
  rcases f m.view with e | ⟨a, v⟩ <;> rcases g n.view with e' | ⟨b, w⟩ <;> intro hm
  · exact hX e e' m n hm hS
  · exact hm.elim
  · exact hm.elim
  · exact hm

theorem wp₂_attempt {f : σ → Except ε (α × (σ → σ))} {g : σ → Except ε (β × (σ → σ))}
    {Q : Except ε α → Except ε β → Memory σ ι → Memory σ ι → Prop} {m n : Memory σ ι}
    (h : match f m.view, g n.view with
      | .ok (a, v), .ok (b, w) =>
        Q (.ok a) (.ok b) { m with view := v m.view } { n with view := w n.view }
      | .error e, .error e' => Q (.error e) (.error e') m n
      | _, _ => False) :
    (attempt f : Program σ κ ι ε ρ (Except ε α)).wp₂ (attempt g) Q R E m n := by
  revert h
  unfold wp₂
  rw [run_attempt, run_attempt]
  rcases f m.view with e | ⟨a, v⟩ <;> rcases g n.view with e' | ⟨b, w⟩ <;> intro h
  case error.error => exact h
  case ok.ok => exact h
  all_goals exact h.elim

theorem agree_attempt {f : σ → Except ε (α × (σ → σ))} {g : σ → Except ε (β × (σ → σ))}
    {X : ε → ε → Prop} (h : Matched S X V f g) :
    Agree S R E (Results X V) (attempt f : Program σ κ ι ε ρ (Except ε α)) (attempt g) := by
  intro m n hS
  apply wp₂_attempt
  have hm := h m n hS
  revert hm
  rcases f m.view with e | ⟨a, v⟩ <;> rcases g n.view with e' | ⟨b, w⟩ <;> intro hm
  · exact ⟨hm, hS⟩
  · exact hm
  · exact hm
  · exact hm

end Agree

section Sequences

/-- One call after another, each in a transaction of its own: how they end and what they leave.
A number that was given out is used up even by a call that is taken back. -/
def serve (body : γ → Program σ κ ι ε ρ Empty) :
    List γ → σ → (ι → ℕ → ℕ) → List (Exit ε ρ Empty) × σ × (ι → ℕ → ℕ)
  | [], c, d => ([], c, d)
  | call :: calls, c, d =>
    let m : Memory σ ι := ⟨c, [], d⟩
    let (exit, c') := (body call).transact m
    let rest := serve body calls c' ((body call).run m).2.supply
    (exit :: rest.1, rest.2)

/-- The exits are of one kind and their contents related. -/
def Exit.Related (R : ρ → ρ → Prop) (E : ε → ε → Prop) :
    Exit ε ρ Empty → Exit ε ρ Empty → Prop
  | .returned r, .returned s => R r s
  | .raised e, .raised f => E e f
  | _, _ => False

variable {body body' : γ → Program σ κ ι ε ρ Empty} {T : σ → σ → Prop} {R : ρ → ρ → Prop}
  {E : ε → ε → Prop}

/-- If each call keeps two states related, so do sequences of calls. -/
theorem serve_related (h : ∀ call c c' d, T c c' → (body call).wp₂ (body' call)
      (fun a _ _ _ => a.elim) (fun r s m n => R r s ∧ T m.view n.view ∧ m.supply = n.supply)
      (fun e f m n => E e f ∧ m.supply = n.supply) ⟨c, [], d⟩ ⟨c', [], d⟩) (calls : List γ) :
    ∀ {c c' : σ} {d : ι → ℕ → ℕ}, T c c' →
      List.Forall₂ (Exit.Related R E) (serve body calls c d).1 (serve body' calls c' d).1 ∧
        T (serve body calls c d).2.1 (serve body' calls c' d).2.1 ∧
        (serve body calls c d).2.2 = (serve body' calls c' d).2.2 := by
  induction calls with
  | nil => exact fun hT => ⟨.nil, hT, rfl⟩
  | cons call calls ih =>
    intro c c' d hT
    have hcall := h call c c' d hT
    revert hcall
    unfold wp₂
    simp only [serve, transact]
    rcases (body call).run ⟨c, [], d⟩ with ⟨a | r | e, m⟩ <;>
      rcases (body' call).run ⟨c', [], d⟩ with ⟨b | s | f, n⟩ <;> intro hcall
    case returned.returned =>
      obtain ⟨hR, hview, hsupply⟩ := hcall
      simp only [hsupply]
      obtain ⟨hexits, hrest⟩ := ih (d := n.supply) hview
      exact ⟨.cons hR hexits, hrest⟩
    case raised.raised =>
      obtain ⟨hE, hsupply⟩ := hcall
      simp only [hsupply]
      obtain ⟨hexits, hrest⟩ := ih (d := n.supply) hT
      exact ⟨.cons hE hexits, hrest⟩
    all_goals first | exact a.elim | exact b.elim | exact hcall.elim

end Sequences

end CafeFausse.Transaction.Program
