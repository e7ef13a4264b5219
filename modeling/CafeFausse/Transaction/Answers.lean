import CafeFausse.Transaction.Calls
import CafeFausse.Transaction.Interleaving

/-! # What a routine can answer

A property of rows and errors that holds whatever snapshots the statements see and
whatever numbers the sequences give. It is established statement by statement, without
regard to the state.
-/

namespace CafeFausse.Transaction.Program

variable {σ κ ι ε ρ α β : Type}

/-- Every row the routine returns satisfies `R`, every error it raises `E`. -/
def Yields (R : ρ → Prop) (E : ε → Prop) : Program σ κ ι ε ρ α → Prop
  | .pure _ => True
  | .ret r => R r
  | .raise e => E e
  | .lock _ next => next.Yields R E
  | .nextval _ next => ∀ n, (next n).Yields R E
  | .statement _ next => ∀ v, (next v).Yields R E
  | .savepoint next => next.Yields R E
  | .rollback next => next.Yields R E

variable {R : ρ → Prop} {E E' : ε → Prop}

theorem yields_bind {p : Program σ κ ι ε ρ α} {f : α → Program σ κ ι ε ρ β}
    (hp : p.Yields R E) (hf : ∀ a, (f a).Yields R E) : (p >>= f).Yields R E := by
  rw [bind_eq]
  induction p with
  | pure a => exact hf a
  | ret r => exact hp
  | raise e => exact hp
  | lock key next ih => exact ih hp
  | nextval s next ih => exact fun n => ih n (hp n)
  | statement write next ih => exact fun v => ih v (hp v)
  | savepoint next ih => exact ih hp
  | rollback next ih => exact ih hp

theorem yields_query {q : σ → α} : (query q : Program σ κ ι ε ρ α).Yields R E := fun _ => trivial

theorem yields_acquire {key : κ} : (acquire key : Program σ κ ι ε ρ Unit).Yields R E := trivial

theorem yields_draw {s : ι} : (draw s : Program σ κ ι ε ρ ℕ).Yields R E := fun _ => trivial

theorem yields_attempt_bind {f : σ → Except ε (α × (σ → σ))}
    {g : Except ε α → Program σ κ ι ε ρ β} (hok : ∀ a, (g (.ok a)).Yields R E)
    (herror : ∀ v e, f v = .error e → (g (.error e)).Yields R E) :
    (attempt f >>= g).Yields R E := by
  intro v
  simp only
  cases hv : f v with
  | ok r => exact hok r.1
  | error e => exact herror v e hv

theorem yields_liftExcept {x : Except ε α} (h : ∀ e, x = .error e → E e) :
    (liftExcept x : Program σ κ ι ε ρ α).Yields R E := by
  cases x with
  | ok a => trivial
  | error e => exact h e rfl

theorem yields_execute {f : σ → Except ε (α × (σ → σ))} (h : ∀ v e, f v = .error e → E e) :
    (execute f : Program σ κ ι ε ρ α).Yields R E := by
  intro v
  simp only
  cases hv : f v with
  | ok r => trivial
  | error e => exact h v e hv

theorem yields_handle {h : ε → Option (Program σ κ ι ε ρ α)} {p : Program σ κ ι ε ρ α}
    (hp : p.Yields R E') (hh : ∀ e, E' e → match h e with
      | some q => q.Yields R E
      | none => E e) : (p.handle h).Yields R E := by
  induction p with
  | pure a => trivial
  | ret r => exact hp
  | raise e =>
    have hq := hh e hp
    unfold handle
    split
    · next q he => rwa [he] at hq
    · next he => rwa [he] at hq
  | lock key next ih => exact ih hp
  | nextval s next ih => exact fun n => ih n (hp n)
  | statement write next ih => exact fun v => ih v (hp v)
  | savepoint next ih => exact ih hp
  | rollback next ih => exact ih hp

/-- A lone call answers as the routine does in general. -/
theorem Yields.wp [DecidableEq ι] {p : Program σ κ ι ε ρ α} (hp : p.Yields R E)
    (m : Memory σ ι) : p.wp (fun _ _ => True) (fun r _ => R r) (fun e _ => E e) m := by
  induction p generalizing m with
  | pure a => trivial
  | ret r => exact hp
  | raise e => exact hp
  | lock key next ih => exact ih hp m
  | nextval s next ih => exact ih _ (hp _) _
  | statement write next ih => exact ih _ (hp _) _
  | savepoint next ih => exact ih hp _
  | rollback next ih => exact ih hp _

theorem Yields.mono {R' : ρ → Prop} {p : Program σ κ ι ε ρ α} (hp : p.Yields R E)
    (hR : ∀ r, R r → R' r) (hE : ∀ e, E e → E' e) : p.Yields R' E' := by
  induction p with
  | pure a => trivial
  | ret r => exact hR r hp
  | raise e => exact hE e hp
  | lock key next ih => exact ih hp
  | nextval s next ih => exact fun n => ih n (hp n)
  | statement write next ih => exact fun v => ih v (hp v)
  | savepoint next ih => exact ih hp
  | rollback next ih => exact ih hp

theorem yields_trivial (p : Program σ κ ι ε ρ α) : p.Yields (fun _ => True) fun _ => True := by
  induction p with
  | pure a => trivial
  | ret r => trivial
  | raise e => trivial
  | lock key next ih => exact ih
  | nextval s next ih => exact fun n => ih n
  | statement write next ih => exact fun v => ih v
  | savepoint next ih => exact ih
  | rollback next ih => exact ih

end CafeFausse.Transaction.Program

namespace CafeFausse.Transaction

open Program

variable {σ κ ι ε ρ γ : Type} [DecidableEq κ] [DecidableEq ι] {sys : System σ κ ι ε ρ γ}
  {R : γ → ρ → Prop} {E : γ → ε → Prop} {w w' : World σ κ ι ε ρ γ}

omit [DecidableEq κ] [DecidableEq ι] in
theorem World.of_set {P : Session σ κ ι ε ρ γ → Prop} (h : ∀ t s, w.sessions t = some s → P s)
    {t : ℕ} {s : Option (Session σ κ ι ε ρ γ)} (hs : ∀ x, s = some x → P x) :
    ∀ u x, (w.set t s).sessions u = some x → P x := by
  intro u x hx
  rcases World.set_sessions_eq_some hx with ⟨-, heq⟩ | ⟨-, hold⟩
  · exact hs x heq
  · exact h u x hold

/-- What is left of a session answers as its call does. -/
theorem yields_of_step (hbody : ∀ call, (sys.body call).Yields (R call) (E call))
    (h : ∀ t s, w.sessions t = some s → s.program.Yields (R s.call) (E s.call))
    (hw : Step sys w w') :
    ∀ t s, w'.sessions t = some s → s.program.Yields (R s.call) (E s.call) := by
  cases hw with
  | begin t call hfree =>
    apply World.of_set h
    rintro _ ⟨⟩
    exact hbody call
  | commit t s hs r hp => exact World.of_set h nofun
  | abort t s hs => exact World.of_set h nofun
  | lock t s hs key next hp _ =>
    apply World.of_set h
    rintro _ ⟨⟩
    exact (hp ▸ h t s hs : (lock key next).Yields (R s.call) (E s.call))
  | nextval t s hs q next hp =>
    apply World.of_set h
    rintro _ ⟨⟩
    exact (hp ▸ h t s hs : (nextval q next).Yields (R s.call) (E s.call)) _
  | statement t s hs write next hp =>
    apply World.of_set h
    rintro _ ⟨⟩
    exact (hp ▸ h t s hs : (statement write next).Yields (R s.call) (E s.call)) _
  | savepoint t s hs next hp =>
    apply World.of_set h
    rintro _ ⟨⟩
    exact (hp ▸ h t s hs : (savepoint next).Yields (R s.call) (E s.call))
  | rollback t s hs next mark marks hp _ =>
    apply World.of_set h
    rintro _ ⟨⟩
    exact (hp ▸ h t s hs : (rollback next).Yields (R s.call) (E s.call))

theorem yields_of_reaches {c : σ} {n : ι → ℕ}
    (hbody : ∀ call, (sys.body call).Yields (R call) (E call))
    (hw : Reaches sys (World.initial c n) w) :
    ∀ t s, w.sessions t = some s → s.program.Yields (R s.call) (E s.call) := by
  induction hw with
  | refl => exact nofun
  | tail _ hstep ih => exact yields_of_step hbody ih hstep

end CafeFausse.Transaction
