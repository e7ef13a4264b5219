import CafeFausse.Transaction.Answers
import CafeFausse.Transaction.Serial

/-! # Sequence numbers in a run

A sequence gives out no number below the one it begins with. So whatever the interleaving,
neither do the rows that are committed bear one.
-/

namespace CafeFausse.Transaction

open Program

variable {σ κ ι ε ρ γ : Type} [DecidableEq κ] [DecidableEq ι] {sys : System σ κ ι ε ρ γ}
  {c : σ} {n : ι → ℕ} {w w' : World σ κ ι ε ρ γ}

/-- The counters and the draws of the open sessions are at least the first numbers. -/
structure Numbered (n : ι → ℕ) (w : World σ κ ι ε ρ γ) : Prop where
  counters : ∀ q, n q ≤ w.counters q
  draws : ∀ t s, w.sessions t = some s → ∀ d ∈ s.draws, n d.1 ≤ d.2

omit [DecidableEq κ] [DecidableEq ι] in
theorem Numbered.set (h : Numbered n w) {t : ℕ} {s : Option (Session σ κ ι ε ρ γ)}
    (hs : ∀ x, s = some x → ∀ d ∈ x.draws, n d.1 ≤ d.2) : Numbered n (w.set t s) :=
  ⟨h.counters, World.of_set h.draws hs⟩

theorem Numbered.step (h : Numbered n w) (hw : Step sys w w') : Numbered n w' := by
  cases hw with
  | begin t call ht =>
    apply h.set
    rintro x ⟨⟩ d hd
    cases hd
  | lock t s hs key next hp hf =>
    apply h.set
    rintro x ⟨⟩
    exact h.draws t s hs
  | nextval t s hs q next hp =>
    have hset := h.set (t := t) (s := some { s with
        program := next (w.counters q), draws := s.draws ++ [(q, w.counters q)] }) (by
      rintro x ⟨⟩ d hd
      rcases List.mem_append.mp hd with hd | hd
      · exact h.draws t s hs d hd
      · rw [List.mem_singleton.mp hd]
        exact h.counters q)
    refine ⟨fun p => ?_, hset.draws⟩
    by_cases hp : p = q
    · subst hp
      simpa using (h.counters p).trans (Nat.le_succ _)
    · simpa [hp] using h.counters p
  | statement t s hs write next hp =>
    apply h.set
    rintro x ⟨⟩
    exact h.draws t s hs
  | savepoint t s hs next hp =>
    apply h.set
    rintro x ⟨⟩
    exact h.draws t s hs
  | rollback t s hs next mark marks hp hm =>
    apply h.set
    rintro x ⟨⟩
    exact h.draws t s hs
  | commit t s hs r hp =>
    have hset : Numbered n (w.set t none) := h.set nofun
    exact ⟨hset.counters, hset.draws⟩
  | abort t s hs => exact h.set nofun

theorem numbered_of_reaches (hw : Reaches sys (World.initial c n) w) : Numbered n w := by
  induction hw with
  | refl => exact ⟨fun _ => le_rfl, nofun⟩
  | tail _ hstep ih => exact ih.step hstep

section Used

variable {g : Guards σ κ ι ρ} {A : γ → List (ι × ℕ) → σ → ρ → σ → Prop}
  {B : γ → List (ι × ℕ) → σ → ρ → Prop} {K : σ → Prop} {q : Bool}

omit [DecidableEq κ] in
/-- A session that returns a row uses the numbers that are in use and those that it drew. -/
theorem Invariant.used_of_returns (h : Invariant sys g A B K q c w) {t : ℕ} {s} {r : ρ}
    (hs : w.sessions t = some s) (hp : s.program = .ret r) {p : ι} {m : ℕ}
    (hm : g.used (s.writes w.committed) p m) : g.used w.committed p m ∨ (p, m) ∈ s.draws := by
  rcases h.stands t s hs with ⟨-, hf⟩ | ⟨-, r', hset⟩
  · have hkept : g.Kept s.locks s.draws w.committed (s.writes w.committed) :=
      (hp ▸ hf.secured : g.Secured _ (.ret r) _ _) _ (h.peer hs)
    exact hkept.used p m hm
  · rw [hset.writes] at hm
    exact .inl hm

/-- No number below the first ones is ever in use. -/
theorem Reaches.used_ge (hsys : Accountable sys g A B K) (hv : g.valid c) (hK : K c)
    (hn : ∀ p m, g.used c p m → n p ≤ m ∧ m < n p) (hw : Reaches sys (World.initial c n) w) :
    ∀ p m, g.used w.committed p m → n p ≤ m := by
  induction hw with
  | refl => exact fun p m hm => (hn p m hm).1
  | tail hprior hstep ih =>
    have hinvariant := Reaches.serial hsys hv hK (fun p m hm => (hn p m hm).2) hprior
    cases hstep with
    | commit t s hs r hp =>
      intro p m hm
      rcases hinvariant.used_of_returns hs hp hm with hused | hdrawn
      · exact ih p m hused
      · exact (numbered_of_reaches hprior).draws t s hs _ hdrawn
    | _ => exact ih

end Used

end CafeFausse.Transaction
