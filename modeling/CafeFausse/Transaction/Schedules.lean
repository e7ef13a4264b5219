import CafeFausse.Transaction.Interleaving

/-! # Playing schedules

A schedule names the session that moves next. Playing one on a world that has no
session from some number on is a run of the step relation, and it can be computed.
-/

namespace CafeFausse.Transaction

open Program

variable {σ κ ι ε ρ γ : Type}

/-- What the scheduler does next. -/
inductive Move (γ : Type) where
  | begin (t : ℕ) (call : γ)
  | step (t : ℕ)
  | abort (t : ℕ)

namespace World

/-- No session but those below the bound is open. -/
def Below (w : World σ κ ι ε ρ γ) (bound : ℕ) : Prop := ∀ t, bound ≤ t → w.sessions t = none

theorem Below.set {w : World σ κ ι ε ρ γ} {bound t : ℕ} (hb : w.Below bound) (ht : t < bound) (s) :
    (w.set t s).Below bound := by
  intro u hu
  have hne : u ≠ t := by omega
  simpa [World.set, hne] using hb u hu

theorem Below.lt {w : World σ κ ι ε ρ γ} {bound t : ℕ} (hb : w.Below bound) {s}
    (hs : w.sessions t = some s) : t < bound := by
  by_contra hle
  rw [hb t (Nat.le_of_not_lt hle)] at hs
  cases hs

theorem below_initial {c : σ} {n : ι → ℕ} {bound : ℕ} :
    (World.initial c n : World σ κ ι ε ρ γ).Below bound := fun _ _ => rfl

variable [DecidableEq κ]

/-- `Free`, looking at the sessions below the bound. -/
def freeBelow (w : World σ κ ι ε ρ γ) (bound t : ℕ) (key : κ) : Bool :=
  (List.range bound).all fun u => u == t || (w.sessions u).all fun s => key ∉ s.locks

theorem free_of_freeBelow {w : World σ κ ι ε ρ γ} {bound t : ℕ} {key : κ}
    (hb : w.Below bound) (h : w.freeBelow bound t key = true) : w.Free t key := by
  intro u s hu hs
  have hlt : u < bound := by
    by_contra hle
    rw [hb u (Nat.le_of_not_lt hle)] at hs
    cases hs
  have := List.all_eq_true.mp h u (List.mem_range.mpr hlt)
  simpa [hu, hs] using this

variable [DecidableEq ι]

/-- The next statement of an open session, if it can take it. An error leaves only
the abort. -/
def moveSession (w : World σ κ ι ε ρ γ) (bound t : ℕ) (s : Session σ κ ι ε ρ γ) :
    Option (World σ κ ι ε ρ γ) :=
  match s.program with
  | .pure a => a.elim
  | .ret r => some { w.set t none with
      committed := s.writes w.committed
      log := w.log ++ [⟨s.call, s.draws, r, s.released⟩] }
  | .raise _ => none
  | .lock key next =>
    if w.freeBelow bound t key then
      some (w.set t (some { s with program := next, locks := key :: s.locks }))
    else none
  | .nextval q next => some { w.set t (some { s with
      program := next (w.counters q), draws := s.draws ++ [(q, w.counters q)] }) with
      counters := Function.update w.counters q (w.counters q + 1) }
  | .statement write next => some (w.set t (some { s with
      program := next (s.writes w.committed)
      writes := write (s.writes w.committed) ∘ s.writes }))
  | .savepoint next => some (w.set t (some { s with
      program := next, marks := (s.writes, s.locks) :: s.marks }))
  | .rollback next =>
    match s.marks with
    | [] => none
    | mark :: marks => some (w.set t (some { s with
        program := next, writes := mark.1, locks := mark.2, marks
        released := s.locks.filter (· ∉ mark.2) ++ s.released }))

variable (sys : System σ κ ι ε ρ γ)

/-- Carry out a move. -/
def move (bound : ℕ) (w : World σ κ ι ε ρ γ) : Move γ → Option (World σ κ ι ε ρ γ)
  | .begin t call =>
    if t < bound ∧ (w.sessions t).isNone then
      some (w.set t (some { call, program := sys.body call }))
    else none
  | .step t => (w.sessions t).bind (w.moveSession bound t)
  | .abort t => (w.sessions t).map fun _ => w.set t none

/-- Carry out a schedule, as long as the check holds. -/
def play (bound : ℕ) (check : World σ κ ι ε ρ γ → Bool) (w : World σ κ ι ε ρ γ)
    (schedule : List (Move γ)) : Option (World σ κ ι ε ρ γ) :=
  schedule.foldlM (fun w mv => if check w then move sys bound w mv else none) w

variable {sys} {w w' : World σ κ ι ε ρ γ} {bound t : ℕ} {check : World σ κ ι ε ρ γ → Bool}

theorem moveSession_sound (hb : w.Below bound) {s} (hs : w.sessions t = some s)
    (h : w.moveSession bound t s = some w') : Step sys w w' ∧ w'.Below bound := by
  have ht := hb.lt hs
  unfold moveSession at h
  split at h
  · next a _ => exact a.elim
  · next r hp =>
    cases h
    exact ⟨.commit t s hs r hp, hb.set ht none⟩
  · cases h
  · next key next hp =>
    split at h
    · next hf =>
      cases h
      exact ⟨.lock t s hs key next hp (free_of_freeBelow hb hf), hb.set ht _⟩
    · cases h
  · next q next hp =>
    cases h
    exact ⟨.nextval t s hs q next hp, hb.set ht _⟩
  · next write next hp =>
    cases h
    exact ⟨.statement t s hs write next hp, hb.set ht _⟩
  · next next hp =>
    cases h
    exact ⟨.savepoint t s hs next hp, hb.set ht _⟩
  · next next hp =>
    split at h
    · cases h
    · next mark marks hm =>
      cases h
      exact ⟨.rollback t s hs next mark marks hp hm, hb.set ht _⟩

theorem move_sound (hb : w.Below bound) {mv : Move γ} (h : move sys bound w mv = some w') :
    Step sys w w' ∧ w'.Below bound := by
  cases mv with
  | begin t call =>
    simp only [move] at h
    split at h
    · next hc =>
      cases h
      exact ⟨.begin t call (by simpa using hc.2), hb.set hc.1 _⟩
    · cases h
  | step t =>
    obtain ⟨s, hs, h⟩ := Option.bind_eq_some_iff.mp h
    exact moveSession_sound hb hs h
  | abort t =>
    obtain ⟨s, hs, h⟩ := Option.map_eq_some_iff.mp h
    cases h
    exact ⟨.abort t s hs, hb.set (hb.lt hs) none⟩

/-- A schedule that can be played is a run, in which the check holds at every step. -/
theorem play_sound {schedule : List (Move γ)} (hb : w.Below bound)
    (h : play sys bound check w schedule = some w') :
    Relation.ReflTransGen (fun w w' => Step sys w w' ∧ check w = true) w w' := by
  induction schedule generalizing w with
  | nil =>
    cases h
    exact .refl
  | cons mv schedule ih =>
    obtain ⟨v, hv, h⟩ := Option.bind_eq_some_iff.mp h
    simp only at hv
    split at hv
    · next hc =>
      obtain ⟨hstep, hb'⟩ := move_sound hb hv
      exact .head ⟨hstep, hc⟩ (ih hb' h)
    · cases hv

/-- What a played schedule shows of the world it leads to holds at the end of a run. -/
theorem exists_run (sys : System σ κ ι ε ρ γ) (c : σ) (n : ι → ℕ) (bound : ℕ)
    (check : World σ κ ι ε ρ γ → Bool) (schedule : List (Move γ)) (P : World σ κ ι ε ρ γ → Bool)
    (h : (play sys bound check (World.initial c n) schedule).any P = true) :
    ∃ w, Relation.ReflTransGen (fun w w' => Step sys w w' ∧ check w = true) (World.initial c n) w ∧
      P w = true := by
  obtain ⟨w, hw, hP⟩ := (Option.any_eq_true P _).mp h
  exact ⟨w, play_sound below_initial hw, hP⟩

theorem exists_reaches (sys : System σ κ ι ε ρ γ) (c : σ) (n : ι → ℕ) (bound : ℕ)
    (schedule : List (Move γ)) (P : World σ κ ι ε ρ γ → Bool)
    (h : (play sys bound (fun _ => true) (World.initial c n) schedule).any P = true) :
    ∃ w, Reaches sys (World.initial c n) w ∧ P w = true := by
  obtain ⟨w, hw, hP⟩ := exists_run sys c n bound _ schedule P h
  exact ⟨w, Relation.ReflTransGen.mono (fun _ _ hstep => hstep.1) _ _ hw, hP⟩

end World

end CafeFausse.Transaction
