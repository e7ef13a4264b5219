import CafeFausse.Transaction.Program

/-! # Interleaved transactions at read committed

Sessions run one call each, statement by statement and in any order. A statement
sees the committed state with the session's own writes on top. An advisory lock
is exclusive and is held to the end of the transaction, except that a rollback to
a savepoint gives up the locks taken since. Sequences are not transactional.
Row locks and unique-index waits, which only remove schedules, are left out.
-/

namespace CafeFausse.Transaction

open Program

/-- The body each call runs. -/
structure System (σ κ ι ε ρ γ : Type) where
  body : γ → Program σ κ ι ε ρ Empty

/-- An open transaction. `released` lists the locks a rollback has given up. -/
structure Session (σ κ ι ε ρ γ : Type) where
  call : γ
  program : Program σ κ ι ε ρ Empty
  writes : σ → σ := id
  locks : List κ := []
  marks : List ((σ → σ) × List κ) := []
  draws : List (ι × ℕ) := []
  released : List κ := []

/-- A committed call, the sequence numbers it drew, the row it returned and the
locks it had given up before its commit. -/
structure Entry (ι ρ γ κ : Type) where
  call : γ
  draws : List (ι × ℕ)
  row : ρ
  released : List κ

/-- The database server: committed state, sequences, open sessions and the log of
commits in their order. -/
structure World (σ κ ι ε ρ γ : Type) where
  committed : σ
  counters : ι → ℕ
  sessions : ℕ → Option (Session σ κ ι ε ρ γ) := fun _ => none
  log : List (Entry ι ρ γ κ) := []

variable {σ κ ι ε ρ γ : Type}

namespace World

/-- Replace one session. -/
def set (w : World σ κ ι ε ρ γ) (t : ℕ) (s : Option (Session σ κ ι ε ρ γ)) :
    World σ κ ι ε ρ γ :=
  { w with sessions := Function.update w.sessions t s }

/-- No other open session holds the key. -/
def Free (w : World σ κ ι ε ρ γ) (t : ℕ) (key : κ) : Prop :=
  ∀ u s, u ≠ t → w.sessions u = some s → key ∉ s.locks

@[simp] theorem set_committed (w : World σ κ ι ε ρ γ) (t : ℕ) (s) :
    (w.set t s).committed = w.committed := rfl
@[simp] theorem set_counters (w : World σ κ ι ε ρ γ) (t : ℕ) (s) :
    (w.set t s).counters = w.counters := rfl
@[simp] theorem set_log (w : World σ κ ι ε ρ γ) (t : ℕ) (s) : (w.set t s).log = w.log := rfl

theorem set_sessions_eq_some {w : World σ κ ι ε ρ γ} {t u : ℕ} {s : Option (Session σ κ ι ε ρ γ)}
    {x : Session σ κ ι ε ρ γ} (h : (w.set t s).sessions u = some x) :
    (u = t ∧ s = some x) ∨ (u ≠ t ∧ w.sessions u = some x) := by
  by_cases hu : u = t
  · subst hu; exact .inl ⟨rfl, by simpa [set] using h⟩
  · exact .inr ⟨hu, by simpa [set, hu] using h⟩

end World

/-- The state right before any call: nothing open, nothing logged. -/
def World.initial (c : σ) (n : ι → ℕ) : World σ κ ι ε ρ γ where
  committed := c
  counters := n

/-- What a lone call works on in this world. -/
def World.memory (w : World σ κ ι ε ρ γ) : Memory σ ι where
  view := w.committed
  marks := []
  supply q i := w.counters q + i

variable [DecidableEq κ] [DecidableEq ι] (sys : System σ κ ι ε ρ γ)

/-- One step of one session. -/
inductive Step (w : World σ κ ι ε ρ γ) : World σ κ ι ε ρ γ → Prop
  | begin (t : ℕ) (call : γ) (h : w.sessions t = none) :
      Step w (w.set t (some { call, program := sys.body call }))
  | lock (t : ℕ) (s) (h : w.sessions t = some s) (key : κ) (next)
      (hp : s.program = .lock key next) (hf : w.Free t key) :
      Step w (w.set t (some { s with program := next, locks := key :: s.locks }))
  | nextval (t : ℕ) (s) (h : w.sessions t = some s) (q : ι) (next)
      (hp : s.program = .nextval q next) :
      Step w { w.set t (some { s with
          program := next (w.counters q), draws := s.draws ++ [(q, w.counters q)] }) with
        counters := Function.update w.counters q (w.counters q + 1) }
  | statement (t : ℕ) (s) (h : w.sessions t = some s) (write) (next)
      (hp : s.program = .statement write next) :
      Step w (w.set t (some { s with
        program := next (s.writes w.committed)
        writes := write (s.writes w.committed) ∘ s.writes }))
  | savepoint (t : ℕ) (s) (h : w.sessions t = some s) (next)
      (hp : s.program = .savepoint next) :
      Step w (w.set t (some { s with
        program := next, marks := (s.writes, s.locks) :: s.marks }))
  | rollback (t : ℕ) (s) (h : w.sessions t = some s) (next) (mark) (marks)
      (hp : s.program = .rollback next) (hm : s.marks = mark :: marks) :
      Step w (w.set t (some { s with
        program := next, writes := mark.1, locks := mark.2, marks
        released := s.locks.filter (· ∉ mark.2) ++ s.released }))
  | commit (t : ℕ) (s) (h : w.sessions t = some s) (r : ρ) (hp : s.program = .ret r) :
      Step w { w.set t none with
        committed := s.writes w.committed
        log := w.log ++ [⟨s.call, s.draws, r, s.released⟩] }
  | abort (t : ℕ) (s) (h : w.sessions t = some s) : Step w (w.set t none)

/-- Worlds some interleaving leads to. -/
def Reaches : World σ κ ι ε ρ γ → World σ κ ι ε ρ γ → Prop := Relation.ReflTransGen (Step sys)

end CafeFausse.Transaction
