import CafeFausse.Transaction.Interleaving

/-! # Locks that conflict by a relation of their own

Row locks come in modes, and a lock excludes those it conflicts with. A transaction that
asks for a lock waits for those that hold a conflicting one, and for those that queue for
such a lock before it. If every transaction takes its locks in one order, but for requests
that a lock it holds covers, then nobody waits for himself in the end.
-/

namespace CafeFausse.Transaction

variable {σ κ ι ε ρ γ α : Type}

/-- No lock of another open session conflicts with this one. -/
def World.Grants (conflicts : κ → κ → Prop) (w : World σ κ ι ε ρ γ) (t : ℕ) (r : κ) : Prop :=
  ∀ u s, u ≠ t → w.sessions u = some s → ∀ x ∈ s.locks, ¬ conflicts r x

/-- One step of one session, where locks are granted unless they conflict. -/
inductive LockStep [DecidableEq κ] [DecidableEq ι] (sys : System σ κ ι ε ρ γ)
    (conflicts : κ → κ → Prop) (w : World σ κ ι ε ρ γ) : World σ κ ι ε ρ γ → Prop
  | begin (t : ℕ) (call : γ) (h : w.sessions t = none) :
      LockStep sys conflicts w (w.set t (some { call, program := sys.body call }))
  | lock (t : ℕ) (s) (h : w.sessions t = some s) (r : κ) (next)
      (hp : s.program = .lock r next) (hg : w.Grants conflicts t r) :
      LockStep sys conflicts w (w.set t (some { s with program := next, locks := r :: s.locks }))
  | nextval (t : ℕ) (s) (h : w.sessions t = some s) (q : ι) (next)
      (hp : s.program = .nextval q next) :
      LockStep sys conflicts w { w.set t (some { s with
          program := next (w.counters q), draws := s.draws ++ [(q, w.counters q)] }) with
        counters := Function.update w.counters q (w.counters q + 1) }
  | statement (t : ℕ) (s) (h : w.sessions t = some s) (write) (next)
      (hp : s.program = .statement write next) :
      LockStep sys conflicts w (w.set t (some { s with
        program := next (s.writes w.committed)
        writes := write (s.writes w.committed) ∘ s.writes }))
  | savepoint (t : ℕ) (s) (h : w.sessions t = some s) (next)
      (hp : s.program = .savepoint next) :
      LockStep sys conflicts w (w.set t (some { s with
        program := next, marks := (s.writes, s.locks) :: s.marks }))
  | rollback (t : ℕ) (s) (h : w.sessions t = some s) (next) (mark) (marks)
      (hp : s.program = .rollback next) (hm : s.marks = mark :: marks) :
      LockStep sys conflicts w (w.set t (some { s with
        program := next, writes := mark.1, locks := mark.2, marks
        released := s.locks.filter (· ∉ mark.2) ++ s.released }))
  | commit (t : ℕ) (s) (h : w.sessions t = some s) (r : ρ) (hp : s.program = .ret r) :
      LockStep sys conflicts w { w.set t none with
        committed := s.writes w.committed
        log := w.log ++ [⟨s.call, s.draws, r, s.released⟩] }
  | abort (t : ℕ) (s) (h : w.sessions t = some s) : LockStep sys conflicts w (w.set t none)

/-- The session asks for this lock next. -/
def Session.Requests (s : Session σ κ ι ε ρ γ) (r : κ) : Prop := ∃ next, s.program = .lock r next

/-- Transaction `t` waits for `u`: either `u` holds a lock that conflicts with the one `t`
asks for, or `u` asks for such a lock and queued first. Whoever holds a lock that the
earlier one waits for is let in front of it. -/
def World.WaitsFor (conflicts : κ → κ → Prop) (place : ℕ → ℕ) (w : World σ κ ι ε ρ γ)
    (t u : ℕ) : Prop :=
  t ≠ u ∧ ∃ s s' r x, w.sessions t = some s ∧ w.sessions u = some s' ∧ s.Requests r ∧
    conflicts r x ∧
    (x ∈ s'.locks ∨ s'.Requests x ∧ place u < place t ∧ ∀ h ∈ s.locks, ¬ conflicts h x)

/-- Which locks exclude each other, and the order they are to be taken in. -/
structure LockOrder (κ α : Type) [Preorder α] where
  Conflicts : κ → κ → Prop
  symm : ∀ {r x}, Conflicts r x → Conflicts x r
  rank : κ → α
  rank_eq : ∀ {r x}, Conflicts r x → rank r = rank x

variable [Preorder α] (o : LockOrder κ α) (V : σ → Prop)

namespace LockOrder

/-- Some held lock excludes all that the request would exclude. -/
def Covers (held : List κ) (r : κ) : Prop := ∃ h ∈ held, ∀ x, o.Conflicts r x → o.Conflicts h x

/-- The request is covered or comes after all held locks. -/
def Admits (held : List κ) (r : κ) : Prop := o.Covers held r ∨ ∀ h ∈ held, o.rank h < o.rank r

theorem Covers.of_mem {held : List κ} {r : κ} (h : r ∈ held) : o.Covers held r := ⟨r, h, fun _ => id⟩

end LockOrder

namespace Program

variable {β δ : Type}

/-- On snapshots with `V`, which its writes keep, the routine takes its locks in order. -/
def Ordered (Q : β → List κ → List (List κ) → Prop) :
    Program σ κ ι ε ρ β → List κ → List (List κ) → Prop
  | .pure a, held, marks => Q a held marks
  | .ret _, _, _ => True
  | .raise _, _, _ => True
  | .lock r next, held, marks => o.Admits held r ∧ Ordered Q next (r :: held) marks
  | .nextval _ next, held, marks => ∀ n, Ordered Q (next n) held marks
  | .statement write next, held, marks =>
    ∀ v, V v → (∀ c, V c → V (write v c)) ∧ Ordered Q (next v) held marks
  | .savepoint next, held, marks => Ordered Q next held (held :: marks)
  | .rollback _, _, [] => True
  | .rollback next, _, mark :: marks => Ordered Q next mark marks

/-- Take several locks, one after another. -/
def acquireAll : List κ → Program σ κ ι ε ρ Unit
  | [] => .pure ()
  | r :: rest => .lock r (acquireAll rest)

/-- Rename the locks. -/
def mapLocks {κ' : Type} (f : κ → κ') : Program σ κ ι ε ρ β → Program σ κ' ι ε ρ β
  | .pure a => .pure a
  | .ret r => .ret r
  | .raise e => .raise e
  | .lock key next => .lock (f key) (next.mapLocks f)
  | .nextval s next => .nextval s fun n => (next n).mapLocks f
  | .statement write next => .statement write fun v => (next v).mapLocks f
  | .savepoint next => .savepoint (next.mapLocks f)
  | .rollback next => .rollback (next.mapLocks f)

end Program

end CafeFausse.Transaction
