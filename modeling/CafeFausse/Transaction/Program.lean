import Mathlib

/-! # Routines as statement trees

A stored routine is a tree of statements. Each statement sees one snapshot,
adds its own writes and chooses how the routine goes on. Advisory locks,
sequence draws and exception blocks are nodes of their own, so that one tree
carries both the meaning of a lone call and that of interleaved calls.
-/

namespace CafeFausse.Transaction

/-- A routine over snapshots `σ`, lock keys `κ`, sequences `ι` and errors `ε`. It
continues with a value, returns a row of type `ρ` to its caller, or raises. -/
inductive Program (σ κ ι ε ρ α : Type) where
  | pure (a : α)
  | ret (r : ρ)
  | raise (e : ε)
  | lock (key : κ) (next : Program σ κ ι ε ρ α)
  | nextval (s : ι) (next : ℕ → Program σ κ ι ε ρ α)
  | statement (write : σ → σ → σ) (next : σ → Program σ κ ι ε ρ α)
  | savepoint (next : Program σ κ ι ε ρ α)
  | rollback (next : Program σ κ ι ε ρ α)

namespace Program

variable {σ κ ι ε ρ α β γ : Type}

/-- Sequencing. A routine that has returned or raised does not go on. -/
def bind : Program σ κ ι ε ρ α → (α → Program σ κ ι ε ρ β) → Program σ κ ι ε ρ β
  | .pure a, f => f a
  | .ret r, _ => .ret r
  | .raise e, _ => .raise e
  | .lock key next, f => .lock key (next.bind f)
  | .nextval s next, f => .nextval s fun n => (next n).bind f
  | .statement write next, f => .statement write fun v => (next v).bind f
  | .savepoint next, f => .savepoint (next.bind f)
  | .rollback next, f => .rollback (next.bind f)

instance : Monad (Program σ κ ι ε ρ) where
  pure := .pure
  bind := .bind

@[simp] theorem pure_eq (a : α) : (Pure.pure a : Program σ κ ι ε ρ α) = .pure a := rfl
@[simp] theorem bind_eq (p : Program σ κ ι ε ρ α) (f : α → Program σ κ ι ε ρ β) :
    p >>= f = p.bind f := rfl
@[simp] theorem pure_bind (a : α) (f : α → Program σ κ ι ε ρ β) : (pure a).bind f = f a := rfl
@[simp] theorem ret_bind (r : ρ) (f : α → Program σ κ ι ε ρ β) : (ret r).bind f = .ret r := rfl
@[simp] theorem raise_bind (e : ε) (f : α → Program σ κ ι ε ρ β) :
    (raise e).bind f = .raise e := rfl

/-- Read the snapshot without writing. -/
def query (q : σ → α) : Program σ κ ι ε ρ α := .statement (fun _ v => v) fun v => .pure (q v)

/-- A data change: the snapshot either rejects it or fixes the write and the value
it hands back. -/
def execute (f : σ → Except ε (α × (σ → σ))) : Program σ κ ι ε ρ α :=
  .statement (fun v => match f v with | .ok (_, w) => w | .error _ => fun c => c)
    fun v => match f v with | .ok (a, _) => .pure a | .error e => .raise e

/-- A data change in a block of its own, whose error is a value to go on with. -/
def attempt (f : σ → Except ε (α × (σ → σ))) : Program σ κ ι ε ρ (Except ε α) :=
  .statement (fun v => match f v with | .ok (_, w) => w | .error _ => fun c => c)
    fun v => .pure (match f v with | .ok (a, _) => .ok a | .error e => .error e)

/-- Take the value or raise the error. -/
def liftExcept : Except ε α → Program σ κ ι ε ρ α
  | .ok a => .pure a
  | .error e => .raise e

/-- Acquire a transaction-level advisory lock. -/
def acquire (key : κ) : Program σ κ ι ε ρ Unit := .lock key (.pure ())

/-- Draw the next number of a sequence. -/
def draw (s : ι) : Program σ κ ι ε ρ ℕ := .nextval s .pure

/-- Replace the errors the handler catches by a rollback to the enclosing
savepoint, followed by the handler. -/
def handle (h : ε → Option (Program σ κ ι ε ρ α)) : Program σ κ ι ε ρ α → Program σ κ ι ε ρ α
  | .pure a => .pure a
  | .ret r => .ret r
  | .raise e => match h e with | some p => .rollback p | none => .raise e
  | .lock key next => .lock key (next.handle h)
  | .nextval s next => .nextval s fun n => (next n).handle h
  | .statement write next => .statement write fun v => (next v).handle h
  | .savepoint next => .savepoint (next.handle h)
  | .rollback next => .rollback (next.handle h)

/-- An exception block none of whose paths falls through its end. -/
def exceptionBlock (h : ε → Option (Program σ κ ι ε ρ Empty))
    (body : Program σ κ ι ε ρ Empty) : Program σ κ ι ε ρ Empty :=
  .savepoint (body.handle h)

/-- How a routine ends. -/
inductive Exit (ε ρ α : Type) where
  | value (a : α)
  | returned (r : ρ)
  | raised (e : ε)
  deriving DecidableEq

/-- What a lone call works on: the snapshot with its own writes, the snapshots of
its open savepoints and the numbers its sequences will give out. -/
structure Memory (σ ι : Type) where
  view : σ
  marks : List σ
  supply : ι → ℕ → ℕ

variable [DecidableEq ι]

/-- Drop the number a sequence gives out next. -/
def advance (supply : ι → ℕ → ℕ) (s : ι) : ι → ℕ → ℕ :=
  Function.update supply s fun i => supply s (i + 1)

/-- The meaning of a call that nothing runs beside. -/
def run : Program σ κ ι ε ρ α → Memory σ ι → Exit ε ρ α × Memory σ ι
  | .pure a, m => (.value a, m)
  | .ret r, m => (.returned r, m)
  | .raise e, m => (.raised e, m)
  | .lock _ next, m => next.run m
  | .nextval s next, m => (next (m.supply s 0)).run { m with supply := advance m.supply s }
  | .statement write next, m => (next m.view).run { m with view := write m.view m.view }
  | .savepoint next, m => next.run { m with marks := m.view :: m.marks }
  | .rollback next, m => next.run { m with view := m.marks.headD m.view, marks := m.marks.tail }

@[simp] theorem run_pure (a : α) (m : Memory σ ι) :
    (pure a : Program σ κ ι ε ρ α).run m = (.value a, m) := rfl
@[simp] theorem run_ret (r : ρ) (m : Memory σ ι) :
    (ret r : Program σ κ ι ε ρ α).run m = (.returned r, m) := rfl
@[simp] theorem run_raise (e : ε) (m : Memory σ ι) :
    (raise e : Program σ κ ι ε ρ α).run m = (.raised e, m) := rfl

theorem run_bind (p : Program σ κ ι ε ρ α) (f : α → Program σ κ ι ε ρ β) (m : Memory σ ι) :
    (p.bind f).run m = match p.run m with
      | (.value a, m') => (f a).run m'
      | (.returned r, m') => (.returned r, m')
      | (.raised e, m') => (.raised e, m') := by
  induction p generalizing m <;> simp_all [bind, run]

end Program

end CafeFausse.Transaction
