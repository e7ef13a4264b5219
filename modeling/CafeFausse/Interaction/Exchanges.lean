import Mathlib

/-! # Numbered requests

A component that counts its requests and keeps only the answer to the one with the current
count. The count can also be raised without a request, so that no answer on its way counts
any more. The log of the exchanges carries the order of its numbers.
-/

namespace CafeFausse.Interaction

/-- A request and its answer, once it has come. -/
structure Exchange (κ α : Type) where
  number : ℕ
  query : κ
  answer : Option α
  deriving DecidableEq

/-- The count and the log, in the order of the requests. -/
structure Exchanges (κ α : Type) where
  counter : ℕ
  log : List (Exchange κ α)
  increasing : log.Pairwise (·.number < ·.number)
  le_counter : ∀ x ∈ log, x.number ≤ counter

namespace Exchanges

variable {κ α : Type}

def empty : Exchanges κ α := ⟨0, [], .nil, by simp⟩

/-- The request that was sent last. -/
def latest (x : Exchanges κ α) : Option (Exchange κ α) := x.log.getLast?

/-- The count is raised. -/
def skip (x : Exchanges κ α) : Exchanges κ α where
  counter := x.counter + 1
  log := x.log
  increasing := x.increasing
  le_counter e he := (x.le_counter e he).trans (Nat.le_succ _)

/-- A request is sent with the next number. -/
def send (x : Exchanges κ α) (query : κ) : Exchanges κ α where
  counter := x.counter + 1
  log := x.log ++ [⟨x.counter + 1, query, none⟩]
  increasing := by
    refine List.pairwise_append.mpr ⟨x.increasing, List.pairwise_singleton _ _, ?_⟩
    rintro e he _ hlast
    rw [List.mem_singleton.mp hlast]
    exact Nat.lt_succ_of_le (x.le_counter e he)
  le_counter e he := by
    rcases List.mem_append.mp he with he | he
    · exact (x.le_counter e he).trans (Nat.le_succ _)
    · exact (congrArg Exchange.number (List.mem_singleton.mp he)).le

/-- The exchange with its answer, if it has the number. -/
def Exchange.settle (n : ℕ) (answer : α) (e : Exchange κ α) : Exchange κ α :=
  if e.number = n then { e with answer := some answer } else e

@[simp] theorem Exchange.number_settle {n : ℕ} {answer : α} {e : Exchange κ α} :
    (Exchange.settle n answer e).number = e.number := by
  unfold Exchange.settle
  split <;> rfl

/-- The request with this number, if it has not been answered, and the log with its answer. -/
def settle (x : Exchanges κ α) (n : ℕ) (answer : α) :
    Option (Exchange κ α × Exchanges κ α) :=
  (x.log.find? fun e => e.number = n ∧ e.answer.isNone).map fun e => (e,
    { x with
      log := x.log.map (Exchange.settle n answer)
      increasing := by simpa [List.pairwise_map] using x.increasing
      le_counter := by simpa using x.le_counter })

/-- No answer that is on its way counts. -/
def Settled (x : Exchanges κ α) : Prop :=
  ∀ e ∈ x.log, e.number = x.counter → e.answer ≠ none

section Rules

variable {x x' : Exchanges κ α} {e : Exchange κ α} {n : ℕ} {query : κ} {answer : α}

@[simp] theorem latest_skip : x.skip.latest = x.latest := rfl

@[simp] theorem latest_send : (x.send query).latest = some ⟨x.counter + 1, query, none⟩ := by
  simp [latest, send]

theorem settled_skip : x.skip.Settled := by
  intro e he hn
  have := x.le_counter e he
  simp only [skip] at hn
  omega

/-- The number of the current count belongs to the request that was sent last. -/
theorem latest_eq (he : e ∈ x.log) (hn : e.number = x.counter) : x.latest = some e := by
  obtain ⟨front, back, heq⟩ := List.append_of_mem he
  rcases List.eq_nil_or_concat back with rfl | ⟨back, last, rfl⟩
  · simp [latest, heq]
  · -- a later request would have a number above the count
    have hlast : last ∈ x.log := by simp [heq]
    have hlt : e.number < last.number := by
      have := x.increasing
      rw [heq, List.pairwise_append, List.pairwise_cons] at this
      exact this.2.1.1 last (by simp)
    have := x.le_counter last hlast
    omega

theorem mem_of_latest (h : x.latest = some e) : e ∈ x.log := List.mem_of_getLast? h

theorem settle_eq_some (h : x.settle n answer = some (e, x')) :
    e ∈ x.log ∧ e.number = n ∧ e.answer = none ∧ x'.counter = x.counter ∧
      x'.log = x.log.map (Exchange.settle n answer) := by
  obtain ⟨found, hfound, heq⟩ := Option.map_eq_some_iff.mp h
  cases heq
  have := List.find?_some hfound
  simp only [decide_eq_true_eq, Option.isNone_iff_eq_none] at this
  exact ⟨List.mem_of_find?_eq_some hfound, this.1, this.2, rfl, rfl⟩

/-- Once the current request is answered, no answer on its way counts. -/
theorem settled_settle (h : x.settle n answer = some (e, x')) (hn : n = x.counter) :
    x'.Settled := by
  obtain ⟨-, -, -, hcounter, hlog⟩ := settle_eq_some h
  intro y hy hnum
  rw [hlog] at hy
  obtain ⟨z, -, rfl⟩ := List.mem_map.mp hy
  rw [hcounter, Exchange.number_settle] at hnum
  simp [Exchange.settle, hnum, hn]

theorem latest_settle_of_eq (h : x.settle n answer = some (e, x')) (hn : n = x.counter) :
    x'.latest = some { e with answer := some answer } := by
  obtain ⟨hmem, henum, -, hcounter, hlog⟩ := settle_eq_some h
  refine latest_eq ?_ (by rw [hcounter]; exact henum.trans hn)
  rw [hlog]
  exact List.mem_map.mpr ⟨e, hmem, if_pos henum⟩

/-- The answer to an earlier request does not touch the last one. -/
theorem latest_settle_of_ne (h : x.settle n answer = some (e, x')) {last : Exchange κ α}
    (hlast : x.latest = some last) (hnum : last.number = x.counter) (hn : n ≠ x.counter) :
    x'.latest = some last := by
  obtain ⟨-, -, -, hcounter, hlog⟩ := settle_eq_some h
  refine latest_eq ?_ (by rw [hcounter]; exact hnum)
  rw [hlog]
  exact List.mem_map.mpr ⟨last, mem_of_latest hlast, if_neg (hnum ▸ hn.symm)⟩

end Rules

end Exchanges

end CafeFausse.Interaction
