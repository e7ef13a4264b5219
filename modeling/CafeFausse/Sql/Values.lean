import Mathlib

/-! # Conditions and aggregates

A condition over possibly missing values is true, false or unknown, and a branch is
taken only where it is true. Aggregates of no rows are missing, except counts.
-/

namespace CafeFausse.Sql

variable {α : Type}

/-- `a OR b` over true, false and unknown. -/
def or : Option Bool → Option Bool → Option Bool
  | some true, _ => some true
  | _, some true => some true
  | some false, some false => some false
  | _, _ => none

/-- `a < b` of possibly missing numbers. -/
def less (a b : Option ℤ) : Option Bool := a.bind fun a => b.map fun b => decide (a < b)

@[simp] theorem or_eq_true {a b : Option Bool} : or a b = some true ↔ a = some true ∨ b = some true := by
  rcases a with - | - | - <;> rcases b with - | - | - <;> simp [or]

@[simp] theorem less_eq_true {a b : ℤ} : less (some a) (some b) = some true ↔ a < b := by
  simp [less]

@[simp] theorem less_none_left {b : Option ℤ} : less none b = none := rfl
@[simp] theorem less_none_right {a : Option ℤ} : less a none = none := by cases a <;> rfl

/-- `array_agg(x)`. -/
def arrayAgg (xs : List α) : Option (List α) := if xs = [] then none else some xs

/-- `sum(x)`. -/
def sum (xs : List ℤ) : Option ℤ := if xs = [] then none else some xs.sum

/-- `ORDER BY key`. -/
def orderBy (key : α → ℤ) (xs : List α) : List α := xs.insertionSort fun a b => key a ≤ key b

theorem orderBy_perm (key : α → ℤ) (xs : List α) : (orderBy key xs).Perm xs :=
  List.perm_insertionSort _ xs

@[simp] theorem mem_orderBy {key : α → ℤ} {xs : List α} {a : α} : a ∈ orderBy key xs ↔ a ∈ xs :=
  (orderBy_perm key xs).mem_iff

@[simp] theorem length_orderBy (key : α → ℤ) (xs : List α) : (orderBy key xs).length = xs.length :=
  (orderBy_perm key xs).length_eq

theorem orderBy_pairwise (key : α → ℤ) (xs : List α) :
    (orderBy key xs).Pairwise fun a b => key a ≤ key b := by
  have : Std.Total fun a b : α => key a ≤ key b := ⟨fun a b => le_total (key a) (key b)⟩
  have : IsTrans α fun a b => key a ≤ key b := ⟨fun _ _ _ => le_trans⟩
  exact List.pairwise_insertionSort _ xs

/-- Distinct keys come out in strictly ascending order. -/
theorem orderBy_pairwise_lt {key : α → ℤ} {xs : List α} (h : (xs.map key).Nodup) :
    (orderBy key xs).Pairwise fun a b => key a < key b := by
  have hn : ((orderBy key xs).map key).Nodup := ((orderBy_perm key xs).map key).nodup_iff.mpr h
  rw [List.nodup_iff_pairwise_ne, List.pairwise_map] at hn
  exact (orderBy_pairwise key xs).imp₂ (fun _ _ hle hne => lt_of_le_of_ne hle hne) hn

end CafeFausse.Sql
