import Mathlib.Data.Nat.Digits.Lemmas

/-! # Decimal numerals

Numerals over any alphabet with ten digits, zero-padded to a width, and their value.
-/

namespace CafeFausse.Format

/-- The digits of an alphabet and what they are worth. -/
structure Digits (α : Type*) where
  digit : ℕ → α
  worth : α → ℕ
  worth_digit : ∀ n < 10, worth (digit n) = n

namespace Digits

variable {α : Type*} (D : Digits α) {width n : ℕ}

/-- `n`, in as many digits as it needs and at least in `width`. -/
def padded (width n : ℕ) : List α := (Nat.digitsAppend 10 width n).reverse.map D.digit

/-- `n` without leading zeros. -/
def decimal (n : ℕ) : List α := D.padded 1 n

def value (t : List α) : ℕ := Nat.ofDigits 10 (t.reverse.map D.worth)

theorem mem_padded {c : α} (h : c ∈ D.padded width n) : ∃ d < 10, c = D.digit d := by
  obtain ⟨d, hd, rfl⟩ := List.mem_map.mp h
  exact ⟨d, Nat.lt_of_mem_digitsAppend (by decide) width d (List.mem_reverse.mp hd), rfl⟩

theorem length_padded (h : n < 10 ^ width) : (D.padded width n).length = width := by
  rw [padded, List.length_map, List.length_reverse, Nat.length_digitsAppend (by decide) width h]

@[simp] theorem value_padded : D.value (D.padded width n) = n := by
  have hworth : ∀ d ∈ Nat.digitsAppend 10 width n, (D.worth ∘ D.digit) d = d := fun d hd =>
    D.worth_digit d (Nat.lt_of_mem_digitsAppend (by decide) width d hd)
  rw [value, padded, ← List.map_reverse, List.reverse_reverse, List.map_map,
    List.map_congr_left hworth, List.map_id', Nat.digitsAppend, Nat.ofDigits_append_replicate_zero,
    Nat.ofDigits_digits]

theorem padded_inj {m : ℕ} : D.padded width m = D.padded width n ↔ m = n := by
  constructor
  · intro h
    have := congrArg D.value h
    rwa [value_padded, value_padded] at this
  · rintro rfl
    rfl

/-- A numeral of known width is read off the text that it begins. -/
theorem padded_append_inj {m : ℕ} {r s : List α} (hm : m < 10 ^ width) (hn : n < 10 ^ width)
    (h : D.padded width m ++ r = D.padded width n ++ s) : m = n ∧ r = s := by
  have hlength : (D.padded width m).length = (D.padded width n).length := by
    rw [D.length_padded hm, D.length_padded hn]
  obtain ⟨hmn, hrs⟩ := List.append_inj h hlength
  exact ⟨D.padded_inj.mp hmn, hrs⟩

/-- The number in the first letters of a text, and what follows. -/
def read (width : ℕ) (t : List α) : ℕ × List α := (D.value (t.take width), t.drop width)

theorem read_padded_append {r : List α} (h : n < 10 ^ width) :
    D.read width (D.padded width n ++ r) = (n, r) := by
  have hlength := D.length_padded h
  rw [read, List.take_left' hlength, List.drop_left' hlength, value_padded]

theorem read_padded (h : n < 10 ^ width) : D.read width (D.padded width n) = (n, []) := by
  rw [← D.read_padded_append h, List.append_nil]

end Digits

end CafeFausse.Format
