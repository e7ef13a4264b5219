import CafeFausse.Format.Numerals

/-! # Length-prefixed fields

A field is preceded by its size as a decimal numeral and a mark. Fields written one after the
other can be told apart whatever they hold.
-/

namespace CafeFausse.Format

variable {α : Type*}

/-- What stands before the first mark is determined. -/
theorem append_mark_inj {mark : α} : ∀ {x y r s : List α}, mark ∉ x → mark ∉ y →
    x ++ mark :: r = y ++ mark :: s → x = y ∧ r = s
  | [], [], _, _, _, _, h => ⟨rfl, List.tail_eq_of_cons_eq h⟩
  | [], b :: y, _, _, _, hy, h => by
    rw [List.nil_append, List.cons_append] at h
    exact absurd (List.head_eq_of_cons_eq h ▸ List.mem_cons_self) hy
  | a :: x, [], _, _, hx, _, h => by
    rw [List.nil_append, List.cons_append] at h
    exact absurd (List.head_eq_of_cons_eq h ▸ List.mem_cons_self) hx
  | a :: x, b :: y, _, _, hx, hy, h => by
    rw [List.cons_append, List.cons_append] at h
    obtain ⟨hxy, hrs⟩ := append_mark_inj (fun h' => hx (List.mem_cons_of_mem a h'))
      (fun h' => hy (List.mem_cons_of_mem b h')) (List.tail_eq_of_cons_eq h)
    rw [List.head_eq_of_cons_eq h, hxy]
    exact ⟨rfl, hrs⟩

/-- So is a prefix of known size. -/
theorem append_inj_of_size {size : α → ℕ} (hsize : ∀ a, 0 < size a) :
    ∀ {x y r s : List α}, (x.map size).sum = (y.map size).sum → x ++ r = y ++ s → x = y ∧ r = s
  | [], [], _, _, _, h => ⟨rfl, h⟩
  | [], b :: y, _, _, hsum, _ => by
    have := hsize b
    simp only [List.map_nil, List.sum_nil, List.map_cons, List.sum_cons] at hsum
    omega
  | a :: x, [], _, _, hsum, _ => by
    have := hsize a
    simp only [List.map_nil, List.sum_nil, List.map_cons, List.sum_cons] at hsum
    omega
  | a :: x, b :: y, _, _, hsum, h => by
    rw [List.cons_append, List.cons_append] at h
    obtain rfl := List.head_eq_of_cons_eq h
    simp only [List.map_cons, List.sum_cons, Nat.add_left_cancel_iff] at hsum
    obtain ⟨rfl, hrs⟩ := append_inj_of_size hsize hsum (List.tail_eq_of_cons_eq h)
    exact ⟨rfl, hrs⟩

/-- How fields are framed: the digits of their sizes, the mark after those, and how much each
letter takes. -/
structure Framing (α : Type*) extends Digits α where
  mark : α
  size : α → ℕ
  mark_ne_digit : ∀ n < 10, mark ≠ digit n
  size_pos : ∀ a, 0 < size a

namespace Framing

variable (F : Framing α) {x y r s : List α}

def frame (x : List α) : List α := F.decimal (x.map F.size).sum ++ F.mark :: x

theorem mark_not_mem_decimal (n : ℕ) : F.mark ∉ F.decimal n := by
  intro h
  obtain ⟨d, hd, heq⟩ := F.mem_padded h
  exact F.mark_ne_digit d hd heq

/-- A framed field ends where it says. -/
theorem frame_append_inj (h : F.frame x ++ r = F.frame y ++ s) : x = y ∧ r = s := by
  simp only [frame, List.append_assoc, List.cons_append] at h
  obtain ⟨hsize, hrest⟩ :=
    append_mark_inj (F.mark_not_mem_decimal _) (F.mark_not_mem_decimal _) h
  exact append_inj_of_size F.size_pos (F.padded_inj.mp hsize) hrest

end Framing

end CafeFausse.Format
