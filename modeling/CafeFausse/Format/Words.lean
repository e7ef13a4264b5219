import Mathlib

/-! # Words and the spaces around them

A list is trimmed of the spaces at both ends, or cut into the words between them.
-/

namespace CafeFausse.Format

variable {α β : Type*} {p : α → Bool} {l : List α}

section Trim

/-- `l` without the spaces at both ends. -/
def trim (p : α → Bool) (l : List α) : List α := ((l.dropWhile p).reverse.dropWhile p).reverse

theorem trim_sublist (p : α → Bool) (l : List α) : (trim p l).Sublist l := by
  have h : (trim p l).Sublist (l.dropWhile p) := by
    rw [← List.reverse_sublist, trim, List.reverse_reverse]
    exact List.dropWhile_sublist p
  exact h.trans (List.dropWhile_sublist p)

theorem dropWhile_eq_self_of_forall (h : ∀ x ∈ l, p x = false) : l.dropWhile p = l := by
  cases l with
  | nil => rfl
  | cons x l =>
    rw [List.dropWhile_cons_of_neg]
    rw [h x List.mem_cons_self]
    exact Bool.false_ne_true

/-- A list without spaces stays what it is. -/
theorem trim_eq_self (h : ∀ x ∈ l, p x = false) : trim p l = l := by
  have hreverse : ∀ x ∈ l.reverse, p x = false := fun x hx => h x (List.mem_reverse.mp hx)
  rw [trim, dropWhile_eq_self_of_forall h, dropWhile_eq_self_of_forall hreverse,
    List.reverse_reverse]

theorem filter_dropWhile {q : α → Bool} (h : ∀ x, p x = true → q x = false) :
    (l.dropWhile p).filter q = l.filter q := by
  induction l with
  | nil => rfl
  | cons x l ih =>
    by_cases hx : p x = true
    · rw [List.dropWhile_cons_of_pos hx, ih, List.filter_cons_of_neg]
      rw [h x hx]
      exact Bool.false_ne_true
    · rw [List.dropWhile_cons_of_neg hx]

/-- All elements that are no spaces stay. -/
theorem filter_trim {q : α → Bool} (h : ∀ x, p x = true → q x = false) :
    (trim p l).filter q = l.filter q := by
  rw [trim, List.filter_reverse, filter_dropWhile h, List.filter_reverse, List.reverse_reverse,
    filter_dropWhile h]

end Trim

section Split

/-- Cutting a list commutes with a map that keeps the marks. -/
theorem splitOnP_map {f : α → β} {p : α → Bool} {q : β → Bool} (h : ∀ x, q (f x) = p x) :
    (l.map f).splitOnP q = (l.splitOnP p).map (List.map f) := by
  induction l with
  | nil => rfl
  | cons x l ih =>
    rw [List.map_cons, List.splitOnP_cons_eq_if_modifyHead, List.splitOnP_cons_eq_if_modifyHead,
      h, ih]
    obtain ⟨head, rest, heq⟩ := List.exists_cons_of_ne_nil (List.splitOnP_ne_nil p l)
    rw [heq]
    split
    · rfl
    · rfl

/-- An element is a mark or stands in one of the pieces. -/
theorem mem_splitOnP {x : α} (hx : x ∈ l) : p x = true ∨ ∃ w ∈ l.splitOnP p, x ∈ w := by
  induction l with
  | nil => cases hx
  | cons y l ih =>
    rw [List.splitOnP_cons_eq_if_modifyHead]
    obtain ⟨head, rest, heq⟩ := List.exists_cons_of_ne_nil (List.splitOnP_ne_nil p l)
    rw [heq] at ih ⊢
    by_cases hy : p y = true
    · rw [if_pos hy]
      rcases List.mem_cons.mp hx with rfl | hx
      · exact .inl hy
      · exact (ih hx).imp_right fun ⟨w, hw, hxw⟩ => ⟨w, List.mem_cons_of_mem _ hw, hxw⟩
    · rw [if_neg hy, List.modifyHead_cons]
      rcases List.mem_cons.mp hx with rfl | hx
      · exact .inr ⟨x :: head, List.mem_cons_self, List.mem_cons_self⟩
      · refine (ih hx).imp_right ?_
        rintro ⟨w, hw, hxw⟩
        rcases List.mem_cons.mp hw with rfl | hw
        · exact ⟨y :: w, List.mem_cons_self, List.mem_cons_of_mem y hxw⟩
        · exact ⟨w, List.mem_cons_of_mem _ hw, hxw⟩

/-- A mark stands between any two pieces. -/
theorem sum_length_splitOnP (p : α → Bool) (l : List α) :
    ((l.splitOnP p).map List.length).sum + (l.splitOnP p).length = l.length + 1 := by
  induction l with
  | nil => rfl
  | cons x l ih =>
    rw [List.splitOnP_cons_eq_if_modifyHead]
    obtain ⟨head, rest, heq⟩ := List.exists_cons_of_ne_nil (List.splitOnP_ne_nil p l)
    rw [heq] at ih ⊢
    split
    · simp only [List.map_cons, List.sum_cons, List.length_cons, List.length_nil] at ih ⊢
      omega
    · simp only [List.modifyHead_cons, List.map_cons, List.sum_cons, List.length_cons] at ih ⊢
      omega

end Split

section Join

theorem length_intercalate (x : α) (l : List (List α)) :
    (List.intercalate [x] l).length = (l.map List.length).sum + (l.length - 1) := by
  induction l with
  | nil => rfl
  | cons w l ih =>
    cases l with
    | nil => simp only [List.intercalate_singleton, List.map_cons, List.map_nil, List.sum_cons,
        List.sum_nil, List.length_cons, List.length_nil, Nat.add_sub_cancel, Nat.add_zero]
    | cons w' l =>
      rw [List.intercalate_cons_cons, List.length_append, List.length_append, ih,
        List.length_singleton]
      simp only [List.map_cons, List.sum_cons, List.length_cons]
      omega

theorem sum_length_filter (l : List (List α)) :
    ((l.filter (· ≠ [])).map List.length).sum = (l.map List.length).sum := by
  induction l with
  | nil => rfl
  | cons w l ih =>
    cases w with
    | nil => simpa using ih
    | cons x w => simpa using ih

/-- Joining the words with one mark between them makes nothing longer. -/
theorem length_words_le (x : α) (p : α → Bool) (l : List α) :
    (List.intercalate [x] ((l.splitOnP p).filter (· ≠ []))).length ≤ l.length := by
  have hpieces := sum_length_splitOnP p l
  have hwords : ((l.splitOnP p).filter (· ≠ [])).length ≤ (l.splitOnP p).length :=
    List.length_filter_le _ _
  have hsome := List.length_pos_of_ne_nil (List.splitOnP_ne_nil p l)
  rw [length_intercalate, sum_length_filter]
  omega

end Join

end CafeFausse.Format
