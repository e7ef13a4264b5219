import Mathlib

/-! # Subsets by mask

The numbers below `2 ^ n` enumerate the subsets of a list of length `n`: the bits of a
mask tell which positions are taken.
-/

namespace CafeFausse.Sql

variable {α : Type}

/-- The elements at the positions whose bit the mask sets. -/
def chosen (mask : ℕ) (l : List α) : List α :=
  (l.zipIdx.filter fun p => mask.testBit p.2).map Prod.fst

/-- The subsets of a list, in the order of their masks. -/
def masked (l : List α) : List (List α) := (List.range (2 ^ l.length)).map fun mask => chosen mask l

@[simp] theorem chosen_nil (mask : ℕ) : chosen mask ([] : List α) = [] := rfl

theorem chosen_cons (mask : ℕ) (a : α) (l : List α) :
    chosen mask (a :: l) = if mask.testBit 0 then a :: chosen (mask / 2) l else chosen (mask / 2) l := by
  have htail : ((l.zipIdx 1).filter fun p => mask.testBit p.2).map Prod.fst =
      chosen (mask / 2) l := by
    rw [List.zipIdx_succ, List.filter_map, List.map_map]
    simp only [chosen, Function.comp_def, Nat.testBit_succ]
  unfold chosen at htail ⊢
  rw [List.zipIdx_cons, List.filter_cons]
  split <;> simp [htail]

theorem chosen_sublist (mask : ℕ) (l : List α) : (chosen mask l).Sublist l := by
  induction l generalizing mask with
  | nil => simp
  | cons a l ih =>
    rw [chosen_cons]
    split
    · exact (ih _).cons_cons a
    · exact (ih _).cons a

theorem exists_chosen {s l : List α} (h : s.Sublist l) :
    ∃ mask < 2 ^ l.length, chosen mask l = s := by
  induction h with
  | slnil => exact ⟨0, by simp, rfl⟩
  | @cons s l a _ ih =>
    obtain ⟨mask, hlt, rfl⟩ := ih
    refine ⟨2 * mask, by rw [List.length_cons, pow_succ]; omega, ?_⟩
    rw [chosen_cons, if_neg (by simp), Nat.mul_div_cancel_left _ (by decide)]
  | @cons_cons s l a _ ih =>
    obtain ⟨mask, hlt, rfl⟩ := ih
    refine ⟨2 * mask + 1, by rw [List.length_cons, pow_succ]; omega, ?_⟩
    rw [chosen_cons, if_pos (by simp), show (2 * mask + 1) / 2 = mask by omega]

theorem mem_masked {s l : List α} : s ∈ masked l ↔ s.Sublist l := by
  simp only [masked, List.mem_map, List.mem_range]
  exact ⟨fun ⟨mask, _, h⟩ => h ▸ chosen_sublist mask l, exists_chosen⟩

/-- Masks of different subsets differ. -/
theorem chosen_injOn {l : List α} (h : l.Nodup) {a b : ℕ} (ha : a < 2 ^ l.length)
    (hb : b < 2 ^ l.length) (he : chosen a l = chosen b l) : a = b := by
  induction l generalizing a b with
  | nil => simp only [List.length_nil, pow_zero] at ha hb; omega
  | cons x l ih =>
    obtain ⟨hx, hl⟩ := List.nodup_cons.mp h
    rw [List.length_cons, pow_succ] at ha hb
    have hmem : ∀ mask, x ∉ chosen mask l := fun mask hm => hx ((chosen_sublist mask l).mem hm)
    have hbits : a.testBit 0 = b.testBit 0 := by
      rw [chosen_cons, chosen_cons] at he
      by_contra hne
      split at he <;> split at he
      · simp_all
      · exact hmem _ (he ▸ List.mem_cons_self ..)
      · exact hmem _ (he ▸ List.mem_cons_self ..)
      · simp_all
    have hhalves : chosen (a / 2) l = chosen (b / 2) l := by
      rw [chosen_cons, chosen_cons, hbits] at he
      split at he
      · exact (List.cons.inj he).2
      · exact he
    have hhalf := ih hl (by omega) (by omega) hhalves
    simp only [Nat.testBit_zero, decide_eq_decide] at hbits
    omega

theorem nodup_masked {l : List α} (h : l.Nodup) : (masked l).Nodup :=
  List.nodup_range.map_on fun _ ha _ hb he =>
    chosen_injOn h (List.mem_range.mp ha) (List.mem_range.mp hb) he

/-- A function that tells the elements of a list apart tells its subsets apart. -/
theorem eq_of_map_eq {β : Type} {f : α → β} {l s t : List α} (hf : (l.map f).Nodup)
    (hs : s.Sublist l) (ht : t.Sublist l) (h : s.map f = t.map f) : s = t := by
  have hinj : ∀ a ∈ s, ∀ b ∈ t, f a = f b → a = b := fun a ha b hb hab =>
    List.inj_on_of_nodup_map hf (hs.mem ha) (ht.mem hb) hab
  clear hs ht
  induction s generalizing t with
  | nil => simpa using h.symm
  | cons a s ih =>
    obtain ⟨b, t, rfl, hab, hst⟩ := List.map_eq_cons_iff.mp h.symm
    rw [hinj a (List.mem_cons_self ..) b (List.mem_cons_self ..) hab.symm,
      ih hst.symm fun a ha b hb => hinj a (List.mem_cons_of_mem _ ha) b (List.mem_cons_of_mem _ hb)]

end CafeFausse.Sql
