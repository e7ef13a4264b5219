import Mathlib.Tactic

/-! # Clocks that are set now and then

A clock shows one reading at each moment and runs with the time, except at the moments at
which it is set. Set forward it skips readings, set back it repeats some. If it is never
set by much and only once around a reading, that reading is shown not at all, once or twice.
-/

namespace CafeFausse.Clock

variable {f : ℤ → ℤ} {l s t u w d : ℤ}

/-- The clock is set at `t`. -/
def SetAt (f : ℤ → ℤ) (t : ℤ) : Prop := f t ≠ f (t - 1) + 1

/-- The clock is never set by `w` or more. -/
def SetBy (f : ℤ → ℤ) (w : ℤ) : Prop := ∀ t, |f t - (f (t - 1) + 1)| < w

/-- The clock is set at `t`, from or to a reading that is no more than `d` away from `l`. -/
structure SetNear (f : ℤ → ℤ) (d l t : ℤ) : Prop where
  setAt : SetAt f t
  near : |f (t - 1) + 1 - l| ≤ d ∨ |f t - l| ≤ d

/-- The clock is set at most once around `l`. -/
def SetOnce (f : ℤ → ℤ) (d l : ℤ) : Prop := ∀ t t', SetNear f d l t → SetNear f d l t' → t = t'

/-- The clock is set at `t` from a reading before `l` to one after it. -/
def Skips (f : ℤ → ℤ) (l t : ℤ) : Prop := f (t - 1) < l ∧ l < f t

/-- The clock is set back to `l` or a reading before it when it has already shown `l`. -/
def Repeats (f : ℤ → ℤ) (l t : ℤ) : Prop := f t ≤ l ∧ l ≤ f (t - 1)

instance (f : ℤ → ℤ) (l t : ℤ) : Decidable (Skips f l t) := instDecidableAnd
instance (f : ℤ → ℤ) (l t : ℤ) : Decidable (Repeats f l t) := instDecidableAnd

theorem SetBy.pos (h : SetBy f w) : 0 < w := (abs_nonneg _).trans_lt (h 0)

theorem Skips.setNear (h : Skips f l t) (hw : SetBy f w) (hd : w ≤ d) : SetNear f d l t := by
  have hset := abs_lt.mp (hw t)
  obtain ⟨hbefore, hafter⟩ := h
  constructor
  · unfold SetAt
    omega
  · right
    rw [abs_le]
    omega

theorem Repeats.setNear (h : Repeats f l t) (hw : SetBy f w) (hd : w ≤ d) : SetNear f d l t := by
  have hset := abs_lt.mp (hw t)
  obtain ⟨hafter, hbefore⟩ := h
  constructor
  · unfold SetAt
    omega
  · right
    rw [abs_le]
    omega

/-- A reading that comes again, or that an earlier moment is past, is repeated. -/
theorem exists_repeats (hst : s < t) (hs : l ≤ f s) (ht : f t ≤ l) :
    ∃ u, s < u ∧ u ≤ t ∧ Repeats f l u := by
  induction hn : (t - s).toNat using Nat.strong_induction_on generalizing t with
  | _ n ih =>
  by_cases hbefore : l ≤ f (t - 1)
  · exact ⟨t, hst, le_rfl, ht, hbefore⟩
  · have hne : t - 1 ≠ s := by
      rintro rfl
      exact hbefore hs
    obtain ⟨u, hsu, hut, hu⟩ := ih (t - 1 - s).toNat (by omega) (by omega) (by omega) rfl
    exact ⟨u, hsu, by omega, hu⟩

/-- A reading that is not repeated is shown at one moment at most. -/
theorem eq_of_not_repeats (h : ∀ u, ¬ Repeats f l u) (hs : f s = l) (ht : f t = l) : s = t := by
  by_contra hne
  rcases lt_or_gt_of_ne hne with hlt | hlt
  · obtain ⟨u, -, -, hu⟩ := exists_repeats hlt hs.ge ht.le
    exact h u hu
  · obtain ⟨u, -, -, hu⟩ := exists_repeats hlt ht.ge hs.le
    exact h u hu

/-- A clock that comes from before `l` to after it shows `l` or skips it. -/
theorem exists_shows_or_skips (hst : s ≤ t) (hs : f s ≤ l) (ht : l ≤ f t) :
    (∃ u, f u = l) ∨ ∃ u, Skips f l u := by
  induction hn : (t - s).toNat using Nat.strong_induction_on generalizing t with
  | _ n ih =>
  rcases ht.eq_or_lt with heq | hlt
  · exact .inl ⟨t, heq.symm⟩
  by_cases hbefore : l ≤ f (t - 1)
  · have hne : t ≠ s := by
      rintro rfl
      omega
    exact ih (t - 1 - s).toNat (by omega) (by omega) hbefore rfl
  · exact .inr ⟨t, by omega, hlt⟩

/-- Where the clock is not set it runs back one reading a moment. -/
theorem run_back {k : ℕ} (h : ∀ j : ℕ, j < k → f (s - j) = f s - j → ¬ SetAt f (s - j)) :
    f (s - k) = f s - k := by
  induction k with
  | zero => simp
  | succ k ih =>
    have hk := ih fun j hj => h j (Nat.lt_succ_of_lt hj)
    have hset := not_not.mp (h k (Nat.lt_succ_self k) hk)
    rw [show s - (k + 1 : ℕ) = s - k - 1 by push_cast; ring]
    push_cast
    omega

/-- Where the clock is not set it runs on one reading a moment. -/
theorem run_on {k : ℕ} (h : ∀ j : ℕ, j < k → f (s + j) = f s + j → ¬ SetAt f (s + j + 1)) :
    f (s + k) = f s + k := by
  induction k with
  | zero => simp
  | succ k ih =>
    have hk := ih fun j hj => h j (Nat.lt_succ_of_lt hj)
    have hset := not_not.mp (h k (Nat.lt_succ_self k) hk)
    rw [show s + k + 1 - 1 = s + k by ring] at hset
    rw [show s + (k + 1 : ℕ) = s + k + 1 by push_cast; ring]
    push_cast
    omega

section Once

variable (hw : SetBy f w) (hd : w ≤ d) (honce : SetOnce f d l)
include honce

/-- Before the only setting around `l` the clock runs straight up to a reading near `l`. -/
theorem run_back_of_once (hu : SetNear f d l u) (hsu : s < u) (hs : f s - l ≤ d) {k : ℕ}
    (hk : l - d ≤ f s - k) : f (s - k) = f s - k := by
  refine run_back fun j hj hreads hset => ?_
  have hnear : SetNear f d l (s - j) := ⟨hset, .inr (by rw [abs_le, hreads]; omega)⟩
  have := honce _ _ hnear hu
  omega

/-- After it the clock runs straight on from a reading near `l`. -/
theorem run_on_of_once (hu : SetNear f d l u) (hus : u ≤ s) (hs : l - d ≤ f s) {k : ℕ}
    (hk : f s + k ≤ l + d) : f (s + k) = f s + k := by
  refine run_on fun j hj hreads hset => ?_
  have hnear : SetNear f d l (s + j + 1) := by
    refine ⟨hset, .inl ?_⟩
    rw [show s + j + 1 - 1 = s + j by ring, hreads, abs_le]
    omega
  have := honce _ _ hnear hu
  omega

include hw hd

/-- A reading that is repeated is shown before the clock is set back, and again after it. -/
theorem Repeats.shows (hu : Repeats f l u) :
    f (u - 1 - (f (u - 1) - l)) = l ∧ f (u + (l - f u)) = l := by
  have hnear := hu.setNear hw hd
  have hset := abs_lt.mp (hw u)
  obtain ⟨hafter, hbefore⟩ := hu
  obtain ⟨j, hj⟩ := Int.eq_ofNat_of_zero_le (sub_nonneg.mpr hbefore)
  obtain ⟨k, hk⟩ := Int.eq_ofNat_of_zero_le (sub_nonneg.mpr hafter)
  constructor
  · rw [hj, run_back_of_once honce hnear (by omega) (by omega) (by omega)]
    omega
  · rw [hk, run_on_of_once honce hnear le_rfl (by omega) (by omega)]
    omega

/-- A reading that is skipped is not shown at all. -/
theorem Skips.not_shows (hu : Skips f l u) : f s ≠ l := by
  intro hs
  have hnear := hu.setNear hw hd
  obtain ⟨hbefore, hafter⟩ := hu
  rcases lt_or_ge s u with hsu | hus
  · have hlast : s < u - 1 := by
      rcases eq_or_lt_of_le (Int.le_sub_one_of_lt hsu) with rfl | hlt
      · omega
      · exact hlt
    obtain ⟨v, hsv, hvu, hv⟩ := exists_repeats hlast hs.ge hbefore.le
    have := honce _ _ (hv.setNear hw hd) hnear
    omega
  · have hfirst : u < s := by
      rcases eq_or_lt_of_le hus with rfl | hlt
      · omega
      · exact hlt
    obtain ⟨v, huv, hvs, hv⟩ := exists_repeats hfirst hafter.le hs.le
    have := honce _ _ (hv.setNear hw hd) hnear
    omega

/-- No reading is shown three times. -/
theorem shows_twice (hst : s < t) (hs : f s = l) (ht : f t = l) (hu : f u = l) : u = s ∨ u = t := by
  by_contra hne
  rw [not_or] at hne
  have hthird : ∀ a b c, a < b → b < c → f a = l → f b = l → f c = l → False := by
    intro a b c hab hbc ha hb hc
    obtain ⟨v, hav, hvb, hv⟩ := exists_repeats hab ha.ge hb.le
    obtain ⟨v', hbv, hvc, hv'⟩ := exists_repeats hbc hb.ge hc.le
    have := honce _ _ (hv.setNear hw hd) (hv'.setNear hw hd)
    omega
  rcases lt_or_gt_of_ne hne.1 with h | h
  · exact hthird u s t h hst hu hs ht
  rcases lt_or_gt_of_ne hne.2 with h' | h'
  · exact hthird s u t h h' hs hu ht
  · exact hthird s t u hst h' hs ht hu

/-- A reading that is shown once is never shown by a clock that is before it later on. -/
theorem before_of_shown_once (hs : f s = l) (hunique : ∀ u, f u = l → u = s) (ht : f t < l) :
    t < s := by
  by_contra hts
  have hst : s < t := by
    rcases eq_or_lt_of_le (not_lt.mp hts) with rfl | hlt
    · omega
    · exact hlt
  obtain ⟨v, hsv, -, hv⟩ := exists_repeats hst hs.ge ht.le
  obtain ⟨-, hagain⟩ := hv.shows hw hd honce
  have := hunique _ hagain
  have := hv.1
  omega

/-- The setting that repeats a reading repeats none that is as far away as a setting can go. -/
theorem Repeats.not_far {l' v : ℤ} (hu : Repeats f l u) (hfar : l' = l - w ∨ l' = l + w) :
    ¬ Repeats f l' v := by
  intro hv
  have hnear := hu.setNear hw hd
  have hset := abs_lt.mp (hw u)
  have hset' := abs_lt.mp (hw v)
  obtain ⟨hafter, hbefore⟩ := hv
  have hsame : v = u := by
    refine honce v u ⟨?_, ?_⟩ hnear
    · unfold SetAt
      omega
    · rw [abs_le, abs_le]
      omega
  subst hsame
  obtain ⟨hafter', hbefore'⟩ := hu
  omega

/-- Far enough before a reading that is shown twice there is no doubt about the moment. -/
theorem shown_once_before (hst : s < t) (hs : f s = l) (ht : f t = l) :
    f (s - w) = l - w ∧ ∀ u, f u = l - w → u = s - w := by
  obtain ⟨v, hsv, -, hv⟩ := exists_repeats hst hs.ge ht.le
  have hpos := hw.pos
  have hshows : f (s - w) = l - w := by
    obtain ⟨k, rfl⟩ := Int.eq_ofNat_of_zero_le hpos.le
    rw [run_back_of_once honce (hv.setNear hw hd) hsv (by omega) (by omega), hs]
  exact ⟨hshows, fun u hu => eq_of_not_repeats
    (fun v' => hv.not_far hw hd honce (.inl rfl)) hu hshows⟩

/-- Nor is there far enough after it. -/
theorem shown_once_after (hst : s < t) (hs : f s = l) (ht : f t = l) :
    f (t + w) = l + w ∧ ∀ u, f u = l + w → u = t + w := by
  obtain ⟨v, -, hvt, hv⟩ := exists_repeats hst hs.ge ht.le
  have hpos := hw.pos
  have hshows : f (t + w) = l + w := by
    obtain ⟨k, rfl⟩ := Int.eq_ofNat_of_zero_le hpos.le
    rw [run_on_of_once honce (hv.setNear hw hd) hvt (by omega) (by omega), ht]
  exact ⟨hshows, fun u hu => eq_of_not_repeats
    (fun v' => hv.not_far hw hd honce (.inr rfl)) hu hshows⟩

end Once

end CafeFausse.Clock
