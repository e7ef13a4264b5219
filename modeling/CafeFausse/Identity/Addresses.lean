import CafeFausse.Format.Words
import CafeFausse.Identity.Email
import CafeFausse.Python.Values

/-! # Addresses and their lower case

What both checks of an address say of its characters, and that an address written in small
letters is still one.
-/

namespace CafeFausse

open Python

variable {t : Text} {c : Codepoint}

/-- `t` passes the regular expressions for its two parts. -/
def IsAddress (t : Text) : Prop :=
  ∃ localPart domain, t.splitOnP (·.val = 0x40) = [localPart, domain] ∧
    emailLocal localPart = true ∧ (domain.splitOnP (·.val = 0x2e)).all domainLabel = true

/-- A visible character of ASCII. -/
def Visible (c : Codepoint) : Prop := 0x21 ≤ c.val ∧ c.val ≤ 0x7e

instance (c : Codepoint) : Decidable (Visible c) := instDecidableAnd

section Visible

theorem visible_of_isAlphanumeric (h : isAlphanumeric c = true) : Visible c := by
  simp only [isAlphanumeric, Bool.or_eq_true, Bool.and_eq_true, decide_eq_true_eq] at h
  unfold Visible
  omega

theorem visible_of_isEmailCharacter (h : isEmailCharacter c = true) : Visible c := by
  rcases Bool.or_eq_true_iff.mp h with h | h
  · exact visible_of_isAlphanumeric h
  · obtain ⟨a, ha, rfl⟩ := List.mem_map.mp (List.contains_iff_mem.mp h)
    have hall : ("!#$%&\x27*+/=?^_\x60\x7b|\x7d~-".toList.all fun a =>
        0x21 ≤ a.toNat && a.toNat ≤ 0x7e) = true := by decide
    have hvisible := List.all_eq_true.mp hall a ha
    rw [Bool.and_eq_true, decide_eq_true_eq, decide_eq_true_eq] at hvisible
    exact hvisible

theorem visible_of_emailLocal (h : emailLocal t = true) (hc : c ∈ t) : Visible c := by
  rcases Format.mem_splitOnP (p := fun c : Codepoint => decide (c.val = 0x2e)) hc with
    hdot | ⟨w, hw, hcw⟩
  · have := of_decide_eq_true hdot
    unfold Visible
    omega
  · have hword := List.all_eq_true.mp h w hw
    exact visible_of_isEmailCharacter (List.all_eq_true.mp (Bool.and_eq_true_iff.mp hword).2 c hcw)

theorem visible_of_domainLabel (h : domainLabel t = true) (hc : c ∈ t) : Visible c := by
  rcases Bool.or_eq_true_iff.mp (List.all_eq_true.mp (Bool.and_eq_true_iff.mp h).2 c hc) with h | h
  · exact visible_of_isAlphanumeric h
  · have := beq_iff_eq.mp h
    unfold Visible
    omega

/-- An address is written in visible characters of ASCII. -/
theorem IsAddress.visible (h : IsAddress t) (hc : c ∈ t) : Visible c := by
  obtain ⟨localPart, domain, hsplit, hlocal, hdomain⟩ := h
  rcases Format.mem_splitOnP (p := fun c : Codepoint => decide (c.val = 0x40)) hc with
    hat | ⟨w, hw, hcw⟩
  · have := of_decide_eq_true hat
    unfold Visible
    omega
  · rw [hsplit, List.mem_cons, List.mem_singleton] at hw
    rcases hw with rfl | rfl
    · exact visible_of_emailLocal hlocal hcw
    · rcases Format.mem_splitOnP (p := fun c : Codepoint => decide (c.val = 0x2e)) hcw with
        hdot | ⟨v, hv, hcv⟩
      · have := of_decide_eq_true hdot
        unfold Visible
        omega
      · exact visible_of_domainLabel (List.all_eq_true.mp hdomain v hv) hcv

theorem IsAddress.ne_nil (h : IsAddress t) : t ≠ [] := by
  rintro rfl
  obtain ⟨localPart, domain, hsplit, -⟩ := h
  rw [List.splitOnP_nil] at hsplit
  cases hsplit

end Visible

section Lower

theorem asciiLower_val (c : Codepoint) :
    (asciiLower c).val = if 0x41 ≤ c.val ∧ c.val ≤ 0x5a then c.val + 0x20 else c.val := by
  unfold asciiLower
  split <;> rfl

/-- A character below the letters is what it was. -/
theorem asciiLower_val_eq_iff {n : ℕ} (h : n < 0x41) : (asciiLower c).val = n ↔ c.val = n := by
  rw [asciiLower_val]
  split <;> omega

theorem asciiLower_idem (c : Codepoint) : asciiLower (asciiLower c) = asciiLower c := by
  ext
  have h := asciiLower_val c
  rw [asciiLower_val, if_neg]
  split at h <;> omega

theorem isAlphanumeric_asciiLower (c : Codepoint) :
    isAlphanumeric (asciiLower c) = isAlphanumeric c := by
  rw [Bool.eq_iff_iff]
  simp only [isAlphanumeric, Bool.or_eq_true, Bool.and_eq_true, decide_eq_true_eq, asciiLower_val]
  split <;> omega

theorem isEmailCharacter_asciiLower (c : Codepoint) :
    isEmailCharacter (asciiLower c) = isEmailCharacter c := by
  unfold isEmailCharacter
  by_cases h : 0x41 ≤ c.val ∧ c.val ≤ 0x5a
  · have hletter : isAlphanumeric c = true := by
      simp only [isAlphanumeric, h.1, h.2, decide_true, Bool.and_self, Bool.or_true, Bool.true_or]
    rw [isAlphanumeric_asciiLower, hletter, Bool.true_or, Bool.true_or]
  · rw [asciiLower, dif_neg h]

theorem splitOnP_map_asciiLower {n : ℕ} (h : n < 0x41) (t : Text) :
    (t.map asciiLower).splitOnP (·.val = n) =
      (t.splitOnP (·.val = n)).map (List.map asciiLower) :=
  Format.splitOnP_map fun c => by simp only [asciiLower_val_eq_iff h]

theorem emailLocal_map_asciiLower (t : Text) : emailLocal (t.map asciiLower) = emailLocal t := by
  unfold emailLocal
  rw [splitOnP_map_asciiLower (by decide), List.all_map]
  congr 1
  ext w
  simp only [Function.comp_apply, List.all_map, List.isEmpty_map]
  congr 2
  ext c
  exact isEmailCharacter_asciiLower c

theorem domainLabel_map_asciiLower (t : Text) :
    domainLabel (t.map asciiLower) = domainLabel t := by
  unfold domainLabel
  rw [List.head?_map, List.getLast?_map, List.all_map, Option.any_map, Option.any_map]
  have hhyphen (c : Codepoint) : ((asciiLower c).val == 0x2d) = (c.val == 0x2d) := by
    rw [Bool.eq_iff_iff, beq_iff_eq, beq_iff_eq, asciiLower_val_eq_iff (by decide)]
  simp only [Function.comp_def, isAlphanumeric_asciiLower, hhyphen]

/-- The lower case of an address is an address. -/
theorem IsAddress.map_asciiLower (h : IsAddress t) : IsAddress (t.map asciiLower) := by
  obtain ⟨localPart, domain, hsplit, hlocal, hdomain⟩ := h
  refine ⟨localPart.map asciiLower, domain.map asciiLower, ?_, ?_, ?_⟩
  · rw [splitOnP_map_asciiLower (by decide), hsplit]
    rfl
  · rw [emailLocal_map_asciiLower, hlocal]
  · rw [splitOnP_map_asciiLower (by decide), List.all_map]
    exact (List.all_eq_true.mpr fun w hw =>
      (domainLabel_map_asciiLower w).trans (List.all_eq_true.mp hdomain w hw))

end Lower

end CafeFausse
