import CafeFausse.Backend.Validation
import CafeFausse.Identity.Addresses

/-! # What the fields are normalized to

Each normalization as an equivalence: which values pass, and what is kept of them.
-/

namespace CafeFausse.Backend

open Python

variable {u : Unicode} {field : Field} {value : Json} {t : Text}

section Names

theorem normalizeName_eq_ok {name : Text} : normalizeName u field value = .ok name ↔
    ∃ t, value = .string t ∧ name = u.joined t ∧ name.length ≤ 100 ∧ name.any u.isAlpha = true := by
  cases value with
  | string t =>
    simp only [Json.string.injEq, exists_eq_left']
    unfold normalizeName
    simp only
    constructor
    · intro h
      split at h
      · cases h
      split at h
      · cases h
      split at h
      · cases h
      · next hlength halpha =>
        cases h
        exact ⟨rfl, not_lt.mp hlength, not_not.mp halpha⟩
    · rintro ⟨rfl, hlength, halpha⟩
      have hne : u.joined t ≠ [] := by
        intro h
        rw [h] at halpha
        cases halpha
      rw [if_neg hne, if_neg (not_lt.mpr hlength), if_neg (not_not.mpr halpha)]
  | _ => simp [normalizeName]

end Names

section MiddleInitial

theorem normalizeMiddle_eq_ok {initial : Option Text} : normalizeMiddle u value = .ok initial ↔
    ∃ t, value = .string t ∧ (u.strip t = [] ∧ initial = none ∨
      ∃ c d, u.strip t = [c] ∧ u.isAlpha c = true ∧ u.upper c = [d] ∧ initial = some [d]) := by
  cases value with
  | string t =>
    simp only [Json.string.injEq, exists_eq_left']
    unfold normalizeMiddle
    simp only
    rcases hstrip : u.strip t with - | ⟨c, - | ⟨c', rest⟩⟩
    · rw [if_pos rfl]
      constructor
      · rintro ⟨⟩
        exact .inl ⟨rfl, rfl⟩
      · rintro (⟨-, rfl⟩ | ⟨c, d, h, -⟩)
        · rfl
        · cases h
    · rw [if_neg (List.cons_ne_nil c [])]
      by_cases halpha : u.isAlpha c = true
      · have hupper : u.upperText [c] = u.upper c := by
          rw [Unicode.upperText, List.flatMap_cons, List.flatMap_nil, List.append_nil]
        rw [if_neg (by simp [halpha]), hupper]
        by_cases hone : (u.upper c).length = 1
        · obtain ⟨d, hd⟩ := List.length_eq_one_iff.mp hone
          rw [if_neg (not_not.mpr hone), hd]
          constructor
          · rintro ⟨⟩
            exact .inr ⟨c, d, rfl, halpha, hd, rfl⟩
          · rintro (⟨h, -⟩ | ⟨c', d', hc, -, hd', rfl⟩)
            · cases h
            · cases hc
              rw [hd] at hd'
              cases hd'
              rfl
        · rw [if_pos hone]
          constructor
          · intro h
            cases h
          · rintro (⟨h, -⟩ | ⟨c', d', hc, -, hd', -⟩)
            · cases h
            · cases hc
              rw [hd'] at hone
              exact absurd rfl hone
      · rw [if_pos (by simp [halpha])]
        simp [halpha]
    · rw [if_neg (List.cons_ne_nil c _), if_pos (by simp)]
      simp
  | _ => simp [normalizeMiddle]

end MiddleInitial

section Email

/-- Addresses of ASCII are written small by the rules of ASCII, and no space surrounds them. -/
theorem lower_of_isAddress (h : IsAddress t) : u.lower t = t.map asciiLower :=
  u.lower_ascii t fun c hc => by
    have := (h.visible hc).2
    omega

theorem isSpace_of_visible {c : Codepoint} (h : Visible c) : u.isSpace c = false := by
  obtain ⟨hlow, hhigh⟩ := h
  rw [u.isSpace_ascii c (by omega)]
  simp only [Bool.or_eq_false_iff, beq_eq_false_iff_ne, Bool.and_eq_false_iff,
    decide_eq_false_iff_not]
  omega

theorem strip_of_isAddress (h : IsAddress t) : u.strip t = t :=
  Format.trim_eq_self fun _ hc => isSpace_of_visible (h.visible hc)

theorem normalizeEmail_eq_ok {email : Text} : normalizeEmail u field value = .ok email ↔
    ∃ t, value = .string t ∧ (u.strip t).length ≤ 254 ∧ IsAddress (u.strip t) ∧
      email = (u.strip t).map asciiLower := by
  cases value with
  | string t =>
    simp only [Json.string.injEq, exists_eq_left']
    unfold normalizeEmail
    simp only
    constructor
    · intro h
      split at h
      · cases h
      split at h
      · cases h
      split at h
      · next hlength _ localPart domain hsplit =>
        split at h
        · next hparts =>
          cases h
          have haddress : IsAddress (u.strip t) := ⟨localPart, domain, hsplit, hparts⟩
          exact ⟨not_lt.mp hlength, haddress, lower_of_isAddress haddress⟩
        · cases h
      · cases h
    · rintro ⟨hlength, haddress, rfl⟩
      have hlower := lower_of_isAddress (u := u) haddress
      have hne := haddress.ne_nil
      obtain ⟨localPart, domain, hsplit, hparts⟩ := haddress
      rw [if_neg hne, if_neg (not_lt.mpr hlength), hsplit]
      simp only
      rw [if_pos hparts, hlower]
  | _ => simp [normalizeEmail]

end Email

section Phone

theorem ascii_of_phoneCharacters (h : t.phoneCharacters = true) {c : Codepoint} (hc : c ∈ t) :
    c.val < 0x80 := by
  have hall := List.all_eq_true.mp (Bool.and_eq_true_iff.mp h).2 c hc
  rcases Bool.or_eq_true_iff.mp hall with hdigit | hother
  · have := of_decide_eq_true (Bool.and_eq_true_iff.mp hdigit).2
    have hnine : c.val ≤ 0x39 := this
    omega
  · obtain ⟨a, ha, rfl⟩ := List.mem_map.mp (List.contains_iff_mem.mp hother)
    have hascii : (" +().-".toList.all fun a => a.toNat < 0x80) = true := by decide
    exact of_decide_eq_true (List.all_eq_true.mp hascii a ha)

/-- In a phone number the digits of the interpreter are those of the database. -/
theorem filter_isDigit (h : t.phoneCharacters = true) : t.filter u.isDigit = t.digits := by
  refine List.filter_congr fun c hc => ?_
  rw [u.isDigit_ascii c (ascii_of_phoneCharacters h hc)]
  rfl

theorem normalizePhone_eq_ok {phone : Text} : normalizePhone u value = .ok phone ↔
    ∃ t, value = .string t ∧ phone = u.strip t ∧ phone.length ≤ 32 ∧
      phone.phoneCharacters = true ∧ 7 ≤ phone.digits.length ∧ phone.digits.length ≤ 15 := by
  cases value with
  | string t =>
    simp only [Json.string.injEq, exists_eq_left']
    unfold normalizePhone
    simp only
    constructor
    · intro h
      split at h
      · cases h
      split at h
      · cases h
      split at h
      · cases h
      · next hlength hrest =>
        cases h
        obtain ⟨hcharacters, hdigits⟩ := not_or.mp hrest
        have hphone := not_not.mp hcharacters
        rw [not_not, filter_isDigit hphone] at hdigits
        exact ⟨rfl, not_lt.mp hlength, hphone, hdigits⟩
    · rintro ⟨rfl, hlength, hcharacters, hdigits⟩
      have hne : u.strip t ≠ [] := by
        intro h
        rw [h] at hcharacters
        cases hcharacters
      rw [if_neg hne, if_neg (not_lt.mpr hlength), if_neg]
      rw [filter_isDigit hcharacters, not_or, not_not, not_not]
      exact ⟨hcharacters, hdigits⟩
  | _ => simp [normalizePhone]

end Phone

end CafeFausse.Backend
