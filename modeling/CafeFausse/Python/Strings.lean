import CafeFausse.Database.Schema
import CafeFausse.Python.Values

/-! # Strings on their way to the database

What joining the words of a string leaves of it, and how the classes and functions of the
database see the result if its character type agrees with the interpreter.
-/

namespace CafeFausse.Python

/-- The character type of the database knows the characters as the interpreter does. -/
structure Agrees (u : Unicode) (ct : CharacterType) : Prop where
  isAlpha : ∀ c, ct.isAlpha c = u.isAlpha c
  isUpper : ∀ c, ct.isUpper c = u.isUpper c
  isSpace : ∀ c, ct.isSpace c = true → u.isSpace c = true
  lower : ∀ c : Codepoint, c.val < 0x80 → ct.lower c = asciiLower c

variable {u : Unicode} {ct : CharacterType} {t w : Text} {c : Codepoint}

section Split

theorem mem_of_splitOnP {p : Codepoint → Bool} (hw : w ∈ t.splitOnP p) (hc : c ∈ w) :
    c ∈ t ∧ p c = false := by
  induction t generalizing w with
  | nil =>
    rw [List.splitOnP_nil, List.mem_singleton] at hw
    rw [hw] at hc
    cases hc
  | cons x t ih =>
    rw [List.splitOnP_cons_eq_if_modifyHead] at hw
    split at hw
    · rcases List.mem_cons.mp hw with rfl | hw
      · cases hc
      · exact (ih hw hc).imp_left (List.mem_cons_of_mem x)
    · next hx =>
      obtain ⟨head, rest, heq⟩ := List.exists_cons_of_ne_nil (List.splitOnP_ne_nil p t)
      rw [heq, List.modifyHead_cons] at hw
      rcases List.mem_cons.mp hw with rfl | hw
      · rcases List.mem_cons.mp hc with rfl | hc
        · exact ⟨List.mem_cons_self, by simpa using hx⟩
        · exact (ih (heq ▸ List.mem_cons_self) hc).imp_left (List.mem_cons_of_mem x)
      · exact (ih (heq ▸ List.mem_cons_of_mem _ hw) hc).imp_left (List.mem_cons_of_mem x)

theorem exists_mem_splitOnP {p : Codepoint → Bool} (hc : c ∈ t) (hp : p c = false) :
    ∃ w ∈ t.splitOnP p, c ∈ w := by
  induction t with
  | nil => cases hc
  | cons x t ih =>
    rw [List.splitOnP_cons_eq_if_modifyHead]
    obtain ⟨head, rest, heq⟩ := List.exists_cons_of_ne_nil (List.splitOnP_ne_nil p t)
    rcases List.mem_cons.mp hc with rfl | hc
    · simp [hp, heq]
    · obtain ⟨w, hw, hcw⟩ := ih hc
      split
      · exact ⟨w, List.mem_cons_of_mem _ hw, hcw⟩
      · rw [heq] at hw ⊢
        rw [List.modifyHead_cons]
        rcases List.mem_cons.mp hw with rfl | hw
        · exact ⟨x :: w, List.mem_cons_self, List.mem_cons_of_mem x hcw⟩
        · exact ⟨w, List.mem_cons_of_mem _ hw, hcw⟩

/-- A word has characters, none of them a space. -/
theorem mem_split (hw : w ∈ u.split t) : w ≠ [] ∧ ∀ c ∈ w, c ∈ t ∧ u.isSpace c = false := by
  obtain ⟨hw, hne⟩ := List.mem_filter.mp hw
  exact ⟨by simpa using hne, fun c hc => mem_of_splitOnP hw hc⟩

theorem exists_mem_split (hc : c ∈ t) (hs : u.isSpace c = false) : ∃ w ∈ u.split t, c ∈ w := by
  obtain ⟨w, hw, hcw⟩ := exists_mem_splitOnP hc hs
  refine ⟨w, List.mem_filter.mpr ⟨hw, ?_⟩, hcw⟩
  simpa using List.ne_nil_of_mem hcw

end Split

section Join

/-- The blank between two words. -/
abbrev blank : Codepoint := ⟨0x20, by decide⟩

theorem blank_eq : blank = 0x20 := rfl

theorem joined_eq : u.joined t = List.intercalate [blank] (u.split t) := rfl

theorem mem_intercalate {l : List Text} : c ∈ List.intercalate [blank] l →
    c = blank ∨ ∃ w ∈ l, c ∈ w := by
  induction l with
  | nil => simp
  | cons w l ih =>
    cases l with
    | nil =>
      rw [List.intercalate_singleton]
      exact fun hc => .inr ⟨w, List.mem_singleton_self w, hc⟩
    | cons w' l =>
      rw [List.intercalate_cons_cons]
      intro hc
      simp only [List.mem_append, List.mem_singleton] at hc
      rcases hc with (hc | hc) | hc
      · exact .inr ⟨w, List.mem_cons_self, hc⟩
      · exact .inl hc
      · rcases ih hc with hb | ⟨v, hv, hcv⟩
        · exact .inl hb
        · exact .inr ⟨v, List.mem_cons_of_mem w hv, hcv⟩

theorem mem_intercalate_of_mem {l : List Text} (hw : w ∈ l) (hc : c ∈ w) :
    c ∈ List.intercalate [blank] l := by
  induction l with
  | nil => cases hw
  | cons v l ih =>
    cases l with
    | nil =>
      rw [List.intercalate_singleton, ← List.mem_singleton.mp hw]
      exact hc
    | cons v' l =>
      rw [List.intercalate_cons_cons]
      simp only [List.mem_append, List.mem_singleton]
      rcases List.mem_cons.mp hw with rfl | hw
      · exact .inl (.inl hc)
      · exact .inr (ih hw)

/-- Joining the words keeps all characters but the spaces. -/
theorem sendable_joined : Sendable (u.joined t) ↔ Sendable t := by
  constructor
  · intro h c hc
    by_cases hs : u.isSpace c = true
    · exact u.isSpace_encodable c hs
    · obtain ⟨w, hw, hcw⟩ := exists_mem_split hc (Bool.eq_false_iff.mpr hs)
      exact h c (mem_intercalate_of_mem hw hcw)
  · intro h c hc
    rcases mem_intercalate hc with rfl | ⟨w, hw, hcw⟩
    · decide
    · exact h c ((mem_split hw).2 c hcw).1

end Join

section Collapse

variable (ct)

/-- A word without spaces goes through the replacement unchanged. -/
theorem collapseFrom_append (hw : ∀ c ∈ w, ct.isSpace c = false) (hne : w ≠ []) (after : Bool)
    (rest : Text) : ct.collapseFrom after (w ++ rest) = w ++ ct.collapseFrom false rest := by
  induction w generalizing after with
  | nil => exact absurd rfl hne
  | cons c w ih =>
    simp only [List.cons_append, CharacterType.collapseFrom, hw c List.mem_cons_self]
    cases w with
    | nil => rfl
    | cons d w =>
      rw [ih (fun x hx => hw x (List.mem_cons_of_mem c hx)) (List.cons_ne_nil d w) false]
      rfl

/-- So do words with one blank between them. -/
theorem collapseFrom_intercalate {l : List Text}
    (hl : ∀ w ∈ l, w ≠ [] ∧ ∀ c ∈ w, ct.isSpace c = false) (after : Bool) :
    ct.collapseFrom after (List.intercalate [blank] l) = List.intercalate [blank] l := by
  induction l generalizing after with
  | nil => rfl
  | cons w l ih =>
    obtain ⟨hne, hw⟩ := hl w List.mem_cons_self
    have hrest := fun v hv => hl v (List.mem_cons_of_mem w hv)
    cases l with
    | nil =>
      rw [List.intercalate_singleton, ← List.append_nil w, collapseFrom_append ct hw hne]
      rfl
    | cons w' l =>
      rw [List.intercalate_cons_cons, List.append_assoc, collapseFrom_append ct hw hne]
      simp only [List.singleton_append, CharacterType.collapseFrom]
      split <;> simp [ih hrest, ← blank_eq]

end Collapse

theorem btrim_eq (hfirst : t.head? ≠ some blank) (hlast : t.getLast? ≠ some blank) :
    t.btrim = t := by
  have drop : ∀ l : Text, l.head? ≠ some blank →
      l.dropWhile (fun x => x == (0x20 : Codepoint)) = l := by
    intro l hl
    cases l with
    | nil => rfl
    | cons c l =>
      rw [List.dropWhile_cons_of_neg]
      simpa [blank_eq] using hl
  unfold Text.btrim
  simp only
  rw [drop t hfirst, drop t.reverse (by simpa using hlast), List.reverse_reverse]

theorem head?_intercalate {l : List Text} (hl : ∀ w ∈ l, w ≠ [] ∧ blank ∉ w) :
    (List.intercalate [blank] l).head? ≠ some blank := by
  cases l with
  | nil => simp
  | cons w l =>
    obtain ⟨hne, hb⟩ := hl w List.mem_cons_self
    obtain ⟨c, w, rfl⟩ := List.exists_cons_of_ne_nil hne
    have hc : c ≠ blank := fun hc => hb (hc ▸ List.mem_cons_self)
    cases l with
    | nil => simpa [List.intercalate_singleton] using hc
    | cons w' l => simpa [List.intercalate_cons_cons] using hc

theorem getLast?_intercalate {l : List Text} (hl : ∀ w ∈ l, w ≠ [] ∧ blank ∉ w) :
    (List.intercalate [blank] l).getLast? ≠ some blank := by
  induction l with
  | nil => simp
  | cons w l ih =>
    obtain ⟨hne, hb⟩ := hl w List.mem_cons_self
    have hrest := fun v hv => hl v (List.mem_cons_of_mem w hv)
    cases l with
    | nil =>
      rw [List.intercalate_singleton]
      exact fun hlast => hb (List.mem_of_getLast? hlast)
    | cons w' l =>
      have hne' : List.intercalate [blank] (w' :: l) ≠ [] := by
        obtain ⟨hne', -⟩ := hrest w' List.mem_cons_self
        obtain ⟨c, v, rfl⟩ := List.exists_cons_of_ne_nil hne'
        cases l <;> simp [List.intercalate_singleton, List.intercalate_cons_cons]
      rw [List.intercalate_cons_cons, List.getLast?_append_of_ne_nil _ hne']
      exact ih hrest

/-- The normalized form of a name is what the database calls normalized. -/
theorem collapse_joined (h : Agrees u ct) : ct.collapse (u.joined t).btrim = u.joined t := by
  have hwords : ∀ w ∈ u.split t, w ≠ [] ∧ blank ∉ w := fun w hw =>
    ⟨(mem_split hw).1, fun hb => by
      have := ((mem_split hw).2 _ hb).2
      rw [u.isSpace_ascii blank (by decide)] at this
      exact absurd this (by decide)⟩
  rw [joined_eq, btrim_eq (head?_intercalate hwords) (getLast?_intercalate hwords)]
  refine collapseFrom_intercalate ct (fun w hw => ⟨(mem_split hw).1, fun c hc => ?_⟩) false
  have := ((mem_split hw).2 c hc).2
  exact Bool.eq_false_iff.mpr fun hs => by simp [h.isSpace c hs] at this

end CafeFausse.Python
