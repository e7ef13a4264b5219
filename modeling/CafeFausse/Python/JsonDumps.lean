import CafeFausse.Format.Utf8
import CafeFausse.Python.JsonText

/-! # `json.dumps`

The escapes of `json.dumps` without `ensure_ascii`. A text without surrogates is written with
characters that can be encoded.
-/

namespace CafeFausse.Python

section Escapes

/-- A hexadecimal digit. -/
def hexDigit (d : ℕ) : Codepoint :=
  if d % 16 < 10 then ⟨0x30 + d % 16, by omega⟩ else ⟨0x57 + d % 16, by omega⟩

/-- `\u` and four digits. -/
def hexEscape (c : Codepoint) : Text :=
  text "\\u" ++ [hexDigit (c.val / 0x1000), hexDigit (c.val / 0x100), hexDigit (c.val / 0x10),
    hexDigit c.val]

/-- How `json.dumps(…, ensure_ascii=False)` writes a character. -/
def dumpsEscape (c : Codepoint) : Text :=
  if c.val = 0x22 then text "\\\""
  else if c.val = 0x5c then text "\\\\"
  else if c.val = 0x08 then text "\\b"
  else if c.val = 0x09 then text "\\t"
  else if c.val = 0x0a then text "\\n"
  else if c.val = 0x0c then text "\\f"
  else if c.val = 0x0d then text "\\r"
  else if c.val < 0x20 then hexEscape c
  else [c]

/-- `json.dumps(value, ensure_ascii=False, separators=(",", ":"))`. -/
def dumps (value : Json) : Option Text := write dumpsEscape value

theorem hexValue_hexDigit (d : ℕ) : hexValue (hexDigit d) = some (d % 16) := by
  unfold hexDigit
  split
  · next h =>
    unfold hexValue
    rw [if_pos (by simp only; omega)]
    simp only [Nat.add_sub_cancel_left]
  · next h =>
    unfold hexValue
    rw [if_neg (by simp only; omega), if_neg (by simp only; omega), if_pos (by simp only; omega)]
    simp only [Nat.add_sub_cancel_left]

theorem hexFour_hexEscape {c : Codepoint} (hc : c.val < 0x10000) (t : Text) :
    hexFour ((hexEscape c).drop 2 ++ t) = some c := by
  have hdrop : (hexEscape c).drop 2 ++ t = hexDigit (c.val / 0x1000) ::
      hexDigit (c.val / 0x100) :: hexDigit (c.val / 0x10) :: hexDigit c.val :: t := rfl
  rw [hdrop, hexFour]
  simp only [hexValue_hexDigit, Option.bind_eq_bind, Option.bind_some]
  apply congrArg some
  apply Fin.ext
  unfold chr
  simp only
  omega

/-- An escape that the reader knows. -/
theorem scanString_escape {t : Text} {unit : StringUnit} {skip : ℕ}
    (h : scanEscape t = some (unit, skip)) : scanString 0 (text "\\" ++ t) =
      (scanString skip t).map fun (units, n) => (unit :: units, n + 1) := by
  have hcons : text "\\" ++ t = ascii 0x5c (by decide) :: t := rfl
  have hquote : (ascii 0x5c (by decide)).val ≠ 0x22 := by decide
  have hbackslash : (ascii 0x5c (by decide)).val = 0x5c := by decide
  rw [hcons, scanString, if_neg hquote, if_pos hbackslash, h]

theorem scanString_skip (s t : Text) : scanString s.length (s ++ t) =
    (scanString 0 t).map fun (units, n) => (units, n + s.length) := by
  induction s with
  | nil =>
    rw [List.length_nil, List.nil_append]
    exact Option.map_id'.symm
  | cons c s ih =>
    rw [List.length_cons, List.cons_append, scanString, ih, Option.map_map]
    rfl

/-- An escape that stands for `c`. -/
theorem scanString_of_escape {c : Codepoint} {s : Text} {hexadecimal : Bool}
    (h : ∀ t, scanEscape (s ++ t) = some (⟨c, hexadecimal⟩, s.length)) (t : Text) :
    scanString 0 (text "\\" ++ s ++ t) = (scanString 0 t).map fun (units, n) =>
      (⟨c, hexadecimal⟩ :: units, n + (text "\\" ++ s).length) := by
  have hlength : (text "\\" ++ s).length = s.length + 1 := by
    rw [List.length_append]
    exact Nat.add_comm 1 s.length
  rw [List.append_assoc, scanString_escape (h t), scanString_skip, Option.map_map, hlength]
  rfl

/-- Four digits stand for every character of one code unit. -/
theorem escapes_hex {c : Codepoint} (hc : c.val < 0x10000) :
    ∃ hexadecimal, ∀ t, scanString 0 (hexEscape c ++ t) =
      (scanString 0 t).map fun (units, n) => (⟨c, hexadecimal⟩ :: units, n + (hexEscape c).length) := by
  refine ⟨true, ?_⟩
  have hescape (t : Text) : scanEscape ((hexEscape c).drop 1 ++ t) =
      some (⟨c, true⟩, ((hexEscape c).drop 1).length) := by
    rw [show (hexEscape c).drop 1 ++ t =
      ascii 0x75 (by decide) :: ((hexEscape c).drop 2 ++ t) from rfl, scanEscape]
    rw [hexFour_hexEscape hc]
    rfl
  exact scanString_of_escape hescape

theorem escapes_dumps : Escapes dumpsEscape := by
  intro c
  have letter (l : Codepoint) (hu : l.val ≠ 0x75) (hl : letterEscape l = some c) :
      ∃ hexadecimal, ∀ t, scanString 0 (text "\\" ++ [l] ++ t) =
        (scanString 0 t).map fun (units, n) =>
          (⟨c, hexadecimal⟩ :: units, n + (text "\\" ++ [l]).length) := by
    refine ⟨false, scanString_of_escape fun t => ?_⟩
    rw [List.singleton_append, scanEscape, if_neg hu, hl]
    rfl
  have known {n : ℕ} (hn : n < 0x80) (hc : c.val = n) : some (ascii n hn) = some c :=
    congrArg some (Fin.ext hc.symm)
  unfold dumpsEscape
  split
  · next hc => exact letter (ascii 0x22 (by decide)) (by decide) (known (by decide) hc)
  split
  · next hc => exact letter (ascii 0x5c (by decide)) (by decide) (known (by decide) hc)
  split
  · next hc => exact letter (ascii 0x62 (by decide)) (by decide) (known (by decide) hc)
  split
  · next hc => exact letter (ascii 0x74 (by decide)) (by decide) (known (by decide) hc)
  split
  · next hc => exact letter (ascii 0x6e (by decide)) (by decide) (known (by decide) hc)
  split
  · next hc => exact letter (ascii 0x66 (by decide)) (by decide) (known (by decide) hc)
  split
  · next hc => exact letter (ascii 0x72 (by decide)) (by decide) (known (by decide) hc)
  split
  · next hc =>
    exact escapes_hex (by omega)
  · next hquote hbackslash _ _ _ _ _ hplain =>
    refine ⟨false, fun t => ?_⟩
    rw [List.singleton_append, scanString, if_neg hquote, if_neg hbackslash, if_neg (by omega)]
    rfl

theorem ascii_hexEscape {c d : Codepoint} (h : d ∈ hexEscape c) : d.val < 0x80 := by
  have hdigit (n : ℕ) : (hexDigit n).val < 0x80 := by
    unfold hexDigit
    split <;> simp only <;> omega
  rcases List.mem_append.mp h with h | h
  · exact forall_text (fun _ hc => hc) (by decide) d h
  · simp only [List.mem_cons, List.not_mem_nil, or_false] at h
    rcases h with rfl | rfl | rfl | rfl <;> exact hdigit _

/-- Every character of an escape is one of ASCII, or the character itself. -/
theorem mem_dumpsEscape {c d : Codepoint} (h : d ∈ dumpsEscape c) : d.val < 0x80 ∨ d = c := by
  have hliteral {s : String} (hs : (text s).all (fun c => c.val < 0x80) = true)
      (hd : d ∈ text s) : d.val < 0x80 ∨ d = c :=
    .inl (forall_text (fun _ hc => hc) hs d hd)
  unfold dumpsEscape at h
  split at h
  · exact hliteral (by decide) h
  split at h
  · exact hliteral (by decide) h
  split at h
  · exact hliteral (by decide) h
  split at h
  · exact hliteral (by decide) h
  split at h
  · exact hliteral (by decide) h
  split at h
  · exact hliteral (by decide) h
  split at h
  · exact hliteral (by decide) h
  split at h
  · exact .inl (ascii_hexEscape h)
  · exact .inr (List.mem_singleton.mp h)

end Escapes

end CafeFausse.Python
