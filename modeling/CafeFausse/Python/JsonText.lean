import CafeFausse.Python.JsonLoads

/-! # JSON that is written and read back

A writer puts no blanks between tokens and differs from others in how it escapes characters.
What it writes is read back as it was, as far as the hooks let it pass.
-/

namespace CafeFausse.Python

section Writer

variable (escape : Codepoint → Text)

/-- A string between quotes. -/
def quoted (t : Text) : Text := text "\"" ++ t.flatMap escape ++ text "\""

/-- `str(n)`. -/
def integerText (n : ℤ) : Text :=
  (if n < 0 then text "-" else []) ++ decimalDigits.decimal n.natAbs

mutual

/-- `value` as JSON, with `,` and `:` as separators. A `Decimal` has no JSON. -/
def write : Json → Option Text
  | .null => some (text "null")
  | .boolean true => some (text "true")
  | .boolean false => some (text "false")
  | .integer n => some (integerText n)
  | .decimal _ => none
  | .string t => some (quoted escape t)
  | .array values =>
    (writeValues values).map fun parts => text "[" ++ List.intercalate (text ",") parts ++ text "]"
  | .object members =>
    (writeMembers members).map fun parts =>
      text "\x7b" ++ List.intercalate (text ",") parts ++ text "\x7d"

def writeValues : List Json → Option (List Text)
  | [] => some []
  | value :: values => do
    let part ← write value
    let parts ← writeValues values
    return part :: parts

def writeMembers : List (Text × Json) → Option (List Text)
  | [] => some []
  | (name, value) :: members => do
    let part ← write value
    let parts ← writeMembers members
    return (quoted escape name ++ text ":" ++ part) :: parts

end

/-- What is written for a character is one character of a string. -/
def Escapes : Prop := ∀ c, ∃ hexadecimal, ∀ t, scanString 0 (escape c ++ t) =
  (scanString 0 t).map fun (units, n) => (⟨c, hexadecimal⟩ :: units, n + (escape c).length)

end Writer

/-- No surrogates that make one character together. -/
def Unpaired (t : Text) : Prop := t.IsChain fun c d => ¬ (IsHighSurrogate c ∧ IsLowSurrogate d)

instance (t : Text) : Decidable (Unpaired t) := inferInstanceAs (Decidable (List.IsChain _ t))

/-- A number as `integerText` writes it. -/
def integerLiteral (n : ℤ) : Literal := ⟨n < 0, decimalDigits.decimal n.natAbs, [], []⟩

/-- A value that passes the hooks and is nested no deeper than `d`. -/
inductive Passes {ε : Type} (hooks : Hooks ε) : ℕ → Json → Prop where
  | null (d : ℕ) : Passes hooks d .null
  | boolean (d : ℕ) (b : Bool) : Passes hooks d (.boolean b)
  | integer (d : ℕ) (n : ℤ) : hooks.parseInt (integerLiteral n) = .ok (.integer n) →
      Passes hooks d (.integer n)
  | string (d : ℕ) (t : Text) : Unpaired t → Passes hooks d (.string t)
  | array (d : ℕ) (values : List Json) : (∀ v ∈ values, Passes hooks d v) →
      Passes hooks (d + 1) (.array values)
  | object (d : ℕ) (members : Payload) : hooks.objectPairsHook members = .ok members →
      (∀ m ∈ members, Unpaired m.1) → (∀ m ∈ members, Passes hooks d m.2) →
      Passes hooks (d + 1) (.object members)

section Strings

variable {escape : Codepoint → Text}

theorem joinSurrogates_of_unpaired {units : List StringUnit} (h : Unpaired (units.map (·.code))) :
    joinSurrogates units = units.map (·.code) := by
  induction units with
  | nil => rfl
  | cons unit rest ih =>
    rcases rest with - | ⟨next, rest⟩
    · rfl
    · obtain ⟨hpair, hrest⟩ := List.isChain_cons_cons.mp h
      rw [joinSurrogates, if_neg, ih hrest]
      · rfl
      · rintro ⟨⟨-, hhigh⟩, -, hlow⟩
        exact hpair ⟨hhigh, hlow⟩

theorem scanString_flatMap (hescape : Escapes escape) (t rest : Text) :
    ∃ units : List StringUnit, units.map (·.code) = t ∧
      scanString 0 (t.flatMap escape ++ (text "\"" ++ rest)) =
        some (units, (t.flatMap escape).length + 1) := by
  induction t with
  | nil => exact ⟨[], rfl, rfl⟩
  | cons c t ih =>
    obtain ⟨units, hunits, hscan⟩ := ih
    obtain ⟨hexadecimal, hc⟩ := hescape c
    refine ⟨⟨c, hexadecimal⟩ :: units, by rw [List.map_cons, hunits], ?_⟩
    rw [List.flatMap_cons, List.append_assoc, hc, hscan, List.length_append]
    simp only [Option.map_some, Option.some.injEq, Prod.mk.injEq, true_and]
    omega

theorem scanFrom_length (s rest : Text) : scanFrom s.length (s ++ rest) = scan rest := by
  induction s with
  | nil => rfl
  | cons c s ih => exact ih

/-- A token and what follows it. -/
theorem scan_token {c : Codepoint} {s rest : Text} {token : Token} (hblank : isJsonBlank c = false)
    (h : scanToken c (s ++ rest) = (token, s.length)) :
    scan (c :: (s ++ rest)) = token :: scan rest := by
  rw [scan, scanFrom, hblank, h, scanFrom_length]
  rfl

theorem scan_quoted (hescape : Escapes escape) {t : Text} (ht : Unpaired t) (rest : Text) :
    scan (quoted escape t ++ rest) = .string t :: scan rest := by
  obtain ⟨units, hunits, hscan⟩ := scanString_flatMap hescape t rest
  have hjoin : joinSurrogates units = t := by
    rw [joinSurrogates_of_unpaired (hunits.symm ▸ ht), hunits]
  have htoken : scanToken (ascii 0x22 (by decide)) ((t.flatMap escape ++ text "\"") ++ rest) =
      (.string t, (t.flatMap escape ++ text "\"").length) := by
    unfold scanToken
    rw [List.append_assoc, hscan]
    simp only [ascii, hjoin, List.length_append]
    rfl
  have h := scan_token (by decide) htoken
  rwa [← List.cons_append] at h

end Strings

section Numbers

/-- What may follow a value. -/
def Ends (t : Text) : Prop := ∀ c ∈ t.head?, c.val = 0x2c ∨ c.val = 0x5d ∨ c.val = 0x7d

variable {n : ℕ} {rest : Text}

theorem isAsciiDigit_eq_true {c : Codepoint} :
    isAsciiDigit c = true ↔ 0x30 ≤ c.val ∧ c.val ≤ 0x39 := by
  rw [isAsciiDigit, Bool.and_eq_true]
  exact and_congr decide_eq_true_iff decide_eq_true_iff

theorem isAsciiDigit_digit (d : ℕ) : isAsciiDigit (decimalDigits.digit d) = true := by
  rw [isAsciiDigit_eq_true]
  simp only [decimalDigits]
  omega

theorem forall_digit_padded (width n : ℕ) :
    ∀ c ∈ decimalDigits.padded width n, isAsciiDigit c = true := by
  intro c hc
  obtain ⟨d, -, rfl⟩ := decimalDigits.mem_padded hc
  exact isAsciiDigit_digit d

/-- A numeral has a first digit, which is zero only in zero itself. -/
theorem exists_decimal (n : ℕ) : ∃ d s, decimalDigits.decimal n = decimalDigits.digit d :: s ∧
    d < 10 ∧ (d = 0 → s = []) := by
  rcases Nat.eq_zero_or_pos n with rfl | hn
  · exact ⟨0, [], by decide, by decide, fun _ => rfl⟩
  · have hne : Nat.digits 10 n ≠ [] := Nat.digits_ne_nil_iff_ne_zero.mpr hn.ne'
    have hlength := List.length_pos_of_ne_nil hne
    have hdigits : Nat.digitsAppend 10 1 n = Nat.digits 10 n := by
      rw [Nat.digitsAppend, show 1 - (Nat.digits 10 n).length = 0 by omega, List.replicate_zero,
        List.append_nil]
    have hsplit := List.dropLast_append_getLast hne
    refine ⟨(Nat.digits 10 n).getLast hne,
      (Nat.digits 10 n).dropLast.reverse.map decimalDigits.digit, ?_, ?_, ?_⟩
    · rw [Format.Digits.decimal, Format.Digits.padded, hdigits]
      conv_lhs => rw [← hsplit]
      rw [List.reverse_append, List.map_append]
      rfl
    · exact Nat.digits_lt_base (by decide) (List.getLast_mem hne)
    · intro hzero
      exact absurd hzero (Nat.getLast_digit_ne_zero 10 hn.ne')

theorem takeWhile_digits {s : Text} (hs : ∀ c ∈ s, isAsciiDigit c = true) (hrest : Ends rest) :
    (s ++ rest).takeWhile isAsciiDigit = s := by
  rw [List.takeWhile_append_of_pos hs]
  rcases rest with - | ⟨c, rest⟩
  · rw [List.takeWhile_nil, List.append_nil]
  · have hc := hrest c rfl
    rw [List.takeWhile_cons_of_neg, List.append_nil]
    rw [isAsciiDigit_eq_true]
    omega

theorem scanWhole_decimal (hrest : Ends rest) :
    scanWhole (decimalDigits.decimal n ++ rest) = decimalDigits.decimal n := by
  obtain ⟨d, s, hd, hlt, hzero⟩ := exists_decimal n
  have hall : ∀ c ∈ decimalDigits.decimal n, isAsciiDigit c = true := forall_digit_padded 1 n
  unfold scanWhole
  split
  · next hhead =>
    rw [hd, List.cons_append, List.head?_cons, Option.any_some, decide_eq_true_eq] at hhead
    have hd0 : d = 0 := by
      simp only [decimalDigits] at hhead
      omega
    rw [hd, hzero hd0]
    rfl
  · exact takeWhile_digits hall hrest

theorem scanNumber_decimal (hrest : Ends rest) (negative : Bool) :
    scanNumber ((if negative then text "-" else []) ++ (decimalDigits.decimal n ++ rest)) =
      some ⟨negative, decimalDigits.decimal n, [], []⟩ := by
  obtain ⟨d, s, hd, hlt, -⟩ := exists_decimal n
  have hsign : ((if negative then text "-" else []) ++
      (decimalDigits.decimal n ++ rest)).head?.any (fun c => c.val = 0x2d) = negative := by
    cases negative with
    | true => rfl
    | false =>
      have hdigit := isAsciiDigit_eq_true.mp (isAsciiDigit_digit d)
      rw [if_neg Bool.false_ne_true, List.nil_append, hd, List.cons_append, List.head?_cons,
        Option.any_some, decide_eq_false_iff_not]
      omega
  have hdrop : (if negative then ((if negative then text "-" else []) ++
      (decimalDigits.decimal n ++ rest)).drop 1 else (if negative then text "-" else []) ++
      (decimalDigits.decimal n ++ rest)) = decimalDigits.decimal n ++ rest := by
    cases negative <;> rfl
  have hne : decimalDigits.decimal n ≠ [] := by
    rw [hd]
    exact List.cons_ne_nil _ _
  have hfraction : scanFraction rest = [] := by
    unfold scanFraction
    rw [if_neg]
    intro h
    obtain ⟨c, hc, hpoint⟩ := (Option.any_eq_true _ _).mp h
    have := hrest c hc
    simp only [decide_eq_true_eq] at hpoint
    omega
  have hexponent : scanExponent rest = [] := by
    unfold scanExponent
    rw [if_neg]
    intro h
    obtain ⟨c, hc, hletter⟩ := (Option.any_eq_true _ _).mp h
    have := hrest c hc
    simp only [decide_eq_true_eq] at hletter
    omega
  unfold scanNumber
  simp only [hsign, hdrop, scanWhole_decimal hrest, hne, if_false, List.drop_left, hfraction,
    if_true, hexponent]

theorem of_mem_words {word : Text} {token : Token} (h : (word, token) ∈ words) :
    ∃ c d s, word = c :: d :: s ∧ isAsciiDigit c = false ∧ isAsciiDigit d = false := by
  simp only [words, List.mem_cons, List.not_mem_nil, or_false, Prod.mk.injEq] at h
  rcases h with ⟨rfl, -⟩ | ⟨rfl, -⟩ | ⟨rfl, -⟩ | ⟨rfl, -⟩ | ⟨rfl, -⟩ | ⟨rfl, -⟩
  all_goals exact ⟨_, _, _, rfl, by decide, by decide⟩

/-- No word begins as a number does. -/
theorem find_words_integer (m : ℤ) (rest : Text) :
    (words.find? fun (word, _) => word.isPrefixOf (integerText m ++ rest)) = none := by
  obtain ⟨digit, s, hdigit, -, -⟩ := exists_decimal m.natAbs
  rw [List.find?_eq_none]
  rintro ⟨word, token⟩ hword hprefix
  obtain ⟨c, d, s', rfl, hc, hd⟩ := of_mem_words hword
  obtain ⟨r, hr⟩ := List.isPrefixOf_iff_prefix.mp hprefix
  unfold integerText at hr
  rw [hdigit] at hr
  split at hr
  · have hsecond := List.head_eq_of_cons_eq (List.tail_eq_of_cons_eq hr)
    rw [hsecond, isAsciiDigit_digit] at hd
    cases hd
  · have hfirst := List.head_eq_of_cons_eq hr
    rw [hfirst, isAsciiDigit_digit] at hc
    cases hc

theorem exists_integerText (m : ℤ) : ∃ c s, integerText m = c :: s ∧
    (c.val = 0x2d ∨ 0x30 ≤ c.val ∧ c.val ≤ 0x39) := by
  obtain ⟨digit, s, hdigit, -, -⟩ := exists_decimal m.natAbs
  unfold integerText
  rw [hdigit]
  split
  · exact ⟨_, _, rfl, .inl rfl⟩
  · exact ⟨_, _, rfl, .inr (isAsciiDigit_eq_true.mp (isAsciiDigit_digit digit))⟩

theorem text_integerLiteral (m : ℤ) : (integerLiteral m).text = integerText m := by
  simp only [Literal.text, integerLiteral, integerText, decide_eq_true_eq, if_true,
    List.append_nil]

theorem scan_integerText (m : ℤ) (hrest : Ends rest) :
    scan (integerText m ++ rest) = .number (integerLiteral m) :: scan rest := by
  have hnumber := scanNumber_decimal (n := m.natAbs) hrest (decide (m < 0))
  have hwords := find_words_integer m rest
  have htext := text_integerLiteral m
  obtain ⟨c, s, hcs, hc⟩ := exists_integerText m
  have hscan : scanNumber (c :: (s ++ rest)) = some (integerLiteral m) := by
    rw [← List.cons_append, ← hcs, integerText, List.append_assoc]
    simpa only [decide_eq_true_eq, integerLiteral] using hnumber
  rw [hcs] at hwords htext ⊢
  refine scan_token ?_ ?_
  · simp only [isJsonBlank, Bool.or_eq_false_iff, decide_eq_false_iff_not]
    omega
  · unfold scanToken
    rw [if_neg (by omega), if_neg (by omega), if_neg (by omega), if_neg (by omega),
      if_neg (by omega), if_neg (by omega), if_neg (by omega)]
    rw [List.cons_append] at hwords
    simp only [hwords, hscan, htext]
    rfl

end Numbers

section Characters

variable {escape : Codepoint → Text} {p : Codepoint → Prop}

theorem forall_text {s : String} (hascii : ∀ c : Codepoint, c.val < 0x80 → p c)
    (hs : (text s).all (fun c => c.val < 0x80) = true) : ∀ c ∈ text s, p c :=
  fun c hc => hascii c (of_decide_eq_true (List.all_eq_true.mp hs c hc))

theorem forall_quoted (hascii : ∀ c : Codepoint, c.val < 0x80 → p c)
    (hescape : ∀ c, ∀ d ∈ escape c, p d) (t : Text) : ∀ c ∈ quoted escape t, p c := by
  have hquote : ∀ c ∈ text "\"", p c := forall_text hascii (by decide)
  intro c hc
  rcases List.mem_append.mp hc with hc | hc
  · rcases List.mem_append.mp hc with hc | hc
    · exact hquote c hc
    · obtain ⟨d, -, hcd⟩ := List.mem_flatMap.mp hc
      exact hescape d c hcd
  · exact hquote c hc

theorem forall_integerText (hascii : ∀ c : Codepoint, c.val < 0x80 → p c) (n : ℤ) :
    ∀ c ∈ integerText n, p c := by
  intro c hc
  rcases List.mem_append.mp hc with hc | hc
  · split at hc
    · exact forall_text hascii (by decide) c hc
    · cases hc
  · have := isAsciiDigit_eq_true.mp (forall_digit_padded 1 _ c hc)
    exact hascii c (by omega)

theorem forall_intercalate {parts : List Text} {separator : Text}
    (hseparator : ∀ c ∈ separator, p c) (hparts : ∀ part ∈ parts, ∀ c ∈ part, p c) :
    ∀ c ∈ List.intercalate separator parts, p c := by
  induction parts with
  | nil => rintro c ⟨⟩
  | cons part parts ih =>
    obtain ⟨hpart, hparts⟩ := List.forall_mem_cons.mp hparts
    rcases parts with - | ⟨part', parts⟩
    · rwa [List.intercalate_singleton]
    · rw [List.intercalate_cons_cons]
      intro c hc
      rcases List.mem_append.mp hc with hc | hc
      · rcases List.mem_append.mp hc with hc | hc
        · exact hpart c hc
        · exact hseparator c hc
      · exact ih hparts c hc

mutual

/-- What holds of the characters of ASCII and of all escapes holds of what is written. -/
theorem forall_write (hascii : ∀ c : Codepoint, c.val < 0x80 → p c)
    (hescape : ∀ c, ∀ d ∈ escape c, p d) :
    ∀ (v : Json) {t : Text}, write escape v = some t → ∀ c ∈ t, p c
  | .null, _, h => by
    cases h
    exact forall_text hascii (by decide)
  | .boolean true, _, h => by
    cases h
    exact forall_text hascii (by decide)
  | .boolean false, _, h => by
    cases h
    exact forall_text hascii (by decide)
  | .integer n, _, h => by
    cases h
    exact forall_integerText hascii n
  | .string t, _, h => by
    cases h
    exact forall_quoted hascii hescape t
  | .array values, _, h => by
    obtain ⟨parts, hparts, rfl⟩ := Option.map_eq_some_iff.mp h
    have hcomma : ∀ c ∈ text ",", p c := forall_text hascii (by decide)
    have hall := forall_intercalate hcomma (forall_writeValues hascii hescape values hparts)
    intro c hc
    rcases List.mem_append.mp hc with hc | hc
    · rcases List.mem_append.mp hc with hc | hc
      · exact forall_text hascii (by decide) c hc
      · exact hall c hc
    · exact forall_text hascii (by decide) c hc
  | .object members, _, h => by
    obtain ⟨parts, hparts, rfl⟩ := Option.map_eq_some_iff.mp h
    have hcomma : ∀ c ∈ text ",", p c := forall_text hascii (by decide)
    have hall := forall_intercalate hcomma (forall_writeMembers hascii hescape members hparts)
    intro c hc
    rcases List.mem_append.mp hc with hc | hc
    · rcases List.mem_append.mp hc with hc | hc
      · exact forall_text hascii (by decide) c hc
      · exact hall c hc
    · exact forall_text hascii (by decide) c hc

theorem forall_writeValues (hascii : ∀ c : Codepoint, c.val < 0x80 → p c)
    (hescape : ∀ c, ∀ d ∈ escape c, p d) :
    ∀ (values : List Json) {parts : List Text}, writeValues escape values = some parts →
      ∀ part ∈ parts, ∀ c ∈ part, p c
  | [], _, h => by
    cases h
    rintro part ⟨⟩
  | v :: values, _, h => by
    rw [writeValues] at h
    obtain ⟨part, hpart, h⟩ := Option.bind_eq_some_iff.mp h
    obtain ⟨parts, hparts, h⟩ := Option.bind_eq_some_iff.mp h
    cases h
    exact List.forall_mem_cons.mpr ⟨forall_write hascii hescape v hpart,
      forall_writeValues hascii hescape values hparts⟩

theorem forall_writeMembers (hascii : ∀ c : Codepoint, c.val < 0x80 → p c)
    (hescape : ∀ c, ∀ d ∈ escape c, p d) :
    ∀ (members : List (Text × Json)) {parts : List Text},
      writeMembers escape members = some parts → ∀ part ∈ parts, ∀ c ∈ part, p c
  | [], _, h => by
    cases h
    rintro part ⟨⟩
  | (name, v) :: members, _, h => by
    rw [writeMembers] at h
    obtain ⟨part, hpart, h⟩ := Option.bind_eq_some_iff.mp h
    obtain ⟨parts, hparts, h⟩ := Option.bind_eq_some_iff.mp h
    cases h
    refine List.forall_mem_cons.mpr ⟨fun c hc => ?_,
      forall_writeMembers hascii hescape members hparts⟩
    rcases List.mem_append.mp hc with hc | hc
    · rcases List.mem_append.mp hc with hc | hc
      · exact forall_quoted hascii hescape name c hc
      · exact forall_text hascii (by decide) c hc
    · exact forall_write hascii hescape v hpart c hc

end

end Characters

section Reading

open Reader

variable {ε : Type} {hooks : Hooks ε} {maxDepth d : ℕ} {escape : Codepoint → Text}
  {frames : List Frame} {rest t : Text}

/-- `v` is read where a value may stand. -/
def Reads (escape : Codepoint → Text) (hooks : Hooks ε) (maxDepth d : ℕ) (v : Json) : Prop :=
  ∀ t frames rest, write escape v = some t → frames.length + d ≤ maxDepth → Ends rest →
    run hooks maxDepth (.value frames) (scan (t ++ rest)) =
      run hooks maxDepth (accept v frames) (scan rest)

theorem scanToken_ne_endArray {c : Codepoint} (hc : c.val ≠ 0x5d) (t : Text) :
    (scanToken c t).1 ≠ .endArray := by
  unfold scanToken
  simp only [hc, if_false]
  repeat' split
  all_goals first | exact Token.noConfusion | skip
  next hfind =>
    have hmem := List.mem_of_find?_eq_some hfind
    simp only [words, List.mem_cons, List.not_mem_nil, or_false, Prod.mk.injEq] at hmem
    rcases hmem with ⟨-, rfl⟩ | ⟨-, rfl⟩ | ⟨-, rfl⟩ | ⟨-, rfl⟩ | ⟨-, rfl⟩ | ⟨-, rfl⟩ <;>
      exact Token.noConfusion

/-- A value begins with a token of its own. -/
theorem exists_write {v : Json} (h : write escape v = some t) :
    ∃ c s, t = c :: s ∧ isJsonBlank c = false ∧ c.val ≠ 0x5d := by
  cases v with
  | null =>
    cases h
    exact ⟨_, _, rfl, by decide, by decide⟩
  | boolean b =>
    cases b <;> cases h <;> exact ⟨_, _, rfl, by decide, by decide⟩
  | integer n =>
    cases h
    obtain ⟨c, s, hcs, hc⟩ := exists_integerText n
    refine ⟨c, s, hcs, ?_, by omega⟩
    simp only [isJsonBlank, Bool.or_eq_false_iff, decide_eq_false_iff_not]
    omega
  | decimal _ => cases h
  | string _ =>
    cases h
    exact ⟨_, _, rfl, by decide, by decide⟩
  | array _ =>
    obtain ⟨parts, -, rfl⟩ := Option.map_eq_some_iff.mp h
    exact ⟨_, _, rfl, by decide, by decide⟩
  | object _ =>
    obtain ⟨parts, -, rfl⟩ := Option.map_eq_some_iff.mp h
    exact ⟨_, _, rfl, by decide, by decide⟩

/-- The first value of an array is read as any other. -/
theorem run_firstValue {v : Json} (h : write escape v = some t) :
    run hooks maxDepth (.firstValue frames) (scan (t ++ rest)) =
      run hooks maxDepth (.value (.array [] :: frames)) (scan (t ++ rest)) := by
  obtain ⟨c, s, rfl, hblank, hc⟩ := exists_write h
  have hne := scanToken_ne_endArray hc (s ++ rest)
  have hscan : scan (c :: (s ++ rest)) =
      (scanToken c (s ++ rest)).1 :: scanFrom (scanToken c (s ++ rest)).2 (s ++ rest) := by
    rw [scan, scanFrom, hblank]
    rfl
  rw [List.cons_append, hscan, run_cons, run_cons, step_firstValue frames hne]
  rfl

theorem ends_comma : Ends (text "," ++ rest) := by
  rintro c ⟨⟩
  exact .inl rfl

theorem ends_bracket : Ends (text "]" ++ rest) := by
  rintro c ⟨⟩
  exact .inr (.inl rfl)

theorem ends_brace : Ends (text "\x7d" ++ rest) := by
  rintro c ⟨⟩
  exact .inr (.inr rfl)

/-- The values of an array up to its end. -/
theorem run_values {values : List Json} (hreads : ∀ v ∈ values, Reads escape hooks maxDepth d v)
    (hdepth : frames.length + 1 + d ≤ maxDepth) (hne : values ≠ []) (done : List Json)
    {parts : List Text} (h : writeValues escape values = some parts) (rest : Text) :
    run hooks maxDepth (.value (.array done :: frames))
        (scan (List.intercalate (text ",") parts ++ (text "]" ++ rest))) =
      run hooks maxDepth (accept (.array (done ++ values)) frames) (scan rest) := by
  induction values generalizing done parts with
  | nil => exact absurd rfl hne
  | cons v values ih =>
    rw [writeValues] at h
    obtain ⟨part, hpart, h⟩ := Option.bind_eq_some_iff.mp h
    obtain ⟨more, hmore, h⟩ := Option.bind_eq_some_iff.mp h
    obtain rfl := Option.some.inj h
    have hread := hreads v List.mem_cons_self
    rcases values with - | ⟨v', values⟩
    · cases hmore
      rw [List.intercalate_singleton, hread part (.array done :: frames) _ hpart hdepth ends_bracket]
      rfl
    · obtain ⟨part', more, rfl⟩ : ∃ part' more', more = part' :: more' := by
        rw [writeValues] at hmore
        obtain ⟨part', -, hmore⟩ := Option.bind_eq_some_iff.mp hmore
        obtain ⟨more', -, hmore⟩ := Option.bind_eq_some_iff.mp hmore
        exact ⟨part', more', (Option.some.inj hmore).symm⟩
      rw [List.intercalate_cons_cons, List.append_assoc, List.append_assoc,
        hread part (.array done :: frames) _ hpart hdepth ends_comma]
      have hrest := ih (fun v hv => hreads v (List.mem_cons_of_mem _ hv)) (List.cons_ne_nil _ _)
        (done ++ [v]) hmore
      rw [List.append_assoc, List.singleton_append] at hrest
      exact hrest

/-- The members of an object up to its end. -/
theorem run_members (hescape : Escapes escape) {members : Payload}
    (hnames : ∀ m ∈ members, Unpaired m.1)
    (hreads : ∀ m ∈ members, Reads escape hooks maxDepth d m.2)
    (hdepth : frames.length + 1 + d ≤ maxDepth) (hne : members ≠ []) (done : Payload)
    {parts : List Text} (h : writeMembers escape members = some parts) (rest : Text) :
    run hooks maxDepth (.name done frames)
        (scan (List.intercalate (text ",") parts ++ (text "\x7d" ++ rest))) =
      (close hooks (done ++ members) frames).bind fun r => run hooks maxDepth r (scan rest) := by
  induction members generalizing done parts with
  | nil => exact absurd rfl hne
  | cons m members ih =>
    obtain ⟨n, v⟩ := m
    rw [writeMembers] at h
    obtain ⟨part, hpart, h⟩ := Option.bind_eq_some_iff.mp h
    obtain ⟨more, hmore, h⟩ := Option.bind_eq_some_iff.mp h
    obtain rfl := Option.some.inj h
    have hread := hreads (n, v) List.mem_cons_self
    have hname (rest : Text) : run hooks maxDepth (.name done frames)
        (scan (quoted escape n ++ text ":" ++ part ++ rest)) =
        run hooks maxDepth (.value (.member done n :: frames)) (scan (part ++ rest)) := by
      rw [List.append_assoc, List.append_assoc,
        scan_quoted hescape (hnames (n, v) List.mem_cons_self)]
      rfl
    rcases members with - | ⟨m', members⟩
    · cases hmore
      rw [List.intercalate_singleton, hname, hread part (.member done n :: frames) _ hpart hdepth ends_brace]
      rfl
    · obtain ⟨part', more, rfl⟩ : ∃ part' more', more = part' :: more' := by
        rw [writeMembers] at hmore
        obtain ⟨part', -, hmore⟩ := Option.bind_eq_some_iff.mp hmore
        obtain ⟨more', -, hmore⟩ := Option.bind_eq_some_iff.mp hmore
        exact ⟨_, more', (Option.some.inj hmore).symm⟩
      rw [List.intercalate_cons_cons, List.append_assoc, List.append_assoc, hname,
        hread part (.member done n :: frames) _ hpart hdepth ends_comma]
      have hrest := ih (fun m hm => hnames m (List.mem_cons_of_mem _ hm))
        (fun m hm => hreads m (List.mem_cons_of_mem _ hm)) (List.cons_ne_nil _ _)
        (done ++ [(n, v)]) hmore
      rw [List.append_assoc, List.singleton_append] at hrest
      exact hrest

/-- A value that passes the hooks is read as it was written. -/
theorem reads_of_passes (hescape : Escapes escape) {v : Json} (h : Passes hooks d v) :
    Reads escape hooks maxDepth d v := by
  induction h with
  | null =>
    rintro _ frames rest ⟨⟩ - -
    rfl
  | boolean d b =>
    intro t frames rest hwrite _ _
    cases b <;> cases hwrite <;> rfl
  | integer d n hn =>
    rintro _ frames rest ⟨⟩ - hends
    rw [scan_integerText n hends, run_cons]
    simp only [step, beginValue, convert, Literal.isInteger, integerLiteral, List.isEmpty_nil,
      Bool.and_self, if_true]
    rw [← integerLiteral, hn]
    rfl
  | string d t ht =>
    rintro _ frames rest ⟨⟩ - -
    rw [scan_quoted hescape ht]
    rfl
  | array d values _ ih =>
    intro t frames rest hwrite hdepth hends
    obtain ⟨parts, hparts, rfl⟩ := Option.map_eq_some_iff.mp hwrite
    have hopen (tokens : List Token) : run hooks maxDepth (.value frames) (.beginArray :: tokens) =
        run hooks maxDepth (.firstValue frames) tokens := by
      rw [run_cons, step, beginValue, nest, if_pos (by omega)]
      rfl
    rw [List.append_assoc, List.append_assoc]
    rw [show scan (text "[" ++ (List.intercalate (text ",") parts ++ (text "]" ++ rest))) =
      .beginArray :: scan (List.intercalate (text ",") parts ++ (text "]" ++ rest)) from rfl, hopen]
    rcases values with - | ⟨v, values⟩
    · cases hparts
      rfl
    · have hlevel : frames.length + 1 + d ≤ maxDepth := by omega
      have hfirst := run_values ih hlevel (List.cons_ne_nil v values) [] hparts rest
      rw [List.nil_append] at hfirst
      rw [← hfirst]
      rw [writeValues] at hparts
      obtain ⟨part, hpart, hparts⟩ := Option.bind_eq_some_iff.mp hparts
      obtain ⟨more, -, hparts⟩ := Option.bind_eq_some_iff.mp hparts
      obtain rfl := Option.some.inj hparts
      rcases more with - | ⟨part', more⟩
      · rw [List.intercalate_singleton, run_firstValue hpart]
      · rw [List.intercalate_cons_cons, List.append_assoc, List.append_assoc,
          run_firstValue hpart]
  | object d members hhook hnames _ ih =>
    intro t frames rest hwrite hdepth hends
    obtain ⟨parts, hparts, rfl⟩ := Option.map_eq_some_iff.mp hwrite
    have hopen (tokens : List Token) : run hooks maxDepth (.value frames) (.beginObject :: tokens) =
        run hooks maxDepth (.firstName frames) tokens := by
      rw [run_cons, step, beginValue, nest, if_pos (by omega)]
      rfl
    have hclose : close hooks members frames = .ok (accept (.object members) frames) := by
      rw [close, hhook]
      rfl
    rw [List.append_assoc, List.append_assoc]
    rw [show scan (text "\x7b" ++ (List.intercalate (text ",") parts ++ (text "\x7d" ++ rest))) =
      .beginObject :: scan (List.intercalate (text ",") parts ++ (text "\x7d" ++ rest)) from rfl,
      hopen]
    rcases members with - | ⟨⟨n, v⟩, members⟩
    · cases hparts
      rw [List.intercalate_nil, List.nil_append, show scan (text "\x7d" ++ rest) =
        .endObject :: scan rest from rfl, run_cons, step, hclose]
      rfl
    · have hlevel : frames.length + 1 + d ≤ maxDepth := by omega
      have hfirst := run_members hescape hnames ih hlevel (List.cons_ne_nil (n, v) members) []
        hparts rest
      rw [List.nil_append, hclose] at hfirst
      refine Eq.trans ?_ hfirst
      rw [writeMembers] at hparts
      obtain ⟨part, hpart, hparts⟩ := Option.bind_eq_some_iff.mp hparts
      obtain ⟨more, -, hparts⟩ := Option.bind_eq_some_iff.mp hparts
      obtain rfl := Option.some.inj hparts
      have hname := scan_quoted hescape (hnames (n, v) List.mem_cons_self)
      rcases more with - | ⟨part', more⟩
      · rw [List.intercalate_singleton, List.append_assoc, List.append_assoc, hname]
        rfl
      · rw [List.intercalate_cons_cons, List.append_assoc, List.append_assoc, List.append_assoc,
          List.append_assoc, hname]
        rfl

/-- An object is written if its values are. -/
theorem exists_writeMembers {members : Payload}
    (h : ∀ m ∈ members, ∃ t, write escape m.2 = some t) :
    ∃ parts, writeMembers escape members = some parts := by
  induction members with
  | nil => exact ⟨[], rfl⟩
  | cons m members ih =>
    obtain ⟨⟨part, hpart⟩, hmembers⟩ := List.forall_mem_cons.mp h
    obtain ⟨parts, hparts⟩ := ih hmembers
    refine ⟨(quoted escape m.1 ++ text ":" ++ part) :: parts, ?_⟩
    rw [writeMembers, hpart, hparts]
    rfl

/-- What is written is read back. -/
theorem loads_write (hescape : Escapes escape) {v : Json} (h : Passes hooks maxDepth v)
    (hwrite : write escape v = some t) : loads hooks maxDepth t = .ok v := by
  have hreads : Reads escape hooks maxDepth maxDepth v := reads_of_passes hescape h
  have hread := hreads t [] [] hwrite (by rw [List.length_nil, zero_add]) (by rintro c ⟨⟩)
  rw [List.append_nil] at hread
  exact hread

end Reading

end CafeFausse.Python
