import CafeFausse.Python.JsonDumps

/-! # JSON that is read back exactly

The texts within a value decide whether what is written of it can be encoded. A value whose numbers
and names pass the hooks is read back, with no limit on its depth.
-/

namespace CafeFausse.Python

section Texts

mutual

/-- The strings and names within a value. -/
def Json.texts : Json → List Text
  | .string t => [t]
  | .array values => textsOfValues values
  | .object members => textsOfMembers members
  | _ => []

def textsOfValues : List Json → List Text
  | [] => []
  | value :: values => value.texts ++ textsOfValues values

def textsOfMembers : List (Text × Json) → List Text
  | [] => []
  | (name, value) :: members => name :: value.texts ++ textsOfMembers members

end

mutual

/-- The integers within a value. -/
def Json.integers : Json → List ℤ
  | .integer n => [n]
  | .array values => integersOfValues values
  | .object members => integersOfMembers members
  | _ => []

def integersOfValues : List Json → List ℤ
  | [] => []
  | value :: values => value.integers ++ integersOfValues values

def integersOfMembers : List (Text × Json) → List ℤ
  | [] => []
  | (_, value) :: members => value.integers ++ integersOfMembers members

end

/-- No half of a surrogate pair. -/
def ScalarText (t : Text) : Prop := ∀ c ∈ t, Format.Utf8.Scalar c.val

instance (t : Text) : Decidable (ScalarText t) := List.decidableBAll _ t

theorem scalarText_append {s t : Text} : ScalarText (s ++ t) ↔ ScalarText s ∧ ScalarText t :=
  List.forall_mem_append

theorem scalarText_of_ascii {t : Text} (h : ∀ c ∈ t, c.val < 0x80) : ScalarText t := by
  intro c hc
  have := h c hc
  unfold Format.Utf8.Scalar
  omega

/-- What stands in the source is written with characters. -/
theorem scalarText_text (s : String) : ScalarText (text s) := by
  intro c hc
  obtain ⟨a, -, rfl⟩ := List.mem_map.mp hc
  have hvalid := a.valid
  unfold Format.Utf8.Scalar
  change ¬ (0xd800 ≤ a.val.toNat ∧ a.val.toNat ≤ 0xdfff)
  rcases hvalid with hvalid | hvalid
  · intro h
    have : a.val.toNat < 0xd800 := hvalid
    omega
  · intro h
    have : 0xdfff < a.val.toNat := hvalid.1
    omega

theorem unpaired_of_scalarText {t : Text} (h : ScalarText t) : Unpaired t := by
  induction t with
  | nil => exact List.IsChain.nil
  | cons c t ih =>
    obtain ⟨hc, ht⟩ := List.forall_mem_cons.mp h
    rcases t with - | ⟨d, t⟩
    · exact List.IsChain.singleton c
    · apply List.isChain_cons_cons.mpr
      refine ⟨?_, ih ht⟩
      rintro ⟨⟨hlow, hhigh⟩, -⟩
      exact hc ⟨hlow, hhigh.trans (by decide)⟩

/-- A half of a pair is written as it is. -/
theorem scalarText_dumpsEscape {c : Codepoint} :
    ScalarText (dumpsEscape c) ↔ Format.Utf8.Scalar c.val := by
  constructor
  · intro h hc
    apply h c _ hc
    unfold dumpsEscape
    repeat rw [if_neg (by omega)]
    exact List.mem_singleton_self c
  · intro h d hd
    rcases mem_dumpsEscape hd with hd | rfl
    · exact scalarText_of_ascii (List.forall_mem_singleton.mpr hd) d (List.mem_singleton_self d)
    · exact h

theorem scalarText_quoted {t : Text} : ScalarText (quoted dumpsEscape t) ↔ ScalarText t := by
  have hquote : ScalarText (text "\"") := scalarText_text _
  have hescapes : ScalarText (t.flatMap dumpsEscape) ↔ ScalarText t := by
    unfold ScalarText
    rw [List.forall_mem_flatMap]
    exact forall₂_congr fun c _ => scalarText_dumpsEscape
  rw [quoted, scalarText_append, scalarText_append, hescapes]
  exact ⟨fun h => h.1.2, fun h => ⟨⟨hquote, h⟩, hquote⟩⟩

theorem scalarText_integerText (n : ℤ) : ScalarText (integerText n) :=
  scalarText_of_ascii (forall_integerText (fun _ hc => hc) n)

theorem scalarText_intercalate {parts : List Text} :
    ScalarText (List.intercalate (text ",") parts) ↔ ∀ part ∈ parts, ScalarText part := by
  have hcomma : ScalarText (text ",") := scalarText_text _
  induction parts with
  | nil => exact ⟨fun _ => List.forall_mem_nil _, fun _ => List.forall_mem_nil _⟩
  | cons part parts ih =>
    rcases parts with - | ⟨part', parts⟩
    · rw [List.intercalate_singleton, List.forall_mem_singleton]
    · rw [List.intercalate_cons_cons, scalarText_append, scalarText_append, List.forall_mem_cons]
      exact ⟨fun h => ⟨h.1.1, ih.mp h.2⟩, fun h => ⟨⟨h.1, hcomma⟩, ih.mpr h.2⟩⟩

mutual

/-- What is written can be encoded if the texts can. -/
theorem scalarText_write : ∀ (v : Json) {t : Text}, write dumpsEscape v = some t →
    (ScalarText t ↔ ∀ s ∈ v.texts, ScalarText s)
  | .null, _, h => by
    cases h
    exact iff_of_true (scalarText_text _) (List.forall_mem_nil _)
  | .boolean true, _, h => by
    cases h
    exact iff_of_true (scalarText_text _) (List.forall_mem_nil _)
  | .boolean false, _, h => by
    cases h
    exact iff_of_true (scalarText_text _) (List.forall_mem_nil _)
  | .integer n, _, h => by
    cases h
    exact iff_of_true (scalarText_integerText n) (List.forall_mem_nil _)
  | .string t, _, h => by
    cases h
    rw [scalarText_quoted, Json.texts, List.forall_mem_singleton]
  | .array values, _, h => by
    obtain ⟨parts, hparts, rfl⟩ := Option.map_eq_some_iff.mp h
    rw [scalarText_append, scalarText_append, scalarText_intercalate, Json.texts,
      ← scalarText_writeValues values hparts]
    exact ⟨fun h => h.1.2, fun h => ⟨⟨scalarText_text _, h⟩, scalarText_text _⟩⟩
  | .object members, _, h => by
    obtain ⟨parts, hparts, rfl⟩ := Option.map_eq_some_iff.mp h
    rw [scalarText_append, scalarText_append, scalarText_intercalate, Json.texts,
      ← scalarText_writeMembers members hparts]
    exact ⟨fun h => h.1.2, fun h => ⟨⟨scalarText_text _, h⟩, scalarText_text _⟩⟩

theorem scalarText_writeValues : ∀ (values : List Json) {parts : List Text},
    writeValues dumpsEscape values = some parts →
      ((∀ part ∈ parts, ScalarText part) ↔ ∀ s ∈ textsOfValues values, ScalarText s)
  | [], _, h => by
    cases h
    exact iff_of_true (List.forall_mem_nil _) (List.forall_mem_nil _)
  | v :: values, _, h => by
    rw [writeValues] at h
    obtain ⟨part, hpart, h⟩ := Option.bind_eq_some_iff.mp h
    obtain ⟨parts, hparts, h⟩ := Option.bind_eq_some_iff.mp h
    cases h
    rw [List.forall_mem_cons, textsOfValues, List.forall_mem_append, scalarText_write v hpart,
      scalarText_writeValues values hparts]

theorem scalarText_writeMembers : ∀ (members : List (Text × Json)) {parts : List Text},
    writeMembers dumpsEscape members = some parts →
      ((∀ part ∈ parts, ScalarText part) ↔ ∀ s ∈ textsOfMembers members, ScalarText s)
  | [], _, h => by
    cases h
    exact iff_of_true (List.forall_mem_nil _) (List.forall_mem_nil _)
  | (name, v) :: members, _, h => by
    rw [writeMembers] at h
    obtain ⟨part, hpart, h⟩ := Option.bind_eq_some_iff.mp h
    obtain ⟨parts, hparts, h⟩ := Option.bind_eq_some_iff.mp h
    cases h
    rw [List.forall_mem_cons, textsOfMembers, List.forall_mem_append, List.forall_mem_cons,
      scalarText_append, scalarText_append, scalarText_quoted, scalarText_write v hpart,
      scalarText_writeMembers members hparts]
    exact ⟨fun h => ⟨⟨h.1.1.1, h.1.2⟩, h.2⟩, fun h => ⟨⟨⟨h.1.1, scalarText_text _⟩, h.1.2⟩, h.2⟩⟩

end

theorem mem_textsOfValues {values : List Json} {v : Json} {s : Text} (hv : v ∈ values)
    (hs : s ∈ v.texts) : s ∈ textsOfValues values := by
  induction values with
  | nil => cases hv
  | cons v' values ih =>
    rw [textsOfValues, List.mem_append]
    rcases List.mem_cons.mp hv with rfl | hv
    · exact .inl hs
    · exact .inr (ih hv)

theorem mem_textsOfMembers {members : Payload} {m : Text × Json} {s : Text} (hm : m ∈ members)
    (hs : s = m.1 ∨ s ∈ m.2.texts) : s ∈ textsOfMembers members := by
  induction members with
  | nil => cases hm
  | cons m' members ih =>
    rw [textsOfMembers, List.mem_append]
    rcases List.mem_cons.mp hm with rfl | hm
    · exact .inl (List.mem_cons.mpr hs)
    · exact .inr (ih hm)

end Texts

section Every

/-- Every number within a value satisfies `number`, the names of every object satisfy `names`, and
there is no `Decimal`. -/
inductive Every (number : ℤ → Prop) (names : List Text → Prop) : Json → Prop where
  | null : Every number names .null
  | boolean (b : Bool) : Every number names (.boolean b)
  | integer (n : ℤ) : number n → Every number names (.integer n)
  | string (t : Text) : Every number names (.string t)
  | array (values : List Json) : (∀ v ∈ values, Every number names v) →
      Every number names (.array values)
  | object (members : Payload) : names (members.map (·.1)) →
      (∀ m ∈ members, Every number names m.2) → Every number names (.object members)

variable {ε : Type} {hooks : Hooks ε} {escape : Codepoint → Text} {number : ℤ → Prop}
  {names : List Text → Prop} {v : Json} {t : Text}

theorem mem_integersOfValues {values : List Json} {n : ℤ} (hv : v ∈ values)
    (hn : n ∈ v.integers) : n ∈ integersOfValues values := by
  induction values with
  | nil => cases hv
  | cons v' values ih =>
    rw [integersOfValues, List.mem_append]
    rcases List.mem_cons.mp hv with rfl | hv
    · exact .inl hn
    · exact .inr (ih hv)

theorem mem_integersOfMembers {members : Payload} {m : Text × Json} {n : ℤ} (hm : m ∈ members)
    (hn : n ∈ m.2.integers) : n ∈ integersOfMembers members := by
  induction members with
  | nil => cases hm
  | cons m' members ih =>
    rw [integersOfMembers, List.mem_append]
    rcases List.mem_cons.mp hm with rfl | hm
    · exact .inl hn
    · exact .inr (ih hm)

theorem forall_integersOfMembers {members : Payload} {p : ℤ → Prop}
    (h : ∀ m ∈ members, ∀ n ∈ m.2.integers, p n) : ∀ n ∈ integersOfMembers members, p n := by
  induction members with
  | nil => exact List.forall_mem_nil p
  | cons m members ih =>
    obtain ⟨hm, hmembers⟩ := List.forall_mem_cons.mp h
    rw [integersOfMembers]
    exact List.forall_mem_append.mpr ⟨hm, ih hmembers⟩

theorem Every.of_integers {p : ℤ → Prop} (h : Every number names v)
    (hp : ∀ n ∈ v.integers, p n) : Every p names v := by
  induction h with
  | null => exact .null
  | boolean b => exact .boolean b
  | integer n _ => exact .integer n (hp n (List.mem_singleton_self n))
  | string t => exact .string t
  | array values _ ih =>
    exact .array values fun v hv => ih v hv fun n hn => hp n (mem_integersOfValues hv hn)
  | object members hl _ ih =>
    exact .object members hl fun m hm => ih m hm fun n hn => hp n (mem_integersOfMembers hm hn)

theorem exists_writeValues {values : List Json} (h : ∀ v ∈ values, ∃ t, write escape v = some t) :
    ∃ parts, writeValues escape values = some parts := by
  induction values with
  | nil => exact ⟨[], rfl⟩
  | cons v values ih =>
    obtain ⟨⟨part, hpart⟩, hvalues⟩ := List.forall_mem_cons.mp h
    obtain ⟨parts, hparts⟩ := ih hvalues
    refine ⟨part :: parts, ?_⟩
    rw [writeValues, hpart, hparts]
    rfl

theorem Every.exists_write (h : Every number names v) : ∃ t, write escape v = some t := by
  induction h with
  | null => exact ⟨_, rfl⟩
  | boolean b => cases b <;> exact ⟨_, rfl⟩
  | integer n => exact ⟨_, rfl⟩
  | string t => exact ⟨_, rfl⟩
  | array values _ ih =>
    obtain ⟨parts, hparts⟩ := exists_writeValues ih
    exact ⟨_, by rw [write, hparts, Option.map_some]⟩
  | object members _ _ ih =>
    obtain ⟨parts, hparts⟩ := exists_writeMembers ih
    exact ⟨_, by rw [write, hparts, Option.map_some]⟩

theorem Passes.mono {d e : ℕ} (h : Passes hooks d v) (hle : d ≤ e) : Passes hooks e v := by
  induction h generalizing e with
  | null => exact .null e
  | boolean d b => exact .boolean e b
  | integer d n hn => exact .integer e n hn
  | string d t ht => exact .string e t ht
  | array d values _ ih =>
    obtain ⟨e, rfl⟩ := Nat.exists_eq_add_of_lt hle
    exact .array _ values fun v hv => ih v hv (Nat.le_add_right d e)
  | object d members hhook hnames _ ih =>
    obtain ⟨e, rfl⟩ := Nat.exists_eq_add_of_lt hle
    exact .object _ members hhook hnames fun m hm => ih m hm (Nat.le_add_right d e)

theorem length_le_intercalate {separator part : Text} {parts : List Text} (h : part ∈ parts) :
    part.length ≤ (List.intercalate separator parts).length := by
  induction parts with
  | nil => cases h
  | cons part' parts ih =>
    rcases parts with - | ⟨part'', parts⟩
    · rw [List.intercalate_singleton, List.mem_singleton.mp h]
    · rw [List.intercalate_cons_cons, List.length_append, List.length_append]
      rcases List.mem_cons.mp h with rfl | h
      · omega
      · have := ih h
        omega

theorem exists_part_of_value {values : List Json} {parts : List Text}
    (h : writeValues escape values = some parts) (hv : v ∈ values) :
    ∃ part ∈ parts, write escape v = some part := by
  induction values generalizing parts with
  | nil => cases hv
  | cons v' values ih =>
    rw [writeValues] at h
    obtain ⟨part, hpart, h⟩ := Option.bind_eq_some_iff.mp h
    obtain ⟨more, hmore, h⟩ := Option.bind_eq_some_iff.mp h
    cases h
    rcases List.mem_cons.mp hv with rfl | hv
    · exact ⟨part, List.mem_cons_self, hpart⟩
    · obtain ⟨part', hmem, hpart'⟩ := ih hmore hv
      exact ⟨part', List.mem_cons_of_mem _ hmem, hpart'⟩

theorem exists_part_of_member {members : Payload} {m : Text × Json} {parts : List Text}
    (h : writeMembers escape members = some parts) (hm : m ∈ members) :
    ∃ part whole, whole ∈ parts ∧ part.length ≤ whole.length ∧ write escape m.2 = some part := by
  induction members generalizing parts with
  | nil => cases hm
  | cons m' members ih =>
    obtain ⟨name, v⟩ := m'
    rw [writeMembers] at h
    obtain ⟨part, hpart, h⟩ := Option.bind_eq_some_iff.mp h
    obtain ⟨more, hmore, h⟩ := Option.bind_eq_some_iff.mp h
    cases h
    rcases List.mem_cons.mp hm with rfl | hm
    · refine ⟨part, _, List.mem_cons_self, ?_, hpart⟩
      rw [List.length_append]
      exact Nat.le_add_left _ _
    · obtain ⟨part', whole, hmem, hle, hpart'⟩ := ih hmore hm
      exact ⟨part', whole, List.mem_cons_of_mem _ hmem, hle, hpart'⟩

/-- A value is nested no deeper than it is long. -/
theorem Every.passes
    (hnumber : ∀ n, number n → hooks.parseInt (integerLiteral n) = .ok (.integer n))
    (hnames : ∀ members : Payload, names (members.map (·.1)) →
      hooks.objectPairsHook members = .ok members)
    (h : Every number names v) (htexts : ∀ s ∈ v.texts, Unpaired s)
    (hwrite : write escape v = some t) : Passes hooks t.length v := by
  induction h generalizing t with
  | null => exact .null _
  | boolean b => exact .boolean _ b
  | integer n hn => exact .integer _ n (hnumber n hn)
  | string s => exact .string _ s (htexts s (List.mem_singleton_self s))
  | array values _ ih =>
    obtain ⟨parts, hparts, rfl⟩ := Option.map_eq_some_iff.mp hwrite
    have hlength : (text "[" ++ List.intercalate (text ",") parts ++ text "]").length =
        (List.intercalate (text ",") parts).length + 1 + 1 := by
      rw [List.length_append, List.length_append, Nat.add_comm (text "[").length]
      rfl
    rw [hlength]
    apply Passes.array
    intro v hv
    obtain ⟨part, hmem, hpart⟩ := exists_part_of_value hparts hv
    have hle : part.length ≤ (List.intercalate (text ",") parts).length :=
      length_le_intercalate hmem
    exact (ih v hv (fun s hs => htexts s (mem_textsOfValues hv hs)) hpart).mono (hle.trans (by omega))
  | object members hdistinct _ ih =>
    obtain ⟨parts, hparts, rfl⟩ := Option.map_eq_some_iff.mp hwrite
    have hlength : (text "\x7b" ++ List.intercalate (text ",") parts ++ text "\x7d").length =
        (List.intercalate (text ",") parts).length + 1 + 1 := by
      rw [List.length_append, List.length_append, Nat.add_comm (text "\x7b").length]
      rfl
    rw [hlength]
    apply Passes.object
    · exact hnames members hdistinct
    · exact fun m hm => htexts m.1 (mem_textsOfMembers hm (.inl rfl))
    · intro m hm
      obtain ⟨part, whole, hmem, hle, hpart⟩ := exists_part_of_member hparts hm
      have hwhole : whole.length ≤ (List.intercalate (text ",") parts).length :=
        length_le_intercalate hmem
      exact (ih m hm (fun s hs => htexts s (mem_textsOfMembers hm (.inr hs))) hpart).mono
        (hle.trans (hwhole.trans (by omega)))

end Every

end CafeFausse.Python
