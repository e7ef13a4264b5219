import Mathlib

/-! # UTF-8

A code point is one byte that tells how many follow, and those bytes with six bits each. The
strict decoder reads back what the encoder writes. No code point takes more than four bytes.
-/

namespace CafeFausse.Format.Utf8

/-- How many bytes follow the first one. -/
def following (c : ℕ) : ℕ :=
  if c < 0x80 then 0 else if c < 0x800 then 1 else if c < 0x10000 then 2 else 3

/-- The high bits of a first byte that `n` bytes follow. -/
def mark : ℕ → ℕ
  | 0 => 0
  | 1 => 0xc0
  | 2 => 0xe0
  | _ => 0xf0

/-- The last `n` bytes of a code point. -/
def continuation (c : ℕ) : ℕ → List UInt8
  | 0 => []
  | n + 1 => .ofNat (0x80 + c / 64 ^ n % 64) :: continuation c n

def encodeChar (c : Fin 0x110000) : List UInt8 :=
  .ofNat (mark (following c) + c / 64 ^ following c) :: continuation c (following c)

def encode (t : List (Fin 0x110000)) : List UInt8 := t.flatMap encodeChar

/-- No half of a surrogate pair. -/
def Scalar (c : ℕ) : Prop := ¬ (0xd800 ≤ c ∧ c ≤ 0xdfff)

instance (c : ℕ) : Decidable (Scalar c) := instDecidableNot

/-- How many bytes follow a first byte, and its own bits. -/
def lead (b : UInt8) : Option (ℕ × ℕ) :=
  if b.toNat < 0x80 then some (0, b.toNat)
  else if b.toNat < 0xc0 then none
  else if b.toNat < 0xe0 then some (1, b.toNat - 0xc0)
  else if b.toNat < 0xf0 then some (2, b.toNat - 0xe0)
  else if b.toNat < 0xf8 then some (3, b.toNat - 0xf0)
  else none

/-- A code point under way: how many bytes follow its first one, how many of them are still
missing, and the bits so far. -/
structure Pending where
  size : ℕ
  missing : ℕ
  value : ℕ

def Pending.none : Pending := ⟨0, 0, 0⟩

/-- One more byte. -/
def Pending.next (p : Pending) (b : UInt8) : Option Pending :=
  if p.missing = 0 then (lead b).map fun (size, value) => ⟨size, size, value⟩
  else if 0x80 ≤ b.toNat ∧ b.toNat < 0xc0 then
    some ⟨p.size, p.missing - 1, p.value * 64 + (b.toNat - 0x80)⟩
  else .none

/-- A complete code point, if it is no surrogate and needs as many bytes as it has. -/
def Pending.finish (p : Pending) : Option (Fin 0x110000) :=
  if h : p.value < 0x110000 ∧ following p.value = p.size ∧ Scalar p.value then
    some ⟨p.value, h.1⟩
  else .none

def decodeFrom : Pending → List UInt8 → Option (List (Fin 0x110000))
  | p, [] => if p.missing = 0 then some [] else none
  | p, b :: rest => do
    let p ← p.next b
    if p.missing = 0 then
      let c ← p.finish
      (decodeFrom .none rest).map (c :: ·)
    else decodeFrom p rest

/-- `raw.decode("utf-8", errors="strict")`. -/
def decode (raw : List UInt8) : Option (List (Fin 0x110000)) := decodeFrom .none raw

section Bytes

variable {c : ℕ}

/-- The bits of a first byte. -/
theorem lead_mark (h : c < 0x110000) :
    lead (.ofNat (mark (following c) + c / 64 ^ following c)) =
      some (following c, c / 64 ^ following c) := by
  unfold following
  split
  · next hc =>
    have hb : (UInt8.ofNat (mark 0 + c / 64 ^ 0)).toNat = c := by
      simp only [mark, UInt8.toNat_ofNat']
      omega
    rw [lead, hb, if_pos hc, Nat.pow_zero, Nat.div_one]
  split
  · next _ hc =>
    have hb : (UInt8.ofNat (mark 1 + c / 64 ^ 1)).toNat = 0xc0 + c / 64 := by
      simp only [mark, UInt8.toNat_ofNat']
      omega
    rw [lead, hb, if_neg (by omega), if_neg (by omega), if_pos (by omega)]
    exact congrArg some (Prod.ext rfl (by simp only; omega))
  split
  · next _ hc =>
    have hb : (UInt8.ofNat (mark 2 + c / 64 ^ 2)).toNat = 0xe0 + c / 4096 := by
      simp only [mark, UInt8.toNat_ofNat']
      omega
    rw [lead, hb, if_neg (by omega), if_neg (by omega), if_neg (by omega), if_pos (by omega)]
    exact congrArg some (Prod.ext rfl (by simp only; omega))
  · have hb : (UInt8.ofNat (mark 3 + c / 64 ^ 3)).toNat = 0xf0 + c / 262144 := by
      simp only [mark, UInt8.toNat_ofNat']
      omega
    rw [lead, hb, if_neg (by omega), if_neg (by omega), if_neg (by omega), if_neg (by omega),
      if_pos (by omega)]
    exact congrArg some (Prod.ext rfl (by simp only; omega))

theorem div_pow_succ (c n : ℕ) : c / 64 ^ (n + 1) * 64 + c / 64 ^ n % 64 = c / 64 ^ n := by
  rw [pow_succ, ← Nat.div_div_eq_div_mul]
  omega

/-- The byte that holds six bits. -/
theorem toNat_continuation (v : ℕ) : (UInt8.ofNat (0x80 + v % 64)).toNat = 0x80 + v % 64 := by
  rw [UInt8.toNat_ofNat']
  omega

end Bytes

section Decode

variable {p : Pending} {c : Fin 0x110000} {t : List (Fin 0x110000)} {rest : List UInt8}

theorem Pending.finish_eq_some : p.finish = some c ↔
    p.value = c ∧ following c = p.size ∧ Scalar c := by
  unfold Pending.finish
  constructor
  · intro h
    split at h
    · next hp =>
      cases h
      exact ⟨rfl, hp.2⟩
    · cases h
  · rintro ⟨hvalue, hsize, hscalar⟩
    rw [dif_pos (by rw [hvalue]; exact ⟨c.isLt, hsize, hscalar⟩)]
    exact congrArg some (Fin.ext hvalue)

/-- Reading the last bytes of a code point. -/
theorem decodeFrom_continuation (hscalar : Scalar c) (n : ℕ) :
    decodeFrom ⟨following c, n + 1, c / 64 ^ (n + 1)⟩ (continuation c (n + 1) ++ rest) =
      (decode rest).map (c :: ·) := by
  induction n with
  | zero =>
    have hbits := div_pow_succ c 0
    have hfinish : (⟨following c, 0, c⟩ : Pending).finish = some c :=
      Pending.finish_eq_some.mpr ⟨rfl, rfl, hscalar⟩
    simp only [continuation, List.cons_append, List.nil_append, decodeFrom, Pending.next,
      toNat_continuation, Nat.add_sub_cancel_left, Nat.succ_ne_zero, if_false, zero_add,
      Nat.sub_self]
    rw [if_pos (by omega), ← decode]
    simp only [zero_add, pow_zero, Nat.div_one] at hbits ⊢
    simp only [hbits, Option.bind_eq_bind, Option.bind_some, if_true, hfinish]
  | succ n ih =>
    have hbits := div_pow_succ c (n + 1)
    rw [continuation, List.cons_append, decodeFrom]
    simp only [Pending.next, toNat_continuation, Nat.add_sub_cancel_left, Nat.succ_ne_zero,
      if_false, Nat.add_sub_cancel]
    rw [if_pos (by omega), hbits]
    simp only [Option.bind_eq_bind, Option.bind_some, Nat.succ_ne_zero, if_false, ih]

theorem decode_encodeChar (hscalar : Scalar c) :
    decode (encodeChar c ++ rest) = (decode rest).map (c :: ·) := by
  rw [decode, encodeChar, List.cons_append, decodeFrom, Pending.next, Pending.none,
    if_pos rfl, lead_mark c.isLt]
  simp only [Option.map_some, Option.bind_eq_bind, Option.bind_some]
  rcases hsize : following c with - | n
  · have hfinish : (⟨0, 0, c⟩ : Pending).finish = some c :=
      Pending.finish_eq_some.mpr ⟨rfl, hsize, hscalar⟩
    simp only [pow_zero, Nat.div_one, if_true, hfinish, Option.bind_some, continuation]
    rfl
  · rw [if_neg n.succ_ne_zero, ← hsize, ← decodeFrom_continuation hscalar n, hsize]

/-- What is encoded is decoded. -/
theorem decode_encode (h : ∀ c ∈ t, Scalar c.val) : decode (encode t) = some t := by
  induction t with
  | nil => rfl
  | cons c t ih =>
    rw [encode, List.flatMap_cons, decode_encodeChar (h c List.mem_cons_self), ← encode,
      ih fun c hc => h c (List.mem_cons_of_mem _ hc)]
    rfl

end Decode

section Length

variable {α : Type} {s t : List (Fin 0x110000)} {c : Fin 0x110000}

theorem encode_append : encode (s ++ t) = encode s ++ encode t := List.flatMap_append

theorem length_continuation (c n : ℕ) : (continuation c n).length = n := by
  induction n with
  | zero => rfl
  | succ n ih => rw [continuation, List.length_cons, ih]

theorem length_encodeChar_le (c : Fin 0x110000) : (encodeChar c).length ≤ 4 := by
  rw [encodeChar, List.length_cons, length_continuation]
  unfold following
  split_ifs <;> omega

/-- The characters of ASCII take one byte each. -/
theorem length_encode_of_ascii (h : ∀ c ∈ t, c.val < 0x80) : (encode t).length = t.length := by
  induction t with
  | nil => rfl
  | cons c t ih =>
    obtain ⟨hc, ht⟩ := List.forall_mem_cons.mp h
    rw [encode, List.flatMap_cons, List.length_append, ← encode, ih ht, encodeChar,
      List.length_cons, length_continuation, following, if_pos hc, List.length_cons]
    omega

/-- A text of pieces of at most `k` bytes. -/
theorem length_encode_flatMap_le {f : α → List (Fin 0x110000)} {l : List α} {k : ℕ}
    (h : ∀ x ∈ l, (encode (f x)).length ≤ k) : (encode (l.flatMap f)).length ≤ k * l.length := by
  induction l with
  | nil => exact Nat.zero_le _
  | cons x l ih =>
    obtain ⟨hx, hl⟩ := List.forall_mem_cons.mp h
    rw [List.flatMap_cons, encode_append, List.length_append, List.length_cons, Nat.mul_succ]
    have := ih hl
    omega

end Length

end CafeFausse.Format.Utf8
