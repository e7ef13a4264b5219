import CafeFausse.Python.JsonLoads

/-! # The numbers of a text

The numbers that `json.loads` converts, up to the first place where the text is no JSON. Two
readers that differ in their conversions agree as long as these do.
-/

namespace CafeFausse.Python.Reader

variable {ε : Type}

/-- The number that a token makes the reader convert. -/
def converted : Reader → Token → Option Literal
  | value _, .number literal => some literal
  | firstValue _, .number literal => some literal
  | _, _ => none

/-- The numbers that are converted until the reader stops. -/
def literals (hooks : Hooks ε) (maxDepth : ℕ) : Reader → List Token → List Literal
  | _, [] => []
  | r, token :: tokens =>
    (converted r token).toList ++
      match step hooks maxDepth r token with
      | .ok r => literals hooks maxDepth r tokens
      | .error _ => []

variable {h u : Hooks ε} {maxDepth : ℕ} {frames : List Frame} {r : Reader} {token : Token}

/-- Hooks that differ at most in their conversions. -/
structure Similar (h u : Hooks ε) : Prop where
  objectPairsHook : h.objectPairsHook = u.objectPairsHook
  parseConstant : h.parseConstant = u.parseConstant

theorem beginValue_similar (hs : Similar h u) (maxDepth : ℕ) (frames : List Frame)
    (hnumber : ∀ l, token ≠ .number l) :
    beginValue h maxDepth frames token = beginValue u maxDepth frames token := by
  cases token with
  | number l => exact absurd rfl (hnumber l)
  | constant =>
    rw [beginValue, beginValue, hs.parseConstant]
  | _ => rfl

theorem close_similar (hs : Similar h u) (members : Payload) :
    close h members frames = close u members frames := by
  rw [close, close, hs.objectPairsHook]

/-- A step that converts no number is the same. -/
theorem step_similar (hs : Similar h u) (hnone : converted r token = none) :
    step h maxDepth r token = step u maxDepth r token := by
  have hnumber (frames : List Frame) (hr : r = value frames ∨ r = firstValue frames) :
      ∀ l, token ≠ .number l := by
    rintro l rfl
    rcases hr with rfl | rfl <;> cases hnone
  cases r with
  | value frames => exact beginValue_similar hs maxDepth frames (hnumber frames (.inl rfl))
  | firstValue frames =>
    by_cases hend : token = .endArray
    · subst hend
      rfl
    · rw [step_firstValue frames hend, step_firstValue frames hend]
      exact beginValue_similar hs maxDepth _ (hnumber frames (.inr rfl))
  | firstName frames =>
    cases token with
    | endObject => exact close_similar hs []
    | _ => rfl
  | inObject members frames =>
    cases token with
    | endObject => exact close_similar hs members
    | _ => rfl
  | _ => cases token <;> rfl

/-- A step that converts a number goes on from what it is converted to. -/
theorem step_converted (maxDepth : ℕ) {l : Literal} (hl : converted r token = some l) :
    ∃ frames, ∀ h : Hooks ε, step h maxDepth r token =
      (called (convert h l)).bind fun v => .ok (accept v frames) := by
  cases r with
  | value frames =>
    cases token with
    | number _ =>
      cases hl
      exact ⟨frames, fun _ => rfl⟩
    | _ => cases hl
  | firstValue frames =>
    cases token with
    | number _ =>
      cases hl
      exact ⟨.array [] :: frames, fun _ => rfl⟩
    | _ => cases hl
  | _ => cases token <;> cases hl

theorem literals_step (r : Reader) (token : Token) (tokens : List Token) (l : Literal) :
    l ∈ literals u maxDepth r (token :: tokens) ↔ converted r token = some l ∨
      ∃ r', step u maxDepth r token = .ok r' ∧ l ∈ literals u maxDepth r' tokens := by
  rw [literals, List.mem_append, Option.mem_toList]
  refine or_congr Iff.rfl ?_
  cases step u maxDepth r token with
  | ok r' => simp
  | error _ => simp

/-- Readers whose conversions agree on the numbers of a text read the same. -/
theorem run_congr (hs : Similar h u) {tokens : List Token}
    (hconvert : ∀ l ∈ literals u maxDepth r tokens, convert h l = convert u l) :
    run h maxDepth r tokens = run u maxDepth r tokens := by
  induction tokens generalizing r with
  | nil => cases r <;> rfl
  | cons token tokens ih =>
    have hstep : step h maxDepth r token = step u maxDepth r token := by
      rcases hl : converted r token with - | l
      · exact step_similar hs hl
      · obtain ⟨frames, hframes⟩ := step_converted maxDepth hl
        rw [hframes, hframes, hconvert l ((literals_step ..).mpr (.inl hl))]
    rw [run_cons, run_cons, hstep]
    rcases hr : step u maxDepth r token with e | r'
    · rfl
    · exact ih fun l hl => hconvert l ((literals_step ..).mpr (.inr ⟨r', hr, hl⟩))

/-- A number that is not converted ends the reading. -/
theorem run_raised (hs : Similar h u)
    (hagree : ∀ l, convert h l = convert u l ∨ ∃ e, convert h l = .error e) {tokens : List Token}
    (hfail : ∃ l ∈ literals u maxDepth r tokens, convert h l ≠ convert u l) :
    ∃ l ∈ literals u maxDepth r tokens, convert h l ≠ convert u l ∧
      ∃ e, convert h l = .error e ∧ run h maxDepth r tokens = .error (.raised e) := by
  induction tokens generalizing r with
  | nil =>
    obtain ⟨l, hl, -⟩ := hfail
    cases hl
  | cons token tokens ih =>
    by_cases hnow : ∃ l, converted r token = some l ∧ convert h l ≠ convert u l
    · obtain ⟨l, hl, hne⟩ := hnow
      obtain ⟨e, he⟩ := (hagree l).resolve_left hne
      obtain ⟨frames, hframes⟩ := step_converted maxDepth hl
      refine ⟨l, (literals_step ..).mpr (.inl hl), hne, e, he, ?_⟩
      rw [run_cons, hframes, he]
      rfl
    · have hstep : step h maxDepth r token = step u maxDepth r token := by
        rcases hl : converted r token with - | l
        · exact step_similar hs hl
        · obtain ⟨frames, hframes⟩ := step_converted maxDepth hl
          rw [hframes, hframes, not_not.mp fun hne => hnow ⟨l, hl, hne⟩]
      obtain ⟨l, hl, hne⟩ := hfail
      rcases (literals_step ..).mp hl with hl | ⟨r', hr, hl⟩
      · exact absurd ⟨l, hl, hne⟩ hnow
      · obtain ⟨l, hl, hne, e, he, hrun⟩ := ih ⟨l, hl, hne⟩
        refine ⟨l, (literals_step ..).mpr (.inr ⟨r', hr, hl⟩), hne, e, he, ?_⟩
        rw [run_cons, hstep, hr]
        exact hrun

/-- A hook raises `e`. -/
inductive Raises (h : Hooks ε) (e : ε) : Prop where
  | object (members : Payload) : h.objectPairsHook members = .error e → Raises h e
  | number (l : Literal) : convert h l = .error e → Raises h e
  | constant : h.parseConstant = .error e → Raises h e

theorem raises_of_called {α : Type} {x : Except ε α} {f : α → Reader} {e : ε}
    (hx : (called x).bind (fun a => .ok (f a)) = .error (.raised e)) : x = .error e := by
  cases x with
  | ok a => cases hx
  | error e' =>
    cases hx
    rfl

theorem raises_of_close {members : Payload} {e : ε}
    (hclose : close h members frames = .error (.raised e)) : Raises h e :=
  .object members (raises_of_called hclose)

theorem nest_ne_raised {e : ε} : nest maxDepth frames r ≠ .error (.raised e) := by
  unfold nest
  split
  · rintro ⟨⟩
  · rintro ⟨⟩

theorem raises_of_beginValue (frames : List Frame) (token : Token) {e : ε}
    (hbegin : beginValue h maxDepth frames token = .error (.raised e)) : Raises h e := by
  cases token with
  | number l => exact .number l (raises_of_called hbegin)
  | constant => exact .constant (raises_of_called hbegin)
  | beginObject => exact absurd hbegin nest_ne_raised
  | beginArray => exact absurd hbegin nest_ne_raised
  | _ => cases hbegin

/-- What a reader raises comes from one of its hooks. -/
theorem raises_of_run {tokens : List Token} {e : ε}
    (hrun : run h maxDepth r tokens = .error (.raised e)) : Raises h e := by
  induction tokens generalizing r with
  | nil => cases r <;> cases hrun
  | cons token tokens ih =>
    rw [run_cons] at hrun
    rcases hstep : step h maxDepth r token with e' | r'
    · rw [hstep] at hrun
      cases hrun
      cases r with
      | value frames => exact raises_of_beginValue frames token hstep
      | firstValue frames =>
        by_cases hend : token = .endArray
        · subst hend
          cases hstep
        · rw [step_firstValue frames hend] at hstep
          exact raises_of_beginValue _ token hstep
      | firstName frames =>
        cases token with
        | endObject => exact raises_of_close hstep
        | _ => cases hstep
      | inObject members frames =>
        cases token with
        | endObject => exact raises_of_close hstep
        | _ => cases hstep
      | _ => cases token <;> cases hstep
    · rw [hstep] at hrun
      exact ih hrun

end CafeFausse.Python.Reader
