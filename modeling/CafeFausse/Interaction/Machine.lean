import Mathlib

/-! # Components that react to events

A component is a state and a reaction to each event that it offers there. Its runs are
the lists of events that it goes through from the start. What holds whenever an event
occurs, or at one of them, is stated of the events so far, the state and the event.
-/

namespace CafeFausse.Interaction

/-- A component. An event that is not on offer in a state leads nowhere. -/
structure Machine (σ ε : Type) where
  initial : σ
  step : σ → ε → Option σ

namespace Machine

variable {σ ε : Type} (m : Machine σ ε)

/-- The state after the events, if each was on offer in its turn. -/
def after (events : List ε) : Option σ := events.foldlM m.step m.initial

/-- The events are a run to this state. -/
inductive Runs : List ε → σ → Prop
  | start : Runs [] m.initial
  | next {events s e s'} (h : Runs events s) (hs : m.step s e = some s') : Runs (events ++ [e]) s'

/-- Whenever an event of the list occurs, this holds of the events before it, the state it
finds and the event. -/
def Always (P : List ε → σ → ε → Prop) (events : List ε) : Prop :=
  ∀ before e rest s, events = before ++ e :: rest → m.Runs before s → P before s e

/-- At an event of the list, this holds of the events before it, the state it finds and the
event. -/
def Once (P : List ε → σ → ε → Prop) (events : List ε) : Prop :=
  ∃ before e rest s, events = before ++ e :: rest ∧ m.Runs before s ∧ P before s e

/-- The list goes through a state of which this holds. -/
def Meets (P : σ → Prop) (events : List ε) : Prop :=
  ∃ before rest s, events = before ++ rest ∧ m.Runs before s ∧ P s

variable {m} {events : List ε} {s s' : σ} {e : ε} {P R : List ε → σ → ε → Prop}
  {S T : σ → Prop}

theorem runs_iff : m.Runs events s ↔ m.after events = some s := by
  constructor
  · intro h
    induction h with
    | start => rfl
    | next _ hs ih =>
      simp only [after, List.foldlM_append, List.foldlM_cons, List.foldlM_nil] at ih ⊢
      rw [ih]
      simpa using hs
  · intro h
    induction events using List.reverseRecOn generalizing s with
    | nil =>
      cases h
      exact .start
    | append_singleton events e ih =>
      simp only [after, List.foldlM_append, List.foldlM_cons, List.foldlM_nil] at h ih
      obtain ⟨x, hx, hs⟩ := Option.bind_eq_some_iff.mp h
      exact .next (ih hx) (by simpa using hs)

theorem Runs.unique (h : m.Runs events s) (h' : m.Runs events s') : s = s' :=
  Option.some.inj ((runs_iff.mp h).symm.trans (runs_iff.mp h'))

/-- What holds at the start and is kept by every step holds in every run. -/
theorem Runs.invariant {I : σ → Prop} (h : m.Runs events s) (h0 : I m.initial)
    (hstep : ∀ s e s', I s → m.step s e = some s' → I s') : I s := by
  induction h with
  | start => exact h0
  | next _ hs ih => exact hstep _ _ _ ih hs

/-- What holds of the start and is kept by every step at such an event, of the events so far and
the state, holds of every run of such events. -/
theorem Runs.history_of {I : List ε → σ → Prop} {Q : ε → Prop} (h : m.Runs events s)
    (hevents : ∀ e ∈ events, Q e) (h0 : I [] m.initial)
    (hstep : ∀ events s e s', m.Runs events s → Q e → I events s → m.step s e = some s' →
      I (events ++ [e]) s') : I events s := by
  induction h with
  | start => exact h0
  | next hbefore hs ih =>
    obtain ⟨hevents, hlast⟩ := List.forall_mem_append.mp hevents
    exact hstep _ _ _ _ hbefore (hlast _ (List.mem_singleton_self _)) (ih hevents) hs

theorem always_nil : m.Always P [] := by
  rintro before e rest s h
  simp at h

/-- One more event. -/
theorem always_append (h : m.Runs events s) :
    m.Always P (events ++ [e]) ↔ m.Always P events ∧ P events s e := by
  constructor
  · intro hall
    constructor
    · rintro before x rest t rfl ht
      exact hall before x (rest ++ [e]) t (by simp) ht
    · exact hall events e [] s rfl h
  · rintro ⟨hall, hlast⟩ before x rest t heq ht
    rcases List.eq_nil_or_concat rest with rfl | ⟨rest, y, rfl⟩
    · obtain ⟨rfl, he⟩ := List.append_inj' heq rfl
      cases he
      exact h.unique ht ▸ hlast
    · obtain ⟨heq, -⟩ := List.append_inj' (by simpa using heq :
        events ++ [e] = (before ++ x :: rest) ++ [y]) rfl
      exact hall before x rest t heq ht

theorem once_append (h : m.Runs events s) (hP : P events s e) : m.Once P (events ++ [e]) :=
  ⟨events, e, [], s, rfl, h, hP⟩

theorem Once.append (h : m.Once P events) (more : List ε) : m.Once P (events ++ more) := by
  obtain ⟨before, e, rest, s, rfl, hs, hP⟩ := h
  exact ⟨before, e, rest ++ more, s, by rw [List.append_assoc, List.cons_append], hs, hP⟩

theorem meets_of_runs (h : m.Runs events s) (hS : S s) : m.Meets S events :=
  ⟨events, [], s, (List.append_nil events).symm, h, hS⟩

theorem Meets.append (h : m.Meets S events) (more : List ε) : m.Meets S (events ++ more) := by
  obtain ⟨before, rest, s, rfl, hs, hS⟩ := h
  exact ⟨before, rest ++ more, s, List.append_assoc _ _ _, hs, hS⟩

theorem Meets.mono (h : m.Meets S events) (hT : ∀ s, S s → T s) : m.Meets T events := by
  obtain ⟨before, rest, s, heq, hs, hS⟩ := h
  exact ⟨before, rest, s, heq, hs, hT s hS⟩

theorem Always.mono (h : m.Always P events) (hP : ∀ before s e, P before s e → R before s e) :
    m.Always R events := fun before e rest s heq hs => hP _ _ _ (h before e rest s heq hs)

end Machine

end CafeFausse.Interaction
