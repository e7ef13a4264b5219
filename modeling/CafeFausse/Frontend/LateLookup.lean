import CafeFausse.Frontend.NewsletterPreferences

/-! # Late lookups

A lookup that is answered late leaves the checkbox alone, unless a save has completed while
it was on its way: the save sets the counter of choices back to the value that stands for
an untouched form.
-/

namespace CafeFausse.Frontend.NewsletterPreferences

open Interaction

variable {b : Browser} {events : List Event} {s s' : Form} {e : Event}

section Hook

variable {hook hook' : LookupHook} {lookup : Lookup} {values : Identity} {choiceVersion : ℕ}

theorem take_eq_some {n : ℕ} (h : hook.take n = some (lookup, hook')) :
    lookup ∈ hook.sent ∧ lookup.requestSequence = n ∧
      hook' = { hook with sent := hook.sent.filter (·.requestSequence ≠ n) } := by
  obtain ⟨x, hx, he⟩ := Option.map_eq_some_iff.mp h
  cases he
  exact ⟨List.mem_of_find?_eq_some hx, by simpa using List.find?_some hx, rfl⟩

@[simp] theorem sequence_effect :
    (hook.effect b values choiceVersion).sequence = hook.sequence + 1 := by
  unfold LookupHook.effect
  split <;> rfl

theorem answer_eq (b : Browser) (hook : LookupHook) (values : Identity) (lookup : Lookup)
    (result : LookupResult) :
    ∃ state, hook.answer b values lookup result = { hook with lookup := state } := by
  unfold LookupHook.answer
  split
  · exact ⟨_, rfl⟩
  · exact ⟨hook.lookup, rfl⟩

theorem fail_eq (b : Browser) (hook : LookupHook) (values : Identity) (lookup : Lookup)
    (error : Option PublicError) :
    ∃ state, hook.fail b values lookup error = { hook with lookup := state } := by
  unfold LookupHook.fail
  split
  · exact ⟨_, rfl⟩
  · exact ⟨hook.lookup, rfl⟩

end Hook

/-- Whatever a failed save was about, only the save and what is shown of it change. -/
theorem preferenceFailed_eq (s : Form) (body : PreferenceBody) (error : Option PublicError) :
    ∃ result recovery, s.preferenceFailed body error =
      { s with saving := none, result, recovery } := by
  unfold Form.preferenceFailed
  cases error with
  | none => exact ⟨_, _, rfl⟩
  | some error =>
    simp only
    split
    · exact ⟨s.result, none, rfl⟩
    · exact ⟨_, _, rfl⟩

/-- The step starts no lookup: those that are on their way were so before, for the same
identity, and only a toggle or a save moves the counter. -/
structure Kept (s : Form) (e : Event) (s' : Form) : Prop where
  sequence : s'.hook.sequence = s.hook.sequence
  values : s'.values = s.values
  underway : ∀ lookup, s'.hook.Underway lookup → s.hook.Underway lookup
  toggled : e.IsToggle → s'.choiceVersion = s.choiceVersion + 1
  still : ¬ e.IsToggle → ¬ e.IsSaved → s'.choiceVersion = s.choiceVersion

/-- A step that takes a lookup away and sets the state of the hook. -/
theorem Kept.taken {n : ℕ} {hook : LookupHook} {lookup : Lookup} {state : LookupState}
    {subscribed : Bool} (h : s.hook.take n = some (lookup, hook)) (hne : e ≠ .toggle) :
    Kept s e { s with subscribed, hook := { hook with lookup := state } } := by
  obtain ⟨-, -, rfl⟩ := take_eq_some h
  refine ⟨rfl, rfl, ?_, fun ht => absurd ht hne, fun _ _ => rfl⟩
  rintro x (hx | hx)
  · exact .inl hx
  · exact .inr (List.mem_filter.mp hx).1

/-- Either the effect runs for what is entered now, or no lookup is started. -/
theorem step_cases (h : step b s e = some s') :
    s'.hook = s.hook.effect b s'.values s'.choiceVersion ∨ Kept s e s' := by
  cases e with
  | update field value =>
    simp only [step] at h
    split at h
    · cases h
    cases Option.some.inj h
    unfold Form.render
    split
    · exact .inl rfl
    · next hv =>
      push Not at hv
      exact .inr ⟨rfl, hv.1, fun _ hl => hl, nofun, fun _ _ => rfl⟩
  | toggle =>
    simp only [step] at h
    split at h
    · cases h
    cases Option.some.inj h
    exact .inr ⟨rfl, rfl, fun _ hl => hl, fun _ => rfl, fun hn => absurd rfl hn⟩
  | timer =>
    obtain ⟨hook, hhook, rfl⟩ := Option.map_eq_some_iff.mp h
    obtain ⟨lookup, hlookup, rfl⟩ := Option.map_eq_some_iff.mp hhook
    refine .inr ⟨rfl, rfl, ?_, nofun, fun _ _ => rfl⟩
    rintro x (hx | hx)
    · cases hx
    · rcases List.mem_append.mp hx with hx | hx
      · exact .inr hx
      · exact .inl (List.mem_singleton.mp hx ▸ hlookup)
  | lookupAnswered n result =>
    obtain ⟨⟨lookup, hook⟩, htake, rfl⟩ := Option.map_eq_some_iff.mp h
    obtain ⟨state, hstate⟩ := answer_eq b hook s.values lookup result
    simp only [hstate]
    exact .inr (.taken htake nofun)
  | lookupFailed n error =>
    obtain ⟨⟨lookup, hook⟩, htake, rfl⟩ := Option.map_eq_some_iff.mp h
    obtain ⟨state, hstate⟩ := fail_eq b hook s.values lookup error
    simp only [hstate]
    exact .inr (.taken htake nofun)
  | retryLookup =>
    simp only [step] at h
    split at h
    · cases h
    cases Option.some.inj h
    unfold Form.render
    rw [if_pos (.inr (Nat.succ_ne_self _))]
    exact .inl rfl
  | submit =>
    simp only [step] at h
    split at h
    · cases h
    split at h
    · cases Option.some.inj h
      exact .inr ⟨rfl, rfl, fun _ hl => hl, nofun, fun _ _ => rfl⟩
    · cases Option.some.inj h
      unfold Form.sendPreference
      split <;> exact .inr ⟨rfl, rfl, fun _ hl => hl, nofun, fun _ _ => rfl⟩
  | resend =>
    simp only [step] at h
    split at h
    · cases h
    obtain ⟨recovery, -, rfl⟩ := Option.map_eq_some_iff.mp h
    unfold Form.sendPreference
    split <;> exact .inr ⟨rfl, rfl, fun _ hl => hl, nofun, fun _ _ => rfl⟩
  | leaveUnresolved =>
    simp only [step] at h
    split at h
    · cases Option.some.inj h
      exact .inr ⟨rfl, rfl, fun _ hl => hl, nofun, fun _ _ => rfl⟩
    · cases h
  | saved subscribed =>
    obtain ⟨body, -, rfl⟩ := Option.map_eq_some_iff.mp h
    exact .inr ⟨rfl, rfl, fun _ hl => hl, nofun, fun _ hn => absurd ⟨subscribed, rfl⟩ hn⟩
  | saveFailed error =>
    obtain ⟨body, -, rfl⟩ := Option.map_eq_some_iff.mp h
    obtain ⟨result, recovery, heq⟩ := preferenceFailed_eq s body error
    rw [heq]
    exact .inr ⟨rfl, rfl, fun _ hl => hl, nofun, fun _ _ => rfl⟩

theorem sequence_le_of_step (h : step b s e = some s') : s.hook.sequence ≤ s'.hook.sequence := by
  rcases step_cases h with he | hk
  · rw [he, sequence_effect]
    exact Nat.le_succ _
  · exact hk.sequence.ge

/-- The numbers of the lookups only grow. -/
theorem always_sequence_le (h : (form b).Runs events s) :
    (form b).Always (fun _ t _ => t.hook.sequence ≤ s.hook.sequence) events := by
  induction h with
  | start => exact Machine.always_nil
  | next hrun hs ih =>
    have hle := sequence_le_of_step hs
    exact (Machine.always_append hrun).mpr ⟨ih.mono fun _ _ _ ht => ht.trans hle, hle⟩

/-- No save completes while a lookup is awaited. -/
def Patient (b : Browser) (events : List Event) : Prop :=
  (form b).Always (fun _ s e => e.IsSaved → ∀ lookup, ¬ s.Awaiting lookup) events

/-- In a patient run the counter is zero, while a lookup is awaited, only if nothing was
decided since that lookup was started. -/
theorem undisturbed_of_awaiting (h : (form b).Runs events s) (hpatient : Patient b events)
    {lookup : Lookup} (hawait : s.Awaiting lookup) (hzero : s.choiceVersion = 0) :
    Undisturbed b s.hook.sequence events := by
  induction h generalizing lookup with
  | start => exact Machine.always_nil
  | @next events s e s' hrun hs ih =>
    obtain ⟨hbefore, hlast⟩ := (Machine.always_append hrun).mp hpatient
    rcases step_cases hs with he | hk
    · -- the lookup has only just been started
      have hlt : s.hook.sequence < s'.hook.sequence := by
        rw [he, sequence_effect]
        exact Nat.lt_succ_self _
      refine (Machine.always_append hrun).mpr
        ⟨(always_sequence_le hrun).mono fun _ t _ ht hn => ?_, fun hn => ?_⟩
      · exact absurd hn (ht.trans_lt hlt).ne
      · exact absurd hn hlt.ne
    · have hawait' : s.Awaiting lookup :=
        ⟨hk.underway lookup hawait.1, hawait.2.1.trans hk.sequence, hawait.2.2⟩
      have hsaved : ¬ e.IsSaved := fun hn => hlast hn lookup hawait'
      have htoggle : ¬ e.IsToggle := fun ht => by
        have := hk.toggled ht
        omega
      have hzero' : s.choiceVersion = 0 := (hk.still htoggle hsaved).symm.trans hzero
      rw [hk.sequence]
      exact (Machine.always_append hrun).mpr
        ⟨ih hbefore hawait' hzero', fun _ => ⟨htoggle, hsaved⟩⟩

/-- An answer that changes the checkbox is current and finds the counter at zero. -/
theorem current_of_changed {n : ℕ} {result : LookupResult}
    (h : step b s (.lookupAnswered n result) = some s') (hne : s'.subscribed ≠ s.subscribed) :
    ∃ lookup ∈ s.hook.sent, lookup.requestSequence = n ∧ s.hook.Current b s.values lookup ∧
      Untouched lookup s.choiceVersion := by
  obtain ⟨⟨lookup, hook⟩, htake, rfl⟩ := Option.map_eq_some_iff.mp h
  obtain ⟨hmem, hn, rfl⟩ := take_eq_some htake
  by_cases hc : s.hook.Current b s.values lookup ∧ Untouched lookup s.choiceVersion
  · exact ⟨lookup, hmem, hn, hc⟩
  · exact absurd (if_neg hc) hne

/-- In a patient run every answer that changes the checkbox is legitimate. -/
theorem always_legitimate (h : (form b).Runs events s) (hpatient : Patient b events) :
    (form b).Always (Legitimate b) events := by
  induction h with
  | start => exact Machine.always_nil
  | @next events s e s' hrun hs ih =>
    obtain ⟨hbefore, -⟩ := (Machine.always_append hrun).mp hpatient
    refine (Machine.always_append hrun).mpr ⟨ih hbefore, ?_⟩
    rintro n result t rfl ht hne
    obtain ⟨lookup, hmem, hn, hcurrent, hstart, hzero⟩ := current_of_changed ht hne
    have hawait : s.Awaiting lookup := ⟨.inr hmem, hcurrent.1, hstart⟩
    have := undisturbed_of_awaiting hrun hbefore hawait (hzero.trans hstart)
    exact ⟨lookup, hmem, hn, hcurrent, hn ▸ hcurrent.1 ▸ this⟩

/-- Lookups are told apart by their numbers, and the latest one asks for what is entered. -/
structure Tracked (b : Browser) (s : Form) : Prop where
  le : ∀ lookup, s.hook.Underway lookup → lookup.requestSequence ≤ s.hook.sequence
  key : ∀ lookup, s.hook.Underway lookup → lookup.requestSequence = s.hook.sequence →
    currentKey b s.values = some lookup.snapshot
  unique : ∀ lookup lookup', s.hook.Underway lookup → s.hook.Underway lookup' →
    lookup.requestSequence = lookup'.requestSequence → lookup = lookup'

/-- After the effect, what is under way was sent before or is the lookup that has just been
started. -/
theorem underway_effect {hook : LookupHook} {values : Identity} {choiceVersion : ℕ}
    {lookup : Lookup} (h : (hook.effect b values choiceVersion).Underway lookup) :
    lookup ∈ hook.sent ∨ lookup.requestSequence = hook.sequence + 1 ∧
      currentKey b values = some lookup.snapshot ∧ lookup.startChoiceVersion = choiceVersion := by
  unfold LookupHook.effect at h
  split at h
  · next he =>
    rcases h with h | h
    · cases h
      exact .inr ⟨rfl, if_pos he, rfl⟩
    · exact .inl h
  · rcases h with h | h
    · cases h
    · exact .inl h

theorem tracked_of_effect {hook : LookupHook} (h : s.hook = hook.effect b s.values s.choiceVersion)
    (hle : ∀ lookup ∈ hook.sent, lookup.requestSequence ≤ hook.sequence)
    (hunique : ∀ lookup ∈ hook.sent, ∀ lookup' ∈ hook.sent,
      lookup.requestSequence = lookup'.requestSequence → lookup = lookup') : Tracked b s := by
  have hseq : s.hook.sequence = hook.sequence + 1 := by rw [h, sequence_effect]
  have hcases : ∀ lookup, s.hook.Underway lookup → lookup ∈ hook.sent ∨
      lookup.requestSequence = hook.sequence + 1 ∧
        currentKey b s.values = some lookup.snapshot ∧
        lookup.startChoiceVersion = s.choiceVersion := fun lookup hl =>
    underway_effect (h ▸ hl)
  constructor
  · intro lookup hl
    rw [hseq]
    rcases hcases lookup hl with hm | ⟨hn, -⟩
    · exact (hle lookup hm).trans (Nat.le_succ _)
    · exact hn.le
  · intro lookup hl hn
    rcases hcases lookup hl with hm | ⟨-, hkey, -⟩
    · have := hle lookup hm
      omega
    · exact hkey
  · intro lookup lookup' hl hl' hn
    rcases hcases lookup hl with hm | ⟨h₁, hk₁, hc₁⟩ <;>
      rcases hcases lookup' hl' with hm' | ⟨h₂, hk₂, hc₂⟩
    · exact hunique lookup hm lookup' hm' hn
    · have := hle lookup hm
      omega
    · have := hle lookup' hm'
      omega
    · obtain ⟨n, snapshot, start⟩ := lookup
      obtain ⟨n', snapshot', start'⟩ := lookup'
      cases hn
      cases hk₁.symm.trans hk₂
      cases hc₁.trans hc₂.symm
      rfl

theorem tracked_of_runs (h : (form b).Runs events s) : Tracked b s := by
  refine h.invariant ?_ fun s e s' hs hstep => ?_
  · have hsent : LookupHook.initial.sent = [] := rfl
    exact tracked_of_effect (s := Form.initial b) rfl (by simp [hsent]) (by simp [hsent])
  · rcases step_cases hstep with he | hk
    · exact tracked_of_effect he (fun lookup hl => hs.le lookup (.inr hl))
        fun lookup hl lookup' hl' => hs.unique lookup lookup' (.inr hl) (.inr hl')
    · refine ⟨fun lookup hl => ?_, fun lookup hl hn => ?_, fun lookup lookup' hl hl' hn => ?_⟩
      · exact hk.sequence ▸ hs.le lookup (hk.underway lookup hl)
      · exact hk.values ▸ hs.key lookup (hk.underway lookup hl) (hn.trans hk.sequence)
      · exact hs.unique lookup lookup' (hk.underway lookup hl) (hk.underway lookup' hl') hn

/-- The timer that is running can end. -/
theorem step_timer {lookup : Lookup} (h : s.hook.timer = some lookup) :
    step b s .timer = some { s with hook := { s.hook with
      lookup := .checking, timer := none, sent := s.hook.sent ++ [lookup] } } := by
  simp only [step, LookupHook.fire, h, Option.map_some]

/-- The latest lookup, started and answered with the counter at zero, can flip the checkbox. -/
theorem exists_flip {lookup : Lookup} (h : Tracked b s) (hmem : lookup ∈ s.hook.sent)
    (hn : lookup.requestSequence = s.hook.sequence) (hstart : lookup.startChoiceVersion = 0)
    (hzero : s.choiceVersion = 0) :
    ∃ s', step b s (.lookupAnswered lookup.requestSequence (.matched (!s.subscribed))) = some s' ∧
      s'.subscribed ≠ s.subscribed := by
  obtain ⟨found, hfound⟩ : ∃ found,
      s.hook.sent.find? (·.requestSequence = lookup.requestSequence) = some found :=
    Option.isSome_iff_exists.mp (List.find?_isSome.mpr ⟨lookup, hmem, by simp⟩)
  have hsame : found.requestSequence = lookup.requestSequence := by
    simpa using List.find?_some hfound
  obtain rfl : found = lookup :=
    h.unique found lookup (.inr (List.mem_of_find?_eq_some hfound)) (.inr hmem) hsame
  have hcurrent : s.hook.Current b s.values found := ⟨hn, h.key found (.inr hmem) hn⟩
  simp only [step, LookupHook.take, hfound, Option.map_some]
  refine ⟨_, rfl, ?_⟩
  have hcond : LookupHook.Current b { s.hook with
      sent := s.hook.sent.filter (·.requestSequence ≠ found.requestSequence) } s.values found ∧
      Untouched found s.choiceVersion := ⟨hcurrent, hstart, hzero.trans hstart.symm⟩
  simp only [LookupHook.checkbox, if_pos hcond, onUntouchedResult]
  simp

/-- Where a save completes while a lookup is awaited, the answer of the lookup can flip the
checkbox afterwards. -/
theorem exists_illegitimate (h : (form b).Runs events s) {subscribed : Bool}
    (hsaved : step b s (.saved subscribed) = some s') {lookup : Lookup}
    (hawait : s.Awaiting lookup) :
    ∃ rest t, (form b).Runs (events ++ .saved subscribed :: rest) t ∧
      ¬ (form b).Always (Legitimate b) (events ++ .saved subscribed :: rest) := by
  have hrun : (form b).Runs (events ++ [.saved subscribed]) s' := .next h hsaved
  obtain ⟨hhook, hzero⟩ : s'.hook = s.hook ∧ s'.choiceVersion = 0 := by
    obtain ⟨body, -, rfl⟩ := Option.map_eq_some_iff.mp hsaved
    exact ⟨rfl, rfl⟩
  obtain ⟨hunder, hn, hstart⟩ := hawait
  -- whatever follows the save and lets the lookup be sent, its answer is not legitimate
  have flip : ∀ (mid : List Event) (t : Form),
      (form b).Runs (events ++ [.saved subscribed] ++ mid) t → lookup ∈ t.hook.sent →
      lookup.requestSequence = t.hook.sequence → t.choiceVersion = 0 →
      ∃ rest t, (form b).Runs (events ++ .saved subscribed :: rest) t ∧
        ¬ (form b).Always (Legitimate b) (events ++ .saved subscribed :: rest) := by
    intro mid t ht hmem hlast hzero
    obtain ⟨t', hstep, hne⟩ := exists_flip (tracked_of_runs ht) hmem hlast hstart hzero
    have hflipped : (form b).Runs (_ ++ [.lookupAnswered lookup.requestSequence _]) t' :=
      .next ht hstep
    refine ⟨mid ++ [.lookupAnswered lookup.requestSequence (.matched (!t.subscribed))], t',
      by simpa using hflipped, fun hall => ?_⟩
    obtain ⟨-, -, -, -, hund⟩ := hall (events ++ [.saved subscribed] ++ mid) _ [] t (by simp) ht
      lookup.requestSequence _ t' rfl hstep hne
    exact (hund events _ mid s (by simp) h hn.symm).2 ⟨subscribed, rfl⟩
  rw [← hhook] at hunder hn
  rcases hunder with htimer | hmem
  · have htimed : (form b).step s' .timer = some _ := step_timer (b := b) htimer
    have hrun' := hrun.next htimed
    exact flip [.timer] _ hrun' (List.mem_append_right _ (List.mem_singleton_self _)) hn hzero
  · have hrun' := (List.append_nil (events ++ [Event.saved subscribed])).symm ▸ hrun
    exact flip [] _ hrun' hmem hn hzero

/-- If no save completes while a lookup is awaited, only legitimate answers change the
checkbox. Any other save lets an answer through that is not. -/
theorem checkbox_respects_choice :
    (∀ events s, (form b).Runs events s → Patient b events →
      (form b).Always (Legitimate b) events) ∧
    ∀ events s subscribed s' lookup, (form b).Runs events s →
      step b s (.saved subscribed) = some s' → s.Awaiting lookup →
      ∃ rest t, (form b).Runs (events ++ .saved subscribed :: rest) t ∧
        ¬ (form b).Always (Legitimate b) (events ++ .saved subscribed :: rest) :=
  ⟨fun _ _ => always_legitimate, fun _ _ _ _ _ h hsaved hawait =>
    exists_illegitimate h hsaved hawait⟩

/-- The visitor enters an identity and the timer ends. -/
def asked : List Event :=
  [.update .firstName (text "Ada"), .update .lastName (text "Rivera"),
    .update .email (text "ada@example.com"), .update .confirmationEmail (text "ada@example.com"),
    .timer]

/-- An answer before any save, and a save while the lookup is on its way. -/
theorem checkbox_respects_choice_asked :
    (form .ascii).Always (Legitimate .ascii) (asked ++ [.lookupAnswered 5 (.matched true)]) ∧
    ∃ rest t, (form .ascii).Runs (asked ++ [.submit] ++ .saved false :: rest) t ∧
      ¬ (form .ascii).Always (Legitimate .ascii) (asked ++ [.submit] ++ .saved false :: rest) := by
  constructor
  · obtain ⟨s, hs⟩ : ∃ s, (form .ascii).after (asked ++ [.lookupAnswered 5 (.matched true)]) =
        some s := Option.isSome_iff_exists.mp (by decide +kernel)
    refine checkbox_respects_choice.1 _ s (Machine.runs_iff.mpr hs) ?_
    rintro before e rest t heq - ⟨subscribed, rfl⟩
    have hmem : Event.saved subscribed ∈ asked ++ [.lookupAnswered 5 (.matched true)] := by
      simp [heq]
    simp [asked] at hmem
  · obtain ⟨s, hs, hwaiting⟩ := (Option.any_eq_true _ _).mp (show
        ((form .ascii).after (asked ++ [.submit])).any (fun s => decide
          ((step .ascii s (.saved false)).isSome ∧ ∃ lookup ∈ s.hook.sent,
            lookup.requestSequence = s.hook.sequence ∧ lookup.startChoiceVersion = 0)) = true by
      decide +kernel)
    obtain ⟨hsome, lookup, hmem, hn, hstart⟩ := of_decide_eq_true hwaiting
    obtain ⟨s', hsaved⟩ := Option.isSome_iff_exists.mp hsome
    exact checkbox_respects_choice.2 _ s false s' lookup (Machine.runs_iff.mpr hs) hsaved
      ⟨.inr hmem, hn, hstart⟩

/-- The visitor subscribes and saves that before the lookup is answered. -/
def subscribedEarly : List Event := asked ++ [.toggle, .submit, .saved true]

/-- Then the answer takes the subscription away from the checkbox. -/
theorem late_lookup_overwrites :
    ∃ s, (form .ascii).Runs (subscribedEarly ++ [.lookupAnswered 5 .notFound]) s ∧
      s.subscribed = false ∧
      ¬ (form .ascii).Always (Legitimate .ascii)
        (subscribedEarly ++ [.lookupAnswered 5 .notFound]) := by
  obtain ⟨u, hu, hlatest⟩ := (Option.any_eq_true _ _).mp (show
      ((form .ascii).after (asked ++ [.toggle, .submit])).any (fun u => decide
        (u.hook.sequence = 5)) = true by decide +kernel)
  obtain ⟨s, hs, hlate⟩ := (Option.any_eq_true _ _).mp (show
      ((form .ascii).after subscribedEarly).any (fun s => decide
        (s.subscribed = true ∧ (step .ascii s (.lookupAnswered 5 .notFound)).any
          (fun t => decide (t.subscribed = false)) = true)) = true by decide +kernel)
  obtain ⟨hsubscribed, hanswer⟩ := of_decide_eq_true hlate
  obtain ⟨t, ht, hflipped⟩ := (Option.any_eq_true _ _).mp hanswer
  have hrun := Machine.runs_iff.mpr hs
  refine ⟨t, hrun.next ht, of_decide_eq_true hflipped, fun hall => ?_⟩
  have hne : t.subscribed ≠ s.subscribed := by
    rw [of_decide_eq_true hflipped, hsubscribed]
    exact Bool.false_ne_true
  obtain ⟨-, -, -, -, hund⟩ := hall subscribedEarly _ [] s rfl hrun 5 .notFound t rfl ht hne
  -- the save came while that lookup was the latest one
  exact (hund (asked ++ [.toggle, .submit]) (.saved true) [] u rfl (Machine.runs_iff.mpr hu)
    (of_decide_eq_true hlatest)).2 ⟨true, rfl⟩

end CafeFausse.Frontend.NewsletterPreferences
