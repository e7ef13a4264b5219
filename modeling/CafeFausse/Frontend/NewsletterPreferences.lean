import CafeFausse.Frontend.NewsletterLookup
import CafeFausse.Interaction.Machine

/-! # The newsletter form

`NewsletterPreferences` with its lookup. The visitor's actions, the end of the timer and the
answers of the server arrive one by one in any order; after each of them the form renders
and its effects run.
-/

namespace CafeFausse.Frontend

open Interaction

/-- The frozen body of a save. -/
structure PreferenceBody where
  identity : IdentityBody
  subscribed : Bool
  deriving DecidableEq

/-- A save that can be sent again. `unknown` tells that its outcome is not known. -/
structure PreferenceRecovery where
  body : PreferenceBody
  unknown : Bool
  deriving DecidableEq

/-- What the form shows of its last save. -/
inductive PreferenceResult where
  | saved (subscribed : Bool)
  | error (unknown : Bool) (code : String)
  deriving DecidableEq

namespace NewsletterPreferences

/-- The state of the form. `saving` is the body of the save that is pending. -/
structure Form where
  values : Identity
  subscribed : Bool
  choiceVersion : ℕ
  lookupRetryVersion : ℕ
  saving : Option PreferenceBody
  result : Option PreferenceResult
  recovery : Option PreferenceRecovery
  hook : LookupHook
  deriving DecidableEq

/-- Nothing can be edited while a save is pending or can be sent again. -/
def Form.Locked (s : Form) : Prop := s.saving.isSome ∨ s.recovery.isSome

instance (s : Form) : Decidable s.Locked := instDecidableOr

inductive Event where
  | update (field : IdentityField) (value : Text)
  | toggle
  | timer
  | lookupAnswered (requestSequence : ℕ) (result : LookupResult)
  | lookupFailed (requestSequence : ℕ) (error : Option PublicError)
  | retryLookup
  | submit
  | resend
  | leaveUnresolved
  | saved (subscribed : Bool)
  | saveFailed (error : Option PublicError)
  deriving DecidableEq

section Handlers

variable (b : Browser)

/-- The effect runs if the identity or the retry counter has changed. -/
def Form.render (old new : Form) : Form :=
  if new.values ≠ old.values ∨ new.lookupRetryVersion ≠ old.lookupRetryVersion then
    { new with hook := new.hook.effect b new.values new.choiceVersion }
  else new

/-- The mounted form, after its first effect. -/
def Form.initial : Form where
  values := .empty
  subscribed := false
  choiceVersion := 0
  lookupRetryVersion := 0
  saving := none
  result := none
  recovery := none
  hook := LookupHook.initial.effect b .empty 0

/-- `sendPreference`, up to the answer. -/
def Form.sendPreference (s : Form) (body : PreferenceBody) : Form :=
  if s.saving.isSome then s else { s with saving := some body, result := none }

/-- The handler of a failed save. -/
def Form.preferenceFailed (s : Form) (body : PreferenceBody) (error : Option PublicError) :
    Form :=
  let s := { s with saving := none, recovery := none }
  let unsaved (code : String) (unknown retryable : Bool) : Form := { s with
    recovery := if unknown || retryable then some ⟨body, unknown⟩ else none
    result := some (.error unknown code) }
  match error with
  | none => unsaved "transport_failure" true false
  | some error =>
    if error.code ∈ ["validation_failed", "customer_identity_conflict", "middle_initial_conflict"]
    then s
    else unsaved error.code error.outcomeUnknown error.retryable

/-- The state after one event, if the form offers it: fields and buttons can be disabled,
and an answer needs a request. -/
def step (s : Form) : Event → Option Form
  | .update field value =>
    if s.Locked then none
    else some (s.render b { s with values := s.values.update value field, result := none })
  | .toggle =>
    if s.Locked then none
    else some { s with
      subscribed := !s.subscribed, choiceVersion := s.choiceVersion + 1, result := none }
  | .timer => s.hook.fire.map fun hook => { s with hook }
  | .lookupAnswered requestSequence result =>
    (s.hook.take requestSequence).map fun (lookup, hook) => { s with
      subscribed := hook.checkbox b s.values s.choiceVersion lookup result s.subscribed
      hook := hook.answer b s.values lookup result }
  | .lookupFailed requestSequence error =>
    (s.hook.take requestSequence).map fun (lookup, hook) => { s with
      hook := hook.fail b s.values lookup error }
  | .retryLookup =>
    if s.Locked ∨ ¬ s.hook.lookup.retryable then none
    else some (s.render b { s with lookupRetryVersion := s.lookupRetryVersion + 1 })
  | .submit =>
    if s.Locked then none
    else if ¬ identityIsEligible b s.values then some s
    else some (s.sendPreference ⟨identityBody b s.values, s.subscribed⟩)
  | .resend =>
    if s.saving.isSome then none
    else s.recovery.map fun recovery => s.sendPreference recovery.body
  | .leaveUnresolved =>
    if s.recovery.isSome then some { s with recovery := none, result := none } else none
  | .saved subscribed =>
    s.saving.map fun _ => { s with
      subscribed
      choiceVersion := 0
      saving := none
      recovery := none
      result := some (.saved subscribed) }
  | .saveFailed error => s.saving.map fun body => s.preferenceFailed body error

/-- The form as a component. -/
def form : Machine Form Event := ⟨Form.initial b, step b⟩

end Handlers

/-- The visitor has toggled the checkbox. -/
def Event.IsToggle (e : Event) : Prop := e = .toggle

/-- A save has completed. -/
def Event.IsSaved (e : Event) : Prop := ∃ subscribed, e = .saved subscribed

section History

variable {b : Browser}

/-- Since the lookup with this number was started, the checkbox has not been toggled and no
save has completed. -/
def Undisturbed (b : Browser) (requestSequence : ℕ) (events : List Event) : Prop :=
  (form b).Always (fun _ s e => s.hook.sequence = requestSequence → ¬ e.IsToggle ∧ ¬ e.IsSaved)
    events

/-- What an answer that changes the checkbox has to be: that of the latest lookup, asked for
the identity that is entered, with nothing decided since. -/
def Legitimate (b : Browser) (events : List Event) (s : Form) (e : Event) : Prop :=
  ∀ requestSequence result s', e = .lookupAnswered requestSequence result →
    step b s e = some s' → s'.subscribed ≠ s.subscribed →
      ∃ lookup ∈ s.hook.sent, lookup.requestSequence = requestSequence ∧
        s.hook.Current b s.values lookup ∧ Undisturbed b requestSequence events

/-- A lookup that an answer could still apply is on its way. -/
def Form.Awaiting (s : Form) (lookup : Lookup) : Prop :=
  s.hook.Underway lookup ∧ lookup.requestSequence = s.hook.sequence ∧ lookup.startChoiceVersion = 0

end History

end NewsletterPreferences

end CafeFausse.Frontend
