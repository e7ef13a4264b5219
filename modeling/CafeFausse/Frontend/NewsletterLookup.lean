import CafeFausse.Frontend.Identity

/-! # The debounced newsletter lookup

The hook `useNewsletterLookup`. Its effect runs when the identity or the retry counter of
the form has changed; it takes the next number, and for an eligible identity starts a timer
whose end sends the lookup. An answer counts only if it is that of the latest number and of
the identity that is entered when it arrives.
-/

namespace CafeFausse.Frontend

inductive LookupResult where
  | matched (subscribed : Bool)
  | notFound
  | unrecognized
  deriving DecidableEq

/-- The public error of a failed call, as far as the forms read it. -/
structure PublicError where
  code : String
  retryable : Bool
  outcomeUnknown : Bool
  deriving DecidableEq

inductive LookupState where
  | notChecked
  | waiting
  | checking
  | answered (result : LookupResult)
  | conflict (code : String)
  | indeterminate (code : String) (retryable : Bool)
  | readFailure (code : String)
  | error (code : String)
  deriving DecidableEq

/-- `not_found` or `matched`. -/
def LookupState.settled : LookupState → Bool
  | .answered (.matched _) | .answered .notFound => true
  | _ => false

def LookupState.isConflict : LookupState → Bool
  | .conflict _ => true
  | _ => false

/-- The status can be asked for again. -/
def LookupState.retryable : LookupState → Bool
  | .indeterminate _ retryable => retryable
  | .readFailure _ => true
  | _ => false

/-- What one run of the effect closes over. -/
structure Lookup where
  requestSequence : ℕ
  snapshot : IdentityBody
  startChoiceVersion : ℕ
  deriving DecidableEq

/-- The hook: its state, its counter, the timer that is running and the lookups that have
been sent and not answered. -/
structure LookupHook where
  lookup : LookupState
  sequence : ℕ
  timer : Option Lookup
  sent : List Lookup
  deriving DecidableEq

/-- The hook before the effect has run. -/
def LookupHook.initial : LookupHook := ⟨.notChecked, 0, none, []⟩

/-- The lookup waits for its timer or its answer. -/
def LookupHook.Underway (hook : LookupHook) (lookup : Lookup) : Prop :=
  hook.timer = some lookup ∨ lookup ∈ hook.sent

section Hook

variable (b : Browser)

/-- The effect, after the cleanup of its last run. -/
def LookupHook.effect (hook : LookupHook) (values : Identity) (choiceVersion : ℕ) : LookupHook :=
  if identityIsEligible b values then
    { hook with
      lookup := .waiting
      sequence := hook.sequence + 1
      timer := some ⟨hook.sequence + 1, identityBody b values, choiceVersion⟩ }
  else { hook with lookup := .notChecked, sequence := hook.sequence + 1, timer := none }

/-- The end of the timer. -/
def LookupHook.fire (hook : LookupHook) : Option LookupHook :=
  hook.timer.map fun lookup =>
    { hook with lookup := .checking, timer := none, sent := hook.sent ++ [lookup] }

/-- `currentKey`: the body of the entered identity, or nothing. Its JSON text stands for it. -/
def currentKey (values : Identity) : Option IdentityBody :=
  if identityIsEligible b values then some (identityBody b values) else none

/-- The answer is that of the latest lookup and of the entered identity. -/
def LookupHook.Current (hook : LookupHook) (values : Identity) (lookup : Lookup) : Prop :=
  lookup.requestSequence = hook.sequence ∧ currentKey b values = some lookup.snapshot

instance (hook : LookupHook) (values : Identity) (lookup : Lookup) :
    Decidable (hook.Current b values lookup) := instDecidableAnd

/-- The lookup with this number is answered or has failed. -/
def LookupHook.take (hook : LookupHook) (requestSequence : ℕ) : Option (Lookup × LookupHook) :=
  (hook.sent.find? (·.requestSequence = requestSequence)).map fun lookup =>
    (lookup, { hook with sent := hook.sent.filter (·.requestSequence ≠ requestSequence) })

/-- A result sets the state, unless it is stale. -/
def LookupHook.answer (hook : LookupHook) (values : Identity) (lookup : Lookup)
    (result : LookupResult) : LookupHook :=
  if hook.Current b values lookup then { hook with lookup := .answered result } else hook

/-- The result goes to `onUntouchedResult`. -/
def Untouched (lookup : Lookup) (choiceVersion : ℕ) : Prop :=
  lookup.startChoiceVersion = 0 ∧ choiceVersion = lookup.startChoiceVersion

instance (lookup : Lookup) (choiceVersion : ℕ) : Decidable (Untouched lookup choiceVersion) :=
  instDecidableAnd

/-- The state after a failure. Without an envelope the transport has failed. -/
def failedLookup : Option PublicError → LookupState
  | none => .indeterminate "transport_failure" true
  | some error =>
    if error.code = "customer_identity_conflict" ∨ error.code = "middle_initial_conflict" then
      .conflict error.code
    else if error.code = "newsletter_status_indeterminate" then
      .indeterminate error.code error.retryable
    else if error.retryable then .readFailure error.code
    else .error error.code

def LookupHook.fail (hook : LookupHook) (values : Identity) (lookup : Lookup)
    (error : Option PublicError) : LookupHook :=
  if hook.Current b values lookup then { hook with lookup := failedLookup error } else hook

/-- `onUntouchedResult`: the checkbox after a result. -/
def onUntouchedResult (result : LookupResult) (subscribed : Bool) : Bool :=
  match result with
  | .matched stored => stored
  | .notFound => false
  | .unrecognized => subscribed

/-- The checkbox after a result that may be stale. -/
def LookupHook.checkbox (hook : LookupHook) (values : Identity) (choiceVersion : ℕ)
    (lookup : Lookup) (result : LookupResult) (subscribed : Bool) : Bool :=
  if hook.Current b values lookup ∧ Untouched lookup choiceVersion then
    onUntouchedResult result subscribed
  else subscribed

end Hook

end CafeFausse.Frontend
