import CafeFausse.Backend.Reads

/-! # The customer gateway

`CustomerGateway.get_newsletter_status`: the row of the e-mail, and whether its names and its
initial are the given ones. Unlike the routines it compares them by their case folding.
-/

namespace CafeFausse.Backend

open Python

/-- `NewsletterStatusOutcome`. -/
inductive NewsletterStatusOutcome where
  | matched
  | notFound
  | customerIdentityConflict
  | middleInitialConflict
  deriving DecidableEq

/-- `NewsletterStatusResult`; the proof is the check of `__post_init__`. -/
structure NewsletterStatusResult where
  outcome : NewsletterStatusOutcome
  subscribed : Option Bool
  subscribed_ck : subscribed.isSome = decide (outcome = .matched)

/-- The order in which names and initials are held against a stored customer. -/
def identityStatus (namesDiffer initialsConflict : Prop) [Decidable namesDiffer]
    [Decidable initialsConflict] : NewsletterStatusOutcome :=
  if namesDiffer then .customerIdentityConflict
  else if initialsConflict then .middleInitialConflict
  else .matched

/-- Two ways to hold them against a customer come out the same. -/
theorem identityStatus_eq_iff {p q p' q' : Prop} [Decidable p] [Decidable q] [Decidable p']
    [Decidable q'] : identityStatus p q = identityStatus p' q' ↔ (p ↔ p') ∧ (¬ p → (q ↔ q')) := by
  unfold identityStatus
  by_cases hp : p <;> by_cases hp' : p' <;> simp only [hp, hp', if_true, if_false]
  · simp
  · by_cases hq' : q' <;> simp [hq']
  · by_cases hq : q <;> simp [hq]
  · by_cases hq : q <;> by_cases hq' : q' <;> simp [hq, hq']

section Lookup

variable (u : Unicode)

/-- The names differ beyond case folding. -/
def FoldedNamesDiffer (identity : CustomerIdentity) (storedFirst storedLast : Text) : Prop :=
  u.casefoldText storedFirst ≠ u.casefoldText identity.firstName ∨
    u.casefoldText storedLast ≠ u.casefoldText identity.lastName

/-- Both initials are given and differ beyond case folding. -/
def FoldedInitialsConflict (stored given : Option Text) : Prop :=
  ∃ s ∈ stored, ∃ g ∈ given, u.casefoldText s ≠ u.casefoldText g

instance (identity : CustomerIdentity) (storedFirst storedLast : Text) :
    Decidable (FoldedNamesDiffer u identity storedFirst storedLast) := instDecidableOr

instance (stored given : Option Text) : Decidable (FoldedInitialsConflict u stored given) := by
  unfold FoldedInitialsConflict; infer_instance

/-- A row of `_CUSTOMER_SELECT`. -/
def customerRow (c : Customer) : List Value :=
  [.string c.firstName, (c.middleInitial.map Value.string).getD .none, .string c.lastName,
    .boolean c.newsletterSubscribed]

/-- `row[1] is not None and not isinstance(row[1], str)` is an error. -/
def decodeMiddle : Value → Except ReadError (Option Text)
  | .none => .ok none
  | .string t => .ok (some t)
  | _ => .error .databaseContractError

/-- The checks of `CustomerGateway.get_newsletter_status`. -/
def decodeNewsletterStatus (identity : CustomerIdentity) :
    List (List Value) → Except ReadError NewsletterStatusResult
  | [] => .ok ⟨.notFound, none, rfl⟩
  | [[.string storedFirst, middle, .string storedLast, .boolean subscribed]] => do
    let storedMiddle ← decodeMiddle middle
    if FoldedNamesDiffer u identity storedFirst storedLast then
      return ⟨.customerIdentityConflict, none, rfl⟩
    else if FoldedInitialsConflict u storedMiddle identity.middleInitial then
      return ⟨.middleInitialConflict, none, rfl⟩
    else return ⟨.matched, some subscribed, rfl⟩
  | _ => .error .databaseContractError

/-- `CustomerGateway.get_newsletter_status` on a snapshot. -/
def getNewsletterStatus (db : Database) (identity : CustomerIdentity) :
    Except ReadError NewsletterStatusResult :=
  decodeNewsletterStatus u identity
    ((db.customers.filter (·.email = identity.email)).map customerRow)

variable {u}

theorem decodeMiddle_customerRow (middle : Option Text) :
    decodeMiddle ((middle.map Value.string).getD .none) = .ok middle := by
  cases middle <;> rfl

/-- A stored customer is held against the identity. -/
theorem getNewsletterStatus_of_mem {db : Database} {identity : CustomerIdentity} {c : Customer}
    {ct : CharacterType} (h : Constraints ct db) (hc : c ∈ db.customers)
    (he : c.email = identity.email) :
    ∃ result, getNewsletterStatus u db identity = .ok result ∧
      result.outcome = identityStatus (FoldedNamesDiffer u identity c.firstName c.lastName)
        (FoldedInitialsConflict u c.middleInitial identity.middleInitial) := by
  unfold getNewsletterStatus
  rw [← he, Database.filter_eq_of_nodup h.customers_email_uq hc, List.map_singleton]
  simp only [customerRow, decodeNewsletterStatus, decodeMiddle_customerRow]
  unfold identityStatus
  by_cases hnames : FoldedNamesDiffer u identity c.firstName c.lastName
  · rw [if_pos hnames]
    exact ⟨_, if_pos hnames, rfl⟩
  rw [if_neg hnames]
  by_cases hinitials : FoldedInitialsConflict u c.middleInitial identity.middleInitial
  · rw [if_pos hinitials]
    exact ⟨_, (if_neg hnames).trans (if_pos hinitials), rfl⟩
  · rw [if_neg hinitials]
    exact ⟨_, (if_neg hnames).trans (if_neg hinitials), rfl⟩

end Lookup

end CafeFausse.Backend
