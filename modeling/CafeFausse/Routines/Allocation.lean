import CafeFausse.Database.Routine
import CafeFausse.Sql.Subsets

/-! # Table allocation

`select_table_allocation` picks the fewest free tables that seat the party, then the
least spare capacity, then a tie by rank. Two exact shortcuts stand before the
search, which meets in the middle between the subsets of the two halves.
-/

namespace CafeFausse

/-- The result row of `select_table_allocation`. -/
structure Allocation where
  tableNumbers : List ℤ
  totalCapacity : ℤ
  tieCount : ℕ
  selectedRank : ℤ
  deriving DecidableEq

/-- A draw of `floor(random() * n)`. -/
structure Random where
  pick : ℕ → ℕ
  pick_lt : ∀ n, 0 < n → pick n < n

namespace Allocation

/-- A table as the allocator gets it: its number and its capacity. -/
abbrev Table := ℤ × ℤ

/-- A row of `cafe_fausse_left_subsets` or `cafe_fausse_right_subsets`. -/
structure Subset where
  tableCount : ℕ
  capacitySum : ℤ
  tableNumbers : List ℤ
  deriving DecidableEq

def capacity (tables : List Table) : ℤ := (tables.map Prod.snd).sum

/-- The row of one set of tables. -/
def Subset.of (tables : List Table) : Subset where
  tableCount := tables.length
  capacitySum := capacity tables
  tableNumbers := Sql.orderBy id (tables.map Prod.fst)

/-- The rows of all sets of tables of one half. -/
def subsets (half : List Table) : List Subset := (Sql.masked half).map .of

/-- A row of `cafe_fausse_right_groups`. -/
structure Group where
  tableCount : ℕ
  capacitySum : ℤ
  subsetCount : ℕ
  deriving DecidableEq

/-- The right subsets of one size and capacity. -/
def sameGroup (right : List Subset) (tableCount : ℕ) (capacitySum : ℤ) : List Subset :=
  right.filter fun s => s.tableCount = tableCount ∧ s.capacitySum = capacitySum

/-- `GROUP BY table_count, capacity_sum`. -/
def groups (right : List Subset) : List Group :=
  (right.map fun s => (s.tableCount, s.capacitySum)).dedup.map fun k =>
    ⟨k.1, k.2, (sameGroup right k.1 k.2).length⟩

/-- Some left subset and some group give this many tables and enough seats. -/
def reachable (left : List Subset) (right : List Group) (partySize : ℤ) (tableCount : ℕ) : Bool :=
  left.any fun l => l.tableCount ≤ tableCount && right.any fun g =>
    l.tableCount + g.tableCount = tableCount && partySize - l.capacitySum ≤ g.capacitySum

/-- The least capacity of this many tables with enough seats. -/
def bestCapacity (left : List Subset) (right : List Group) (partySize : ℤ) (tableCount : ℕ) :
    Option ℤ :=
  (left.filterMap fun l =>
    let choices := right.filter fun g =>
      l.tableCount + g.tableCount = tableCount ∧ partySize - l.capacitySum ≤ g.capacitySum
    ((choices.map (·.capacitySum)).min?).map (l.capacitySum + ·)).min?

/-- The left subsets with the groups that complete them, in rank order. -/
def candidates (left : List Subset) (right : List Group) (tableCount : ℕ) (capacity : ℤ) :
    List (Subset × Group) :=
  ((left ×ˢ right).filter fun p =>
      p.1.tableCount + p.2.tableCount = tableCount ∧ p.1.capacitySum + p.2.capacitySum = capacity)
    |>.insertionSort fun p q => p.1.tableNumbers < q.1.tableNumbers ∨
      p.1.tableNumbers = q.1.tableNumbers ∧ p.2.capacitySum ≤ q.2.capacitySum

/-- The right subsets of a group, in rank order. -/
def rankedSubsets (right : List Subset) (g : Group) : List Subset :=
  (sameGroup right g.tableCount g.capacitySum).insertionSort
    fun s t => s.tableNumbers ≤ t.tableNumbers

/-- Walk down the candidates to the one that holds the rank. -/
def winner (right : List Subset) : List (Subset × Group) → ℕ → Option (List ℤ)
  | [], _ => none
  | (l, g) :: rest, rank =>
    if g.subsetCount < rank then winner right rest (rank - g.subsetCount)
    else
      some (l.tableNumbers ++ ((rankedSubsets right g)[rank - 1]?.map (·.tableNumbers)).getD [])

/-- The rank asked for, or a random one, if it is in range. -/
def chosenRank (tieRank : Option ℤ) (tieCount : ℕ) (random : Random) : Except SqlError ℤ :=
  let rank := tieRank.getD (random.pick tieCount + 1)
  if rank < 1 ∨ tieCount < rank then .error .allocationRankOutOfRange else .ok rank

/-- The tables of this capacity with their positions. Those of the right half come first,
as in the general search. -/
def singletons (tables : List Table) (best : ℤ) : List (Table × ℕ) :=
  let side (p : Table × ℕ) : ℕ := if tables.length / 2 ≤ p.2 then 0 else 1
  (tables.zipIdx.filter fun t => t.1.2 = best).insertionSort fun s t =>
    side s < side t ∨ side s = side t ∧ s.1.1 ≤ t.1.1

/-- A single table seats the party; `best` is the least capacity that does. -/
def singleTable (tables : List Table) (best : ℤ) (tieRank : Option ℤ) (random : Random) :
    Except SqlError Allocation := do
  let tieCount := (tables.filter fun t => t.2 = best).length
  let rank ← chosenRank tieRank tieCount random
  return ⟨((singletons tables best)[(rank - 1).toNat]?.map (·.1.1)).toList, best, tieCount, rank⟩

/-- The search over the subsets of the two halves of `count` tables. Partial sums stay
below the total capacity, which fits in an integer. -/
def search (left right : List Subset) (count : ℕ) (partySize : ℤ) (tieRank : Option ℤ)
    (random : Random) : Except SqlError Allocation := do
  let counts := (List.range count).map (· + 1)
  let some tableCount := counts.find? (reachable left (groups right) partySize)
    | .error .allocationInvariantFailed
  let some best := bestCapacity left (groups right) partySize tableCount
    | .error .allocationInvariantFailed
  let ranked := candidates left (groups right) tableCount best
  let tieCount := (ranked.map (·.2.subsetCount)).sum
  if tieCount = 0 then .error .allocationInvariantFailed else
  let rank ← chosenRank tieRank tieCount random
  let some tableNumbers := winner right ranked rank.toNat
    | .error .allocationReconstructionFailed
  if tableNumbers.length ≠ tableCount then .error .allocationReconstructionFailed
  else return ⟨tableNumbers, best, tieCount, rank⟩

/-- The general search, with the larger half on the right. -/
def meetInTheMiddle (tables : List Table) (partySize : ℤ) (tieRank : Option ℤ)
    (random : Random) : Except SqlError Allocation :=
  let leftCount := tables.length / 2
  search (subsets (tables.take leftCount)) (subsets (tables.drop leftCount)) tables.length
    partySize tieRank random

/-- Positive numbers and capacities, numbers strictly ascending. -/
def ValidTables (tables : List Table) : Prop :=
  (∀ t ∈ tables, 0 < t.1 ∧ 0 < t.2) ∧ (tables.map Prod.fst).IsChain (· < ·)

instance (tables : List Table) : Decidable (ValidTables tables) := instDecidableAnd

end Allocation

open Allocation in
/-- `select_table_allocation`. -/
def selectTableAllocation (tableNumbers capacities : List ℤ) (partySize : ℤ)
    (tieRank : Option ℤ) (random : Random) : Except SqlError (Option Allocation) :=
  let tables := tableNumbers.zip capacities
  if tableNumbers.length ≠ capacities.length ∨ 30 < tableNumbers.length ∨ partySize ≤ 0 then
    .error .invalidAllocationInput
  else if tables = [] then .ok none
  else if ¬ ValidTables tables then .error .allocationTablesNotAscending
  else do
    let availableCapacity ← integer (capacity tables)
    if availableCapacity < partySize then return none
    else match ((tables.map Prod.snd).filter fun c => partySize ≤ c).min? with
    | some best => some <$> singleTable tables best tieRank random
    | none =>
      -- capacities are positive, so a party of that size needs every table
      if availableCapacity = partySize then
        if tieRank.any (· ≠ 1) then .error .allocationRankOutOfRange
        else return some ⟨tableNumbers, availableCapacity, 1, 1⟩
      else some <$> meetInTheMiddle tables partySize tieRank random

open Allocation in
/-- `select_table_allocation` before migration 011, without shortcuts. It compares the
total as a `bigint`; its casts of partial sums are exact as long as the total is an
`integer`. -/
def selectTableAllocation006 (tableNumbers capacities : List ℤ) (partySize : ℤ)
    (tieRank : Option ℤ) (random : Random) : Except SqlError (Option Allocation) :=
  let tables := tableNumbers.zip capacities
  if tableNumbers.length ≠ capacities.length ∨ 30 < tableNumbers.length ∨ partySize ≤ 0 then
    .error .invalidAllocationInput
  else if tables = [] then .ok none
  else if ¬ ValidTables tables then .error .allocationTablesNotAscending
  else if capacity tables < partySize then .ok none
  else some <$> meetInTheMiddle tables partySize tieRank random

end CafeFausse
