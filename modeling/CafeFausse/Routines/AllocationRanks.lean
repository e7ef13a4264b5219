import CafeFausse.Routines.AllocationOptimal

/-! # Ranks of allocations

Both shortcuts of the allocator answer as the general search would, so every path picks
the part that the rank has in one enumeration of the optimal parts.
-/

namespace CafeFausse.Allocation

variable {tables : List Table} {partySize best : ℤ} {random : Random} {n : ℕ} {tieRank : Option ℤ}

/-- A part has at most the capacity of the whole. -/
theorem capacity_le (hv : ValidTables tables) {s : List Table} (hs : s.Sublist tables) :
    capacity s ≤ capacity tables :=
  (hs.map Prod.snd).sum_le_sum fun c hc => by
    obtain ⟨t, ht, rfl⟩ := List.mem_map.mp hc
    exact (hv.1 t ht).2.le

theorem capacity_nonneg (hv : ValidTables tables) : 0 ≤ capacity tables :=
  capacity_le hv (List.nil_sublist tables)

/-- A part that leaves a table out has less capacity. -/
theorem eq_of_capacity_le (hv : ValidTables tables) {s : List Table} (hs : s.Sublist tables)
    (hc : capacity tables ≤ capacity s) : s = tables := by
  induction hs with
  | slnil => rfl
  | @cons s l a hs ih =>
    have hl : ValidTables l := hv.sublist (List.sublist_cons_self a l)
    have hpos := (hv.1 a (List.mem_cons_self ..)).2
    have hle := capacity_le hl hs
    simp only [capacity, List.map_cons, List.sum_cons] at hc hle
    omega
  | @cons_cons s l a hs ih =>
    simp only [capacity, List.map_cons, List.sum_cons] at hc
    rw [ih (hv.sublist (List.sublist_cons_self a l)) (by simp only [capacity]; omega)]

/-- If the party can be seated at all, some part of the tables is optimal. -/
theorem exists_optimal (hc : partySize ≤ capacity tables) : ∃ s, Optimal tables partySize s := by
  obtain ⟨s, hs, hmin⟩ := (tables.sublists.filter (Seats tables partySize)).toFinset.exists_min_image
    (fun s => toLex (s.length, capacity s))
    ⟨tables, by simpa using ⟨List.Sublist.refl _, hc⟩⟩
  simp only [List.mem_toFinset, List.mem_filter, List.mem_sublists, decide_eq_true_eq] at hs hmin
  have hmin : ∀ t, Seats tables partySize t →
      s.length < t.length ∨ s.length = t.length ∧ capacity s ≤ capacity t := fun t ht =>
    Prod.Lex.toLex_le_toLex.mp (hmin t ⟨ht.sublist, ht⟩)
  refine ⟨s, hs.2, fun t ht => ?_, fun t ht hlen => ?_⟩
  · rcases hmin t ht with h | ⟨h, -⟩
    · exact h.le
    · exact h.le
  · rcases hmin t ht with h | ⟨-, h⟩
    · omega
    · exact h

theorem Optimal.minima {s : List Table} (h : Optimal tables partySize s) :
    Minima tables partySize s.length (capacity s) :=
  ⟨⟨s, h.toSeats, rfl, rfl⟩, h.fewest, h.tightest⟩

section Single

/-- The halves of a set of one table, by its position. -/
def halves (leftCount : ℕ) (e : Table × ℕ) : List ℤ × List ℤ :=
  if leftCount ≤ e.2 then ([], [e.1.1]) else ([e.1.1], [])

theorem minima_single (hp : 0 < partySize)
    (h : ((tables.map Prod.snd).filter fun c => partySize ≤ c).min? = some best) :
    Minima tables partySize 1 best := by
  obtain ⟨hmem, hmin⟩ := List.min?_eq_some_iff.mp h
  obtain ⟨hbest, hle⟩ := List.mem_filter.mp hmem
  obtain ⟨t, ht, rfl⟩ := List.mem_map.mp hbest
  refine ⟨⟨[t], ⟨List.singleton_sublist.mpr ht, ?_⟩, rfl, by simp [capacity]⟩, ?_, ?_⟩
  · simpa [capacity] using hle
  · rintro (- | ⟨a, s⟩) hs
    · have := hs.enough
      simp only [capacity, List.map_nil, List.sum_nil] at this
      omega
    · exact Nat.succ_pos _
  · intro s hs hlen
    obtain ⟨a, rfl⟩ := List.length_eq_one_iff.mp hlen
    have henough := hs.enough
    simp only [capacity, List.map_cons, List.map_nil, List.sum_cons, List.sum_nil, add_zero]
      at henough ⊢
    refine hmin _ (List.mem_filter.mpr ⟨List.mem_map_of_mem ?_, decide_eq_true henough⟩)
    exact List.singleton_sublist.mp hs.sublist

theorem mem_singletons {e : Table × ℕ} :
    e ∈ singletons tables best ↔ tables[e.2]? = some e.1 ∧ e.1.2 = best := by
  obtain ⟨t, i⟩ := e
  simp only [singletons, List.mem_insertionSort, List.mem_filter, List.mk_mem_zipIdx_iff_getElem?,
    decide_eq_true_eq]

theorem singletons_pairwise (hv : ValidTables tables) :
    ((singletons tables best).map (halves (tables.length / 2))).Pairwise
      (Prod.Lex (· < ·) (· < ·)) := by
  let side (p : Table × ℕ) : ℕ := if tables.length / 2 ≤ p.2 then 0 else 1
  have htotal : Std.Total fun s t : Table × ℕ =>
      side s < side t ∨ side s = side t ∧ s.1.1 ≤ t.1.1 := ⟨fun s t => by omega⟩
  have htrans : IsTrans (Table × ℕ) fun s t =>
      side s < side t ∨ side s = side t ∧ s.1.1 ≤ t.1.1 := ⟨fun s t u h h' => by omega⟩
  have hnodup : ((tables.zipIdx.filter fun t => t.1.2 = best).map fun e => e.1.1).Nodup := by
    have hnumbers : tables.zipIdx.map (fun e => e.1.1) = tables.map Prod.fst := by
      conv_rhs => rw [← List.zipIdx_map_fst 0 tables, List.map_map]
      rfl
    exact (List.filter_sublist.map _).nodup (hnumbers ▸ hv.nodup_fst)
  have hdistinct : (singletons tables best).Pairwise fun s t => s.1.1 ≠ t.1.1 := by
    rw [← List.pairwise_map (f := fun e : Table × ℕ => e.1.1)]
    exact ((List.perm_insertionSort _ _).map _).nodup_iff.mpr hnodup
  rw [List.pairwise_map]
  refine ((List.pairwise_insertionSort _ _).and hdistinct).imp fun {s t} ⟨hle, hne⟩ => ?_
  have hlt : side s < side t ∨ side s = side t ∧ s.1.1 < t.1.1 :=
    hle.imp_right fun ⟨he, hn⟩ => ⟨he, lt_of_le_of_ne hn hne⟩
  simp only [side] at hlt
  unfold halves
  split at hlt <;> split at hlt <;> simp only [*, if_true, if_false]
  · exact .right _ (List.cons_lt_cons_iff.mpr (.inl (by omega)))
  · exact .left _ _ (List.nil_lt_cons _ _)
  · omega
  · exact .left _ _ (List.cons_lt_cons_iff.mpr (.inl (by omega)))

theorem mem_left {t : Table} : t ∈ left tables ↔ ∃ i < tables.length / 2, tables[i]? = some t := by
  rw [List.mem_iff_getElem?]
  refine exists_congr fun i => ?_
  rw [List.getElem?_take]
  split
  · simp [*]
  · simp [*]

theorem mem_right {t : Table} : t ∈ right tables ↔ ∃ i ≥ tables.length / 2, tables[i]? = some t := by
  rw [List.mem_iff_getElem?]
  constructor
  · rintro ⟨i, hi⟩
    exact ⟨_, Nat.le_add_right _ i, List.getElem?_drop ▸ hi⟩
  · rintro ⟨i, hle, hi⟩
    refine ⟨i - tables.length / 2, ?_⟩
    rw [List.getElem?_drop, Nat.add_sub_cancel' hle]
    exact hi

/-- The order of the single tables is the order of the general search. -/
theorem singletons_eq (hv : ValidTables tables) :
    (singletons tables best).map (halves (tables.length / 2)) =
      enumerate (subsets (left tables)) (subsets (right tables)) 1 best := by
  refine (singletons_pairwise hv).eq_of_mem_iff (enumerate_pairwise hv.left hv.right) fun x => ?_
  rw [mem_enumerate, List.mem_map]
  constructor
  · rintro ⟨⟨t, i⟩, he, rfl⟩
    obtain ⟨hi, hbest⟩ := mem_singletons.mp he
    unfold halves
    split
    · next hle =>
      have ht : [t].Sublist (right tables) := List.singleton_sublist.mpr (mem_right.mpr ⟨i, hle, hi⟩)
      refine ⟨[], [t], List.nil_sublist _, ht, rfl, by simpa [capacity] using hbest, ?_⟩
      rw [Subset.of_tableNumbers hv.right ht]
      rfl
    · next hnle =>
      have ht : [t].Sublist (left tables) :=
        List.singleton_sublist.mpr (mem_left.mpr ⟨i, not_le.mp hnle, hi⟩)
      refine ⟨[t], [], ht, List.nil_sublist _, rfl, by simpa [capacity] using hbest, ?_⟩
      rw [Subset.of_tableNumbers hv.left ht]
      rfl
  · rintro ⟨s, t, hs, ht, hn, hc, rfl⟩
    rw [Subset.of_tableNumbers hv.left hs, Subset.of_tableNumbers hv.right ht]
    rcases Nat.add_eq_one_iff.mp hn with ⟨hs', ht'⟩ | ⟨hs', ht'⟩
    · obtain rfl := List.length_eq_zero_iff.mp hs'
      obtain ⟨a, rfl⟩ := List.length_eq_one_iff.mp ht'
      obtain ⟨i, hle, hi⟩ := mem_right.mp (List.singleton_sublist.mp ht)
      refine ⟨(a, i), mem_singletons.mpr ⟨hi, by simpa [capacity] using hc⟩, ?_⟩
      rw [halves, if_pos hle]
      rfl
    · obtain rfl := List.length_eq_zero_iff.mp ht'
      obtain ⟨a, rfl⟩ := List.length_eq_one_iff.mp hs'
      obtain ⟨i, hlt, hi⟩ := mem_left.mp (List.singleton_sublist.mp hs)
      refine ⟨(a, i), mem_singletons.mpr ⟨hi, by simpa [capacity] using hc⟩, ?_⟩
      rw [halves, if_neg (not_le.mpr hlt)]
      rfl

/-- The first shortcut allocates by the ranking. -/
theorem singleTable_eq (hv : ValidTables tables) :
    singleTable tables best tieRank random =
      ofRanking (ranking tables 1 best) best tieRank random := by
  have hranking : ranking tables 1 best = (singletons tables best).map fun e => [e.1.1] := by
    rw [ranking, ← singletons_eq hv, List.map_map]
    refine List.map_congr_left fun e _ => ?_
    simp only [Function.comp_def, halves]
    split <;> rfl
  have hlength : (ranking tables 1 best).length = (tables.filter fun t => t.2 = best).length := by
    rw [hranking, List.length_map, singletons, List.length_insertionSort, length_filter_zipIdx]
  simp only [singleTable, ofRanking, hlength]
  rw [hranking]
  cases hrank : chosenRank tieRank (tables.filter fun t => t.2 = best).length random with
  | error e => rfl
  | ok rank =>
    simp only [bind, Except.bind, List.getElem?_map]
    cases (singletons tables best)[(rank - 1).toNat]? <;> rfl

end Single

section Exact

/-- With no seat to spare every table is needed. -/
theorem minima_exact (hv : ValidTables tables) (h : capacity tables = partySize) :
    Minima tables partySize tables.length partySize := by
  have hall : ∀ s, Seats tables partySize s → s = tables := fun s hs =>
    eq_of_capacity_le hv hs.sublist (h ▸ hs.enough)
  refine ⟨⟨tables, ⟨List.Sublist.refl _, h.ge⟩, rfl, h⟩, fun s hs => ?_, fun s hs _ => ?_⟩
  · rw [hall s hs]
  · rw [hall s hs, h]

theorem ranking_exact (hv : ValidTables tables) (h : capacity tables = partySize) :
    ranking tables tables.length partySize = [tables.map Prod.fst] := by
  have hmem : ∀ x, x ∈ ranking tables tables.length partySize ↔ x ∈ [tables.map Prod.fst] := by
    intro x
    rw [mem_ranking hv, List.mem_singleton]
    constructor
    · rintro ⟨s, ⟨hs, hlen, -⟩, rfl⟩
      rw [hs.eq_of_length hlen]
    · rintro rfl
      exact ⟨tables, ⟨List.Sublist.refl _, rfl, h⟩, rfl⟩
  refine List.perm_singleton.mp ?_
  exact (List.perm_ext_iff_of_nodup (nodup_ranking hv) (List.nodup_singleton _)).mpr hmem

/-- The second shortcut allocates by the ranking. -/
theorem exact_eq {numbers : List ℤ} (random : Random) (tieRank : Option ℤ) :
    (if tieRank.any (· ≠ 1) then .error .allocationRankOutOfRange
      else .ok ⟨numbers, best, 1, 1⟩ : Except SqlError Allocation) =
      ofRanking [numbers] best tieRank random := by
  have hone : random.pick 1 = 0 := Nat.lt_one_iff.mp (random.pick_lt 1 Nat.one_pos)
  unfold ofRanking chosenRank
  cases tieRank with
  | none => simp [hone]
  | some rank =>
    by_cases h : rank = 1
    · subst h
      simp
    · have : rank < 1 ∨ 1 < rank := by omega
      simp [h, this]

end Exact

section Ranks

theorem Minima.unique {n' : ℕ} {best' : ℤ} (h : Minima tables partySize n best)
    (h' : Minima tables partySize n' best') : n = n' ∧ best = best' := by
  obtain ⟨s, hs, rfl, rfl⟩ := h.attained
  obtain ⟨s', hs', rfl, rfl⟩ := h'.attained
  have hlen : s.length = s'.length := le_antisymm (h.fewest s' hs') (h'.fewest s hs)
  exact ⟨hlen, le_antisymm (h.tightest s' hs' hlen.symm) (h'.tightest s hs hlen)⟩

theorem ncard_optimal (hv : ValidTables tables) :
    {s | Optimal tables partySize s}.ncard = (optimalSets tables partySize).length := by
  have hset : {s | Optimal tables partySize s} =
      ((optimalSets tables partySize).toFinset : Set (List Table)) := by
    ext s
    simp only [Set.mem_ofPred_eq, List.coe_toFinset, mem_optimalSets]
  rw [hset, Set.ncard_coe_finset, List.toFinset_card_of_nodup]
  exact (List.nodup_sublists.mpr hv.nodup).filter _

end Ranks

end CafeFausse.Allocation

namespace CafeFausse

open Allocation

variable {numbers capacities : List ℤ} {partySize best : ℤ} {random : Random} {n : ℕ}

/-- What the allocator asks of its arguments, with capacities that add up to an
`integer`. -/
structure ValidInput (numbers capacities : List ℤ) (partySize : ℤ) : Prop where
  length_eq : numbers.length = capacities.length
  length_le : numbers.length ≤ 30
  numbers_pos : ∀ t ∈ numbers, 0 < t
  ascending : numbers.IsChain (· < ·)
  capacities_pos : ∀ c ∈ capacities, 0 < c
  total_le : capacities.sum ≤ 2147483647
  party_pos : 0 < partySize

namespace ValidInput

variable (h : ValidInput numbers capacities partySize)

include h

theorem map_fst : (numbers.zip capacities).map Prod.fst = numbers :=
  List.map_fst_zip h.length_eq.le

theorem capacity_eq : capacity (numbers.zip capacities) = capacities.sum := by
  rw [capacity, List.map_snd_zip h.length_eq.ge]

theorem tables : ValidTables (numbers.zip capacities) := by
  refine ⟨fun t ht => ?_, by rw [h.map_fst]; exact h.ascending⟩
  exact ⟨h.numbers_pos _ (List.of_mem_zip ht).1, h.capacities_pos _ (List.of_mem_zip ht).2⟩

theorem integer_capacity :
    integer (capacity (numbers.zip capacities)) = .ok (capacity (numbers.zip capacities)) := by
  have hnonneg := capacity_nonneg h.tables
  have hle := h.total_le
  rw [← h.capacity_eq] at hle
  unfold integer
  rw [if_pos (by omega)]

theorem ne_nil (hc : partySize ≤ capacities.sum) : numbers.zip capacities ≠ [] := by
  intro hnil
  have hparty := h.party_pos
  rw [← h.capacity_eq, hnil] at hc
  simp only [capacity, List.map_nil, List.sum_nil] at hc
  omega

/-- Every path of the allocator picks the part that has the rank. -/
theorem select_eq (hm : Minima (numbers.zip capacities) partySize n best) (tieRank : Option ℤ) :
    selectTableAllocation numbers capacities partySize tieRank random =
      some <$> ofRanking (ranking (numbers.zip capacities) n best) best tieRank random := by
  have hc : partySize ≤ capacities.sum := by
    obtain ⟨s, hs, -, -⟩ := hm.attained
    rw [← h.capacity_eq]
    exact hs.enough.trans (capacity_le h.tables hs.sublist)
  have hguard : ¬ (numbers.length ≠ capacities.length ∨ 30 < numbers.length ∨ partySize ≤ 0) := by
    have := h.length_eq
    have := h.length_le
    have := h.party_pos
    omega
  unfold selectTableAllocation
  simp only
  rw [if_neg hguard, if_neg (h.ne_nil hc), if_neg (not_not.mpr h.tables)]
  simp only [h.integer_capacity, bind, Except.bind]
  rw [if_neg (by rw [h.capacity_eq]; omega)]
  split
  · next c hsome =>
    obtain ⟨rfl, rfl⟩ := (minima_single h.party_pos hsome).unique hm
    rw [singleTable_eq h.tables]
  · split
    · next hexact =>
      obtain ⟨rfl, rfl⟩ := (minima_exact h.tables hexact).unique hm
      rw [ranking_exact h.tables hexact, h.map_fst, ← exact_eq, hexact]
      split <;> rfl
    · rw [meetInTheMiddle_eq h.tables h.party_pos hm]

/-- Without enough seats in all there is no row. -/
theorem select_none (hc : capacities.sum < partySize) (tieRank : Option ℤ) :
    selectTableAllocation numbers capacities partySize tieRank random = .ok none := by
  unfold selectTableAllocation
  simp only
  rw [if_neg (by have := h.length_eq; have := h.length_le; have := h.party_pos; omega)]
  split
  · rfl
  rw [if_neg (not_not.mpr h.tables)]
  simp only [h.integer_capacity, bind, Except.bind]
  rw [if_pos (by rw [h.capacity_eq]; exact hc)]
  rfl

theorem exists_minima (hc : partySize ≤ capacities.sum) :
    ∃ n best, Minima (numbers.zip capacities) partySize n best := by
  obtain ⟨s, hs⟩ := exists_optimal (h.capacity_eq ▸ hc)
  exact ⟨_, _, hs.minima⟩

end ValidInput

/-- The row reports an optimal part of the tables, in ascending order, and the number of
all optimal parts. -/
structure Allocation.Best (tables : List Table) (partySize : ℤ) (a : Allocation) : Prop where
  optimal : ∃ s, Optimal tables partySize s ∧ a.tableNumbers = s.map Prod.fst ∧
    a.totalCapacity = capacity s
  ascending : a.tableNumbers.Pairwise (· < ·)
  tieCount_eq : a.tieCount = {s | Optimal tables partySize s}.ncard
  rank_mem : 1 ≤ a.selectedRank ∧ a.selectedRank ≤ a.tieCount

section Ranking

variable {tables : List Table} {tieRank : Option ℤ}

theorem ofRanking_best (hv : ValidTables tables) (hm : Minima tables partySize n best)
    {a : Allocation} (ha : ofRanking (ranking tables n best) best tieRank random = .ok a) :
    a.Best tables partySize := by
  obtain ⟨rank, hrank, h⟩ := bind_eq_ok.mp ha
  cases h
  obtain ⟨h₁, h₂⟩ := chosenRank_ok hrank
  have hlt : (rank - 1).toNat < (ranking tables n best).length := by omega
  obtain ⟨s, hs, hnumbers⟩ := (mem_ranking hv).mp (List.getElem_mem hlt)
  have hoptimal := hm.optimal_iff.mpr hs
  refine ⟨⟨s, hoptimal, ?_, hs.2.2.symm⟩, ?_, ?_, h₁, h₂⟩
  · simp only [List.getElem?_eq_getElem hlt, Option.getD_some, hnumbers]
  · simp only [List.getElem?_eq_getElem hlt, Option.getD_some, hnumbers]
    exact (List.isChain_iff_pairwise.mp hv.2).sublist (hs.1.map _)
  · rw [ncard_optimal hv, ← length_ranking hv hm]

theorem chosenRank_mem {k : ℕ} {rank : ℤ} (h : 1 ≤ rank ∧ rank ≤ k) :
    chosenRank (some rank) k random = .ok rank := by
  unfold chosenRank
  simp only [Option.getD_some]
  rw [if_neg (by omega)]

theorem chosenRank_not_mem {k : ℕ} {rank : ℤ} (h : ¬ (1 ≤ rank ∧ rank ≤ k)) :
    chosenRank (some rank) k random = .error .allocationRankOutOfRange := by
  unfold chosenRank
  simp only [Option.getD_some]
  rw [if_pos (by omega)]

/-- A rank in range, or none, makes a choice among the ties. -/
theorem exists_chosenRank {k : ℕ} (hk : 0 < k) (h : ∀ r ∈ tieRank, 1 ≤ r ∧ r ≤ k)
    (random : Random) : ∃ rank, chosenRank tieRank k random = .ok rank ∧ ∀ r ∈ tieRank, rank = r := by
  cases tieRank with
  | none => exact ⟨_, chosenRank_none random hk, nofun⟩
  | some r =>
    refine ⟨r, chosenRank_mem (h r rfl), fun r' hr => ?_⟩
    exact Option.mem_some_iff.mp hr

end Ranking

/-- The allocator finds an optimal part exactly when there are enough seats, counts the
optimal parts, and refuses just the ranks that this count leaves out. Its internal errors
are unreachable. -/
theorem allocation_optimal (h : ValidInput numbers capacities partySize) (tieRank : Option ℤ)
    (random : Random) :
    let tables := numbers.zip capacities
    let inRange := ∀ r ∈ tieRank, 1 ≤ r ∧ r ≤ {s | Optimal tables partySize s}.ncard
    let result := selectTableAllocation numbers capacities partySize tieRank random
    (result = .ok none ↔ capacities.sum < partySize) ∧
    ((∃ a, result = .ok (some a)) ↔ partySize ≤ capacities.sum ∧ inRange) ∧
    (∀ a, result = .ok (some a) → a.Best tables partySize ∧ ∀ r ∈ tieRank, a.selectedRank = r) ∧
    (result = .error .allocationRankOutOfRange ↔ partySize ≤ capacities.sum ∧ ¬ inRange) ∧
    result ≠ .error .allocationInvariantFailed ∧
    result ≠ .error .allocationReconstructionFailed := by
  intro tables inRange result
  rcases lt_or_ge capacities.sum partySize with hc | hc
  · have hresult : result = .ok none := h.select_none hc tieRank
    have hnot : ¬ partySize ≤ capacities.sum := not_le.mpr hc
    simp [hresult, hc, hnot]
  obtain ⟨n, best, hm⟩ := h.exists_minima hc
  have hselect : result = some <$> ofRanking (ranking tables n best) best tieRank random :=
    h.select_eq hm tieRank
  have hcount : {s | Optimal tables partySize s}.ncard = (ranking tables n best).length := by
    rw [ncard_optimal h.tables, length_ranking h.tables hm]
  have hnot : ¬ capacities.sum < partySize := not_lt.mpr hc
  by_cases hin : inRange
  · have hpos : 0 < (ranking tables n best).length := by
      obtain ⟨s, hs, hn, hbest⟩ := hm.attained
      exact List.length_pos_of_mem ((mem_ranking h.tables).mpr ⟨s, ⟨hs.sublist, hn, hbest⟩, rfl⟩)
    obtain ⟨rank, hrank, hr⟩ := exists_chosenRank hpos (by rwa [← hcount]) random
    have hresult : ∃ a, ofRanking (ranking tables n best) best tieRank random = .ok a ∧
        a.selectedRank = rank := ⟨_, bind_eq_ok.mpr ⟨rank, hrank, rfl⟩, rfl⟩
    obtain ⟨a, ha, hsel⟩ := hresult
    have hbest := ofRanking_best h.tables hm ha
    rw [ha] at hselect
    simpa [hselect, hc, hnot, hin, hsel] using ⟨hbest, hr⟩
  · obtain ⟨r, rfl, hr⟩ : ∃ r, tieRank = some r ∧
        ¬ (1 ≤ r ∧ r ≤ (ranking tables n best).length) := by
      by_contra hall
      refine hin fun r hmem => ?_
      rw [hcount]
      by_contra hr
      exact hall ⟨r, hmem, hr⟩
    have herror : ofRanking (ranking tables n best) best (some r) random =
        .error .allocationRankOutOfRange :=
      bind_eq_error.mpr (.inl (chosenRank_not_mem hr))
    rw [herror] at hselect
    simp [hselect, hc, hnot, hin]

/-- Five tables. A party of seven needs two of them. -/
theorem fiveTables : ValidInput [1, 2, 3, 4, 5] [2, 3, 2, 5, 4] 7 :=
  ⟨rfl, by decide, by decide, by decide, by decide, by decide, by decide⟩

theorem allocation_optimal_fiveTables :
    selectTableAllocation [1, 2, 3, 4, 5] [2, 3, 2, 5, 4] 7 (some 3) ⟨fun _ => 0, fun _ h => h⟩ =
      .ok (some ⟨[2, 5], 7, 3, 3⟩) ∧
    Best ([1, 2, 3, 4, 5].zip [2, 3, 2, 5, 4]) 7 ⟨[2, 5], 7, 3, 3⟩ := by
  have hresult : selectTableAllocation [1, 2, 3, 4, 5] [2, 3, 2, 5, 4] 7 (some 3)
      ⟨fun _ => 0, fun _ h => h⟩ = .ok (some ⟨[2, 5], 7, 3, 3⟩) := by decide +kernel
  obtain ⟨-, -, hbest, -⟩ := allocation_optimal fiveTables (some 3) ⟨fun _ => 0, fun _ h => h⟩
  exact ⟨hresult, (hbest _ hresult).1⟩

/-- With an explicit rank the shortcuts change nothing. -/
theorem shortcuts_exact (h : ValidInput numbers capacities partySize) (rank : ℤ)
    (random random' : Random) :
    selectTableAllocation numbers capacities partySize (some rank) random =
      selectTableAllocation006 numbers capacities partySize (some rank) random' := by
  have hguard : ¬ (numbers.length ≠ capacities.length ∨ 30 < numbers.length ∨ partySize ≤ 0) := by
    have := h.length_eq
    have := h.length_le
    have := h.party_pos
    omega
  rcases lt_or_ge capacities.sum partySize with hc | hc
  · rw [h.select_none hc]
    unfold selectTableAllocation006
    simp only
    rw [if_neg hguard]
    split
    · rfl
    rw [if_neg (not_not.mpr h.tables), if_pos (by rw [h.capacity_eq]; exact hc)]
  · obtain ⟨n, best, hm⟩ := h.exists_minima hc
    rw [h.select_eq hm]
    unfold selectTableAllocation006
    simp only
    rw [if_neg hguard, if_neg (h.ne_nil hc), if_neg (not_not.mpr h.tables),
      if_neg (by rw [h.capacity_eq]; omega), meetInTheMiddle_eq h.tables h.party_pos hm]
    rfl

theorem shortcuts_exact_fiveTables :
    selectTableAllocation006 [1, 2, 3, 4, 5] [2, 3, 2, 5, 4] 7 (some 3) ⟨fun _ => 0, fun _ h => h⟩ =
      .ok (some ⟨[2, 5], 7, 3, 3⟩) := by
  rw [← shortcuts_exact fiveTables 3 ⟨fun _ => 0, fun _ h => h⟩]
  decide +kernel

/-- The numbers of the tables that the allocator picks for a rank. -/
def tablesOfRank (numbers capacities : List ℤ) (partySize : ℤ) (random : Random) (rank : ℤ) :
    Option (Finset ℤ) :=
  match selectTableAllocation numbers capacities partySize (some rank) random with
  | .ok (some a) => some a.tableNumbers.toFinset
  | _ => none

theorem tablesOfRank_eq (h : ValidInput numbers capacities partySize)
    (hm : Minima (numbers.zip capacities) partySize n best) :
    Set.EqOn (fun rank : ℤ => ((ranking (numbers.zip capacities) n best)[(rank - 1).toNat]?).map
        List.toFinset)
      (tablesOfRank numbers capacities partySize random)
      (Set.Icc 1 (ranking (numbers.zip capacities) n best).length) := by
  rintro rank ⟨h₁, h₂⟩
  have hlt : (rank - 1).toNat < (ranking (numbers.zip capacities) n best).length := by omega
  unfold tablesOfRank
  rw [h.select_eq hm, ofRanking, chosenRank_mem ⟨h₁, h₂⟩]
  simp only [bind, Except.bind, List.getElem?_eq_getElem hlt, Option.getD_some, Option.map_some]
  rfl

/-- Counted from one, the positions of a list without repetition enumerate its members. -/
theorem bijOn_getElem? {α : Type} {l : List α} (hl : l.Nodup) :
    Set.BijOn (fun rank : ℤ => l[(rank - 1).toNat]?) (Set.Icc 1 l.length) (some '' {x | x ∈ l}) := by
  refine ⟨?_, ?_, ?_⟩
  · rintro rank ⟨h₁, h₂⟩
    have hlt : (rank - 1).toNat < l.length := by omega
    exact ⟨l[(rank - 1).toNat], List.getElem_mem hlt, (List.getElem?_eq_getElem hlt).symm⟩
  · rintro rank ⟨h₁, h₂⟩ rank' ⟨h₁', h₂'⟩ he
    have hlt : (rank - 1).toNat < l.length := by omega
    have hindex := (List.getElem?_inj hlt hl).mp he
    omega
  · rintro _ ⟨x, hx, rfl⟩
    obtain ⟨i, hi, rfl⟩ := List.mem_iff_getElem.mp hx
    refine ⟨i + 1, ⟨by omega, by omega⟩, ?_⟩
    simp only [add_sub_cancel_right, Int.toNat_natCast]
    exact List.getElem?_eq_getElem hi

/-- Ascending lists with the same members are equal. -/
theorem toFinset_injOn {l : List (List ℤ)} (hl : ∀ x ∈ l, x.Pairwise (· < ·)) :
    Set.InjOn (Option.map List.toFinset) (some '' {x | x ∈ l}) := by
  rintro _ ⟨x, hx, rfl⟩ _ ⟨y, hy, rfl⟩ he
  have he := Option.some.inj he
  refine congrArg some ((hl x hx).eq_of_mem_iff (hl y hy) fun t => ?_)
  rw [← List.mem_toFinset, he, List.mem_toFinset]

theorem card_draws {β : Type} [DecidableEq β] {f : ℤ → β} {k : ℕ} {target : Set β}
    (hf : Set.BijOn f (Set.Icc 1 (k : ℤ)) target) {y : β} (hy : y ∈ target) :
    ((Finset.range k).filter fun i : ℕ => f (i + 1) = y).card = 1 := by
  obtain ⟨rank, ⟨h₁, h₂⟩, rfl⟩ := hf.surjOn hy
  rw [Finset.card_eq_one]
  refine ⟨(rank - 1).toNat, ?_⟩
  ext i
  simp only [Finset.mem_filter, Finset.mem_range, Finset.mem_singleton]
  constructor
  · rintro ⟨hi, he⟩
    have := hf.injOn ⟨by omega, by omega⟩ ⟨h₁, h₂⟩ he
    omega
  · rintro rfl
    refine ⟨by omega, congrArg f ?_⟩
    omega

/-- The ranks enumerate the optimal parts, each once, and without a rank the draw decides
which. -/
theorem ranks_bijOn (h : ValidInput numbers capacities partySize)
    (hc : partySize ≤ capacities.sum) (random : Random) :
    let tables := numbers.zip capacities
    let tieCount := {s | Optimal tables partySize s}.ncard
    let tableSet (s : List Table) := some (s.map Prod.fst).toFinset
    let select := selectTableAllocation numbers capacities partySize
    (∀ tieRank a, select tieRank random = .ok (some a) → a.tieCount = tieCount) ∧
    Set.BijOn (tablesOfRank numbers capacities partySize random) (Set.Icc 1 tieCount)
      (tableSet '' {s | Optimal tables partySize s}) ∧
    select none random = select (some (random.pick tieCount + 1)) random ∧
    ∀ s, Optimal tables partySize s → ((Finset.range tieCount).filter fun k : ℕ =>
      tablesOfRank numbers capacities partySize random (k + 1) = tableSet s).card = 1 := by
  intro tables tieCount tableSet select
  obtain ⟨n, best, hm⟩ := h.exists_minima hc
  have hcount : tieCount = (ranking tables n best).length := by
    rw [length_ranking h.tables hm]
    exact ncard_optimal h.tables
  have hbij : Set.BijOn (tablesOfRank numbers capacities partySize random) (Set.Icc 1 tieCount)
      (tableSet '' {s | Optimal tables partySize s}) := by
    have hascending : ∀ x ∈ ranking tables n best, x.Pairwise (· < ·) := by
      intro x hx
      obtain ⟨s, hs, rfl⟩ := (mem_ranking h.tables).mp hx
      exact (List.isChain_iff_pairwise.mp h.tables.2).sublist (hs.1.map _)
    have hsets : tableSet '' {s | Optimal tables partySize s} =
        Option.map List.toFinset '' (some '' {x | x ∈ ranking tables n best}) := by
      ext y
      constructor
      · rintro ⟨s, hs, rfl⟩
        exact ⟨_, ⟨_, (mem_ranking h.tables).mpr ⟨s, hm.optimal_iff.mp hs, rfl⟩, rfl⟩, rfl⟩
      · rintro ⟨_, ⟨x, hx, rfl⟩, rfl⟩
        obtain ⟨s, hs, rfl⟩ := (mem_ranking h.tables).mp hx
        exact ⟨s, hm.optimal_iff.mpr hs, rfl⟩
    rw [hcount, hsets]
    refine Set.BijOn.congr ?_ (tablesOfRank_eq h hm)
    exact (toFinset_injOn hascending).bijOn_image.comp (bijOn_getElem? (nodup_ranking h.tables))
  refine ⟨fun tieRank a ha => ?_, hbij, ?_, fun s hs => card_draws hbij ⟨s, hs, rfl⟩⟩
  · obtain ⟨b, hb, hab⟩ := map_eq_ok.mp ((h.select_eq hm tieRank).symm.trans ha)
    obtain rfl := Option.some.inj hab
    exact (ofRanking_best h.tables hm hb).tieCount_eq
  · simp only [select]
    rw [h.select_eq hm, h.select_eq hm, hcount]
    rfl

theorem ranks_bijOn_fiveTables :
    ∃ rank, tablesOfRank [1, 2, 3, 4, 5] [2, 3, 2, 5, 4] 7 ⟨fun _ => 0, fun _ h => h⟩ rank =
      some {2, 5} := by
  obtain ⟨-, hbij, -⟩ := ranks_bijOn fiveTables (by decide) ⟨fun _ => 0, fun _ h => h⟩
  obtain ⟨rank, -, hrank⟩ := hbij.surjOn ⟨[(2, 3), (5, 4)], by decide +kernel, rfl⟩
  exact ⟨rank, hrank⟩

end CafeFausse
