import CafeFausse.Routines.Allocation

/-! # What an allocation is

A table set that `select_table_allocation` returns is a nonempty part of the tables it
was given, with the capacity it reports and enough seats. Without a rank it finds one
whenever all tables together have the seats.
-/

namespace CafeFausse.Allocation

variable {tables half : List Table} {partySize : ℤ} {random : Random}

theorem capacity_append (s t : List Table) : capacity (s ++ t) = capacity s + capacity t := by
  simp [capacity]

/-- The numbers of a part of an ascending list of tables are in order already. -/
theorem Subset.of_tableNumbers {s : List Table} (h : ValidTables tables) (hs : s.Sublist tables) :
    (Subset.of s).tableNumbers = s.map Prod.fst := by
  have hlt : (tables.map Prod.fst).Pairwise (· < ·) := List.isChain_iff_pairwise.mp h.2
  have hle : (s.map Prod.fst).Pairwise (· ≤ ·) :=
    (hlt.sublist (hs.map Prod.fst)).imp fun h => le_of_lt h
  exact hle.insertionSort_eq

theorem mem_subsets {s : Subset} : s ∈ subsets half ↔ ∃ t : List Table, t.Sublist half ∧ .of t = s := by
  simp [subsets, Sql.mem_masked]

theorem mem_groups {right : List Subset} {g : Group} (h : g ∈ groups right) :
    g.subsetCount = (sameGroup right g.tableCount g.capacitySum).length ∧ 0 < g.subsetCount := by
  obtain ⟨k, hk, rfl⟩ := List.mem_map.mp h
  obtain ⟨s, hs, rfl⟩ := List.mem_map.mp (List.mem_dedup.mp hk)
  exact ⟨rfl, List.length_pos_of_mem (List.mem_filter.mpr ⟨hs, by simp⟩)⟩

theorem exists_group {right : List Subset} {s : Subset} (h : s ∈ right) :
    ∃ g ∈ groups right, g.tableCount = s.tableCount ∧ g.capacitySum = s.capacitySum :=
  ⟨_, List.mem_map.mpr ⟨(s.tableCount, s.capacitySum),
    List.mem_dedup.mpr (List.mem_map.mpr ⟨s, h, rfl⟩), rfl⟩, rfl, rfl⟩

theorem mem_candidates {left : List Subset} {right : List Group} {n : ℕ} {c : ℤ}
    {p : Subset × Group} : p ∈ candidates left right n c ↔
      (p.1 ∈ left ∧ p.2 ∈ right) ∧ p.1.tableCount + p.2.tableCount = n ∧
        p.1.capacitySum + p.2.capacitySum = c := by
  obtain ⟨l, g⟩ := p
  simp only [candidates, List.mem_insertionSort, List.mem_filter, List.mem_product,
    decide_eq_true_eq]

/-- The walk stops at a candidate and completes it from the right half. -/
theorem winner_spec {right : List Subset} {ranked : List (Subset × Group)} {rank : ℕ}
    (hg : ∀ p ∈ ranked, p.2 ∈ groups right) (hrank : 0 < rank)
    (hle : rank ≤ (ranked.map (·.2.subsetCount)).sum) :
    ∃ p ∈ ranked, ∃ r ∈ right, r.tableCount = p.2.tableCount ∧ r.capacitySum = p.2.capacitySum ∧
      winner right ranked rank = some (p.1.tableNumbers ++ r.tableNumbers) := by
  induction ranked generalizing rank with
  | nil => simp at hle; omega
  | cons p rest ih =>
    obtain ⟨l, g⟩ := p
    unfold winner
    split
    · next hlt =>
      simp only [List.map_cons, List.sum_cons] at hle
      obtain ⟨p, hp, r, hr, h⟩ := ih (fun p hp => hg p (List.mem_cons_of_mem _ hp))
        (Nat.sub_pos_of_lt hlt) (by omega)
      exact ⟨p, List.mem_cons_of_mem _ hp, r, hr, h⟩
    · next hnlt =>
      have hcount : g.subsetCount = _ := (mem_groups (hg (l, g) (List.mem_cons_self ..))).1
      have hlt : rank - 1 < (rankedSubsets right g).length := by
        rw [rankedSubsets, List.length_insertionSort, ← hcount]
        omega
      obtain ⟨r, hr⟩ : ∃ r, (rankedSubsets right g)[rank - 1]? = some r :=
        ⟨_, List.getElem?_eq_getElem hlt⟩
      have hmem := List.mem_filter.mp ((List.mem_insertionSort _).mp (List.mem_of_getElem? hr))
      have hkey := of_decide_eq_true hmem.2
      exact ⟨(l, g), List.mem_cons_self .., r, hmem.1, hkey.1, hkey.2, by simp [hr]⟩

theorem chosenRank_ok {tieRank : Option ℤ} {n : ℕ} {rank : ℤ}
    (h : chosenRank tieRank n random = .ok rank) : 1 ≤ rank ∧ rank ≤ n := by
  unfold chosenRank at h
  simp only at h
  split at h
  · cases h
  · next hn => cases h; omega

theorem chosenRank_none (random : Random) {n : ℕ} (h : 0 < n) :
    chosenRank none n random = .ok (random.pick n + 1) := by
  have := random.pick_lt n h
  unfold chosenRank
  simp only [Option.getD_none]
  rw [if_neg (by omega)]

/-- A part of the tables with enough seats, as the allocator reports it. -/
def Sufficient (tables : List Table) (partySize : ℤ) (a : Allocation) : Prop :=
  ∃ s : List Table, s.Sublist tables ∧ a.tableNumbers = s.map Prod.fst ∧
    a.totalCapacity = capacity s ∧ partySize ≤ capacity s

/-- The positions of the tables with the best capacity, as many as there are ties. -/
theorem length_filter_zipIdx (best : ℤ) :
    (tables.zipIdx.filter fun t => t.1.2 = best).length =
      (tables.filter fun t => t.2 = best).length := by
  have h : (tables.zipIdx.filter fun t => t.1.2 = best).map Prod.fst =
      tables.filter fun t => t.2 = best := by
    conv_rhs => rw [← List.zipIdx_map_fst 0 tables]
    rw [List.filter_map]
    rfl
  rw [← h, List.length_map]

theorem singleTable_sufficient {best : ℤ} {tieRank : Option ℤ} {a : Allocation}
    (hp : partySize ≤ best) (h : singleTable tables best tieRank random = .ok a) :
    Sufficient tables partySize a := by
  simp only [singleTable, bind_eq_ok] at h
  obtain ⟨rank, hr, h⟩ := h
  cases h
  obtain ⟨h₁, h₂⟩ := chosenRank_ok hr
  rw [← length_filter_zipIdx] at h₂
  have hlt : (rank - 1).toNat < (singletons tables best).length := by
    rw [singletons, List.length_insertionSort]
    omega
  obtain ⟨e, he⟩ : ∃ e, (singletons tables best)[(rank - 1).toNat]? = some e :=
    ⟨_, List.getElem?_eq_getElem hlt⟩
  have hmem := List.mem_filter.mp ((List.mem_insertionSort _).mp (List.mem_of_getElem? he))
  have hbest : e.1.2 = best := of_decide_eq_true hmem.2
  refine ⟨[e.1], List.singleton_sublist.mpr (List.fst_mem_of_mem_zipIdx hmem.1), ?_, ?_, ?_⟩
  · rw [he]
    rfl
  · simp [capacity, hbest]
  · simpa [capacity, hbest] using hp

theorem reachable_iff {left right : List Subset} {n : ℕ} :
    reachable left (groups right) partySize n = true ↔
      ∃ l ∈ left, ∃ r ∈ right, l.tableCount + r.tableCount = n ∧
        partySize ≤ l.capacitySum + r.capacitySum := by
  simp only [reachable, List.any_eq_true, Bool.and_eq_true, decide_eq_true_eq]
  constructor
  · rintro ⟨l, hl, -, g, hg, hn, hp⟩
    obtain ⟨k, hk, rfl⟩ := List.mem_map.mp hg
    obtain ⟨r, hr, rfl⟩ := List.mem_map.mp (List.mem_dedup.mp hk)
    exact ⟨l, hl, r, hr, hn, by simp only at hp; omega⟩
  · rintro ⟨l, hl, r, hr, rfl, hp⟩
    obtain ⟨g, hg, hn, hc⟩ := exists_group hr
    exact ⟨l, hl, by omega, g, hg, by omega, by omega⟩

/-- The least capacity is that of some left subset and some group. -/
theorem bestCapacity_mem {left : List Subset} {right : List Group} {n : ℕ} {best : ℤ}
    (h : bestCapacity left right partySize n = some best) :
    partySize ≤ best ∧ ∃ l ∈ left, ∃ g ∈ right, l.tableCount + g.tableCount = n ∧
      l.capacitySum + g.capacitySum = best := by
  obtain ⟨l, hl, hb⟩ := List.mem_filterMap.mp (List.min?_mem h)
  obtain ⟨c, hc, rfl⟩ := Option.map_eq_some_iff.mp hb
  obtain ⟨g, hg, rfl⟩ := List.mem_map.mp (List.min?_mem hc)
  obtain ⟨hg, hk⟩ := List.mem_filter.mp hg
  obtain ⟨hn, hp⟩ := of_decide_eq_true hk
  exact ⟨by omega, l, hl, g, hg, hn, rfl⟩

theorem exists_bestCapacity {left : List Subset} {right : List Group} {n : ℕ} {l : Subset}
    {g : Group} (hl : l ∈ left) (hg : g ∈ right) (hn : l.tableCount + g.tableCount = n)
    (hp : partySize ≤ l.capacitySum + g.capacitySum) :
    ∃ best, bestCapacity left right partySize n = some best := by
  cases h : bestCapacity left right partySize n with
  | some best => exact ⟨best, rfl⟩
  | none =>
    have hnone := List.filterMap_eq_nil_iff.mp (List.min?_eq_none_iff.mp h) l hl
    have hnil := List.map_eq_nil_iff.mp (List.min?_eq_none_iff.mp (Option.map_eq_none_iff.mp hnone))
    exact absurd (decide_eq_true (by exact ⟨hn, by omega⟩)) (List.filter_eq_nil_iff.mp hnil g hg)

theorem meetInTheMiddle_sufficient {tieRank : Option ℤ} {a : Allocation}
    (hv : ValidTables tables) (h : meetInTheMiddle tables partySize tieRank random = .ok a) :
    Sufficient tables partySize a := by
  unfold meetInTheMiddle search at h
  simp only at h
  split at h
  case h_2 => cases h
  next n hn =>
  split at h
  case h_2 => cases h
  next best hbest =>
  split at h
  · cases h
  replace ⟨rank, hrank, h⟩ := bind_eq_ok.mp h
  split at h
  case h_2 => cases h
  next numbers hnumbers =>
  split at h
  · cases h
  cases h
  obtain ⟨h₁, h₂⟩ := chosenRank_ok hrank
  obtain ⟨p, hp, r, hr, hn', hc', hw⟩ := winner_spec
    (fun p hp => (mem_candidates.mp hp).1.2) (by omega) (Int.toNat_le.mpr h₂)
  obtain rfl := Option.some.inj (hnumbers.symm.trans hw)
  obtain ⟨⟨hl, hg⟩, -, hcap⟩ := mem_candidates.mp hp
  obtain ⟨s, hs, hs'⟩ := mem_subsets.mp hl
  obtain ⟨t, ht, rfl⟩ := mem_subsets.mp hr
  have hst : (s ++ t).Sublist tables := by
    rw [← List.take_append_drop (tables.length / 2) tables]
    exact hs.append ht
  refine ⟨s ++ t, hst, ?_, ?_, ?_⟩
  · rw [← hs', Subset.of_tableNumbers hv (hs.trans (List.take_sublist _ _)),
      Subset.of_tableNumbers hv (ht.trans (List.drop_sublist _ _)), List.map_append]
  · rw [capacity_append, ← hcap, ← hc', ← hs']
    rfl
  · rw [capacity_append]
    have := (bestCapacity_mem hbest).1
    rw [← hcap, ← hc', ← hs'] at this
    exact this

/-- Without a rank the search ends with an allocation. -/
theorem exists_meetInTheMiddle (random : Random) (hv : ValidTables tables) (hp : 0 < partySize)
    (hc : partySize ≤ capacity tables) :
    ∃ a, meetInTheMiddle tables partySize none random = .ok a := by
  let L := tables.take (tables.length / 2)
  let T := tables.drop (tables.length / 2)
  have hl : Subset.of L ∈ subsets L := mem_subsets.mpr ⟨L, List.Sublist.refl _, rfl⟩
  have ht : Subset.of T ∈ subsets T := mem_subsets.mpr ⟨T, List.Sublist.refl _, rfl⟩
  have happ : L ++ T = tables := List.take_append_drop _ _
  have hlen : L.length + T.length = tables.length := by rw [← List.length_append, happ]
  have hne : 0 < tables.length := by
    rcases tables with - | ⟨t, ts⟩
    · exact absurd hc (by simpa [capacity] using hp)
    · simp
  have hreach : reachable (subsets L) (groups (subsets T)) partySize tables.length = true :=
    reachable_iff.mpr ⟨_, hl, _, ht, hlen, by
      show partySize ≤ capacity L + capacity T
      rwa [← capacity_append, happ]⟩
  obtain ⟨n, hn⟩ : ∃ n, ((List.range tables.length).map (· + 1)).find?
      (reachable (subsets L) (groups (subsets T)) partySize) = some n := by
    refine Option.isSome_iff_exists.mp (List.find?_isSome.mpr ⟨tables.length, ?_, hreach⟩)
    exact List.mem_map.mpr ⟨tables.length - 1, List.mem_range.mpr (by omega), by omega⟩
  obtain ⟨l, hl, r, hr, hlr, hcap⟩ := reachable_iff.mp (List.find?_some hn)
  obtain ⟨g, hg, hgn, hgc⟩ := exists_group hr
  obtain ⟨best, hbest⟩ := exists_bestCapacity (n := n) hl hg (by omega)
    (by rwa [hgc] : partySize ≤ l.capacitySum + g.capacitySum)
  obtain ⟨-, l, hl, g, hg, hln, hlc⟩ := bestCapacity_mem hbest
  have hmem : (l, g) ∈ candidates (subsets L) (groups (subsets T)) n best :=
    mem_candidates.mpr ⟨⟨hl, hg⟩, hln, hlc⟩
  have hpos : 0 < ((candidates (subsets L) (groups (subsets T)) n best).map
      (·.2.subsetCount)).sum :=
    lt_of_lt_of_le (mem_groups hg).2
      (List.single_le_sum (by simp) _ (List.mem_map_of_mem (f := (·.2.subsetCount)) hmem))
  have hrank := chosenRank_none random hpos
  have hlt := random.pick_lt _ hpos
  obtain ⟨p, hp', r, hr, hrn, -, hw⟩ := winner_spec
    (fun p hp => (mem_candidates.mp hp).1.2) (Nat.succ_pos _) (Nat.succ_le_of_lt hlt)
  obtain ⟨⟨hpl, -⟩, hpn, -⟩ := mem_candidates.mp hp'
  obtain ⟨s, hs, hs'⟩ := mem_subsets.mp hpl
  obtain ⟨t, ht, ht'⟩ := mem_subsets.mp hr
  have hlength : ¬ (p.1.tableNumbers ++ r.tableNumbers).length ≠ n := by
    rw [List.length_append, ← hpn, ← hrn, ← hs', ← ht']
    simp [Subset.of, Sql.orderBy]
  suffices h : ∃ a, search (subsets L) (subsets T) tables.length partySize none random = .ok a from h
  unfold search
  simp only [hn, hbest, if_neg hpos.ne']
  have htoNat : ∀ k : ℕ, ((k : ℤ) + 1).toNat = k.succ := fun k => by omega
  simp only [hrank, bind, Except.bind, htoNat, hw, if_neg hlength]
  exact ⟨_, rfl⟩

/-- The errors that the allocator raises itself. -/
def Raised : SqlError → Prop
  | .invalidAllocationInput | .allocationTablesNotAscending | .allocationRankOutOfRange
  | .allocationInvariantFailed | .allocationReconstructionFailed => True
  | _ => False

theorem raised_of_chosenRank {tieRank : Option ℤ} {n : ℕ} {e : SqlError}
    (h : chosenRank tieRank n random = .error e) : Raised e := by
  unfold chosenRank at h
  simp only at h
  split at h <;> cases h
  trivial

theorem raised_of_search {left right : List Subset} {n : ℕ} {tieRank : Option ℤ} {e : SqlError}
    (h : search left right n partySize tieRank random = .error e) : Raised e := by
  unfold search at h
  simp only at h
  split at h
  case h_2 => cases h; trivial
  split at h
  case h_2 => cases h; trivial
  split at h
  · cases h; trivial
  rcases bind_eq_error.mp h with h | ⟨rank, -, h⟩
  · exact raised_of_chosenRank h
  split at h
  case h_2 => cases h; trivial
  split at h <;> cases h
  trivial

end CafeFausse.Allocation

namespace CafeFausse

open Allocation

variable {numbers capacities : List ℤ} {partySize : ℤ} {random : Random}

/-- The tables an allocation picks are a nonempty part of the tables given, with the
capacity it reports. -/
theorem selectTableAllocation_some {tieRank : Option ℤ} {a : Allocation}
    (h : selectTableAllocation numbers capacities partySize tieRank random = .ok (some a)) :
    0 < partySize ∧ Sufficient (numbers.zip capacities) partySize a := by
  unfold selectTableAllocation at h
  simp only at h
  split at h
  · cases h
  next hin =>
  split at h
  · cases h
  split at h
  · cases h
  next hv =>
  refine ⟨by omega, ?_⟩
  replace ⟨c, hc, h⟩ := bind_eq_ok.mp h
  obtain rfl := integer_eq_ok hc
  split at h
  · cases h
  split at h
  · next best hbest =>
    obtain ⟨b, hb, hab⟩ := map_eq_ok.mp h
    cases hab
    have hle := List.mem_filter.mp (List.min?_mem hbest)
    exact singleTable_sufficient (by simpa using hle.2) hb
  split at h
  · split at h
    · cases h
    cases h
    refine ⟨_, List.Sublist.refl _, ?_, rfl, by omega⟩
    show numbers = _
    exact (List.map_fst_zip (by omega)).symm
  · obtain ⟨b, hb, hab⟩ := map_eq_ok.mp h
    cases hab
    exact meetInTheMiddle_sufficient (not_not.mp hv) hb

/-- Without a rank there is an allocation as soon as there are enough seats. -/
theorem exists_selectTableAllocation (random : Random) (hlen : numbers.length = capacities.length)
    (hmax : numbers.length ≤ 30) (hp : 0 < partySize)
    (hv : ValidTables (numbers.zip capacities))
    (hint : integer (capacity (numbers.zip capacities)) = .ok (capacity (numbers.zip capacities)))
    (hc : partySize ≤ capacity (numbers.zip capacities)) :
    ∃ a, selectTableAllocation numbers capacities partySize none random = .ok (some a) := by
  have hne : numbers.zip capacities ≠ [] := by
    intro h
    simp only [h, capacity, List.map_nil, List.sum_nil] at hc
    omega
  unfold selectTableAllocation
  simp only
  rw [if_neg (by omega), if_neg hne, if_neg (not_not.mpr hv)]
  simp only [hint, bind, Except.bind]
  rw [if_neg (by omega)]
  split
  · next best hbest =>
    have hmem := (List.mem_filter.mp (List.min?_mem hbest)).1
    obtain ⟨t, ht, rfl⟩ := List.mem_map.mp hmem
    have hpos : 0 < ((numbers.zip capacities).filter fun s => s.2 = t.2).length :=
      List.length_pos_of_mem (List.mem_filter.mpr ⟨ht, by simp⟩)
    refine ⟨_, map_eq_ok.mpr ⟨_, bind_eq_ok.mpr ⟨_, chosenRank_none random hpos, rfl⟩, rfl⟩⟩
  · split
    · exact ⟨_, rfl⟩
    · obtain ⟨a, ha⟩ := exists_meetInTheMiddle random hv hp hc
      exact ⟨a, map_eq_ok.mpr ⟨a, ha, rfl⟩⟩

/-- The allocator fails with an error of its own, or on the sum of the capacities. -/
theorem selectTableAllocation_error {tieRank : Option ℤ} {e : SqlError}
    (h : selectTableAllocation numbers capacities partySize tieRank random = .error e) :
    Raised e ∨ integer (capacity (numbers.zip capacities)) = .error e := by
  have map_error : ∀ {x : Except SqlError Allocation}, some <$> x = .error e → x = .error e := by
    intro x hx
    cases x with
    | ok a => cases hx
    | error e => cases hx; rfl
  unfold selectTableAllocation at h
  simp only at h
  split at h
  · cases h; exact .inl trivial
  split at h
  · cases h
  split at h
  · cases h; exact .inl trivial
  rcases bind_eq_error.mp h with h | ⟨c, -, h⟩
  · exact .inr h
  left
  split at h
  · cases h
  split at h
  · rcases bind_eq_error.mp (map_error h) with h | ⟨rank, -, h⟩
    · exact raised_of_chosenRank h
    · cases h
  split at h
  · split at h <;> cases h
    trivial
  · exact raised_of_search (map_error h)

/-- No error of the allocator is the one the booking block catches. -/
theorem plain_of_selectTableAllocation {tieRank : Option ℤ} {e : SqlError}
    (h : selectTableAllocation numbers capacities partySize tieRank random = .error e) :
    Plain e := by
  rcases selectTableAllocation_error h with h | h
  · rintro o d f rfl
    exact h.elim
  · exact plain_of_integer h

end CafeFausse
