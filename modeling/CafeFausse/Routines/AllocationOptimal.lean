import CafeFausse.Routines.AllocationSound

/-! # Optimal allocations

The parts of the tables that seat a party with the fewest tables and then with the least
capacity, and the order in which their ranks enumerate them: by the tables of the left
half, then by those of the right half.
-/

namespace CafeFausse.Allocation

variable {tables half L R : List Table} {partySize best : ℤ} {random : Random} {n : ℕ}

/-- A part of the tables that seats the party. -/
structure Seats (tables : List Table) (partySize : ℤ) (s : List Table) : Prop where
  sublist : s.Sublist tables
  enough : partySize ≤ capacity s

/-- No part that seats the party has fewer tables, or as many with less capacity. -/
structure Optimal (tables : List Table) (partySize : ℤ) (s : List Table) : Prop
    extends Seats tables partySize s where
  fewest : ∀ t, Seats tables partySize t → s.length ≤ t.length
  tightest : ∀ t, Seats tables partySize t → t.length = s.length → capacity s ≤ capacity t

instance decidableSeats (tables : List Table) (partySize : ℤ) (s : List Table) :
    Decidable (Seats tables partySize s) :=
  decidable_of_iff (s.Sublist tables ∧ partySize ≤ capacity s)
    ⟨fun ⟨h, h'⟩ => ⟨h, h'⟩, fun h => ⟨h.sublist, h.enough⟩⟩

instance decidableOptimal (tables : List Table) (partySize : ℤ) (s : List Table) :
    Decidable (Optimal tables partySize s) :=
  decidable_of_iff (Seats tables partySize s ∧ ∀ t ∈ tables.sublists, Seats tables partySize t →
      s.length ≤ t.length ∧ (t.length = s.length → capacity s ≤ capacity t))
    ⟨fun ⟨h, h'⟩ => ⟨h, fun t ht => (h' t (List.mem_sublists.mpr ht.sublist) ht).1,
        fun t ht => (h' t (List.mem_sublists.mpr ht.sublist) ht).2⟩,
      fun h => ⟨h.toSeats, fun t _ ht => ⟨h.fewest t ht, h.tightest t ht⟩⟩⟩

/-- The optimal parts. -/
def optimalSets (tables : List Table) (partySize : ℤ) : List (List Table) :=
  tables.sublists.filter fun s => Optimal tables partySize s

/-- The least number of tables that seat the party, and the least capacity with it. -/
structure Minima (tables : List Table) (partySize : ℤ) (n : ℕ) (best : ℤ) : Prop where
  attained : ∃ s, Seats tables partySize s ∧ s.length = n ∧ capacity s = best
  fewest : ∀ t, Seats tables partySize t → n ≤ t.length
  tightest : ∀ t, Seats tables partySize t → t.length = n → best ≤ capacity t

theorem mem_optimalSets {s : List Table} : s ∈ optimalSets tables partySize ↔
    Optimal tables partySize s := by
  simp only [optimalSets, List.mem_filter, List.mem_sublists, decide_eq_true_eq]
  exact ⟨fun h => h.2, fun h => ⟨h.sublist, h⟩⟩

theorem Minima.optimal_iff (h : Minima tables partySize n best) {s : List Table} :
    Optimal tables partySize s ↔ s.Sublist tables ∧ s.length = n ∧ capacity s = best := by
  obtain ⟨t, ht, hn, hbest⟩ := h.attained
  constructor
  · intro hs
    have hlen : s.length = n := le_antisymm (hn ▸ hs.fewest t ht) (h.fewest s hs.toSeats)
    refine ⟨hs.sublist, hlen, le_antisymm ?_ (h.tightest s hs.toSeats hlen)⟩
    exact hbest ▸ hs.tightest t ht (hn.trans hlen.symm)
  · rintro ⟨hs, hlen, hcap⟩
    refine ⟨⟨hs, ?_⟩, fun u hu => hlen ▸ h.fewest u hu, fun u hu hul => ?_⟩
    · rw [hcap, ← hbest]
      exact ht.enough
    · rw [hcap]
      exact h.tightest u hu (hul.trans hlen)

theorem ValidTables.nodup_fst (h : ValidTables tables) : (tables.map Prod.fst).Nodup :=
  (List.isChain_iff_pairwise.mp h.2).imp fun h => ne_of_lt h

theorem ValidTables.nodup (h : ValidTables tables) : tables.Nodup := .of_map _ h.nodup_fst

theorem ValidTables.sublist (h : ValidTables tables) (hs : half.Sublist tables) :
    ValidTables half :=
  ⟨fun t ht => h.1 t (hs.mem ht),
    List.isChain_iff_pairwise.mpr ((List.isChain_iff_pairwise.mp h.2).sublist (hs.map _))⟩

/-- The numbers tell the subsets of a half apart. -/
theorem subset_injOn (h : ValidTables half) {s t : List Table} (hs : s.Sublist half)
    (ht : t.Sublist half) (he : (Subset.of s).tableNumbers = (Subset.of t).tableNumbers) :
    s = t := by
  rw [Subset.of_tableNumbers h hs, Subset.of_tableNumbers h ht] at he
  exact Sql.eq_of_map_eq h.nodup_fst hs ht he

theorem eq_of_tableNumbers (h : ValidTables half) {s t : Subset} (hs : s ∈ subsets half)
    (ht : t ∈ subsets half) (he : s.tableNumbers = t.tableNumbers) : s = t := by
  obtain ⟨a, ha, rfl⟩ := mem_subsets.mp hs
  obtain ⟨b, hb, rfl⟩ := mem_subsets.mp ht
  rw [subset_injOn h ha hb he]

theorem nodup_subsets (h : ValidTables half) : (subsets half).Nodup :=
  (Sql.nodup_masked h.nodup).map_on fun _ hs _ ht he =>
    subset_injOn h (Sql.mem_masked.mp hs) (Sql.mem_masked.mp ht) (congrArg Subset.tableNumbers he)

/-- Size and capacity determine a group. -/
theorem eq_of_groups {right : List Subset} {g g' : Group} (h : g ∈ groups right)
    (h' : g' ∈ groups right) (hn : g.tableCount = g'.tableCount)
    (hc : g.capacitySum = g'.capacitySum) : g = g' := by
  obtain ⟨k, -, rfl⟩ := List.mem_map.mp h
  obtain ⟨k', -, rfl⟩ := List.mem_map.mp h'
  obtain rfl : k = k' := Prod.ext hn hc
  rfl

theorem nodup_groups (right : List Subset) : (groups right).Nodup :=
  (List.nodup_dedup _).map_on fun _ _ _ _ he =>
    Prod.ext (congrArg Group.tableCount he) (congrArg Group.capacitySum he)

/-- The pairs of left and right numbers behind the ranks, in rank order. -/
def enumerate (left right : List Subset) (n : ℕ) (best : ℤ) : List (List ℤ × List ℤ) :=
  (candidates left (groups right) n best).flatMap fun p =>
    (rankedSubsets right p.2).map fun r => (p.1.tableNumbers, r.tableNumbers)

theorem mem_rankedSubsets {right : List Subset} {g : Group} {r : Subset} :
    r ∈ rankedSubsets right g ↔
      r ∈ right ∧ r.tableCount = g.tableCount ∧ r.capacitySum = g.capacitySum := by
  simp only [rankedSubsets, List.mem_insertionSort, sameGroup, List.mem_filter, decide_eq_true_eq]

theorem mem_enumerate {x : List ℤ × List ℤ} :
    x ∈ enumerate (subsets L) (subsets R) n best ↔
      ∃ s t : List Table, s.Sublist L ∧ t.Sublist R ∧ s.length + t.length = n ∧
        capacity s + capacity t = best ∧
        x = ((Subset.of s).tableNumbers, (Subset.of t).tableNumbers) := by
  simp only [enumerate, List.mem_flatMap, List.mem_map, mem_rankedSubsets, mem_candidates]
  constructor
  · rintro ⟨⟨l, g⟩, ⟨⟨hl, hg⟩, hn, hc⟩, r, ⟨hr, hrn, hrc⟩, rfl⟩
    obtain ⟨s, hs, rfl⟩ := mem_subsets.mp hl
    obtain ⟨t, ht, rfl⟩ := mem_subsets.mp hr
    refine ⟨s, t, hs, ht, ?_, ?_, rfl⟩
    · rw [← hn, ← hrn]
      rfl
    · rw [← hc, ← hrc]
      rfl
  · rintro ⟨s, t, hs, ht, hn, hc, rfl⟩
    have hr : Subset.of t ∈ subsets R := mem_subsets.mpr ⟨t, ht, rfl⟩
    obtain ⟨g, hg, hgn, hgc⟩ := exists_group hr
    exact ⟨(Subset.of s, g), ⟨⟨mem_subsets.mpr ⟨s, hs, rfl⟩, hg⟩, hgn ▸ hn, hgc ▸ hc⟩, .of t,
      ⟨hr, hgn.symm, hgc.symm⟩, rfl⟩

theorem rankedSubsets_pairwise (hR : ValidTables R) (g : Group) :
    (rankedSubsets (subsets R) g).Pairwise fun s t => s.tableNumbers < t.tableNumbers := by
  have htotal : Std.Total fun s t : Subset => s.tableNumbers ≤ t.tableNumbers :=
    ⟨fun s t => le_total s.tableNumbers t.tableNumbers⟩
  have htrans : IsTrans Subset fun s t => s.tableNumbers ≤ t.tableNumbers :=
    ⟨fun _ _ _ => le_trans⟩
  have hnodup : (rankedSubsets (subsets R) g).Nodup :=
    (List.perm_insertionSort _ _).nodup_iff.mpr ((nodup_subsets hR).filter _)
  refine List.Pairwise.imp_of_mem ?_ ((List.pairwise_insertionSort _ _).and
    (List.nodup_iff_pairwise_ne.mp hnodup))
  rintro s t hs ht ⟨hle, hne⟩
  refine lt_of_le_of_ne hle fun he => hne ?_
  exact eq_of_tableNumbers hR (mem_rankedSubsets.mp hs).1 (mem_rankedSubsets.mp ht).1 he

/-- No two candidates share their left numbers: the group is what completes them. -/
theorem candidates_pairwise (hL : ValidTables L) :
    (candidates (subsets L) (groups (subsets R)) n best).Pairwise
      fun p q => p.1.tableNumbers < q.1.tableNumbers := by
  have htotal : Std.Total fun p q : Subset × Group => p.1.tableNumbers < q.1.tableNumbers ∨
      p.1.tableNumbers = q.1.tableNumbers ∧ p.2.capacitySum ≤ q.2.capacitySum :=
    ⟨fun p q => by
      rcases lt_trichotomy p.1.tableNumbers q.1.tableNumbers with h | h | h
      · exact .inl (.inl h)
      · exact (le_total p.2.capacitySum q.2.capacitySum).imp (fun hc => .inr ⟨h, hc⟩)
          fun hc => .inr ⟨h.symm, hc⟩
      · exact .inr (.inl h)⟩
  have htrans : IsTrans (Subset × Group) fun p q => p.1.tableNumbers < q.1.tableNumbers ∨
      p.1.tableNumbers = q.1.tableNumbers ∧ p.2.capacitySum ≤ q.2.capacitySum :=
    ⟨fun p q r hpq hqr => by
      rcases hpq with h | ⟨h, hc⟩
      · rcases hqr with h' | ⟨h', -⟩
        · exact .inl (h.trans h')
        · exact .inl (h' ▸ h)
      · rcases hqr with h' | ⟨h', hc'⟩
        · exact .inl (h ▸ h')
        · exact .inr ⟨h.trans h', hc.trans hc'⟩⟩
  have hnodup : (candidates (subsets L) (groups (subsets R)) n best).Nodup :=
    (List.perm_insertionSort _ _).nodup_iff.mpr
      (((nodup_subsets hL).product (nodup_groups _)).filter _)
  refine List.Pairwise.imp_of_mem ?_ ((List.pairwise_insertionSort _ _).and
    (List.nodup_iff_pairwise_ne.mp hnodup))
  rintro ⟨l, g⟩ ⟨l', g'⟩ hp hq ⟨hle, hne⟩
  rcases hle with hlt | ⟨heq, -⟩
  · exact hlt
  obtain ⟨⟨hl, hg⟩, hn, hc⟩ := mem_candidates.mp hp
  obtain ⟨⟨hl', hg'⟩, hn', hc'⟩ := mem_candidates.mp hq
  simp only at heq hn hc hn' hc' hl hl' hg hg'
  obtain rfl := eq_of_tableNumbers hL hl hl' heq
  exact absurd (congrArg (Prod.mk l) (eq_of_groups hg hg' (by omega) (by omega))) hne

theorem enumerate_pairwise (hL : ValidTables L) (hR : ValidTables R) :
    (enumerate (subsets L) (subsets R) n best).Pairwise (Prod.Lex (· < ·) (· < ·)) := by
  rw [enumerate, List.pairwise_flatMap]
  constructor
  · intro p _
    rw [List.pairwise_map]
    refine (rankedSubsets_pairwise hR p.2).imp fun {r r'} h => ?_
    exact Prod.Lex.right _ h
  · refine (candidates_pairwise hL).imp fun {p q} hlt x hx y hy => ?_
    obtain ⟨r, -, rfl⟩ := List.mem_map.mp hx
    obtain ⟨r', -, rfl⟩ := List.mem_map.mp hy
    exact Prod.Lex.left _ _ hlt

/-- The numbers of the left half, where the ranks split the tables. -/
abbrev left (tables : List Table) : List Table := tables.take (tables.length / 2)

/-- The numbers of the right half. -/
abbrev right (tables : List Table) : List Table := tables.drop (tables.length / 2)

theorem ValidTables.left (h : ValidTables tables) : ValidTables (left tables) :=
  h.sublist (List.take_sublist _ _)

theorem ValidTables.right (h : ValidTables tables) : ValidTables (right tables) :=
  h.sublist (List.drop_sublist _ _)

/-- The numbers of the optimal parts in the order of their ranks. -/
def ranking (tables : List Table) (n : ℕ) (best : ℤ) : List (List ℤ) :=
  (enumerate (subsets (left tables)) (subsets (right tables)) n best).map fun x => x.1 ++ x.2

theorem sublist_halves {s : List Table} : s.Sublist tables ↔
    ∃ a b, s = a ++ b ∧ a.Sublist (left tables) ∧ b.Sublist (right tables) := by
  conv_lhs => rw [← List.take_append_drop (tables.length / 2) tables]
  exact List.sublist_append_iff

theorem mem_ranking (hv : ValidTables tables) {x : List ℤ} : x ∈ ranking tables n best ↔
    ∃ s : List Table, (s.Sublist tables ∧ s.length = n ∧ capacity s = best) ∧
      x = s.map Prod.fst := by
  simp only [ranking, List.mem_map, mem_enumerate]
  constructor
  · rintro ⟨_, ⟨s, t, hs, ht, hn, hc, rfl⟩, rfl⟩
    refine ⟨s ++ t, ⟨sublist_halves.mpr ⟨s, t, rfl, hs, ht⟩, ?_, ?_⟩, ?_⟩
    · rw [List.length_append, hn]
    · rw [capacity_append, hc]
    · rw [Subset.of_tableNumbers hv.left hs, Subset.of_tableNumbers hv.right ht, List.map_append]
  · rintro ⟨_, ⟨hst, hn, hc⟩, rfl⟩
    obtain ⟨s, t, rfl, hs, ht⟩ := sublist_halves.mp hst
    rw [List.length_append] at hn
    rw [capacity_append] at hc
    refine ⟨_, ⟨s, t, hs, ht, hn, hc, rfl⟩, ?_⟩
    rw [Subset.of_tableNumbers hv.left hs, Subset.of_tableNumbers hv.right ht, List.map_append]

/-- The left part of a set of numbers tells where it was split. -/
theorem filter_left (hv : ValidTables tables) {s t : List Table} (hs : s.Sublist (left tables))
    (ht : t.Sublist (right tables)) :
    (s.map Prod.fst ++ t.map Prod.fst).filter (· ∈ (left tables).map Prod.fst) =
      s.map Prod.fst := by
  have hsplit := hv.nodup_fst
  rw [← List.take_append_drop (tables.length / 2) tables, List.map_append,
    List.nodup_append] at hsplit
  rw [List.filter_append, List.filter_eq_self.mpr, List.filter_eq_nil_iff.mpr, List.append_nil]
  · intro x hx
    have hr := (ht.map Prod.fst).mem hx
    simp only [decide_eq_true_eq]
    exact fun hl => hsplit.2.2 x hl x hr rfl
  · intro x hx
    simpa only [decide_eq_true_eq] using (hs.map Prod.fst).mem hx

theorem nodup_ranking (hv : ValidTables tables) : (ranking tables n best).Nodup := by
  have hpairs : (enumerate (subsets (left tables)) (subsets (right tables)) n best).Nodup :=
    (enumerate_pairwise hv.left hv.right).imp fun {x y} h he => by
      subst he
      rcases Prod.lex_def.mp h with h | ⟨-, h⟩ <;> exact lt_irrefl _ h
  refine hpairs.map_on fun x hx y hy he => ?_
  obtain ⟨s, t, hs, ht, -, -, rfl⟩ := mem_enumerate.mp hx
  obtain ⟨s', t', hs', ht', -, -, rfl⟩ := mem_enumerate.mp hy
  simp only [Subset.of_tableNumbers hv.left hs, Subset.of_tableNumbers hv.right ht,
    Subset.of_tableNumbers hv.left hs', Subset.of_tableNumbers hv.right ht'] at he ⊢
  have hleft := congrArg (List.filter (· ∈ (left tables).map Prod.fst)) he
  rw [filter_left hv hs ht, filter_left hv hs' ht'] at hleft
  rw [hleft] at he ⊢
  rw [List.append_cancel_left he]

/-- The ranks enumerate the optimal parts, each once. -/
theorem ranking_perm (hv : ValidTables tables) (h : Minima tables partySize n best) :
    (ranking tables n best).Perm ((optimalSets tables partySize).map (List.map Prod.fst)) := by
  refine (List.perm_ext_iff_of_nodup (nodup_ranking hv) ?_).mpr fun x => ?_
  · refine ((List.nodup_sublists.mpr hv.nodup).filter _).map_on fun s hs t ht he => ?_
    exact Sql.eq_of_map_eq hv.nodup_fst (mem_optimalSets.mp hs).sublist
      (mem_optimalSets.mp ht).sublist he
  · rw [mem_ranking hv, List.mem_map]
    refine exists_congr fun s => ?_
    rw [mem_optimalSets, h.optimal_iff]
    exact and_congr_right fun _ => eq_comm

theorem length_ranking (hv : ValidTables tables) (h : Minima tables partySize n best) :
    (ranking tables n best).length = (optimalSets tables partySize).length := by
  rw [(ranking_perm hv h).length_eq, List.length_map]

/-- The allocation of a rank, by the enumeration of the optimal parts. -/
def ofRanking (ranks : List (List ℤ)) (best : ℤ) (tieRank : Option ℤ) (random : Random) :
    Except SqlError Allocation := do
  let rank ← chosenRank tieRank ranks.length random
  return ⟨(ranks[(rank - 1).toNat]?).getD [], best, ranks.length, rank⟩

section Search

theorem winner_eq {right : List Subset} {ranked : List (Subset × Group)} {rank : ℕ}
    (hg : ∀ p ∈ ranked, p.2 ∈ groups right) (hrank : 0 < rank) :
    winner right ranked rank = (ranked.flatMap fun p =>
      (rankedSubsets right p.2).map fun r => p.1.tableNumbers ++ r.tableNumbers)[rank - 1]? := by
  induction ranked generalizing rank with
  | nil => simp [winner]
  | cons p rest ih =>
    obtain ⟨l, g⟩ := p
    have hcount : (rankedSubsets right g).length = g.subsetCount := by
      rw [rankedSubsets, List.length_insertionSort,
        (mem_groups (hg (l, g) (List.mem_cons_self ..))).1]
    unfold winner
    rw [List.flatMap_cons]
    split
    · next hlt =>
      rw [ih (fun p hp => hg p (List.mem_cons_of_mem _ hp)) (Nat.sub_pos_of_lt hlt),
        List.getElem?_append_right (by rw [List.length_map]; simp only [hcount]; omega),
        List.length_map]
      simp only [hcount]
      congr 1
      omega
    · next hnlt =>
      have hlt : rank - 1 < (rankedSubsets right g).length := by omega
      rw [List.getElem?_append_left (by rwa [List.length_map]), List.getElem?_map]
      simp only [List.getElem?_eq_getElem hlt, Option.map_some, Option.getD_some]

theorem reachable_seats :
    reachable (subsets (left tables)) (groups (subsets (right tables))) partySize n = true ↔
      ∃ s, Seats tables partySize s ∧ s.length = n := by
  rw [reachable_iff]
  constructor
  · rintro ⟨l, hl, r, hr, hn, hp⟩
    obtain ⟨s, hs, rfl⟩ := mem_subsets.mp hl
    obtain ⟨t, ht, rfl⟩ := mem_subsets.mp hr
    refine ⟨s ++ t, ⟨sublist_halves.mpr ⟨s, t, rfl, hs, ht⟩, ?_⟩, ?_⟩
    · rw [capacity_append]
      exact hp
    · rw [List.length_append]
      exact hn
  · rintro ⟨_, ⟨hst, hp⟩, hn⟩
    obtain ⟨s, t, rfl, hs, ht⟩ := sublist_halves.mp hst
    rw [capacity_append] at hp
    rw [List.length_append] at hn
    exact ⟨.of s, mem_subsets.mpr ⟨s, hs, rfl⟩, .of t, mem_subsets.mpr ⟨t, ht, rfl⟩, hn, hp⟩

/-- The first number of tables that suffices is the least one. -/
theorem find_reachable (hp : 0 < partySize) (h : Minima tables partySize n best) :
    ((List.range tables.length).map (· + 1)).find?
      (reachable (subsets (left tables)) (groups (subsets (right tables))) partySize) = some n := by
  obtain ⟨s, hs, hn, -⟩ := h.attained
  have hpos : 0 < n := by
    rcases s with - | ⟨t, s⟩
    · have := hs.enough
      simp only [capacity, List.map_nil, List.sum_nil] at this
      omega
    · rw [← hn]
      exact Nat.succ_pos _
  have hle : n ≤ tables.length := hn ▸ hs.sublist.length_le
  rw [List.find?_eq_some_iff_getElem]
  refine ⟨reachable_seats.mpr ⟨s, hs, hn⟩, n - 1, by simp; omega, by simp; omega, fun j hj => ?_⟩
  rw [List.getElem_map, List.getElem_range, Bool.not_eq_true', Bool.eq_false_iff]
  intro hreach
  obtain ⟨t, ht, hlen⟩ := reachable_seats.mp hreach
  have := h.fewest t ht
  omega

/-- The least capacity is at most that of any completed left subset. -/
theorem bestCapacity_le {left : List Subset} {right : List Group} {c : ℤ} {l : Subset} {g : Group}
    (h : bestCapacity left right partySize n = some c) (hl : l ∈ left) (hg : g ∈ right)
    (hn : l.tableCount + g.tableCount = n) (hp : partySize ≤ l.capacitySum + g.capacitySum) :
    c ≤ l.capacitySum + g.capacitySum := by
  have hmem : g.capacitySum ∈ (right.filter fun g =>
      l.tableCount + g.tableCount = n ∧ partySize - l.capacitySum ≤ g.capacitySum).map
        (·.capacitySum) :=
    List.mem_map_of_mem (List.mem_filter.mpr ⟨hg, decide_eq_true ⟨hn, by omega⟩⟩)
  cases hmin : ((right.filter fun g => l.tableCount + g.tableCount = n ∧
      partySize - l.capacitySum ≤ g.capacitySum).map (·.capacitySum)).min? with
  | none =>
    rw [List.min?_eq_none_iff.mp hmin] at hmem
    cases hmem
  | some d =>
    have hd : d ≤ g.capacitySum := (List.min?_eq_some_iff.mp hmin).2 _ hmem
    have hc : c ≤ l.capacitySum + d := (List.min?_eq_some_iff.mp h).2 _
      (List.mem_filterMap.mpr ⟨l, hl, by simp only [hmin, Option.map_some]⟩)
    omega

theorem bestCapacity_eq (h : Minima tables partySize n best) :
    bestCapacity (subsets (left tables)) (groups (subsets (right tables))) partySize n =
      some best := by
  obtain ⟨_, ⟨hst, hp⟩, hn, hbest⟩ := h.attained
  obtain ⟨s, t, rfl, hs, ht⟩ := sublist_halves.mp hst
  rw [List.length_append] at hn
  rw [capacity_append] at hp hbest
  obtain ⟨g, hg, hgn, hgc⟩ := exists_group (mem_subsets.mpr ⟨t, ht, rfl⟩)
  have hl : Subset.of s ∈ subsets (left tables) := mem_subsets.mpr ⟨s, hs, rfl⟩
  have hgn : (Subset.of s).tableCount + g.tableCount = n := by rw [hgn]; exact hn
  have hgc : (Subset.of s).capacitySum + g.capacitySum = best := by rw [hgc]; exact hbest
  have henough : partySize ≤ (Subset.of s).capacitySum + g.capacitySum := by
    rw [hgc, ← hbest]
    exact hp
  obtain ⟨c, hc⟩ := exists_bestCapacity hl hg hgn henough
  refine hc.trans (congrArg some (le_antisymm ?_ ?_))
  · rw [← hgc]
    exact bestCapacity_le hc hl hg hgn henough
  · obtain ⟨hpc, l, hl, g, hg, hln, hlc⟩ := bestCapacity_mem hc
    obtain ⟨a, ha, rfl⟩ := mem_subsets.mp hl
    obtain ⟨k, hk, rfl⟩ := List.mem_map.mp hg
    obtain ⟨r, hr, rfl⟩ := List.mem_map.mp (List.mem_dedup.mp hk)
    obtain ⟨b, hb, rfl⟩ := mem_subsets.mp hr
    have hcap : capacity (a ++ b) = c := (capacity_append a b).trans hlc
    rw [← hcap]
    refine h.tightest (a ++ b) ⟨sublist_halves.mpr ⟨a, b, rfl, ha, hb⟩, hcap ▸ hpc⟩ ?_
    rw [List.length_append]
    exact hln

/-- The general search allocates by the ranking. -/
theorem meetInTheMiddle_eq (hv : ValidTables tables) (hp : 0 < partySize)
    (h : Minima tables partySize n best) (tieRank : Option ℤ) :
    meetInTheMiddle tables partySize tieRank random =
      ofRanking (ranking tables n best) best tieRank random := by
  have hlength : ((candidates (subsets (left tables)) (groups (subsets (right tables))) n best).map
      (·.2.subsetCount)).sum = (ranking tables n best).length := by
    rw [ranking, enumerate, List.length_map, List.length_flatMap]
    congr 1
    refine List.map_congr_left fun p hp => ?_
    rw [List.length_map, rankedSubsets, List.length_insertionSort,
      (mem_groups (mem_candidates.mp hp).1.2).1]
  have hne : (ranking tables n best).length ≠ 0 := by
    obtain ⟨s, hs, hn, hbest⟩ := h.attained
    exact (List.length_pos_of_mem ((mem_ranking hv).mpr ⟨s, ⟨hs.sublist, hn, hbest⟩, rfl⟩)).ne'
  unfold meetInTheMiddle search ofRanking
  simp only [find_reachable hp h, bestCapacity_eq h, hlength, if_neg hne]
  cases hrank : chosenRank tieRank (ranking tables n best).length random with
  | error e => rfl
  | ok rank =>
    obtain ⟨h₁, h₂⟩ := chosenRank_ok hrank
    have hlt : (rank - 1).toNat < (ranking tables n best).length := by omega
    have hwinner : winner (subsets (right tables))
        (candidates (subsets (left tables)) (groups (subsets (right tables))) n best) rank.toNat =
          some (ranking tables n best)[(rank - 1).toNat] := by
      rw [winner_eq (fun p hp => (mem_candidates.mp hp).1.2) (by omega), ← List.getElem?_eq_getElem hlt]
      rw [ranking, enumerate, List.map_flatMap]
      simp only [List.map_map, Function.comp_def]
      congr 1
      omega
    obtain ⟨s, ⟨-, hn, -⟩, hnumbers⟩ := (mem_ranking hv).mp (List.getElem_mem hlt)
    have hsize : ¬ ((ranking tables n best)[(rank - 1).toNat]).length ≠ n := by
      rw [hnumbers, List.length_map]
      exact not_not.mpr hn
    simp only [bind, Except.bind, hwinner, if_neg hsize, List.getElem?_eq_getElem hlt,
      Option.getD_some]

end Search

end CafeFausse.Allocation
