import CafeFausse.Clock.Settings
import CafeFausse.Sql.Time

/-! # Local times and their instants

`local_timestamp_candidates` looks at the offsets two days before and after a local time
and keeps those that lead back to it. In a zone with offsets of whole minutes that changes
its offset at most once in those days, this finds all instants that show the local time.
-/

namespace CafeFausse

open Time Clock

/-- The offset of the zone at each instant, in minutes. The conversion of a local time leads
to an instant that shows it, if there is one. -/
structure Zone.Follows (zone : Zone) (offset : ℤ → ℤ) : Prop where
  toLocal : ∀ t, zone.toLocal t = t + minutes (offset t)
  toInstant : ∀ t, zone.toLocal (zone.toInstant (zone.toLocal t)) = zone.toLocal t
  bounded : ∃ b, ∀ t, |offset t| ≤ b
  shift : ∀ t, |minutes (offset t) - minutes (offset (t - 1))| < 2 * day

/-- The offset changes at most once within three days of the local time. -/
def Zone.Steady (zone : Zone) (l : ℤ) : Prop := SetOnce zone.toLocal (3 * day) l

variable {zone : Zone} {offset : ℤ → ℤ} {l s t o : ℤ}

theorem two_days_le : 2 * day ≤ 3 * day := by decide

namespace Zone.Follows

variable (h : zone.Follows offset)
include h

theorem setBy : SetBy zone.toLocal (2 * day) := by
  intro t
  have := h.shift t
  rw [h.toLocal, h.toLocal]
  rwa [show t + minutes (offset t) - (t - 1 + minutes (offset (t - 1)) + 1) =
    minutes (offset t) - minutes (offset (t - 1)) by ring]

/-- The difference of the two times is the offset, also after rounding. -/
theorem round_sub (ht : zone.toLocal t = s) : Time.round (s - t) (minutes 1) = offset t := by
  rw [← ht, h.toLocal, show t + minutes (offset t) - t = offset t * minutes 1 by
    simp only [minutes]
    ring]
  exact Time.round_mul (by decide)

theorem eq_sub (ht : zone.toLocal t = l) : t = l - minutes (offset t) := by
  rw [← ht, h.toLocal]
  ring

/-- The instant that the sample leads to, where there is no doubt about it. -/
theorem toInstant_eq (ht : zone.toLocal t = s) (hunique : ∀ u, zone.toLocal u = s → u = t) :
    zone.toInstant s = t := by
  refine hunique _ ?_
  rw [← ht]
  exact h.toInstant t

/-- Two instants the same time apart as their local times have the same offset. -/
theorem offset_congr {u w : ℤ} (ht : zone.toLocal t = l) (hu : zone.toLocal u = l + w)
    (htu : u = t + w) : offset u = offset t := by
  have ht' := h.eq_sub ht
  have hu' := h.eq_sub hu
  simp only [minutes] at ht' hu'
  omega

end Zone.Follows

/-- The offset at every instant that shows the local time is sampled. -/
theorem offset_sampled (h : zone.Follows offset) (hl : zone.Steady l) (ht : zone.toLocal t = l) :
    ∃ s ∈ [l - 2 * day, l, l + 2 * day],
      Time.round (s - zone.toInstant s) (minutes 1) = offset t := by
  by_cases hunique : ∀ u, zone.toLocal u = l → u = t
  · refine ⟨l, by simp, ?_⟩
    rw [h.toInstant_eq ht hunique, h.round_sub ht]
  · push Not at hunique
    obtain ⟨u, hu, hne⟩ := hunique
    rcases lt_or_gt_of_ne hne with hlt | hlt
    · obtain ⟨hshows, honly⟩ := shown_once_after h.setBy two_days_le hl hlt hu ht
      refine ⟨l + 2 * day, by simp, ?_⟩
      rw [h.toInstant_eq hshows honly, h.round_sub hshows]
      exact h.offset_congr ht hshows rfl
    · obtain ⟨hshows, honly⟩ := shown_once_before h.setBy two_days_le hl hlt ht hu
      refine ⟨l - 2 * day, by simp, ?_⟩
      rw [h.toInstant_eq hshows honly, h.round_sub hshows]
      exact h.offset_congr ht hshows rfl

/-- The candidates are the instants that show the local time, each with its offset. -/
theorem mem_localTimestampCandidates_iff (h : zone.Follows offset) (hl : zone.Steady l) :
    (t, o) ∈ localTimestampCandidates l zone ↔ zone.toLocal t = l ∧ o = offset t := by
  constructor
  · intro hc
    obtain ⟨heq, hlocal⟩ := mem_localTimestampCandidates hc
    refine ⟨hlocal, ?_⟩
    have := h.eq_sub hlocal
    simp only [minutes] at this heq
    omega
  · rintro ⟨ht, rfl⟩
    obtain ⟨s, hs, hoffset⟩ := offset_sampled h hl ht
    simp only [localTimestampCandidates, Sql.mem_orderBy, List.mem_filter, List.mem_map,
      decide_eq_true_eq, List.mem_dedup]
    refine ⟨⟨offset t, ⟨s, hs, hoffset⟩, ?_⟩, ht⟩
    rw [← h.eq_sub ht]

/-- `ORDER BY starts_at`, and no instant comes twice. -/
theorem localTimestampCandidates_pairwise (l : ℤ) (zone : Zone) :
    (localTimestampCandidates l zone).Pairwise fun c c' => c.1 < c'.1 := by
  unfold localTimestampCandidates
  simp only
  apply Sql.orderBy_pairwise_lt
  refine List.Nodup.sublist ((List.filter_sublist).map _) ?_
  rw [List.map_map]
  refine (List.nodup_dedup _).map fun a b hab => ?_
  simp only [Function.comp_apply, minutes] at hab
  omega

theorem localTimestampCandidates_nodup (l : ℤ) (zone : Zone) :
    (localTimestampCandidates l zone).Nodup :=
  (localTimestampCandidates_pairwise l zone).imp fun h heq => h.ne (congrArg Prod.fst heq)

section Count

variable (h : zone.Follows offset) (hl : zone.Steady l)
include h hl

/-- The candidates are as many as the instants that show the local time. -/
theorem candidates_perm {instants : List ℤ} (hnodup : instants.Nodup)
    (hmem : ∀ t, t ∈ instants ↔ zone.toLocal t = l) :
    (localTimestampCandidates l zone).Perm (instants.map fun t => (t, offset t)) := by
  apply (List.perm_ext_iff_of_nodup (localTimestampCandidates_nodup l zone) ?_).mpr
  · rintro ⟨t, o⟩
    rw [mem_localTimestampCandidates_iff h hl, ← hmem t, List.mem_map]
    constructor
    · rintro ⟨ht, rfl⟩
      exact ⟨t, ht, rfl⟩
    · rintro ⟨t', ht, heq⟩
      cases heq
      exact ⟨ht, rfl⟩
  · exact hnodup.map fun a b hab => congrArg Prod.fst hab

theorem candidates_of_skips (hs : Skips zone.toLocal l s) : localTimestampCandidates l zone = [] := by
  apply List.eq_nil_iff_forall_not_mem.mpr
  rintro ⟨t, o⟩ hc
  obtain ⟨ht, -⟩ := (mem_localTimestampCandidates_iff h hl).mp hc
  exact hs.not_shows h.setBy two_days_le hl ht

theorem candidates_of_repeats (hs : Repeats zone.toLocal l s) :
    (localTimestampCandidates l zone).length = 2 := by
  obtain ⟨hfirst, hagain⟩ := hs.shows h.setBy two_days_le hl
  obtain ⟨hafter, hbefore⟩ := hs
  have hlt : s - 1 - (zone.toLocal (s - 1) - l) < s + (l - zone.toLocal s) := by omega
  have hmem : ∀ t, t ∈ [s - 1 - (zone.toLocal (s - 1) - l), s + (l - zone.toLocal s)] ↔
      zone.toLocal t = l := by
    intro t
    rw [List.mem_pair]
    constructor
    · rintro (rfl | rfl)
      · exact hfirst
      · exact hagain
    · exact shows_twice h.setBy two_days_le hl hlt hfirst hagain
  exact (candidates_perm h hl (by simpa using hlt.ne) hmem).length_eq

omit hl in
/-- A local time that is neither skipped nor repeated is shown, and once only. -/
theorem exists_shown_once (hskips : ∀ s, ¬ Skips zone.toLocal l s)
    (hrepeats : ∀ s, ¬ Repeats zone.toLocal l s) :
    ∃ t, ∀ u, zone.toLocal u = l ↔ u = t := by
  obtain ⟨b, hb⟩ := h.bounded
  have hb₀ : 0 ≤ b := (abs_nonneg _).trans (hb 0)
  have hlow := abs_le.mp (hb (l - minutes b))
  have hhigh := abs_le.mp (hb (l + minutes b))
  have hbefore : zone.toLocal (l - minutes b) ≤ l := by
    rw [h.toLocal]
    simp only [minutes] at hlow ⊢
    omega
  have hafter : l ≤ zone.toLocal (l + minutes b) := by
    rw [h.toLocal]
    simp only [minutes] at hhigh ⊢
    omega
  have hle : l - minutes b ≤ l + minutes b := by
    simp only [minutes]
    omega
  rcases exists_shows_or_skips hle hbefore hafter with ⟨t, ht⟩ | ⟨s, hs⟩
  · refine ⟨t, fun u => ⟨fun hu => eq_of_not_repeats hrepeats hu ht, ?_⟩⟩
    rintro rfl
    exact ht
  · exact absurd hs (hskips s)

theorem candidates_of_plain (hskips : ∀ s, ¬ Skips zone.toLocal l s)
    (hrepeats : ∀ s, ¬ Repeats zone.toLocal l s) : (localTimestampCandidates l zone).length = 1 := by
  obtain ⟨t, ht⟩ := exists_shown_once h hskips hrepeats
  exact (candidates_perm h hl (List.nodup_singleton t)
    fun u => (List.mem_singleton.trans (ht u).symm)).length_eq

/-- A local time with a single candidate is shown at that instant only. -/
theorem shown_once_of_candidates (hc : localTimestampCandidates l zone = [(t, o)]) :
    zone.toLocal t = l ∧ ∀ u, zone.toLocal u = l → u = t := by
  have hmem : ∀ u, zone.toLocal u = l → u = t := by
    intro u hu
    have hu' := (mem_localTimestampCandidates_iff h hl).mpr ⟨hu, rfl⟩
    rw [hc, List.mem_singleton] at hu'
    exact congrArg Prod.fst hu'
  refine ⟨?_, hmem⟩
  have ht : (t, o) ∈ localTimestampCandidates l zone := hc ▸ List.mem_singleton_self _
  exact ((mem_localTimestampCandidates_iff h hl).mp ht).1

/-- The clock has not passed a local time with a single candidate when it is before it. -/
theorem before_of_candidates (hc : localTimestampCandidates l zone = [(t, o)]) {now : ℤ}
    (hnow : zone.toLocal now < l) : now < t := by
  obtain ⟨ht, hunique⟩ := shown_once_of_candidates h hl hc
  exact before_of_shown_once h.setBy two_days_le hl ht hunique hnow

end Count

/-- The candidates are exactly the instants that show the local time, in order, each with
the offset in force: none where the clock is set forward over it, two where it is set back,
one everywhere else. -/
theorem localTimestampCandidates_exact (h : zone.Follows offset) (hl : zone.Steady l) :
    (∀ t o, (t, o) ∈ localTimestampCandidates l zone ↔ zone.toLocal t = l ∧ o = offset t) ∧
      (localTimestampCandidates l zone).Pairwise (fun c c' => c.1 < c'.1) ∧
      ((∃ s, Skips zone.toLocal l s) → (localTimestampCandidates l zone).length = 0) ∧
      ((∃ s, Repeats zone.toLocal l s) → (localTimestampCandidates l zone).length = 2) ∧
      ((∀ s, ¬ Skips zone.toLocal l s ∧ ¬ Repeats zone.toLocal l s) →
        (localTimestampCandidates l zone).length = 1) := by
  refine ⟨fun t o => mem_localTimestampCandidates_iff h hl, ?_, ?_, ?_, ?_⟩
  · exact localTimestampCandidates_pairwise l zone
  · rintro ⟨s, hs⟩
    rw [candidates_of_skips h hl hs, List.length_nil]
  · rintro ⟨s, hs⟩
    exact candidates_of_repeats h hl hs
  · intro hplain
    exact candidates_of_plain h hl (fun s => (hplain s).1) fun s => (hplain s).2

theorem Zone.fixed_follows (o : ℤ) : (Zone.fixed o).Follows fun _ => o where
  toLocal t := rfl
  toInstant t := by simp [Zone.fixed]
  bounded := ⟨|o|, fun _ => le_rfl⟩
  shift t := by
    rw [sub_self, abs_zero]
    decide

theorem Zone.fixed_steady {o : ℤ} : (Zone.fixed o).Steady l := by
  rintro t t' ⟨hset, -⟩ -
  exact absurd (show t + minutes o = t - 1 + minutes o + 1 by ring) hset

/-- A zone that changes its offset once, at the start of 1970. -/
def Zone.changing (before after : ℤ) : Zone where
  toLocal t := t + minutes (if t < 0 then before else after)
  toInstant l := if 0 ≤ l - minutes after then l - minutes after else l - minutes before

theorem Zone.changing_follows {before after : ℤ}
    (hshift : |minutes after - minutes before| < 2 * day) :
    (Zone.changing before after).Follows fun t => if t < 0 then before else after where
  toLocal t := rfl
  toInstant t := by
    simp only [Zone.changing, minutes]
    split_ifs <;> omega
  bounded := ⟨max |before| |after|, fun t => by split <;> simp⟩
  shift t := by
    rcases lt_trichotomy t 0 with ht | rfl | ht
    · rw [if_pos ht, if_pos (by omega), sub_self, abs_zero]
      decide
    · rwa [if_neg (lt_irrefl 0), if_pos (by decide)]
    · rw [if_neg (by omega), if_neg (by omega), sub_self, abs_zero]
      decide

theorem Zone.changing_steady {before after : ℤ} : (Zone.changing before after).Steady l := by
  have hset : ∀ t, SetNear (Zone.changing before after).toLocal (3 * day) l t → t = 0 := by
    rintro t ⟨hset, -⟩
    by_contra ht
    apply hset
    simp only [Zone.changing]
    split_ifs <;> omega
  intro t t' ht ht'
  rw [hset t ht, hset t' ht']

/-- Half past one in a night in which the clock is set back from two to one. -/
theorem localTimestampCandidates_exact_overlap :
    (localTimestampCandidates (minutes (-270)) (.changing (-240) (-300))).length = 2 :=
  (localTimestampCandidates_exact (Zone.changing_follows (by decide))
    Zone.changing_steady).2.2.2.1 ⟨0, by decide⟩

end CafeFausse
