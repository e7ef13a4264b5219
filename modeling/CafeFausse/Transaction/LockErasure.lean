import CafeFausse.Transaction.Locking

/-! # Locks left out

A routine with more locks, and with looks at the rows it locks, erases to the one without.
Every interleaving of such routines is then an interleaving of the plain ones.
-/

namespace CafeFausse.Transaction

variable {σ κ κ' ι ε ρ γ β δ : Type} {keep : κ' → Option κ}

namespace Program

/-- The second routine is the first one without the locks that are not kept and without
reads whose result chooses only such locks. -/
inductive Erases (keep : κ' → Option κ) : Program σ κ' ι ε ρ β → Program σ κ ι ε ρ β → Prop
  | pure (a : β) : Erases keep (.pure a) (.pure a)
  | ret (r : ρ) : Erases keep (.ret r) (.ret r)
  | raise (e : ε) : Erases keep (.raise e) (.raise e)
  | lock {r key next p} (hk : keep r = some key) (h : Erases keep next p) :
      Erases keep (.lock r next) (.lock key p)
  | drop {r next p} (hk : keep r = none) (h : Erases keep next p) : Erases keep (.lock r next) p
  | look {next p} (h : ∀ v, Erases keep (next v) p) :
      Erases keep (.statement (fun _ c => c) next) p
  | nextval {s next next'} (h : ∀ n, Erases keep (next n) (next' n)) :
      Erases keep (.nextval s next) (.nextval s next')
  | statement {write next next'} (h : ∀ v, Erases keep (next v) (next' v)) :
      Erases keep (.statement write next) (.statement write next')
  | savepoint {next p} (h : Erases keep next p) : Erases keep (.savepoint next) (.savepoint p)
  | rollback {next p} (h : Erases keep next p) : Erases keep (.rollback next) (.rollback p)

namespace Erases

variable {p : Program σ κ' ι ε ρ β} {q : Program σ κ ι ε ρ β}

theorem bind {f : β → Program σ κ' ι ε ρ δ} {g : β → Program σ κ ι ε ρ δ}
    (h : Erases keep p q) (hf : ∀ a, Erases keep (f a) (g a)) :
    Erases keep (p.bind f) (q.bind g) := by
  induction h with
  | pure a => exact hf a
  | ret r => exact .ret r
  | raise e => exact .raise e
  | lock hk _ ih => exact .lock hk ih
  | drop hk _ ih => exact .drop hk ih
  | look _ ih => exact .look ih
  | nextval _ ih => exact .nextval ih
  | statement _ ih => exact .statement ih
  | savepoint _ ih => exact .savepoint ih
  | rollback _ ih => exact .rollback ih

theorem handle {h : ε → Option (Program σ κ' ι ε ρ β)} {h' : ε → Option (Program σ κ ι ε ρ β)}
    (hp : Erases keep p q) (hh : ∀ e, Option.Rel (Erases keep) (h e) (h' e)) :
    Erases keep (p.handle h) (q.handle h') := by
  induction hp with
  | pure a => exact .pure a
  | ret r => exact .ret r
  | raise e =>
    have hrel := hh e
    unfold Program.handle
    generalize h e = x at hrel ⊢
    generalize h' e = y at hrel ⊢
    cases hrel with
    | some hxy => exact .rollback hxy
    | none => exact .raise e
  | lock hk _ ih => exact .lock hk ih
  | drop hk _ ih => exact .drop hk ih
  | look _ ih => exact .look ih
  | nextval _ ih => exact .nextval ih
  | statement _ ih => exact .statement ih
  | savepoint _ ih => exact .savepoint ih
  | rollback _ ih => exact .rollback ih

theorem mapLocks {f : κ → κ'} (hf : ∀ key, keep (f key) = some key) (q : Program σ κ ι ε ρ β) :
    Erases keep (q.mapLocks f) q := by
  induction q with
  | pure a => exact .pure a
  | ret r => exact .ret r
  | raise e => exact .raise e
  | lock key _ ih => exact .lock (hf key) ih
  | nextval s _ ih => exact .nextval ih
  | statement write _ ih => exact .statement ih
  | savepoint _ ih => exact .savepoint ih
  | rollback _ ih => exact .rollback ih

/-- Locks that are not kept in front of a routine. -/
theorem acquireAll {l : List κ'} {f : Unit → Program σ κ' ι ε ρ β}
    (hl : ∀ r ∈ l, keep r = none) (h : Erases keep (f ()) q) :
    Erases keep ((acquireAll l : Program σ κ' ι ε ρ Unit).bind f) q := by
  induction l with
  | nil => exact h
  | cons r rest ih =>
    exact .drop (hl r (List.mem_cons_self ..)) (ih fun x hx => hl x (List.mem_cons_of_mem _ hx))

end Erases

end Program

/-- The plain session of a session with more locks. -/
structure Session.Erases (keep : κ' → Option κ) (s' : Session σ κ' ι ε ρ γ)
    (s : Session σ κ ι ε ρ γ) : Prop where
  call : s.call = s'.call
  program : s'.program.Erases keep s.program
  writes : s.writes = s'.writes
  locks : s.locks = s'.locks.filterMap keep
  marks : s.marks = s'.marks.map fun m => (m.1, m.2.filterMap keep)
  draws : s.draws = s'.draws

/-- What a commit tells, but for the locks it had given up. -/
def Entry.told (e : Entry ι ρ γ κ) : γ × List (ι × ℕ) × ρ := (e.call, e.draws, e.row)

/-- The plain world of a world with more locks. -/
structure World.Erases (keep : κ' → Option κ) (w' : World σ κ' ι ε ρ γ) (w : World σ κ ι ε ρ γ) :
    Prop where
  committed : w.committed = w'.committed
  counters : w.counters = w'.counters
  sessions : ∀ t, Option.Rel (Session.Erases keep) (w'.sessions t) (w.sessions t)
  log : w.log.map Entry.told = w'.log.map Entry.told

namespace World.Erases

variable {w' : World σ κ' ι ε ρ γ} {w : World σ κ ι ε ρ γ} {t : ℕ}

theorem exists_session (h : w'.Erases keep w) {s' : Session σ κ' ι ε ρ γ}
    (hs : w'.sessions t = some s') : ∃ s, w.sessions t = some s ∧ s'.Erases keep s := by
  have := h.sessions t
  rw [hs] at this
  cases hw : w.sessions t with
  | none => rw [hw] at this; cases this
  | some s =>
    rw [hw] at this
    cases this with
    | some hss => exact ⟨s, rfl, hss⟩

theorem set (h : w'.Erases keep w) {x' : Option (Session σ κ' ι ε ρ γ)}
    {x : Option (Session σ κ ι ε ρ γ)} (hx : Option.Rel (Session.Erases keep) x' x) :
    (w'.set t x').Erases keep (w.set t x) where
  committed := h.committed
  counters := h.counters
  sessions u := by
    by_cases hu : u = t
    · subst hu; simpa [World.set] using hx
    · simpa [World.set, hu] using h.sessions u
  log := h.log

/-- A step that the plain session does not see. -/
theorem stutter (h : w'.Erases keep w) {s' : Session σ κ' ι ε ρ γ} {s : Session σ κ ι ε ρ γ}
    (hs : w.sessions t = some s) (hss : s'.Erases keep s) :
    (w'.set t (some s')).Erases keep w := by
  have := h.set (t := t) (.some hss)
  have hw : w.set t (some s) = w := by
    simp [World.set, ← hs]
  rwa [hw] at this

variable [DecidableEq κ] [DecidableEq κ'] [DecidableEq ι] {sys' : System σ κ' ι ε ρ γ}
  {sys : System σ κ ι ε ρ γ} {conflicts : κ' → κ' → Prop} {w₁ : World σ κ' ι ε ρ γ}

/-- Every step with more locks is a step without them, or none. -/
theorem step (hbody : ∀ call, (sys'.body call).Erases keep (sys.body call))
    (hexcl : ∀ {r x key}, keep r = some key → keep x = some key → conflicts r x)
    (h : w'.Erases keep w) (hstep : LockStep sys' conflicts w' w₁) :
    ∃ w₂, Reaches sys w w₂ ∧ w₁.Erases keep w₂ := by
  cases hstep with
  | begin t call ht =>
    have hw : w.sessions t = none := by
      have := h.sessions t
      rw [ht] at this
      cases hw : w.sessions t with
      | none => rfl
      | some s => rw [hw] at this; cases this
    exact ⟨_, .single (.begin t call hw),
      h.set (.some ⟨rfl, hbody call, rfl, rfl, rfl, rfl⟩)⟩
  | lock t s' hs' r next hp hg =>
    obtain ⟨s, hs, hss⟩ := h.exists_session hs'
    obtain ⟨hcall, hprog, hwrites, hlocks, hmarks, hdraws⟩ := hss
    rw [hp] at hprog
    generalize hq : s.program = q at hprog
    cases hprog with
    | lock hk hnext =>
      refine ⟨_, .single (.lock t s hs _ _ hq ?_),
        h.set (.some ⟨hcall, hnext, hwrites, ?_, hmarks, hdraws⟩)⟩
      · intro u x hu hx hmem
        have hrel := h.sessions u
        rw [hx] at hrel
        cases hx' : w'.sessions u with
        | none => rw [hx'] at hrel; cases hrel
        | some x' =>
          rw [hx'] at hrel
          cases hrel with
          | some hxx =>
            rw [hxx.locks] at hmem
            obtain ⟨z, hz, hkz⟩ := List.mem_filterMap.mp hmem
            exact hg u x' hu hx' z hz (hexcl hk hkz)
      · simp [hk, hlocks]
    | drop hk hnext =>
      exact ⟨w, .refl, h.stutter hs ⟨hcall, hq ▸ hnext, hwrites, by simp [hk, hlocks], hmarks,
        hdraws⟩⟩
  | nextval t s' hs' q next hp =>
    obtain ⟨s, hs, hcall, hprog, hwrites, hlocks, hmarks, hdraws⟩ := h.exists_session hs'
    rw [hp] at hprog
    generalize hq : s.program = p at hprog
    cases hprog with
    | nextval hnext =>
      refine ⟨_, .single (.nextval t s hs q _ hq), ?_⟩
      rw [h.counters]
      have hrel : Session.Erases keep
          { s' with
            program := next (w'.counters q), draws := s'.draws ++ [(q, w'.counters q)] }
          { s with
            program := _, draws := s.draws ++ [(q, w'.counters q)] } :=
        ⟨hcall, hnext _, hwrites, hlocks, hmarks, congrArg (· ++ _) hdraws⟩
      exact ⟨h.committed, rfl, (h.set (.some hrel)).sessions, h.log⟩
  | statement t s' hs' write next hp =>
    obtain ⟨s, hs, hcall, hprog, hwrites, hlocks, hmarks, hdraws⟩ := h.exists_session hs'
    rw [hp] at hprog
    generalize hq : s.program = p at hprog
    cases hprog with
    | look hnext =>
      exact ⟨w, .refl, h.stutter hs ⟨hcall, hq ▸ hnext _, hwrites, hlocks, hmarks, hdraws⟩⟩
    | statement hnext =>
      refine ⟨_, .single (.statement t s hs _ _ hq), ?_⟩
      rw [hwrites, h.committed]
      exact h.set (.some ⟨hcall, hnext _, rfl, hlocks, hmarks, hdraws⟩)
  | savepoint t s' hs' next hp =>
    obtain ⟨s, hs, hcall, hprog, hwrites, hlocks, hmarks, hdraws⟩ := h.exists_session hs'
    rw [hp] at hprog
    generalize hq : s.program = p at hprog
    cases hprog with
    | savepoint hnext =>
      refine ⟨_, .single (.savepoint t s hs _ hq),
        h.set (.some ⟨hcall, hnext, hwrites, hlocks, ?_, hdraws⟩)⟩
      simp [hwrites, hlocks, hmarks]
  | rollback t s' hs' next mark marks hp hm =>
    obtain ⟨s, hs, hcall, hprog, hwrites, hlocks, hmarks, hdraws⟩ := h.exists_session hs'
    rw [hp] at hprog
    rw [hm, List.map_cons] at hmarks
    generalize hq : s.program = p at hprog
    cases hprog with
    | rollback hnext =>
      exact ⟨_, .single (.rollback t s hs _ _ _ hq hmarks),
        h.set (.some ⟨hcall, hnext, rfl, rfl, rfl, hdraws⟩)⟩
  | commit t s' hs' r hp =>
    obtain ⟨s, hs, hcall, hprog, hwrites, hlocks, hmarks, hdraws⟩ := h.exists_session hs'
    rw [hp] at hprog
    generalize hq : s.program = p at hprog
    cases hprog with
    | ret =>
      refine ⟨_, .single (.commit t s hs r hq), ?_⟩
      obtain ⟨-, hcount, hses, hlog⟩ := h.set (t := t) .none
      refine ⟨by simp [hwrites, h.committed], hcount, hses, ?_⟩
      simpa [Entry.told, hcall, hdraws] using hlog
  | abort t s' hs' =>
    obtain ⟨s, hs, -⟩ := h.exists_session hs'
    exact ⟨_, .single (.abort t s hs), h.set .none⟩

/-- Every interleaving with more locks is one without them. -/
theorem exists_reaches (hbody : ∀ call, (sys'.body call).Erases keep (sys.body call))
    (hexcl : ∀ {r x key}, keep r = some key → keep x = some key → conflicts r x)
    (h : w'.Erases keep w) (hw : Relation.ReflTransGen (LockStep sys' conflicts) w' w₁) :
    ∃ w₂, Reaches sys w w₂ ∧ w₁.Erases keep w₂ := by
  induction hw with
  | refl => exact ⟨w, .refl, h⟩
  | tail _ hstep ih =>
    obtain ⟨w₂, hw₂, he⟩ := ih
    obtain ⟨w₃, hw₃, he'⟩ := he.step hbody hexcl hstep
    exact ⟨w₃, hw₂.trans hw₃, he'⟩

end World.Erases

end CafeFausse.Transaction
