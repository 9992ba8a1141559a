import ForgeKit.Lib.Machine

/-!
# Shared records and the copies processes hold of them

Several processes read keyed records of entries from a shared store and write a record back with
more entries at its end. A write replaces the record by the writer's copy of it: nothing compares
the two. The state remembers, for each copy, the entries others wrote since it was made.

* `kept_step_iff` — a step loses no entry exactly when the writer missed nothing
* `kept_run_iff` — the same for every entry and every later state of a run
-/

namespace SharedCopies

variable {P K E : Type*}

/-- The shared records and the copies. -/
structure State (P K E : Type*) where
  shared : K → Option (List E)
  copy : P → K → Option (List E)
  /-- What other processes wrote to a record since the copy of it was made. -/
  missed : P → K → List E

inductive Action (P K E : Type*) where
  /-- A step that touches no record. -/
  | skip
  /-- Reads one record. -/
  | read (p : P) (k : K)
  /-- Reads the records that `keep` selects; other copies are dropped. -/
  | readAll (p : P) (keep : K → Bool)
  /-- Writes the copy of a record back with more entries, or a new record. -/
  | write (p : P) (k : K) (added : List E)

/-- The entries of a record. -/
def State.entries (s : State P K E) (k : K) : List E := (s.shared k).getD []

/-- Every entry of the first state is an entry of the second one. -/
def Kept (s s' : State P K E) : Prop := ∀ k, s.entries k ⊆ s'.entries k

/-- A write holds everything that others wrote since its copy was made. -/
def NothingMissed (s : State P K E) : Action P K E → Prop
  | .write p k added => ∀ es, s.copy p k = some es → s.missed p k ⊆ es ++ added
  | _ => True

/-- A copy and what it missed are together what the record holds. -/
def Inv (s : State P K E) : Prop :=
  ∀ p k es, s.copy p k = some es → ∃ rs, s.shared k = some rs ∧ rs ⊆ es ++ s.missed p k
    ∧ es ⊆ rs ∧ s.missed p k ⊆ rs

theorem Kept.refl (s : State P K E) : Kept s s := fun _ => List.Subset.refl _

theorem Kept.trans (s t u : State P K E) (h : Kept s t) (h' : Kept t u) : Kept s u :=
  fun k => List.Subset.trans (h k) (h' k)

variable [DecidableEq P] [DecidableEq K]

/-- A process puts these entries, the last of them new ones, in the place of a record. -/
def State.put (s : State P K E) (p : P) (k : K) (es added : List E) : State P K E where
  shared := fun j => if j = k then some es else s.shared j
  copy := fun q j => if q = p ∧ j = k then some es else s.copy q j
  missed := fun q j =>
    if j = k then if q = p then [] else s.missed q j ++ added else s.missed q j

/-- One step. A process cannot write a record it holds no copy of, unless there is no record. -/
def step (s : State P K E) : Action P K E → State P K E
  | .skip => s
  | .read p k =>
    { s with
      copy := fun q j => if q = p ∧ j = k then s.shared k else s.copy q j
      missed := fun q j => if q = p ∧ j = k then [] else s.missed q j }
  | .readAll p keep =>
    { s with
      copy := fun q j => if q = p then if keep j then s.shared j else none else s.copy q j
      missed := fun q j => if q = p then [] else s.missed q j }
  | .write p k added =>
    match s.copy p k, s.shared k with
    | some es, _ => s.put p k (es ++ added) added
    | none, none => s.put p k added added
    | none, some _ => s

theorem put_entries (s : State P K E) (p : P) (k : K) (es added : List E) (j : K) :
    (s.put p k es added).entries j = if j = k then es else s.entries j := by
  unfold State.entries State.put
  by_cases hj : j = k <;> simp [hj]

theorem kept_put_iff {s : State P K E} {p : P} {k : K} {es added : List E} :
    Kept s (s.put p k es added) ↔ s.entries k ⊆ es := by
  simp only [Kept, put_entries]
  constructor
  · intro h
    simpa using h k
  · intro h j
    by_cases hj : j = k
    · simpa [hj] using h
    · simp [hj]

/-- **A step loses no entry** exactly when the writer missed nothing. -/
theorem kept_step_iff {s : State P K E} (hI : Inv s) (a : Action P K E) :
    Kept s (step s a) ↔ NothingMissed s a := by
  cases a with
  | skip => exact iff_of_true (Kept.refl s) trivial
  | read p k => exact iff_of_true (fun _ => List.Subset.refl _) trivial
  | readAll p keep => exact iff_of_true (fun _ => List.Subset.refl _) trivial
  | write p k added =>
    simp only [step, NothingMissed]
    cases hc : s.copy p k with
    | none =>
      refine iff_of_true ?_ (by simp)
      cases hs : s.shared k with
      | none => exact kept_put_iff.mpr (by simp [State.entries, hs])
      | some rs => exact Kept.refl s
    | some es =>
      obtain ⟨rs, hs, hall, -, hmissed⟩ := hI p k es hc
      have hentries : s.entries k = rs := by simp [State.entries, hs]
      simp only [kept_put_iff, hentries, Option.some.injEq, forall_eq']
      constructor
      · exact fun h => List.Subset.trans hmissed h
      · intro h e he
        rcases List.mem_append.mp (hall he) with hes | hm
        · exact List.mem_append_left _ hes
        · exact h hm

/-- A put that loses nothing keeps the invariant. -/
theorem inv_put {s : State P K E} (hI : Inv s) {p : P} {k : K} {es added : List E}
    (hes : es ⊆ s.entries k ++ added) (hadded : added ⊆ es) (hkept : s.entries k ⊆ es) :
    Inv (s.put p k es added) := by
  intro q j fs hc
  by_cases hj : j = k
  · subst hj
    refine ⟨es, by simp [State.put], ?_⟩
    by_cases hq : q = p
    · simp only [State.put, hq, and_self, if_true, Option.some.injEq] at hc
      subst hc
      simp [State.put, hq]
    · simp only [State.put, hq, false_and, if_false] at hc
      obtain ⟨rs, hs, hall, hfs, hmissed⟩ := hI q j fs hc
      have hentries : s.entries j = rs := by simp [State.entries, hs]
      rw [hentries] at hes hkept
      simp only [State.put, if_true, hq, if_false]
      refine ⟨?_, List.Subset.trans hfs hkept,
        List.append_subset.mpr ⟨List.Subset.trans hmissed hkept, hadded⟩⟩
      intro e he
      rcases List.mem_append.mp (hes he) with hr | ha
      · rw [← List.append_assoc]
        exact List.mem_append_left _ (hall hr)
      · simp [ha]
  · simp only [State.put, hj, and_false, if_false] at hc ⊢
    exact hI q j fs hc

theorem inv_step {s : State P K E} (hI : Inv s) {a : Action P K E} (hkept : Kept s (step s a)) :
    Inv (step s a) := by
  cases a with
  | skip => exact hI
  | read p k =>
    intro q j es hc
    by_cases h : q = p ∧ j = k
    · simp only [step, h, and_self, if_true] at hc ⊢
      exact ⟨es, hc, by simp, List.Subset.refl _, List.nil_subset _⟩
    · simp only [step, h, if_false] at hc ⊢
      exact hI q j es hc
  | readAll p keep =>
    intro q j es hc
    by_cases h : q = p
    · simp only [step, h, if_true] at hc ⊢
      split at hc
      · exact ⟨es, hc, by simp, List.Subset.refl _, List.nil_subset _⟩
      · cases hc
    · simp only [step, h, if_false] at hc ⊢
      exact hI q j es hc
  | write p k added =>
    simp only [step] at hkept ⊢
    cases hc : s.copy p k with
    | some es =>
      simp only [hc, kept_put_iff] at hkept
      obtain ⟨rs, hs, -, hes, -⟩ := hI p k es hc
      refine inv_put hI ?_ (List.subset_append_right es added) hkept
      exact List.append_subset.mpr ⟨by simp [State.entries, hs, hes], by simp⟩
    | none =>
      cases hs : s.shared k with
      | none => exact inv_put hI (by simp) (List.Subset.refl _) (by simp [State.entries, hs])
      | some rs => exact hI

/--
**A run loses no entry**, from any of its states to any later one, exactly when no write of the
run missed anything. The run may be one of any machine whose steps are steps of this one.
-/
theorem kept_run_iff {σ α : Type*} {next : σ → α → σ} {abs : σ → State P K E}
    {act : σ → α → Action P K E} (hsim : ∀ s a, abs (next s a) = step (abs s) (act s a)) {s : σ}
    (hI : Inv (abs s)) (as : List α) :
    (∀ pre mid, pre ++ mid <+: as →
        Kept (abs (Machine.run next s pre)) (abs (Machine.run next s (pre ++ mid))))
      ↔ Machine.EachStep next (fun s a => NothingMissed (abs s) (act s a)) s as := by
  rw [← Machine.eachStep_iff_later (R := fun s s' => Kept (abs s) (abs s'))
    (fun s => Kept.refl (abs s)) fun s t u => Kept.trans (abs s) (abs t) (abs u)]
  simp only [hsim]
  have hinv : ∀ s a, Inv (abs s) → Kept (abs s) (step (abs s) (act s a)) → Inv (abs (next s a)) := by
    intro s a hI hkept
    rw [hsim]
    exact inv_step hI hkept
  constructor
  · exact Machine.eachStep_of_guard (A := fun _ => True) (I := fun s => Inv (abs s))
      (fun s a _ hI hk => hinv s a hI hk)
      (fun s a _ hI hk => (kept_step_iff hI (act s a)).mp hk) hI fun _ _ => trivial
  · exact Machine.eachStep_of_guard (A := fun _ => True) (I := fun s => Inv (abs s))
      (fun s a _ hI hg => hinv s a hI ((kept_step_iff hI (act s a)).mpr hg))
      (fun s a _ hI hg => (kept_step_iff hI (act s a)).mpr hg) hI fun _ _ => trivial

end SharedCopies
