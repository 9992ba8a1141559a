import ForgeKit.Lib.Machine

/-!
# Shared records of fields, written back whole

Several processes load keyed records of fields from a shared store, change some fields of their
copy and write the whole copy back. Nothing compares the copy with the store. A write *assigns* the
fields it means to change; every other field it writes as it was in the copy.

* `kept_write_iff` — a write keeps the fields it does not assign exactly when its copy is fresh
* `kept_run_iff` — the same for every field and every later state of a run
-/

namespace SharedMaps

variable {P K F V : Type*}

/-- The shared records and the copies that processes hold. -/
structure State (P K F V : Type*) where
  shared : K → Option (F → Option V)
  copy : P → K → Option (F → Option V)

/-- The value of a field in the store. -/
def State.field (s : State P K F V) (k : K) (f : F) : Option V := (s.shared k).bind (· f)

inductive Action (P K F V : Type*) where
  /-- A step that touches no record. -/
  | skip
  /-- Loads the records that `keep` selects; other copies stay. -/
  | load (p : P) (keep : K → Bool)
  /-- Writes a copy back; `some none` removes a field, `none` leaves it as it is in the copy. -/
  | write (p : P) (k : K) (assign : F → Option (Option V))

/-- The field is one that the step assigns. -/
def Action.Assigns : Action P K F V → K → F → Prop
  | .write _ j assign, k, f => j = k ∧ assign f ≠ none
  | _, _, _ => False

/-- Every field of the first state that is not excepted has its value in the second one. -/
def Kept (except : K → F → Prop) (s s' : State P K F V) : Prop :=
  ∀ k f v, s.field k f = some v → ¬except k f → s'.field k f = some v

variable [DecidableEq P] [DecidableEq K]

/-- One step. A write uses the copy up; without a copy it does nothing. -/
def step (s : State P K F V) : Action P K F V → State P K F V
  | .skip => s
  | .load p keep =>
    { s with copy := fun q j => if q = p ∧ keep j = true then s.shared j else s.copy q j }
  | .write p k assign =>
    match s.copy p k with
    | none => s
    | some fields =>
      { shared := fun j => if j = k then some fun f => (assign f).getD (fields f) else s.shared j
        copy := fun q j => if q = p ∧ j = k then none else s.copy q j }

/-- The copy that a write puts back has the stored value of every field the write does not assign. -/
def Fresh (s : State P K F V) : Action P K F V → Prop
  | .write p k assign => ∀ fields, s.copy p k = some fields →
      ∀ f v, assign f = none → s.field k f = some v → fields f = some v
  | _ => True

/-- **A step keeps what it does not assign** exactly when it writes no stale copy back. -/
theorem kept_step_iff (s : State P K F V) (a : Action P K F V) :
    Kept a.Assigns s (step s a) ↔ Fresh s a := by
  cases a with
  | skip => exact iff_of_true (fun k f v h _ => h) trivial
  | load p keep => exact iff_of_true (fun k f v h _ => h) trivial
  | write p k assign =>
    simp only [step, Fresh]
    cases hc : s.copy p k with
    | none => exact iff_of_true (fun k f v h _ => h) (by simp)
    | some fields =>
      simp only [Option.some.injEq, forall_eq']
      constructor
      · intro h f v hassign hv
        have hkept := h k f v hv fun ha => ha.2 hassign
        simpa [State.field, hassign] using hkept
      · intro h j f v hv hno
        by_cases hj : j = k
        · subst hj
          have hassign : assign f = none := by
            by_contra hsome
            exact hno ⟨rfl, hsome⟩
          simpa [State.field, hassign] using h f v hassign hv
        · simpa [State.field, hj] using hv

section Runs

variable {σ α : Type*} {next : σ → α → σ} {abs : σ → State P K F V} {act : σ → α → Action P K F V}

/-- No step of a run assigns the field. -/
def Unassigned (next : σ → α → σ) (act : σ → α → Action P K F V) (k : K) (f : F) :
    σ → List α → Prop :=
  Machine.EachStep next fun s a => ¬(act s a).Assigns k f

/--
**A run keeps every field until a step assigns it**, from any of its states to any later one,
exactly when no step of it writes a stale copy back. The run may be one of any machine whose steps
are steps of this one.
-/
theorem kept_run_iff (hsim : ∀ s a, abs (next s a) = step (abs s) (act s a)) {s : σ} (as : List α) :
    (∀ pre mid, pre ++ mid <+: as → Kept (fun k f => ¬Unassigned next act k f (Machine.run next s pre) mid)
        (abs (Machine.run next s pre)) (abs (Machine.run next s (pre ++ mid))))
      ↔ Machine.EachStep next (fun s a => Fresh (abs s) (act s a)) s as := by
  constructor
  · intro h
    induction as generalizing s with
    | nil => trivial
    | cons a as ih =>
      refine ⟨?_, ih fun pre mid hpre => ?_⟩
      · show Fresh (abs s) (act s a)
        rw [← kept_step_iff, ← hsim]
        intro k f v hv hno
        exact h [] [a] ⟨as, rfl⟩ k f v hv (not_not.mpr ⟨hno, trivial⟩)
      · exact h (a :: pre) mid (List.cons_prefix_cons.mpr ⟨rfl, hpre⟩)
  · rintro h pre mid ⟨post, rfl⟩ k f v hv hun
    rw [Machine.run_append]
    have hmid := (Machine.eachStep_append.mp (Machine.eachStep_append.mp h).1).2
    replace hun : Unassigned next act k f (Machine.run next s pre) mid := not_not.mp hun
    generalize Machine.run next s pre = u at hmid hv hun
    clear h
    induction mid generalizing u with
    | nil => exact hv
    | cons a mid ih =>
      obtain ⟨hno, hrest⟩ := hun
      refine ih (next u a) hmid.2 ?_ hrest
      rw [hsim]
      exact (kept_step_iff (abs u) (act u a)).mpr hmid.1 k f v hv hno

end Runs

end SharedMaps
