import Mathlib.Data.List.Infix

/-!
# Machines

A machine is a total step function `step : σ → α → σ`. An action that is not enabled leaves
the state as it is, so every list of actions is a run, and "for every interleaving" is
"for every list of actions".

* `Always P` — `P` holds in every state of a run, both ends included
* `EachStep Q` — every action of a run satisfies `Q` in the state it is taken from
* `always_of_step` — the invariant rule
* `eachStep_iff_later` — a preorder along a run, step by step or between any two of its states
* `always_iff_eachStep` — the exact-guard rule: a property that some steps break holds along
  a run exactly when every step of that run satisfies the guard
* `run_iff_eachStep` — the same for the end of a run, where what is broken stays broken
-/

namespace Machine

variable {σ α : Type*} {step : σ → α → σ}

/-- The state a list of actions leads to. -/
def run (step : σ → α → σ) (s : σ) (as : List α) : σ := as.foldl step s

/-- `P` holds in every state of the run. -/
def Always (step : σ → α → σ) (P : σ → Prop) : σ → List α → Prop
  | s, [] => P s
  | s, a :: as => P s ∧ Always step P (step s a) as

/-- Every action of the run satisfies `Q` in the state it is taken from. -/
def EachStep (step : σ → α → σ) (Q : σ → α → Prop) : σ → List α → Prop
  | _, [] => True
  | s, a :: as => Q s a ∧ EachStep step Q (step s a) as

instance Always.decidable (P : σ → Prop) [DecidablePred P] :
    (s : σ) → (as : List α) → Decidable (Always step P s as)
  | s, [] => inferInstanceAs (Decidable (P s))
  | s, a :: as =>
    have := Always.decidable P (step s a) as
    inferInstanceAs (Decidable (P s ∧ Always step P (step s a) as))

instance EachStep.decidable (Q : σ → α → Prop) [∀ s a, Decidable (Q s a)] :
    (s : σ) → (as : List α) → Decidable (EachStep step Q s as)
  | _, [] => inferInstanceAs (Decidable True)
  | s, a :: as =>
    have := EachStep.decidable Q (step s a) as
    inferInstanceAs (Decidable (Q s a ∧ EachStep step Q (step s a) as))

/-! ## Runs -/

@[simp] theorem run_nil (s : σ) : run step s [] = s := rfl

@[simp] theorem run_cons (s : σ) (a : α) (as : List α) :
    run step s (a :: as) = run step (step s a) as := rfl

theorem run_append (s : σ) (as bs : List α) :
    run step s (as ++ bs) = run step (run step s as) bs := List.foldl_append

theorem run_concat (s : σ) (as : List α) (a : α) :
    run step s (as ++ [a]) = step (run step s as) a := by
  rw [run_append]; rfl

/-! ## `Always` and `EachStep` over prefixes -/

theorem Always.head {P : σ → Prop} {s : σ} {as : List α} (h : Always step P s as) : P s := by
  cases as with
  | nil => exact h
  | cons a as => exact h.1

theorem always_append {P : σ → Prop} {s : σ} {as bs : List α} :
    Always step P s (as ++ bs) ↔ Always step P s as ∧ Always step P (run step s as) bs := by
  induction as generalizing s with
  | nil => exact ⟨fun h => ⟨h.head, h⟩, fun h => h.2⟩
  | cons a as ih =>
    constructor
    · rintro ⟨hp, h⟩
      obtain ⟨h1, h2⟩ := ih.mp h
      exact ⟨⟨hp, h1⟩, h2⟩
    · rintro ⟨⟨hp, h1⟩, h2⟩
      exact ⟨hp, ih.mpr ⟨h1, h2⟩⟩

theorem eachStep_append {Q : σ → α → Prop} {s : σ} {as bs : List α} :
    EachStep step Q s (as ++ bs) ↔ EachStep step Q s as ∧ EachStep step Q (run step s as) bs := by
  induction as generalizing s with
  | nil => exact ⟨fun h => ⟨trivial, h⟩, fun h => h.2⟩
  | cons a as ih =>
    constructor
    · rintro ⟨hq, h⟩
      obtain ⟨h1, h2⟩ := ih.mp h
      exact ⟨⟨hq, h1⟩, h2⟩
    · rintro ⟨⟨hq, h1⟩, h2⟩
      exact ⟨hq, ih.mpr ⟨h1, h2⟩⟩

/-- `Always` speaks about the states that the prefixes of the run lead to. -/
theorem always_iff_prefix {P : σ → Prop} {s : σ} {as : List α} :
    Always step P s as ↔ ∀ pre, pre <+: as → P (run step s pre) := by
  constructor
  · rintro h pre ⟨post, rfl⟩
    exact (always_append.mp h).2.head
  · intro h
    induction as generalizing s with
    | nil => exact h [] (List.prefix_refl _)
    | cons a as ih =>
      refine ⟨h [] (List.nil_prefix), ih fun pre hpre => ?_⟩
      exact h (a :: pre) (List.cons_prefix_cons.mpr ⟨rfl, hpre⟩)

/--
A preorder on states that each step of a run follows holds from each state of the run to each
later one.
-/
theorem eachStep_iff_later {R : σ → σ → Prop} (hrefl : ∀ s, R s s)
    (htrans : ∀ s t u, R s t → R t u → R s u) {s : σ} {as : List α} :
    EachStep step (fun s a => R s (step s a)) s as
      ↔ ∀ pre mid, pre ++ mid <+: as → R (run step s pre) (run step s (pre ++ mid)) := by
  constructor
  · rintro h pre mid ⟨post, rfl⟩
    rw [run_append]
    have hmid := (eachStep_append.mp (eachStep_append.mp h).1).2
    generalize run step s pre = u at hmid
    clear h
    induction mid generalizing u with
    | nil => exact hrefl u
    | cons a mid ih => exact htrans u (step u a) _ hmid.1 (ih (step u a) hmid.2)
  · intro h
    induction as generalizing s with
    | nil => trivial
    | cons a as ih =>
      refine ⟨h [] [a] ⟨as, rfl⟩, ih fun pre mid hpre => ?_⟩
      exact h (a :: pre) mid (List.cons_prefix_cons.mpr ⟨rfl, hpre⟩)

/-! ## Rules

`A` restricts the actions a run may use, `I` is an invariant that all of them keep.
-/

variable {A : α → Prop} {I : σ → Prop}

/-- **The invariant rule.** -/
theorem always_of_step (hI : ∀ s a, A a → I s → I (step s a)) {s : σ} {as : List α}
    (hs : I s) (hA : ∀ a ∈ as, A a) : Always step I s as := by
  induction as generalizing s with
  | nil => exact hs
  | cons a as ih =>
    exact ⟨hs, ih (hI s a (hA a (by simp)) hs) fun b hb => hA b (by simp [hb])⟩

theorem run_of_step (hI : ∀ s a, A a → I s → I (step s a)) {s : σ} {as : List α}
    (hs : I s) (hA : ∀ a ∈ as, A a) : I (run step s as) :=
  always_iff_prefix.mp (always_of_step hI hs hA) as (List.prefix_refl _)

/-- What holds of one step from every state with the invariant holds of each step of a run. -/
theorem eachStep_of_step {Q : σ → α → Prop} (hI : ∀ s a, A a → I s → I (step s a))
    (hQ : ∀ s a, A a → I s → Q s a) {s : σ} {as : List α} (hs : I s) (hA : ∀ a ∈ as, A a) :
    EachStep step Q s as := by
  induction as generalizing s with
  | nil => trivial
  | cons a as ih =>
    have ha : A a := hA a (by simp)
    exact ⟨hQ s a ha hs, ih (hI s a ha hs) fun b hb => hA b (by simp [hb])⟩

/-- The invariant rule for runs whose steps satisfy a guard. -/
theorem always_of_guard {G : σ → α → Prop} (hI : ∀ s a, A a → I s → G s a → I (step s a)) {s : σ}
    {as : List α} (hs : I s) (hA : ∀ a ∈ as, A a) (hG : EachStep step G s as) :
    Always step I s as := by
  induction as generalizing s with
  | nil => exact hs
  | cons a as ih =>
    obtain ⟨hg, htail⟩ := hG
    exact ⟨hs, ih (hI s a (hA a (by simp)) hs hg) (fun b hb => hA b (by simp [hb])) htail⟩

/-- What a run loses although guarded steps keep it is lost after a step that the guard forbids. -/
theorem exists_unguarded {G : σ → α → Prop} (hI : ∀ s a, A a → I s → G s a → I (step s a)) {s : σ}
    {as : List α} (hs : I s) (hA : ∀ a ∈ as, A a) (hlost : ¬I (run step s as)) :
    ∃ pre a post, as = pre ++ a :: post ∧ I (run step s pre) ∧ ¬G (run step s pre) a := by
  induction as generalizing s with
  | nil => exact absurd hs hlost
  | cons a as ih =>
    by_cases hg : G s a
    · obtain ⟨pre, b, post, rfl, hpre, hb⟩ :=
        ih (hI s a (hA a (by simp)) hs hg) (fun b hb => hA b (by simp [hb])) hlost
      exact ⟨a :: pre, b, post, rfl, hpre, hb⟩
    · exact ⟨[], a, as, rfl, hs, hg⟩

/-- What a guarded step keeps and gives, each step of a guarded run gives. -/
theorem eachStep_of_guard {G Q : σ → α → Prop} (hI : ∀ s a, A a → I s → G s a → I (step s a))
    (hQ : ∀ s a, A a → I s → G s a → Q s a) {s : σ} {as : List α} (hs : I s)
    (hA : ∀ a ∈ as, A a) (hG : EachStep step G s as) : EachStep step Q s as := by
  induction as generalizing s with
  | nil => trivial
  | cons a as ih =>
    have ha : A a := hA a (by simp)
    obtain ⟨hg, htail⟩ := hG
    exact ⟨hQ s a ha hs hg, ih (hI s a ha hs hg) (fun b hb => hA b (by simp [hb])) htail⟩

/-- Two step properties that agree under the invariant agree along every run. -/
theorem eachStep_congr {Q R : σ → α → Prop} (hI : ∀ s a, A a → I s → I (step s a))
    (hQR : ∀ s a, A a → I s → (Q s a ↔ R s a)) {s : σ} {as : List α} (hs : I s)
    (hA : ∀ a ∈ as, A a) : EachStep step Q s as ↔ EachStep step R s as := by
  induction as generalizing s with
  | nil => exact Iff.rfl
  | cons a as ih =>
    have ha : A a := hA a (by simp)
    exact and_congr (hQR s a ha hs) (ih (hI s a ha hs) fun b hb => hA b (by simp [hb]))

/--
**The exact-guard rule.**

If a step from a good state leads to a good state exactly when the guard `G` holds of it,
then a run stays good exactly when each of its steps satisfies `G`.
-/
theorem always_iff_eachStep {P : σ → Prop} {G : σ → α → Prop}
    (hI : ∀ s a, A a → I s → I (step s a))
    (hG : ∀ s a, A a → I s → P s → (P (step s a) ↔ G s a)) {s : σ} {as : List α}
    (hs : I s) (hp : P s) (hA : ∀ a ∈ as, A a) :
    Always step P s as ↔ EachStep step G s as := by
  induction as generalizing s with
  | nil => exact iff_of_true hp trivial
  | cons a as ih =>
    have ha : A a := hA a (by simp)
    have htail : ∀ b ∈ as, A b := fun b hb => hA b (by simp [hb])
    constructor
    · rintro ⟨-, h⟩
      exact ⟨(hG s a ha hs hp).mp h.head, (ih (hI s a ha hs) h.head htail).mp h⟩
    · rintro ⟨hg, h⟩
      have hp' : P (step s a) := (hG s a ha hs hp).mpr hg
      exact ⟨hp, (ih (hI s a ha hs) hp' htail).mpr h⟩

/--
The exact-guard rule for the end of a run: where a step that breaks the guard leads to a state that
stays bad, the run ends well exactly when each of its steps satisfies the guard.
-/
theorem run_iff_eachStep {P L : σ → Prop} {G : σ → α → Prop}
    (hI : ∀ s a, A a → I s → I (step s a))
    (hG : ∀ s a, A a → I s → P s → G s a → P (step s a))
    (hL : ∀ s a, A a → I s → P s → ¬G s a → L (step s a))
    (hstay : ∀ s a, A a → I s → L s → L (step s a)) (hbad : ∀ s, I s → L s → ¬P s) {s : σ}
    {as : List α} (hs : I s) (hp : P s) (hA : ∀ a ∈ as, A a) :
    P (run step s as) ↔ EachStep step G s as := by
  have hlost : ∀ {as : List α} {s : σ}, (∀ a ∈ as, A a) → I s → L s → ¬P (run step s as) := by
    intro as s hA hs hl
    have hkeep : ∀ s a, A a → I s ∧ L s → I (step s a) ∧ L (step s a) := by
      rintro s a ha ⟨hs, hl⟩
      exact ⟨hI s a ha hs, hstay s a ha hs hl⟩
    obtain ⟨hs, hl⟩ := run_of_step hkeep ⟨hs, hl⟩ hA
    exact hbad _ hs hl
  induction as generalizing s with
  | nil => exact iff_of_true hp trivial
  | cons a as ih =>
    have ha : A a := hA a (by simp)
    have htail : ∀ b ∈ as, A b := fun b hb => hA b (by simp [hb])
    by_cases hg : G s a
    · exact (ih (hI s a ha hs) (hG s a ha hs hp hg) htail).trans (and_iff_right hg).symm
    · rw [run_cons]
      exact iff_of_false (hlost htail (hI s a ha hs) (hL s a ha hs hp hg)) fun h => hg h.1

end Machine
