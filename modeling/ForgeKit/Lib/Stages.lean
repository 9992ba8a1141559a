import Mathlib.Data.List.Basic
import Mathlib.Data.List.Nodup

/-!
# Pipelines of stages

A pipeline runs its stages in order. Each stage calls an outside party on a context and gets the
next context or an exception; after each call a check may leave the pipeline. The run records its
calls.

* `runStages_count` — no stage is called twice
* `passedStages_of_ok` — a run that came through called every stage, and each passed
* `runStages_call` — what a call in the trace says about the calls before it
* `PassedStages.invariant` — what every stage keeps holds of the context it is called on
-/

/-- A stage: whom it calls, what an exception there leaves with, and the check after it. -/
structure Stage (κ ε σ γ : Type*) where
  name : κ
  run : γ → Except ε γ
  onError : ε → σ
  exit : γ → Option σ

/-- A call that a pipeline made. -/
structure StageCall (κ ε γ : Type*) where
  stage : κ
  context : γ
  result : Except ε γ

/-- What a run leaves: its calls, and the last context or what it left with. -/
structure StagesRun (κ ε σ γ : Type*) where
  calls : List (StageCall κ ε γ)
  result : Except σ γ

variable {κ ε σ γ : Type*}

/-- Runs the stages in order until one of them leaves. -/
def runStages : List (Stage κ ε σ γ) → γ → StagesRun κ ε σ γ
  | [], c => ⟨[], .ok c⟩
  | stage :: stages, c =>
    match stage.run c with
    | .error e => ⟨[⟨stage.name, c, .error e⟩], .error (stage.onError e)⟩
    | .ok c' =>
      match stage.exit c' with
      | some s => ⟨[⟨stage.name, c, .ok c'⟩], .error s⟩
      | none =>
        let rest := runStages stages c'
        ⟨⟨stage.name, c, .ok c'⟩ :: rest.calls, rest.result⟩

/-- The three ways in which a run of at least one stage goes. -/
theorem runStages_cons (stage : Stage κ ε σ γ) (stages : List (Stage κ ε σ γ)) (c : γ) :
    (∃ e, stage.run c = .error e ∧ runStages (stage :: stages) c
      = ⟨[⟨stage.name, c, .error e⟩], .error (stage.onError e)⟩) ∨
    (∃ c' s, stage.run c = .ok c' ∧ stage.exit c' = some s ∧ runStages (stage :: stages) c
      = ⟨[⟨stage.name, c, .ok c'⟩], .error s⟩) ∨
    ∃ c', stage.run c = .ok c' ∧ stage.exit c' = none ∧ runStages (stage :: stages) c
      = ⟨⟨stage.name, c, .ok c'⟩ :: (runStages stages c').calls, (runStages stages c').result⟩ := by
  rw [runStages]
  cases hrun : stage.run c with
  | error e => exact .inl ⟨e, rfl, rfl⟩
  | ok c' =>
    dsimp only
    cases hexit : stage.exit c' with
    | some s => exact .inr (.inl ⟨c', s, rfl, hexit, rfl⟩)
    | none => exact .inr (.inr ⟨c', rfl, hexit, rfl⟩)

/-- The calls name the stages in their order, up to where the run left. -/
theorem runStages_names (stages : List (Stage κ ε σ γ)) (c : γ) :
    (runStages stages c).calls.map (·.stage) <+: stages.map (·.name) := by
  induction stages generalizing c with
  | nil => exact List.prefix_refl _
  | cons stage stages ih =>
    rcases runStages_cons stage stages c with ⟨e, -, h⟩ | ⟨c', s, -, -, h⟩ | ⟨c', -, -, h⟩
    · rw [h]
      exact ⟨stages.map (·.name), rfl⟩
    · rw [h]
      exact ⟨stages.map (·.name), rfl⟩
    · rw [h]
      exact List.cons_prefix_cons.mpr ⟨rfl, ih c'⟩

/-- When every stage has its own name, each is called at most once. -/
theorem runStages_count [BEq κ] [LawfulBEq κ] {stages : List (Stage κ ε σ γ)}
    (h : (stages.map (·.name)).Nodup) (c : γ) (k : κ) :
    ((runStages stages c).calls.map (·.stage)).count k ≤ 1 :=
  List.nodup_iff_count_le_one.mp (h.sublist (runStages_names stages c).sublist) k

/--
The calls before a call: each stage before it was called on the context that the one before
returned, came through its check, and the last of them returned the context of the call.
-/
inductive PassedStages : List (Stage κ ε σ γ) → List (StageCall κ ε γ) → γ → γ → Prop
  | nil (c : γ) : PassedStages [] [] c c
  | cons {stage : Stage κ ε σ γ} {stages : List (Stage κ ε σ γ)} {calls : List (StageCall κ ε γ)}
      {c c' d : γ} (run : stage.run c = .ok c') (exit : stage.exit c' = none)
      (rest : PassedStages stages calls c' d) :
      PassedStages (stage :: stages) (⟨stage.name, c, .ok c'⟩ :: calls) c d

/-- A run that came through called every stage, and each of them passed. -/
theorem passedStages_of_ok {stages : List (Stage κ ε σ γ)} {c d : γ}
    (h : (runStages stages c).result = .ok d) : PassedStages stages (runStages stages c).calls c d := by
  induction stages generalizing c with
  | nil =>
    obtain rfl := Except.ok.inj h
    exact .nil c
  | cons stage stages ih =>
    rcases runStages_cons stage stages c with ⟨e, -, heq⟩ | ⟨c', s, -, -, heq⟩ | ⟨c', hrun, hexit, heq⟩
    · rw [heq] at h
      cases h
    · rw [heq] at h
      cases h
    · rw [heq] at h ⊢
      exact .cons hrun hexit (ih h)

/-- Every call was made by a stage, on a context that all stages before it passed on. -/
theorem runStages_call {stages : List (Stage κ ε σ γ)} {c : γ} {before after : List (StageCall κ ε γ)}
    {call : StageCall κ ε γ} (h : (runStages stages c).calls = before ++ call :: after) :
    ∃ earlier stage later, stages = earlier ++ stage :: later ∧ call.stage = stage.name
      ∧ call.result = stage.run call.context ∧ PassedStages earlier before c call.context := by
  induction stages generalizing c before with
  | nil => simp [runStages] at h
  | cons stage stages ih =>
    cases before with
    | nil =>
      refine ⟨[], stage, stages, rfl, ?_⟩
      rcases runStages_cons stage stages c with ⟨e, hrun, heq⟩ | ⟨c', s, hrun, -, heq⟩ | ⟨c', hrun, -, heq⟩
      all_goals
        rw [heq] at h
        obtain ⟨rfl, -⟩ := List.cons.inj h
        exact ⟨rfl, hrun.symm, .nil c⟩
    | cons first before =>
      rcases runStages_cons stage stages c with ⟨e, -, heq⟩ | ⟨c', s, -, -, heq⟩ | ⟨c', hrun, hexit, heq⟩
      · rw [heq] at h
        simp at h
      · rw [heq] at h
        simp at h
      · rw [heq] at h
        obtain ⟨rfl, htail⟩ := List.cons.inj h
        obtain ⟨earlier, called, later, rfl, hname, hresult, hpassed⟩ := ih htail
        exact ⟨stage :: earlier, called, later, rfl, hname, hresult, .cons hrun hexit hpassed⟩

/-- When every stage has its own name, the stages before a call are those before its name. -/
theorem passedStages_before [DecidableEq κ] {stages : List (Stage κ ε σ γ)} {c : γ}
    (hnames : (stages.map (·.name)).Nodup) {before after : List (StageCall κ ε γ)}
    {call : StageCall κ ε γ} (h : (runStages stages c).calls = before ++ call :: after) :
    PassedStages (stages.takeWhile (·.name ≠ call.stage)) before c call.context := by
  obtain ⟨earlier, stage, later, rfl, hname, -, hpassed⟩ := runStages_call h
  have hne : ∀ s ∈ earlier, decide (s.name ≠ call.stage) = true := by
    intro s hs
    rw [List.map_append, List.map_cons] at hnames
    refine decide_eq_true fun heq => ?_
    exact List.disjoint_of_nodup_append hnames (List.mem_map_of_mem hs)
      (by rw [heq, hname]; exact List.mem_cons_self)
  rw [List.takeWhile_append_of_pos hne, List.takeWhile_cons_of_neg (by simp [hname]),
    List.append_nil]
  exact hpassed

/-- What every stage keeps holds of the last context of stages that passed. -/
theorem PassedStages.invariant {I : γ → Prop} {stages : List (Stage κ ε σ γ)}
    {calls : List (StageCall κ ε γ)} {c d : γ} (h : PassedStages stages calls c d)
    (hkeep : ∀ stage ∈ stages, ∀ c c', I c → stage.run c = .ok c' → I c') (hc : I c) : I d := by
  induction h with
  | nil => exact hc
  | cons run exit _ ih =>
    refine ih (fun stage hs => hkeep stage (List.mem_cons_of_mem _ hs)) ?_
    exact hkeep _ List.mem_cons_self _ _ hc run
