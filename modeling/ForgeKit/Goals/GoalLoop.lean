import ForgeKit.Lib.Machine
import ForgeKit.Goals.ContinuationTick
import ForgeKit.Goals.ExecTick
import ForgeKit.Goals.SchedulerTick

/-!
# Runs of the goal loop

A run is any list of ticks of the three tickers, each with its own bounds and with whatever the
outside answers it. A restart between two ticks changes nothing: a ticker keeps no state.

* `goalStep` — one tick
* `goalStep_forall` — what holds of each goal of the store, step by step
-/

namespace ForgeKit.Goals

open GoalStore

/-- A tick of one of the three tickers. -/
inductive GoalTick where
  | schedule (t : SchedulerTick)
  | exec (t : ExecTick)
  | continuation (t : ContinuationTick)

/-- The runtime after a tick. -/
def goalStep (rt : GoalRuntime) : GoalTick → GoalRuntime
  | .schedule t => t.schedulerTick rt
  | .exec t => t.execTick rt
  | .continuation t => t.continuationTick rt

/-- What one tick makes of a goal of the store. -/
inductive GoalChange (rt : GoalRuntime) (g : Goal) : GoalTick → Goal → Prop
  | same (a : GoalTick) : GoalChange rt g a g
  | scheduled {t : SchedulerTick} {g' : Goal} (hmem : g ∈ t.batch rt.store)
      (h : ScheduledGoal t g g') : GoalChange rt g (.schedule t) g'
  | executed {t : ExecTick} {calls : List String} {g' : Goal}
      (h : ExecChange (ExecTick.loadedById rt.store) rt.logs g calls g') :
      GoalChange rt g (.exec t) g'
  | continued {t : ContinuationTick} {g1 g' : Goal} (h : Settled t g g1)
      (hmoved : PlanMoved (t.moves rt.store) g1 g') : GoalChange rt g (.continuation t) g'

/-- A goal that one tick makes: only the scheduler makes goals. -/
inductive GoalMade (rt : GoalRuntime) : GoalTick → Goal → Prop
  | scheduled {t : SchedulerTick} {g' : Goal} (h : t.Made (t.batch rt.store) g') :
      GoalMade rt (.schedule t) g'

/-- **A goal of the store after a tick** was there before, or the scheduler made it. -/
theorem goalStep_get {rt : GoalRuntime} {a : GoalTick} {k : String} {g' : Goal}
    (h : get (goalStep rt a).store k = some g') :
    (∃ g, get rt.store k = some g ∧ GoalChange rt g a g')
      ∨ get rt.store k = none ∧ GoalMade rt a g' := by
  cases a with
  | schedule t =>
    cases SchedulerTick.schedulerTick_cases h with
    | same hget => exact .inl ⟨g', hget, .same _⟩
    | scheduled g hmem hget hchange => exact .inl ⟨g, hget, .scheduled hmem hchange⟩
    | made hget hmade => exact .inr ⟨hget, .scheduled hmade⟩
  | exec t =>
    cases hget : get rt.store k with
    | none =>
      rw [show get (goalStep rt (.exec t)).store k = none from (ExecTick.execTick_none hget).1] at h
      cases h
    | some g =>
      obtain ⟨g2, calls, hget2, hchange, -⟩ := ExecTick.execTick_get (t := t) hget
      rw [show get (goalStep rt (.exec t)).store k = some g2 from hget2, Option.some.injEq] at h
      subst h
      exact .inl ⟨g, rfl, .executed hchange⟩
  | continuation t =>
    cases hget : get rt.store k with
    | none =>
      rw [show get (goalStep rt (.continuation t)).store k = none from
        ContinuationTick.continuationTick_none hget] at h
      cases h
    | some g =>
      obtain ⟨g1, g2, hsettled, hmoved, hget2⟩ :=
        ContinuationTick.continuationTick_get (t := t) hget
      rw [show get (goalStep rt (.continuation t)).store k = some g2 from hget2,
        Option.some.injEq] at h
      subst h
      exact .inl ⟨g, rfl, .continued hsettled hmoved⟩

/-- What each goal of a store satisfies. -/
def GoalStore.Forall (P : Goal → Prop) (store : GoalStore) : Prop :=
  ∀ k g, get store k = some g → P g

/-- The rule for what holds of each goal: a tick keeps it, and a goal that is made has it. -/
theorem goalStep_forall {P : Goal → Prop} {rt : GoalRuntime} {a : GoalTick}
    (hchange : ∀ k g g', get rt.store k = some g → P g → GoalChange rt g a g' → P g')
    (hmade : ∀ g, GoalMade rt a g → P g) (h : GoalStore.Forall P rt.store) :
    GoalStore.Forall P (goalStep rt a).store := by
  intro k g' hget'
  rcases goalStep_get hget' with ⟨g, hget, hg⟩ | ⟨-, hnew⟩
  · exact hchange k g g' hget (h k g hget) hg
  · exact hmade g' hnew

/-! ## A store with one goal -/

def openGoal : Goal := { id := "goal-1", title := "tidy up", status := .active }

def todoPacket : RepoImprovementPacket := { finding := "TODO/FIXME 3", affectedArea := "docs/code" }

theorem forall_save_empty {P : Goal → Prop} {g : Goal} (h : P g) :
    GoalStore.Forall P (save Table.empty g) := by
  intro k g' hget
  rw [get_save] at hget
  split at hget
  · cases hget; exact h
  · cases hget

end ForgeKit.Goals
