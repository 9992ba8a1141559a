import ForgeKit.Goals.PlanCompletion

/-!
# Which plan a continuation tick moves (`goal_continuation_tick`)

The bound of a tick is cut off the list of active parents, newest update first, before the tick looks
at what they wait for. A parent that waits keeps its place, since nothing stamps it again.

* `unchanged_iff` — when a tick changes no goal
* `servesPlans_iff` — when a tick that changes nothing means that no plan could move
-/

namespace ForgeKit.Goals

open GoalStore

/-- The next move of the plan is to advance or to complete, and the table allows it. -/
def CanMove (store : GoalStore) (parent : Goal) : Prop :=
  let action := continuationAction parent (parent.children.filterMap (loadedGet store))
  action.kind = .advance
      ∧ (∃ child, action.targetId.bind (loadedGet store) = some child
          ∧ Transitions.canTransition child.status .active = true)
    ∨ action.kind = .complete ∧ Transitions.canTransition parent.status .done = true

namespace ContinuationTick

variable {t : ContinuationTick}

/-! ## The first two passes -/

/-- A stuck goal without attempts left waits for the operator. -/
theorem replanStuck_escalate {g : Goal} (hloaded : isLoaded g = true) (hactive : g.status = .active)
    (hleaf : g.children = []) (hstuck : isStuck g = true)
    (hspent : t.maxReplanAttempts ≤ replanAttempts g) :
    (t.replanStuck g).status = .awaitingApproval := by
  unfold replanStuck
  rw [if_pos ⟨hloaded, hactive, hleaf, hstuck⟩]
  rcases replan_cases g t.maxReplanAttempts with ⟨hnot, -⟩ | ⟨-, hleft, -⟩ | ⟨-, -, haction⟩
  · rw [hstuck] at hnot; cases hnot
  · omega
  · let g' := g.addEvidence .blocked (replan g t.maxReplanAttempts).reason none (t.clock g.id)
    have happly : Transitions.apply g' .awaitingApproval (t.clock g.id)
        = .ok (g'.withStatus .awaitingApproval (t.clock g.id)) :=
      Transitions.apply_of_canTransition _ (by simp [g', hactive]; decide) (by simp [g', hactive])
        (by simp)
    simp only [haction]
    rw [happly]
    rfl

/-- The active leaf goals that the first two passes change. -/
def Settles (g : Goal) : Prop :=
  isLoaded g = true ∧ g.status = .active ∧ g.children = []
    ∧ (isGoalComplete g = true ∨ isStuck g = true)

theorem settled_eq_self_iff {g : Goal} : t.replanStuck (t.rollUp g) = g ↔ ¬ Settles g := by
  constructor
  · rintro heq ⟨hloaded, hactive, hleaf, hcomplete | hstuck⟩
    · obtain ⟨summary, ts, updatedAt, hroll⟩ :=
        rollUp_complete (t := t) hloaded hactive hleaf hcomplete
      have hkeep : t.replanStuck (t.rollUp g) = t.rollUp g := by
        unfold replanStuck
        rw [if_neg]
        rintro ⟨-, hst, -⟩
        rw [hroll] at hst
        cases hst
      have hstatus := congrArg Goal.status (hkeep.symm.trans heq)
      rw [hroll, hactive] at hstatus
      cases hstatus
    · have hnot : isGoalComplete g ≠ true := fun hc =>
        (isStuck_iff.mp hstuck).1 (isGoalComplete_iff.mp hc).2.2.2.2
      have hroll : t.rollUp g = g := by
        unfold rollUp
        rw [if_neg fun h => hnot h.2.2.2]
      rw [hroll] at heq
      by_cases hleft : replanAttempts g < t.maxReplanAttempts
      · obtain ⟨summary, ts, updatedAt, hretry⟩ :=
          replanStuck_retry (t := t) hloaded hactive hleaf hstuck hleft
        have hevidence := congrArg Goal.evidence (hretry.symm.trans heq)
        exact absurd (List.append_right_eq_self.mp hevidence) (List.cons_ne_nil _ _)
      · have hstatus := replanStuck_escalate (t := t) hloaded hactive hleaf hstuck
          (Nat.le_of_not_lt hleft)
        rw [heq, hactive] at hstatus
        cases hstatus
  · intro hnot
    have hroll : t.rollUp g = g := by
      unfold rollUp
      rw [if_neg fun h => hnot ⟨h.1, h.2.1, h.2.2.1, .inl h.2.2.2⟩]
    rw [hroll]
    unfold replanStuck
    rw [if_neg fun h => hnot ⟨h.1, h.2.1, h.2.2.1, .inr h.2.2.2⟩]

theorem settled_eq {store : GoalStore} (h : ∀ k g, get store k = some g → ¬ Settles g) :
    t.settled store = store := by
  have hrow : ∀ g ∈ store.rows, t.replanStuck (t.rollUp g) = g := fun g hg =>
    settled_eq_self_iff.mpr (h g.id g (Table.find?_of_mem hg))
  apply Table.ext
  show (store.rows.map t.rollUp).map t.replanStuck = store.rows
  rw [List.map_map]
  exact (List.map_congr_left hrow).trans (List.map_id' _)

/-! ## The third pass -/

theorem mem_planParents {store : GoalStore} {parentId : String}
    (h : parentId ∈ t.planParents store) :
    ∃ parent, loadedGet store parentId = some parent ∧ parent.status = .active
      ∧ parent.children ≠ [] := by
  obtain ⟨parent, hparent, rfl⟩ := List.mem_map.mp h
  obtain ⟨hload, hparent⟩ := List.mem_filter.mp (List.mem_of_mem_take hparent)
  have hparent : parent.children ≠ [] ∧ parent.status = .active := by simpa using hparent
  exact ⟨parent, loadedGet_some.mpr ⟨get_of_mem_loadAll hload, (mem_loadAll.mp hload).2⟩,
    hparent.2, hparent.1⟩

/-- The child that a plan advances to is a draft. -/
theorem draft_of_advance {store : GoalStore} {parent child : Goal}
    (hkind : (continuationAction parent (parent.children.filterMap (loadedGet store))).kind
      = .advance)
    (hchild : (continuationAction parent (parent.children.filterMap (loadedGet store))).targetId.bind
      (loadedGet store) = some child) : child.status = .draft := by
  obtain ⟨cid, htarget, hget⟩ := Option.bind_eq_some_iff.mp hchild
  obtain ⟨c, hc, hid, hdraft⟩ := continuationAction_advance hkind htarget
  obtain ⟨cid', -, hget'⟩ := mem_childrenInOrder_loaded.mp hc
  have hid' : c.id = cid' := get_id (loadedGet_some.mp hget').1
  rw [← hid', hid, hget, Option.some.injEq] at hget'
  rw [hget']
  exact hdraft

theorem movedGoal_draft {child : Goal} (h : child.status = .draft) :
    (t.movedGoal (.activate child)).isSome = true := by
  have happly : Transitions.apply child .active (t.clock child.id)
      = .ok (child.withStatus .active (t.clock child.id)) :=
    Transitions.apply_of_canTransition _ (by rw [h]; decide) (by simp [h]) nofun
  rw [movedGoal, happly]
  rfl

theorem movedGoal_active {parent : Goal} (h : parent.status = .active) (totalSteps : Nat) :
    (t.movedGoal (.close parent totalSteps)).isSome = true := by
  unfold movedGoal
  dsimp only
  rw [Transitions.apply_of_canTransition _ (by simp [h]; decide) (by simp [h]) (by simp)]
  rfl

/-- The ticker makes a move at an active parent exactly if the plan can move. -/
theorem movedGoal_isSome_iff {store : GoalStore} {parentId : String} {parent : Goal}
    (hparent : loadedGet store parentId = some parent) (hactive : parent.status = .active) :
    ((planMove store parentId).bind t.movedGoal).isSome = true ↔ CanMove store parent := by
  unfold planMove CanMove
  simp only [hparent]
  cases hkind : (continuationAction parent (parent.children.filterMap (loadedGet store))).kind with
  | advance =>
    cases hchild : (continuationAction parent
        (parent.children.filterMap (loadedGet store))).targetId.bind (loadedGet store) with
    | none => simp
    | some child =>
      have hdraft := draft_of_advance hkind hchild
      refine iff_of_true ?_ (.inl ⟨rfl, child, rfl, by rw [hdraft]; decide⟩)
      simp only [if_pos hdraft, Option.bind_some]
      exact movedGoal_draft hdraft
  | complete =>
    refine iff_of_true ?_ (.inr ⟨rfl, by rw [hactive]; decide⟩)
    simp only [Option.bind_some]
    exact movedGoal_active hactive _
  | replan => simp
  | wait => simp
  | noop => simp

/-- A move changes the status of a goal, and no later move of the pass changes it back. -/
theorem advancePlans_changed {store : GoalStore} {parentId : String} (parents : List String)
    (h : ((planMove store parentId).bind t.movedGoal).isSome = true) :
    ∃ k, get (parents.foldl t.advancePlan (t.advancePlan store parentId)) k ≠ get store k := by
  obtain ⟨g', hmoved⟩ := Option.isSome_iff_exists.mp h
  obtain ⟨m, hmove, hg'⟩ := Option.bind_eq_some_iff.mp hmoved
  have hsave : t.advancePlan store parentId = save store g' := by
    unfold advancePlan
    rw [hmoved]
  rw [hsave]
  obtain ⟨g2, hget2, hlater⟩ := advancePlans_get (t := t) parents (get_save_self store g')
  refine ⟨g'.id, fun heq => ?_⟩
  rw [hget2] at heq
  rcases planMove_spec hmove with ⟨child, rfl, hget, hdraft⟩ | ⟨parent, totalSteps, rfl, hget, hkind⟩
  · have hfields := movedGoal_activate hg'
    have hid : g'.id = child.id := by rw [hfields]
    rw [hid, hget, Option.some.injEq] at heq
    have hstatus : g'.status = .active := by rw [hfields]
    cases hlater with
    | same => rw [heq, hdraft] at hstatus; cases hstatus
    | activated updatedAt hdraft' => rw [hstatus] at hdraft'; cases hdraft'
    | closed summary ts updatedAt =>
      rw [← heq] at hdraft
      cases hdraft
  · obtain ⟨summary, ts, hfields⟩ := movedGoal_close hg'
    have hid : g'.id = parent.id := by rw [hfields]
    rw [hid, hget, Option.some.injEq] at heq
    have hstatus : g'.status = .done := by rw [hfields]
    have hopen := (continuationAction_complete_iff.mp hkind).1
    have hsame := hlater.of_finished (by rw [hstatus]; rfl)
    rw [← heq, hsame, hstatus] at hopen
    cases hopen

/-- The third pass changes nothing exactly if it makes no move. -/
theorem advancePlans_unchanged_iff {store : GoalStore} {parents : List String} :
    (∀ k, get (parents.foldl t.advancePlan store) k = get store k)
      ↔ ∀ p ∈ parents, (planMove store p).bind t.movedGoal = none := by
  induction parents with
  | nil => simp
  | cons p parents ih =>
    rw [List.foldl_cons, List.forall_mem_cons, ← ih]
    cases hmove : (planMove store p).bind t.movedGoal with
    | none =>
      have hkeep : t.advancePlan store p = store := by
        unfold advancePlan
        rw [hmove]
      rw [hkeep]
      exact (and_iff_right rfl).symm
    | some g' =>
      refine iff_of_false (fun h => ?_) (by simp)
      obtain ⟨k, hk⟩ := advancePlans_changed (t := t) parents (by rw [hmove]; rfl)
      exact hk (h k)

/-! ## A tick that changes nothing -/

/-- **When a tick changes no goal.** -/
theorem unchanged_iff {rt : GoalRuntime} :
    (∀ k, get (t.continuationTick rt).store k = get rt.store k)
      ↔ (∀ k g, get rt.store k = some g → ¬ Settles g)
        ∧ ∀ p ∈ t.planParents rt.store, ∀ parent, get rt.store p = some parent →
            ¬ CanMove rt.store parent := by
  have hthird : (∀ p ∈ t.planParents rt.store, (planMove rt.store p).bind t.movedGoal = none)
      ↔ ∀ p ∈ t.planParents rt.store, ∀ parent, get rt.store p = some parent →
          ¬ CanMove rt.store parent := by
    refine forall₂_congr fun p hp => ?_
    obtain ⟨parent, hparent, hactive, -⟩ := mem_planParents hp
    rw [(loadedGet_some.mp hparent).1, ← Option.not_isSome_iff_eq_none,
      movedGoal_isSome_iff hparent hactive]
    simp
  constructor
  · intro h
    have hquiet : ∀ k g, get rt.store k = some g → ¬ Settles g := by
      intro k g hget hsettles
      have hleaf := continuationTick_leaf (t := t) hget hsettles.2.1 hsettles.2.2.1
      rw [h k, hget, Option.some.injEq] at hleaf
      exact settled_eq_self_iff.mp hleaf.symm hsettles
    refine ⟨hquiet, hthird.mp (advancePlans_unchanged_iff.mp ?_)⟩
    have hsettled := settled_eq (t := t) hquiet
    unfold continuationTick at h
    rwa [hsettled] at h
  · rintro ⟨hquiet, hplans⟩
    unfold continuationTick
    rw [settled_eq hquiet]
    exact advancePlans_unchanged_iff.mpr (hthird.mpr hplans)

/-- A tick that changes nothing means that no active plan of the store can move. -/
def ServesPlans (t : ContinuationTick) (rt : GoalRuntime) : Prop :=
  (∀ k, get (t.continuationTick rt).store k = get rt.store k) →
    ∀ k parent, get rt.store k = some parent → parent.status = .active → parent.children ≠ [] →
      ¬ CanMove rt.store parent

/-- No active plan can move, or the first two passes change a goal, or one of the first `max_goals`
active parents, newest update first, can move. -/
def ReachesPlan (t : ContinuationTick) (rt : GoalRuntime) : Prop :=
  (∀ k parent, get rt.store k = some parent → parent.status = .active → parent.children ≠ [] →
      ¬ CanMove rt.store parent)
    ∨ (∃ k g, get rt.store k = some g ∧ Settles g)
    ∨ ∃ p ∈ t.planParents rt.store, ∃ parent, get rt.store p = some parent
        ∧ CanMove rt.store parent

/-- **When a continuation tick starves no plan.** -/
theorem servesPlans_iff (t : ContinuationTick) (rt : GoalRuntime) :
    t.ServesPlans rt ↔ t.ReachesPlan rt := by
  constructor
  · intro h
    by_cases hquiet : ∀ k, get (t.continuationTick rt).store k = get rt.store k
    · exact .inl (h hquiet)
    · rw [unchanged_iff, not_and_or] at hquiet
      rcases hquiet with hsettles | hplans
      · push Not at hsettles
        exact .inr (.inl hsettles)
      · push Not at hplans
        exact .inr (.inr hplans)
  · rintro (hnone | ⟨k, g, hget, hsettles⟩ | ⟨p, hp, parent, hget, hmove⟩) hquiet
    · exact hnone
    · exact absurd hsettles ((unchanged_iff.mp hquiet).1 k g hget)
    · exact absurd hmove ((unchanged_iff.mp hquiet).2 p hp parent hget)

/-! ## A plan that waits before one that is done -/

/-- An active plan, updated last, whose step waits for the operator. -/
def waitingPlan : List Goal :=
  [{ id := "goal-1", title := "waiting", status := .active, updatedAt := "2026-02-01"
     children := ["goal-2"] },
   { id := "goal-2", title := "asked", status := .awaitingApproval, updatedAt := "2026-01-02" }]

/-- An active plan whose next step is a draft. -/
def readyParent : Goal :=
  { id := "goal-3", title := "ready", status := .active, updatedAt := "2026-01-01"
    children := ["goal-4"] }

def readyRuntime : GoalRuntime :=
  .start (saveAll Table.empty (waitingPlan ++ [readyParent, { id := "goal-4", title := "next" }])) []

theorem readyParent_canMove : CanMove readyRuntime.store readyParent :=
  .inl ⟨by decide, { id := "goal-4", title := "next" }, by decide, by decide⟩

/-- With room for both plans the ready one moves. -/
theorem two_plans_are_served : ({} : ContinuationTick).ServesPlans readyRuntime :=
  (servesPlans_iff {} readyRuntime).mpr
    (.inr (.inr ⟨"goal-3", by decide, readyParent, by decide, readyParent_canMove⟩))

/-- The plan that waits takes the only place, and the ready one stays where it is. -/
theorem ready_plan_starves :
    ¬ ∀ (t : ContinuationTick) (rt : GoalRuntime), 1 ≤ t.maxGoals → t.ServesPlans rt := by
  intro h
  have hserves := h { maxGoals := 1 } readyRuntime (by decide)
  have hrows : (({ maxGoals := 1 } : ContinuationTick).continuationTick readyRuntime).store.rows
      = readyRuntime.store.rows := by decide
  refine hserves (fun k => by rw [Table.ext hrows]) "goal-3" readyParent (by decide) rfl
    (by decide) readyParent_canMove

end ContinuationTick

end ForgeKit.Goals
