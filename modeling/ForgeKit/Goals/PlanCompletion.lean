import ForgeKit.Goals.ContinuationTick

/-!
# When a plan is complete

`progress` counts the children that are done, `continuationAction` walks over those that are done
or abandoned, and both skip the ids that do not resolve. While no child is abandoned the two agree,
and a parent is closed only when each child that resolves is done.

* `plan_completion` — the two functions, and what the ticker closes
* `complete_with_dangling_child` — an id that does not resolve does not keep a plan open
-/

namespace ForgeKit.Goals

open GoalStore

/-- No child id of the parent resolves to an abandoned goal. -/
def NoAbandonedStep (parent : Goal) (children : List Goal) : Prop :=
  ∀ c ∈ childrenInOrder parent children, c.status ≠ .abandoned

theorem isFinished_iff_done {st : GoalStatus} (h : st ≠ .abandoned) :
    st.isFinished = true ↔ st = .done := by
  cases st <;> simp_all [GoalStatus.isFinished]

theorem complete_iff_progress {parent : Goal} {children : List Goal}
    (h : NoAbandonedStep parent children) :
    (continuationAction parent children).kind = .complete ↔
      parent.status.isFinished = false ∧ childrenInOrder parent children ≠ []
        ∧ (progress parent children).complete = true := by
  rw [continuationAction_complete_iff]
  refine and_congr_right fun _ => and_congr_right fun hkids => ?_
  rw [progress_complete_iff hkids]
  exact forall₂_congr fun c hc => isFinished_iff_done (h c hc)

/-! ## The goals that the ticker resolves -/

/-- What the ticker hands over resolves to what is loaded. -/
theorem resolve_loaded {store : GoalStore} {ids : List String} {cid : String} (hmem : cid ∈ ids) :
    resolve (ids.filterMap (loadedGet store)) cid = loadedGet store cid := by
  have hkey : ∀ c ∈ ids.filterMap (loadedGet store), loadedGet store c.id = some c := by
    intro c hc
    obtain ⟨id, -, hget⟩ := List.mem_filterMap.mp hc
    rwa [get_id (ContinuationTick.loadedGet_some.mp hget).1]
  unfold resolve
  cases hf : (ids.filterMap (loadedGet store)).reverse.find? fun c => c.id = cid with
  | some c =>
    have hc := hkey c (List.mem_reverse.mp (List.mem_of_find?_eq_some hf))
    have hid : c.id = cid := by simpa using List.find?_some hf
    rw [← hid, hc]
  | none =>
    cases hget : loadedGet store cid with
    | none => rfl
    | some c =>
      have hid := get_id (ContinuationTick.loadedGet_some.mp hget).1
      have hin : c ∈ (ids.filterMap (loadedGet store)).reverse :=
        List.mem_reverse.mpr (List.mem_filterMap.mpr ⟨cid, hmem, hget⟩)
      exact absurd (by simp [hid]) (List.find?_eq_none.mp hf c hin)

theorem mem_childrenInOrder_loaded {store : GoalStore} {parent c : Goal} :
    c ∈ childrenInOrder parent (parent.children.filterMap (loadedGet store)) ↔
      ∃ cid ∈ parent.children, loadedGet store cid = some c := by
  rw [mem_childrenInOrder]
  exact exists_congr fun cid => and_congr_right fun hmem => by rw [resolve_loaded hmem]

namespace ContinuationTick

variable {t : ContinuationTick}

/-- The moves read nothing but the loaded goals, and they load no other. -/
theorem loadedGet_advancePlans {store : GoalStore} (parents : List String) {cid : String}
    {c' : Goal} (h : loadedGet (parents.foldl t.advancePlan store) cid = some c') :
    ∃ c, loadedGet store cid = some c ∧ PlanMoved (t.movesFrom store parents) c c' := by
  obtain ⟨hget', hloaded⟩ := loadedGet_some.mp h
  cases hget : get store cid with
  | none => rw [advancePlans_none hget] at hget'; cases hget'
  | some c =>
    obtain ⟨c2, hget2, hmoved⟩ := advancePlans_get (t := t) parents hget
    rw [hget', Option.some.injEq] at hget2
    subst hget2
    refine ⟨c, loadedGet_some.mpr ⟨hget, ?_⟩, hmoved⟩
    have hid : c'.id = c.id := (get_id hget').trans (get_id hget).symm
    simpa [isLoaded, hid] using hloaded

/-- A tick abandons nothing. -/
theorem loadedGet_abandoned {rt : GoalRuntime} {cid : String} {c : Goal}
    (h : loadedGet (t.continuationTick rt).store cid = some c) (hab : c.status = .abandoned) :
    ∃ c0, loadedGet rt.store cid = some c0 ∧ c0.status = .abandoned := by
  obtain ⟨hget, hloaded⟩ := loadedGet_some.mp h
  cases hget0 : get rt.store cid with
  | none => rw [continuationTick_none hget0] at hget; cases hget
  | some c0 =>
    obtain ⟨c1, c2, hsettled, hmoved, hget2⟩ := continuationTick_get (t := t) hget0
    rw [hget, Option.some.injEq] at hget2
    subst hget2
    have hab0 : c0.status = .abandoned := by
      rcases hsettled.or_moved hmoved with hsettled | hmoved
      · cases hsettled with
        | same => exact hab
        | rolledUp summary ts updatedAt => cases hab
        | retried summary ts updatedAt => exact hab
        | escalated summary ts updatedAt => cases hab
      · cases hmoved with
        | same => exact hab
        | activated updatedAt hdraft => cases hab
        | closed summary ts updatedAt => cases hab
    refine ⟨c0, loadedGet_some.mpr ⟨hget0, ?_⟩, hab0⟩
    have hid : c.id = c0.id := (get_id hget).trans (get_id hget0).symm
    simpa [isLoaded, hid] using hloaded

/-- A finished goal stays what it is while the moves are made. -/
theorem loadedGet_of_finished {store : GoalStore} (parents : List String) {cid : String} {c : Goal}
    (h : loadedGet store cid = some c) (hfin : c.status.isFinished = true) :
    loadedGet (parents.foldl t.advancePlan store) cid = some c := by
  obtain ⟨hget, hloaded⟩ := loadedGet_some.mp h
  obtain ⟨c', hget', hmoved⟩ := advancePlans_get (t := t) parents hget
  rw [PlanMoved.of_finished hmoved hfin] at hget'
  exact loadedGet_some.mpr ⟨hget', hloaded⟩

/-- A move that closes a goal found its plan complete. -/
theorem advancePlan_closed {store : GoalStore} {p k : String} {parent parent' : Goal}
    (hget : get store k = some parent) (hopen : parent.status ≠ .done)
    (hget' : get (t.advancePlan store p) k = some parent') (hdone : parent'.status = .done) :
    (continuationAction parent (parent.children.filterMap (loadedGet store))).kind = .complete := by
  rcases advancePlan_cases (t := t) store p with hsame
    | ⟨child, updatedAt, -, hchild, -, hsave⟩
    | ⟨closing, totalSteps, summary, ts, updatedAt, -, hclosing, hkind, hsave⟩
  · rw [hsame, hget, Option.some.injEq] at hget'
    exact absurd (hget' ▸ hdone) hopen
  · rw [hsave, get_save] at hget'
    split at hget'
    · cases hget'; cases hdone
    · rw [hget, Option.some.injEq] at hget'
      exact absurd (hget' ▸ hdone) hopen
  · have hk : closing.id = k := by
      by_contra hne
      rw [hsave, get_save_ne store (by exact hne), hget, Option.some.injEq] at hget'
      exact absurd (hget' ▸ hdone) hopen
    subst hk
    rw [hget, Option.some.injEq] at hclosing
    exact hclosing ▸ hkind

/-- A parent that the moves close had, and has, no child that is still open. -/
theorem advancePlans_closed {store : GoalStore} {parents : List String} {k : String}
    {parent parent' : Goal} (hget : get store k = some parent) (hopen : parent.status ≠ .done)
    (hget' : get (parents.foldl t.advancePlan store) k = some parent')
    (hdone : parent'.status = .done) :
    (∃ cid ∈ parent.children, (loadedGet (parents.foldl t.advancePlan store) cid).isSome)
      ∧ ∀ cid ∈ parent.children, ∀ c,
          loadedGet (parents.foldl t.advancePlan store) cid = some c →
            c.status.isFinished = true := by
  induction parents generalizing store parent with
  | nil =>
    rw [List.foldl_nil, hget, Option.some.injEq] at hget'
    exact absurd (hget' ▸ hdone) hopen
  | cons p parents ih =>
    obtain ⟨parent1, hget1, hmoved1⟩ := advancePlan_get (t := t) p hget
    by_cases hopen1 : parent1.status = .done
    · -- the parent is closed here: its children are finished, and stay what they are
      obtain ⟨-, hkids, hfinished⟩ :=
        continuationAction_complete_iff.mp (advancePlan_closed hget hopen hget1 hopen1)
      have hstay : ∀ cid ∈ parent.children, ∀ c, loadedGet store cid = some c →
          c.status.isFinished = true
            ∧ loadedGet ((p :: parents).foldl t.advancePlan store) cid = some c := by
        intro cid hcid c hc
        have hfin := hfinished c (mem_childrenInOrder_loaded.mpr ⟨cid, hcid, hc⟩)
        exact ⟨hfin, loadedGet_of_finished (p :: parents) hc hfin⟩
      constructor
      · obtain ⟨c, hc⟩ := List.exists_mem_of_ne_nil _ hkids
        obtain ⟨cid, hcid, hload⟩ := mem_childrenInOrder_loaded.mp hc
        exact ⟨cid, hcid, by rw [(hstay cid hcid c hload).2]; rfl⟩
      · intro cid hcid c' hc'
        obtain ⟨c, hc, -⟩ := loadedGet_advancePlans (t := t) (p :: parents) hc'
        obtain ⟨hfin, hsame⟩ := hstay cid hcid c hc
        rw [hsame, Option.some.injEq] at hc'
        exact hc' ▸ hfin
    · rw [List.foldl_cons] at hget' ⊢
      have hrest := ih hget1 hopen1 hget'
      rwa [PlanMoved.children hmoved1] at hrest

end ContinuationTick

/--
**When a plan is complete.** While no child is abandoned: the continuation of a parent is to
complete it exactly when the parent is open, some child resolves and `progress` is complete, and
then each child that resolves is done. The ticker closes a parent only in that case.
-/
theorem plan_completion :
    (∀ (parent : Goal) (children : List Goal), NoAbandonedStep parent children →
      ((continuationAction parent children).kind = .complete ↔
          parent.status.isFinished = false ∧ childrenInOrder parent children ≠ []
            ∧ (progress parent children).complete = true)
        ∧ ((continuationAction parent children).kind = .complete →
            ∀ c ∈ childrenInOrder parent children, c.status = .done))
      ∧ ∀ (t : ContinuationTick) (rt : GoalRuntime) (k : String) (parent parent' : Goal),
          get rt.store k = some parent → parent.children ≠ [] → parent.status ≠ .done →
          (∀ cid ∈ parent.children, ∀ c, loadedGet rt.store cid = some c →
            c.status ≠ .abandoned) →
          get (t.continuationTick rt).store k = some parent' → parent'.status = .done →
          (∃ cid ∈ parent.children, (loadedGet (t.continuationTick rt).store cid).isSome)
            ∧ ∀ cid ∈ parent.children, ∀ c,
                loadedGet (t.continuationTick rt).store cid = some c → c.status = .done := by
  refine ⟨fun parent children habandoned => ⟨complete_iff_progress habandoned, ?_⟩, ?_⟩
  · intro hkind c hc
    have hfin := (continuationAction_complete_iff.mp hkind).2.2 c hc
    exact (isFinished_iff_done (habandoned c hc)).mp hfin
  · intro t rt k parent parent' hget hplan hopen habandoned hget' hdone
    have hsettled : get (t.settled rt.store) k = some parent := by
      rw [ContinuationTick.get_settled, hget, Option.map_some, ContinuationTick.settled_parent hplan]
    obtain ⟨hsome, hfinished⟩ := ContinuationTick.advancePlans_closed hsettled hopen hget' hdone
    refine ⟨hsome, fun cid hcid c hc => (isFinished_iff_done ?_).mp (hfinished cid hcid c hc)⟩
    intro hab
    obtain ⟨c0, hc0, hab0⟩ := ContinuationTick.loadedGet_abandoned hc hab
    exact habandoned cid hcid c0 hc0 hab0

/-- An active plan of two steps. -/
def twoStepPlan : Goal :=
  { id := "goal-plan", title := "plan", status := .active, children := ["goal-a", "goal-b"]
    evidence := [⟨"t0", .plan, "decomposed into 2 step(s): a, b", none⟩] }

def doneStep (id : String) : Goal :=
  { id, title := id, status := .done, parentId := some "goal-plan" }

/-- The plan and its two steps, both done. -/
def twoStepStore : GoalStore :=
  saveAll Table.empty [twoStepPlan, doneStep "goal-a", doneStep "goal-b"]

theorem plan_completion_twoSteps :
    (continuationAction twoStepPlan [doneStep "goal-a", doneStep "goal-b"]).kind = .complete
      ∧ ∃ parent', get (({} : ContinuationTick).continuationTick (.start twoStepStore [])).store
          "goal-plan" = some parent' ∧ parent'.status = .done
        ∧ ∀ cid ∈ twoStepPlan.children, ∀ c,
            loadedGet (({} : ContinuationTick).continuationTick (.start twoStepStore [])).store cid
              = some c → c.status = .done := by
  refine ⟨?_, ?_⟩
  · exact ((plan_completion.1 twoStepPlan [doneStep "goal-a", doneStep "goal-b"]
      (by unfold NoAbandonedStep; decide)).1).mpr (by decide +kernel)
  · have hstart : get (GoalRuntime.start twoStepStore []).store "goal-plan" = some twoStepPlan := by
      decide +kernel
    have hrun : (get (({} : ContinuationTick).continuationTick (.start twoStepStore [])).store
        "goal-plan").map Goal.status = some .done := by decide +kernel
    obtain ⟨parent', hget', hdone⟩ := Option.map_eq_some_iff.mp hrun
    refine ⟨parent', hget', hdone, ?_⟩
    refine (plan_completion.2 {} _ _ _ _ hstart (by decide) (by decide) ?_ hget' hdone).2
    intro cid hcid c hc hab
    have hnone : ∀ cid ∈ twoStepPlan.children,
        (loadedGet (GoalRuntime.start twoStepStore []).store cid).map Goal.status
          = some .done := by decide +kernel
    have hst := hnone cid hcid
    rw [hc, Option.map_some, hab] at hst
    cases hst

/--
An id that does not resolve does not keep a plan open: the plan below is complete although its
second step is not in the store.
-/
theorem complete_with_dangling_child :
    ¬ ∀ (parent : Goal) (children : List Goal),
        (continuationAction parent children).kind = .complete ↔
          (progress parent children).complete = true
            ∧ ∀ cid ∈ parent.children, ∃ c, resolve children cid = some c ∧ c.status = .done := by
  intro h
  have hcomplete : (continuationAction twoStepPlan [doneStep "goal-a"]).kind = .complete := by
    decide +kernel
  obtain ⟨c, hc, -⟩ := ((h twoStepPlan [doneStep "goal-a"]).mp hcomplete).2 "goal-b" (by decide)
  have hnone : resolve [doneStep "goal-a"] "goal-b" = none := by decide
  rw [hnone] at hc
  cases hc

end ForgeKit.Goals
