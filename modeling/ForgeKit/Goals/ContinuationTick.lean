import ForgeKit.Goals.Governance

/-!
# The continuation tick (`goal_continuation_tick`)

The tick goes over the loaded goals three times. It closes the active leaf goals that are
complete, replans the active leaf goals that are stuck, and makes one move for each active
parent. The first two passes read and write one goal at a time; the moves of the third one see
what the moves before them saved.

* `continuationTick` — one tick
* `continuationTick_get` — what a goal of the store is after the tick
* `moves` — the moves of the third pass
-/

namespace ForgeKit.Goals

open GoalStore

/-- The bounds of a continuation ticker and the clock of one of its ticks. -/
structure ContinuationTick where
  maxGoals : Nat := 4
  maxReplanAttempts : Nat := 1
  clock : String → String := fun _ => ""

/-- One move of the third pass. -/
inductive PlanMove where
  /-- `draft -> active` for a child. -/
  | activate (child : Goal)
  /-- `active -> done` for a parent whose plan has this many steps. -/
  | close (parent : Goal) (totalSteps : Nat)
deriving DecidableEq, Repr

/-- `by_id.get(goal_id)`: only loaded goals are there. -/
def loadedGet (store : GoalStore) (goalId : String) : Option Goal :=
  (get store goalId).filter isLoaded

namespace ContinuationTick

variable (t : ContinuationTick)

/-- The first pass, at one goal. -/
def rollUp (g : Goal) : Goal :=
  if isLoaded g = true ∧ g.status = .active ∧ g.children = [] ∧ isGoalComplete g = true then
    let tally := tallyPackets g
    let g' := g.addEvidence .verification
      ("plan step complete — " ++ toString tally.executed ++ "/" ++ toString tally.total
        ++ " packet verified") none (t.clock g.id)
    match Transitions.apply g' .done (t.clock g.id) with
    | .ok g' => g'
    | .error _ => g
  else g

/-- The second pass, at one goal. -/
def replanStuck (g : Goal) : Goal :=
  if isLoaded g = true ∧ g.status = .active ∧ g.children = [] ∧ isStuck g = true then
    let d := replan g t.maxReplanAttempts
    match d.action with
    | .retry =>
      (d.unlink.foldl (fun g pid => g.unlinkPacket pid (t.clock g.id)) g).addEvidence .replan
        d.reason none (t.clock g.id)
    | .escalate =>
      match Transitions.apply (g.addEvidence .blocked d.reason none (t.clock g.id))
          .awaitingApproval (t.clock g.id) with
      | .ok g' => g'
      | .error _ => g
    | .none => g
  else g

/-- The move that the third pass makes at a parent. -/
def planMove (store : GoalStore) (parentId : String) : Option PlanMove :=
  match loadedGet store parentId with
  | none => none
  | some parent =>
    let children := parent.children.filterMap (loadedGet store)
    let action := continuationAction parent children
    match action.kind with
    | .advance =>
      match action.targetId.bind (loadedGet store) with
      | some child => if child.status = .draft then some (.activate child) else none
      | none => none
    | .complete => some (.close parent (progress parent children).totalSteps)
    | _ => none

/-- The goal that a move saves; an illegal move saves nothing. -/
def movedGoal : PlanMove → Option Goal
  | .activate child => (Transitions.apply child .active (t.clock child.id)).toOption
  | .close parent totalSteps =>
    let p := parent.addEvidence .verification
      ("all " ++ toString totalSteps ++ " plan step done — goal complete") none (t.clock parent.id)
    (Transitions.apply p .done (t.clock parent.id)).toOption

/-- The third pass, at one parent. -/
def advancePlan (store : GoalStore) (parentId : String) : GoalStore :=
  match (planMove store parentId).bind t.movedGoal with
  | some g => save store g
  | none => store

/-- The active parents of a tick. -/
def planParents (store : GoalStore) : List String :=
  (((loadAll store).filter fun g => g.children ≠ [] ∧ g.status = .active).take t.maxGoals).map
    Goal.id

theorem apply_addEvidence_ok {g g' : Goal} {dst : GoalStatus} {kind : EvidenceKind}
    {summary ts now : String}
    (h : Transitions.apply (g.addEvidence kind summary none ts) dst now = .ok g') :
    g' = { g with
      status := dst
      evidence := g.evidence ++ [⟨ts, kind, summary, none⟩]
      updatedAt := g'.updatedAt } := Transitions.apply_ok h

theorem apply_id {g : Goal} {dst : GoalStatus} {now : String} {fallback : Goal}
    (hid : fallback.id = g.id) :
    (match Transitions.apply g dst now with
      | .ok g' => g'
      | .error _ => fallback).id = g.id := by
  cases h : Transitions.apply g dst now with
  | error e => exact hid
  | ok g' => simp only; rw [Transitions.apply_ok h]

theorem unlinkAll_spec (pids : List String) (now : Goal → String) (g : Goal) :
    ∃ updatedAt, pids.foldl (fun g pid => g.unlinkPacket pid (now g)) g
      = { g with packets := g.packets.filter (· ∉ pids), updatedAt } := by
  induction pids generalizing g with
  | nil => exact ⟨g.updatedAt, by simp⟩
  | cons pid pids ih =>
    obtain ⟨updatedAt, h⟩ := ih (g.unlinkPacket pid (now g))
    refine ⟨updatedAt, h.trans ?_⟩
    rw [Goal.unlinkPacket_packets, List.filter_filter]
    unfold Goal.unlinkPacket
    split <;> simp [Bool.and_comm]

theorem rollUp_id (g : Goal) : (t.rollUp g).id = g.id := by
  unfold rollUp
  split
  · exact apply_id rfl
  · rfl

theorem replanStuck_id (g : Goal) : (t.replanStuck g).id = g.id := by
  unfold replanStuck
  split
  · simp only
    split
    · obtain ⟨updatedAt, h⟩ := unlinkAll_spec (replan g t.maxReplanAttempts).unlink
        (fun g => t.clock g.id) g
      rw [Goal.addEvidence_id, h]
    · exact apply_id rfl
    · rfl
  · rfl

/-- The store after the first two passes. -/
def settled (store : GoalStore) : GoalStore :=
  (store.mapRows t.rollUp t.rollUp_id).mapRows t.replanStuck t.replanStuck_id

/-- `GoalContinuationTicker.tick`. -/
def continuationTick (rt : GoalRuntime) : GoalRuntime :=
  { rt with store := (t.planParents rt.store).foldl t.advancePlan (t.settled rt.store) }

/-- The moves of the third pass from a store on, in order. -/
def movesFrom : GoalStore → List String → List PlanMove
  | _, [] => []
  | store, p :: parents => (planMove store p).toList ++ movesFrom (t.advancePlan store p) parents

/-- The moves that the third pass of a tick makes. -/
def moves (store : GoalStore) : List PlanMove := t.movesFrom (t.settled store) (t.planParents store)

end ContinuationTick

/-! ## The first two passes -/

/-- What the first two passes make of a goal. -/
inductive Settled (t : ContinuationTick) (g : Goal) : Goal → Prop
  | same : Settled t g g
  | rolledUp (summary ts updatedAt : String) (hactive : g.status = .active)
      (hleaf : g.children = []) (hcomplete : isGoalComplete g = true) :
      Settled t g { g with
        status := .done
        evidence := g.evidence ++ [⟨ts, .verification, summary, none⟩]
        updatedAt }
  | retried (summary ts updatedAt : String) (hactive : g.status = .active)
      (hleaf : g.children = []) (hloaded : isLoaded g = true) (hstuck : isStuck g = true)
      (hleft : replanAttempts g < t.maxReplanAttempts) :
      Settled t g { g with
        packets := g.packets.filter (· ∉ blockedPacketIds g)
        evidence := g.evidence ++ [⟨ts, .replan, summary, none⟩]
        updatedAt }
  | escalated (summary ts updatedAt : String) (hactive : g.status = .active)
      (hleaf : g.children = []) (hstuck : isStuck g = true) :
      Settled t g { g with
        status := .awaitingApproval
        evidence := g.evidence ++ [⟨ts, .blocked, summary, none⟩]
        updatedAt }

/-- What some moves of the third pass make of a goal: it is activated, or it is closed. -/
inductive PlanMoved (moves : List PlanMove) (g : Goal) : Goal → Prop
  | same : PlanMoved moves g g
  | activated (updatedAt : String) (hdraft : g.status = .draft)
      (hmove : PlanMove.activate g ∈ moves) :
      PlanMoved moves g { g with status := .active, updatedAt }
  | closed (summary ts updatedAt : String) (hparent : g.children ≠ [])
      (hopen : g.status.isFinished = false) :
      PlanMoved moves g { g with
        status := .done
        evidence := g.evidence ++ [⟨ts, .verification, summary, none⟩]
        updatedAt }

theorem PlanMoved.children {ms : List PlanMove} {g g' : Goal} (h : PlanMoved ms g g') :
    g'.children = g.children := by
  cases h <;> rfl

/-- A leaf goal is moved only as a draft. -/
theorem PlanMoved.of_leaf {ms : List PlanMove} {g g' : Goal} (h : PlanMoved ms g g')
    (hleaf : g.children = []) (hdraft : g.status ≠ .draft) : g' = g := by
  cases h with
  | same => rfl
  | activated updatedAt hst => exact absurd hst hdraft
  | closed summary ts updatedAt hparent => exact absurd hleaf hparent

/-- A finished goal is not moved. -/
theorem PlanMoved.of_finished {ms : List PlanMove} {g g' : Goal} (h : PlanMoved ms g g')
    (hfin : g.status.isFinished = true) : g' = g := by
  cases h with
  | same => rfl
  | activated updatedAt hdraft => rw [hdraft] at hfin; cases hfin
  | closed summary ts updatedAt hparent hopen => rw [hopen] at hfin; cases hfin

/-- The first two passes are for active leaf goals, the moves for drafts and parents. -/
theorem Settled.or_moved {t : ContinuationTick} {ms : List PlanMove} {g g1 g' : Goal}
    (h : Settled t g g1) (h' : PlanMoved ms g1 g') : Settled t g g' ∨ PlanMoved ms g g' := by
  cases h with
  | same => exact .inr h'
  | rolledUp summary ts updatedAt hactive hleaf hcomplete =>
    rw [h'.of_leaf hleaf (by simp)]
    exact .inl (.rolledUp summary ts updatedAt hactive hleaf hcomplete)
  | retried summary ts updatedAt hactive hleaf hloaded hstuck hleft =>
    rw [h'.of_leaf hleaf (by simp [hactive])]
    exact .inl (.retried summary ts updatedAt hactive hleaf hloaded hstuck hleft)
  | escalated summary ts updatedAt hactive hleaf hstuck =>
    rw [h'.of_leaf hleaf (by simp)]
    exact .inl (.escalated summary ts updatedAt hactive hleaf hstuck)

/-- Two runs of moves after each other: a goal that was closed, or is not a draft, is settled. -/
theorem PlanMoved.trans {ms ms' : List PlanMove} {g g1 g' : Goal} (h : PlanMoved ms g g1)
    (h' : PlanMoved ms' g1 g') : PlanMoved (ms ++ ms') g g' := by
  cases h with
  | same =>
    cases h' with
    | same => exact .same
    | activated updatedAt hdraft hmove =>
      exact .activated updatedAt hdraft (List.mem_append_right _ hmove)
    | closed summary ts updatedAt hparent hopen => exact .closed summary ts updatedAt hparent hopen
  | activated updatedAt hdraft hmove =>
    cases h' with
    | same => exact .activated updatedAt hdraft (List.mem_append_left _ hmove)
    | activated updatedAt' hdraft' => cases hdraft'
    | closed summary ts updatedAt' hparent hopen =>
      refine .closed summary ts updatedAt' hparent ?_
      rw [hdraft]; rfl
  | closed summary ts updatedAt hparent hopen =>
    cases h' with
    | same => exact .closed summary ts updatedAt hparent hopen
    | activated updatedAt' hdraft' => cases hdraft'
    | closed summary' ts' updatedAt' hparent' hopen' => cases hopen'

namespace ContinuationTick

variable {t : ContinuationTick}

/-- A complete goal is closed: it has evidence to show. -/
theorem rollUp_complete {g : Goal} (hloaded : isLoaded g = true) (hactive : g.status = .active)
    (hleaf : g.children = []) (hcomplete : isGoalComplete g = true) :
    ∃ summary ts updatedAt, t.rollUp g = { g with
      status := .done
      evidence := g.evidence ++ [⟨ts, .verification, summary, none⟩]
      updatedAt } := by
  unfold rollUp
  rw [if_pos ⟨hloaded, hactive, hleaf, hcomplete⟩]
  simp only
  rw [Transitions.apply_of_canTransition _ (by simp [hactive]; decide) (by simp [hactive]) (by simp)]
  exact ⟨_, _, _, rfl⟩

theorem rollUp_spec (g : Goal) :
    t.rollUp g = g ∨ g.status = .active ∧ g.children = [] ∧ isGoalComplete g = true
      ∧ ∃ summary ts updatedAt, t.rollUp g = { g with
          status := .done
          evidence := g.evidence ++ [⟨ts, .verification, summary, none⟩]
          updatedAt } := by
  unfold rollUp
  split
  · next h =>
    simp only
    split
    · next g' happly =>
      exact .inr ⟨h.2.1, h.2.2.1, h.2.2.2, _, _, _, apply_addEvidence_ok happly⟩
    · exact .inl rfl
  · exact .inl rfl

/-- A stuck goal with attempts left drops its refused packets. -/
theorem replanStuck_retry {g : Goal} (hloaded : isLoaded g = true) (hactive : g.status = .active)
    (hleaf : g.children = []) (hstuck : isStuck g = true)
    (hleft : replanAttempts g < t.maxReplanAttempts) :
    ∃ summary ts updatedAt, t.replanStuck g = { g with
      packets := g.packets.filter (· ∉ blockedPacketIds g)
      evidence := g.evidence ++ [⟨ts, .replan, summary, none⟩]
      updatedAt } := by
  unfold replanStuck
  rw [if_pos ⟨hloaded, hactive, hleaf, hstuck⟩]
  rcases replan_cases g t.maxReplanAttempts with ⟨hnot, -⟩ | ⟨-, -, haction, hunlink⟩
    | ⟨-, hspent, -⟩
  · rw [hstuck] at hnot; cases hnot
  · simp only [haction, hunlink]
    obtain ⟨updatedAt, hfold⟩ := unlinkAll_spec (blockedPacketIds g) (fun g => t.clock g.id) g
    rw [hfold]
    exact ⟨_, _, _, rfl⟩
  · omega

theorem replanStuck_spec (g : Goal) : Settled t g (t.replanStuck g) := by
  unfold replanStuck
  split
  · next h =>
    obtain ⟨hloaded, hactive, hleaf, hstuck⟩ := h
    rcases replan_cases g t.maxReplanAttempts with ⟨hnot, -⟩ | ⟨-, hleft, -⟩ | ⟨-, -, haction⟩
    · rw [hstuck] at hnot; cases hnot
    · obtain ⟨summary, ts, updatedAt, hretry⟩ :=
        replanStuck_retry (t := t) hloaded hactive hleaf hstuck hleft
      unfold replanStuck at hretry
      rw [if_pos ⟨hloaded, hactive, hleaf, hstuck⟩] at hretry
      rw [hretry]
      exact .retried summary ts updatedAt hactive hleaf hloaded hstuck hleft
    · simp only [haction]
      split
      · next g' happly =>
        rw [apply_addEvidence_ok happly]
        exact .escalated _ _ _ hactive hleaf hstuck
      · exact .same
  · exact .same

theorem settled_spec (g : Goal) : Settled t g (t.replanStuck (t.rollUp g)) := by
  rcases rollUp_spec (t := t) g with hroll | ⟨hactive, hleaf, hcomplete, summary, ts, updatedAt,
    hroll⟩
  · rw [hroll]
    exact replanStuck_spec g
  · -- a goal that was closed is not replanned
    have hkeep : t.replanStuck (t.rollUp g) = t.rollUp g := by
      unfold replanStuck
      rw [if_neg]
      rintro ⟨-, hst, -⟩
      rw [hroll] at hst
      cases hst
    rw [hkeep, hroll]
    exact .rolledUp summary ts updatedAt hactive hleaf hcomplete

/-- The first two passes are for leaf goals. -/
theorem settled_parent {g : Goal} (h : g.children ≠ []) : t.replanStuck (t.rollUp g) = g := by
  have hroll : t.rollUp g = g := by
    unfold rollUp
    rw [if_neg fun hc => h hc.2.2.1]
  rw [hroll]
  unfold replanStuck
  rw [if_neg fun hc => h hc.2.2.1]

theorem get_settled (store : GoalStore) (k : String) :
    get (t.settled store) k = (get store k).map fun g => t.replanStuck (t.rollUp g) := by
  unfold settled GoalStore.get
  rw [Table.find?_mapRows, Table.find?_mapRows, Option.map_map]
  rfl

/-! ## The third pass -/

theorem loadedGet_some {store : GoalStore} {k : String} {g : Goal} :
    loadedGet store k = some g ↔ get store k = some g ∧ isLoaded g = true :=
  Option.filter_eq_some_iff

/-- A move is about a goal of the store: a draft that is activated, or an open parent. -/
theorem planMove_spec {store : GoalStore} {parentId : String} {m : PlanMove}
    (h : planMove store parentId = some m) :
    (∃ child, m = .activate child ∧ get store child.id = some child ∧ child.status = .draft)
      ∨ ∃ parent totalSteps, m = .close parent totalSteps ∧ get store parent.id = some parent
        ∧ (continuationAction parent (parent.children.filterMap (loadedGet store))).kind
            = .complete := by
  unfold planMove at h
  cases hp : loadedGet store parentId with
  | none => rw [hp] at h; cases h
  | some parent =>
    have hparent := (loadedGet_some.mp hp).1
    simp only [hp] at h
    split at h
    · split at h
      · next child hchild =>
        split at h
        · next hdraft =>
          cases h
          obtain ⟨cid, -, hget⟩ := Option.bind_eq_some_iff.mp hchild
          have hget := (loadedGet_some.mp hget).1
          exact .inl ⟨child, rfl, get_id hget ▸ hget, hdraft⟩
        · cases h
      · cases h
    · next hkind =>
      cases h
      exact .inr ⟨parent, _, rfl, get_id hparent ▸ hparent, hkind⟩
    · cases h

theorem eq_ok_of_toOption {e : Except String Goal} {g : Goal} (h : e.toOption = some g) :
    e = .ok g := by
  cases e with
  | error e => cases h
  | ok g' => cases h; rfl

theorem movedGoal_activate {child g : Goal} (h : t.movedGoal (.activate child) = some g) :
    g = { child with status := .active, updatedAt := g.updatedAt } :=
  Transitions.apply_ok (eq_ok_of_toOption h)

theorem movedGoal_close {parent g : Goal} {totalSteps : Nat}
    (h : t.movedGoal (.close parent totalSteps) = some g) :
    ∃ summary ts, g = { parent with
      status := .done
      evidence := parent.evidence ++ [⟨ts, .verification, summary, none⟩]
      updatedAt := g.updatedAt } :=
  ⟨_, _, apply_addEvidence_ok (eq_ok_of_toOption h)⟩

/-- One move saves the goal it is about. -/
theorem advancePlan_cases (store : GoalStore) (parentId : String) :
    t.advancePlan store parentId = store
      ∨ (∃ child updatedAt, planMove store parentId = some (.activate child)
          ∧ get store child.id = some child ∧ child.status = .draft
          ∧ t.advancePlan store parentId = save store { child with status := .active, updatedAt })
      ∨ ∃ parent totalSteps summary ts updatedAt,
          planMove store parentId = some (.close parent totalSteps)
          ∧ get store parent.id = some parent
          ∧ (continuationAction parent (parent.children.filterMap (loadedGet store))).kind
              = .complete
          ∧ t.advancePlan store parentId = save store { parent with
              status := .done
              evidence := parent.evidence ++ [⟨ts, .verification, summary, none⟩]
              updatedAt } := by
  unfold advancePlan
  cases hm : planMove store parentId with
  | none => exact .inl rfl
  | some m =>
    simp only [Option.bind_some]
    cases hg : t.movedGoal m with
    | none => exact .inl rfl
    | some g =>
      rcases planMove_spec hm with ⟨child, rfl, hget, hdraft⟩ | ⟨parent, totalSteps, rfl, hget, hkind⟩
      · refine .inr (.inl ⟨child, g.updatedAt, rfl, hget, hdraft, ?_⟩)
        simp only
        rw [← movedGoal_activate hg]
      · obtain ⟨summary, ts, hfields⟩ := movedGoal_close hg
        refine .inr (.inr ⟨parent, totalSteps, summary, ts, g.updatedAt, rfl, hget, hkind, ?_⟩)
        simp only
        rw [← hfields]

/-- One move, seen from one goal of the store. -/
theorem advancePlan_get {store : GoalStore} (parentId : String) {k : String} {g : Goal}
    (h : get store k = some g) :
    ∃ g', get (t.advancePlan store parentId) k = some g'
      ∧ PlanMoved (planMove store parentId).toList g g' := by
  rcases advancePlan_cases (t := t) store parentId with hsame
    | ⟨child, updatedAt, hmove, hget, hdraft, hsave⟩
    | ⟨parent, totalSteps, summary, ts, updatedAt, hmove, hget, hkind, hsave⟩
  · exact ⟨g, hsame.symm ▸ h, .same⟩
  · rw [hsave, get_save]
    by_cases hk : child.id = k
    · subst hk
      rw [h, Option.some.injEq] at hget
      subst hget
      exact ⟨_, if_pos rfl, .activated updatedAt hdraft (by rw [hmove]; simp)⟩
    · exact ⟨g, (if_neg hk).trans h, .same⟩
  · rw [hsave, get_save]
    by_cases hk : parent.id = k
    · subst hk
      rw [h, Option.some.injEq] at hget
      subst hget
      obtain ⟨hopen, hkids, -⟩ := continuationAction_complete_iff.mp hkind
      refine ⟨_, if_pos rfl, .closed summary ts updatedAt (fun he => hkids ?_) hopen⟩
      simp [childrenInOrder, he]
    · exact ⟨g, (if_neg hk).trans h, .same⟩

theorem advancePlan_none {store : GoalStore} {parentId k : String} (h : get store k = none) :
    get (t.advancePlan store parentId) k = none := by
  rcases advancePlan_cases (t := t) store parentId with hsame
    | ⟨child, updatedAt, -, hget, -, hsave⟩
    | ⟨parent, totalSteps, summary, ts, updatedAt, -, hget, -, hsave⟩
  · rw [hsame]; exact h
  · rw [hsave, get_save_ne]
    · exact h
    · rintro rfl; rw [h] at hget; cases hget
  · rw [hsave, get_save_ne]
    · exact h
    · rintro rfl; rw [h] at hget; cases hget

theorem advancePlans_get {store : GoalStore} (parents : List String) {k : String} {g : Goal}
    (h : get store k = some g) :
    ∃ g', get (parents.foldl t.advancePlan store) k = some g'
      ∧ PlanMoved (t.movesFrom store parents) g g' := by
  induction parents generalizing store g with
  | nil => exact ⟨g, h, .same⟩
  | cons p parents ih =>
    obtain ⟨g1, hget1, hmoved1⟩ := advancePlan_get (t := t) p h
    obtain ⟨g', hget', hmoved'⟩ := ih hget1
    exact ⟨g', hget', hmoved1.trans hmoved'⟩

theorem advancePlans_none {store : GoalStore} {parents : List String} {k : String}
    (h : get store k = none) : get (parents.foldl t.advancePlan store) k = none := by
  induction parents generalizing store with
  | nil => exact h
  | cons p parents ih => exact ih (advancePlan_none h)

/-- **What a goal of the store is after a continuation tick.** -/
theorem continuationTick_get {rt : GoalRuntime} {k : String} {g : Goal}
    (h : get rt.store k = some g) :
    ∃ g1 g', Settled t g g1 ∧ PlanMoved (t.moves rt.store) g1 g'
      ∧ get (t.continuationTick rt).store k = some g' := by
  have hsettled : get (t.settled rt.store) k = some (t.replanStuck (t.rollUp g)) := by
    rw [get_settled, h]; rfl
  obtain ⟨g', hget', hmoved⟩ := advancePlans_get (t := t) (t.planParents rt.store) hsettled
  exact ⟨_, g', settled_spec g, hmoved, hget'⟩

/-- The third pass is not about an active leaf goal. -/
theorem continuationTick_leaf {rt : GoalRuntime} {k : String} {g : Goal}
    (h : get rt.store k = some g) (hactive : g.status = .active) (hleaf : g.children = []) :
    get (t.continuationTick rt).store k = some (t.replanStuck (t.rollUp g)) := by
  have hsettled : get (t.settled rt.store) k = some (t.replanStuck (t.rollUp g)) := by
    rw [get_settled, h]; rfl
  obtain ⟨g', hget', hmoved⟩ := advancePlans_get (t := t) (t.planParents rt.store) hsettled
  have hspec := settled_spec (t := t) g
  generalize t.replanStuck (t.rollUp g) = g1 at hmoved hspec ⊢
  refine hget'.trans (congrArg some (hmoved.of_leaf ?_ ?_))
  · cases hspec <;> exact hleaf
  · cases hspec <;> simp [hactive]

/-- A tick adds no goal. -/
theorem continuationTick_none {rt : GoalRuntime} {k : String} (h : get rt.store k = none) :
    get (t.continuationTick rt).store k = none := by
  refine advancePlans_none ?_
  rw [get_settled, h]; rfl

end ContinuationTick

end ForgeKit.Goals
