import ForgeKit.Goals.ContinuationFairness
import ForgeKit.Goals.GoalLoop

/-!
# Replanning (`goal_continuation_tick`, `planning`)

Only a continuation tick replans, and only an active leaf goal that is stuck. A retry drops the
refused packets, so that the goal is not stuck any more; an escalation parks it. The drafts that the
third pass activates come after that.

* `exec_other` — an execution tick leaves the goals that are not active as they are
* `stuckDraft_of_step` — no tick makes a stuck draft
* `replanning_is_bounded` — the number of replans, and the goals that are stuck after a tick
-/

namespace ForgeKit.Goals

open GoalStore

/-! ## Records of a replan -/

theorem countP_replan_eq_zero {ev : List EvidenceRecord} (h : ∀ e ∈ ev, e.kind ≠ .replan) :
    ev.countP (fun e => e.kind = .replan) = 0 := by
  rw [List.countP_eq_zero]
  intro e he
  simpa using h e he

/-- Records of other kinds do not count as a replan. -/
theorem replanAttempts_append {g g' : Goal} (added : List EvidenceRecord)
    (hevidence : g'.evidence = g.evidence ++ added) (hadded : ∀ e ∈ added, e.kind ≠ .replan) :
    replanAttempts g' = replanAttempts g := by
  rw [replanAttempts, hevidence, List.countP_append, countP_replan_eq_zero hadded]
  rfl

theorem replanAttempts_proposals {now : String} {packets : List RepoImprovementPacket} {g : Goal}
    (h : g.evidence = packets.map (proposalOf now)) : replanAttempts g = 0 := by
  rw [replanAttempts, h]
  refine countP_replan_eq_zero fun e he => ?_
  obtain ⟨p, -, rfl⟩ := List.mem_map.mp he
  simp [proposalOf]

theorem AttemptRecords.replan {pid : String} {added : List EvidenceRecord}
    (h : AttemptRecords pid added) : ∀ e ∈ added, e.kind ≠ .replan := by
  intro e he
  cases h with
  | refused ts summary => rw [List.mem_singleton.mp he]; simp
  | executed ts summary rest hrest =>
    rcases List.mem_cons.mp he with rfl | he
    · simp
    · simp [hrest e he]

theorem Ran.replanAttempts {g g' : Goal} {pids calls : List String} (h : Ran g pids calls g') :
    replanAttempts g' = replanAttempts g := by
  induction h with
  | nil g => rfl
  | unresolved pid h ih => exact ih
  | attempted pid pid' called hattempt hsame h ih =>
    obtain ⟨added, hadded, hrecords⟩ := hattempt.records
    rw [ih, replanAttempts_append added hadded hrecords.replan]

/-- One tick adds a replan only to a goal that has fewer of them than the ticker allows. -/
theorem GoalChange.replanAttempts {rt : GoalRuntime} {g g' : Goal} {a : GoalTick}
    (h : GoalChange rt g a g') :
    replanAttempts g' = replanAttempts g
      ∨ ∃ t, a = .continuation t ∧ replanAttempts g < t.maxReplanAttempts
        ∧ replanAttempts g' = replanAttempts g + 1 := by
  cases h with
  | same => exact .inl rfl
  | @scheduled t _ hmem hsched =>
    refine .inl ?_
    cases hsched with
    | linked updatedAt hne hleaf =>
      refine replanAttempts_append _ rfl fun e he => ?_
      obtain ⟨p, -, rfl⟩ := List.mem_map.mp he
      simp [proposalOf]
    | split _ added hchildren hfields hadded =>
      refine replanAttempts_append added (by rw [hfields]) fun e he => ?_
      rcases hadded e he with hk | hk <;> simp [hk]
  | executed hexec =>
    refine .inl ?_
    cases hexec with
    | same => rfl
    | governed stage summary now hnew =>
      exact replanAttempts_append [⟨now, .decision, summary, some (governanceRef stage)⟩] rfl
        (by simp)
    | ran hactive hallowed hpids hran => exact hran.replanAttempts
  | @continued t _ _ hsettled hmoved =>
    rcases hsettled.or_moved hmoved with hsettled | hmoved
    · cases hsettled with
      | same => exact .inl rfl
      | rolledUp summary ts updatedAt =>
        exact .inl (replanAttempts_append [⟨ts, .verification, summary, none⟩] rfl (by simp))
      | escalated summary ts updatedAt =>
        exact .inl (replanAttempts_append [⟨ts, .blocked, summary, none⟩] rfl (by simp))
      | retried summary ts updatedAt hactive hleaf hloaded hstuck hleft =>
        refine .inr ⟨t, rfl, hleft, ?_⟩
        simp [Goals.replanAttempts]
    · cases hmoved with
      | same => exact .inl rfl
      | activated updatedAt => exact .inl rfl
      | closed summary ts updatedAt =>
        exact .inl (replanAttempts_append [⟨ts, .verification, summary, none⟩] rfl (by simp))

/-! ## Drafts -/

/-- An execution tick is about active goals only. -/
theorem exec_other {t : ExecTick} {rt : GoalRuntime} {k : String} {g : Goal}
    (h : get rt.store k = some g) (hst : g.status ≠ .active) :
    get (t.execTick rt).store k = some g := by
  obtain ⟨-, hframe, -⟩ := ExecTick.execGoals_spec (t := t) (ExecTick.loadedById rt.store) rt
    (fun g hg => ExecTick.mem_activeGoals hg) (ExecTick.activeGoals_nodup rt.store)
  refine ((hframe k fun hmem => ?_).1).trans h
  obtain ⟨g', hg', hid⟩ := List.mem_map.mp hmem
  obtain ⟨hget, hactive⟩ := ExecTick.mem_activeGoals hg'
  rw [hid, h, Option.some.injEq] at hget
  exact hst (hget ▸ hactive)

theorem Settled.draft {t : ContinuationTick} {g g' : Goal} (h : Settled t g g')
    (hdraft : g'.status = .draft) : g' = g := by
  cases h with
  | same => rfl
  | rolledUp => cases hdraft
  | retried summary ts updatedAt hactive => simp [hactive] at hdraft
  | escalated => cases hdraft

theorem PlanMoved.draft {ms : List PlanMove} {g g' : Goal} (h : PlanMoved ms g g')
    (hdraft : g'.status = .draft) : g' = g := by
  cases h with
  | same => rfl
  | activated => cases hdraft
  | closed => cases hdraft

/-- A goal that a scheduler tick makes has only proposals, so that nothing of it was refused. -/
theorem ScheduledChild.not_stuck {found : List RepoImprovementPacket} {g : Goal}
    (h : ScheduledChild found g) : isStuck g = false := by
  obtain ⟨packets, now, -, hevidence, -⟩ := h.evidence
  rw [Bool.eq_false_iff]
  intro hstuck
  refine (isStuck_iff.mp hstuck).1 (blockedPacketIds_eq_nil.mpr fun p _ _ hdecision => ?_)
  rw [packetRefs, hevidence, refsOf_proposals_of_ne (by simp)] at hdecision
  cases hdecision

/-- A draft of the store that is stuck. -/
def StuckDraft (store : GoalStore) (k : String) (g : Goal) : Prop :=
  get store k = some g ∧ g.status = .draft ∧ isStuck g = true

/-- **No tick makes a stuck draft.** -/
theorem stuckDraft_of_step {rt : GoalRuntime} {a : GoalTick} {k : String} {g' : Goal}
    (h : StuckDraft (goalStep rt a).store k g') : StuckDraft rt.store k g' := by
  obtain ⟨hget', hdraft, hstuck⟩ := h
  suffices hkept : get rt.store k = some g' from ⟨hkept, hdraft, hstuck⟩
  rcases goalStep_get hget' with ⟨g, hget, hchange⟩ | ⟨-, hmade⟩
  · suffices hsame : g' = g by rw [hsame]; exact hget
    cases hchange with
    | same => rfl
    | scheduled hmem hsched =>
      obtain ⟨-, hactive, -⟩ := SchedulerTick.mem_batch hmem
      cases hsched with
      | linked updatedAt hne hleaf =>
        rw [linkedGoal_status_active _ _ _ _ hactive] at hdraft
        split at hdraft <;> cases hdraft
      | split _ added hchildren hfields =>
        rw [hfields] at hdraft
        simp [hactive] at hdraft
    | @executed t _ _ hexec =>
      by_cases hactive : g.status = .active
      · cases hexec with
        | same => rfl
        | governed stage summary now hnew => simp [hactive] at hdraft
        | ran hactive hallowed hpids hran =>
          rw [hran.active hactive] at hdraft
          cases hdraft
      · have hkeep := exec_other (t := t) hget hactive
        rw [show get (goalStep rt (.exec t)).store k = some g from hkeep, Option.some.injEq] at hget'
        exact hget'.symm
    | continued hsettled hmoved =>
      rcases hsettled.or_moved hmoved with hsettled | hmoved
      · exact hsettled.draft hdraft
      · exact hmoved.draft hdraft
  · obtain @⟨t, _, g, -, -, hchild⟩ := hmade
    rw [hchild.not_stuck] at hstuck
    cases hstuck

/-! ## Stuck goals after a continuation tick -/

/-- Refused packets that are unlinked are not refused packets of the goal any more. -/
theorem isStuck_retried {g g' : Goal} {summary ts : String}
    (hpackets : g'.packets = g.packets.filter (· ∉ blockedPacketIds g))
    (hevidence : g'.evidence = g.evidence ++ [⟨ts, .replan, summary, none⟩]) :
    isStuck g' = false := by
  rw [Bool.eq_false_iff]
  intro hstuck
  refine (isStuck_iff.mp hstuck).1 (blockedPacketIds_eq_nil.mpr fun p hp hproposed hdecided => ?_)
  rw [hpackets, List.mem_filter] at hp
  simp only [packetRefs, hevidence, mem_refsOf_append, mem_refsOf_singleton] at hproposed hdecided ⊢
  by_contra hexecuted
  rw [not_or] at hexecuted
  have hblocked : p ∈ blockedPacketIds g := mem_blockedPacketIds.mpr
    ⟨hp.1, hproposed.resolve_right (by simp), hdecided.resolve_right (by simp), hexecuted.1⟩
  simp [hblocked] at hp

/-- The first two passes leave no loaded active leaf goal stuck. -/
theorem settled_not_stuck {t : ContinuationTick} {g : Goal} (hloaded : isLoaded g = true)
    (hactive : g.status = .active) (hleaf : g.children = [])
    (hstill : (t.replanStuck (t.rollUp g)).status = .active) :
    isStuck (t.replanStuck (t.rollUp g)) = false := by
  have hnotActive : ∀ g', t.replanStuck (t.rollUp g) = g' → g'.status ≠ .active → False :=
    fun g' heq hst => hst (heq ▸ hstill)
  by_cases hcomplete : isGoalComplete g = true
  · -- a goal that was closed is not replanned
    obtain ⟨summary, ts, updatedAt, hroll⟩ :=
      ContinuationTick.rollUp_complete (t := t) hloaded hactive hleaf hcomplete
    have hkeep : t.replanStuck (t.rollUp g) = t.rollUp g := by
      unfold ContinuationTick.replanStuck
      rw [if_neg]
      rintro ⟨-, hst, -⟩
      rw [hroll] at hst
      cases hst
    exact (hnotActive _ (hkeep.trans hroll) (by simp)).elim
  · have hroll : t.rollUp g = g := by
      unfold ContinuationTick.rollUp
      rw [if_neg fun h => hcomplete h.2.2.2]
    rw [hroll] at hnotActive ⊢
    by_cases hstuck : isStuck g = true
    · by_cases hleft : replanAttempts g < t.maxReplanAttempts
      · obtain ⟨summary, ts, updatedAt, hretry⟩ :=
          ContinuationTick.replanStuck_retry (t := t) hloaded hactive hleaf hstuck hleft
        rw [hretry]
        exact isStuck_retried rfl rfl
      · have hparked := ContinuationTick.replanStuck_escalate (t := t) hloaded hactive hleaf hstuck
          (Nat.le_of_not_lt hleft)
        exact (hnotActive _ rfl (by simp [hparked])).elim
    · have hkeep : t.replanStuck g = g := by
        unfold ContinuationTick.replanStuck
        rw [if_neg fun h => hstuck h.2.2.2]
      rw [hkeep]
      exact Bool.eq_false_iff.mpr hstuck

/-- Whether a goal is stuck does not depend on its status. -/
theorem isStuck_congr {g g' : Goal} (hpackets : g'.packets = g.packets)
    (hevidence : g'.evidence = g.evidence) : isStuck g' = isStuck g := by
  rw [Bool.eq_iff_iff]
  simp only [isStuck_iff, ne_eq, blockedPacketIds_eq_nil, pendingPacketIds_eq_nil, packetRefs,
    hpackets, hevidence]

/-- An active leaf goal that is stuck after a tick is not loaded, or was a stuck draft before it. -/
theorem continuationTick_stuck {t : ContinuationTick} {rt : GoalRuntime} {k : String} {g' : Goal}
    (hget' : get (t.continuationTick rt).store k = some g') (hactive : g'.status = .active)
    (hleaf : g'.children = []) (hstuck : isStuck g' = true) :
    isLoaded g' = false ∨ ∃ g, StuckDraft rt.store k g := by
  cases hget : get rt.store k with
  | none =>
    rw [ContinuationTick.continuationTick_none hget] at hget'
    cases hget'
  | some g =>
    have hid : g'.id = g.id := (get_id hget').trans (get_id hget).symm
    by_cases hbefore : g.status = .active ∧ g.children = []
    · refine .inl (Bool.eq_false_iff.mpr fun hloaded => ?_)
      have hsettled := ContinuationTick.continuationTick_leaf (t := t) hget hbefore.1 hbefore.2
      rw [hget', Option.some.injEq] at hsettled
      have hnot := settled_not_stuck (t := t) (g := g) (by rwa [isLoaded, ← hid]) hbefore.1
        hbefore.2 (hsettled ▸ hactive)
      rw [← hsettled, hstuck] at hnot
      cases hnot
    · obtain ⟨g1, g2, hsettled, hmoved, hget2⟩ :=
        ContinuationTick.continuationTick_get (t := t) hget
      rw [hget', Option.some.injEq] at hget2
      subst hget2
      rcases hsettled.or_moved hmoved with hsettled | hmoved
      · cases hsettled with
        | same => exact absurd ⟨hactive, hleaf⟩ hbefore
        | rolledUp => cases hactive
        | retried summary ts updatedAt hactive' hleaf' => exact absurd ⟨hactive', hleaf'⟩ hbefore
        | escalated => cases hactive
      · cases hmoved with
        | same => exact absurd ⟨hactive, hleaf⟩ hbefore
        | activated updatedAt hdraft =>
          refine .inr ⟨g, hget, hdraft, ?_⟩
          rw [← hstuck]
          refine Eq.symm (isStuck_congr ?_ ?_) <;> rfl
        | closed => cases hactive

/-! ## Runs -/

/-- The replan records of a goal in a store; none when it is not there. -/
def startAttempts (store : GoalStore) (k : String) : Nat :=
  ((get store k).map replanAttempts).getD 0

/-- No goal has more replan records than the ticker allows, or than it started with. -/
def ReplansBounded (limit : Nat) (store : GoalStore) (rt : GoalRuntime) : Prop :=
  ∀ k g, get rt.store k = some g → replanAttempts g ≤ max limit (startAttempts store k)

/-- After a continuation tick the active leaf goals that are stuck are goals that are never loaded,
and drafts of the start that were stuck there and were activated by this tick. -/
def ClearsStuck (store : GoalStore) (rt : GoalRuntime) : GoalTick → Prop
  | .continuation t => ∀ k g', get (t.continuationTick rt).store k = some g' →
      g'.status = .active → g'.children = [] → isStuck g' = true →
      isLoaded g' = false ∨ ∃ g, StuckDraft rt.store k g ∧ StuckDraft store k g
  | _ => True

/-- The continuation ticks of a run have this bound. -/
def Limited (limit : Nat) (a : GoalTick) : Prop :=
  ∀ t, a = .continuation t → t.maxReplanAttempts = limit

theorem replansBounded_step {limit : Nat} {store : GoalStore} {rt : GoalRuntime} {a : GoalTick}
    (hlimit : Limited limit a) (h : ReplansBounded limit store rt) :
    ReplansBounded limit store (goalStep rt a) := by
  intro k g' hget'
  rcases goalStep_get hget' with ⟨g, hget, hchange⟩ | ⟨-, hmade⟩
  · have hold := h k g hget
    rcases hchange.replanAttempts with hsame | ⟨t, rfl, hleft, hmore⟩
    · rwa [hsame]
    · have := hlimit t rfl
      omega
  · obtain @⟨t, _, g, -, -, hchild⟩ := hmade
    obtain ⟨packets, now, -, hevidence, -⟩ := hchild.evidence
    rw [replanAttempts_proposals hevidence]
    exact Nat.zero_le _

/--
**Replanning is bounded, and clears the goals that a tick finds stuck.** From any store: no goal
ever has more replan records than the bound and than it started with, and after every continuation
tick an active leaf goal is stuck only if it is never loaded, or was a stuck draft from the start on
until this tick activated it.
-/
theorem replanning_is_bounded (store : GoalStore) (logs : GovernanceLogs) (limit : Nat)
    (ticks : List GoalTick) (hlimit : ∀ a ∈ ticks, Limited limit a) :
    Machine.Always goalStep (ReplansBounded limit store) (.start store logs) ticks
      ∧ Machine.EachStep goalStep (ClearsStuck store) (.start store logs) ticks := by
  constructor
  · refine Machine.always_of_step (A := Limited limit)
      (fun rt a hl h => replansBounded_step hl h) ?_ hlimit
    intro k g hget
    have hstart : startAttempts store k = replanAttempts g := by
      rw [startAttempts, show get store k = some g from hget]
      rfl
    rw [hstart]
    exact Nat.le_max_right _ _
  · refine Machine.eachStep_of_step (A := Limited limit)
      (I := fun rt => ∀ k g, StuckDraft rt.store k g → StuckDraft store k g)
      (fun rt a _ h k g hdraft => h k g (stuckDraft_of_step hdraft)) ?_ (fun k g h => h) hlimit
    intro rt a _ h
    cases a with
    | schedule t => trivial
    | exec t => trivial
    | continuation t =>
      intro k g' hget' hactive hleaf hstuck
      rcases continuationTick_stuck hget' hactive hleaf hstuck with hloaded | ⟨g, hdraft⟩
      · exact .inl hloaded
      · exact .inr ⟨g, hdraft, h k g hdraft⟩

/-- A goal whose only packet was refused. -/
def refusedGoal (status : GoalStatus) : Goal :=
  { id := "goal-2", title := "rotate keys", status, parentId := some "goal-1"
    packets := ["packet-1"]
    evidence := [⟨"t1", .proposal, "[risky] rotate keys -> approval", some "packet-1"⟩,
      ⟨"t2", .decision, "execute 거부", some "packet-1"⟩] }

/-- Two ticks on an active goal that is stuck: the first one retries it. -/
theorem stuck_goal_is_retried :
    Machine.Always goalStep (ReplansBounded 1 (save Table.empty (refusedGoal .active)))
        (.start (save Table.empty (refusedGoal .active)) [])
        [.continuation {}, .continuation {}]
      ∧ Machine.EachStep goalStep (ClearsStuck (save Table.empty (refusedGoal .active)))
        (.start (save Table.empty (refusedGoal .active)) []) [.continuation {}, .continuation {}] := by
  refine replanning_is_bounded _ _ 1 _ fun a ha t heq => ?_
  simp only [List.mem_cons, List.not_mem_nil, or_false, or_self] at ha
  rw [ha] at heq
  cases heq
  rfl

/-- An active plan whose only step is a draft that was refused. -/
def refusedPlan : GoalStore :=
  saveAll Table.empty [refusedGoal .draft,
    { id := "goal-1", title := "keys", status := .active, children := ["goal-2"] }]

/-- The tick activates the draft after it looked for stuck goals. -/
theorem stuck_draft_is_activated :
    ¬ ∀ (store : GoalStore) (logs : GovernanceLogs) (limit : Nat) (ticks : List GoalTick)
        (t : ContinuationTick), (∀ a ∈ ticks ++ [.continuation t], Limited limit a) →
        GoalStore.Forall (fun g => g.status = .active → g.children = [] → isStuck g = false)
          (Machine.run goalStep (.start store logs) (ticks ++ [.continuation t])).store := by
  intro h
  have hclear := h refusedPlan [] 1 [] {} (by
    intro a ha t heq
    rw [List.mem_singleton.mp ha] at heq
    cases heq
    rfl)
  have hchild : (get (Machine.run goalStep (.start refusedPlan []) [.continuation {}]).store
      "goal-2").map (fun g => (g.status, g.children, isStuck g)) = some (.active, [], true) := by
    decide
  obtain ⟨g, hget, hg⟩ := Option.map_eq_some_iff.mp hchild
  simp only [Prod.mk.injEq] at hg
  have hnot := hclear _ g hget hg.1 hg.2.1
  rw [hg.2.2] at hnot
  cases hnot

end ForgeKit.Goals
