import ForgeKit.Goals.ExecuteBridge
import ForgeKit.Goals.Governance

/-!
# The execution tick (`goal_exec_tick`)

The tick runs the waiting packets of active goals through the bridge. A goal whose design chain is
not ready is skipped, with one refusal recorded for each stage of the chain.

* `execTick` — one tick
* `execTick_get` — what a goal of the store is after the tick, and which of its packets reached
  the mutator
* `execTick_applyCalls` — a goal that the design gate stops reaches the bridge with no packet
-/

namespace ForgeKit.Goals

open GoalStore

/-- The bounds of an executor and what one of its ticks meets. -/
structure ExecTick where
  maxGoals : Nat := 2
  maxPacketsPerGoal : Nat := 2
  approver : String := "operator"
  clock : String → String := fun _ => ""
  /-- What the gates answer, by the number of calls that were made before. -/
  gate : Nat → GateAnswer

/-- `_attempted_packet_ids`. -/
def attemptedPacketIds (g : Goal) : List String :=
  g.evidence.filterMap fun e =>
    if e.kind = .execution ∨ e.kind = .decision then e.ref.filter (· ≠ "") else none

/-- `_proposed_packet_ids`. -/
def proposedPacketIds (g : Goal) : List String :=
  g.packets.filter fun p => p ∈ packetRefs g .proposal

/-- The packets that are proposed and were not attempted. -/
def waitingPacketIds (g : Goal) : List String :=
  (proposedPacketIds g).filter fun p => p ∉ attemptedPacketIds g

/-- `governance:<stage>`. -/
def governanceRef (stage : String) : String := "governance:" ++ stage

/-- A ref that the executor uses for a stopped design, and not the id of a packet. -/
def isGovernanceRef (pid : String) : Bool := PyText.startsWith pid "governance:"

/-- `_record_governance_block`. -/
def recordGovernanceBlock (store : GoalStore) (g : Goal) (stage reason now : String) : GoalStore :=
  if g.evidence.any fun e => e.kind = .decision && e.ref = some (governanceRef stage) then store
  else save store (g.addEvidence .decision
    ("설계 미완 — specialist 실행 차단 (stage=" ++ stage ++ "): " ++ reason)
    (some (governanceRef stage)) now)

/-- The calls that were made for one goal. -/
def callsFor (calls : List (String × String)) (goalId : String) : List String :=
  calls.filterMap fun c => if c.1 = goalId then some c.2 else none

namespace ExecTick

variable (t : ExecTick)

/-- The loop over the packets of one goal; the goal is read again after each of them. -/
def execPackets (goalId : String) : GoalRuntime → Goal → List String → GoalRuntime
  | rt, _, [] => rt
  | rt, g, pid :: pids =>
    let r := applyApprovedPacket g pid t.approver (t.gate rt.applyCalls.length) (t.clock goalId)
    let store := match r.saved with
      | some g' => save rt.store g'
      | none => rt.store
    let rt := { rt with
      store
      applyCalls := rt.applyCalls ++ [(goalId, pid)]
      mutatorCalls := rt.mutatorCalls ++ if r.mutatorCalled then [(goalId, r.packetId)] else [] }
    execPackets goalId rt ((get rt.store goalId).getD g) pids

/-- The body of the loop over the active goals. -/
def execGoal (byId : String → Option Goal) (rt : GoalRuntime) (g : Goal) : GoalRuntime :=
  let verdict := designGate g byId rt.logs
  if verdict.allowed = false then
    { rt with
      store := recordGovernanceBlock rt.store g verdict.stage verdict.reason (t.clock g.id) }
  else if waitingPacketIds g = [] then rt
  else t.execPackets g.id rt g ((waitingPacketIds g).take t.maxPacketsPerGoal)

/-- The active goals of a tick. -/
def activeGoals (store : GoalStore) : List Goal :=
  ((loadAll store).filter fun g => g.status = .active).take t.maxGoals

/-- `by_id`: the goals that were loaded. -/
def loadedById (store : GoalStore) (goalId : String) : Option Goal :=
  (loadAll store).find? fun g => g.id = goalId

/-- `GoalExecTicker.tick`. -/
def execTick (rt : GoalRuntime) : GoalRuntime :=
  (t.activeGoals rt.store).foldl (t.execGoal (loadedById rt.store)) rt

end ExecTick

/-! ## Waiting packets -/

theorem mem_attemptedPacketIds {g : Goal} {p : String} :
    p ∈ attemptedPacketIds g ↔ p ∈ packetRefs g .execution ∨ p ∈ packetRefs g .decision := by
  simp only [attemptedPacketIds, packetRefs, refsOf, List.mem_filterMap, ← exists_or, ← and_or_left]
  refine exists_congr fun e => and_congr_right fun _ => ?_
  by_cases hx : e.kind = .execution <;> by_cases hd : e.kind = .decision <;> simp [hx, hd]

theorem waitingPacketIds_eq (g : Goal) : waitingPacketIds g = pendingPacketIds g := by
  unfold waitingPacketIds proposedPacketIds pendingPacketIds
  rw [List.filter_filter]
  refine List.filter_congr fun p _ => ?_
  simp [mem_attemptedPacketIds, and_comm]

/-! ## What a tick does to one goal -/

/-- The attempts on some packets of a goal, with the packets that reached the mutator. -/
inductive Ran : Goal → List String → List String → Goal → Prop
  | nil (g : Goal) : Ran g [] [] g
  | unresolved {g g' : Goal} {pids calls : List String} (pid : String) (h : Ran g pids calls g') :
      Ran g (pid :: pids) calls g'
  | attempted {g g1 g' : Goal} {pids calls : List String} (pid pid' : String) (called : Bool)
      (hattempt : Attempted g pid' g1)
      (hsame : PyText.strip pid = pid → pid ≠ "" → pid' = pid) (h : Ran g1 pids calls g') :
      Ran g (pid :: pids) ((if called then [pid'] else []) ++ calls) g'

/-- Attempts change the status, the evidence and the date of a goal. -/
theorem Ran.fields {g g' : Goal} {pids calls : List String} (h : Ran g pids calls g') :
    g' = { g with status := g'.status, evidence := g'.evidence, updatedAt := g'.updatedAt } := by
  induction h with
  | nil g => rfl
  | unresolved pid h ih => exact ih
  | attempted pid pid' called hattempt hsame h ih =>
    rw [hattempt.fields] at ih
    exact ih

/-- Attempts on an active goal leave it active. -/
theorem Ran.active {g g' : Goal} {pids calls : List String} (h : Ran g pids calls g')
    (hactive : g.status = .active) : g'.status = .active := by
  induction h with
  | nil g => exact hactive
  | unresolved pid h ih => exact ih hactive
  | attempted pid pid' called hattempt hsame h ih =>
    refine ih ?_
    rcases hattempt.status with hst | ⟨-, hst⟩
    · rw [hst, hactive]
    · exact hst

/-- What an execution tick makes of a goal: nothing, a refusal by the design gate, or attempts. -/
inductive ExecChange (byId : String → Option Goal) (logs : GovernanceLogs) (g : Goal) :
    List String → Goal → Prop
  | same : ExecChange byId logs g [] g
  | governed (stage summary now : String)
      (hnew : ∀ e ∈ g.evidence, e.kind = .decision → e.ref ≠ some (governanceRef stage)) :
      ExecChange byId logs g []
        (g.addEvidence .decision summary (some (governanceRef stage)) now)
  | ran {pids calls : List String} {g' : Goal} (hactive : g.status = .active)
      (hallowed : (designGate g byId logs).allowed = true) (hpids : pids <+: pendingPacketIds g)
      (h : Ran g pids calls g') : ExecChange byId logs g calls g'

/-- Another goal, and the calls made for it, are as they were. -/
structure TouchesOnly (goalId : String) (rt rt' : GoalRuntime) : Prop where
  logs : rt'.logs = rt.logs
  store : ∀ k, k ≠ goalId → get rt'.store k = get rt.store k
  apply : ∀ k, k ≠ goalId → callsFor rt'.applyCalls k = callsFor rt.applyCalls k
  mutator : ∀ k, k ≠ goalId → callsFor rt'.mutatorCalls k = callsFor rt.mutatorCalls k

theorem TouchesOnly.refl (goalId : String) (rt : GoalRuntime) : TouchesOnly goalId rt rt :=
  ⟨rfl, fun _ _ => rfl, fun _ _ => rfl, fun _ _ => rfl⟩

theorem TouchesOnly.trans {goalId : String} {rt rt' rt'' : GoalRuntime}
    (h : TouchesOnly goalId rt rt') (h' : TouchesOnly goalId rt' rt'') :
    TouchesOnly goalId rt rt'' :=
  ⟨h'.logs.trans h.logs, fun k hk => (h'.store k hk).trans (h.store k hk),
    fun k hk => (h'.apply k hk).trans (h.apply k hk),
    fun k hk => (h'.mutator k hk).trans (h.mutator k hk)⟩

theorem callsFor_append (calls calls' : List (String × String)) (k : String) :
    callsFor (calls ++ calls') k = callsFor calls k ++ callsFor calls' k := List.filterMap_append

@[simp] theorem callsFor_self (k pid : String) : callsFor [(k, pid)] k = [pid] := by
  simp [callsFor]

theorem callsFor_ne {k k' : String} (pid : String) (h : k' ≠ k) : callsFor [(k', pid)] k = [] := by
  simp [callsFor, h]

namespace ExecTick

variable {t : ExecTick}

/-- The packets of one goal. The goal at hand is always the one in the store. -/
theorem execPackets_spec {goalId : String} (rt : GoalRuntime) {g : Goal} (pids : List String)
    (hget : get rt.store goalId = some g) :
    TouchesOnly goalId rt (t.execPackets goalId rt g pids)
      ∧ ∃ g' calls, get (t.execPackets goalId rt g pids).store goalId = some g'
        ∧ Ran g pids calls g'
        ∧ callsFor (t.execPackets goalId rt g pids).mutatorCalls goalId
            = callsFor rt.mutatorCalls goalId ++ calls := by
  induction pids generalizing rt g with
  | nil =>
    exact ⟨.refl goalId rt, g, [], hget, .nil g, (List.append_nil _).symm⟩
  | cons pid pids ih =>
    have hid : g.id = goalId := get_id hget
    simp only [execPackets]
    have hspec := applyApprovedPacket_spec g pid t.approver (t.gate rt.applyCalls.length)
      (t.clock goalId)
    generalize applyApprovedPacket g pid t.approver (t.gate rt.applyCalls.length)
      (t.clock goalId) = r at hspec ⊢
    have happly : ∀ k, k ≠ goalId →
        callsFor (rt.applyCalls ++ [(goalId, pid)]) k = callsFor rt.applyCalls k := by
      intro k hk
      rw [callsFor_append, callsFor_ne pid (Ne.symm hk), List.append_nil]
    rcases hspec with ⟨hsaved, hcalled⟩ | ⟨g1, pid', hsaved, hpid', hattempt, hsame⟩
    · rw [hsaved, hcalled]
      simp only [Bool.false_eq_true, if_false, List.append_nil, hget, Option.getD_some]
      obtain ⟨htouch, g', calls, hget', hran, hcalls⟩ :=
        ih { rt with applyCalls := rt.applyCalls ++ [(goalId, pid)] } hget
      refine ⟨.trans ?_ htouch, g', calls, hget', .unresolved pid hran, hcalls⟩
      exact ⟨rfl, fun _ _ => rfl, happly, fun _ _ => rfl⟩
    · have hid1 : g1.id = goalId := by rw [hattempt.fields]; exact hid
      have hget1 : get (save rt.store g1) goalId = some g1 := hid1 ▸ get_save_self rt.store g1
      rw [hsaved, hpid']
      simp only [hget1, Option.getD_some]
      obtain ⟨htouch, g', calls, hget', hran, hcalls⟩ := ih { rt with
        store := save rt.store g1
        applyCalls := rt.applyCalls ++ [(goalId, pid)]
        mutatorCalls := rt.mutatorCalls ++ if r.mutatorCalled then [(goalId, pid')] else [] } hget1
      refine ⟨.trans ?_ htouch, g', _, hget', .attempted pid pid' r.mutatorCalled hattempt hsame hran,
        ?_⟩
      · refine ⟨rfl, fun k hk => get_save_ne rt.store (hid1.symm ▸ Ne.symm hk), happly,
          fun k hk => ?_⟩
        rw [callsFor_append]
        cases r.mutatorCalled with
        | false => exact List.append_nil _
        | true => rw [if_pos rfl, callsFor_ne pid' (Ne.symm hk), List.append_nil]
      · rw [hcalls, callsFor_append, List.append_assoc]
        cases r.mutatorCalled with
        | false => rfl
        | true => rw [if_pos rfl, if_pos rfl, callsFor_self]

/-- One goal of the tick. -/
theorem execGoal_spec (byId : String → Option Goal) {rt : GoalRuntime} {g : Goal}
    (hget : get rt.store g.id = some g) (hactive : g.status = .active) :
    TouchesOnly g.id rt (t.execGoal byId rt g)
      ∧ ∃ g' calls, get (t.execGoal byId rt g).store g.id = some g'
        ∧ ExecChange byId rt.logs g calls g'
        ∧ callsFor (t.execGoal byId rt g).mutatorCalls g.id
            = callsFor rt.mutatorCalls g.id ++ calls := by
  have hsame : TouchesOnly g.id rt rt ∧ ∃ g' calls, get rt.store g.id = some g'
      ∧ ExecChange byId rt.logs g calls g'
      ∧ callsFor rt.mutatorCalls g.id = callsFor rt.mutatorCalls g.id ++ calls :=
    ⟨.refl g.id rt, g, [], hget, .same, (List.append_nil _).symm⟩
  unfold execGoal
  simp only
  by_cases hallowed : (designGate g byId rt.logs).allowed = false
  · rw [if_pos hallowed]
    unfold recordGovernanceBlock
    split
    · exact hsame
    · next hnew =>
      refine ⟨⟨rfl, fun k hk => get_save_ne rt.store (Ne.symm hk), fun _ _ => rfl, fun _ _ => rfl⟩,
        _, [], get_save_self rt.store _, .governed _ _ _ ?_, (List.append_nil _).symm⟩
      intro e he hkind href
      rw [Bool.not_eq_true, List.any_eq_false] at hnew
      exact hnew e he (by simp [hkind, href])
  · rw [if_neg hallowed]
    split
    · exact hsame
    · obtain ⟨htouch, g', calls, hget', hran, hcalls⟩ := execPackets_spec (t := t) rt
        ((waitingPacketIds g).take t.maxPacketsPerGoal) hget
      refine ⟨htouch, g', calls, hget', .ran hactive (by simpa using hallowed) ?_ hran, hcalls⟩
      rw [waitingPacketIds_eq]
      exact List.take_prefix _ _

/-- The active goals of a tick, one after the other. -/
theorem execGoals_spec (byId : String → Option Goal) (rt : GoalRuntime) {goals : List Goal}
    (hcur : ∀ g ∈ goals, get rt.store g.id = some g ∧ g.status = .active)
    (hnodup : (goals.map Goal.id).Nodup) :
    (goals.foldl (t.execGoal byId) rt).logs = rt.logs
      ∧ (∀ k, k ∉ goals.map Goal.id →
          get (goals.foldl (t.execGoal byId) rt).store k = get rt.store k
            ∧ callsFor (goals.foldl (t.execGoal byId) rt).applyCalls k = callsFor rt.applyCalls k
            ∧ callsFor (goals.foldl (t.execGoal byId) rt).mutatorCalls k
                = callsFor rt.mutatorCalls k)
      ∧ ∀ g ∈ goals, ∃ g' calls, get (goals.foldl (t.execGoal byId) rt).store g.id = some g'
          ∧ ExecChange byId rt.logs g calls g'
          ∧ callsFor (goals.foldl (t.execGoal byId) rt).mutatorCalls g.id
              = callsFor rt.mutatorCalls g.id ++ calls := by
  induction goals generalizing rt with
  | nil => exact ⟨rfl, fun k _ => ⟨rfl, rfl, rfl⟩, by simp⟩
  | cons g goals ih =>
    rw [List.foldl_cons]
    obtain ⟨hget, hactive⟩ := hcur g List.mem_cons_self
    obtain ⟨htouch, g', calls, hget', hchange, hcalls⟩ := execGoal_spec (t := t) byId hget
      hactive
    rw [List.map_cons, List.nodup_cons] at hnodup
    have hne : ∀ g2 ∈ goals, g2.id ≠ g.id := fun g2 hg2 he =>
      hnodup.1 (he ▸ List.mem_map_of_mem (f := Goal.id) hg2)
    obtain ⟨hlogs, hframe, heach⟩ := ih (t.execGoal byId rt g) (fun g2 hg2 => by
      rw [htouch.store g2.id (hne g2 hg2)]
      exact hcur g2 (List.mem_cons_of_mem _ hg2)) hnodup.2
    refine ⟨hlogs.trans htouch.logs, ?_, ?_⟩
    · intro k hk
      rw [List.map_cons, List.mem_cons, not_or] at hk
      obtain ⟨h1, h2, h3⟩ := hframe k hk.2
      exact ⟨h1.trans (htouch.store k hk.1), h2.trans (htouch.apply k hk.1),
        h3.trans (htouch.mutator k hk.1)⟩
    · intro g2 hg2
      rcases List.mem_cons.mp hg2 with rfl | hg2
      · obtain ⟨h1, -, h3⟩ := hframe g2.id hnodup.1
        exact ⟨g', calls, h1.trans hget', hchange, h3.trans hcalls⟩
      · obtain ⟨g2', calls2, h1, h2, h3⟩ := heach g2 hg2
        rw [htouch.logs] at h2
        rw [htouch.mutator g2.id (hne g2 hg2)] at h3
        exact ⟨g2', calls2, h1, h2, h3⟩

theorem mem_activeGoals {store : GoalStore} {g : Goal} (h : g ∈ t.activeGoals store) :
    get store g.id = some g ∧ g.status = .active := by
  have hg := List.mem_filter.mp (List.mem_of_mem_take h)
  exact ⟨get_of_mem_loadAll hg.1, by simpa using hg.2⟩

theorem activeGoals_nodup (store : GoalStore) : ((t.activeGoals store).map Goal.id).Nodup :=
  (loadAll_nodup store).sublist (((List.take_sublist _ _).trans List.filter_sublist).map Goal.id)

/-- **What a goal of the store is after an execution tick.** -/
theorem execTick_get {rt : GoalRuntime} {k : String} {g : Goal} (h : get rt.store k = some g) :
    ∃ g' calls, get (t.execTick rt).store k = some g'
      ∧ ExecChange (loadedById rt.store) rt.logs g calls g'
      ∧ callsFor (t.execTick rt).mutatorCalls k = callsFor rt.mutatorCalls k ++ calls := by
  obtain ⟨-, hframe, heach⟩ := execGoals_spec (t := t) (loadedById rt.store) rt
    (fun g hg => mem_activeGoals hg) (activeGoals_nodup rt.store)
  by_cases hmem : k ∈ (t.activeGoals rt.store).map Goal.id
  · obtain ⟨g2, hg2, rfl⟩ := List.mem_map.mp hmem
    have hg2' := (mem_activeGoals hg2).1
    rw [h, Option.some.injEq] at hg2'
    subst hg2'
    exact heach g hg2
  · obtain ⟨h1, -, h3⟩ := hframe k hmem
    exact ⟨g, [], h1.trans h, .same, h3.trans (List.append_nil _).symm⟩

/-- A tick adds no goal. -/
theorem execTick_none {rt : GoalRuntime} {k : String} (h : get rt.store k = none) :
    get (t.execTick rt).store k = none
      ∧ callsFor (t.execTick rt).mutatorCalls k = callsFor rt.mutatorCalls k := by
  obtain ⟨-, hframe, -⟩ := execGoals_spec (t := t) (loadedById rt.store) rt
    (fun g hg => mem_activeGoals hg) (activeGoals_nodup rt.store)
  obtain ⟨h1, -, h3⟩ := hframe k fun hmem => by
    obtain ⟨g2, hg2, rfl⟩ := List.mem_map.mp hmem
    rw [(mem_activeGoals hg2).1] at h
    cases h
  exact ⟨h1.trans h, h3⟩

/-- A goal that the design gate stops reaches the bridge with no packet. -/
theorem execGoals_applyCalls {byId : String → Option Goal} (rt : GoalRuntime) {goals : List Goal}
    {k : String} (hcur : ∀ g ∈ goals, get rt.store g.id = some g ∧ g.status = .active)
    (hnodup : (goals.map Goal.id).Nodup)
    (hstop : ∀ g ∈ goals, g.id = k → (designGate g byId rt.logs).allowed = false) :
    callsFor (goals.foldl (t.execGoal byId) rt).applyCalls k = callsFor rt.applyCalls k := by
  induction goals generalizing rt with
  | nil => rfl
  | cons g goals ih =>
    rw [List.foldl_cons]
    obtain ⟨hget, hactive⟩ := hcur g List.mem_cons_self
    obtain ⟨htouch, -⟩ := execGoal_spec (t := t) byId hget hactive
    rw [List.map_cons, List.nodup_cons] at hnodup
    have hrest := ih (t.execGoal byId rt g) (fun g2 hg2 => by
      rw [htouch.store g2.id fun he => hnodup.1 (he ▸ List.mem_map_of_mem (f := Goal.id) hg2)]
      exact hcur g2 (List.mem_cons_of_mem _ hg2)) hnodup.2 (fun g2 hg2 he => by
      rw [htouch.logs]
      exact hstop g2 (List.mem_cons_of_mem _ hg2) he)
    refine hrest.trans ?_
    by_cases hk : g.id = k
    · have hblocked := hstop g List.mem_cons_self hk
      simp only [execGoal, hblocked, if_true]
    · exact htouch.apply k (Ne.symm hk)

theorem execTick_applyCalls {rt : GoalRuntime} {k : String} {g : Goal}
    (h : get rt.store k = some g)
    (hstop : (designGate g (loadedById rt.store) rt.logs).allowed = false) :
    callsFor (t.execTick rt).applyCalls k = callsFor rt.applyCalls k := by
  refine execGoals_applyCalls rt (fun g hg => mem_activeGoals hg) (activeGoals_nodup rt.store) ?_
  rintro g2 hg2 rfl
  have hg2' := (mem_activeGoals hg2).1
  rw [h, Option.some.injEq] at hg2'
  exact hg2' ▸ hstop

end ExecTick

end ForgeKit.Goals
