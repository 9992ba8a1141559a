import ForgeKit.Goals.ExecTick

/-!
# Which goals an execution tick serves

The tick takes the first active goals of the list before it looks at whether they have work, and an
attempt on a packet that does not resolve leaves no record.

* `servesGoals_iff` — an idle tick means that no goal has work exactly when the first active goals
  hold one that has work, or none has
* `progresses_iff` — the goals that are attempted get closer to their end exactly when one of their
  attempts resolves to a waiting packet
-/

namespace ForgeKit.Goals

open GoalStore

/-! ## What an attempt resolves to -/

/-- The packet that an attempt on `pid` is recorded for. -/
def resolvedId (g : Goal) (pid : String) : Option String :=
  match resolvePacket g (some pid) with
  | .ok (resolved, _) => some resolved
  | .error _ => none

/-- An attempt records nothing when its packet does not resolve. -/
theorem applyApprovedPacket_of_unresolved {g : Goal} {pid : String} (h : resolvedId g pid = none)
    (approver : String) (a : GateAnswer) (now : String) :
    (applyApprovedPacket g pid approver a now).saved = none := by
  unfold resolvedId at h
  unfold applyApprovedPacket executeApprovedPacket
  cases hr : resolvePacket g (some pid) with
  | error e => rfl
  | ok r => rw [hr] at h; cases h

/-- An attempt whose packet resolves is recorded for that packet. -/
theorem applyApprovedPacket_of_resolved {g : Goal} {pid resolved : String}
    (h : resolvedId g pid = some resolved) (approver : String) (a : GateAnswer) (now : String) :
    ∃ g', (applyApprovedPacket g pid approver a now).saved = some g' ∧ Attempted g resolved g' := by
  have hid : (applyApprovedPacket g pid approver a now).saved ≠ none
      ∧ (applyApprovedPacket g pid approver a now).packetId = resolved := by
    unfold resolvedId at h
    unfold applyApprovedPacket executeApprovedPacket
    cases hr : resolvePacket g (some pid) with
    | error e => rw [hr] at h; cases h
    | ok r =>
      obtain ⟨resolved', pkt⟩ := r
      rw [hr] at h
      cases h
      simp only
      split
      · exact ⟨by simp, rfl⟩
      · split
        · obtain ⟨hpid, g', added, hsaved, -⟩ :=
            applyRealExecution_spec (reassertActive g now) resolved pkt.finding approver a now
          exact ⟨by simp [hsaved], hpid⟩
        · exact ⟨by simp, rfl⟩
  rcases applyApprovedPacket_spec g pid approver a now with ⟨hnone, -⟩ | ⟨g', pid', hsaved, hpid', ha, -⟩
  · exact absurd hnone hid.1
  · rw [hid.2] at hpid'
    exact ⟨g', hsaved, hpid' ▸ ha⟩

/-- An attempt adds no proposal. -/
theorem AttemptRecords.kind_ne {pid : String} {added : List EvidenceRecord}
    (h : AttemptRecords pid added) : ∀ e ∈ added, e.kind ≠ .proposal := by
  intro e he
  cases h with
  | refused ts summary =>
    rw [List.mem_singleton.mp he]
    simp
  | executed ts summary rest hrest =>
    rcases List.mem_cons.mp he with rfl | he
    · simp
    · rw [hrest e he]
      simp

/-- The packet of a record of an attempt. -/
theorem AttemptRecords.refs {pid p : String} {added : List EvidenceRecord}
    (h : AttemptRecords pid added) (hne : pid ≠ "") :
    p ∈ refsOf .execution added ∨ p ∈ refsOf .decision added ↔ p = pid := by
  cases h with
  | refused ts summary =>
    simp only [mem_refsOf_singleton]
    constructor
    · rintro (⟨hkind, -⟩ | ⟨-, href, -⟩)
      · cases hkind
      · exact (Option.some.inj href).symm
    · rintro rfl
      exact .inr ⟨trivial, rfl, hne⟩
  | executed ts summary rest hrest =>
    simp only [mem_refsOf, List.mem_cons]
    constructor
    · rintro (⟨e, rfl | he, hkind, href, -⟩ | ⟨e, rfl | he, hkind, href, -⟩)
      · exact (Option.some.inj href).symm
      · rw [hrest e he] at hkind; cases hkind
      · cases hkind
      · rw [hrest e he] at hkind; cases hkind
    · rintro rfl
      exact .inl ⟨_, .inl rfl, rfl, rfl, hne⟩

/-- What attempts leave alone: the links and the proposals. -/
structure SameWork (g g' : Goal) : Prop where
  packets : g'.packets = g.packets
  proposals : ∀ pid, lastProposal g' pid = lastProposal g pid
  proposed : ∀ p, p ∈ packetRefs g' .proposal ↔ p ∈ packetRefs g .proposal

theorem SameWork.refl (g : Goal) : SameWork g g := ⟨rfl, fun _ => rfl, fun _ => Iff.rfl⟩

theorem SameWork.trans {g g1 g2 : Goal} (h : SameWork g g1) (h' : SameWork g1 g2) :
    SameWork g g2 :=
  ⟨h'.packets.trans h.packets, fun pid => (h'.proposals pid).trans (h.proposals pid),
    fun p => (h'.proposed p).trans (h.proposed p)⟩

theorem Attempted.sameWork {g g' : Goal} {pid : String} (h : Attempted g pid g') :
    SameWork g g' := by
  obtain ⟨added, hadded, hrecords⟩ := h.records
  have hkinds := hrecords.kind_ne
  refine ⟨by rw [h.fields], fun p => ?_, fun p => ?_⟩
  · unfold lastProposal
    rw [hadded, List.reverse_append, List.find?_append]
    have hnone : added.reverse.find?
        (fun e => e.kind = .proposal && e.ref = some p && p ≠ "") = none := by
      refine List.find?_eq_none.mpr fun e he => ?_
      simp [hkinds e (List.mem_reverse.mp he)]
    rw [hnone, Option.none_or]
  · rw [packetRefs, hadded, mem_refsOf_append]
    refine or_iff_left fun hp => ?_
    obtain ⟨e, he, hkind, -⟩ := mem_refsOf.mp hp
    exact hkinds e he hkind

/-- A packet resolves as it did before the attempts. -/
theorem SameWork.resolvedId {g g' : Goal} (h : SameWork g g') (pid : String) :
    resolvedId g' pid = Goals.resolvedId g pid := by
  have hid : resolveId g' (some pid) = resolveId g (some pid) := by
    unfold resolveId
    rw [h.packets]
    simp only [h.proposals]
  unfold Goals.resolvedId resolvePacket
  rw [h.packets, hid]
  simp only [h.proposals]

/-- A packet that resolves has an id. -/
theorem resolvedId_ne_empty {g : Goal} {pid resolved : String}
    (h : resolvedId g pid = some resolved) : resolved ≠ "" := by
  unfold resolvedId at h
  split at h
  · next hr =>
    cases h
    obtain ⟨-, -, -, -, hne⟩ := mem_refsOf.mp (resolvePacket_ok hr).2.1
    exact hne
  · cases h

/-! ## What a tick leaves waiting -/

/-- A goal after attempts on `pids`: what resolved is not waiting any more. -/
structure Worked (g : Goal) (pids : List String) (g' : Goal) : Prop where
  same : SameWork g g'
  attempted : ∀ p, p ∈ attemptedPacketIds g'
    ↔ p ∈ attemptedPacketIds g ∨ ∃ pid ∈ pids, resolvedId g pid = some p

/-- The packets that wait after the attempts. -/
theorem Worked.waiting {g g' : Goal} {pids : List String} (h : Worked g pids g') :
    waitingPacketIds g'
      = (waitingPacketIds g).filter fun p => ¬ ∃ pid ∈ pids, resolvedId g pid = some p := by
  unfold waitingPacketIds proposedPacketIds
  rw [h.same.packets, List.filter_filter, List.filter_filter, List.filter_filter]
  refine List.filter_congr fun p _ => ?_
  rw [Bool.eq_iff_iff]
  simp only [Bool.and_eq_true, decide_eq_true_eq, h.attempted, h.same.proposed, not_or]
  tauto

/-- The attempts make the list shorter when one of them resolves to a waiting packet. -/
theorem Worked.length_lt_iff {g g' : Goal} {pids : List String} (h : Worked g pids g') :
    (waitingPacketIds g').length < (waitingPacketIds g).length
      ↔ ∃ pid ∈ pids, ∃ resolved ∈ waitingPacketIds g, resolvedId g pid = some resolved := by
  rw [h.waiting, List.length_filter_lt_length_iff_exists]
  simp only [decide_eq_true_eq, not_not]
  constructor
  · rintro ⟨resolved, hmem, pid, hpid, hresolved⟩
    exact ⟨pid, hpid, resolved, hmem, hresolved⟩
  · rintro ⟨pid, hpid, resolved, hmem, hresolved⟩
    exact ⟨resolved, hmem, pid, hpid, hresolved⟩

namespace ExecTick

variable {t : ExecTick}

/-- The packets of one goal, with what the attempts resolved to. -/
theorem execPackets_worked {goalId : String} (rt : GoalRuntime) {g : Goal} (pids : List String)
    (hget : get rt.store goalId = some g) :
    callsFor (t.execPackets goalId rt g pids).applyCalls goalId
        = callsFor rt.applyCalls goalId ++ pids
      ∧ ∃ g', get (t.execPackets goalId rt g pids).store goalId = some g' ∧ Worked g pids g' := by
  induction pids generalizing rt g with
  | nil =>
    exact ⟨(List.append_nil _).symm, g, hget, .refl g, fun p => by simp⟩
  | cons pid pids ih =>
    have hid : g.id = goalId := get_id hget
    have hcall : callsFor (rt.applyCalls ++ [(goalId, pid)]) goalId
        = callsFor rt.applyCalls goalId ++ [pid] := by
      rw [callsFor_append, callsFor_self]
    rw [execPackets]
    cases hresolved : resolvedId g pid with
    | none =>
      have hsaved := applyApprovedPacket_of_unresolved hresolved t.approver
        (t.gate rt.applyCalls.length) (t.clock goalId)
      generalize applyApprovedPacket g pid t.approver (t.gate rt.applyCalls.length)
        (t.clock goalId) = r at hsaved ⊢
      simp only [hsaved, hget, Option.getD_some]
      obtain ⟨hcalls, g', hget', hworked⟩ := ih
        { rt with
          applyCalls := rt.applyCalls ++ [(goalId, pid)]
          mutatorCalls := rt.mutatorCalls ++ if r.mutatorCalled then [(goalId, r.packetId)] else [] }
        hget
      refine ⟨?_, g', hget', hworked.same, fun p => ?_⟩
      · rw [hcalls, hcall, List.append_assoc, List.singleton_append]
      · rw [hworked.attempted]
        simp [hresolved]
    | some resolved =>
      obtain ⟨g1, hsaved, hattempt⟩ := applyApprovedPacket_of_resolved hresolved t.approver
        (t.gate rt.applyCalls.length) (t.clock goalId)
      have hid1 : g1.id = goalId := by rw [hattempt.fields]; exact hid
      have hget1 : get (save rt.store g1) goalId = some g1 := hid1 ▸ get_save_self rt.store g1
      generalize applyApprovedPacket g pid t.approver (t.gate rt.applyCalls.length)
        (t.clock goalId) = r at hsaved ⊢
      simp only [hsaved, hget1, Option.getD_some]
      obtain ⟨hcalls, g', hget', hworked⟩ := ih
        { rt with
          store := save rt.store g1
          applyCalls := rt.applyCalls ++ [(goalId, pid)]
          mutatorCalls := rt.mutatorCalls ++ if r.mutatorCalled then [(goalId, r.packetId)] else [] }
        hget1
      have hsame := hattempt.sameWork
      refine ⟨?_, g', hget', hsame.trans hworked.same, fun p => ?_⟩
      · rw [hcalls, hcall, List.append_assoc, List.singleton_append]
      · obtain ⟨added, hadded, hrecords⟩ := hattempt.records
        have hfirst : p ∈ attemptedPacketIds g1 ↔ p ∈ attemptedPacketIds g ∨ p = resolved := by
          rw [mem_attemptedPacketIds, mem_attemptedPacketIds, ← hrecords.refs
            (resolvedId_ne_empty hresolved), packetRefs, packetRefs, hadded]
          simp only [mem_refsOf_append, packetRefs]
          tauto
        rw [hworked.attempted, hfirst]
        simp only [hsame.resolvedId, List.mem_cons, exists_eq_or_imp, hresolved,
          Option.some.injEq, or_assoc, eq_comm (a := resolved)]

/-! ## The goals of a tick -/

/-- The gate lets the goal through and packets wait on it. -/
structure HasWork (rt : GoalRuntime) (g : Goal) : Prop where
  allowed : (designGate g (loadedById rt.store) rt.logs).allowed = true
  waiting : waitingPacketIds g ≠ []

/-- A goal without work reaches the bridge with no packet. -/
theorem execGoal_applyCalls_of_idle {byId : String → Option Goal} {rt : GoalRuntime} {g : Goal}
    (h : (designGate g byId rt.logs).allowed = true → waitingPacketIds g = []) :
    (t.execGoal byId rt g).applyCalls = rt.applyCalls := by
  unfold execGoal
  simp only
  split
  · rfl
  · next hallowed =>
    rw [if_pos (h (by simpa using hallowed))]

/-- What the tick does to a goal is what the loop body does to it, as it was loaded. -/
theorem execGoals_at (byId : String → Option Goal) (rt : GoalRuntime) {goals : List Goal}
    (hcur : ∀ g ∈ goals, get rt.store g.id = some g ∧ g.status = .active)
    (hnodup : (goals.map Goal.id).Nodup) {g : Goal} (hg : g ∈ goals) :
    ∃ rt₁ : GoalRuntime, rt₁.logs = rt.logs ∧ get rt₁.store g.id = some g
      ∧ callsFor rt₁.applyCalls g.id = callsFor rt.applyCalls g.id
      ∧ get (goals.foldl (t.execGoal byId) rt).store g.id
          = get (t.execGoal byId rt₁ g).store g.id
      ∧ callsFor (goals.foldl (t.execGoal byId) rt).applyCalls g.id
          = callsFor (t.execGoal byId rt₁ g).applyCalls g.id := by
  induction goals generalizing rt with
  | nil => cases hg
  | cons g₀ goals ih =>
    rw [List.foldl_cons]
    obtain ⟨hget, hactive⟩ := hcur g₀ List.mem_cons_self
    obtain ⟨htouch, -⟩ := execGoal_spec (t := t) byId hget hactive
    rw [List.map_cons, List.nodup_cons] at hnodup
    have hne : ∀ g2 ∈ goals, g2.id ≠ g₀.id := fun g2 hg2 he =>
      hnodup.1 (he ▸ List.mem_map_of_mem (f := Goal.id) hg2)
    have hcur' : ∀ g2 ∈ goals,
        get (t.execGoal byId rt g₀).store g2.id = some g2 ∧ g2.status = .active := by
      intro g2 hg2
      rw [htouch.store g2.id (hne g2 hg2)]
      exact hcur g2 (List.mem_cons_of_mem _ hg2)
    rcases List.mem_cons.mp hg with rfl | hg
    · obtain ⟨-, hframe, -⟩ := execGoals_spec (t := t) byId (t.execGoal byId rt g) hcur' hnodup.2
      obtain ⟨hstore, happly, -⟩ := hframe g.id hnodup.1
      exact ⟨rt, rfl, hget, rfl, hstore, happly⟩
    · obtain ⟨rt₁, hlogs, hget₁, hcalls, hstore, happly⟩ := ih (t.execGoal byId rt g₀) hcur'
        hnodup.2 hg
      exact ⟨rt₁, hlogs.trans htouch.logs, hget₁,
        hcalls.trans (htouch.apply g.id (hne g hg)), hstore, happly⟩

/-- A goal with work: its first waiting packets are passed, and the goal is worked on. -/
theorem execTick_of_work {rt : GoalRuntime} {g : Goal} (hg : g ∈ t.activeGoals rt.store)
    (hwork : HasWork rt g) :
    callsFor (t.execTick rt).applyCalls g.id
        = callsFor rt.applyCalls g.id ++ (waitingPacketIds g).take t.maxPacketsPerGoal
      ∧ ∃ g', get (t.execTick rt).store g.id = some g'
        ∧ Worked g ((waitingPacketIds g).take t.maxPacketsPerGoal) g' := by
  obtain ⟨rt₁, hlogs, hget, hcalls, hstore, happly⟩ := execGoals_at (t := t)
    (loadedById rt.store) rt (fun g hg => mem_activeGoals hg) (activeGoals_nodup rt.store) hg
  have hbody : t.execGoal (loadedById rt.store) rt₁ g
      = t.execPackets g.id rt₁ g ((waitingPacketIds g).take t.maxPacketsPerGoal) := by
    unfold execGoal
    simp only [hlogs, hwork.allowed, Bool.true_eq_false, if_false, if_neg hwork.waiting]
  obtain ⟨hpassed, g', hget', hworked⟩ := execPackets_worked (t := t) rt₁
    ((waitingPacketIds g).take t.maxPacketsPerGoal) hget
  unfold execTick
  rw [hstore, happly, hbody, hpassed, hcalls]
  exact ⟨rfl, g', hget', hworked⟩

/-- A goal without work in the tick gets no call. -/
theorem execTick_of_idle {rt : GoalRuntime} {g : Goal} (hg : g ∈ t.activeGoals rt.store)
    (hidle : ¬ HasWork rt g) :
    callsFor (t.execTick rt).applyCalls g.id = callsFor rt.applyCalls g.id := by
  obtain ⟨rt₁, hlogs, -, hcalls, -, happly⟩ := execGoals_at (t := t)
    (loadedById rt.store) rt (fun g hg => mem_activeGoals hg) (activeGoals_nodup rt.store) hg
  unfold execTick
  rw [happly, execGoal_applyCalls_of_idle, hcalls]
  intro hallowed
  by_contra hwaiting
  exact hidle ⟨hlogs ▸ hallowed, hwaiting⟩

/-- A goal outside the bound gets no call. -/
theorem execTick_of_outside {rt : GoalRuntime} {k : String}
    (hk : k ∉ (t.activeGoals rt.store).map Goal.id) :
    callsFor (t.execTick rt).applyCalls k = callsFor rt.applyCalls k := by
  obtain ⟨-, hframe, -⟩ := execGoals_spec (t := t) (loadedById rt.store) rt
    (fun g hg => mem_activeGoals hg) (activeGoals_nodup rt.store)
  exact (hframe k hk).2.1

/-- When no goal within the bound has work, the tick passes no packet. -/
theorem execGoals_idle {byId : String → Option Goal} (rt : GoalRuntime) {goals : List Goal}
    (hcur : ∀ g ∈ goals, get rt.store g.id = some g ∧ g.status = .active)
    (hnodup : (goals.map Goal.id).Nodup)
    (hidle : ∀ g ∈ goals, (designGate g byId rt.logs).allowed = true → waitingPacketIds g = []) :
    (goals.foldl (t.execGoal byId) rt).applyCalls = rt.applyCalls := by
  induction goals generalizing rt with
  | nil => rfl
  | cons g goals ih =>
    rw [List.foldl_cons]
    obtain ⟨hget, hactive⟩ := hcur g List.mem_cons_self
    obtain ⟨htouch, -⟩ := execGoal_spec (t := t) byId hget hactive
    rw [List.map_cons, List.nodup_cons] at hnodup
    refine (ih (t.execGoal byId rt g) ?_ hnodup.2 ?_).trans
      (execGoal_applyCalls_of_idle (hidle g List.mem_cons_self))
    · intro g2 hg2
      rw [htouch.store g2.id fun he => hnodup.1 (he ▸ List.mem_map_of_mem (f := Goal.id) hg2)]
      exact hcur g2 (List.mem_cons_of_mem _ hg2)
    · intro g2 hg2
      rw [htouch.logs]
      exact hidle g2 (List.mem_cons_of_mem _ hg2)

/-! ## When a tick serves its goals -/

/-- A tick that passes no packet means that no active goal has work. -/
def ServesGoals (t : ExecTick) (rt : GoalRuntime) : Prop :=
  (t.execTick rt).applyCalls = rt.applyCalls →
    ∀ k g, get rt.store k = some g → g.status = .active → ¬ HasWork rt g

/-- Each goal on which packets were attempted has fewer of them left. -/
def Progresses (t : ExecTick) (rt : GoalRuntime) : Prop :=
  ∀ k g, get rt.store k = some g →
    callsFor (t.execTick rt).applyCalls k ≠ callsFor rt.applyCalls k →
    ∃ g', get (t.execTick rt).store k = some g'
      ∧ (waitingPacketIds g').length < (waitingPacketIds g).length

/-- No active goal has work, or one of the first `max_goals` active goals has. -/
def ReachesWork (t : ExecTick) (rt : GoalRuntime) : Prop :=
  (∀ k g, get rt.store k = some g → g.status = .active → ¬ HasWork rt g)
    ∨ ∃ g ∈ t.activeGoals rt.store, HasWork rt g

/-- On each of these goals that has work, one of the first packets resolves to a waiting one. -/
def ResolvesWork (t : ExecTick) (rt : GoalRuntime) : Prop :=
  ∀ g ∈ t.activeGoals rt.store, HasWork rt g →
    ∃ pid ∈ (waitingPacketIds g).take t.maxPacketsPerGoal,
      ∃ resolved ∈ waitingPacketIds g, resolvedId g pid = some resolved

theorem take_waiting_ne_nil (hpackets : 1 ≤ t.maxPacketsPerGoal) {g : Goal}
    (h : waitingPacketIds g ≠ []) : (waitingPacketIds g).take t.maxPacketsPerGoal ≠ [] := by
  rw [ne_eq, List.take_eq_nil_iff, not_or]
  exact ⟨by omega, h⟩

theorem servesGoals_iff (hpackets : 1 ≤ t.maxPacketsPerGoal) (rt : GoalRuntime) :
    t.ServesGoals rt ↔ t.ReachesWork rt := by
  constructor
  · intro h
    by_cases hwork : ∃ g ∈ t.activeGoals rt.store, HasWork rt g
    · exact .inr hwork
    · refine .inl (h ?_)
      refine execGoals_idle rt (fun g hg => mem_activeGoals hg) (activeGoals_nodup rt.store) ?_
      intro g hg hallowed
      by_contra hwaiting
      exact hwork ⟨g, hg, hallowed, hwaiting⟩
  · rintro (hnone | ⟨g, hg, hwork⟩) hidle
    · exact hnone
    · have hcalls := (execTick_of_work hg hwork).1
      rw [hidle] at hcalls
      exact absurd (List.self_eq_append_right.mp hcalls)
        (take_waiting_ne_nil hpackets hwork.waiting)

theorem progresses_iff (hpackets : 1 ≤ t.maxPacketsPerGoal) (rt : GoalRuntime) :
    t.Progresses rt ↔ t.ResolvesWork rt := by
  constructor
  · intro h g hg hwork
    obtain ⟨hcalls, g', hget', hworked⟩ := execTick_of_work hg hwork
    obtain ⟨g'', hget'', hlt⟩ := h g.id g (mem_activeGoals hg).1 (by
      rw [hcalls]
      intro he
      exact take_waiting_ne_nil hpackets hwork.waiting (List.append_right_eq_self.mp he))
    rw [hget', Option.some.injEq] at hget''
    subst hget''
    exact hworked.length_lt_iff.mp hlt
  · intro h k g hget hcalls
    have hmem : k ∈ (t.activeGoals rt.store).map Goal.id := by
      by_contra hk
      exact hcalls (execTick_of_outside hk)
    obtain ⟨g₁, hg, rfl⟩ := List.mem_map.mp hmem
    rw [(mem_activeGoals hg).1, Option.some.injEq] at hget
    subst hget
    have hwork : HasWork rt g₁ := by
      by_contra hidle
      exact hcalls (execTick_of_idle hg hidle)
    obtain ⟨-, g', hget', hworked⟩ := execTick_of_work hg hwork
    exact ⟨g', hget', hworked.length_lt_iff.mpr (h g₁ hg hwork)⟩

/-- An active goal with nothing to run, updated last. -/
def finishedGoal : Goal :=
  { id := "goal-1", title := "finished", status := .active, updatedAt := "2026-02-01" }

/-- An active goal with a packet that waits. -/
def queuedGoal : Goal :=
  { id := "goal-2", title := "queued", status := .active, updatedAt := "2026-01-01"
    packets := ["packet-1"]
    evidence := [⟨"t1", .proposal, "[safe] fix -> safe", some "packet-1"⟩] }

def queuedRuntime : GoalRuntime :=
  .start (saveAll Table.empty [finishedGoal, queuedGoal]) []

theorem queuedGoal_hasWork : HasWork queuedRuntime queuedGoal :=
  ⟨by decide +kernel, by decide +kernel⟩

end ExecTick

end ForgeKit.Goals
