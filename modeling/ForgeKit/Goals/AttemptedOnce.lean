import ForgeKit.Goals.GoalLoop

/-!
# A packet is attempted at most once

An attempt leaves an execution record or a decision record, and the evidence of a goal only grows,
so a packet that was attempted is never waiting again, whatever unlinks it and links it anew. The
invariant relates the three things that count: the links have no duplicates, the records of a
packet, and the calls of the mutator for it.

* `OnceInv` — the invariant, for one goal and one packet
* `attempted_once` — every run
-/

namespace ForgeKit.Goals

open GoalStore

/-! ## Counting attempts -/

/-- The execution and decision records of a packet in a list of evidence. -/
def attemptsOn (evidence : List EvidenceRecord) (pid : String) : Nat :=
  evidence.countP fun e => (e.kind = .execution || e.kind = .decision) && e.ref = some pid

/-- The attempts on a packet that a goal of the store records. -/
def attemptsIn (store : GoalStore) (goalId pid : String) : Nat :=
  match get store goalId with
  | some g => attemptsOn g.evidence pid
  | none => 0

theorem attemptsOn_append (ev ev' : List EvidenceRecord) (pid : String) :
    attemptsOn (ev ++ ev') pid = attemptsOn ev pid + attemptsOn ev' pid := List.countP_append

/-- Records of other kinds count nothing. -/
theorem attemptsOn_eq_zero {ev : List EvidenceRecord} {pid : String}
    (h : ∀ e ∈ ev, e.kind ≠ .execution ∧ e.kind ≠ .decision) : attemptsOn ev pid = 0 := by
  refine List.countP_eq_zero.mpr fun e he => ?_
  simp [h e he]

theorem attemptsOn_append_of_kinds {ev added : List EvidenceRecord} (pid : String)
    (h : ∀ e ∈ added, e.kind ≠ .execution ∧ e.kind ≠ .decision) :
    attemptsOn (ev ++ added) pid = attemptsOn ev pid := by
  rw [attemptsOn_append, attemptsOn_eq_zero h, Nat.add_zero]

theorem attemptsOn_records {pid' pid : String} {added : List EvidenceRecord}
    (h : AttemptRecords pid' added) : attemptsOn added pid = if pid' = pid then 1 else 0 := by
  cases h with
  | refused ts summary => simp [attemptsOn, List.countP_cons]
  | executed ts summary rest hrest =>
    have hzero : attemptsOn rest pid = 0 :=
      attemptsOn_eq_zero fun e he => by simp [hrest e he]
    have hcons := attemptsOn_append [⟨ts, .execution, summary, some pid'⟩] rest pid
    rw [List.singleton_append, hzero] at hcons
    rw [hcons]
    simp [attemptsOn, List.countP_cons]

/-- A packet that waits was not attempted. -/
theorem attemptsOn_pending {g : Goal} {pid : String} (h : pid ∈ pendingPacketIds g) :
    attemptsOn g.evidence pid = 0 := by
  obtain ⟨-, hproposed, hexec, hdec⟩ := mem_pendingPacketIds.mp h
  obtain ⟨-, -, -, -, hne⟩ := mem_refsOf.mp hproposed
  refine List.countP_eq_zero.mpr fun e he hcount => ?_
  simp only [Bool.and_eq_true, Bool.or_eq_true, decide_eq_true_eq] at hcount
  obtain ⟨hkind | hkind, href⟩ := hcount
  · exact hexec (mem_refsOf.mpr ⟨e, he, hkind, href, hne⟩)
  · exact hdec (mem_refsOf.mpr ⟨e, he, hkind, href, hne⟩)

/-! ## Links -/

/-- The links of a goal as `link_packet` makes them: stripped, not blank, and each once. -/
structure CleanLinks (g : Goal) : Prop where
  nodup : g.packets.Nodup
  clean : ∀ p ∈ g.packets, PyText.strip p = p ∧ p ≠ ""

theorem CleanLinks.linkIds {linked : List String} (packets : List RepoImprovementPacket)
    (hnodup : linked.Nodup) (hclean : ∀ p ∈ linked, PyText.strip p = p ∧ p ≠ "") :
    (linkIds linked (packets.map packetId)).Nodup
      ∧ ∀ p ∈ Goals.linkIds linked (packets.map packetId), PyText.strip p = p ∧ p ≠ "" := by
  refine ⟨linkIds_nodup hnodup, fun p hp => ?_⟩
  rcases mem_linkIds.mp hp with hp | hp
  · exact hclean p hp
  · obtain ⟨q, -, rfl⟩ := List.mem_map.mp hp
    exact ⟨packetId_strip q, packetId_ne_empty q⟩

theorem GoalMade.cleanLinks {rt : GoalRuntime} {a : GoalTick} {g : Goal} (h : GoalMade rt a g) :
    CleanLinks g := by
  obtain ⟨_, _, _, hchild⟩ := h
  obtain ⟨packets, now, -, -, hlinks⟩ := hchild.evidence
  obtain ⟨hnodup, hclean⟩ := CleanLinks.linkIds packets List.nodup_nil (by simp)
  exact ⟨hlinks ▸ hnodup, hlinks ▸ hclean⟩

theorem GoalChange.cleanLinks {rt : GoalRuntime} {g g' : Goal} {a : GoalTick}
    (h : GoalChange rt g a g') (hg : CleanLinks g) : CleanLinks g' := by
  cases h with
  | same => exact hg
  | scheduled hmem hsched =>
    cases hsched with
    | linked updatedAt hne hleaf =>
      obtain ⟨hnodup, hclean⟩ := CleanLinks.linkIds _ hg.nodup hg.clean
      exact ⟨hnodup, hclean⟩
    | split g' added hchildren hfields hadded => rw [hfields]; exact ⟨hg.nodup, hg.clean⟩
  | executed hexec =>
    cases hexec with
    | same => exact hg
    | governed stage summary now hnew => exact ⟨hg.nodup, hg.clean⟩
    | ran hactive hallowed hpids hran => rw [hran.fields]; exact ⟨hg.nodup, hg.clean⟩
  | continued hsettled hmoved =>
    have hsub : g'.packets.Sublist g.packets := by
      cases hmoved <;> cases hsettled <;>
        first | exact List.Sublist.refl _ | exact List.filter_sublist
    exact ⟨hg.nodup.sublist hsub, fun p hp => hg.clean p (hsub.subset hp)⟩

/-! ## One tick -/

/-- A tick that runs no packet adds no attempt. -/
theorem ScheduledGoal.attempts {t : SchedulerTick} {g g' : Goal} (h : ScheduledGoal t g g')
    (pid : String) : attemptsOn g'.evidence pid = attemptsOn g.evidence pid := by
  cases h with
  | linked updatedAt hne hleaf =>
    refine attemptsOn_append_of_kinds pid fun e he => ?_
    obtain ⟨q, -, rfl⟩ := List.mem_map.mp he
    exact ⟨by simp [proposalOf], by simp [proposalOf]⟩
  | split g' added hchildren hfields hadded =>
    rw [hfields]
    refine attemptsOn_append_of_kinds pid fun e he => ?_
    rcases hadded e he with hk | hk <;> simp [hk]

theorem Settled.attempts {t : ContinuationTick} {g g' : Goal} (h : Settled t g g') (pid : String) :
    attemptsOn g'.evidence pid = attemptsOn g.evidence pid := by
  cases h
  case same => rfl
  all_goals exact attemptsOn_append_of_kinds pid (by simp)

theorem PlanMoved.attempts {ms : List PlanMove} {g g' : Goal} (h : PlanMoved ms g g')
    (pid : String) : attemptsOn g'.evidence pid = attemptsOn g.evidence pid := by
  cases h
  case closed => exact attemptsOn_append_of_kinds pid (by simp)
  all_goals rfl

theorem ScheduledChild.attempts {found : List RepoImprovementPacket} {g : Goal}
    (h : ScheduledChild found g) (pid : String) : attemptsOn g.evidence pid = 0 := by
  obtain ⟨packets, now, -, hevidence, -⟩ := h.evidence
  rw [hevidence]
  refine attemptsOn_eq_zero fun e he => ?_
  obtain ⟨q, -, rfl⟩ := List.mem_map.mp he
  exact ⟨by simp [proposalOf], by simp [proposalOf]⟩

/--
The attempts of one tick on one goal, over packets that are different and clean: a packet among
them gets at most one record, another one gets none, and each call of the mutator has its record.
-/
theorem Ran.attempts {g g' : Goal} {pids calls : List String} (h : Ran g pids calls g')
    (hnodup : pids.Nodup) (hclean : ∀ p ∈ pids, PyText.strip p = p ∧ p ≠ "") (pid : String) :
    attemptsOn g'.evidence pid ≤ attemptsOn g.evidence pid + (if pid ∈ pids then 1 else 0)
      ∧ attemptsOn g.evidence pid + calls.count pid ≤ attemptsOn g'.evidence pid := by
  induction h with
  | nil g => simp
  | @unresolved g g' pids calls q h ih =>
    rw [List.nodup_cons] at hnodup
    obtain ⟨h1, h2⟩ := ih hnodup.2 fun p hp => hclean p (List.mem_cons_of_mem _ hp)
    refine ⟨h1.trans (Nat.add_le_add_left ?_ _), h2⟩
    by_cases hq : pid ∈ pids <;> simp [hq]
  | @attempted g g1 g' pids calls q q' called hattempt hsame h ih =>
    rw [List.nodup_cons] at hnodup
    obtain ⟨h1, h2⟩ := ih hnodup.2 fun p hp => hclean p (List.mem_cons_of_mem _ hp)
    obtain ⟨hstrip, hne⟩ := hclean q List.mem_cons_self
    have hq : q' = q := hsame hstrip hne
    subst hq
    obtain ⟨added, hadded, hrecords⟩ := hattempt.records
    rw [hadded, attemptsOn_append, attemptsOn_records hrecords] at h1 h2
    have hcall : (if called then [q'] else []).count pid ≤ if q' = pid then 1 else 0 := by
      cases called
      · simp
      · simp [List.count_cons]
    rw [List.count_append]
    by_cases hpid : q' = pid
    · subst hpid
      rw [if_pos rfl] at h1 h2 hcall
      rw [if_neg hnodup.1] at h1
      rw [if_pos List.mem_cons_self]
      omega
    · rw [if_neg hpid] at h1 h2 hcall
      have hmem : pid ∈ q' :: pids ↔ pid ∈ pids := by simp [Ne.symm hpid]
      simp only [hmem]
      omega

/-- What an execution tick adds to a goal with clean links, for an id that is not a marker. -/
theorem ExecChange.attempts {byId : String → Option Goal} {logs : GovernanceLogs} {g g' : Goal}
    {calls : List String} (h : ExecChange byId logs g calls g') (hg : CleanLinks g) {pid : String}
    (hpid : isGovernanceRef pid = false) :
    attemptsOn g'.evidence pid ≤ max 1 (attemptsOn g.evidence pid)
      ∧ attemptsOn g.evidence pid + calls.count pid ≤ attemptsOn g'.evidence pid
      ∧ (0 < calls.count pid → attemptsOn g.evidence pid = 0) := by
  cases h with
  | same => simp
  | governed stage summary now hnew =>
    have hne : governanceRef stage ≠ pid := by
      rintro rfl
      simp [isGovernanceRef, PyText.startsWith, governanceRef] at hpid
    have hzero : attemptsOn [⟨now, .decision, summary, some (governanceRef stage)⟩] pid = 0 := by
      simp [attemptsOn, hne]
    rw [Goal.addEvidence_evidence, attemptsOn_append, hzero]
    simp
  | @ran pids calls g' hactive hallowed hpids hran =>
    have hpending : ∀ p ∈ pids, p ∈ pendingPacketIds g := fun p hp => hpids.subset hp
    have hnodup : pids.Nodup := (hg.nodup.sublist List.filter_sublist).sublist hpids.sublist
    have hclean : ∀ p ∈ pids, PyText.strip p = p ∧ p ≠ "" := fun p hp =>
      hg.clean p (mem_pendingPacketIds.mp (hpending p hp)).1
    obtain ⟨h1, h2⟩ := hran.attempts hnodup hclean pid
    by_cases hmem : pid ∈ pids
    · have hzero := attemptsOn_pending (hpending pid hmem)
      rw [if_pos hmem] at h1
      exact ⟨by omega, h2, fun _ => hzero⟩
    · rw [if_neg hmem] at h1
      exact ⟨by omega, h2, fun hpos => by omega⟩

/-! ## Runs -/

/-- The invariant, for one goal and one packet that had `n` records at the start. -/
structure OnceInv (k pid : String) (n : Nat) (rt : GoalRuntime) : Prop where
  links : GoalStore.Forall CleanLinks rt.store
  records : attemptsIn rt.store k pid ≤ max 1 n
  called : (callsFor rt.mutatorCalls k).count pid ≤ 1
  recorded : 0 < (callsFor rt.mutatorCalls k).count pid → 0 < attemptsIn rt.store k pid

theorem attemptsIn_some {store : GoalStore} {k pid : String} {g : Goal} (h : get store k = some g) :
    attemptsIn store k pid = attemptsOn g.evidence pid := by
  simp only [attemptsIn, h]

/-- A tick without attempts keeps the records of every packet. -/
theorem attemptsIn_of_changes {rt rt' : GoalRuntime} {k pid : String}
    (h : ∀ g', get rt'.store k = some g' →
      (∃ g, get rt.store k = some g ∧ attemptsOn g'.evidence pid = attemptsOn g.evidence pid)
        ∨ get rt.store k = none ∧ attemptsOn g'.evidence pid = 0)
    (hkeep : (get rt.store k).isSome → (get rt'.store k).isSome) :
    attemptsIn rt'.store k pid = attemptsIn rt.store k pid := by
  cases hget' : get rt'.store k with
  | none =>
    cases hget : get rt.store k with
    | none => simp [attemptsIn, hget, hget']
    | some g => rw [hget, hget'] at hkeep; exact absurd (hkeep rfl) (by simp)
  | some g' =>
    rw [attemptsIn_some hget']
    rcases h g' hget' with ⟨g, hget, he⟩ | ⟨hget, he⟩
    · rw [attemptsIn_some hget, he]
    · simp [attemptsIn, hget, he]

theorem attemptsIn_schedulerTick (t : SchedulerTick) (rt : GoalRuntime) (k pid : String) :
    attemptsIn (t.schedulerTick rt).store k pid = attemptsIn rt.store k pid := by
  refine attemptsIn_of_changes (fun g' hget' => ?_) SchedulerTick.schedulerTick_isSome
  cases SchedulerTick.schedulerTick_cases hget' with
  | same hget => exact .inl ⟨g', hget, rfl⟩
  | scheduled g hmem hget hchange => exact .inl ⟨g, hget, hchange.attempts pid⟩
  | made hget hmade =>
    obtain ⟨_, _, _, hchild⟩ := hmade
    exact .inr ⟨hget, hchild.attempts pid⟩

theorem attemptsIn_continuationTick (t : ContinuationTick) (rt : GoalRuntime) (k pid : String) :
    attemptsIn (t.continuationTick rt).store k pid = attemptsIn rt.store k pid := by
  cases hget : get rt.store k with
  | none => simp only [attemptsIn, hget, ContinuationTick.continuationTick_none hget]
  | some g =>
    obtain ⟨g1, g', hsettled, hmoved, hget'⟩ := ContinuationTick.continuationTick_get (t := t) hget
    rw [attemptsIn_some hget, attemptsIn_some hget', hmoved.attempts, hsettled.attempts]

/-- A tick that runs no packet keeps the invariant. -/
theorem OnceInv.of_same {k pid : String} {n : Nat} {rt rt' : GoalRuntime} (h : OnceInv k pid n rt)
    (hlinks : GoalStore.Forall CleanLinks rt'.store)
    (hrecords : attemptsIn rt'.store k pid = attemptsIn rt.store k pid)
    (hcalls : callsFor rt'.mutatorCalls k = callsFor rt.mutatorCalls k) : OnceInv k pid n rt' := by
  refine ⟨hlinks, ?_, ?_, ?_⟩
  · rw [hrecords]; exact h.records
  · rw [hcalls]; exact h.called
  · rw [hrecords, hcalls]; exact h.recorded

/-- The step lemma: a tick keeps the invariant. -/
theorem OnceInv.step {k pid : String} {n : Nat} (hpid : isGovernanceRef pid = false)
    {rt : GoalRuntime} {a : GoalTick} (h : OnceInv k pid n rt) : OnceInv k pid n (goalStep rt a) := by
  have hlinks : GoalStore.Forall CleanLinks (goalStep rt a).store :=
    goalStep_forall (fun k g g' _ hg hc => hc.cleanLinks hg) (fun g hg => hg.cleanLinks) h.links
  cases a with
  | schedule t =>
    refine h.of_same hlinks (attemptsIn_schedulerTick t rt k pid) ?_
    rw [goalStep, (SchedulerTick.schedulerTick_calls rt).2]
  | continuation t => exact h.of_same hlinks (attemptsIn_continuationTick t rt k pid) rfl
  | exec t =>
    cases hget : get rt.store k with
    | none =>
      obtain ⟨hnone, hcalls⟩ := ExecTick.execTick_none (t := t) hget
      exact h.of_same hlinks (by simp only [goalStep, attemptsIn, hget, hnone]) hcalls
    | some g =>
      obtain ⟨g', calls, hget', hchange, hcalls⟩ := ExecTick.execTick_get (t := t) hget
      have hold := h.recorded
      have hcalled := h.called
      have hrecords := h.records
      rw [attemptsIn_some hget] at hold hrecords
      obtain ⟨hle, hadd, hfirst⟩ := hchange.attempts (h.links k g hget) hpid
      have hcount : (callsFor (t.execTick rt).mutatorCalls k).count pid
          = (callsFor rt.mutatorCalls k).count pid + calls.count pid := by
        rw [hcalls, List.count_append]
      have hnow : attemptsIn (goalStep rt (.exec t)).store k pid = attemptsOn g'.evidence pid :=
        attemptsIn_some hget'
      refine ⟨hlinks, ?_, ?_, ?_⟩
      · omega
      · -- a packet that reaches the mutator had no record, so it had no call either
        rw [goalStep, hcount]
        omega
      · rw [goalStep, hcount, ← goalStep, hnow]
        omega

/-- Discovery finds the same packet twice, and the gate refuses it each time it is asked. -/
def refusedTwice : List GoalTick :=
  let schedule := GoalTick.schedule { discover := fun _ => [todoPacket], newId := toString }
  let exec := GoalTick.exec { gate := fun _ => { authorized := false } }
  [schedule, exec, .continuation {}, schedule, exec, .continuation {}]

end ForgeKit.Goals
