import ForgeKit.Goals.GoalLoop

/-!
# Work that needs approval and active goals

An active goal is parked as soon as a packet that is not safe is linked to it. A child of a plan is
a draft when its packets are linked, and a draft cannot be parked, so that it stays a draft and a
later tick activates it.

* `ApprovalGuard` — the scheduler ticks that give such packets to no child
* `active_never_needs_approval` — the runs of such ticks
* `risky_child_becomes_active` — a run with another tick
-/

namespace ForgeKit.Goals

open GoalStore

/-! ## The property and the guard -/

/-- No goal of this status waits for approval. -/
def NoneNeedsApproval (status : GoalStatus) (rt : GoalRuntime) : Prop :=
  GoalStore.Forall (fun g => g.status = status → approvalDisposition g ≠ .needsApproval) rt.store

/-- A store to start from: active goals have nothing pending, drafts have safe packets pending. -/
def StartsSafe (store : GoalStore) : Prop :=
  GoalStore.Forall (fun g => (g.status = .active → pendingPacketIds g = [])
    ∧ (g.status = .draft → ∀ p ∈ pendingPacketIds g, proposalRisk g p = "safe")) store

def AllSafe (packets : List RepoImprovementPacket) : Prop := ∀ p ∈ packets, p.risk = "safe"

/-- Safe packets were not proposed to the goal with another risk before, unless attempted. -/
def SafeLinks (g : Goal) (packets : List RepoImprovementPacket) : Prop :=
  AllSafe packets → ∀ p ∈ packets,
    packetId p ∈ packetRefs g .execution ∨ packetId p ∈ packetRefs g .decision
      ∨ (proposalTag g.evidence (packetId p)).all (· = "safe")

/--
The ticks that keep the split. A scheduler tick splits a goal only into safe work, and links no safe
packets to a goal that they were proposed to with another risk before.
-/
def ApprovalGuard (rt : GoalRuntime) : GoalTick → Prop
  | .schedule t => ∀ g ∈ t.batch rt.store,
      (t.decomposes g = true → AllSafe (t.packetsFor g))
        ∧ (t.decomposes g = false → SafeLinks g (t.packetsFor g))
  | .exec _ => True
  | .continuation _ => True

/-- A goal that needs approval is neither active nor next in line to be. -/
def Parked (g : Goal) : Prop :=
  approvalDisposition g = .needsApproval → g.status ≠ .active ∧ g.status ≠ .draft

/-! ## Pending packets and their risk -/

theorem proposalTag_append (ev ev' : List EvidenceRecord) (pid : String) :
    proposalTag (ev ++ ev') pid = (proposalTag ev pid).or (proposalTag ev' pid) :=
  List.findSome?_append

/-- Records of other kinds say nothing about risk. -/
theorem proposalTag_eq_none {ev : List EvidenceRecord} {pid : String}
    (h : ∀ e ∈ ev, e.kind ≠ .proposal) : proposalTag ev pid = none := by
  refine List.findSome?_eq_none_iff.mpr fun e he => ?_
  rw [if_neg fun hc => h e he hc.1]

/-- A change that drops links and adds no proposal lets no goal need approval. -/
theorem needsApproval_of_append {g g' : Goal} (added : List EvidenceRecord)
    (hpackets : g'.packets ⊆ g.packets) (hevidence : g'.evidence = g.evidence ++ added)
    (hadded : ∀ e ∈ added, e.kind ≠ .proposal) (h : approvalDisposition g' = .needsApproval) :
    approvalDisposition g = .needsApproval := by
  obtain ⟨p, hp, hrisk⟩ := approvalDisposition_eq_needsApproval.mp h
  obtain ⟨hlinked, hproposed, hexec, hdec⟩ := mem_pendingPacketIds.mp hp
  simp only [packetRefs, hevidence, mem_refsOf_append, not_or] at hproposed hexec hdec
  have hnone : p ∉ refsOf .proposal added := fun hmem => by
    obtain ⟨e, he, hk, -⟩ := mem_refsOf.mp hmem
    exact hadded e he hk
  refine approvalDisposition_eq_needsApproval.mpr ⟨p, mem_pendingPacketIds.mpr
    ⟨hpackets hlinked, hproposed.resolve_right hnone, hexec.1, hdec.1⟩, ?_⟩
  rwa [proposalRisk, hevidence, proposalTag_append, proposalTag_eq_none hadded, Option.or_none]
    at hrisk

/-- The tag of a proposal that the scheduler records for a safe packet. -/
theorem tagOf_safe {p : RepoImprovementPacket} (h : p.risk = "safe") :
    tagOf (proposalSummary p) = some "safe" := by
  have hs : (proposalSummary p).toList
      = '[' :: ("safe".toList ++ ']' :: (" " ++ p.finding ++ " -> " ++ routePacket p).toList) := by
    simp [proposalSummary, h, String.toList_append]
  rw [tagOf_of_toList hs (by decide)]
  decide

/-- Safe packets say safe. -/
theorem proposalTag_safe {packets : List RepoImprovementPacket} {now pid : String}
    (hsafe : AllSafe packets) (hmem : pid ∈ packets.map packetId) :
    proposalTag (packets.map (proposalOf now)) pid = some "safe" := by
  induction packets with
  | nil => cases hmem
  | cons p packets ih =>
    have hsplit := proposalTag_append [proposalOf now p] (packets.map (proposalOf now)) pid
    rw [List.singleton_append] at hsplit
    rw [List.map_cons, hsplit]
    by_cases hp : packetId p = pid
    · have hhead : proposalTag [proposalOf now p] pid = some "safe" := by
        simp [proposalTag, proposalOf, hp, tagOf_safe (hsafe p List.mem_cons_self)]
      rw [hhead, Option.some_or]
    · have hhead : proposalTag [proposalOf now p] pid = none := by
        simp [proposalTag, proposalOf, hp]
      rw [hhead, Option.none_or]
      refine ih (fun q hq => hsafe q (List.mem_cons_of_mem _ hq)) ?_
      exact (List.mem_cons.mp hmem).resolve_left (Ne.symm hp)

/-! ## One tick -/

/-- Safe packets linked to a goal with nothing pending leave nothing that needs approval. -/
theorem linkedGoal_not_needsApproval {g : Goal} {packets : List RepoImprovementPacket}
    {now updatedAt : String} (hpending : pendingPacketIds g = [])
    (hsafe : AllSafe packets) (hlinks : SafeLinks g packets) :
    approvalDisposition (linkedGoal g packets now updatedAt) ≠ .needsApproval := by
  intro h
  obtain ⟨pid, hp, hrisk⟩ := approvalDisposition_eq_needsApproval.mp h
  obtain ⟨hlinked, hproposed, hexec, hdec⟩ := mem_pendingPacketIds.mp hp
  simp only [packetRefs, linkedGoal_evidence, mem_refsOf_append, not_or] at hproposed hexec hdec
  by_cases hnew : pid ∈ packets.map packetId
  · obtain ⟨p, hpmem, rfl⟩ := List.mem_map.mp hnew
    rcases hlinks hsafe p hpmem with hx | hd | htag
    · exact hexec.1 hx
    · exact hdec.1 hd
    · apply hrisk
      rw [proposalRisk, linkedGoal_evidence, proposalTag_append, proposalTag_safe hsafe hnew]
      cases hold : proposalTag g.evidence (packetId p) with
      | none => rfl
      | some tag =>
        rw [hold] at htag
        simpa using htag
  · have hold : pid ∈ pendingPacketIds g := by
      refine mem_pendingPacketIds.mpr ⟨?_, ?_, hexec.1, hdec.1⟩
      · exact (mem_linkIds.mp hlinked).resolve_right hnew
      · exact hproposed.resolve_right fun hm => hnew (mem_refsOf_proposals.mp hm)
    rw [hpending] at hold
    cases hold

/-- A child of a plan with safe work does not need approval. -/
theorem ScheduledChild.not_needsApproval {found : List RepoImprovementPacket} {g : Goal}
    (h : ScheduledChild found g) (hsafe : AllSafe found) :
    approvalDisposition g ≠ .needsApproval := by
  obtain ⟨packets, now, hsub, hevidence, -⟩ := h.evidence
  intro hneeds
  obtain ⟨pid, hp, hrisk⟩ := approvalDisposition_eq_needsApproval.mp hneeds
  apply hrisk
  have hproposed := (mem_pendingPacketIds.mp hp).2.1
  rw [packetRefs, hevidence] at hproposed
  rw [proposalRisk, hevidence, proposalTag_safe (fun p hp => hsafe p (hsub hp))
    (mem_refsOf_proposals.mp hproposed)]
  rfl

/-- The attempts on a goal let nothing new need approval. -/
theorem Ran.needsApproval {g g' : Goal} {pids calls : List String} (h : Ran g pids calls g')
    (hneeds : approvalDisposition g' = .needsApproval) : approvalDisposition g = .needsApproval := by
  induction h with
  | nil g => exact hneeds
  | unresolved pid h ih => exact ih hneeds
  | attempted pid pid' called hattempt hsame h ih =>
    obtain ⟨added, hadded, hrecords⟩ := hattempt.records
    refine needsApproval_of_append added ?_ hadded ?_ (ih hneeds)
    · rw [hattempt.fields]
      exact List.Subset.refl _
    · cases hrecords with
      | refused ts summary => simp
      | executed ts summary rest hrest =>
        intro e he
        rcases List.mem_cons.mp he with rfl | he
        · simp
        · simp [hrest e he]

theorem noneNeedsApproval_iff {rt : GoalRuntime} :
    NoneNeedsApproval .active rt ∧ NoneNeedsApproval .draft rt ↔
      GoalStore.Forall Parked rt.store := by
  constructor
  · rintro ⟨hactive, hdraft⟩ k g hget hneeds
    exact ⟨fun h => hactive k g hget h hneeds, fun h => hdraft k g hget h hneeds⟩
  · intro h
    exact ⟨fun k g hget hactive hneeds => (h k g hget hneeds).1 hactive,
      fun k g hget hdraft hneeds => (h k g hget hneeds).2 hdraft⟩

/-- A goal of the store after a tick with the guard. -/
theorem GoalChange.parked {rt : GoalRuntime} {g g' : Goal} {a : GoalTick}
    (h : GoalChange rt g a g') (hguard : ApprovalGuard rt a) (hg : Parked g) : Parked g' := by
  intro hneeds
  cases h with
  | same => exact hg hneeds
  | @scheduled t _ hmem hsched =>
    obtain ⟨-, hactive, hneedsPackets⟩ := SchedulerTick.mem_batch hmem
    obtain ⟨-, hpending, -⟩ := needsPacketizing_spec hneedsPackets
    cases hsched with
    | linked updatedAt hne hleaf =>
      rw [linkedGoal_status_active _ _ _ _ hactive]
      split
      · simp
      · next hsafe =>
        -- only safe packets were found, so nothing needs approval
        have hall : AllSafe (t.packetsFor g) := fun p hp => by
          by_contra hrisk
          exact hsafe ⟨p, hp, hrisk⟩
        exact absurd hneeds (linkedGoal_not_needsApproval hpending hall ((hguard g hmem).2 hleaf))
    | split _ added hchildren hfields hadded =>
      have hold : approvalDisposition g = .needsApproval := by
        refine needsApproval_of_append added ?_ (by rw [hfields]) (fun e he => ?_) hneeds
        · rw [hfields]
          exact List.Subset.refl _
        · rcases hadded e he with hk | hk <;> simp [hk]
      exact absurd hactive (hg hold).1
  | executed hexec =>
    cases hexec with
    | same => exact hg hneeds
    | governed stage summary now hnew =>
      refine hg (needsApproval_of_append
        [⟨now, .decision, summary, some (governanceRef stage)⟩] ?_ rfl (by simp) hneeds)
      exact List.Subset.refl _
    | ran hactive hallowed hpids hran => exact absurd hactive (hg (hran.needsApproval hneeds)).1
  | continued hsettled hmoved =>
    rcases hsettled.or_moved hmoved with hsettled | hmoved
    · cases hsettled with
      | same => exact hg hneeds
      | rolledUp summary ts updatedAt => simp
      | escalated summary ts updatedAt => simp
      | retried summary ts updatedAt hactive =>
        have hold := needsApproval_of_append [⟨ts, .replan, summary, none⟩]
          (List.filter_subset_self _) rfl (by simp) hneeds
        exact absurd hactive (hg hold).1
    · cases hmoved with
      | same => exact hg hneeds
      | activated updatedAt hdraft hmove => exact absurd hdraft (hg hneeds).2
      | closed summary ts updatedAt => simp

theorem GoalMade.parked {rt : GoalRuntime} {g : Goal} {a : GoalTick} (h : GoalMade rt a g)
    (hguard : ApprovalGuard rt a) : Parked g := by
  obtain ⟨g0, hmem, hsplit, hchild⟩ := h
  exact fun hneeds => absurd hneeds (hchild.not_needsApproval ((hguard g0 hmem).1 hsplit))

/-! ## Runs -/

/--
**Work that needs approval never becomes active on its own.** From a store whose active goals have
nothing pending and whose drafts have safe packets pending: along every run of ticks with the
guard, no active goal needs approval, and no draft does.
-/
theorem active_never_needs_approval (store : GoalStore) (logs : GovernanceLogs)
    (ticks : List GoalTick) (hstart : StartsSafe store)
    (hguard : Machine.EachStep goalStep ApprovalGuard (.start store logs) ticks) :
    Machine.Always goalStep
      (fun rt => NoneNeedsApproval .active rt ∧ NoneNeedsApproval .draft rt)
      (.start store logs) ticks := by
  have hinit : GoalStore.Forall Parked store := by
    intro k g hget hneeds
    obtain ⟨hactive, hdraft⟩ := hstart k g hget
    obtain ⟨p, hp, hrisk⟩ := approvalDisposition_eq_needsApproval.mp hneeds
    exact ⟨fun h => by simp [hactive h] at hp, fun h => hrisk (hdraft h p hp)⟩
  refine Machine.always_of_guard (A := fun _ => True) (fun rt a _ h hg => ?_)
    (noneNeedsApproval_iff.mpr hinit) (by simp) hguard
  exact noneNeedsApproval_iff.mpr (goalStep_forall (fun k g g' _ hold hc => hc.parked hg hold)
    (fun g hm => hm.parked hg) (noneNeedsApproval_iff.mp h))

/-- A scheduler tick that finds these packets. -/
def planSchedule (packets : List RepoImprovementPacket) : SchedulerTick :=
  { discover := fun _ => packets, newId := fun i => "goal-step-" ++ toString i }

/-- The plan that such a tick makes goes on with its first step. -/
def planRun (packets : List RepoImprovementPacket) : List GoalTick :=
  [.schedule (planSchedule packets), .continuation {}]

theorem openGoal_startsSafe : StartsSafe (save Table.empty openGoal) :=
  forall_save_empty ⟨fun _ => rfl, fun h => by cases h⟩

/-- Work in two areas, all of it safe. -/
def safePackets : List RepoImprovementPacket :=
  [todoPacket, { finding := "no tests for cli", affectedArea := "tests" }]

theorem active_never_needs_approval_safe :
    Machine.Always goalStep
        (fun rt => NoneNeedsApproval .active rt ∧ NoneNeedsApproval .draft rt)
        (.start (save Table.empty openGoal) []) (planRun safePackets)
      ∧ (get (Machine.run goalStep (.start (save Table.empty openGoal) [])
          (planRun safePackets)).store "goal-step-0").map (fun g => (g.status, approvalDisposition g))
        = some (.active, .autonomousSafe) := by
  refine ⟨?_, by decide +kernel⟩
  refine active_never_needs_approval _ _ _ openGoal_startsSafe ⟨fun g _ => ?_, trivial, trivial⟩
  have hfound : (planSchedule safePackets).packetsFor g = safePackets := if_pos (List.cons_ne_nil _ _)
  refine ⟨fun _ => ?_, fun hleaf => ?_⟩
  · rw [hfound]
    simp [AllSafe, safePackets, todoPacket]
  · rw [SchedulerTick.decomposes, hfound] at hleaf
    exact absurd hleaf (by decide)

/-- The same work, its first area being one that an operator has to approve. -/
def riskyPackets : List RepoImprovementPacket :=
  [{ finding := "rotate keys", affectedArea := "auth", risk := "risky" }, todoPacket]

/-- The child with the risky packet stays a draft, and the next continuation tick activates it. -/
theorem risky_child_becomes_active :
    ¬ ∀ (store : GoalStore) (logs : GovernanceLogs) (ticks : List GoalTick), StartsSafe store →
        Machine.Always goalStep (NoneNeedsApproval .active) (.start store logs) ticks := by
  intro h
  have hrun := Machine.always_iff_prefix.mp
    (h (save Table.empty openGoal) [] (planRun riskyPackets) openGoal_startsSafe)
    _ (List.prefix_refl _)
  have hchild : (get (Machine.run goalStep (.start (save Table.empty openGoal) [])
      (planRun riskyPackets)).store "goal-step-0").map (fun g => (g.status, approvalDisposition g))
        = some (.active, .needsApproval) := by decide +kernel
  obtain ⟨g, hget, hg⟩ := Option.map_eq_some_iff.mp hchild
  simp only [Prod.mk.injEq] at hg
  exact hrun _ g hget hg.1 hg.2

end ForgeKit.Goals
