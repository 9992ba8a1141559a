import ForgeKit.Goals.GoalLoop

/-!
# Refused packets of goals that are done

A replan unlinks the refused packets of a stuck goal, so that the scheduler finds an alternative for
them. When the goal ran another packet it is complete as soon as the refused ones are unlinked: the
scheduler passes it over, and the next continuation tick closes it.

* `ReplanGuard` — the continuation ticks whose retries leave no such goal
* `done_goals_replaced_refusals` — the runs of such ticks
* `abandoned_packet_is_closed_green` — a run with another tick
-/

namespace ForgeKit.Goals

open GoalStore

/-! ## The property and the guard -/

/-- Every refusal of the packet is followed, later in the evidence, by a proposal of another one. -/
def Replaced (pid : String) : List EvidenceRecord → Prop
  | [] => True
  | e :: rest => (e.kind = .decision → e.ref = some pid → ∃ q ∈ refsOf .proposal rest, q ≠ pid)
      ∧ Replaced pid rest

/-- The goal carries a refusal of the packet, and no execution of it. -/
def Refused (g : Goal) (pid : String) : Prop :=
  isGovernanceRef pid = false ∧ pid ∈ packetRefs g .decision ∧ pid ∉ packetRefs g .execution

instance Replaced.decidable (pid : String) : (ev : List EvidenceRecord) → Decidable (Replaced pid ev)
  | [] => inferInstanceAs (Decidable True)
  | e :: rest =>
    have := Replaced.decidable pid rest
    inferInstanceAs (Decidable
      ((e.kind = .decision → e.ref = some pid → ∃ q ∈ refsOf .proposal rest, q ≠ pid)
        ∧ Replaced pid rest))

instance (g : Goal) (pid : String) : Decidable (Refused g pid) :=
  inferInstanceAs (Decidable (_ ∧ _ ∧ _))

/-- The property of a step: a leaf goal that becomes done has an alternative for every refusal. -/
def ReplacedWhenDone (rt : GoalRuntime) (a : GoalTick) : Prop :=
  ∀ k g g', get rt.store k = some g → g.children = [] → g.status ≠ .done →
    get (goalStep rt a).store k = some g' → g'.status = .done →
    ∀ pid, Refused g' pid → Replaced pid g'.evidence

/--
The continuation ticks that close no goal too early. A stuck goal that is retried ran none of its
packets, or verified none, or already has an alternative for every refusal.
-/
def ReplanGuard (rt : GoalRuntime) : GoalTick → Prop
  | .schedule _ => True
  | .exec _ => True
  | .continuation t => ∀ g ∈ loadAll rt.store, g.status = .active → g.children = [] →
      isStuck g = true → replanAttempts g < t.maxReplanAttempts →
      (tallyPackets g).executed = 0 ∨ hasVerification g = false
        ∨ ∀ pid, Refused g pid → Replaced pid g.evidence

/-- Every refused packet still counts for the goal, or was replaced. -/
def Accounted (g : Goal) : Prop :=
  ∀ pid, Refused g pid → pid ∈ proposedPackets g ∨ Replaced pid g.evidence

/-- An open leaf goal accounts for its refused packets, or has nothing to run and is not complete. -/
def Redrivable (g : Goal) : Prop :=
  g.status = .active ∨ g.status = .draft → g.children = [] →
    Accounted g ∨ pendingPacketIds g = [] ∧ isGoalComplete g = false

/-! ## Refusals and the proposals after them -/

theorem replaced_of_no_refusal {pid : String} {ev : List EvidenceRecord}
    (h : ∀ e ∈ ev, e.kind = .decision → e.ref ≠ some pid) : Replaced pid ev := by
  induction ev with
  | nil => trivial
  | cons e ev ih =>
    exact ⟨fun hk href => absurd href (h e List.mem_cons_self hk),
      ih fun e' he' => h e' (List.mem_cons_of_mem _ he')⟩

/-- Evidence that grows keeps what follows a refusal. -/
theorem Replaced.append {pid : String} {ev ev' : List EvidenceRecord} (h : Replaced pid ev)
    (h' : Replaced pid ev') : Replaced pid (ev ++ ev') := by
  induction ev with
  | nil => exact h'
  | cons e ev ih =>
    refine ⟨fun hk href => ?_, ih h.2⟩
    obtain ⟨q, hq, hne⟩ := h.1 hk href
    exact ⟨q, mem_refsOf_append.mpr (.inl hq), hne⟩

/-- A proposal of another packet replaces everything before it. -/
theorem replaced_append_of_proposal {pid q : String} (ev : List EvidenceRecord)
    {ev' : List EvidenceRecord} (hq : q ∈ refsOf .proposal ev') (hne : q ≠ pid)
    (h' : Replaced pid ev') : Replaced pid (ev ++ ev') := by
  induction ev with
  | nil => exact h'
  | cons e ev ih => exact ⟨fun _ _ => ⟨q, mem_refsOf_append.mpr (.inr hq), hne⟩, ih⟩

/-- Evidence without a refusal of the packet leaves it as replaced as it was. -/
theorem Replaced.append_of_notMem {pid : String} {ev ev' : List EvidenceRecord}
    (h : Replaced pid ev) (hpid : pid ≠ "") (hnot : pid ∉ refsOf .decision ev') :
    Replaced pid (ev ++ ev') :=
  h.append (replaced_of_no_refusal fun e he hk href =>
    hnot (mem_refsOf.mpr ⟨e, he, hk, href, hpid⟩))

/-- Evidence without proposals replaces nothing. -/
theorem Replaced.of_append {pid : String} {ev ev' : List EvidenceRecord}
    (h : Replaced pid (ev ++ ev')) (hnone : refsOf .proposal ev' = []) : Replaced pid ev := by
  induction ev with
  | nil => trivial
  | cons e ev ih =>
    refine ⟨fun hk href => ?_, ih h.2⟩
    obtain ⟨q, hq, hne⟩ := h.1 hk href
    refine ⟨q, (mem_refsOf_append.mp hq).resolve_right ?_, hne⟩
    simp [hnone]

theorem Refused.ne_empty {g : Goal} {pid : String} (h : Refused g pid) : pid ≠ "" := by
  obtain ⟨-, -, -, -, hne⟩ := mem_refsOf.mp h.2.1
  exact hne

/-- A goal that grew carries a refusal that it carried before, or that is new. -/
theorem Refused.of_append {g g' : Goal} {added : List EvidenceRecord} {pid : String}
    (hevidence : g'.evidence = g.evidence ++ added) (h : Refused g' pid)
    (hnot : pid ∉ refsOf .decision added) : Refused g pid := by
  obtain ⟨hpid, hdec, hexec⟩ := h
  simp only [packetRefs, hevidence, mem_refsOf_append, not_or] at hdec hexec
  exact ⟨hpid, hdec.resolve_right hnot, hexec.1⟩

/-- A refusal stays until the packet is executed. -/
theorem Refused.append {g g' : Goal} {added : List EvidenceRecord} {pid : String} (h : Refused g pid)
    (hevidence : g'.evidence = g.evidence ++ added) (hnot : pid ∉ refsOf .execution added) :
    Refused g' pid := by
  obtain ⟨hpid, hdec, hexec⟩ := h
  refine ⟨hpid, ?_, ?_⟩
  · rw [packetRefs, hevidence, mem_refsOf_append]
    exact .inl hdec
  · rw [packetRefs, hevidence, mem_refsOf_append, not_or]
    exact ⟨hexec, hnot⟩

theorem proposedPackets_subset {g g' : Goal} {added : List EvidenceRecord}
    (hpackets : g.packets ⊆ g'.packets) (hevidence : g'.evidence = g.evidence ++ added) :
    proposedPackets g ⊆ proposedPackets g' := by
  intro pid h
  obtain ⟨hproposed, hlinked⟩ := mem_proposedPackets.mp h
  refine mem_proposedPackets.mpr ⟨?_, hpackets hlinked⟩
  rw [packetRefs, hevidence, mem_refsOf_append]
  exact .inl hproposed

/-- A goal that keeps its links, and is refused no packet but its own, stays accounted for. -/
theorem Accounted.append {g g' : Goal} {added : List EvidenceRecord} (h : Accounted g)
    (hpackets : g.packets ⊆ g'.packets) (hevidence : g'.evidence = g.evidence ++ added)
    (hnew : ∀ pid ∈ refsOf .decision added, isGovernanceRef pid = false → pid ∈ proposedPackets g) :
    Accounted g' := by
  intro pid hrefused
  have hsub := proposedPackets_subset hpackets hevidence
  by_cases hmem : pid ∈ refsOf .decision added
  · exact .inl (hsub (hnew pid hmem hrefused.1))
  · rcases h pid (hrefused.of_append hevidence hmem) with hin | hrep
    · exact .inl (hsub hin)
    · exact .inr (hevidence ▸ hrep.append_of_notMem hrefused.ne_empty hmem)

/-! ## Changes of a goal -/

/-- Work that is linked replaces every packet but itself. -/
theorem linkedGoal_accounted (g : Goal) {packets : List RepoImprovementPacket}
    (now updatedAt : String) (hne : packets ≠ []) :
    Accounted (linkedGoal g packets now updatedAt) := by
  intro pid hrefused
  have hproposals : Replaced pid (packets.map (proposalOf now)) := by
    refine replaced_of_no_refusal fun e he hk => ?_
    obtain ⟨p, -, rfl⟩ := List.mem_map.mp he
    cases hk
  by_cases hmem : pid ∈ packets.map packetId
  · refine .inl (mem_proposedPackets.mpr ⟨?_, mem_linkIds.mpr (.inr hmem)⟩)
    rw [packetRefs, linkedGoal_evidence, mem_refsOf_append]
    exact .inr (mem_refsOf_proposals.mpr hmem)
  · obtain ⟨p, ps, rfl⟩ := List.exists_cons_of_ne_nil hne
    refine .inr (replaced_append_of_proposal (q := packetId p) g.evidence ?_ ?_ hproposals)
    · exact mem_refsOf_proposals.mpr List.mem_cons_self
    · exact fun he => hmem (he ▸ List.mem_cons_self)

/-- The packets that are attempted are counted, so that a refusal of one is accounted for. -/
theorem Ran.accounted {g g' : Goal} {pids calls : List String} (h : Ran g pids calls g')
    (hg : Accounted g) : Accounted g' := by
  induction h with
  | nil g => exact hg
  | unresolved pid h ih => exact ih hg
  | @attempted g g1 g' pids calls pid pid' called hattempt hsame h ih =>
    obtain ⟨added, hadded, hrecords⟩ := hattempt.records
    have hpackets : g1.packets = g.packets := by rw [hattempt.fields]
    refine ih (hg.append (hpackets ▸ List.Subset.refl _) hadded fun q hq _ => ?_)
    obtain ⟨e, he, hk, href, -⟩ := mem_refsOf.mp hq
    have hq' : q = pid' := by
      cases hrecords with
      | refused ts summary =>
        rw [List.mem_singleton.mp he, Option.some.injEq] at href
        exact href.symm
      | executed ts summary rest hrest =>
        rcases List.mem_cons.mp he with rfl | he
        · cases hk
        · rw [hrest e he] at hk
          cases hk
    exact hq' ▸ mem_proposedPackets.mpr ⟨hattempt.proposed, hattempt.linked⟩

/-- A refusal does not complete a goal without pending packets. -/
theorem isGoalComplete_of_addDecision {g : Goal} {summary now : String} {ref : Option String}
    (hpending : pendingPacketIds g = [])
    (h : isGoalComplete (g.addEvidence .decision summary ref now) = true) :
    isGoalComplete g = true := by
  obtain ⟨hstatus, htotal, hverified, -, hblocked⟩ := isGoalComplete_iff.mp h
  refine isGoalComplete_iff.mpr ⟨hstatus, fun hzero => htotal ?_, ?_, hpending, ?_⟩
  · rw [tallyPackets_total_eq_zero] at hzero ⊢
    rwa [packetRefs_addEvidence_of_ne (by simp)]
  · simpa [hasVerification] using hverified
  · rw [blockedPacketIds_eq_nil] at hblocked ⊢
    intro p hlinked hproposed hdec
    have hexec := hblocked p hlinked (by rwa [packetRefs_addEvidence_of_ne (by simp)])
      (by rw [packetRefs, Goal.addEvidence_evidence, mem_refsOf_append]; exact .inl hdec)
    rwa [packetRefs_addEvidence_of_ne (by simp)] at hexec

/-- A goal that the design gate stopped. -/
theorem governed_redrivable {g : Goal} {stage summary now : String} (hg : Redrivable g) :
    Redrivable (g.addEvidence .decision summary (some (governanceRef stage)) now) := by
  intro hopen hleaf
  rcases hg hopen hleaf with hacc | ⟨hpending, hnot⟩
  · refine .inl (hacc.append (List.Subset.refl _) (Goal.addEvidence_evidence ..) fun pid hpid hno => ?_)
    obtain ⟨-, href, -⟩ := mem_refsOf_singleton.mp hpid
    rw [Option.some.injEq] at href
    rw [← href] at hno
    simp [isGovernanceRef, PyText.startsWith, governanceRef] at hno
  · refine .inr ⟨pendingPacketIds_eq_nil.mpr fun p hlinked hproposed => ?_, ?_⟩
    · rw [packetRefs_addEvidence_of_ne (by simp)] at hproposed ⊢
      rcases pendingPacketIds_eq_nil.mp hpending p hlinked hproposed with hexec | hdec
      · exact .inl hexec
      · refine .inr ?_
        rw [packetRefs, Goal.addEvidence_evidence, mem_refsOf_append]
        exact .inl hdec
    · rw [Bool.eq_false_iff]
      exact fun hc => absurd (isGoalComplete_of_addDecision hpending hc) (by simp [hnot])

/-! ## A goal that was retried -/

section

variable (g : Goal) (summary ts updatedAt : String)

/-- A stuck goal after a retry. -/
def retriedGoal : Goal :=
  { g with
    packets := g.packets.filter (· ∉ blockedPacketIds g)
    evidence := g.evidence ++ [⟨ts, .replan, summary, none⟩]
    updatedAt }

theorem packetRefs_retriedGoal {kind : EvidenceKind} (hk : kind ≠ .replan) :
    packetRefs (retriedGoal g summary ts updatedAt) kind = packetRefs g kind := by
  have hadd : packetRefs (g.addEvidence .replan summary none ts) kind = packetRefs g kind :=
    packetRefs_addEvidence_of_ne (Ne.symm hk)
  exact hadd

theorem mem_retriedGoal_packets {p : String} :
    p ∈ (retriedGoal g summary ts updatedAt).packets ↔ p ∈ g.packets ∧ p ∉ blockedPacketIds g := by
  simp [retriedGoal]

theorem retriedGoal_hasVerification :
    hasVerification (retriedGoal g summary ts updatedAt) = hasVerification g := by
  simp [hasVerification, retriedGoal]

variable {g}

/-- Of the packets that count, a retry of a stuck goal keeps those that were executed. -/
theorem mem_proposedPackets_retriedGoal (hstuck : isStuck g = true) {p : String} :
    p ∈ proposedPackets (retriedGoal g summary ts updatedAt) ↔
      p ∈ g.packets ∧ p ∈ packetRefs g .proposal ∧ p ∈ packetRefs g .execution := by
  have hattempted := pendingPacketIds_eq_nil.mp (isStuck_iff.mp hstuck).2 p
  rw [mem_proposedPackets, packetRefs_retriedGoal _ _ _ _ (by simp), mem_retriedGoal_packets,
    mem_blockedPacketIds]
  tauto

theorem retriedGoal_pending (hstuck : isStuck g = true) :
    pendingPacketIds (retriedGoal g summary ts updatedAt) = [] := by
  refine pendingPacketIds_eq_nil.mpr fun p hlinked hproposed => .inl ?_
  rw [packetRefs_retriedGoal _ _ _ _ (by simp)]
  exact ((mem_proposedPackets_retriedGoal summary ts updatedAt hstuck).mp
    (mem_proposedPackets.mpr ⟨hproposed, hlinked⟩)).2.2

/-- A retried goal is complete when it ran and verified something. -/
theorem isGoalComplete_retriedGoal (hactive : g.status = .active) (hstuck : isStuck g = true) :
    isGoalComplete (retriedGoal g summary ts updatedAt) = true ↔
      (tallyPackets g).executed ≠ 0 ∧ hasVerification g = true := by
  have hproposed := fun p => mem_proposedPackets_retriedGoal (p := p) summary ts updatedAt hstuck
  have hexecuted : (tallyPackets (retriedGoal g summary ts updatedAt)).total ≠ 0
      ↔ (tallyPackets g).executed ≠ 0 := by
    rw [not_iff_not, tallyPackets_total_eq_zero, tallyPackets_executed_eq_zero]
    simp only [mem_proposedPackets] at hproposed
    grind
  rw [isGoalComplete_iff, hexecuted, retriedGoal_hasVerification]
  have hblocked : blockedPacketIds (retriedGoal g summary ts updatedAt) = [] := by
    refine blockedPacketIds_eq_nil.mpr fun p hlinked hprop _ => ?_
    rw [packetRefs_retriedGoal _ _ _ _ (by simp)]
    exact ((hproposed p).mp (mem_proposedPackets.mpr ⟨hprop, hlinked⟩)).2.2
  have hopen : (retriedGoal g summary ts updatedAt).status ≠ .abandoned := by
    simp [retriedGoal, hactive]
  simp [hopen, hblocked, retriedGoal_pending summary ts updatedAt hstuck]

/-- The guard says why the refused packets of a retried goal are not forgotten. -/
theorem retriedGoal_redrivable (hactive : g.status = .active) (hstuck : isStuck g = true)
    (hguard : (tallyPackets g).executed = 0 ∨ hasVerification g = false
      ∨ ∀ pid, Refused g pid → Replaced pid g.evidence) :
    Redrivable (retriedGoal g summary ts updatedAt) := by
  intro _ _
  have hcomplete := isGoalComplete_retriedGoal summary ts updatedAt hactive hstuck
  have hpending := retriedGoal_pending summary ts updatedAt hstuck
  rcases hguard with hexecuted | hverified | hall
  · exact .inr ⟨hpending, Bool.eq_false_iff.mpr fun hc => (hcomplete.mp hc).1 hexecuted⟩
  · refine .inr ⟨hpending, Bool.eq_false_iff.mpr fun hc => ?_⟩
    rw [(hcomplete.mp hc).2] at hverified
    cases hverified
  · refine .inl fun pid hrefused => .inr ?_
    have hmem : pid ∉ refsOf .decision [⟨ts, .replan, summary, none⟩] := by simp
    have hold : Refused g pid := hrefused.of_append rfl hmem
    exact (hall pid hold).append_of_notMem hold.ne_empty hmem

end

/-! ## One tick -/

/-- The status and the date of a goal do not count. -/
theorem Redrivable.activate {g : Goal} {updatedAt : String} (hg : Redrivable g)
    (hdraft : g.status = .draft) : Redrivable { g with status := .active, updatedAt } := by
  intro _ hleaf
  rcases hg (.inr hdraft) hleaf with hacc | ⟨hpending, hnot⟩
  · exact .inl hacc
  · refine .inr ⟨hpending, Bool.eq_false_iff.mpr fun hc => ?_⟩
    have hold : isGoalComplete g = true :=
      isGoalComplete_iff.mpr ⟨by simp [hdraft], (isGoalComplete_iff.mp hc).2⟩
    rw [hnot] at hold
    cases hold

/-- A goal of the store after a tick with the guard. -/
theorem GoalChange.redrivable {rt : GoalRuntime} {g g' : Goal} {a : GoalTick} {k : String}
    (h : GoalChange rt g a g') (hguard : ReplanGuard rt a) (hget : get rt.store k = some g)
    (hg : Redrivable g) : Redrivable g' := by
  cases h with
  | same => exact hg
  | scheduled hmem hsched =>
    cases hsched with
    | linked updatedAt hne hleaf => exact fun _ _ => .inl (linkedGoal_accounted g _ updatedAt hne)
    | split _ added hchildren => exact fun _ hleaf => absurd hleaf hchildren
  | executed hexec =>
    cases hexec with
    | same => exact hg
    | governed stage summary now hnew => exact governed_redrivable hg
    | @ran pids _ _ hactive hallowed hpids hran =>
      intro _ hleaf
      rw [hran.fields] at hleaf
      rcases hg (.inl hactive) hleaf with hacc | hidle
      · exact .inl (hran.accounted hacc)
      · -- nothing is pending, so nothing was attempted
        rw [hidle.1, List.prefix_nil] at hpids
        subst hpids
        cases hran
        exact .inr hidle
  | continued hsettled hmoved =>
    rcases hsettled.or_moved hmoved with hsettled | hmoved
    · cases hsettled with
      | same => exact hg
      | rolledUp summary ts updatedAt => exact fun hopen => by simp at hopen
      | escalated summary ts updatedAt => exact fun hopen => by simp at hopen
      | retried summary ts updatedAt hactive hleaf hloaded hstuck hleft =>
        have hmem : g ∈ loadAll rt.store := mem_loadAll.mpr ⟨Table.mem_of_find? hget, hloaded⟩
        exact retriedGoal_redrivable summary ts updatedAt hactive hstuck
          (hguard g hmem hactive hleaf hstuck hleft)
    · cases hmoved with
      | same => exact hg
      | activated updatedAt hdraft hmove => exact hg.activate hdraft
      | closed summary ts updatedAt => exact fun hopen => by simp at hopen

theorem GoalMade.redrivable {rt : GoalRuntime} {g : Goal} {a : GoalTick} (h : GoalMade rt a g) :
    Redrivable g := by
  obtain ⟨_, _, _, hchild⟩ := h
  obtain ⟨packets, now, -, hevidence, -⟩ := hchild.evidence
  refine fun _ _ => .inl fun pid hrefused => ?_
  have hdec := hrefused.2.1
  rw [packetRefs, hevidence, refsOf_proposals_of_ne (by simp)] at hdec
  cases hdec

/-- A tick closes a leaf goal only when every refused packet of it was replaced. -/
theorem GoalChange.replaced {rt : GoalRuntime} {g g' : Goal} {a : GoalTick}
    (h : GoalChange rt g a g') (hg : Redrivable g) (hleaf : g.children = [])
    (hopen : g.status ≠ .done) (hdone : g'.status = .done) {pid : String}
    (hrefused : Refused g' pid) : Replaced pid g'.evidence := by
  cases h with
  | same => exact absurd hdone hopen
  | scheduled hmem hsched =>
    obtain ⟨-, hactive, -⟩ := SchedulerTick.mem_batch hmem
    cases hsched with
    | linked updatedAt hne hbig =>
      rw [linkedGoal_status_active _ _ _ _ hactive] at hdone
      split at hdone <;> cases hdone
    | split _ added hchildren hfields => rw [hfields] at hdone; exact absurd hdone hopen
  | executed hexec =>
    cases hexec with
    | same => exact absurd hdone hopen
    | governed stage summary now hnew => exact absurd hdone hopen
    | ran hactive hallowed hpids hran => rw [hran.active hactive] at hdone; cases hdone
  | continued hsettled hmoved =>
    rcases hsettled.or_moved hmoved with hsettled | hmoved
    · cases hsettled with
      | same => exact absurd hdone hopen
      | escalated summary ts updatedAt => cases hdone
      | retried summary ts updatedAt hactive => simp [hactive] at hdone
      | rolledUp summary ts updatedAt hactive hleaf hcomplete =>
        have hmem : pid ∉ refsOf .decision [⟨ts, .verification, summary, none⟩] := by simp
        have hold : Refused g pid := hrefused.of_append rfl hmem
        refine Replaced.append_of_notMem ?_ hold.ne_empty hmem
        rcases hg (.inl hactive) hleaf with hacc | ⟨-, hnot⟩
        · refine (hacc pid hold).resolve_left fun hin => ?_
          obtain ⟨hproposed, hlinked⟩ := mem_proposedPackets.mp hin
          have hblocked : pid ∈ blockedPacketIds g :=
            mem_blockedPacketIds.mpr ⟨hlinked, hproposed, hold.2⟩
          rw [(isGoalComplete_iff.mp hcomplete).2.2.2.2] at hblocked
          cases hblocked
        · rw [hcomplete] at hnot
          cases hnot
    · cases hmoved with
      | same => exact absurd hdone hopen
      | activated updatedAt hdraft hmove => cases hdone
      | closed summary ts updatedAt hparent => exact absurd hleaf hparent

/-- A leaf goal that was closed with a packet that was not replaced. -/
theorem not_replacedWhenDone {rt : GoalRuntime} {a : GoalTick} (k pid : String)
    (hopen : ∃ g ∈ get rt.store k, g.children = [] ∧ g.status ≠ .done)
    (hclosed : ∃ g' ∈ get (goalStep rt a).store k,
      g'.status = .done ∧ Refused g' pid ∧ ¬ Replaced pid g'.evidence) :
    ¬ ReplacedWhenDone rt a := by
  obtain ⟨g, hget, hleaf, hne⟩ := hopen
  obtain ⟨g', hget', hdone, hrefused, hnot⟩ := hclosed
  exact fun h => hnot (h k g g' hget hleaf hne hget' hdone pid hrefused)

/-- The step lemma: in a store that forgot no refused packet, no tick closes a goal too early. -/
theorem replacedWhenDone_of_redrivable {rt : GoalRuntime} (h : GoalStore.Forall Redrivable rt.store)
    (a : GoalTick) : ReplacedWhenDone rt a := by
  intro k g g' hget hleaf hopen hget' hdone pid hrefused
  rcases goalStep_get hget' with ⟨g0, hget0, hchange⟩ | ⟨hnone, -⟩
  · rw [hget, Option.some.injEq] at hget0
    subst hget0
    exact hchange.replaced (h k g hget) hleaf hopen hdone hrefused
  · rw [hnone] at hget
    cases hget

/-- A tick without the guard: the next continuation tick closes a goal with a forgotten packet. -/
theorem not_replacedWhenDone_of_retry {rt : GoalRuntime} {t : ContinuationTick}
    (t' : ContinuationTick) (h : ¬ ReplanGuard rt (.continuation t)) :
    ¬ ReplacedWhenDone (goalStep rt (.continuation t)) (.continuation t') := by
  simp only [ReplanGuard, not_forall, not_or] at h
  obtain ⟨g, hmem, hactive, hleaf, hstuck, hleft, hexecuted, hverified, pid, hrefused, hnot⟩ := h
  have hloaded : isLoaded g = true := (mem_loadAll.mp hmem).2
  -- the first tick retries the goal, which is complete then
  obtain ⟨summary, ts, updatedAt, hretry⟩ :=
    ContinuationTick.replanStuck_retry (t := t) hloaded hactive hleaf hstuck hleft
  have hkeep : t.rollUp g = g := by
    have hopen : ¬ isGoalComplete g = true := fun hc =>
      (isStuck_iff.mp hstuck).1 (isGoalComplete_iff.mp hc).2.2.2.2
    unfold ContinuationTick.rollUp
    rw [if_neg fun hc => hopen hc.2.2.2]
  have hget1 : get (goalStep rt (.continuation t)).store g.id
      = some (retriedGoal g summary ts updatedAt) := by
    have hget := ContinuationTick.continuationTick_leaf (t := t) (get_of_mem_loadAll hmem) hactive hleaf
    rw [hkeep, hretry] at hget
    exact hget
  have hcomplete : isGoalComplete (retriedGoal g summary ts updatedAt) = true :=
    (isGoalComplete_retriedGoal summary ts updatedAt hactive hstuck).mpr
      ⟨hexecuted, by simpa using hverified⟩
  -- the second one closes it
  obtain ⟨summary', ts', updatedAt', hroll⟩ := ContinuationTick.rollUp_complete (t := t')
    (g := retriedGoal g summary ts updatedAt) hloaded hactive hleaf hcomplete
  have hget2 := ContinuationTick.continuationTick_leaf (t := t') hget1 hactive hleaf
  rw [hroll] at hget2
  unfold ContinuationTick.replanStuck at hget2
  rw [if_neg (by simp)] at hget2
  refine not_replacedWhenDone g.id pid ⟨_, hget1, hleaf, by simp [retriedGoal, hactive]⟩
    ⟨_, hget2, rfl, hrefused.append (List.append_assoc _ _ _) (by simp [mem_refsOf]), fun hrep => ?_⟩
  rw [retriedGoal, List.append_assoc] at hrep
  exact hnot (hrep.of_append (by simp [refsOf]))

/-! ## Runs -/

/--
**A goal that becomes done has an alternative for every refused packet.** From a store whose open
leaf goals forgot no refused packet: the ticks of a run meet the guard if and only if, at no point
of the run, a tick can close a leaf goal with a packet that was refused, never executed, and not
followed by a proposal of another packet.
-/
theorem done_goals_replaced_refusals (store : GoalStore) (logs : GovernanceLogs)
    (ticks : List GoalTick) (hstart : GoalStore.Forall Redrivable store) :
    Machine.EachStep goalStep ReplanGuard (.start store logs) ticks ↔
      Machine.Always goalStep (fun rt => ∀ a, ReplacedWhenDone rt a) (.start store logs) ticks := by
  constructor
  · intro hguard
    have hrun : Machine.Always goalStep (fun rt => GoalStore.Forall Redrivable rt.store)
        (.start store logs) ticks := by
      refine Machine.always_of_guard (A := fun _ => True) (fun rt a _ h hg => ?_) hstart (by simp)
        hguard
      exact goalStep_forall (fun k g g' hget hold hc => hc.redrivable hg hget hold)
        (fun g hm => hm.redrivable) h
    exact Machine.always_iff_prefix.mpr fun pre hpre a =>
      replacedWhenDone_of_redrivable (Machine.always_iff_prefix.mp hrun pre hpre) a
  · intro hgreen
    generalize GoalRuntime.start store logs = rt at hgreen
    induction ticks generalizing rt with
    | nil => trivial
    | cons a ticks ih =>
      refine ⟨?_, ih _ hgreen.2⟩
      cases a with
      | schedule t => trivial
      | exec t => trivial
      | continuation t =>
        by_contra hguard
        exact not_replacedWhenDone_of_retry {} hguard (hgreen.2.head _)

/-! ## A refused packet, alone and next to one that ran -/

/-- An active goal whose packets wait. -/
def waitingGoal (pids : List String) : Goal :=
  { openGoal with
    packets := pids
    evidence := pids.map fun p => ⟨"t1", .proposal, "[safe] fix -> safe", some p⟩ }

/-- The packet is refused and dropped, and an alternative is found, run and verified. -/
def replacedRun : List GoalTick :=
  [.exec { gate := fun _ => { authorized := false } }, .continuation {},
    .schedule { discover := fun _ => [todoPacket], newId := toString }, .exec { gate := fun _ => {} },
    .continuation {}]

theorem done_goals_replaced_refusals_replaced :
    Machine.Always goalStep (fun rt => ∀ a, ReplacedWhenDone rt a)
        (.start (save Table.empty (waitingGoal ["packet-1"])) []) replacedRun
      ∧ (get (Machine.run goalStep (.start (save Table.empty (waitingGoal ["packet-1"])) [])
          replacedRun).store "goal-1").map Goal.status = some .done := by
  refine ⟨?_, by decide +kernel⟩
  have hstart : GoalStore.Forall Redrivable (save Table.empty (waitingGoal ["packet-1"])) :=
    forall_save_empty fun _ _ => .inl fun pid hrefused => by cases hrefused.2.1
  refine (done_goals_replaced_refusals _ [] replacedRun hstart).mp
    ⟨trivial, fun g hmem hactive hleaf hstuck hleft => .inl ?_, trivial, trivial,
      fun g hmem hactive hleaf hstuck hleft => .inl ?_, trivial⟩
  -- at the first continuation tick nothing was executed, at the second one nothing is stuck
  all_goals
    revert g
    decide +kernel

/-- Of two packets one runs and the other is refused; the refused one is dropped. -/
def droppedRun : List GoalTick :=
  [.exec { gate := fun n => { authorized := n = 0 } }, .continuation {}, .continuation {}]

/-- The goal is done, and nothing was proposed after the refusal. -/
theorem abandoned_packet_is_closed_green :
    ¬ ∀ (store : GoalStore) (logs : GovernanceLogs) (ticks : List GoalTick),
        Machine.EachStep goalStep ReplacedWhenDone (.start store logs) ticks := by
  intro h
  obtain ⟨-, -, hlast, -⟩ :=
    h (save Table.empty (waitingGoal ["packet-1", "packet-2"])) [] droppedRun
  refine absurd hlast (not_replacedWhenDone "goal-1" "packet-2" ?_ ?_)
  all_goals decide +kernel

end ForgeKit.Goals
