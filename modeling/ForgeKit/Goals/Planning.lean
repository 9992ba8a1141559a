import Mathlib.Data.Finset.Card
import ForgeKit.Goals.Models

/-!
# Planning over goals (`forgekit_goal.planning`)

Everything here is read off the evidence of a goal, which only grows, and off its packet links,
which a replan may drop. The counts of `tallyPackets` are cardinalities of sets of packet ids; the
`tallyPackets_*_eq_zero` lemmas say what each of them being zero means for one id.

* `tallyPackets`, `isGoalComplete`, `isStuck`, `replan` — a leaf goal and its packets
* `approvalDisposition` — whether the pending packets need an operator
* `progress`, `continuationAction` — a parent and its children
* `decompose`, `derivePlanSteps` — how a big goal becomes a plan
-/

namespace ForgeKit.Goals

/-! ## Packets in the evidence -/

/-- The refs of one kind in a list of evidence, in order. -/
def refsOf (kind : EvidenceKind) (evidence : List EvidenceRecord) : List String :=
  evidence.filterMap fun e => if e.kind = kind then e.ref.filter (· ≠ "") else none

/-- `_packet_refs`. -/
def packetRefs (g : Goal) (kind : EvidenceKind) : List String := refsOf kind g.evidence

theorem refsOf_append (kind : EvidenceKind) (ev ev' : List EvidenceRecord) :
    refsOf kind (ev ++ ev') = refsOf kind ev ++ refsOf kind ev' := List.filterMap_append

theorem mem_refsOf {kind : EvidenceKind} {ev : List EvidenceRecord} {p : String} :
    p ∈ refsOf kind ev ↔ ∃ e ∈ ev, e.kind = kind ∧ e.ref = some p ∧ p ≠ "" := by
  simp only [refsOf, List.mem_filterMap]
  constructor
  · rintro ⟨e, he, h⟩
    split at h
    · next hk =>
      obtain ⟨href, hne⟩ := Option.filter_eq_some_iff.mp h
      exact ⟨e, he, hk, href, by simpa using hne⟩
    · cases h
  · rintro ⟨e, he, hk, href, hne⟩
    exact ⟨e, he, by rw [if_pos hk, href]; simp [Option.filter, hne]⟩

@[simp] theorem mem_refsOf_append {kind : EvidenceKind} {ev ev' : List EvidenceRecord}
    {p : String} : p ∈ refsOf kind (ev ++ ev') ↔ p ∈ refsOf kind ev ∨ p ∈ refsOf kind ev' := by
  rw [refsOf_append, List.mem_append]

@[simp] theorem mem_refsOf_singleton {kind : EvidenceKind} {e : EvidenceRecord} {p : String} :
    p ∈ refsOf kind [e] ↔ e.kind = kind ∧ e.ref = some p ∧ p ≠ "" := by
  simp [mem_refsOf]

/-- A record of another kind leaves the refs of a kind as they were. -/
theorem packetRefs_addEvidence_of_ne {g : Goal} {kind kind' : EvidenceKind} {summary : String}
    {ref : Option String} {now : String} (h : kind' ≠ kind) :
    packetRefs (g.addEvidence kind' summary ref now) kind = packetRefs g kind := by
  simp [packetRefs, refsOf, h]

/-- `PacketTally`. -/
structure PacketTally where
  total : Nat
  executed : Nat
  blocked : Nat
  pending : Nat
deriving DecidableEq, Repr

/-- The packets `tally_packets` counts: proposed, and still linked. -/
def proposedPackets (g : Goal) : Finset String :=
  (packetRefs g .proposal).toFinset ∩ g.packets.toFinset

/-- `tally_packets`. -/
def tallyPackets (g : Goal) : PacketTally :=
  let proposed := proposedPackets g
  let executedRefs := (packetRefs g .execution).toFinset ∩ proposed
  let decisionRefs := (packetRefs g .decision).toFinset ∩ proposed
  let blockedRefs := decisionRefs \ executedRefs
  let pendingRefs := (proposed \ executedRefs) \ blockedRefs
  { total := proposed.card, executed := executedRefs.card, blocked := blockedRefs.card,
    pending := pendingRefs.card }

/-- `_pending_packet_ids`. -/
def pendingPacketIds (g : Goal) : List String :=
  g.packets.filter fun p =>
    p ∈ packetRefs g .proposal ∧ ¬(p ∈ packetRefs g .execution ∨ p ∈ packetRefs g .decision)

/-- `_blocked_packet_ids`. -/
def blockedPacketIds (g : Goal) : List String :=
  g.packets.filter fun p =>
    p ∈ packetRefs g .proposal ∧ p ∈ packetRefs g .decision ∧ p ∉ packetRefs g .execution

theorem mem_proposedPackets {g : Goal} {p : String} :
    p ∈ proposedPackets g ↔ p ∈ packetRefs g .proposal ∧ p ∈ g.packets := by
  simp [proposedPackets]

theorem mem_pendingPacketIds {g : Goal} {p : String} :
    p ∈ pendingPacketIds g ↔ p ∈ g.packets ∧ p ∈ packetRefs g .proposal
      ∧ p ∉ packetRefs g .execution ∧ p ∉ packetRefs g .decision := by
  simp [pendingPacketIds, not_or]

theorem mem_blockedPacketIds {g : Goal} {p : String} :
    p ∈ blockedPacketIds g ↔ p ∈ g.packets ∧ p ∈ packetRefs g .proposal
      ∧ p ∈ packetRefs g .decision ∧ p ∉ packetRefs g .execution := by
  simp [blockedPacketIds]

theorem pendingPacketIds_eq_nil {g : Goal} :
    pendingPacketIds g = [] ↔ ∀ p ∈ g.packets, p ∈ packetRefs g .proposal →
      p ∈ packetRefs g .execution ∨ p ∈ packetRefs g .decision := by
  simp only [List.eq_nil_iff_forall_not_mem, mem_pendingPacketIds]
  grind

theorem blockedPacketIds_eq_nil {g : Goal} :
    blockedPacketIds g = [] ↔ ∀ p ∈ g.packets, p ∈ packetRefs g .proposal →
      p ∈ packetRefs g .decision → p ∈ packetRefs g .execution := by
  simp only [List.eq_nil_iff_forall_not_mem, mem_blockedPacketIds]
  grind

theorem tallyPackets_total_eq_zero {g : Goal} :
    (tallyPackets g).total = 0 ↔ ∀ p ∈ g.packets, p ∉ packetRefs g .proposal := by
  simp only [tallyPackets, Finset.card_eq_zero, Finset.eq_empty_iff_forall_notMem,
    mem_proposedPackets]
  grind

theorem tallyPackets_executed_eq_zero {g : Goal} :
    (tallyPackets g).executed = 0 ↔
      ∀ p ∈ g.packets, p ∈ packetRefs g .proposal → p ∉ packetRefs g .execution := by
  simp only [tallyPackets, Finset.card_eq_zero, Finset.eq_empty_iff_forall_notMem,
    Finset.mem_inter, List.mem_toFinset, mem_proposedPackets]
  grind

theorem tallyPackets_blocked_eq_zero {g : Goal} :
    (tallyPackets g).blocked = 0 ↔ blockedPacketIds g = [] := by
  rw [blockedPacketIds_eq_nil]
  simp only [tallyPackets, Finset.card_eq_zero, Finset.eq_empty_iff_forall_notMem,
    Finset.mem_sdiff, Finset.mem_inter, List.mem_toFinset, mem_proposedPackets]
  grind

theorem tallyPackets_pending_eq_zero {g : Goal} :
    (tallyPackets g).pending = 0 ↔ pendingPacketIds g = [] := by
  rw [pendingPacketIds_eq_nil]
  simp only [tallyPackets, Finset.card_eq_zero, Finset.eq_empty_iff_forall_notMem,
    Finset.mem_sdiff, Finset.mem_inter, List.mem_toFinset, mem_proposedPackets]
  grind

/-! ## Complete and stuck -/

def hasVerification (g : Goal) : Bool := g.evidence.any fun e => e.kind = .verification

/-- `is_goal_complete`. -/
def isGoalComplete (g : Goal) : Bool :=
  if g.status = .abandoned then false
  else
    let t := tallyPackets g
    if t.total = 0 then false
    else hasVerification g && decide (t.pending = 0) && decide (t.blocked = 0)

/-- `is_stuck`. -/
def isStuck (g : Goal) : Bool :=
  let t := tallyPackets g
  decide (0 < t.blocked) && decide (t.pending = 0) && !isGoalComplete g

theorem isGoalComplete_iff {g : Goal} :
    isGoalComplete g = true ↔ g.status ≠ .abandoned ∧ (tallyPackets g).total ≠ 0
      ∧ hasVerification g = true ∧ pendingPacketIds g = [] ∧ blockedPacketIds g = [] := by
  rw [← tallyPackets_pending_eq_zero, ← tallyPackets_blocked_eq_zero]
  unfold isGoalComplete
  by_cases hs : g.status = .abandoned <;> by_cases ht : (tallyPackets g).total = 0 <;>
    simp [hs, ht, and_assoc]

theorem isStuck_iff {g : Goal} :
    isStuck g = true ↔ blockedPacketIds g ≠ [] ∧ pendingPacketIds g = [] := by
  have hblocked := tallyPackets_blocked_eq_zero (g := g)
  have hpending := tallyPackets_pending_eq_zero (g := g)
  constructor
  · intro h
    simp only [isStuck, Bool.and_eq_true, decide_eq_true_eq] at h
    exact ⟨fun hb => absurd (hblocked.mpr hb) (by omega), hpending.mp h.1.2⟩
  · rintro ⟨hb, hp⟩
    have hnot : isGoalComplete g = false := by
      rw [Bool.eq_false_iff]
      exact fun hc => hb (isGoalComplete_iff.mp hc).2.2.2.2
    have hpos : 0 < (tallyPackets g).blocked := Nat.pos_of_ne_zero fun h => hb (hblocked.mp h)
    simp [isStuck, hpos, hpending.mpr hp, hnot]

/-! ## Replan -/

/-- `blocked_reason`. -/
def blockedReason (g : Goal) : Option String :=
  (g.evidence.reverse.find? fun e => e.kind = .decision || e.kind = .blocked).map (·.summary)

/-- `REPLAN_RETRY`, `REPLAN_ESCALATE`, `REPLAN_NONE`. -/
inductive ReplanAction where
  | retry
  | escalate
  | none
deriving DecidableEq, Repr

/-- `ReplanDecision`. -/
structure ReplanDecision where
  action : ReplanAction
  reason : String
  unlink : List String := []
  attempt : Nat := 0
deriving DecidableEq, Repr

/-- `_replan_attempts`. -/
def replanAttempts (g : Goal) : Nat := g.evidence.countP fun e => e.kind = .replan

/-- `blocked_reason(goal) or "gate-blocked (no recorded reason)"`. -/
def stuckReason (g : Goal) : String :=
  match blockedReason g with
  | some r => if r = "" then "gate-blocked (no recorded reason)" else r
  | none => "gate-blocked (no recorded reason)"

/-- `replan`. -/
def replan (g : Goal) (maxAttempts : Nat) : ReplanDecision :=
  if isStuck g = false then { action := .none, reason := "not stuck" }
  else if replanAttempts g < maxAttempts then
    { action := .retry
      reason := "retry " ++ toString (replanAttempts g + 1) ++ "/" ++ toString maxAttempts
        ++ ": abandon blocked approach — " ++ stuckReason g
      unlink := blockedPacketIds g
      attempt := replanAttempts g + 1 }
  else
    { action := .escalate
      reason := "escalate after " ++ toString (replanAttempts g) ++ " retry: " ++ stuckReason g
      attempt := replanAttempts g }

/-- A replan retries a stuck goal while attempts are left, and escalates it after that. -/
theorem replan_cases (g : Goal) (maxAttempts : Nat) :
    isStuck g = false ∧ (replan g maxAttempts).action = .none
      ∨ isStuck g = true ∧ replanAttempts g < maxAttempts
          ∧ (replan g maxAttempts).action = .retry
          ∧ (replan g maxAttempts).unlink = blockedPacketIds g
      ∨ isStuck g = true ∧ maxAttempts ≤ replanAttempts g
          ∧ (replan g maxAttempts).action = .escalate := by
  unfold replan
  by_cases hs : isStuck g = false
  · exact .inl ⟨hs, by rw [if_pos hs]⟩
  · rw [if_neg hs]
    rw [Bool.not_eq_false] at hs
    by_cases ha : replanAttempts g < maxAttempts
    · rw [if_pos ha]
      exact .inr (.inl ⟨hs, ha, rfl, rfl⟩)
    · rw [if_neg ha]
      exact .inr (.inr ⟨hs, Nat.le_of_not_lt ha, rfl⟩)

/-! ## Approval -/

/-- What stands in the brackets a proposal starts with, stripped and in lower case. -/
def tagOf (summary : String) : Option String :=
  match summary.toList.dropWhile PyText.isSpace with
  | '[' :: rest =>
    if ']' ∈ rest then
      some (PyText.lower (PyText.strip (String.ofList (rest.takeWhile (· ≠ ']')))))
    else none
  | _ => none

theorem tagOf_of_toList {summary : String} {tag rest : List Char}
    (hs : summary.toList = '[' :: (tag ++ ']' :: rest)) (htag : ']' ∉ tag) :
    tagOf summary = some (PyText.lower (PyText.strip (String.ofList tag))) := by
  have htake : (tag ++ ']' :: rest).takeWhile (· ≠ ']') = tag := by
    rw [List.takeWhile_append_of_pos, List.takeWhile_cons_of_neg (by simp), List.append_nil]
    intro c hc
    simpa using fun he : c = ']' => htag (he ▸ hc)
  unfold tagOf
  rw [hs, List.dropWhile_cons_of_neg (by decide)]
  simp only
  rw [if_pos (by simp), htake]

/-- The first tag that can be read off the proposals of a packet. -/
def proposalTag (evidence : List EvidenceRecord) (pid : String) : Option String :=
  evidence.findSome? fun e =>
    if e.kind = .proposal ∧ e.ref = some pid then tagOf e.summary else none

/-- `_proposal_risk`. -/
def proposalRisk (g : Goal) (pid : String) : String := (proposalTag g.evidence pid).getD "risky"

/-- `NEEDS_APPROVAL`, `AUTONOMOUS_SAFE`, `DISPO_NONE`. -/
inductive Disposition where
  | needsApproval
  | autonomousSafe
  | none
deriving DecidableEq, Repr

/-- `approval_disposition`. -/
def approvalDisposition (g : Goal) : Disposition :=
  let pending := pendingPacketIds g
  if pending = [] then .none
  else if pending.any fun p => proposalRisk g p ≠ "safe" then .needsApproval
  else .autonomousSafe

theorem approvalDisposition_eq_needsApproval {g : Goal} :
    approvalDisposition g = .needsApproval ↔
      ∃ p ∈ pendingPacketIds g, proposalRisk g p ≠ "safe" := by
  unfold approvalDisposition
  by_cases hp : pendingPacketIds g = []
  · simp [hp]
  · by_cases hr : ∃ p ∈ pendingPacketIds g, proposalRisk g p ≠ "safe" <;> simp_all

/-! ## Parents and children -/

/-- `{c.id: c for c in children}.get(cid)`. -/
def resolve (children : List Goal) (cid : String) : Option Goal :=
  children.reverse.find? fun c => c.id = cid

/-- `_children_in_order`. -/
def childrenInOrder (parent : Goal) (children : List Goal) : List Goal :=
  parent.children.filterMap (resolve children)

theorem mem_childrenInOrder {parent : Goal} {children : List Goal} {c : Goal} :
    c ∈ childrenInOrder parent children ↔ ∃ cid ∈ parent.children, resolve children cid = some c :=
  List.mem_filterMap

/-- `GoalProgress`. -/
structure GoalProgress where
  goalId : String
  decomposed : Bool
  totalSteps : Nat
  doneSteps : Nat
  blockedSteps : Nat
  pendingSteps : Nat
  ratio : ℚ
  complete : Bool
  nextStepId : Option String
  summary : String

/-- `progress`. -/
def progress (g : Goal) (children : List Goal) : GoalProgress :=
  let kids := if g.children ≠ [] then childrenInOrder g children else []
  if kids ≠ [] then
    let done := kids.filter fun c => c.status = .done
    let blocked := kids.filter fun c => c.status = .blocked
    let awaiting := kids.filter fun c => c.status = .awaitingApproval
    let pending := kids.filter fun c => c.status ≠ .done ∧ c.status ≠ .abandoned
    let total := kids.length
    { goalId := g.id, decomposed := true, totalSteps := total, doneSteps := done.length,
      blockedSteps := blocked.length, pendingSteps := pending.length,
      ratio := (done.length : ℚ) / total,
      complete := decide (done.length = total ∧ 0 < total),
      nextStepId := pending.head?.map Goal.id,
      summary := toString done.length ++ "/" ++ toString total ++ " step done"
        ++ (if blocked ≠ [] then ", " ++ toString blocked.length ++ " blocked" else "")
        ++ (if awaiting ≠ [] then ", " ++ toString awaiting.length ++ " 승인대기" else "") }
  else
    let t := tallyPackets g
    { goalId := g.id, decomposed := false, totalSteps := t.total, doneSteps := t.executed,
      blockedSteps := t.blocked, pendingSteps := t.pending,
      ratio := if t.total ≠ 0 then (t.executed : ℚ) / t.total else 0,
      complete := isGoalComplete g,
      nextStepId := (g.packets.filter fun p => p ∈ packetRefs g .proposal).find? fun p =>
        p ∉ packetRefs g .execution ∧
          ¬(p ∈ packetRefs g .decision ∧ p ∉ packetRefs g .execution),
      summary := toString t.executed ++ "/" ++ toString t.total ++ " packet 실행"
        ++ (if t.blocked ≠ 0 then ", " ++ toString t.blocked ++ " 차단" else "")
        ++ (if t.pending ≠ 0 then ", " ++ toString t.pending ++ " 대기" else "") }

/-- `ADVANCE`, `COMPLETE`, `REPLAN`, `WAIT`, `NOOP`. -/
inductive ContinuationKind where
  | advance
  | complete
  | replan
  | wait
  | noop
deriving DecidableEq, Repr

/-- `ContinuationAction`. -/
structure ContinuationAction where
  kind : ContinuationKind
  targetId : Option String
  reason : String
deriving DecidableEq, Repr

/-- A status that the plan does not stop at. -/
def GoalStatus.isFinished (st : GoalStatus) : Bool := st = .done || st = .abandoned

/-- The move that one child asks for; `none` when the walk goes on to the next child. -/
def childMove (child : Goal) : Option ContinuationAction :=
  match child.status with
  | .done | .abandoned => none
  | .blocked =>
    some ⟨.replan, some child.id, "child " ++ child.id ++ " blocked — operator re-decide"⟩
  | .awaitingApproval => some ⟨.wait, some child.id, "child " ++ child.id ++ " 승인 대기"⟩
  | .active =>
    let t := tallyPackets child
    if t.pending = 0 ∧ 0 < t.blocked then
      some ⟨.replan, some child.id, "child " ++ child.id ++ " 게이트 차단 — operator re-decide"⟩
    else some ⟨.wait, some child.id, "child " ++ child.id ++ " 실행 중"⟩
  | .draft => some ⟨.advance, some child.id, "activate next step " ++ child.id⟩

/-- `continuation_action`. -/
def continuationAction (parent : Goal) (children : List Goal) : ContinuationAction :=
  if parent.children = [] then ⟨.noop, none, "no children (leaf goal)"⟩
  else if parent.status.isFinished then
    ⟨.noop, none, "parent already " ++ parent.status.value⟩
  else
    let kids := childrenInOrder parent children
    if kids = [] then ⟨.noop, none, "child ids unresolved"⟩
    else (kids.findSome? childMove).getD
      ⟨.complete, some parent.id,
        "all " ++ toString kids.length ++ " step done — parent eligible for done"⟩

theorem childMove_eq_none {c : Goal} : childMove c = none ↔ c.status.isFinished = true := by
  unfold childMove GoalStatus.isFinished
  cases c.status
  case active => simp only; split <;> simp
  all_goals simp

/-- The walk stops at a child with a move of its own, which is never to complete the parent. -/
theorem childMove_kind {c : Goal} {m : ContinuationAction} (h : childMove c = some m) :
    m.kind ≠ .complete ∧ m.targetId = some c.id
      ∧ (m.kind = .advance → c.status = .draft) := by
  unfold childMove at h
  cases hs : c.status <;> simp only [hs] at h
  case active => split at h <;> cases h <;> simp
  case done => cases h
  case abandoned => cases h
  all_goals cases h; simp

/-- When a plan is complete: every child that resolves is finished, and some child does. -/
theorem continuationAction_complete_iff {parent : Goal} {children : List Goal} :
    (continuationAction parent children).kind = .complete ↔
      parent.status.isFinished = false ∧ childrenInOrder parent children ≠ []
        ∧ ∀ c ∈ childrenInOrder parent children, c.status.isFinished = true := by
  unfold continuationAction
  by_cases hc : parent.children = []
  · have hkids : childrenInOrder parent children = [] := by simp [childrenInOrder, hc]
    simp [hc, hkids]
  · by_cases hs : parent.status.isFinished = true
    · simp [hc, hs]
    · by_cases hk : childrenInOrder parent children = []
      · simp [hc, hs, hk]
      · rw [if_neg hc, if_neg hs]
        simp only [hk, if_false, hs, ne_eq, not_false_eq_true, true_and]
        cases hm : (childrenInOrder parent children).findSome? childMove with
        | none =>
          have hall := List.findSome?_eq_none_iff.mp hm
          simpa using fun c hcm => childMove_eq_none.mp (hall c hcm)
        | some m =>
          obtain ⟨c, hcm, hmove⟩ := List.exists_of_findSome?_eq_some hm
          have hno : ¬ c.status.isFinished = true := fun hf => by
            rw [childMove_eq_none.mpr hf] at hmove; cases hmove
          exact iff_of_false (childMove_kind hmove).1 fun h => hno (h c hcm)

/-- A plan that advances points at a draft among its children. -/
theorem continuationAction_advance {parent : Goal} {children : List Goal} {cid : String}
    (hk : (continuationAction parent children).kind = .advance)
    (ht : (continuationAction parent children).targetId = some cid) :
    ∃ c ∈ childrenInOrder parent children, c.id = cid ∧ c.status = .draft := by
  unfold continuationAction at hk ht
  split at hk
  · cases hk
  · next hc =>
    rw [if_neg hc] at ht
    split at hk
    · cases hk
    · next hs =>
      rw [if_neg hs] at ht
      simp only at hk ht
      split at hk
      · cases hk
      · next hkids =>
        rw [if_neg hkids] at ht
        cases hm : (childrenInOrder parent children).findSome? childMove with
        | none => rw [hm] at hk; cases hk
        | some m =>
          rw [hm, Option.getD_some] at hk ht
          obtain ⟨c, hcm, hmove⟩ := List.exists_of_findSome?_eq_some hm
          obtain ⟨-, htarget, hdraft⟩ := childMove_kind hmove
          rw [htarget, Option.some.injEq] at ht
          exact ⟨c, hcm, ht, hdraft hk⟩

/-- Progress of a parent with a child that resolves is complete when all such children are done. -/
theorem progress_complete_iff {parent : Goal} {children : List Goal}
    (hne : childrenInOrder parent children ≠ []) :
    (progress parent children).complete = true ↔
      ∀ c ∈ childrenInOrder parent children, c.status = .done := by
  have hc : parent.children ≠ [] := fun h => hne (by simp [childrenInOrder, h])
  have hpos : 0 < (childrenInOrder parent children).length := List.length_pos_iff.mpr hne
  simp only [progress, ne_eq, hc, not_false_eq_true, if_true, hne, decide_eq_true_eq, hpos,
    and_true]
  rw [List.length_filter_eq_length_iff]
  simp

/-! ## Decomposition -/

/-- `PlanStep`. -/
structure PlanStep where
  title : String
  intent : String := ""
deriving DecidableEq, Repr

/-- The children of the steps, each with the next of the new ids, and the parent with them. -/
def decomposeSteps (parent : Goal) (now : String) (newId : Nat → String) :
    Nat → Goal → List PlanStep → Except String (Goal × List Goal)
  | _, g, [] => .ok (g, [])
  | k, g, s :: steps => do
    let child ← Goal.create s.title s.intent parent.mode (some parent.id) (newId k) now
    let g ← g.addChild child.id now
    let (g, children) ← decomposeSteps parent now newId (k + 1) g steps
    return (g, child :: children)

/-- `decompose`. The `k`-th id and the ones after it are the ones that `new_goal_id` returns. -/
def decompose (parent : Goal) (steps : List PlanStep) (now : String) (newId : Nat → String)
    (k : Nat) : Except String (Goal × List Goal) := do
  let steps := steps.filter fun s => PyText.strip s.title ≠ ""
  if steps = [] then throw "decompose needs at least one non-empty plan step"
  let (g, children) ← decomposeSteps parent now newId k parent steps
  return (g.addEvidence .plan ("decomposed into " ++ toString children.length ++ " step(s): "
    ++ ", ".intercalate (children.map Goal.title)) none now, children)

/-- `(area or "").strip() or "general"`. -/
def areaKey (area : String) : String :=
  if PyText.strip area = "" then "general" else PyText.strip area

/-- `derive_plan_steps`. -/
def derivePlanSteps (items : List (String × String)) : List PlanStep :=
  let keys := items.map fun i => areaKey i.1
  keys.eraseDups.map fun area =>
    ⟨area, toString (keys.count area) ++ " finding(s) in " ++ area⟩

/-- The number of distinct areas. -/
def areaCount (items : List (String × String)) : Nat :=
  (items.map fun i => areaKey i.1).eraseDups.length

/-- `is_big_goal`. -/
def isBigGoal (items : List (String × String)) : Bool := 2 ≤ areaCount items

/-- What a decomposition changes on the parent, and what its children are. -/
structure Decomposed (parent : Goal) (newId : Nat → String) (k : Nat) (parent' : Goal)
    (children : List Goal) : Prop where
  fields : parent' = { parent with
    children := parent'.children, evidence := parent'.evidence, updatedAt := parent'.updatedAt }
  grown : ∃ summary ts, parent'.evidence = parent.evidence ++ [⟨ts, .plan, summary, none⟩]
  nonempty : parent'.children ≠ []
  ids : ∃ n, children.map Goal.id = (List.range n).map (fun i => newId (k + i))
  drafts : ∀ c ∈ children, c.status = .draft ∧ c.parentId = some parent.id ∧ c.children = []
    ∧ c.packets = [] ∧ c.evidence = []

theorem decomposeSteps_ok {parent : Goal} {now : String} {newId : Nat → String} {k : Nat}
    {g g' : Goal} {steps : List PlanStep} {children : List Goal}
    (h : decomposeSteps parent now newId k g steps = .ok (g', children)) :
    g' = { g with children := g'.children, updatedAt := g'.updatedAt }
      ∧ (steps ≠ [] ∨ g.children ≠ [] → g'.children ≠ [])
      ∧ children.map Goal.id = (List.range steps.length).map (fun i => newId (k + i))
      ∧ ∀ c ∈ children, c.status = .draft ∧ c.parentId = some parent.id ∧ c.children = []
          ∧ c.packets = [] ∧ c.evidence = [] := by
  induction steps generalizing k g children with
  | nil => cases h; exact ⟨rfl, by simp, rfl, by simp⟩
  | cons s steps ih =>
    simp only [decomposeSteps, bind, Except.bind] at h
    cases hcreate : Goal.create s.title s.intent parent.mode (some parent.id) (newId k) now with
    | error e => rw [hcreate] at h; cases h
    | ok child =>
      simp only [hcreate] at h
      cases hadd : g.addChild child.id now with
      | error e => rw [hadd] at h; cases h
      | ok g1 =>
        simp only [hadd] at h
        cases hrest : decomposeSteps parent now newId (k + 1) g1 steps with
        | error e => rw [hrest] at h; cases h
        | ok r =>
          obtain ⟨g2, rest⟩ := r
          simp only [hrest] at h
          cases h
          obtain ⟨hfields, hsome, hids, hdrafts⟩ := ih hrest
          obtain ⟨hfields1, hchildren1⟩ := Goal.addChild_ok hadd
          obtain ⟨hid, hdraft⟩ := Goal.create_ok hcreate
          have hne1 : g1.children ≠ [] := by
            rw [hchildren1]
            by_cases hm : PyText.strip child.id ∈ g.children
            · rw [if_pos hm, List.append_nil]
              exact List.ne_nil_of_mem hm
            · simp [hm]
          refine ⟨?_, fun _ => hsome (.inr hne1), ?_, ?_⟩
          · rw [hfields, hfields1]
          · rw [List.map_cons, hids, hid, List.length_cons, List.range_succ_eq_map,
              List.map_cons, List.map_map]
            simp only [Function.comp_def, Nat.add_zero, Nat.succ_eq_add_one, Nat.add_assoc,
              Nat.add_comm 1]
          · intro c hc
            rcases List.mem_cons.mp hc with rfl | hc
            · exact hdraft
            · exact hdrafts c hc

theorem decompose_ok {parent parent' : Goal} {steps : List PlanStep} {now : String}
    {newId : Nat → String} {k : Nat} {children : List Goal}
    (h : decompose parent steps now newId k = .ok (parent', children)) :
    Decomposed parent newId k parent' children := by
  simp only [decompose, bind, Except.bind] at h
  by_cases hsteps : (steps.filter fun s => PyText.strip s.title ≠ "") = []
  · rw [if_pos hsteps] at h
    cases h
  · rw [if_neg hsteps] at h
    simp only [pure, Except.pure] at h
    cases hrun : decomposeSteps parent now newId k parent
        (steps.filter fun s => PyText.strip s.title ≠ "") with
    | error e => rw [hrun] at h; cases h
    | ok r =>
      obtain ⟨g, made⟩ := r
      rw [hrun] at h
      cases h
      obtain ⟨hfields, hsome, hids, hdrafts⟩ := decomposeSteps_ok hrun
      have hevidence : g.evidence = parent.evidence := by rw [hfields]
      refine ⟨?_, ⟨_, _, by rw [Goal.addEvidence_evidence, hevidence]⟩, hsome (.inl hsteps),
        ⟨_, hids⟩, hdrafts⟩
      rw [hfields]
      rfl

end ForgeKit.Goals
