import ForgeKit.Lib.Sha1
import ForgeKit.Goals.Planning

/-!
# Improvement packets and their links (`selfimprove.packet`, `goal_tick`, `goal_intent`)

A packet has no id of its own: `packetId` hashes what identifies the work. `linkPackets` links
each packet, records one proposal for each, and parks the goal when one of them is not safe and
the transition table lets it.

* `linkPackets_spec` — what a goal is after its packets were linked
* `packetId_strip` — an id that `linkPacket` takes as it is
-/

namespace ForgeKit.Goals

/-! ## Packets -/

/-- `RepoImprovementPacket`, with the fields that linking reads. -/
structure RepoImprovementPacket where
  finding : String
  affectedArea : String := ""
  risk : String := "safe"
deriving DecidableEq, Repr

/-- `_BLOCKED_AREAS`. -/
def blockedAreas : List String :=
  ["deploy", "secret", "infra", "iam", "migration", "production", "배포", "인프라"]

/-- `_RISKY_AREAS`. -/
def riskyAreas : List String := ["rewrite", "broad", "schema", "auth", "권한", "대규모"]

/-- `classify_risk`. -/
def classifyRisk (finding area : String) : String :=
  let blob := PyText.lower (finding ++ " " ++ area)
  if blockedAreas.any (PyText.contains blob) then "blocked"
  else if riskyAreas.any (PyText.contains blob) then "risky"
  else "safe"

/-- `packet_id`. -/
def packetId (p : RepoImprovementPacket) : String :=
  "packet-" ++ String.ofList
    ((Sha1.hexdigest (p.finding ++ "\x00" ++ p.affectedArea ++ "\x00" ++ p.risk)).take 12)

/-- `route_packet`. -/
def routePacket (p : RepoImprovementPacket) : String :=
  if p.risk = "blocked" then "blocked → runbook + operator 승인 (자동 실행 금지)"
  else if p.risk = "risky" then "risky → approval-wait (operator 결정)"
  else "safe → tech-lead ready (승인 체계 내 자동 가능)"

/-- `intent_packets`. -/
def intentPackets (goalTitle : String) : List RepoImprovementPacket :=
  let title := PyText.strip goalTitle
  if title = "" then []
  else [{ finding := "PM brief 작성: " ++ title, affectedArea := "planning/decision",
          risk := "risky" }]

theorem hexDigit_not_space : ∀ n < 16, PyText.isSpace (Sha1.hexDigit n) = false := by decide

theorem packetId_toList (p : RepoImprovementPacket) : (packetId p).toList
    = "packet-".toList ++ (Sha1.hexdigest
        (p.finding ++ "\x00" ++ p.affectedArea ++ "\x00" ++ p.risk)).take 12 := by
  rw [packetId, String.toList_append]
  exact congrArg ("packet-".toList ++ ·) String.toList_ofList

/-- The id of a packet has no white space in it. -/
theorem packetId_strip (p : RepoImprovementPacket) : PyText.strip (packetId p) = packetId p := by
  refine PyText.strip_eq_self fun c hc => ?_
  rw [packetId_toList] at hc
  rcases List.mem_append.mp hc with hc | hc
  · have hlead : "packet-".toList.all (fun c => PyText.isSpace c = false) = true := by decide
    simpa using List.all_eq_true.mp hlead c hc
  · exact Sha1.hexdigest_forall (P := fun c => PyText.isSpace c = false) hexDigit_not_space _ c
      (List.mem_of_mem_take hc)

theorem packetId_ne_empty (p : RepoImprovementPacket) : packetId p ≠ "" := by
  intro h
  have hlen : (packetId p).toList = [] := by rw [h]; rfl
  rw [packetId_toList] at hlen
  exact absurd (List.append_eq_nil_iff.mp hlen).1 (by decide)

/-! ## Linking -/

/-- The summary of the proposal that is recorded for a packet. -/
def proposalSummary (p : RepoImprovementPacket) : String :=
  "[" ++ p.risk ++ "] " ++ p.finding ++ " -> " ++ routePacket p

/-- The proposal that is recorded for a packet. -/
def proposalOf (now : String) (p : RepoImprovementPacket) : EvidenceRecord :=
  ⟨now, .proposal, proposalSummary p, some (packetId p)⟩

/-- What `link_packets` returns. -/
structure LinkResult where
  goal : Goal
  routes : List (String × String × String)
  waiting : Nat

/-- The loop of `link_packets`. -/
def linkEach (now : String) : Goal → List RepoImprovementPacket → Except String Goal
  | g, [] => .ok g
  | g, p :: ps => do
    let g ← g.linkPacket (packetId p) now
    linkEach now (g.addEvidence .proposal (proposalSummary p) (some (packetId p)) now) ps

/-- `link_packets`. -/
def linkPackets (g : Goal) (packets : List RepoImprovementPacket) (now : String) :
    Except String LinkResult := do
  let g ← linkEach now g packets
  let waiting := packets.countP fun p => p.risk ≠ "safe"
  let routes := packets.map fun p => (packetId p, p.risk, routePacket p)
  if 0 < waiting ∧ Transitions.canTransition g.status .awaitingApproval = true then do
    let g ← Transitions.apply g .awaitingApproval now
    return ⟨g, routes, waiting⟩
  else return ⟨g, routes, waiting⟩

/-- The links of a goal after some ids were linked in order. -/
def linkIds (linked ids : List String) : List String :=
  ids.foldl (fun acc p => if p ∈ acc then acc else acc ++ [p]) linked

theorem mem_linkIds {linked ids : List String} {p : String} :
    p ∈ linkIds linked ids ↔ p ∈ linked ∨ p ∈ ids := by
  induction ids generalizing linked with
  | nil => simp [linkIds]
  | cons q ids ih =>
    rw [linkIds, List.foldl_cons, ← linkIds, ih]
    by_cases hq : q ∈ linked
    · rw [if_pos hq, List.mem_cons]
      constructor
      · rintro (h | h)
        · exact .inl h
        · exact .inr (.inr h)
      · rintro (h | rfl | h)
        · exact .inl h
        · exact .inl hq
        · exact .inr h
    · rw [if_neg hq]
      simp [or_assoc]

theorem linkIds_nodup {linked ids : List String} (h : linked.Nodup) :
    (linkIds linked ids).Nodup := by
  induction ids generalizing linked with
  | nil => exact h
  | cons q ids ih =>
    rw [linkIds, List.foldl_cons, ← linkIds]
    by_cases hq : q ∈ linked
    · rw [if_pos hq]; exact ih h
    · rw [if_neg hq]
      refine ih (List.nodup_append.mpr ⟨h, List.nodup_singleton q, ?_⟩)
      rintro p hp p' hp' rfl
      exact hq (List.mem_singleton.mp hp' ▸ hp)

/-- The goal that `link_packets` returns. -/
def linkedGoal (g : Goal) (packets : List RepoImprovementPacket) (now : String)
    (updatedAt : String) : Goal :=
  { g with
    packets := linkIds g.packets (packets.map packetId)
    evidence := g.evidence ++ packets.map (proposalOf now)
    status := if (∃ p ∈ packets, p.risk ≠ "safe")
        ∧ Transitions.canTransition g.status .awaitingApproval = true then .awaitingApproval
      else g.status
    updatedAt := updatedAt }

theorem linkEach_spec (now : String) (g : Goal) (packets : List RepoImprovementPacket) :
    ∃ g', linkEach now g packets = .ok g' ∧ g' = { g with
      packets := linkIds g.packets (packets.map packetId)
      evidence := g.evidence ++ packets.map (proposalOf now)
      updatedAt := g'.updatedAt } := by
  induction packets generalizing g with
  | nil => exact ⟨g, by simp [linkEach, linkIds]⟩
  | cons p ps ih =>
    rw [linkEach, Goal.linkPacket_eq g now (packetId_strip p) (packetId_ne_empty p)]
    simp only [bind, Except.bind]
    obtain ⟨g', hrest, hgoal⟩ := ih ((if packetId p ∈ g.packets then g
      else { g with packets := g.packets ++ [packetId p], updatedAt := now }).addEvidence
        .proposal (proposalSummary p) (some (packetId p)) now)
    refine ⟨g', hrest, hgoal.trans ?_⟩
    by_cases hp : packetId p ∈ g.packets <;>
      simp [hp, linkIds, proposalOf, Goal.addEvidence]

/-- **`link_packets` never raises, and this is the goal it returns.** -/
theorem linkPackets_spec (g : Goal) (packets : List RepoImprovementPacket) (now : String) :
    ∃ r updatedAt, linkPackets g packets now = .ok r
      ∧ r.goal = linkedGoal g packets now updatedAt := by
  obtain ⟨g', hlink, hgoal⟩ := linkEach_spec now g packets
  have hstatus : g'.status = g.status := by rw [hgoal]
  have hcount : 0 < packets.countP (fun p => p.risk ≠ "safe") ↔ ∃ p ∈ packets, p.risk ≠ "safe" := by
    rw [List.countP_pos_iff]; simp
  simp only [linkPackets, hlink, bind, Except.bind]
  by_cases hpark : 0 < packets.countP (fun p => p.risk ≠ "safe")
      ∧ Transitions.canTransition g'.status .awaitingApproval = true
  · have hne : GoalStatus.awaitingApproval ≠ g'.status := by
      intro he
      have hcan := hpark.2
      rw [← he] at hcan
      exact absurd hcan (by decide)
    rw [if_pos hpark, Transitions.apply_of_canTransition now hpark.2 hne (by simp)]
    refine ⟨_, now, rfl, ?_⟩
    simp only [linkedGoal, Goal.withStatus]
    rw [if_pos ⟨hcount.mp hpark.1, hstatus ▸ hpark.2⟩, hgoal]
  · rw [if_neg hpark]
    refine ⟨_, g'.updatedAt, rfl, ?_⟩
    simp only [linkedGoal]
    rw [if_neg fun h => hpark ⟨hcount.mpr h.1, hstatus ▸ h.2⟩, ← hgoal]

/-! ## The evidence of a linked goal -/

theorem mem_refsOf_proposals {now : String} {packets : List RepoImprovementPacket} {p : String} :
    p ∈ refsOf .proposal (packets.map (proposalOf now)) ↔ p ∈ packets.map packetId := by
  simp only [mem_refsOf, List.mem_map]
  constructor
  · rintro ⟨e, ⟨q, hq, rfl⟩, -, href, -⟩
    exact ⟨q, hq, by simpa [proposalOf] using href⟩
  · rintro ⟨q, hq, rfl⟩
    exact ⟨_, ⟨q, hq, rfl⟩, rfl, rfl, packetId_ne_empty q⟩

theorem refsOf_proposals_of_ne {kind : EvidenceKind} (hk : kind ≠ .proposal) {now : String}
    {packets : List RepoImprovementPacket} :
    refsOf kind (packets.map (proposalOf now)) = [] := by
  refine List.eq_nil_iff_forall_not_mem.mpr fun p hp => ?_
  obtain ⟨e, he, hkind, -⟩ := mem_refsOf.mp hp
  obtain ⟨q, -, rfl⟩ := List.mem_map.mp he
  exact hk hkind.symm

section

variable (g : Goal) (packets : List RepoImprovementPacket) (now updatedAt : String)

@[simp] theorem linkedGoal_id : (linkedGoal g packets now updatedAt).id = g.id := rfl

@[simp] theorem linkedGoal_children :
    (linkedGoal g packets now updatedAt).children = g.children := rfl

@[simp] theorem linkedGoal_evidence :
    (linkedGoal g packets now updatedAt).evidence
      = g.evidence ++ packets.map (proposalOf now) := rfl

@[simp] theorem linkedGoal_packets :
    (linkedGoal g packets now updatedAt).packets
      = linkIds g.packets (packets.map packetId) := rfl

/-- A draft is never parked: the table does not lead from there to `awaiting_approval`. -/
theorem linkedGoal_status_draft (h : g.status = .draft) :
    (linkedGoal g packets now updatedAt).status = .draft := by
  simp only [linkedGoal, h]
  rw [if_neg fun hp => absurd hp.2 (by decide)]

/-- An active goal is parked as soon as one packet is not safe. -/
theorem linkedGoal_status_active (h : g.status = .active) :
    (linkedGoal g packets now updatedAt).status
      = if ∃ p ∈ packets, p.risk ≠ "safe" then .awaitingApproval else .active := by
  have hcan : Transitions.canTransition .active .awaitingApproval = true := by decide
  simp only [linkedGoal, h, hcan, and_true]

end

end ForgeKit.Goals
