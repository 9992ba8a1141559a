import ForgeKit.Goals.Planning

/-!
# The design chain of a goal (`goal_governance`, `decision_log`)

The chain of a goal is replayed from an append-only log of events, one log for each session. The
session of a goal is its id; two ids with the same file name share a log. An event counts only
when the validator of its artifact found nothing at the time it was recorded.

* `readinessFromLog` — the stage a log has reached
* `designGate` — whether the packets of a goal may run
* `recordPmBrief` — what the scheduler records; such a brief is never valid
-/

namespace ForgeKit.Goals

/-! ## The log -/

/-- The event kinds of the decision log. -/
inductive GovernanceKind where
  | brief
  | consult
  | gateway
  | meeting
  | decision
  | approval
  | handoff
  | execution
  | adoption
  | merge
deriving DecidableEq, Repr

/-- `GovernanceEvent`. -/
structure GovernanceEvent where
  sessionId : String
  kind : GovernanceKind
  actor : String := ""
  summary : String := ""
  valid : Bool := true
  ref : String := ""
deriving DecidableEq, Repr

/-- The logs under the state directory, by file name. -/
abbrev GovernanceLogs := Dict (List GovernanceEvent)

/-- `_safe_session`. -/
def safeSession (sessionId : String) : String :=
  let s := String.ofList ((PyText.strip sessionId).toList.map fun c =>
    if c.isAlphanum || c = '-' || c = '_' then c else '-')
  if s = "" then "session" else s

/-- `replay_governance_log`. -/
def replayGovernanceLog (logs : GovernanceLogs) (sessionId : String) : List GovernanceEvent :=
  (logs.get? (safeSession sessionId)).getD []

/-- `record_governance_event`. -/
def recordGovernanceEvent (logs : GovernanceLogs) (event : GovernanceEvent) : GovernanceLogs :=
  logs.set (safeSession event.sessionId) (replayGovernanceLog logs event.sessionId ++ [event])

/-! ## Readiness -/

/-- `STAGE_ORDER`. -/
inductive LaneStage where
  | noPmBrief
  | meetingPending
  | decisionPending
  | handoffPending
  | executable
deriving DecidableEq, Repr

def LaneStage.value : LaneStage → String
  | .noPmBrief => "no_pm_brief"
  | .meetingPending => "meeting_pending"
  | .decisionPending => "decision_pending"
  | .handoffPending => "handoff_pending"
  | .executable => "executable"

/-- `LaneReadiness`. -/
structure LaneReadiness where
  stage : LaneStage
  executable : Bool
  confirmed : List String := []
  missing : List String := []
  nextAction : String := ""
deriving DecidableEq, Repr

/-- Some event of the kind is valid. -/
def hasValid (events : List GovernanceEvent) (kind : GovernanceKind) : Bool :=
  events.any fun e => e.kind = kind && e.valid

/-- The summary of the first valid event of the kind. -/
def labelOf (events : List GovernanceEvent) (kind : GovernanceKind) : String :=
  ((events.find? fun e => e.kind = kind && e.valid).map (·.summary)).getD ""

/-- `readiness_from_log`. -/
def readinessFromLog (events : List GovernanceEvent) : LaneReadiness :=
  let label := labelOf events
  if hasValid events .brief = false then
    { stage := .noPmBrief, executable := false, missing := ["PM brief (유효)"]
      nextAction := "PM brief 확정 — 없으면 tech-lead lane 실행 불가" }
  else if hasValid events .meeting = false then
    { stage := .meetingPending, executable := false, confirmed := [label .brief]
      missing := ["실재 meeting (유효)"], nextAction := "design meeting 소집" }
  else if hasValid events .decision = false then
    { stage := .decisionPending, executable := false, confirmed := [label .brief, label .meeting]
      missing := ["서명된 tech-lead decision"]
      nextAction := "tech-lead 서명 — 없으면 specialist 실행 불가" }
  else if hasValid events .handoff = false then
    { stage := .handoffPending, executable := false
      confirmed := [label .brief, label .meeting, label .decision]
      missing := ["유효한 engineer handoff"], nextAction := "engineer handoff 발행" }
  else
    { stage := .executable, executable := true
      confirmed := [label .brief, label .meeting, label .decision, label .handoff]
      nextAction := "specialist 실행 인가 — replay 확인 완료" }

/-- `governance_readiness`. -/
def governanceReadiness (logs : GovernanceLogs) (goalId : String) : LaneReadiness :=
  readinessFromLog (replayGovernanceLog logs goalId)

/-! ## The gate -/

/-- `is_governance_required`. -/
def isGovernanceRequired (g : Goal) : Bool := g.evidence.any fun e => e.kind = .governance

/-- `mark_governance_required`. -/
def markGovernanceRequired (g : Goal) (reason now : String) : Goal :=
  if isGovernanceRequired g then g
  else g.addEvidence .governance
    (if reason ≠ "" then reason else "design chain required (PM→tech-lead→specialist)")
    (some g.id) now

/-- The parent of a goal, when its id is not blank and resolves. -/
def parentOf (g : Goal) (byId : String → Option Goal) : Option Goal :=
  (g.parentId.filter (· ≠ "")).bind byId

/-- `governance_anchor`. -/
def governanceAnchor (g : Goal) (byId : String → Option Goal) : Goal :=
  match parentOf g byId with
  | some parent => if isGovernanceRequired parent then parent else g
  | none => g

/-- The answer of `design_gate`. -/
structure DesignVerdict where
  allowed : Bool
  stage : String
  reason : String
deriving DecidableEq, Repr

/-- `design_gate`. -/
def designGate (g : Goal) (byId : String → Option Goal) (logs : GovernanceLogs) : DesignVerdict :=
  let anchor := governanceAnchor g byId
  if isGovernanceRequired anchor = false then ⟨true, "not_required", ""⟩
  else
    let r := governanceReadiness logs anchor.id
    if r.executable then ⟨true, r.stage.value, ""⟩
    else ⟨false, r.stage.value, if r.nextAction ≠ "" then r.nextAction else "design artifact 필요"⟩

/-- **The gate looks at the anchor only.** -/
theorem designGate_allowed_iff {g : Goal} {byId : String → Option Goal} {logs : GovernanceLogs} :
    (designGate g byId logs).allowed = true ↔
      (isGovernanceRequired (governanceAnchor g byId) = true →
        (governanceReadiness logs (governanceAnchor g byId).id).executable = true) := by
  simp only [designGate]
  by_cases hreq : isGovernanceRequired (governanceAnchor g byId) = false
  · simp [hreq]
  · by_cases hexec : (governanceReadiness logs (governanceAnchor g byId).id).executable = true <;>
      simp [hreq, hexec]

/-! ## The brief that the scheduler records -/

/-- The fields of a `PMBrief` that its validator reads. -/
structure PMBrief where
  topic : String
  problem : String
  userValue : String
  acceptanceCriteria : List String
  successMetrics : List String
deriving DecidableEq, Repr

/-- `validate_pm_brief`. -/
def validatePmBrief (brief : PMBrief) : List String :=
  (if PyText.strip brief.topic = "" then ["PM brief: topic 비어 있음"] else [])
    ++ (if PyText.strip brief.problem = "" then ["PM brief: problem(사용자 문제) 비어 있음"] else [])
    ++ (if PyText.strip brief.userValue = "" then ["PM brief: user_value 비어 있음"] else [])
    ++ (if brief.acceptanceCriteria = [] then
          ["PM brief: acceptance_criteria 최소 1개 필요 (완료 판단 기준 없음)"] else [])
    ++ (if brief.successMetrics = [] then
          ["PM brief: success_metrics 최소 1개 필요 (성공 지표 없음)"] else [])

/-- `frame_pm_brief`, with the fields that a human fills in left empty. -/
def framePmBrief (g : Goal) : PMBrief :=
  { topic := if g.title ≠ "" then g.title else g.id
    problem := if g.intent ≠ "" then g.intent else g.title
    userValue := ""
    acceptanceCriteria := []
    successMetrics := [] }

/-- `record_pm_brief`. -/
def recordPmBrief (logs : GovernanceLogs) (g : Goal) : GovernanceLogs :=
  let brief := framePmBrief g
  recordGovernanceEvent logs
    { sessionId := g.id, kind := .brief, actor := "product-manager"
      summary := "PM brief: " ++ brief.topic, valid := decide (validatePmBrief brief = [])
      ref := brief.topic }

/-! ## What the tickers share -/

/--
The goal store and the governance logs, which survive a restart, with a record of the calls that
the ticks made: `apply_approved_packet` and the mutator, each by goal and packet. The tickers
themselves keep nothing from one tick to the next.
-/
structure GoalRuntime where
  store : GoalStore
  logs : GovernanceLogs := []
  applyCalls : List (String × String) := []
  mutatorCalls : List (String × String) := []

/-- A runtime that has made no call yet. -/
def GoalRuntime.start (store : GoalStore) (logs : GovernanceLogs) : GoalRuntime := { store, logs }

end ForgeKit.Goals
