import ForgeKit.DecisionLane.GovernanceLog
import ForgeKit.DecisionLane.Validators

/-!
# Lane readiness (`decision_lane/readiness`, `decision_lane/decision_log`)

The chain of a lane is a brief, a meeting, a signed decision and a handoff. Its readiness is
computed from the artifacts themselves, or from the events of the log.

* `assess_executable_iff` — executable by the artifacts: each passes, the handoff off the decision
* `readinessFromLog_executable_iff` — executable by the log: each kind has a valid event
-/

namespace ForgeKit.DecisionLane

open Py (Text lit)

/-- `STAGE_ORDER`. -/
inductive LaneStage where
  | noPmBrief
  | meetingPending
  | decisionPending
  | handoffPending
  | executable
deriving DecidableEq, Repr

/-- `LaneReadiness`. -/
structure LaneReadiness where
  stage : LaneStage
  executable : Bool
  confirmed : List Text := []
  missing : List Text := []
  blocking : List Text := []
  nextAction : Text := []
deriving DecidableEq

/-- The artifacts a lane has, as far as they exist. -/
structure LaneArtifacts where
  brief : Option PMBrief := none
  meeting : Option MeetingRecord := none
  decision : Option TechLeadDecision := none
  handoff : Option EngineerHandoff := none
deriving DecidableEq

/-! ## From the artifacts -/

/-- The last stage of `assess_lane_readiness`. -/
def assessHandoff (confirmed : List Text) (d : TechLeadDecision) :
    Option EngineerHandoff → LaneReadiness
  | none =>
    { stage := .handoffPending, executable := false, confirmed
      missing := [lit "engineer handoff — 단일 executor · scope · test 전략"]
      nextAction := lit "tech-lead → engineer handoff 발행" }
  | some h =>
    if validateHandoff h d ≠ [] then
      { stage := .handoffPending, executable := false, confirmed
        missing := [lit "유효한 handoff"], blocking := validateHandoff h d
        nextAction := lit "handoff 보완 (단일 engineer executor)" }
    else
      { stage := .executable, executable := true
        confirmed := confirmed ++ [lit "handoff: " ++ h.handoffId ++ lit " → " ++ h.executorRole]
        nextAction := lit "specialist 실행 인가 — 모든 precondition 확정, execution gate 통과 가능" }

/-- The stage of the decision. -/
def assessDecision (confirmed : List Text) (handoff : Option EngineerHandoff) :
    Option TechLeadDecision → LaneReadiness
  | none =>
    { stage := .decisionPending, executable := false, confirmed
      missing := [lit "tech-lead decision — design system+convention+stack+tradeoff+approval, 서명"]
      nextAction := lit "tech-lead 서명 필요 — decision 없이는 specialist 실행 불가" }
  | some d =>
    let violations := validateTechLeadDecision d
    if violations ≠ [] ∨ d.signed = false then
      { stage := .decisionPending, executable := false, confirmed
        missing := [lit "서명된 tech-lead decision"]
        blocking := if violations ≠ [] then violations
          else [lit "decision status=" ++ d.status ++ lit " (미서명)"]
        nextAction := lit "tech-lead 서명/보완" }
    else
      assessHandoff (confirmed ++ [lit "tech-lead decision: " ++ d.decisionId ++ lit " (" ++ d.status
        ++ lit "/" ++ d.approvalLevel ++ lit ")"]) d handoff

/-- The stage of the meeting. -/
def assessMeeting (confirmed : List Text) (decision : Option TechLeadDecision)
    (handoff : Option EngineerHandoff) : Option MeetingRecord → LaneReadiness
  | none =>
    { stage := .meetingPending, executable := false, confirmed
      missing := [lit "실재 design meeting — ≥2 역할 · 반대/우려"]
      nextAction := lit "design meeting 소집" }
  | some m =>
    if validateMeeting m ≠ [] then
      { stage := .meetingPending, executable := false, confirmed
        missing := [lit "유효한 meeting"], blocking := validateMeeting m
        nextAction := lit "meeting 보완 (rubber-stamp 금지)" }
    else
      assessDecision (confirmed ++ [lit "meeting: " ++ m.meetingId ++ lit " ("
        ++ JsonText.decimal m.participants.length ++ lit " 참석)"]) handoff decision

/-- `assess_lane_readiness`. -/
def assessLaneReadiness (a : LaneArtifacts) : LaneReadiness :=
  match a.brief with
  | none =>
    { stage := .noPmBrief, executable := false
      missing := [lit "PM brief — 문제 / 사용자가치 / acceptance / 성공지표"]
      nextAction := lit "PM 이 brief 를 확정해야 tech-lead lane 진입 가능 (PM artifact 없이는 실행 불가)" }
  | some b =>
    if validatePmBrief b ≠ [] then
      { stage := .noPmBrief, executable := false, missing := [lit "유효한 PM brief"]
        blocking := validatePmBrief b, nextAction := lit "PM brief 보완" }
    else assessMeeting [lit "PM brief: " ++ b.topic] a.decision a.handoff a.meeting

/-- The decision has no violation and is signed. -/
def goodDecision (d : TechLeadDecision) : Bool := validateTechLeadDecision d == [] && d.signed

/-- **Executable by the artifacts.** -/
theorem assess_executable_iff (a : LaneArtifacts) :
    (assessLaneReadiness a).executable = true ↔
      (∃ b, a.brief = some b ∧ validatePmBrief b = []) ∧
      (∃ m, a.meeting = some m ∧ validateMeeting m = []) ∧
      ∃ d, a.decision = some d ∧ goodDecision d = true ∧
        ∃ h, a.handoff = some h ∧ validateHandoff h d = [] := by
  obtain ⟨brief, meeting, decision, handoff⟩ := a
  cases brief with
  | none => simp [assessLaneReadiness]
  | some b =>
    by_cases hb : validatePmBrief b = []
    · cases meeting with
      | none => simp [assessLaneReadiness, assessMeeting, hb]
      | some m =>
        by_cases hm : validateMeeting m = []
        · cases decision with
          | none => simp [assessLaneReadiness, assessMeeting, assessDecision, hb, hm]
          | some d =>
            by_cases hd : goodDecision d = true
            · have hd' := hd
              simp only [goodDecision, Bool.and_eq_true, beq_iff_eq] at hd'
              cases handoff with
              | none =>
                simp [assessLaneReadiness, assessMeeting, assessDecision, assessHandoff, hb, hm, hd']
              | some h =>
                by_cases hh : validateHandoff h d = [] <;>
                  simp [assessLaneReadiness, assessMeeting, assessDecision, assessHandoff, hb, hm,
                    hd', hd, hh]
            · have hd' : validateTechLeadDecision d ≠ [] ∨ d.signed = false := by
                simp only [goodDecision, Bool.and_eq_true, beq_iff_eq, not_and_or,
                  Bool.not_eq_true] at hd
                exact hd
              simp [assessLaneReadiness, assessMeeting, assessDecision, hb, hm, hd', hd]
        · simp [assessLaneReadiness, assessMeeting, hb, hm]
    · simp [assessLaneReadiness, hb]

/-! ## From the log -/

/-- `_has`. -/
def hasValid (events : List GovernanceEvent) (kind : Text) : Bool :=
  events.any fun e => e.kind == kind && e.valid

/-- `_label`. -/
def labelOf (events : List GovernanceEvent) (kind : Text) : Text :=
  ((events.find? fun e => e.kind == kind && e.valid).map (·.summary)).getD []

/-- `readiness_from_log`. -/
def readinessFromLog (events : List GovernanceEvent) : LaneReadiness :=
  let label := labelOf events
  if hasValid events (lit "brief") = false then
    { stage := .noPmBrief, executable := false, missing := [lit "PM brief (유효)"]
      nextAction := lit "PM brief 확정 — 없으면 tech-lead lane 실행 불가" }
  else if hasValid events (lit "meeting") = false then
    { stage := .meetingPending, executable := false, confirmed := [label (lit "brief")]
      missing := [lit "실재 meeting (유효)"], nextAction := lit "design meeting 소집" }
  else if hasValid events (lit "decision") = false then
    { stage := .decisionPending, executable := false
      confirmed := [label (lit "brief"), label (lit "meeting")]
      missing := [lit "서명된 tech-lead decision"]
      nextAction := lit "tech-lead 서명 — 없으면 specialist 실행 불가" }
  else if hasValid events (lit "handoff") = false then
    { stage := .handoffPending, executable := false
      confirmed := [label (lit "brief"), label (lit "meeting"), label (lit "decision")]
      missing := [lit "유효한 engineer handoff"], nextAction := lit "engineer handoff 발행" }
  else
    { stage := .executable, executable := true
      confirmed := [label (lit "brief"), label (lit "meeting"), label (lit "decision"),
        label (lit "handoff")]
      nextAction := lit "specialist 실행 인가 — replay 확인 완료" }

/-- The kinds that a lane cannot run without. -/
def gatingKinds : List Text := [lit "brief", lit "meeting", lit "decision", lit "handoff"]

/-- **Executable by the log.** -/
theorem readinessFromLog_executable_iff {events : List GovernanceEvent} :
    (readinessFromLog events).executable = true ↔
      ∀ kind ∈ gatingKinds, hasValid events kind = true := by
  simp only [readinessFromLog, gatingKinds, List.forall_mem_cons, List.not_mem_nil, false_imp_iff]
  cases hasValid events (lit "brief") <;> cases hasValid events (lit "meeting") <;>
    cases hasValid events (lit "decision") <;> cases hasValid events (lit "handoff") <;> simp

end ForgeKit.DecisionLane
