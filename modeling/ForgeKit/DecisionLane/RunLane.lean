import ForgeKit.DecisionLane.Enforcement

/-!
# The lane (`decision_lane/lane`)

A brief and a meeting are routed by the gateway, decided by the tech-lead and handed to an
engineer. The tech-lead takes the level of the design from the arguments; the rationale that goes
into the record may be that of the stack comparison.

* `runLane` — the whole lane
* `engineerMayStart_iff` — when an engineer may start, in terms of what went in
* `no_underclassified_design_iff` — when the level is that of the record
-/

namespace ForgeKit.DecisionLane

open Py (Text lit)
open Autopilot (l2InternalApprove l3UserApprove l4Restricted classifyLevel
  classifyLevel_internal_iff restrictedWords riskyWords)

/-! ## The gateway -/

/-- `GatewayRouting` with what the gateway fills in. -/
structure LaneRouting extends GatewayRouting where
  topic : Text
  toRole : Text := lit "tech-lead"
  blockingViolations : List Text := []
  reason : Text := []
deriving DecidableEq

/-- `route_to_tech_lead`. -/
def routeToTechLead (brief : PMBrief) (meeting : MeetingRecord) : LaneRouting :=
  let blocking := validatePmBrief brief ++ validateMeeting meeting
  if blocking ≠ [] then
    { topic := brief.topic, forwarded := false, blockingViolations := blocking
      reason := lit "PM brief/meeting 이 불완전 — tech-lead 로 전달 차단" }
  else
    { topic := brief.topic, forwarded := true
      reason := lit "brief+meeting 실재 확인 — tech-lead 기술 승인으로 라우팅" }

/-! ## The tech-lead -/

def blockedStatus : Text := lit "blocked"

def escalatedStatus : Text := lit "escalated"

/-- `_LEVEL_TO_CLASS.get(level, "risky")`. -/
def levelToClass (level : Text) : Text :=
  (([(l2InternalApprove, lit "safe"), (l3UserApprove, lit "risky"),
    (l4Restricted, lit "blocked")] : List (Text × Text)).lookup level).getD (lit "risky")

/-- What `tech_lead_decide` takes besides the brief, the meeting and the comparison. -/
structure SignoffArgs where
  designSystem : Text
  codingConvention : Text
  integrationNotes : List Text := []
  riskClass : Text := []
  conditions : List Text := []
  rationale : Text := []
  signoffBy : Text := lit "tech-lead"
  decisionId : Text := []
  introducesDependency : Bool := false
  introducesAbstraction : Bool := false
  ponytail : Option PonytailConsult := none
deriving DecidableEq

/-- `a or b`. -/
def orElse (a b : Text) : Text := if a ≠ [] then a else b

/-- The level that the tech-lead takes from the arguments. -/
def argumentLevel (stack : StackComparison) (args : SignoffArgs) : Text :=
  classifyLevel (stack.decisionTopic ++ lit " " ++ args.rationale ++ lit " " ++ args.riskClass)
    args.riskClass

/-- The status that a class is meant for. -/
def intendedStatus (meeting : MeetingRecord) (klass : Text) (conditions : List Text) : Text :=
  if meeting.escalated then escalatedStatus
  else if klass = lit "blocked" then blockedStatus
  else if conditions ≠ [] then conditional
  else signedOff

/-- The decision of `tech_lead_decide` before it is validated. -/
def candidateDecision (brief : PMBrief) (meeting : MeetingRecord) (stack : StackComparison)
    (args : SignoffArgs) : TechLeadDecision :=
  let level := argumentLevel stack args
  { decisionId := orElse args.decisionId (lit "decision:" ++ meeting.meetingId)
    pmBriefRef := brief.topic
    meetingRef := meeting.meetingId
    designSystem := args.designSystem
    codingConvention := args.codingConvention
    stackDecision := some stack
    tradeoffs := stack.tradeoffs
    integrationNotes := args.integrationNotes
    riskClass := levelToClass level
    approvalLevel := level
    conditions := args.conditions
    rationale := orElse args.rationale stack.rationale
    signoffBy := args.signoffBy
    status := intendedStatus meeting (levelToClass level) args.conditions
    introducesDependency := args.introducesDependency
    introducesAbstraction := args.introducesAbstraction
    ponytail := args.ponytail.or stack.ponytail }

/-- `tech_lead_decide`. -/
def techLeadDecide (brief : PMBrief) (meeting : MeetingRecord) (stack : StackComparison)
    (args : SignoffArgs) : TechLeadDecision :=
  let candidate := candidateDecision brief meeting stack args
  if candidate.signed = true ∧ validateTechLeadDecision candidate ≠ [] then
    { candidate with status := escalatedStatus }
  else candidate

/-! ## The handoff -/

/-- `handoff_to_engineer`. -/
def handoffToEngineer (decision : TechLeadDecision) (executorRole : Text) (scope : List Text)
    (testStrategy : Text) (forbiddenScope : List Text) (rollbackPlan : Text)
    (acceptanceCriteria : List Text) (handoffId : Text) : EngineerHandoff where
  handoffId := orElse handoffId (lit "handoff:" ++ decision.decisionId)
  decisionRef := decision.decisionId
  executorRole := executorRole
  scope := scope
  forbiddenScope := forbiddenScope
  testStrategy := testStrategy
  rollbackPlan := rollbackPlan
  acceptanceCriteria := acceptanceCriteria
  -- `not autopilot_can_execute(level)`
  operatorRequired := decide (decision.approvalLevel ≠ l2InternalApprove)
  ponytail := decision.ponytail

/-! ## The briefing -/

/-- `RejectedOption`. -/
structure RejectedOption where
  name : Text
  whyNot : Text := []
deriving DecidableEq

/-- `SpecialistBriefing`. -/
structure SpecialistBriefing where
  handoffId : Text
  executorRole : Text
  decisionRef : Text
  goal : Text := []
  proposedStack : Text := []
  proposedStackSummary : Text := []
  stackRationale : Text := []
  rejectedOptions : List RejectedOption := []
  codingConventions : Text := []
  designSystem : Text := []
  integrationNotes : List Text := []
  scope : List Text := []
  forbiddenScope : List Text := []
  testStrategy : Text := []
  rollbackPlan : Text := []
  acceptanceCriteria : List Text := []
  operatorRequired : Bool := false
  ponytail : Option PonytailConsult := none
deriving DecidableEq

/-- `StackComparison.recommended_option`. -/
def StackComparison.recommendedOption (cmp : StackComparison) : Option StackOption :=
  cmp.options.find? fun o => o.name = cmp.recommended

/-- `"; ".join(o.cons) or o.risk or "근거 미기재"`. -/
def whyNotOf (o : StackOption) : Text :=
  orElse ((lit "; ").intercalate o.cons) (orElse o.risk (lit "근거 미기재"))

/-- The options that were weighed and not recommended. -/
def rejectedOptionsOf (cmp : StackComparison) : List RejectedOption :=
  (cmp.options.filter fun o => o.name ≠ cmp.recommended).map fun o => ⟨o.name, whyNotOf o⟩

/-- The goal of a briefing. -/
def goalOf (brief : Option PMBrief) (decision : TechLeadDecision) : Text :=
  match brief with
  | some b =>
    if b.problem ≠ [] ∨ b.userValue ≠ [] then b.problem ++ lit " → " ++ b.userValue
    else decision.rationale
  | none => decision.rationale

/-- `build_specialist_briefing`. -/
def buildSpecialistBriefing (brief : Option PMBrief) (decision : TechLeadDecision)
    (handoff : EngineerHandoff) : SpecialistBriefing where
  handoffId := handoff.handoffId
  executorRole := handoff.executorRole
  decisionRef := decision.decisionId
  goal := goalOf brief decision
  proposedStack := (decision.stackDecision.map (·.recommended)).getD []
  proposedStackSummary :=
    ((decision.stackDecision.bind (·.recommendedOption)).map (·.summary)).getD []
  stackRationale := orElse ((decision.stackDecision.map (·.rationale)).getD []) decision.rationale
  rejectedOptions := (decision.stackDecision.map rejectedOptionsOf).getD []
  codingConventions := decision.codingConvention
  designSystem := decision.designSystem
  integrationNotes := decision.integrationNotes
  scope := handoff.scope
  forbiddenScope := handoff.forbiddenScope
  testStrategy := handoff.testStrategy
  rollbackPlan := handoff.rollbackPlan
  acceptanceCriteria := handoff.acceptanceCriteria
  operatorRequired := handoff.operatorRequired
  ponytail := decision.ponytail

/-- `validate_specialist_briefing`. -/
def validateSpecialistBriefing (b : SpecialistBriefing) : List Text :=
  require (!blank b.handoffId) (lit "briefing: handoff_id 비어 있음")
    ++ require (!blank b.executorRole) (lit "briefing: executor_role 비어 있음")
    ++ require (!blank b.goal) (lit "briefing: goal(목표) 비어 있음 — 무엇을 왜 만드는지 없음")
    ++ require (!blank b.proposedStack) (lit "briefing: proposed_stack(제안 스택) 비어 있음")
    ++ require (!blank b.stackRationale) (lit "briefing: stack_rationale(선택 이유) 비어 있음")
    ++ (if b.rejectedOptions = [] then
          [lit "briefing: rejected_options 없음 — 비교 없이 단정한 스택"]
        else require (b.rejectedOptions.all fun r => !blank r.name && !blank r.whyNot)
          (lit "briefing: 탈락안에 name/why_not 누락 — 근거 없는 탈락"))
    ++ require (!blank b.codingConventions) (lit "briefing: coding_conventions 비어 있음")
    ++ require (!blank b.designSystem) (lit "briefing: design_system 비어 있음")
    ++ require (b.scope != []) (lit "briefing: scope 비어 있음")
    ++ require (!blank b.testStrategy) (lit "briefing: test_strategy 비어 있음")
    ++ require (b.acceptanceCriteria != [])
      (lit "briefing: acceptance_criteria 비어 있음 — 완료 기준 없는 인계 금지")

/-- `can_specialist_start`. -/
def canSpecialistStart (brief : Option PMBrief) (decision : Option TechLeadDecision)
    (handoff : Option EngineerHandoff) : Bool :=
  match decision, handoff with
  | some d, some h =>
    canEngineerStart (some d) (some h)
      && decide (validateSpecialistBriefing (buildSpecialistBriefing brief d h) = [])
  | _, _ => false

/-! ## The whole lane -/

/-- What `run_lane` takes. -/
structure LaneInput where
  brief : PMBrief
  meeting : MeetingRecord
  stack : StackComparison
  designSystem : Text
  codingConvention : Text
  executorRole : Text
  scope : List Text
  testStrategy : Text
  integrationNotes : List Text := []
  riskClass : Text := []
  conditions : List Text := []
  rationale : Text := []
  forbiddenScope : List Text := []
  rollbackPlan : Text := []
  signoffBy : Text := lit "tech-lead"
deriving DecidableEq

/-- `LaneResult`. -/
structure LaneResult where
  routing : LaneRouting
  decision : Option TechLeadDecision := none
  handoff : Option EngineerHandoff := none
  briefing : Option SpecialistBriefing := none
  engineerMayStart : Bool := false
  operatorRequired : Bool := false
  violations : List Text := []
  trace : List Text := []
deriving DecidableEq

namespace LaneInput

variable (i : LaneInput)

/-- The arguments that the lane passes on to the tech-lead. -/
def signoffArgs : SignoffArgs where
  designSystem := i.designSystem
  codingConvention := i.codingConvention
  integrationNotes := i.integrationNotes
  riskClass := i.riskClass
  conditions := i.conditions
  rationale := i.rationale
  signoffBy := i.signoffBy

def decision : TechLeadDecision := techLeadDecide i.brief i.meeting i.stack i.signoffArgs

def handoff : EngineerHandoff :=
  handoffToEngineer i.decision i.executorRole i.scope i.testStrategy i.forbiddenScope
    i.rollbackPlan i.brief.acceptanceCriteria []

end LaneInput

/-- `run_lane`. -/
def runLane (i : LaneInput) : LaneResult :=
  let routing := routeToTechLead i.brief i.meeting
  let routed := lit "gateway:route" ++ if routing.forwarded then lit "→tech-lead" else lit "→blocked"
  if routing.forwarded = false then
    { routing := routing, violations := routing.blockingViolations, trace := [routed] }
  else
    let decision := i.decision
    let decided := lit "tech-lead:" ++ decision.status ++ lit "/" ++ decision.approvalLevel
    if decision.signed = false then
      { routing := routing, decision := some decision
        violations := validateTechLeadDecision decision, trace := [routed, decided] }
    else
      let handoff := i.handoff
      let briefing := buildSpecialistBriefing (some i.brief) decision handoff
      let thin := validateSpecialistBriefing briefing
      let mayStart := canSpecialistStart (some i.brief) (some decision) (some handoff)
      { routing := routing
        decision := some decision
        handoff := some handoff
        briefing := some briefing
        engineerMayStart := mayStart
        operatorRequired := handoff.operatorRequired
        violations := validateHandoff handoff decision ++ thin
        trace := [routed, decided, lit "engineer:handoff→" ++ i.executorRole,
          lit "briefing:" ++ (if thin = [] then lit "ok" else lit "thin"),
          if mayStart then lit "engineer:start" else lit "engineer:blocked"] }

/-- The lane of the samples. -/
def sampleLane : LaneInput where
  brief := sampleBrief
  meeting := sampleMeeting
  stack := sampleComparison
  designSystem := lit "s"
  codingConvention := lit "c"
  executorRole := lit "be"
  scope := [lit "src"]
  testStrategy := lit "unit"

example : (runLane sampleLane).engineerMayStart = true
    ∧ (runLane sampleLane).operatorRequired = false := by
  decide

/-! ## What the validators ask for -/

theorem blank_eq_false_iff {s : Text} : blank s = false ↔ ∃ c ∈ s, Py.isSpace c = false := by
  rw [blank, beq_eq_false_iff_ne, ne_eq, Py.strip_eq_nil_iff]
  simp

theorem blank_append {s t : Text} (h : blank s = false) : blank (s ++ t) = false := by
  obtain ⟨c, hc, hspace⟩ := blank_eq_false_iff.mp h
  exact blank_eq_false_iff.mpr ⟨c, List.mem_append_left _ hc, hspace⟩

theorem ne_nil_of_blank {s : Text} (h : blank s = false) : s ≠ [] := by
  rintro rfl
  exact absurd h (by decide)

theorem valid_brief {brief : PMBrief} (h : validatePmBrief brief = []) :
    blank brief.topic = false ∧ blank brief.problem = false ∧ brief.acceptanceCriteria ≠ [] := by
  simp only [validatePmBrief, List.append_eq_nil_iff, require_eq_nil_iff, Bool.not_eq_true',
    bne_iff_ne] at h
  exact ⟨h.1.1.1.1, h.1.1.1.2, h.1.2⟩

theorem valid_meeting {m : MeetingRecord} (h : validateMeeting m = []) :
    blank m.meetingId = false := by
  simp only [validateMeeting, List.append_eq_nil_iff, require_eq_nil_iff, Bool.not_eq_true'] at h
  exact h.1.1.1.1.1.1.1

theorem valid_stack {cmp : StackComparison} (h : validateStackComparison cmp = []) :
    blank cmp.recommended = false ∧ blank cmp.rationale = false ∧ cmp.tradeoffs ≠ [] ∧
      ∀ o ∈ cmp.options, blank o.name = false := by
  simp only [validateStackComparison, List.append_eq_nil_iff, require_eq_nil_iff,
    Bool.not_eq_true', bne_iff_ne] at h
  obtain ⟨⟨⟨⟨-, hoptions⟩, hrecommended⟩, hrationale⟩, htradeoffs⟩ := h
  refine ⟨?_, hrationale, htradeoffs, fun o ho => ?_⟩
  · split at hrecommended
    · cases hrecommended
    · next hblank => exact Bool.eq_false_iff.mpr hblank
  · have hone := List.flatMap_eq_nil_iff.mp hoptions o ho
    unfold optionViolations at hone
    split at hone
    · cases hone
    · next hblank => exact Bool.eq_false_iff.mpr hblank

theorem forwarded_iff {brief : PMBrief} {meeting : MeetingRecord} :
    (routeToTechLead brief meeting).forwarded = true ↔
      validatePmBrief brief = [] ∧ validateMeeting meeting = [] := by
  rw [← List.append_eq_nil_iff, routeToTechLead]
  split
  · next h => simp [h]
  · next h => simpa using h

/-! ## When an engineer may start -/

namespace LaneInput

variable {i : LaneInput}

/-- The level that the tech-lead takes from the arguments of the lane. -/
def level (i : LaneInput) : Text := argumentLevel i.stack i.signoffArgs

/-- The rationale that goes into the record. -/
def recordedRationale (i : LaneInput) : Text := orElse i.rationale i.stack.rationale

/-- What a lane needs that lets an engineer start. -/
structure Startable (i : LaneInput) : Prop where
  brief : validatePmBrief i.brief = []
  meeting : validateMeeting i.meeting = []
  settled : i.meeting.escalated = false
  notRestricted : i.level ≠ l4Restricted
  signer : canonicalId i.signoffBy = lit "tech-lead"
  designSystem : blank i.designSystem = false
  codingConvention : blank i.codingConvention = false
  stack : validateStackComparison i.stack = []
  rationale : blank i.recordedRationale = false
  simplerPath : ∀ p, i.stack.ponytail = some p → validatePonytail p = []
  executor : canonicalId i.executorRole ∉ nonExecutorRoles ∧
    departmentOf (canonicalId i.executorRole) = lit "engineering"
  scope : i.scope ≠ []
  testStrategy : blank i.testStrategy = false
  weighed : ∃ o ∈ i.stack.options, o.name ≠ i.stack.recommended
  whyNot : ∀ o ∈ i.stack.options, o.name ≠ i.stack.recommended → blank (whyNotOf o) = false

/-- The decision before it is validated. -/
def candidate (i : LaneInput) : TechLeadDecision :=
  candidateDecision i.brief i.meeting i.stack i.signoffArgs

theorem level_cases (i : LaneInput) :
    i.level = l2InternalApprove ∨ i.level = l3UserApprove ∨ i.level = l4Restricted :=
  Autopilot.classifyLevel_cases _ _

theorem levelToClass_level (i : LaneInput) :
    levelToClass i.level ∈ [lit "safe", lit "risky", lit "blocked"] ∧
      (levelToClass i.level = lit "blocked" ↔ i.level = l4Restricted) := by
  rcases i.level_cases with h | h | h <;> rw [h] <;> decide

theorem candidate_signed_iff :
    i.candidate.signed = true ↔ i.meeting.escalated = false ∧ i.level ≠ l4Restricted := by
  show decide (intendedStatus i.meeting (levelToClass i.level) i.conditions
    ∈ [signedOff, conditional]) = true ↔ _
  have hclass := (levelToClass_level i).2
  rw [decide_eq_true_eq, intendedStatus]
  have hstatus : escalatedStatus ∉ [signedOff, conditional] ∧
      blockedStatus ∉ [signedOff, conditional] := by decide
  cases hescalated : i.meeting.escalated with
  | true => simp [hstatus.1]
  | false =>
    simp only [Bool.false_eq_true, if_false, true_and]
    split
    · next h => exact iff_of_false hstatus.2 fun hne => hne (hclass.mp h)
    · next h =>
      refine iff_of_true ?_ fun hrestricted => h (hclass.mpr hrestricted)
      split <;> simp

/-- Only what the validators accept is signed. -/
theorem decision_signed_iff :
    i.decision.signed = true ↔
      i.candidate.signed = true ∧ validateTechLeadDecision i.candidate = [] := by
  have hescalated : ({ i.candidate with status := escalatedStatus } : TechLeadDecision).signed
      = false := rfl
  show (if i.candidate.signed = true ∧ validateTechLeadDecision i.candidate ≠ [] then
    { i.candidate with status := escalatedStatus } else i.candidate).signed = true ↔ _
  split
  · next h => simp [hescalated, h.2]
  · next h =>
    rw [not_and_not_right] at h
    exact ⟨fun hsigned => ⟨hsigned, h hsigned⟩, fun hboth => hboth.1⟩

theorem decision_eq (h : validateTechLeadDecision i.candidate = []) : i.decision = i.candidate :=
  if_neg fun hboth => hboth.2 h

theorem conditional_has_conditions :
    ¬(i.candidate.status = conditional ∧ i.candidate.conditions = []) := by
  rintro ⟨hstatus, hconditions⟩
  have hempty : i.conditions = [] := hconditions
  have hstatus : intendedStatus i.meeting (levelToClass i.level) i.conditions = conditional :=
    hstatus
  have hnone : escalatedStatus ≠ conditional ∧ blockedStatus ≠ conditional ∧
      signedOff ≠ conditional := by decide
  rw [intendedStatus, hempty, if_neg (not_not.mpr rfl)] at hstatus
  split_ifs at hstatus
  · exact hnone.1 hstatus
  · exact hnone.2.1 hstatus
  · exact hnone.2.2 hstatus

/-- The simpler path of the comparison is the one that the decision is asked about. -/
theorem simplerPath_iff :
    (if i.candidate.needsPonytail then
        match i.candidate.ponytail with
        | some p => if p.required then validatePonytail p else [missingPonytail]
        | none => [missingPonytail]
      else []) = [] ↔ ∀ p, i.stack.ponytail = some p → validatePonytail p = [] := by
  have hneeds : i.candidate.needsPonytail = i.stack.ponytail.any (·.required) := rfl
  have hponytail : i.candidate.ponytail = i.stack.ponytail := rfl
  rw [hneeds, hponytail]
  cases i.stack.ponytail with
  | none => simp
  | some p =>
    simp only [Option.any_some, Option.some.injEq, forall_eq']
    split
    · rfl
    · next h =>
      rw [Bool.not_eq_true] at h
      simp [validatePonytail, h]

theorem validate_candidate_iff (hbrief : validatePmBrief i.brief = [])
    (hmeeting : validateMeeting i.meeting = []) :
    validateTechLeadDecision i.candidate = [] ↔
      canonicalId i.signoffBy = lit "tech-lead" ∧ blank i.designSystem = false ∧
        blank i.codingConvention = false ∧ validateStackComparison i.stack = [] ∧
        blank i.recordedRationale = false ∧
        ∀ p, i.stack.ponytail = some p → validatePonytail p = [] := by
  have hid : blank i.candidate.decisionId = false :=
    blank_append (s := lit "decision:") (by decide)
  have htopic : blank i.candidate.pmBriefRef = false := (valid_brief hbrief).1
  have href : blank i.candidate.meetingRef = false := valid_meeting hmeeting
  have hclass : i.candidate.riskClass ∈ [lit "safe", lit "risky", lit "blocked"] :=
    (levelToClass_level i).1
  have hconditions := conditional_has_conditions (i := i)
  have hstack : i.candidate.stackDecision = some i.stack := rfl
  rw [← simplerPath_iff]
  simp only [validateTechLeadDecision, List.append_eq_nil_iff, require_eq_nil_iff, hid, htopic,
    href, hclass, hstack, Bool.not_false, Bool.not_eq_true', decide_true, true_and,
    decide_eq_true_eq, and_assoc]
  refine and_congr_right fun _ => and_congr_right fun _ => and_congr_right fun _ =>
    and_congr_right fun hvalid => ?_
  have htradeoffs : (i.candidate.tradeoffs != []) = true := bne_iff_ne.mpr (valid_stack hvalid).2.2.1
  have hconditional : (i.candidate.status == conditional && i.candidate.conditions == [])
      = false := by
    rw [Bool.eq_false_iff, ne_eq, Bool.and_eq_true, beq_iff_eq, beq_iff_eq]
    exact hconditions
  rw [htradeoffs, hconditional]
  simp only [true_and]
  exact Iff.rfl

theorem validate_handoff_iff (hdecision : i.decision.signed = true) :
    validateHandoff i.handoff i.decision = [] ↔
      (canonicalId i.executorRole ∉ nonExecutorRoles ∧
        departmentOf (canonicalId i.executorRole) = lit "engineering") ∧
        i.scope ≠ [] ∧ blank i.testStrategy = false := by
  have hid : blank i.handoff.handoffId = false := blank_append (s := lit "handoff:") (by decide)
  have href : i.handoff.decisionRef = i.decision.decisionId := rfl
  have hrole : i.handoff.executorRole = i.executorRole := rfl
  have hscope : i.handoff.scope = i.scope := rfl
  have htest : i.handoff.testStrategy = i.testStrategy := rfl
  simp only [validateHandoff, List.append_eq_nil_iff, require_eq_nil_iff, hid, href, hrole, hscope,
    htest, hdecision, Bool.not_false, Bool.not_eq_true', decide_true, true_and, bne_iff_ne, ne_eq]
  rw [and_assoc]
  refine and_congr_left fun _ => ?_
  split
  · next hempty =>
    rw [hempty]
    refine iff_of_false (by simp) fun h => ?_
    exact absurd h.2 (by decide)
  · next hempty => simp

/-- The design context of the briefing, beyond what the other validators ask for. -/
theorem validate_briefing_iff (hbrief : validatePmBrief i.brief = [])
    (hcandidate : validateTechLeadDecision i.candidate = [])
    (hstack : validateStackComparison i.stack = []) (hdesign : blank i.designSystem = false)
    (hconvention : blank i.codingConvention = false)
    (hexecutor : departmentOf (canonicalId i.executorRole) = lit "engineering")
    (hscope : i.scope ≠ []) (htest : blank i.testStrategy = false) :
    validateSpecialistBriefing (buildSpecialistBriefing (some i.brief) i.decision i.handoff) = [] ↔
      (∃ o ∈ i.stack.options, o.name ≠ i.stack.recommended) ∧
        ∀ o ∈ i.stack.options, o.name ≠ i.stack.recommended → blank (whyNotOf o) = false := by
  obtain ⟨-, hproblem, hacceptance⟩ := valid_brief hbrief
  obtain ⟨hrecommended, hrationale, -, hnames⟩ := valid_stack hstack
  have hrole : blank i.executorRole = false := by
    rw [Bool.eq_false_iff]
    intro hblank
    have hempty : canonicalId i.executorRole = [] := by
      rw [canonicalId, beq_iff_eq.mp hblank]
      decide
    rw [hempty] at hexecutor
    exact absurd hexecutor (by decide)
  have hgoal : blank (goalOf (some i.brief) i.decision) = false := by
    rw [goalOf, if_pos (.inl (ne_nil_of_blank hproblem)), List.append_assoc]
    exact blank_append hproblem
  have hstackRationale : ∀ other, orElse i.stack.rationale other = i.stack.rationale :=
    fun other => if_pos (ne_nil_of_blank hrationale)
  have hdecision := decision_eq hcandidate
  have hid : blank i.handoff.handoffId = false := blank_append (s := lit "handoff:") (by decide)
  have hbuilt : ∀ b, b = buildSpecialistBriefing (some i.brief) i.decision i.handoff →
      blank b.handoffId = false ∧ blank b.executorRole = false ∧ blank b.goal = false ∧
        blank b.proposedStack = false ∧ blank b.stackRationale = false ∧
        blank b.codingConventions = false ∧ blank b.designSystem = false ∧ b.scope ≠ [] ∧
        blank b.testStrategy = false ∧ b.acceptanceCriteria ≠ [] ∧
        b.rejectedOptions = rejectedOptionsOf i.stack := by
    rintro b rfl
    refine ⟨hid, hrole, hgoal, ?_, ?_, ?_, ?_, hscope, htest, hacceptance, ?_⟩
    · rw [buildSpecialistBriefing, hdecision]
      exact hrecommended
    · rw [buildSpecialistBriefing, hdecision]
      exact (congrArg blank (hstackRationale _)).trans hrationale
    · rw [buildSpecialistBriefing, hdecision]
      exact hconvention
    · rw [buildSpecialistBriefing, hdecision]
      exact hdesign
    · rw [buildSpecialistBriefing, hdecision]
      rfl
  generalize buildSpecialistBriefing (some i.brief) i.decision i.handoff = b at hbuilt ⊢
  obtain ⟨h1, h2, h3, h4, h5, h6, h7, h8, h9, h10, hrejected⟩ := hbuilt b rfl
  simp only [validateSpecialistBriefing, List.append_eq_nil_iff, require_eq_nil_iff, h1, h2, h3, h4,
    h5, h6, h7, h8, h9, h10, Bool.not_false, bne_iff_ne, ne_eq, not_false_eq_true, true_and,
    and_true, hrejected]
  have hmem : rejectedOptionsOf i.stack = [] ↔
      ¬∃ o ∈ i.stack.options, o.name ≠ i.stack.recommended := by
    simp [rejectedOptionsOf, List.filter_eq_nil_iff]
  have hall : ((rejectedOptionsOf i.stack).all fun r => !blank r.name && !blank r.whyNot) = true ↔
      ∀ o ∈ i.stack.options, o.name ≠ i.stack.recommended → blank (whyNotOf o) = false := by
    simp only [rejectedOptionsOf, List.all_map, List.all_filter, List.all_eq_true]
    refine forall₂_congr fun o ho => ?_
    simp [hnames o ho, Bool.or_eq_true, or_iff_not_imp_left]
  split
  · next hnil => exact iff_of_false (List.cons_ne_nil _ _) fun h => hmem.mp hnil h.1
  · next hne => rw [require_eq_nil_iff, hall, and_iff_right (not_not.mp (hmem.not.mp hne))]

/-- **An engineer may start** exactly when all that went into the lane is real. -/
theorem engineerMayStart_iff : (runLane i).engineerMayStart = true ↔ i.Startable := by
  have hroute := @forwarded_iff i.brief i.meeting
  unfold runLane
  simp only
  split
  · next hblocked =>
    refine iff_of_false (by simp) fun h => ?_
    rw [hroute.mpr ⟨h.brief, h.meeting⟩] at hblocked
    cases hblocked
  · next hforwarded =>
    obtain ⟨hbrief, hmeeting⟩ := hroute.mp (Bool.not_eq_false _ ▸ hforwarded)
    split
    · next hunsigned =>
      refine iff_of_false (by simp) fun h => ?_
      have hvalid := (validate_candidate_iff hbrief hmeeting).mpr
        ⟨h.signer, h.designSystem, h.codingConvention, h.stack, h.rationale, h.simplerPath⟩
      have hsigned := decision_signed_iff.mpr
        ⟨candidate_signed_iff.mpr ⟨h.settled, h.notRestricted⟩, hvalid⟩
      rw [hsigned] at hunsigned
      cases hunsigned
    · next hsigned =>
      rw [Bool.not_eq_false] at hsigned
      obtain ⟨hcandidate, hvalid⟩ := decision_signed_iff.mp hsigned
      obtain ⟨hsettled, hlevel⟩ := candidate_signed_iff.mp hcandidate
      obtain ⟨hsigner, hdesign, hconvention, hstack, hrationale, hsimpler⟩ :=
        (validate_candidate_iff hbrief hmeeting).mp hvalid
      have hdecision : validateTechLeadDecision i.decision = [] := by rw [decision_eq hvalid, hvalid]
      simp only [canSpecialistStart, canEngineerStart, hsigned, hdecision, decide_true,
        Bool.true_and, Bool.and_eq_true, decide_eq_true_eq]
      constructor
      · rintro ⟨hhandoff, hbriefing⟩
        obtain ⟨hexecutor, hscope, htest⟩ := (validate_handoff_iff hsigned).mp hhandoff
        obtain ⟨hweighed, hwhy⟩ := (validate_briefing_iff hbrief hvalid hstack hdesign hconvention
          hexecutor.2 hscope htest).mp hbriefing
        exact ⟨hbrief, hmeeting, hsettled, hlevel, hsigner, hdesign, hconvention, hstack, hrationale,
          hsimpler, hexecutor, hscope, htest, hweighed, hwhy⟩
      · intro h
        refine ⟨(validate_handoff_iff hsigned).mpr ⟨h.executor, h.scope, h.testStrategy⟩, ?_⟩
        exact (validate_briefing_iff hbrief hvalid hstack hdesign hconvention h.executor.2 h.scope
          h.testStrategy).mpr ⟨h.weighed, h.whyNot⟩

/-- What the record of a lane that lets an engineer start says. -/
theorem record_of_start (h : i.Startable) :
    (runLane i).decision = some i.candidate ∧
      ((runLane i).operatorRequired = false ↔ i.level = l2InternalApprove) := by
  have hroute := forwarded_iff.mpr ⟨h.brief, h.meeting⟩
  have hvalid := (validate_candidate_iff h.brief h.meeting).mpr
    ⟨h.signer, h.designSystem, h.codingConvention, h.stack, h.rationale, h.simplerPath⟩
  have hsigned := decision_signed_iff.mpr
    ⟨candidate_signed_iff.mpr ⟨h.settled, h.notRestricted⟩, hvalid⟩
  have hcandidate := (decision_signed_iff.mp hsigned).1
  have hoperator : i.handoff.operatorRequired = decide (i.level ≠ l2InternalApprove) := by
    rw [handoff, handoffToEngineer, decision_eq hvalid]
    rfl
  unfold runLane
  simp only [hroute, hcandidate, Bool.true_eq_false, if_false, decision_eq hvalid, hoperator,
    decide_eq_false_iff_not, not_not, ne_eq, and_self]

end LaneInput

/-! ## The level of the record -/

/-- A text that goes on is at no lower level. -/
theorem internal_of_append {text more riskClass : Text}
    (h : classifyLevel (text ++ lit " " ++ more) riskClass = l2InternalApprove) :
    classifyLevel text [] = l2InternalApprove := by
  rw [classifyLevel_internal_iff] at h ⊢
  refine ⟨by decide, fun word hword => ?_⟩
  rw [Bool.eq_false_iff, ne_eq, Py.contains_iff]
  intro hinside
  refine Bool.eq_false_iff.mp (h.2 word hword) (Py.contains_iff.mpr (hinside.trans ?_))
  have hsplit : text ++ lit " " ++ more ++ lit " " ++ riskClass
      = (text ++ lit " ") ++ (more ++ (lit " " ++ riskClass)) := by
    simp only [List.append_assoc]
  rw [List.append_nil, hsplit, Py.lower_append (text ++ lit " ")]
  exact (List.prefix_append _ _).isInfix

/-- A word that makes the design of a record risky or restricted. -/
def RiskyWording (topic rationale : Text) : Prop :=
  ∃ word ∈ restrictedWords ++ riskyWords,
    Py.contains (Py.lower (topic ++ lit " " ++ rationale ++ lit " ")) word = true

/-- **No under-classified design**: what an engineer may start on without the operator is at the
internal level, by the topic and the rationale of the record. -/
def NoUnderclassified (i : LaneInput) : Prop :=
  (runLane i).engineerMayStart = true → (runLane i).operatorRequired = false →
    ∀ d, (runLane i).decision = some d →
      classifyLevel (i.stack.decisionTopic ++ lit " " ++ d.rationale) [] = l2InternalApprove

/--
**The level is that of the record** exactly when the tech-lead gave a rationale, or the comparison's
own rationale has no risky wording, or no engineer could start without the operator anyway.
-/
theorem no_underclassified_design_iff (i : LaneInput) :
    NoUnderclassified i ↔
      ¬(i.Startable ∧ i.level = l2InternalApprove ∧ i.rationale = [] ∧
        RiskyWording i.stack.decisionTopic i.stack.rationale) := by
  unfold NoUnderclassified
  by_cases hstart : i.Startable
  · obtain ⟨hdecision, hoperator⟩ := LaneInput.record_of_start hstart
    rw [LaneInput.engineerMayStart_iff, hoperator, hdecision]
    simp only [hstart, true_imp_iff, Option.some.injEq, forall_eq', true_and, not_and]
    refine forall_congr' fun hlevel => ?_
    by_cases hrationale : i.rationale = []
    · have hrecorded : i.candidate.rationale = i.stack.rationale := if_neg (not_not.mpr hrationale)
      have hempty : ([] : Text) ≠ lit "blocked" ∧ ([] : Text) ≠ lit "risky" := by decide
      rw [hrecorded, classifyLevel_internal_iff, and_iff_right hempty, List.append_nil]
      simp only [hrationale, true_imp_iff, RiskyWording, not_exists, not_and, Bool.not_eq_true]
    · -- the rationale of the arguments is the one that is recorded
      have hrecorded : i.candidate.rationale = i.rationale := if_pos hrationale
      rw [hrecorded]
      exact iff_of_true (internal_of_append hlevel) fun h => absurd h hrationale
  · refine iff_of_true (fun h => ?_) fun h => hstart h.1
    exact absurd (LaneInput.engineerMayStart_iff.mp h) hstart

/-- A comparison whose rationale is about a deployment. -/
def deployComparison : StackComparison :=
  { sampleComparison with rationale := lit "deploy to production" }

/-- **A deployment is handed to an engineer without the operator**: the level is taken from the
empty rationale, and the record has that of the comparison. -/
theorem deployment_underclassified :
    ¬∀ i : LaneInput, NoUnderclassified i := by
  intro h
  have hlevel := h { sampleLane with stack := deployComparison } (by decide)
    (by decide) _ rfl
  revert hlevel
  decide

end ForgeKit.DecisionLane
