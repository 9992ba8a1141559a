import ForgeKit.Lib.PyStr
import ForgeKit.DecisionLane.Schemas

/-!
# The validators of the decision lane (`decision_lane/validators`, `forgekit_config/identity/registry`)

Each validator lists what is wrong with an artifact, in the source's words. An artifact is real
when its list is empty. Agents are looked up by a formal id or an abbreviation of it; of an identity
only its id, its department and its aliases are carried.

* `valid_handoff` — what a handoff without violations is tied to
-/

namespace ForgeKit.DecisionLane

open Py (Text lit)

/-- `AgentIdentity`. -/
structure AgentIdentity where
  canonicalId : Text
  department : Text
  aliases : List Text := []
deriving DecidableEq

/-- `_SEED`. -/
def seed : List AgentIdentity :=
  [⟨lit "product-manager", lit "product", [lit "product-agent", lit "pm"]⟩,
    ⟨lit "gateway", lit "engineering", []⟩,
    ⟨lit "tech-lead", lit "engineering", []⟩,
    ⟨lit "frontend-engineer", lit "engineering", [lit "fe"]⟩,
    ⟨lit "backend-engineer", lit "engineering", [lit "be"]⟩,
    ⟨lit "devops-engineer", lit "engineering", [lit "devops"]⟩,
    ⟨lit "qa-engineer", lit "engineering", [lit "qa"]⟩,
    ⟨lit "security-engineer", lit "engineering", [lit "security"]⟩,
    ⟨lit "ai-engineer", lit "engineering", []⟩,
    ⟨lit "platform-runtime-engineer", lit "engineering", []⟩,
    ⟨lit "knowledge-engineer", lit "engineering", []⟩,
    ⟨lit "ops-observer", lit "ops", []⟩,
    ⟨lit "ux-ui-designer", lit "design", [lit "ux"]⟩,
    ⟨lit "design-systems-designer", lit "design", []⟩,
    ⟨lit "illustration-brand-designer", lit "design", []⟩,
    ⟨lit "design-lead", lit "design", []⟩,
    ⟨lit "user-researcher", lit "product", []⟩,
    ⟨lit "growth-marketer", lit "marketing", []⟩,
    ⟨lit "growth-analyst", lit "marketing", []⟩,
    ⟨lit "content-strategist", lit "marketing", []⟩,
    ⟨lit "brand-manager", lit "marketing", []⟩,
    ⟨lit "seo-specialist", lit "marketing", []⟩,
    ⟨lit "budget-analyst", lit "finance", []⟩,
    ⟨lit "recruiter", lit "people", []⟩,
    ⟨lit "people-ops", lit "people", []⟩,
    ⟨lit "culture-coach", lit "people", []⟩,
    ⟨lit "contract-reviewer", lit "legal", []⟩,
    ⟨lit "privacy-officer", lit "legal", []⟩,
    ⟨lit "sales-rep", lit "sales", []⟩,
    ⟨lit "customer-success", lit "sales", []⟩]

/-- `_ALIAS`. -/
def aliasTable : List (Text × Text) :=
  seed.flatMap fun i => (i.canonicalId, i.canonicalId) :: i.aliases.map fun a => (a, i.canonicalId)

/-- `canonical_id`; the empty text for an unknown id. -/
def canonicalId (agentId : Text) : Text := (aliasTable.lookup (Py.strip agentId)).getD []

/-- `resolve_identity(cid).department`. -/
def departmentOf (agentId : Text) : Text :=
  ((seed.find? fun i => i.canonicalId = canonicalId agentId).map (·.department)).getD (lit "core")

theorem canonicalId_of_mem {entry : Text × Text} (h : entry ∈ aliasTable) :
    canonicalId entry.2 = entry.2 := by
  have hall : (aliasTable.all fun e => decide (canonicalId e.2 = e.2)) = true := by decide +kernel
  exact of_decide_eq_true (List.all_eq_true.mp hall entry h)

end ForgeKit.DecisionLane

namespace ForgeKit.DecisionLane

open Py (Text lit)

/-- `_blank`. -/
def blank (s : Text) : Bool := Py.strip s == []

/-- The violation, when there is one. -/
def require (ok : Bool) (violation : Text) : List Text := if ok then [] else [violation]

@[simp] theorem require_eq_nil_iff {ok : Bool} {violation : Text} :
    require ok violation = [] ↔ ok = true := by
  cases ok <;> simp [require]

/-! ## The brief -/

/-- `validate_pm_brief`. -/
def validatePmBrief (brief : PMBrief) : List Text :=
  require (!blank brief.topic) (lit "PM brief: topic 비어 있음")
    ++ require (!blank brief.problem) (lit "PM brief: problem(사용자 문제) 비어 있음")
    ++ require (!blank brief.userValue) (lit "PM brief: user_value 비어 있음")
    ++ require (brief.acceptanceCriteria != [])
      (lit "PM brief: acceptance_criteria 최소 1개 필요 (완료 판단 기준 없음)")
    ++ require (brief.successMetrics != [])
      (lit "PM brief: success_metrics 최소 1개 필요 (성공 지표 없음)")

/-! ## The stack comparison -/

/-- What `validate_stack_comparison` finds in one option. -/
def optionViolations (o : StackOption) : List Text :=
  if blank o.name then [lit "stack: 이름 없는 옵션"]
  else
    require (o.pros != []) (lit "stack: '" ++ o.name ++ lit "' 의 장점(pros) 없음")
      ++ require (o.cons != [])
        (lit "stack: '" ++ o.name ++ lit "' 의 단점(cons) 없음 — 한쪽만 보는 fake 비교")

/-- `validate_stack_comparison`. -/
def validateStackComparison (cmp : StackComparison) : List Text :=
  require (!blank cmp.decisionTopic) (lit "stack: decision_topic 비어 있음")
    ++ require (2 ≤ cmp.options.length) (lit "stack: 후보 옵션이 2개 미만 — 비교가 아님")
    ++ cmp.options.flatMap optionViolations
    ++ (if blank cmp.recommended then [lit "stack: 권고안(recommended) 없음"]
        else require (cmp.recommended ∈ cmp.optionNames)
          (lit "stack: 권고안 '" ++ cmp.recommended ++ lit "' 이 옵션 목록에 없음"))
    ++ require (!blank cmp.rationale) (lit "stack: 권고 근거(rationale) 없음")
    ++ require (cmp.tradeoffs != []) (lit "stack: tradeoff 최소 1개 필요 — 공짜 선택은 없음")

/-! ## The simpler path -/

/-- `validate_ponytail`. -/
def validatePonytail (p : PonytailConsult) : List Text :=
  if p.required = false then []
  else if p.consulted then
    require (p.verdict ∈ ponytailVerdicts)
      (lit "ponytail: consult 수행했는데 verdict 가 비었거나 미지정 "
        ++ lit "(keep/simplify/use-native/reject-dependency/reduce-surface 중 하나 필요)")
      ++ require (!blank p.notes)
        (lit "ponytail: consult 결과 notes(근거) 비어 있음 — 빈 consult 는 fake")
  else
    require (!blank p.rejectedAlternative)
      (lit "ponytail: consult 거부/미수행인데 rejected_alternative(포기한 더 단순한 대안) 없음")
      ++ require (!blank p.whyMoreComplex)
        (lit "ponytail: consult 거부/미수행인데 why_more_complex(더 복잡한 경로 사유) 없음")

/-! ## The meeting -/

/-- The role of a participant, by its canonical id when it has one. -/
def canonOf (p : ParticipantPosition) : Text :=
  if canonicalId p.role = [] then Py.strip p.role else canonicalId p.role

/-- What `validate_meeting` finds in one participant. -/
def participantViolations (p : ParticipantPosition) : List Text :=
  require (!blank p.position)
    (lit "meeting: '" ++ p.role ++ lit "' 의 발언(position) 비어 있음 — fake 참석")
    ++ require (p.stance == [] ||
        decide (p.stance ∈ [lit "support", lit "oppose", lit "conditional", lit "neutral"]))
      (lit "meeting: '" ++ p.role ++ lit "' 의 stance '" ++ p.stance ++ lit "' 알 수 없음")

/-- `validate_meeting`. -/
def validateMeeting (m : MeetingRecord) : List Text :=
  require (!blank m.meetingId) (lit "meeting: meeting_id 비어 있음")
    ++ require (!blank m.topic) (lit "meeting: topic 비어 있음")
    ++ require (m.agenda != []) (lit "meeting: agenda 최소 1개 필요")
    ++ require (2 ≤ m.participants.length)
      (lit "meeting: 참석자 2명 미만 — 토의가 성립하지 않음")
    ++ require (2 ≤ (((m.participants.map canonOf).filter (· ≠ [])).eraseDups).length)
      (lit "meeting: 서로 다른 역할 2개 미만 — fake 단독 합의")
    ++ m.participants.flatMap participantViolations
    ++ require m.hasDissent
      (lit "meeting: 반대/조건부/우려가 하나도 없음 — rubber-stamp(fake) 합의")
    ++ require (m.decisions != [] || m.escalated)
      (lit "meeting: 결정도 escalation 도 없음 — 미결 회의")

/-! ## The decision -/

def missingPonytail : Text :=
  lit "signoff: 새 dependency/abstraction 승인인데 ponytail consult 가 required 로 "
    ++ lit "표기/첨부되지 않음 — schema 불완전 (더 단순한 경로 검토 누락)"

/-- `validate_tech_lead_decision`. -/
def validateTechLeadDecision (d : TechLeadDecision) : List Text :=
  require (!blank d.decisionId) (lit "signoff: decision_id 비어 있음")
    ++ require (!blank d.pmBriefRef) (lit "signoff: pm_brief_ref 없음 — PM 입력과 연결되지 않음")
    ++ require (!blank d.meetingRef) (lit "signoff: meeting_ref 없음 — 회의 없는 fake 승인")
    ++ require (canonicalId d.signoffBy = lit "tech-lead")
      (lit "signoff: '" ++ d.signoffBy ++ lit "' 은 tech-lead 가 아님 — 권한 없는 승인")
    ++ require (!blank d.designSystem) (lit "signoff: design_system 비어 있음")
    ++ require (!blank d.codingConvention) (lit "signoff: coding_convention 비어 있음")
    ++ (match d.stackDecision with
        | none => [lit "signoff: stack_decision 없음"]
        | some cmp => validateStackComparison cmp)
    ++ require (d.tradeoffs != []) (lit "signoff: tradeoff 최소 1개 필요")
    ++ require (!blank d.rationale) (lit "signoff: rationale 비어 있음")
    ++ require (d.riskClass ∈ [lit "safe", lit "risky", lit "blocked"])
      (lit "signoff: risk_class '" ++ d.riskClass ++ lit "' 알 수 없음")
    ++ require (!(d.status == conditional && d.conditions == []))
      (lit "signoff: conditional 인데 conditions 가 비어 있음")
    ++ (if d.needsPonytail then
          match d.ponytail with
          | some p =>
            if p.required then validatePonytail p
            else [missingPonytail]
          | none => [missingPonytail]
        else [])

/-! ## The handoff -/

/-- `NON_EXECUTOR_ROLES`. -/
def nonExecutorRoles : List Text := [lit "gateway", lit "tech-lead", lit "product-manager"]

/-- `validate_handoff`. -/
def validateHandoff (h : EngineerHandoff) (d : TechLeadDecision) : List Text :=
  let cid := canonicalId h.executorRole
  require (!blank h.handoffId) (lit "handoff: handoff_id 비어 있음")
    ++ require (h.decisionRef = d.decisionId) (lit "handoff: decision_ref 가 결정과 불일치")
    ++ require d.signed
      (lit "handoff: 결정 status '" ++ d.status ++ lit "' — 서명되지 않은 결정에서 인계 금지")
    ++ (if cid = [] then
          [lit "handoff: executor_role '" ++ h.executorRole ++ lit "' 이 식별자 레지스트리에 없음"]
        else require (!(decide (cid ∈ nonExecutorRoles) || departmentOf cid != lit "engineering"))
          (lit "handoff: '" ++ cid ++ lit "' 은 단일 executor 엔지니어가 아님 (router/decider 역할)"))
    ++ require (h.scope != []) (lit "handoff: scope 비어 있음")
    ++ require (!blank h.testStrategy) (lit "handoff: test_strategy 없음 — 검증 전략 없는 인계 금지")

/-- **A handoff without violations** is of a signed decision, to one engineer. -/
theorem valid_handoff {h : EngineerHandoff} {d : TechLeadDecision}
    (hvalid : validateHandoff h d = []) :
    h.decisionRef = d.decisionId ∧ d.signed = true ∧
      departmentOf (canonicalId h.executorRole) = lit "engineering" ∧
      canonicalId h.executorRole ∉ nonExecutorRoles := by
  simp only [validateHandoff, List.append_eq_nil_iff, require_eq_nil_iff, decide_eq_true_eq] at hvalid
  obtain ⟨⟨⟨⟨⟨-, href⟩, hsigned⟩, hrole⟩, -⟩, -⟩ := hvalid
  split at hrole
  · cases hrole
  · simp only [require_eq_nil_iff, Bool.not_eq_true', Bool.or_eq_false_iff,
      decide_eq_false_iff_not, bne_eq_false_iff_eq] at hrole
    exact ⟨href, hsigned, hrole.2, hrole.1⟩

/-! ## A lane that passes -/

def sampleBrief : PMBrief where
  topic := lit "t"
  problem := lit "p"
  userValue := lit "v"
  acceptanceCriteria := [lit "a"]
  successMetrics := [lit "m"]

def sampleMeeting : MeetingRecord where
  meetingId := lit "m1"
  topic := lit "t"
  agenda := [lit "a"]
  participants := [⟨lit "tech-lead", lit "support", lit "p", []⟩, ⟨lit "fe", lit "oppose", lit "p", []⟩]
  decisions := [lit "d"]

def sampleComparison : StackComparison where
  decisionTopic := lit "t"
  options := [{ name := lit "x", pros := [lit "p"], cons := [lit "c"] },
    { name := lit "y", pros := [lit "p"], cons := [lit "c"] }]
  recommended := lit "x"
  rationale := lit "r"
  tradeoffs := [lit "t"]

/-- A decision that the tech-lead signed. -/
def sampleDecision : TechLeadDecision where
  decisionId := lit "d1"
  pmBriefRef := lit "t"
  meetingRef := lit "m1"
  designSystem := lit "s"
  codingConvention := lit "c"
  stackDecision := some sampleComparison
  tradeoffs := [lit "t"]
  rationale := lit "r"
  status := signedOff

def sampleHandoff : EngineerHandoff where
  handoffId := lit "h1"
  decisionRef := lit "d1"
  executorRole := lit "backend-engineer"
  scope := [lit "s"]
  testStrategy := lit "t"

example : validatePmBrief sampleBrief = [] ∧ validateMeeting sampleMeeting = [] ∧
    validateTechLeadDecision sampleDecision = [] ∧ validateHandoff sampleHandoff sampleDecision = [] := by
  decide +kernel

end ForgeKit.DecisionLane
