import ForgeKit.Lib.JsonRoundTrip

/-!
# The artifacts of the decision lane (`decision_lane/schemas`)

A PM brief, a recorded meeting, a tech-lead decision with its stack comparison, and an engineer
handoff. Each has its `to_dict`, which the governance log keeps as the payload of an event.
-/

namespace ForgeKit.DecisionLane

open Py (Text lit)
open JsonText (Value JsonDict Number)

/-! ## Values -/

/-- A tuple of texts, as a list. -/
def textList (ts : List Text) : Value := .arr (ts.map .str)

def intValue (n : Int) : Value := .num (.ofInt n)

/-- `x.to_dict() if x else None`. -/
def dictOrNull : Option JsonDict → Value
  | some d => .obj d.members
  | none => .null

theorem valid_textList (ts : List Text) : (textList ts).Valid := by
  show JsonText.validElems (ts.map .str)
  induction ts with
  | nil => trivial
  | cons t ts ih => exact ⟨trivial, ih⟩

theorem valid_dictOrNull (d : Option JsonDict) : (dictOrNull d).Valid := by
  cases d with
  | none => trivial
  | some d => exact d.valid

theorem valid_dictList (ds : List JsonDict) :
    (Value.arr (ds.map fun d => .obj d.members)).Valid := by
  show JsonText.validElems (ds.map fun d => .obj d.members)
  induction ds with
  | nil => trivial
  | cons d ds ih => exact ⟨d.valid, ih⟩

/-! ## The PM brief -/

/-- `PMBrief`. -/
structure PMBrief where
  topic : Text
  problem : Text
  userValue : Text
  targetUsers : List Text := []
  acceptanceCriteria : List Text := []
  successMetrics : List Text := []
  constraints : List Text := []
  outOfScope : List Text := []
  priority : Text := lit "normal"
  requestedBy : Text := lit "operator"
deriving DecidableEq

/-- `PMBrief.to_dict`. -/
def PMBrief.toDict (brief : PMBrief) : JsonDict where
  members :=
    [(lit "topic", .str brief.topic), (lit "problem", .str brief.problem),
      (lit "user_value", .str brief.userValue), (lit "target_users", textList brief.targetUsers),
      (lit "acceptance_criteria", textList brief.acceptanceCriteria),
      (lit "success_metrics", textList brief.successMetrics),
      (lit "constraints", textList brief.constraints),
      (lit "out_of_scope", textList brief.outOfScope), (lit "priority", .str brief.priority),
      (lit "requested_by", .str brief.requestedBy)]
  valid := ⟨by simp only [List.map_cons, List.map_nil]; decide, trivial, trivial, trivial,
    valid_textList _, valid_textList _, valid_textList _, valid_textList _, valid_textList _,
    trivial, trivial, trivial⟩

/-! ## The stack comparison -/

/-- `StackOption`. -/
structure StackOption where
  name : Text
  summary : Text := []
  pros : List Text := []
  cons : List Text := []
  risk : Text := []
  fit : Int := 0
deriving DecidableEq

/-- `StackOption.to_dict`. -/
def StackOption.toDict (o : StackOption) : JsonDict where
  members :=
    [(lit "name", .str o.name), (lit "summary", .str o.summary), (lit "pros", textList o.pros),
      (lit "cons", textList o.cons), (lit "risk", .str o.risk), (lit "fit", intValue o.fit)]
  valid := ⟨by simp only [List.map_cons, List.map_nil]; decide, trivial, trivial,
    valid_textList _, valid_textList _, trivial, trivial, trivial⟩

/-- `PONYTAIL_VERDICTS`. -/
def ponytailVerdicts : List Text :=
  [lit "keep", lit "simplify", lit "use-native", lit "reject-dependency", lit "reduce-surface"]

/-- `PonytailConsult`. -/
structure PonytailConsult where
  required : Bool := false
  consulted : Bool := false
  verdict : Text := []
  notes : Text := []
  consultee : Text := lit "ponytail"
  rejectedAlternative : Text := []
  whyMoreComplex : Text := []
deriving DecidableEq

/-- `PonytailConsult.to_dict`. -/
def PonytailConsult.toDict (p : PonytailConsult) : JsonDict where
  members :=
    [(lit "ponytail_required", .bool p.required), (lit "consulted", .bool p.consulted),
      (lit "ponytail_verdict", .str p.verdict), (lit "ponytail_notes", .str p.notes),
      (lit "consultee", .str p.consultee),
      (lit "rejected_alternative", .str p.rejectedAlternative),
      (lit "why_more_complex", .str p.whyMoreComplex)]
  valid := ⟨by simp only [List.map_cons, List.map_nil]; decide, trivial, trivial, trivial,
    trivial, trivial, trivial, trivial, trivial⟩

/-- `StackComparison`. -/
structure StackComparison where
  decisionTopic : Text
  options : List StackOption := []
  recommended : Text := []
  rationale : Text := []
  tradeoffs : List Text := []
  assumptions : List Text := []
  ponytail : Option PonytailConsult := none
deriving DecidableEq

/-- `StackComparison.option_names`. -/
def StackComparison.optionNames (cmp : StackComparison) : List Text := cmp.options.map (·.name)

/-- `StackComparison.to_dict`. -/
def StackComparison.toDict (cmp : StackComparison) : JsonDict where
  members :=
    [(lit "decision_topic", .str cmp.decisionTopic),
      (lit "options", .arr ((cmp.options.map StackOption.toDict).map fun d => .obj d.members)),
      (lit "recommended", .str cmp.recommended), (lit "rationale", .str cmp.rationale),
      (lit "tradeoffs", textList cmp.tradeoffs), (lit "assumptions", textList cmp.assumptions),
      (lit "ponytail", dictOrNull (cmp.ponytail.map PonytailConsult.toDict))]
  valid := ⟨by simp only [List.map_cons, List.map_nil]; decide, trivial, valid_dictList _,
    trivial, trivial, valid_textList _, valid_textList _, valid_dictOrNull _, trivial⟩

/-! ## The meeting -/

/-- `ParticipantPosition`. -/
structure ParticipantPosition where
  role : Text
  stance : Text
  position : Text
  concerns : List Text := []
deriving DecidableEq

/-- `ParticipantPosition.to_dict`. -/
def ParticipantPosition.toDict (p : ParticipantPosition) : JsonDict where
  members :=
    [(lit "role", .str p.role), (lit "stance", .str p.stance), (lit "position", .str p.position),
      (lit "concerns", textList p.concerns)]
  valid := ⟨by simp only [List.map_cons, List.map_nil]; decide, trivial, trivial, trivial,
    valid_textList _, trivial⟩

/-- `DISSENT_STANCES`. -/
def dissentStances : List Text := [lit "oppose", lit "conditional"]

/-- `MeetingRecord`. -/
structure MeetingRecord where
  meetingId : Text
  topic : Text
  agenda : List Text := []
  participants : List ParticipantPosition := []
  decisions : List Text := []
  openQuestions : List Text := []
  roundIndex : Int := 1
  escalated : Bool := false
  ponytail : Option PonytailConsult := none
deriving DecidableEq

/-- `MeetingRecord.has_dissent`. -/
def MeetingRecord.hasDissent (m : MeetingRecord) : Bool :=
  m.participants.any fun p => decide (p.stance ∈ dissentStances) || p.concerns != []

/-- `MeetingRecord.to_dict`. -/
def MeetingRecord.toDict (m : MeetingRecord) : JsonDict where
  members :=
    [(lit "meeting_id", .str m.meetingId), (lit "topic", .str m.topic),
      (lit "agenda", textList m.agenda),
      (lit "participants",
        .arr ((m.participants.map ParticipantPosition.toDict).map fun d => .obj d.members)),
      (lit "decisions", textList m.decisions), (lit "open_questions", textList m.openQuestions),
      (lit "round_index", intValue m.roundIndex), (lit "escalated", .bool m.escalated),
      (lit "ponytail", dictOrNull (m.ponytail.map PonytailConsult.toDict))]
  valid := ⟨by simp only [List.map_cons, List.map_nil]; decide, trivial, trivial,
    valid_textList _, valid_dictList _, valid_textList _, valid_textList _, trivial, trivial,
    valid_dictOrNull _, trivial⟩

/-! ## The tech-lead decision -/

def draft : Text := lit "draft"

def signedOff : Text := lit "signed_off"

def conditional : Text := lit "conditional"

/-- `TechLeadDecision`. -/
structure TechLeadDecision where
  decisionId : Text
  pmBriefRef : Text
  meetingRef : Text
  designSystem : Text := []
  codingConvention : Text := []
  stackDecision : Option StackComparison := none
  tradeoffs : List Text := []
  integrationNotes : List Text := []
  riskClass : Text := lit "safe"
  approvalLevel : Text := []
  conditions : List Text := []
  rationale : Text := []
  signoffBy : Text := lit "tech-lead"
  status : Text := draft
  introducesDependency : Bool := false
  introducesAbstraction : Bool := false
  ponytail : Option PonytailConsult := none
deriving DecidableEq

/-- `TechLeadDecision.needs_ponytail`. -/
def TechLeadDecision.needsPonytail (d : TechLeadDecision) : Bool :=
  d.introducesDependency || d.introducesAbstraction || d.ponytail.any (·.required)

/-- `decision.status in (SIGNED_OFF, CONDITIONAL)`. -/
def TechLeadDecision.signed (d : TechLeadDecision) : Bool :=
  decide (d.status ∈ [signedOff, conditional])

/-- `TechLeadDecision.to_dict`. -/
def TechLeadDecision.toDict (d : TechLeadDecision) : JsonDict where
  members :=
    [(lit "decision_id", .str d.decisionId), (lit "pm_brief_ref", .str d.pmBriefRef),
      (lit "meeting_ref", .str d.meetingRef), (lit "design_system", .str d.designSystem),
      (lit "coding_convention", .str d.codingConvention),
      (lit "stack_decision", dictOrNull (d.stackDecision.map StackComparison.toDict)),
      (lit "tradeoffs", textList d.tradeoffs),
      (lit "integration_notes", textList d.integrationNotes),
      (lit "risk_class", .str d.riskClass), (lit "approval_level", .str d.approvalLevel),
      (lit "conditions", textList d.conditions), (lit "rationale", .str d.rationale),
      (lit "signoff_by", .str d.signoffBy), (lit "status", .str d.status),
      (lit "introduces_dependency", .bool d.introducesDependency),
      (lit "introduces_abstraction", .bool d.introducesAbstraction),
      (lit "ponytail", dictOrNull (d.ponytail.map PonytailConsult.toDict))]
  valid := ⟨by simp only [List.map_cons, List.map_nil]; decide, trivial, trivial, trivial,
    trivial, trivial, valid_dictOrNull _, valid_textList _, valid_textList _, trivial, trivial,
    valid_textList _, trivial, trivial, trivial, trivial, trivial, valid_dictOrNull _, trivial⟩

/-! ## The engineer handoff -/

/-- `EngineerHandoff`. -/
structure EngineerHandoff where
  handoffId : Text
  decisionRef : Text
  executorRole : Text
  scope : List Text := []
  forbiddenScope : List Text := []
  testStrategy : Text := []
  rollbackPlan : Text := []
  acceptanceCriteria : List Text := []
  operatorRequired : Bool := false
  ponytail : Option PonytailConsult := none
deriving DecidableEq

/-- `EngineerHandoff.to_dict`. -/
def EngineerHandoff.toDict (h : EngineerHandoff) : JsonDict where
  members :=
    [(lit "handoff_id", .str h.handoffId), (lit "decision_ref", .str h.decisionRef),
      (lit "executor_role", .str h.executorRole), (lit "scope", textList h.scope),
      (lit "forbidden_scope", textList h.forbiddenScope),
      (lit "test_strategy", .str h.testStrategy), (lit "rollback_plan", .str h.rollbackPlan),
      (lit "acceptance_criteria", textList h.acceptanceCriteria),
      (lit "operator_required", .bool h.operatorRequired),
      (lit "ponytail", dictOrNull (h.ponytail.map PonytailConsult.toDict))]
  valid := ⟨by simp only [List.map_cons, List.map_nil]; decide, trivial, trivial, trivial,
    valid_textList _, valid_textList _, trivial, trivial, valid_textList _, trivial,
    valid_dictOrNull _, trivial⟩

end ForgeKit.DecisionLane
