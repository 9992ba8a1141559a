import ForgeKit.Autopilot.Chain
import ForgeKit.DecisionLane.Validators

/-!
# The execution gates of the decision lane (`decision_lane/enforcement`)

Two gates stand before an execution: one for the decisions of the lane, one for the decisions of
the autopilot, which a lane decision can be bridged to. Both classify the request again.

* `authorizeExecution_allowed_iff`, `authorizeRuntimeExecution_bridge_allowed_iff` — what each gate asks for
* `authorization_sound_iff` — when what they ask for is the whole chain of approvals
-/

namespace ForgeKit.DecisionLane

open Py (Text lit)
open Autopilot (l2InternalApprove l3UserApprove l4Restricted allLevels classifyLevel
  classifyLevel_cases)

/-! ## The request -/

def safe : Text := lit "safe"

def risky : Text := lit "risky"

def destructive : Text := lit "destructive"

/-- `SAFE_CLASS_ALLOWLIST`. -/
def safeClassAllowlist : List Text :=
  [lit "docs", lit "tests", lit "lint", lit "format", lit "small-refactor", lit "note",
    lit "runbook", lit "ui-polish", lit "stale-packet-cleanup"]

/-- `AUTO_FORBIDDEN`. -/
def autoForbidden : List Text :=
  [lit "deploy", lit "infra-apply", lit "secret", lit "schema-migration", lit "broad-rewrite",
    lit "prod-config", lit "attack-flow"]

/-- `ActionRequest`. -/
structure ActionRequest where
  kind : Text := []
  summary : Text := []
  riskFlag : Text := []
deriving DecidableEq

/-- `_LEVEL_ORDER.get(level, 1)`. -/
def levelOrder (level : Text) : Nat :=
  (([(l2InternalApprove, 0), (l3UserApprove, 1), (l4Restricted, 2)] : List (Text × Nat)).lookup
    level).getD 1

/-- `_CLASS_BY_LEVEL.get(level, RISKY)`. -/
def classByLevel (level : Text) : Text :=
  (([(l2InternalApprove, safe), (l3UserApprove, risky), (l4Restricted, destructive)] :
    List (Text × Text)).lookup level).getD risky

/-- The level of `classify_action`. -/
def actionLevel (request : ActionRequest) : Text :=
  let level := classifyLevel
    (request.kind ++ lit " " ++ request.summary ++ lit " " ++ request.riskFlag) request.riskFlag
  let kind := Py.strip request.kind
  if kind ∈ autoForbidden then l4Restricted
  else if kind ≠ [] ∧ kind ∉ safeClassAllowlist ∧ level = l2InternalApprove then l3UserApprove
  else level

/-- `classify_action`. -/
def classifyAction (request : ActionRequest) : Text × Text :=
  (classByLevel (actionLevel request), actionLevel request)

/-- **A request is safe, risky or destructive**, and its level is the one of its class. -/
theorem classifyAction_cases (request : ActionRequest) :
    classifyAction request = (safe, l2InternalApprove) ∨
      classifyAction request = (risky, l3UserApprove) ∨
      classifyAction request = (destructive, l4Restricted) := by
  have hlevel : actionLevel request = l2InternalApprove ∨ actionLevel request = l3UserApprove ∨
      actionLevel request = l4Restricted := by
    simp only [actionLevel]
    split
    · exact .inr (.inr rfl)
    · split
      · exact .inr (.inl rfl)
      · exact classifyLevel_cases _ _
  rcases hlevel with h | h | h
  · exact .inl (by rw [classifyAction, h]; decide)
  · exact .inr (.inl (by rw [classifyAction, h]; decide))
  · exact .inr (.inr (by rw [classifyAction, h]; decide))

/-! ## The lane -/

/-- `GatewayRouting`. -/
structure GatewayRouting where
  forwarded : Bool
deriving DecidableEq

/-- `OperatorApproval`. -/
structure OperatorApproval where
  approver : Text
  decisionRef : Text
  approved : Bool := false
deriving DecidableEq

/-- `can_engineer_start`. -/
def canEngineerStart : Option TechLeadDecision → Option EngineerHandoff → Bool
  | some d, some h =>
    d.signed && decide (validateTechLeadDecision d = []) && decide (validateHandoff h d = [])
  | _, _ => false

/-! ## Verdicts -/

/-- What one check of a gate adds: a reason to block, or an approval that is there. -/
inductive Check where
  | missing (reason : Text)
  | present (approval : Text)
deriving DecidableEq

def Check.reason? : Check → Option Text
  | .missing reason => some reason
  | .present _ => none

def Check.approval? : Check → Option Text
  | .missing _ => none
  | .present approval => some approval

/-- The check adds no reason to block. -/
def Check.Passes (c : Check) : Prop := c.reason? = none

@[simp] theorem Check.not_passes_missing (reason : Text) : ¬(Check.missing reason).Passes := nofun

@[simp] theorem Check.passes_present (approval : Text) : (Check.present approval).Passes := rfl

theorem Check.passes_of_iff {p : Prop} [Decidable p] {approval reason : Text} :
    (if p then Check.present approval else .missing reason).Passes ↔ p := by
  by_cases h : p
  · rw [if_pos h]
    exact iff_of_true rfl h
  · rw [if_neg h]
    exact iff_of_false nofun h

theorem Check.passes_unless_iff {p : Prop} [Decidable p] {approval reason : Text} :
    (if p then Check.missing reason else .present approval).Passes ↔ ¬p := by
  rw [← ite_not]
  exact Check.passes_of_iff

/-- `ExecutionVerdict`. -/
structure ExecutionVerdict where
  allowed : Bool
  actionClass : Text
  approvalLevel : Text
  executorId : Text
  approvalMetadata : Text
  satisfied : List Text
  blockingReasons : List Text
deriving DecidableEq

def reasonsOf (checks : List Check) : List Text := checks.filterMap Check.reason?

def satisfiedBy (checks : List Check) : List Text := checks.filterMap Check.approval?

/-- **A verdict allows** when every check passes. -/
theorem reasonsOf_eq_nil_iff {checks : List Check} :
    reasonsOf checks = [] ↔ ∀ c ∈ checks, c.Passes := by
  rw [reasonsOf, List.filterMap_eq_nil_iff]
  rfl

/-- The gateway's check, in both gates. -/
def gatewayCheck (routed : Bool) : Check :=
  if routed then .present (lit "gateway")
  else .missing (lit "gateway 승인(라우팅) 없음 — 미경유 실행")

/-- The guard against a request above the signed level, in both gates. -/
def scopeChecks (request : ActionRequest) (signedLevel : Text) : List Check :=
  if signedLevel ≠ [] ∧ levelOrder signedLevel < levelOrder (classifyAction request).2 then
    [.missing (lit "execution class(" ++ (classifyAction request).1 ++ lit "/"
      ++ (classifyAction request).2 ++ lit ") > 서명 범위(" ++ signedLevel ++ lit ") — 재서명 필요")]
  else []

/-- The check of the class, in both gates: of a risky request `operator`, of a safe one
`internal`. -/
def classCheck (request : ActionRequest) (operator internal : Check) : Check :=
  if (classifyAction request).1 = destructive then
    .missing (lit "destructive(L4) — 자동 실행 금지, operator + runbook 전용")
  else if (classifyAction request).1 = risky then operator
  else internal

/-- `;operator=…` when the operator's approval counted. -/
def operatorSuffix (checks : List Check) : Option OperatorApproval → Text
  | some op => if lit "operator" ∈ satisfiedBy checks then lit ";operator=" ++ op.approver else []
  | none => []

theorem gatewayCheck_passes_iff {routed : Bool} : (gatewayCheck routed).Passes ↔ routed = true :=
  Check.passes_of_iff

theorem scopeChecks_pass_iff {request : ActionRequest} {signedLevel : Text} :
    (∀ c ∈ scopeChecks request signedLevel, c.Passes) ↔
      (signedLevel ≠ [] → levelOrder (classifyAction request).2 ≤ levelOrder signedLevel) := by
  unfold scopeChecks
  split
  · next h =>
    simp only [List.forall_mem_singleton, Check.not_passes_missing, false_iff]
    exact fun hle => absurd (hle h.1) (Nat.not_le.mpr h.2)
  · next h =>
    refine ⟨fun _ hne => ?_, fun _ => fun _ hc => absurd hc List.not_mem_nil⟩
    exact Nat.not_lt.mp fun hlt => h ⟨hne, hlt⟩

/-! ## The gate of the lane -/

def signoffCheck : Option TechLeadDecision → Check
  | none => .missing (lit "tech-lead 결정 없음")
  | some d =>
    if d.signed = false then .missing (lit "tech-lead 서명 안 됨(status=" ++ d.status ++ lit ")")
    else if validateTechLeadDecision d ≠ [] then .missing (lit "tech-lead 서명 무효(fake signoff)")
    else .present (lit "tech-lead")

def handoffCheck (decision : Option TechLeadDecision) : Option EngineerHandoff → Check
  | none => .missing (lit "engineer handoff 없음")
  | some h =>
    if (decision.any fun d => decide (validateHandoff h d ≠ [])) = true then
      .missing (lit "handoff 무효")
    else .present (lit "handoff")

/-- The operator approved, and approved this decision. -/
def grantedFor (decision : Option TechLeadDecision) (op : Option OperatorApproval) : Bool :=
  match op, decision with
  | some a, some d => a.approved && decide (a.decisionRef = d.decisionId)
  | _, _ => false

/-- What `authorize_execution` checks, in its order. -/
def laneChecks (decision : Option TechLeadDecision) (handoff : Option EngineerHandoff)
    (request : ActionRequest) (routing : Option GatewayRouting)
    (op : Option OperatorApproval) : List Check :=
  [gatewayCheck (routing.any (·.forwarded)), signoffCheck decision, handoffCheck decision handoff]
    ++ scopeChecks request ((decision.map (·.approvalLevel)).getD [])
    ++ [classCheck request
      (if grantedFor decision op = true then .present (lit "operator")
        else .missing (lit "risky(L3) — operator 승인 없음/대상 불일치"))
      (.present (lit "internal-safe"))]

/-- `canonical_id(signoff_by) or fallback`. -/
def signoffId (signoffBy fallback : Text) : Text :=
  if canonicalId signoffBy = [] then fallback else canonicalId signoffBy

/-- `authorize_execution`. -/
def authorizeExecution (decision : Option TechLeadDecision) (handoff : Option EngineerHandoff)
    (request : ActionRequest) (routing : Option GatewayRouting)
    (op : Option OperatorApproval) : ExecutionVerdict :=
  let checks := laneChecks decision handoff request routing op
  let level := (classifyAction request).2
  { allowed := decide (reasonsOf checks = [])
    actionClass := (classifyAction request).1
    approvalLevel := level
    executorId := (handoff.map fun h => canonicalId h.executorRole).getD []
    approvalMetadata :=
      match decision with
      | none => []
      | some d =>
        lit "decision=" ++ d.decisionId ++ lit ";level=" ++ level ++ lit ";signoff="
          ++ signoffId d.signoffBy (lit "unknown") ++ operatorSuffix checks op
    satisfied := satisfiedBy checks
    blockingReasons := reasonsOf checks }

/-! ## The gate of the autopilot -/

/-- `TechLeadDecision` of `autopilot/artifacts`. -/
abbrev AutopilotDecision := Autopilot.TechLeadDecision

/-- `_RUNTIME_NON_EXECUTOR`. -/
def runtimeNonExecutor : List Text := [lit "gateway", lit "product-manager"]

/-- `_runtime_executor_violation`; the empty text for none. -/
def runtimeExecutorViolation (executorRole : Text) : Text :=
  let cid := canonicalId executorRole
  if cid = [] then lit "executor '" ++ executorRole ++ lit "' 식별자 레지스트리에 없음"
  else if cid ∈ runtimeNonExecutor ∨ departmentOf cid ≠ lit "engineering" then
    lit "'" ++ cid ++ lit "' 은 실행 슬롯을 가질 수 없음 (router/non-engineering 역할)"
  else []

/-- What `authorize_runtime_execution` checks, in its order. -/
def runtimeChecks (decision : Option AutopilotDecision) (request : ActionRequest)
    (executorRole : Text) (gatewayOk : Bool) (op : Option OperatorApproval) : List Check :=
  [gatewayCheck gatewayOk,
    if decision.isSome then .present (lit "tech-lead")
    else .missing (lit "tech-lead 결정 없음(서명 없음)")]
    ++ (if runtimeExecutorViolation executorRole = [] then []
        else [.missing (runtimeExecutorViolation executorRole)])
    ++ scopeChecks request ((decision.map (·.approvalLevel)).getD [])
    ++ [classCheck request
      (if op.any (·.approved) = true then .present (lit "operator")
        else .missing (lit "risky(L3) — operator 승인 없음"))
      (if decision.any (fun d => !d.canExecute) = true then
          .missing (lit "safe 인데 내부 서명(can_execute) 미통과")
        else .present (lit "internal-safe"))]

/-- `authorize_runtime_execution`. -/
def authorizeRuntimeExecution (decision : Option AutopilotDecision) (request : ActionRequest)
    (executorRole : Text) (gatewayOk : Bool) (op : Option OperatorApproval) : ExecutionVerdict :=
  let checks := runtimeChecks decision request executorRole gatewayOk op
  let level := (classifyAction request).2
  { allowed := decide (reasonsOf checks = [])
    actionClass := (classifyAction request).1
    approvalLevel := level
    executorId := canonicalId executorRole
    approvalMetadata :=
      match decision with
      | none => []
      | some d =>
        if reasonsOf checks = [] then
          lit "decision=" ++ d.packetSummary.take 40 ++ lit ";level=" ++ level ++ lit ";signoff="
            ++ signoffId d.signoffBy (lit "tech-lead") ++ operatorSuffix checks op
        else []
    satisfied := satisfiedBy checks
    blockingReasons := reasonsOf checks }

/-- `bridge_to_autopilot`. -/
def bridgeToAutopilot (d : TechLeadDecision) : AutopilotDecision where
  packetSummary := d.pmBriefRef
  decisionClass := d.riskClass
  approvalLevel := d.approvalLevel
  signoffBy := signoffId d.signoffBy (lit "tech-lead")
  canExecute := decide (d.status = signedOff) && decide (d.approvalLevel = l2InternalApprove)
  rationale := d.rationale

/-! ## What each gate asks for -/

theorem signoffCheck_passes_iff {d : TechLeadDecision} :
    (signoffCheck (some d)).Passes ↔ d.signed = true ∧ validateTechLeadDecision d = [] := by
  simp only [signoffCheck]
  split
  · next h => simp [h]
  · next h =>
    rw [Bool.not_eq_false] at h
    split
    · next hv => simp [hv]
    · next hv => simp [h, not_not.mp hv]

theorem handoffCheck_passes_iff {d : TechLeadDecision} {handoff : Option EngineerHandoff} :
    (handoffCheck (some d) handoff).Passes ↔ ∃ h, handoff = some h ∧ validateHandoff h d = [] := by
  cases handoff with
  | none => simp [handoffCheck]
  | some h =>
    rw [handoffCheck, Check.passes_unless_iff]
    simp

/-- The lane's checks of a decision and its handoff are those of `can_engineer_start`. -/
theorem canEngineerStart_iff {decision : Option TechLeadDecision}
    {handoff : Option EngineerHandoff} :
    canEngineerStart decision handoff = true ↔ ∃ d, decision = some d ∧
      (signoffCheck decision).Passes ∧ (handoffCheck decision handoff).Passes := by
  cases decision with
  | none => simp [canEngineerStart]
  | some d =>
    simp only [Option.some.injEq, exists_eq_left', signoffCheck_passes_iff, handoffCheck_passes_iff]
    cases handoff with
    | none => simp [canEngineerStart]
    | some h => simp [canEngineerStart]

/-- The levels that the guard lets through for a safe and for a risky request. -/
theorem levelOrder_safe (signedLevel : Text) :
    levelOrder l2InternalApprove ≤ levelOrder signedLevel := by
  have hzero : levelOrder l2InternalApprove = 0 := by decide
  rw [hzero]
  exact Nat.zero_le _

theorem levelOrder_risky_iff {signedLevel : Text} :
    levelOrder l3UserApprove ≤ levelOrder signedLevel ↔ signedLevel ≠ l2InternalApprove := by
  have hone : levelOrder l3UserApprove = 1 := by decide
  rw [hone]
  constructor
  · rintro hle rfl
    exact absurd hle (by decide)
  · intro hne
    by_cases h3 : signedLevel = l3UserApprove
    · rw [h3, hone]
    · by_cases h4 : signedLevel = l4Restricted
      · rw [h4]; decide
      · rw [levelOrder, List.lookup_cons, beq_false_of_ne hne, List.lookup_cons,
          beq_false_of_ne h3, List.lookup_cons, beq_false_of_ne h4]
        exact Nat.le_refl 1

/-- **The checks of the request, in both gates**: a safe request is left to the internal check, a
risky one to the operator's, unless the decision was signed as safe. -/
theorem requestChecks_pass_iff {request : ActionRequest} {signedLevel : Text}
    {operator internal : Check} :
    (∀ c ∈ scopeChecks request signedLevel ++ [classCheck request operator internal], c.Passes) ↔
      classifyAction request = (safe, l2InternalApprove) ∧ internal.Passes ∨
        classifyAction request = (risky, l3UserApprove) ∧ signedLevel ≠ l2InternalApprove ∧
          operator.Passes := by
  rw [List.forall_mem_append, scopeChecks_pass_iff, List.forall_mem_singleton]
  have hrisky : risky ≠ destructive := by decide
  have hsafe : safe ≠ destructive ∧ safe ≠ risky := by decide
  rcases classifyAction_cases request with h | h | h
  · simp [h, classCheck, hsafe, levelOrder_safe]
  · simp only [h, classCheck, if_neg hrisky, if_true, Prod.mk.injEq, hsafe.2.symm, false_and,
      false_or, true_and, levelOrder_risky_iff]
    refine and_congr_left fun _ => ⟨fun hguard hsigned => ?_, fun hne _ => hne⟩
    exact hguard (by rw [hsigned]; decide) hsigned
  · have hdestructive : destructive ≠ safe ∧ destructive ≠ risky := by decide
    simp [h, classCheck, hdestructive]

/-- **The gate of the lane** asks for the routing, for the start of an engineer and, for a risky
request, for an approval of this decision. -/
theorem authorizeExecution_allowed_iff {decision : Option TechLeadDecision}
    {handoff : Option EngineerHandoff} {request : ActionRequest} {routing : Option GatewayRouting}
    {op : Option OperatorApproval} :
    (authorizeExecution decision handoff request routing op).allowed = true ↔
      routing.any (·.forwarded) = true ∧ canEngineerStart decision handoff = true ∧
        ∃ d, decision = some d ∧
          (classifyAction request = (safe, l2InternalApprove) ∨
            classifyAction request = (risky, l3UserApprove) ∧
              d.approvalLevel ≠ l2InternalApprove ∧ grantedFor (some d) op = true) := by
  show decide (reasonsOf (laneChecks decision handoff request routing op) = []) = true ↔ _
  rw [decide_eq_true_eq, reasonsOf_eq_nil_iff, laneChecks, List.append_assoc,
    List.forall_mem_append, requestChecks_pass_iff, List.forall_mem_cons, List.forall_mem_cons,
    List.forall_mem_singleton, gatewayCheck_passes_iff, canEngineerStart_iff, Check.passes_of_iff]
  cases decision with
  | none => simp [signoffCheck]
  | some d => simp [and_assoc]

/-- **The gate of the autopilot**, asked about a lane decision, does not look whether it was signed. -/
theorem authorizeRuntimeExecution_bridge_allowed_iff {d : TechLeadDecision}
    {request : ActionRequest} {executorRole : Text} {gatewayOk : Bool}
    {op : Option OperatorApproval} :
    (authorizeRuntimeExecution (some (bridgeToAutopilot d)) request executorRole gatewayOk
        op).allowed = true ↔
      gatewayOk = true ∧ runtimeExecutorViolation executorRole = [] ∧
        (classifyAction request = (safe, l2InternalApprove) ∧ d.status = signedOff ∧
            d.approvalLevel = l2InternalApprove ∨
          classifyAction request = (risky, l3UserApprove) ∧
            d.approvalLevel ≠ l2InternalApprove ∧ op.any (·.approved) = true) := by
  show decide (reasonsOf (runtimeChecks (some (bridgeToAutopilot d)) request executorRole gatewayOk
    op) = []) = true ↔ _
  rw [decide_eq_true_eq, reasonsOf_eq_nil_iff, runtimeChecks, List.append_assoc,
    List.forall_mem_append, requestChecks_pass_iff, List.forall_mem_append, List.forall_mem_cons,
    List.forall_mem_singleton, gatewayCheck_passes_iff, Check.passes_unless_iff]
  have hexecutor : (∀ c ∈ (if runtimeExecutorViolation executorRole = [] then []
      else [Check.missing (runtimeExecutorViolation executorRole)]), c.Passes) ↔
      runtimeExecutorViolation executorRole = [] := by
    split
    · next h => simp [h]
    · next h => simp [h]
  rw [hexecutor]
  simp [Check.passes_of_iff, bridgeToAutopilot, and_assoc]

/-! ## The whole chain of approvals -/

def rank (level : Text) : Option Nat := allLevels.idxOf? level

/-- A level that was signed covers itself and the lower ones; what is no level covers nothing. -/
def covers (signedLevel level : Text) : Bool :=
  match rank signedLevel, rank level with
  | some s, some l => decide (l ≤ s)
  | _, _ => false

/-- What the chain of approvals asks of a request and of the operator. -/
structure RequestCovered (d : TechLeadDecision) (request : ActionRequest)
    (op : Option OperatorApproval) : Prop where
  notDestructive : (classifyAction request).1 ≠ destructive
  withinSigned : covers d.approvalLevel (classifyAction request).2 = true
  operator : (classifyAction request).1 = risky → ∃ a, op = some a ∧ a.approved = true ∧
    blank a.approver = false ∧ a.decisionRef = d.decisionId

theorem covers_iff {signedLevel level : Text} {levels : List Text}
    (hlevels : ∀ s ∈ allLevels, covers s level = true ↔ s ∈ levels)
    (hsub : ∀ s ∈ levels, s ∈ allLevels) : covers signedLevel level = true ↔ signedLevel ∈ levels := by
  by_cases hmem : signedLevel ∈ allLevels
  · exact hlevels signedLevel hmem
  · have hrank : rank signedLevel = none := List.idxOf?_eq_none_iff.mpr hmem
    refine iff_of_false ?_ fun h => hmem (hsub signedLevel h)
    simp [covers, hrank]

theorem covers_safe_iff {signedLevel : Text} : covers signedLevel l2InternalApprove = true ↔
    signedLevel ∈ [l2InternalApprove, l3UserApprove, l4Restricted] :=
  covers_iff (by decide) (by decide)

theorem covers_risky_iff {signedLevel : Text} :
    covers signedLevel l3UserApprove = true ↔ signedLevel ∈ [l3UserApprove, l4Restricted] :=
  covers_iff (by decide) (by decide)

theorem requestCovered_safe_iff {d : TechLeadDecision} {request : ActionRequest}
    {op : Option OperatorApproval} (h : classifyAction request = (safe, l2InternalApprove)) :
    RequestCovered d request op ↔
      d.approvalLevel ∈ [l2InternalApprove, l3UserApprove, l4Restricted] := by
  have hsafe : safe ≠ destructive ∧ safe ≠ risky := by decide
  rw [← covers_safe_iff]
  constructor
  · intro hcovered
    simpa only [h] using hcovered.withinSigned
  · intro hcovers
    exact ⟨by simpa only [h] using hsafe.1, by simpa only [h] using hcovers,
      fun hrisky => absurd (by simpa only [h] using hrisky) hsafe.2⟩

theorem requestCovered_risky_iff {d : TechLeadDecision} {request : ActionRequest}
    {op : Option OperatorApproval} (h : classifyAction request = (risky, l3UserApprove)) :
    RequestCovered d request op ↔ d.approvalLevel ∈ [l3UserApprove, l4Restricted] ∧
      ∃ a, op = some a ∧ a.approved = true ∧ blank a.approver = false ∧
        a.decisionRef = d.decisionId := by
  have hrisky : risky ≠ destructive := by decide
  rw [← covers_risky_iff]
  constructor
  · intro hcovered
    exact ⟨by simpa only [h] using hcovered.withinSigned, hcovered.operator (by rw [h])⟩
  · rintro ⟨hcovers, hop⟩
    exact ⟨by simpa only [h] using hrisky, by simpa only [h] using hcovers, fun _ => hop⟩

/-- The gate of the lane lets these through: a safe request of a decision that was signed at no
execution level, and a risky one of such a decision or with an approval by nobody. -/
def LaneGap (decision : Option TechLeadDecision) (handoff : Option EngineerHandoff)
    (request : ActionRequest) (routing : Option GatewayRouting) (op : Option OperatorApproval) :
    Prop :=
  routing.any (·.forwarded) = true ∧ canEngineerStart decision handoff = true ∧
    ∃ d, decision = some d ∧
      (classifyAction request = (safe, l2InternalApprove) ∧
          d.approvalLevel ∉ [l2InternalApprove, l3UserApprove, l4Restricted] ∨
        classifyAction request = (risky, l3UserApprove) ∧ d.approvalLevel ≠ l2InternalApprove ∧
          ∃ a, op = some a ∧ a.approved = true ∧ a.decisionRef = d.decisionId ∧
            (d.approvalLevel ∉ [l3UserApprove, l4Restricted] ∨ blank a.approver = true))

/-- The gate of the autopilot lets these through: a safe request of a signoff that is not real, and
a risky one of such a signoff, of a decision that was signed at no execution level, or with an
approval by nobody or of another decision. -/
def RuntimeGap (d : TechLeadDecision) (request : ActionRequest) (executorRole : Text)
    (gatewayOk : Bool) (op : Option OperatorApproval) : Prop :=
  gatewayOk = true ∧ runtimeExecutorViolation executorRole = [] ∧
    (classifyAction request = (safe, l2InternalApprove) ∧ d.status = signedOff ∧
        d.approvalLevel = l2InternalApprove ∧ validateTechLeadDecision d ≠ [] ∨
      classifyAction request = (risky, l3UserApprove) ∧ d.approvalLevel ≠ l2InternalApprove ∧
        ∃ a, op = some a ∧ a.approved = true ∧
          (validateTechLeadDecision d ≠ [] ∨ d.approvalLevel ∉ [l3UserApprove, l4Restricted] ∨
            blank a.approver = true ∨ a.decisionRef ≠ d.decisionId))

theorem grantedFor_iff {d : TechLeadDecision} {op : Option OperatorApproval} :
    grantedFor (some d) op = true ↔
      ∃ a, op = some a ∧ a.approved = true ∧ a.decisionRef = d.decisionId := by
  cases op with
  | none => simp [grantedFor]
  | some a => simp [grantedFor]

theorem laneGap_iff {decision : Option TechLeadDecision} {handoff : Option EngineerHandoff}
    {request : ActionRequest} {routing : Option GatewayRouting} {op : Option OperatorApproval} :
    LaneGap decision handoff request routing op ↔
      (authorizeExecution decision handoff request routing op).allowed = true ∧
        ¬(routing.any (·.forwarded) = true ∧ canEngineerStart decision handoff = true ∧
          ∃ d, decision = some d ∧ RequestCovered d request op) := by
  rw [authorizeExecution_allowed_iff, LaneGap, and_assoc, and_assoc]
  refine and_congr_right fun hforwarded => and_congr_right fun hstart => ?_
  have hclasses : (safe, l2InternalApprove) ≠ (risky, l3UserApprove) := by decide
  cases decision with
  | none => simp
  | some d =>
    simp only [Option.some.injEq, exists_eq_left', hforwarded, hstart, true_and, grantedFor_iff]
    rcases classifyAction_cases request with h | h | h
    · rw [requestCovered_safe_iff h]
      simp only [h, hclasses, true_and, false_and, or_false]
    · rw [requestCovered_risky_iff h]
      simp only [h, hclasses.symm, true_and, false_and, false_or, and_assoc]
      refine and_congr_right fun _ => ?_
      cases op with
      | none => simp
      | some a =>
        simp only [Option.some.injEq, exists_eq_left', and_assoc]
        refine and_congr_right fun happroved => and_congr_right fun href => ?_
        simp only [happroved, href, true_and, and_true, not_and_or, Bool.not_eq_false]
    · have hnone : (destructive, l4Restricted) ≠ (safe, l2InternalApprove) ∧
          (destructive, l4Restricted) ≠ (risky, l3UserApprove) := by decide
      simp only [h, hnone, false_and, or_false]

theorem runtimeGap_iff {d : TechLeadDecision} {request : ActionRequest} {executorRole : Text}
    {gatewayOk : Bool} {op : Option OperatorApproval} :
    RuntimeGap d request executorRole gatewayOk op ↔
      (authorizeRuntimeExecution (some (bridgeToAutopilot d)) request executorRole gatewayOk
          op).allowed = true ∧
        ¬(validateTechLeadDecision d = [] ∧ RequestCovered d request op) := by
  rw [authorizeRuntimeExecution_bridge_allowed_iff, RuntimeGap, and_assoc, and_assoc]
  refine and_congr_right fun _ => and_congr_right fun _ => ?_
  have hclasses : (safe, l2InternalApprove) ≠ (risky, l3UserApprove) := by decide
  rcases classifyAction_cases request with h | h | h
  · rw [requestCovered_safe_iff h]
    simp only [h, hclasses, true_and, false_and, or_false, and_assoc]
    refine and_congr_right fun _ => and_congr_right fun hlevel => ?_
    simp only [hlevel, List.mem_cons, true_or, and_true]
  · rw [requestCovered_risky_iff h]
    simp only [h, hclasses.symm, true_and, false_and, false_or, and_assoc]
    refine and_congr_right fun _ => ?_
    cases op with
    | none => simp
    | some a =>
      simp only [Option.some.injEq, exists_eq_left', Option.any_some]
      refine and_congr_right fun happroved => ?_
      simp only [happroved, true_and, not_and_or, Bool.not_eq_false, ne_eq]
  · have hnone : (destructive, l4Restricted) ≠ (safe, l2InternalApprove) ∧
        (destructive, l4Restricted) ≠ (risky, l3UserApprove) := by decide
    simp only [h, hnone, false_and, or_false]

/-- **What a gate allows is covered by the whole chain of approvals** exactly outside of its gap. -/
theorem authorization_sound_iff (decision : Option TechLeadDecision)
    (handoff : Option EngineerHandoff) (d : TechLeadDecision) (request : ActionRequest)
    (routing : Option GatewayRouting) (op : Option OperatorApproval) (executorRole : Text)
    (gatewayOk : Bool) :
    (((authorizeExecution decision handoff request routing op).allowed = true →
        routing.any (·.forwarded) = true ∧ canEngineerStart decision handoff = true ∧
          ∃ d, decision = some d ∧ RequestCovered d request op) ↔
      ¬LaneGap decision handoff request routing op) ∧
    (((authorizeRuntimeExecution (some (bridgeToAutopilot d)) request executorRole gatewayOk
          op).allowed = true →
        validateTechLeadDecision d = [] ∧ RequestCovered d request op) ↔
      ¬RuntimeGap d request executorRole gatewayOk op) := by
  rw [laneGap_iff, runtimeGap_iff, not_and_not_right, not_and_not_right]
  exact ⟨Iff.rfl, Iff.rfl⟩

/-- A risky decision that the tech-lead signed. -/
def riskyDecision : TechLeadDecision :=
  { sampleDecision with riskClass := risky, approvalLevel := l3UserApprove }

/-- An approval that nobody gave. -/
def nobodysApproval : OperatorApproval where
  approver := []
  decisionRef := lit "d1"
  approved := true

/-- **A risky request runs on an approval by nobody**, in the gate of the lane, and in the gate of
the autopilot also on a draft with no id. -/
theorem nobodysApproval_executes :
    ((authorizeExecution (some riskyDecision) (some sampleHandoff) { summary := lit "rewrite" }
        (some ⟨true⟩) (some nobodysApproval)).allowed = true ∧
      ¬RequestCovered riskyDecision { summary := lit "rewrite" } (some nobodysApproval)) ∧
    (authorizeRuntimeExecution
        (some (bridgeToAutopilot { riskyDecision with decisionId := [], status := draft }))
        { summary := lit "rewrite" } (lit "be") true (some nobodysApproval)).allowed = true ∧
      validateTechLeadDecision { riskyDecision with decisionId := [], status := draft } ≠ [] := by
  refine ⟨⟨by decide +kernel, fun hcovered => ?_⟩, by decide +kernel, by decide +kernel⟩
  obtain ⟨a, ha, -, happrover, -⟩ := hcovered.operator (by decide +kernel)
  cases ha
  exact absurd happrover (by decide)

end ForgeKit.DecisionLane
