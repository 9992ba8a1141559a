import ForgeKit.Approval.Reply

/-!
# Work orders for GitHub (`github_work_order.py`, `github_workos_adapter.py`)

An approved `engineering_write` card becomes a `github_work_order` row. The row carries the id of
the card; a second order is held back as long as the session has an order in flight.

* `findActiveWorkOrder_eq_none_iff` — the dedup is by the session, whatever the ids
-/

namespace ForgeKit

namespace WorkOrder

/-- `JOB_TYPE_GITHUB_WORK_ORDER`. -/
def jobTypeGithubWorkOrder : String := "github_work_order"

/-- `APPROVAL_KIND_ENGINEERING_WRITE`, also the kind of a work order. -/
def approvalKindEngineeringWrite : String := "engineering_write"

def skippedDuplicate : String := "duplicate_in_flight"

def skippedAwaitingApproval : String := "awaiting_approval"

/-- `_ACTIVE_STATES`. A row that waits for a retry is not among them, nor is a saved one. -/
def activeStates : List JobState :=
  [.queued, .assigned, .inProgress, .waitingForRole, .researching, .pendingApproval,
    .readyForObsidian]

/-! ## Proposals and orders -/

/-- `GitHubWorkOrderProposal`. -/
structure GitHubWorkOrderProposal where
  proposalId : String
  sessionId : String
  sourceChannelId : Option Int
  sourceThreadId : Option Int
  sourceMessageId : Option Int
  requestSummary : String
  codingRequired : Bool := true
  selectedRoles : List String := []
  excludedRoles : List String := []
  intentActions : List String := []
  intentEvidence : List String := []
  approvalKind : String := approvalKindEngineeringWrite
  approvalLevel : String := "L3_HUMAN_APPROVAL"
  repo : Option String := none
  baseBranch : Option String := none
  requestedBy : String := ""
  dryRunDefault : Bool := true
  extra : Dict Json := []
  createdAt : String := ""
  issueAutoCreatePlan : Option (Dict Json) := none
  existingIssueNumber : Option Int := none

/-- `tuple(str(x) for x in (v or ()))`. -/
def texts (v : Json) : Except String (List String) :=
  match v.items? with
  | some xs => .ok (xs.map Json.toStr)
  | none => .error "TypeError"

/-- A key of a mapping, as the JSON column writes it; `none` when it cannot be hashed. -/
def keyText : Json → Option String
  | .arr _ | .obj _ => none
  | .null => some "null"
  | .bool b => some (if b then "true" else "false")
  | v => some v.toStr

/-- One element of a sequence that is made a mapping. -/
def pairOf (v : Json) : Except String (String × Json) :=
  match v with
  | .null | .bool _ | .int _ | .float _ => .error "TypeError"
  | v =>
    match v.items? with
    | some [k, x] =>
      match keyText k with
      | some key => .ok (key, x)
      | none => .error "TypeError"
    | _ => .error "ValueError"

/-- `dict(v or {})`. -/
def dictOf (v : Json) : Except String (Dict Json) :=
  if v.truthy then
    match v with
    | .obj d => .ok d
    | .arr xs => (xs.mapM pairOf).map (Dict.update [])
    -- its elements are single characters
    | .str _ => .error "ValueError"
    | _ => .error "TypeError"
  else .ok []

/-- `_optional_str`. -/
def optionalStr (v : Json) : Option String :=
  match v with
  | .null => none
  | v => if PyText.strip v.toStr = "" then none else some (PyText.strip v.toStr)

/-- `bool(payload.get(key, True))`. -/
def boolOrTrue (payload : Dict Json) (key : String) : Bool :=
  (payload.get? key).all Json.truthy

/-- `GitHubWorkOrderProposal.from_payload`, with the name of the exception. -/
def GitHubWorkOrderProposal.fromPayload (payload : Dict Json) :
    Except String GitHubWorkOrderProposal := do
  let selectedRoles ← texts (payload.getJson "selected_roles")
  let excludedRoles ← texts (payload.getJson "excluded_roles")
  let intentActions ← texts (payload.getJson "intent_actions")
  let intentEvidence ← texts (payload.getJson "intent_evidence")
  let extra ← dictOf (payload.getJson "extra")
  .ok
    { proposalId := payload.strOr "proposal_id" ""
      sessionId := payload.strOr "session_id" ""
      sourceChannelId := (payload.getJson "source_channel_id").toInt?
      sourceThreadId := (payload.getJson "source_thread_id").toInt?
      sourceMessageId := (payload.getJson "source_message_id").toInt?
      requestSummary := payload.strOr "request_summary" ""
      codingRequired := boolOrTrue payload "coding_required"
      selectedRoles
      excludedRoles
      intentActions
      intentEvidence
      approvalKind := payload.strOr "approval_kind" approvalKindEngineeringWrite
      approvalLevel := payload.strOr "approval_level" "L3_HUMAN_APPROVAL"
      repo := optionalStr (payload.getJson "repo")
      baseBranch := optionalStr (payload.getJson "base_branch")
      requestedBy := payload.strOr "requested_by" ""
      dryRunDefault := boolOrTrue payload "dry_run_default"
      extra
      createdAt := payload.strOr "created_at" ""
      issueAutoCreatePlan := (payload.getJson "issue_auto_create_plan").obj?
      existingIssueNumber := (payload.getJson "existing_issue_number").toInt? }

/-- `GitHubWorkOrder`. -/
structure GitHubWorkOrder where
  proposalId : String
  sessionId : String
  approvalId : String
  approvedBy : String
  approvedAt : String
  requestSummary : String
  selectedRoles : List String := []
  intentActions : List String := []
  repo : Option String := none
  baseBranch : Option String := none
  dryRun : Bool := true
  sourceChannelId : Option Int := none
  sourceThreadId : Option Int := none
  sourceMessageId : Option Int := none
  extra : Dict Json := []
  issueAutoCreatePlan : Option (Dict Json) := none
  existingIssueNumber : Option Int := none

/-- `GitHubWorkOrder.to_payload`. -/
def GitHubWorkOrder.toPayload (order : GitHubWorkOrder) : Dict Json :=
  [("proposal_id", .str order.proposalId), ("session_id", .str order.sessionId),
   ("approval_id", .str order.approvalId), ("approved_by", .str order.approvedBy),
   ("approved_at", .str order.approvedAt), ("request_summary", .str order.requestSummary),
   ("selected_roles", .arr (order.selectedRoles.map Json.str)),
   ("intent_actions", .arr (order.intentActions.map Json.str)), ("repo", optText order.repo),
   ("base_branch", optText order.baseBranch), ("dry_run", .bool order.dryRun),
   ("source_channel_id", optInt order.sourceChannelId),
   ("source_thread_id", optInt order.sourceThreadId),
   ("source_message_id", optInt order.sourceMessageId), ("extra", .obj order.extra),
   ("issue_auto_create_plan", (order.issueAutoCreatePlan.map Json.obj).getD .null),
   ("existing_issue_number", optInt order.existingIssueNumber)]

/-- `GitHubWorkOrder.from_payload`; `none` is an exception. -/
def GitHubWorkOrder.fromPayload (payload : Dict Json) : Option GitHubWorkOrder := do
  let selectedRoles ← (payload.getJson "selected_roles").items?
  let intentActions ← (payload.getJson "intent_actions").items?
  let extra ← (dictOf (payload.getJson "extra")).toOption
  some
    { proposalId := payload.strOr "proposal_id" ""
      sessionId := payload.strOr "session_id" ""
      approvalId := payload.strOr "approval_id" ""
      approvedBy := payload.strOr "approved_by" ""
      approvedAt := payload.strOr "approved_at" ""
      requestSummary := payload.strOr "request_summary" ""
      selectedRoles := selectedRoles.map Json.toStr
      intentActions := intentActions.map Json.toStr
      repo := optionalStr (payload.getJson "repo")
      baseBranch := optionalStr (payload.getJson "base_branch")
      dryRun := boolOrTrue payload "dry_run"
      sourceChannelId := (payload.getJson "source_channel_id").toInt?
      sourceThreadId := (payload.getJson "source_thread_id").toInt?
      sourceMessageId := (payload.getJson "source_message_id").toInt?
      extra
      issueAutoCreatePlan := (payload.getJson "issue_auto_create_plan").obj?
      existingIssueNumber := (payload.getJson "existing_issue_number").toInt? }

/-- `GitHubWorkOrder.from_proposal`. -/
def GitHubWorkOrder.fromProposal (proposal : GitHubWorkOrderProposal) (approvalId approvedBy : String)
    (approvedAt : Option String) (dryRun : Option Bool) (utcNow : String) : GitHubWorkOrder :=
  let at_ := PyText.strip (approvedAt.getD "")
  { proposalId := proposal.proposalId
    sessionId := proposal.sessionId
    approvalId
    approvedBy
    approvedAt := if at_ = "" then utcNow else at_
    requestSummary := proposal.requestSummary
    selectedRoles := proposal.selectedRoles
    intentActions := proposal.intentActions
    repo := proposal.repo
    baseBranch := proposal.baseBranch
    dryRun := dryRun.getD proposal.dryRunDefault
    sourceChannelId := proposal.sourceChannelId
    sourceThreadId := proposal.sourceThreadId
    sourceMessageId := proposal.sourceMessageId
    extra := proposal.extra
    issueAutoCreatePlan := proposal.issueAutoCreatePlan
    existingIssueNumber := proposal.existingIssueNumber }

/-! ## Dispatch -/

/-- The orders of a session that are in flight. -/
def activeOrders (q : JobQueue) (sessionId : String) : List Job :=
  (q.listForSession sessionId activeStates).filter fun job => job.jobType == jobTypeGithubWorkOrder

/-- `find_active_work_order`: the proposal, the source message, the first one. -/
def findActiveWorkOrder (q : JobQueue) (sessionId proposalId : String)
    (sourceMessageId : Option Int) : Option Job :=
  if sessionId = "" then none
  else
    let candidates := activeOrders q sessionId
    let sameProposal :=
      if proposalId = "" then none
      else candidates.find? fun job => job.payload.strOr "proposal_id" "" == proposalId
    let sameMessage := sourceMessageId.bind fun id =>
      candidates.find? fun job => (job.payload.getJson "source_message_id").toInt? == some id
    (sameProposal.or sameMessage).or candidates.head?

/-- `GitHubWorkOrderDispatchOutcome`. -/
structure DispatchOutcome where
  job : Option Job
  workOrder : GitHubWorkOrder
  skippedReason : Option String := none

/-- The insert of `dispatch_github_work_order`. -/
def insert (order : GitHubWorkOrder) (jobId : String) (now : Time) : JobQueue.EnqueueArgs where
  jobId := jobId
  sessionId := order.sessionId
  jobType := jobTypeGithubWorkOrder
  payload := order.toPayload
  now := now

/-- `dispatch_github_work_order`. -/
def dispatchGithubWorkOrder (q : JobQueue) (order : GitHubWorkOrder) (jobId : String) (now : Time) :
    Except QueueError (DispatchOutcome × JobQueue) :=
  if order.sessionId = "" then .error (.valueError "GitHubWorkOrder.session_id is required")
  else if PyText.strip order.approvalId = "" then
    .ok ({ job := none, workOrder := order, skippedReason := some skippedAwaitingApproval }, q)
  else
    match findActiveWorkOrder q order.sessionId order.proposalId order.sourceMessageId with
    | some existing =>
      .ok ({ job := some existing, workOrder := order, skippedReason := some skippedDuplicate }, q)
    | none => do
      let (job, q') ← q.enqueue (insert order jobId now)
      .ok ({ job := some job, workOrder := order }, q')

/-! ## From the card to the order -/

/-- `GitHubWorkApprovalReplyOutcome`. -/
structure GitHubWorkApprovalReplyOutcome where
  workOrder : Option GitHubWorkOrder
  dispatchedJobId : Option String := none
  skippedReason : Option String := none

/-- The order of an approval card, or why there is none. -/
def workOrderOf (request : ApprovalReply.ApprovalRequest) (approvalId approvedBy : String)
    (approvedAt : Option String) (dryRun : Option Bool) (utcNow : String) :
    Except String GitHubWorkOrder :=
  if request.approvalKind ≠ approvalKindEngineeringWrite then .error "approval_kind_mismatch"
  else
    match request.extra.getJson "github_work_order_proposal" with
    | .obj payload =>
      match GitHubWorkOrderProposal.fromPayload payload with
      | .error name => .error ("proposal_parse_error:" ++ name)
      | .ok proposal =>
        .ok (GitHubWorkOrder.fromProposal proposal approvalId approvedBy approvedAt dryRun utcNow)
    | _ => .error "proposal_payload_missing"

/-- `handle_github_work_approval_reply`. -/
def handleGithubWorkApprovalReply (q : JobQueue) (request : ApprovalReply.ApprovalRequest)
    (approvalId approvedBy : String) (approvedAt : Option String) (dryRun : Option Bool)
    (utcNow jobId : String) (now : Time) :
    Except QueueError (GitHubWorkApprovalReplyOutcome × JobQueue) :=
  match workOrderOf request approvalId approvedBy approvedAt dryRun utcNow with
  | .error reason => .ok ({ workOrder := none, skippedReason := some reason }, q)
  | .ok order => do
    let (outcome, q') ← dispatchGithubWorkOrder q order jobId now
    .ok ({ workOrder := some order
           dispatchedJobId := if outcome.skippedReason.isSome then none else outcome.job.map Job.jobId
           skippedReason := outcome.skippedReason }, q')

/-! ## What the dedup looks at -/

/-- **An order is held back exactly when its session has an order in flight.** -/
theorem findActiveWorkOrder_eq_none_iff {q : JobQueue} {sessionId proposalId : String}
    {sourceMessageId : Option Int} (hs : sessionId ≠ "") :
    findActiveWorkOrder q sessionId proposalId sourceMessageId = none
      ↔ activeOrders q sessionId = [] := by
  rw [findActiveWorkOrder, if_neg hs]
  dsimp only
  rw [Option.or_eq_none_iff, List.head?_eq_none_iff]
  refine ⟨fun h => h.2, fun h => ⟨?_, h⟩⟩
  rw [h]
  cases sourceMessageId <;> simp

/-- **An order is dispatched exactly when it inserts its row.** -/
theorem dispatchGithubWorkOrder_queue {q : JobQueue} {order : GitHubWorkOrder} {jobId : String}
    {now : Time} {outcome : DispatchOutcome} {q' : JobQueue}
    (h : dispatchGithubWorkOrder q order jobId now = .ok (outcome, q')) :
    (outcome.skippedReason.isSome ∧ q' = q) ∨
      (outcome.skippedReason = none ∧ activeOrders q order.sessionId = [] ∧
        ∃ job, outcome.job = some job ∧ q.enqueue (insert order jobId now) = .ok (job, q')) := by
  rw [dispatchGithubWorkOrder] at h
  split at h
  · cases h
  · next hsession =>
    split at h
    · cases h
      exact .inl ⟨rfl, rfl⟩
    · split at h
      · cases h
        exact .inl ⟨rfl, rfl⟩
      · next hnone =>
        cases hq : q.enqueue (insert order jobId now) with
        | error e =>
          rw [hq] at h
          cases h
        | ok out =>
          obtain ⟨job, queue⟩ := out
          rw [hq] at h
          cases h
          exact .inr ⟨rfl, (findActiveWorkOrder_eq_none_iff hsession).mp hnone, job, rfl, rfl⟩

end WorkOrder

end ForgeKit
