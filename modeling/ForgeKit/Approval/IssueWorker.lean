import ForgeKit.Approval.WorkOrder
import ForgeKit.JobQueue.StoreSpec
import ForgeKit.Lib.Machine

/-!
# The worker that creates the issues (`github_work_order_executor.py`)

`GitHubWorkOrderWorker` picks a `github_work_order` row, takes it to `in_progress`, asks the writer
for an issue and saves the row. `process_job` is cut where a crash makes a difference: before the
call of the writer, and between the writer's answer and the `saved` transition. A desk holds the
queue, what each worker is doing, and the issues that GitHub has created.

* `DeskStep` — replies, workers, crashes, the reaper, requeues, and anybody else on the queue
* `OneIssuePerCard` — one row and one issue for each approval card
-/

namespace ForgeKit

namespace WorkOrder

/-! ## `process_job` -/

/-- What `process_job` asks of the session, the plan recovery and the writer factory. -/
structure WorkerDeps where
  /-- `_recover_repo_for_work_order`. -/
  recoverRepo : GitHubWorkOrder → Option String
  /-- `_recover_plan_from_work_order`. -/
  recoverPlan : GitHubWorkOrder → Option (Dict Json)
  /-- `writer_factory`: the autonomy level when there is a writer. -/
  writer : GitHubWorkOrder → Option String
  /-- Whether `_continue_to_coding` promoted the session, and its noop reason. -/
  continuation : GitHubWorkOrder → Dict Json → Bool × Option String
  /-- `type(exc).__name__` for a payload that cannot be read. -/
  parseError : Dict Json → String

/-- The arguments of `create_issue`. -/
structure CreateIssueCall where
  repo : String
  title : String
  body : String
  labels : List String
  assignees : List String
  autonomyLevel : String
  sessionId : String
  decisionId : Option String

/-- What `create_issue` comes back with. -/
inductive WriterAnswer where
  | raised
  | returned (succeeded : Bool) (outcome : String) (body : Dict Json)

/-- Where a run of `process_job` stands. -/
inductive WorkStage where
  | picked
  /-- About to call the writer. -/
  | creating (order : GitHubWorkOrder) (call : CreateIssueCall)
  /-- About to save the row with this result. -/
  | closing (result : Dict Json)

/-- `tuple(str(l) for l in (plan.get(key) or ()))`; `none` is the `TypeError`. -/
def planTexts (plan : Dict Json) (key : String) : Option (List String) :=
  (plan.getJson key).items?.map fun items => items.map Json.toStr

/-- The call that `_execute_auto_create` makes; `none` when it raises before. -/
def createIssueCall (order : GitHubWorkOrder) (plan : Dict Json) (autonomyLevel : String) :
    Option CreateIssueCall := do
  let labels ← planTexts plan "labels"
  let assignees ← planTexts plan "assignees"
  return {
    repo := order.repo.getD ""
    title := PyText.strip (plan.strOr "title" "")
    body := PyText.strip (plan.strOr "body" "")
    labels := labels
    assignees := assignees
    autonomyLevel := if autonomyLevel = "" then "L2" else autonomyLevel
    sessionId := order.sessionId
    decisionId := if order.proposalId = "" then none else some order.proposalId }

/-- The result of `_stamp_existing_anchor`. -/
def existingResult (deps : WorkerDeps) (order : GitHubWorkOrder) (issueNumber : Int) : Dict Json :=
  let anchor : Dict Json :=
    [("issue_number", .int issueNumber), ("created_via", .str "existing_anchor")]
  let (promoted, noop) := deps.continuation order anchor
  [("created_via", .str "existing_anchor"), ("issue_number", .int issueNumber),
   ("skipped_reason", .str "github_work_order_existing_anchor"),
   ("coding_dispatch_queued", .bool promoted), ("coding_dispatch_noop_reason", optText noop)]

/-- The result of `_execute_auto_create` after the writer's answer. -/
def createdResult (deps : WorkerDeps) (order : GitHubWorkOrder) (succeeded : Bool)
    (outcome : String) (body : Dict Json) : Dict Json :=
  let real := succeeded || outcome == "ok"
  let issueNumber := if real then (body.getJson "number").toInt? else none
  let issueUrl : Json :=
    if real then
      let url := (body.getJson "html_url").orElse (body.getJson "url")
      if url.truthy then url else .null
    else .null
  let createdVia := if succeeded then "auto_create" else "dry_run_plan"
  let anchor : Dict Json := [("issue_number", optInt issueNumber), ("html_url", issueUrl),
    ("created_via", .str createdVia)]
  let (promoted, noop) := deps.continuation order anchor
  [("created_via", .str createdVia), ("issue_number", optInt issueNumber), ("issue_url", issueUrl),
   ("outcome", .str outcome),
   ("skipped_reason",
     optText (if succeeded then none else some "github_work_order_dry_run_plan_only")),
   ("coding_dispatch_queued", .bool promoted), ("coding_dispatch_noop_reason", optText noop)]

/-- The repository of the order, recovered when it is blank. -/
def repoOf (deps : WorkerDeps) (order : GitHubWorkOrder) : Option GitHubWorkOrder :=
  if PyText.strip (order.repo.getD "") = "" then
    match deps.recoverRepo order with
    | some repo => if repo = "" then none else some { order with repo := some repo }
    | none => none
  else some order

/-- The plan of the order, recovered when it is empty. -/
def planOf (deps : WorkerDeps) (order : GitHubWorkOrder) : Option (Dict Json) :=
  match order.issueAutoCreatePlan with
  | some plan => if plan.isEmpty then deps.recoverPlan order else some plan
  | none => deps.recoverPlan order

/--
`process_job` up to the writer: the stage it gets to on a row that is in progress, or the error it
gives up with. An error is `none` when the call raises without a transition.
-/
def stageOf (deps : WorkerDeps) (payload : Dict Json) : Except (Option String) WorkStage :=
  match GitHubWorkOrder.fromPayload payload with
  | none => .error (some ("payload_parse_error:" ++ deps.parseError payload))
  | some order =>
    match repoOf deps order with
    | none => .error (some "github_work_order_no_repo")
    | some order =>
      let existing := order.existingIssueNumber.getD 0
      if 0 < existing then .ok (.closing (existingResult deps order existing))
      else
        match planOf deps order with
        | none => .error (some "github_work_order_missing_plan_or_issue")
        | some plan =>
          match deps.writer order with
          | none => .error (some "github_work_order_no_writer")
          | some autonomyLevel =>
            match createIssueCall order plan autonomyLevel with
            | none => .error none
            | some call => .ok (.creating order call)

/-! ## The desk -/

/-- A run of `process_job` that is under way. -/
structure Running where
  job : Job
  stage : WorkStage

/-- A `create_issue` that succeeded, with the row and the card it was for. -/
structure CreatedIssue where
  jobId : String
  approvalId : String
deriving DecidableEq, Repr

structure IssueDesk where
  queue : JobQueue
  /-- The run of each worker. -/
  running : String → Option Running
  issues : List CreatedIssue

/-- An approving reply, with the id that a new row gets. -/
structure ApprovingReply where
  approvedBy : String
  approvedAt : Option String := none
  dryRun : Option Bool := none
  utcNow : String
  jobId : String
  now : Time

inductive DeskStep where
  /-- Any producer of other rows. -/
  | enqueue (args : JobQueue.EnqueueArgs)
  /-- Any other caller of `transition`. -/
  | transition (args : JobQueue.TransitionArgs)
  /-- An approving reply to a posted card. -/
  | approve (card : String) (reply : ApprovingReply)
  /-- The four parts of `run_one`. -/
  | pick (worker : String) (now : Time)
  | start (worker : String) (now : Time)
  | createIssue (worker : String) (answer : WriterAnswer)
  | finish (worker : String) (now : Time)
  | crash (worker : String)
  | reap (now : Time)
  | requeue (jobId : String) (backoffSeconds : ℚ) (now : Time)

namespace IssueDesk

def empty : IssueDesk := ⟨.empty, fun _ => none, []⟩

/-- The run of a worker is replaced. -/
def setRunning (s : IssueDesk) (worker : String) (r : Option Running) : IssueDesk :=
  { s with running := fun w => if w = worker then r else s.running w }

/-- The order of a reply to a card that was posted. -/
def approvedOrder (s : IssueDesk) (card : String) (reply : ApprovingReply) : Option GitHubWorkOrder :=
  match s.queue.get card with
  | none => none
  | some row =>
    if row.state = .saved ∧ row.jobType = Supersede.jobTypeApprovalPost then
      (ApprovalReply.ApprovalRequest.fromPayload row.payload).bind fun request =>
        (workOrderOf request row.jobId reply.approvedBy reply.approvedAt reply.dryRun
          reply.utcNow).toOption
    else none

/-- The queue after `process_job` gave up on a row. -/
def giveUp (q : JobQueue) (jobId error : String) (now : Time) : JobQueue :=
  q.commit (q.transition { jobId := jobId, target := .failedRetryable
                           result := some [("error", .str error)], clearLease := true, now := now })

/-- `process_job` of a worker on the row it picked, up to the call of the writer. -/
def start (deps : WorkerDeps) (s : IssueDesk) (worker : String) (job : Job) (now : Time) :
    IssueDesk :=
  match s.queue.transition { jobId := job.jobId, target := .inProgress, now := now } with
  | .error _ => s.setRunning worker none
  | .ok (job, q) =>
    match stageOf deps job.payload with
    | .ok stage => { s.setRunning worker (some ⟨job, stage⟩) with queue := q }
    | .error none => { s.setRunning worker none with queue := q }
    | .error (some error) =>
      { s.setRunning worker none with queue := giveUp q job.jobId error now }

/-- The writer's answer to a worker that called it. -/
def createIssue (deps : WorkerDeps) (s : IssueDesk) (worker : String) (job : Job)
    (order : GitHubWorkOrder) : WriterAnswer → IssueDesk
  | .raised => s.setRunning worker none
  | .returned succeeded outcome body =>
    { s.setRunning worker
        (some ⟨job, .closing (createdResult deps order succeeded outcome body)⟩) with
      issues := if succeeded then s.issues ++ [⟨job.jobId, order.approvalId⟩] else s.issues }

/-- One step. A worker takes a step only where its run stands at it. -/
def step (deps : WorkerDeps) (s : IssueDesk) : DeskStep → IssueDesk
  | .enqueue args =>
    if args.jobType = jobTypeGithubWorkOrder then s
    else { s with queue := s.queue.commit (s.queue.enqueue args) }
  | .transition args => { s with queue := s.queue.commit (s.queue.transition args) }
  | .approve card reply =>
    match s.approvedOrder card reply with
    | none => s
    | some order =>
      { s with queue := s.queue.commit (dispatchGithubWorkOrder s.queue order reply.jobId reply.now) }
  | .pick worker now =>
    match s.running worker with
    | some _ => s
    | none =>
      match s.queue.pick { workerId := worker, jobTypes := [jobTypeGithubWorkOrder], now := now } with
      | .ok (some job, q) => { s.setRunning worker (some ⟨job, .picked⟩) with queue := q }
      | .ok (none, q) => { s with queue := q }
      | .error _ => s
  | .start worker now =>
    match s.running worker with
    | some ⟨job, .picked⟩ => s.start deps worker job now
    | _ => s
  | .createIssue worker answer =>
    match s.running worker with
    | some ⟨job, .creating order _⟩ => s.createIssue deps worker job order answer
    | _ => s
  | .finish worker now =>
    match s.running worker with
    | some ⟨job, .closing result⟩ =>
      { s.setRunning worker none with
        queue := s.queue.commit (s.queue.transition
          { jobId := job.jobId, target := .saved, result := some result, clearLease := true
            now := now }) }
    | _ => s
  | .crash worker => s.setRunning worker none
  | .reap now => { s with queue := (s.queue.reapExpiredLeases now).2 }
  | .requeue jobId backoffSeconds now =>
    { s with queue := s.queue.commit (s.queue.requeueRetryable jobId backoffSeconds now) }

/-! ## One issue for each card -/

/-- The card that a work-order row carries. -/
def cardOf (r : Job) : Option String :=
  if r.jobType = jobTypeGithubWorkOrder then some (r.payload.strOr "approval_id" "") else none

/-- At most one work-order row carries a card's id, and one issue at most was created for it. -/
structure OneIssuePerCard (s : IssueDesk) : Prop where
  rows : ∀ k k' r r' card, s.queue.get k = some r → s.queue.get k' = some r' →
    cardOf r = some card → cardOf r' = some card → k = k'
  issues : (s.issues.map (·.approvalId)).Nodup

end IssueDesk

end WorkOrder

end ForgeKit
