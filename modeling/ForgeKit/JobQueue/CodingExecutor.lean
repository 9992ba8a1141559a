import ForgeKit.JobQueue.StoreSpec

/-!
# The producer side of `CodingExecutorWorker`

`enqueue` looks for an active row (`findActive`) and inserts one when there is none. The two
are separate transactions; between them anybody may insert.
-/

namespace ForgeKit

/-- `JOB_TYPE_CODING_EXECUTE`. -/
def jobTypeCodingExecute : String := "coding_execute"

/-- The payload of a `coding_execute` row. -/
structure CodingExecuteRequest where
  sessionId : String
  executorRole : String
  userRequest : String
  generatedPrompt : String
  writeScope : List String
  forbiddenScope : List String
  safetyRules : List String
  baseBranch : String := "main"
  branchHint : String := ""
  repoFullName : String := ""
  issueNumber : Option Int := none
  dryRun : Bool := true
  metadata : Dict Json := []

/-- `to_payload`. -/
def CodingExecuteRequest.toPayload (r : CodingExecuteRequest) : Dict Json :=
  [("session_id", .str r.sessionId),
   ("executor_role", .str r.executorRole),
   ("user_request", .str r.userRequest),
   ("generated_prompt", .str r.generatedPrompt),
   ("write_scope", .arr (r.writeScope.map Json.str)),
   ("forbidden_scope", .arr (r.forbiddenScope.map Json.str)),
   ("safety_rules", .arr (r.safetyRules.map Json.str)),
   ("base_branch", .str r.baseBranch),
   ("branch_hint", .str r.branchHint),
   ("repo_full_name", .str r.repoFullName),
   ("issue_number", (r.issueNumber.map Json.int).getD .null),
   ("dry_run", .bool r.dryRun),
   ("metadata", .obj r.metadata)]

namespace CodingExecutorWorker

/-- `_ACTIVE_STATES`, a hand-written subset of the non-terminal states. -/
def activeStates : List JobState :=
  [.queued, .assigned, .inProgress, .pendingApproval, .readyForObsidian]

/-- The row that `find_active` looks for. -/
def isActiveFor (executorRole branchHint : String) (r : Job) : Bool :=
  r.jobType == jobTypeCodingExecute
    && r.payload.strOr "executor_role" "" == executorRole
    && (branchHint == "" || r.payload.strOr "branch_hint" "" == branchHint)
    && activeStates.contains r.state

/-- `find_active`. An empty `branch_hint` matches every branch. -/
def findActive (q : JobQueue) (sessionId executorRole : String) (branchHint : String := "") :
    Option Job :=
  if sessionId = "" || executorRole = "" then none
  else (q.listForSession sessionId).find? (isActiveFor executorRole branchHint)

/-- The arguments of `CodingExecutorWorker.enqueue`, without the clock. -/
structure EnqueueArgs where
  request : CodingExecuteRequest
  priority : Int := 0
  maxAttempts : Int := 1

/-- The insert that `enqueue` makes when it found no active row. -/
def EnqueueArgs.insert (a : EnqueueArgs) (jobId : String) (now : Time) : JobQueue.EnqueueArgs where
  jobId := jobId
  sessionId := a.request.sessionId
  jobType := jobTypeCodingExecute
  role := some a.request.executorRole
  payload := a.request.toPayload
  priority := a.priority
  maxAttempts := a.maxAttempts
  now := now

/-- The first transaction of `enqueue`: the row it returns, or none when it goes on to insert. -/
def enqueueRead (q : JobQueue) (a : EnqueueArgs) : Except QueueError (Option Job) :=
  if a.request.sessionId = "" || a.request.executorRole = "" then
    .error (.valueError "session_id + executor_role required")
  else .ok (findActive q a.request.sessionId a.request.executorRole a.request.branchHint)

/-- `enqueue` with nothing between its two transactions: `(job, created)` and the tables. -/
def enqueue (q : JobQueue) (a : EnqueueArgs) (jobId : String) (now : Time) :
    Except QueueError ((Job × Bool) × JobQueue) := do
  match ← enqueueRead q a with
  | some existing => .ok ((existing, false), q)
  | none =>
    let (job, q') ← q.enqueue (a.insert jobId now)
    .ok ((job, true), q')

/-- The insert that an `enqueue` call comes to, unless it finds an active row or refuses. -/
def insert? (q : JobQueue) (a : EnqueueArgs) (jobId : String) (now : Time) :
    Option JobQueue.EnqueueArgs :=
  match enqueueRead q a with
  | .ok none => some (a.insert jobId now)
  | _ => none

/-- An `enqueue` call is the `enqueue` of the queue on that insert, or nothing. -/
theorem commit_enqueue (q : JobQueue) (a : EnqueueArgs) (jobId : String) (now : Time) :
    q.commit (enqueue q a jobId now) = match insert? q a jobId now with
      | some args => q.commit (q.enqueue args)
      | none => q := by
  unfold enqueue insert?
  cases hr : enqueueRead q a with
  | error e => rfl
  | ok found =>
    cases found with
    | some existing => rfl
    | none =>
      simp only [bind, Except.bind]
      cases q.enqueue (a.insert jobId now) <;> rfl

end CodingExecutorWorker

end ForgeKit
