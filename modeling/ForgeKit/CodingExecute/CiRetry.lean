import ForgeKit.CodingExecute.CiStatus
import ForgeKit.CodingExecute.Dispatcher

/-!
# The CI retry orchestrator (`ci_retry_orchestrator.py`, `completion_hook.py`)

One poll of a pull request: read the log, append to it, decide, and on `should_retry` enqueue a
fresh `coding_execute` row under a bumped branch. The log grows on every poll, whatever the
verdict; the requeue goes past `find_active`, since the bumped branch is another key.

The identifiers and times that the audit entry is stamped with are inputs.
-/

namespace ForgeKit

/-! ## `completion_hook.py` and the audit list of `agent_ops_log.py` -/

namespace CompletionHook

/-- `SESSION_EXTRA_KEY` of the audit list. -/
def auditKey : String := "agent_ops_audit"

/-- One worker job's terminal outcome. -/
structure JobCompletionEvent where
  jobId : String
  jobType : String
  sessionId : String
  status : String
  reason : String

/-- What `build_agent_ops_entry` draws fresh. -/
structure AuditStamp where
  entryId : String
  decisionId : String
  recordedAt : String

/-- `normalise_completion_status`. -/
def normaliseCompletionStatus (value : String) : String :=
  let raw := PyText.lower (PyText.strip value)
  if raw ∈ ["done", "saved", "completed", "ok", "success"] then "done"
  else if raw ∈ ["retry_ready", "failed_retryable", "retry", "transient"] then "retry_ready"
  else if raw ∈ ["needs_approval", "pending_approval", "approval_required"] then "needs_approval"
  else "blocked"

/-- `_action_for_status`. -/
def actionForStatus (status : String) : String :=
  if status = "done" ∨ status = "retry_ready" then "forum_handoff_decision"
  else "failure_audit_record"

/-- `_default_reason_for`. -/
def defaultReasonFor (status : String) : String :=
  if status = "done" then "L1 — job completed; next-task selector eligible"
  else if status = "retry_ready" then "L1 — transient failure; same source retry eligible"
  else if status = "needs_approval" then "L1 — job awaiting human approval; selector deferred"
  else "L1 — job blocked; operator surface notified"

/-- `_summary_for_event`. -/
def summaryForEvent (event : JobCompletionEvent) (status : String) : String :=
  let base := event.jobType ++ " 완료 (status=" ++ status ++ ")"
  if event.reason ≠ "" then base ++ " — " ++ event.reason else base

/-- `_optional_str`, of a text. -/
def optionalStr (text : String) : Json :=
  if PyText.strip text ≠ "" then .str (PyText.strip text) else .null

/-- The payload of the entry that `record_completion` appends; both actions are of level L1. -/
def auditEntry (event : JobCompletionEvent) (stamp : AuditStamp) : Dict Json :=
  let status := normaliseCompletionStatus event.status
  let reason := PyText.strip
    (if event.reason ≠ "" then event.reason else defaultReasonFor status)
  let decided := if reason ≠ "" then reason
    else if actionForStatus status = "failure_audit_record" then "L1 — 실패 audit, audit 필수"
    else "L1 — 운영-리서치 thread 저장 dispatch 결정 audit"
  [("entry_id", .str stamp.entryId),
   ("session_id", .str event.sessionId),
   ("action", .str (actionForStatus status)),
   ("autonomy_level", .str "L1_AUTO_RECORD_REQUIRED"),
   ("summary", .str (PyText.strip (summaryForEvent event status))),
   ("reasoning", .str decided),
   ("outcome", .str (PyText.strip ("job_completion:" ++ status ++ ":" ++ event.jobType))),
   ("references", .arr []),
   ("topic_key", .null),
   ("job_id", optionalStr event.jobId),
   ("decision_id", optionalStr stamp.decisionId),
   ("actor", .str "engineering-agent"),
   ("recorded_at", .str stamp.recordedAt)]

/-- The last `n` elements. -/
def lastN {α : Type} (n : Nat) (xs : List α) : List α := xs.drop (xs.length - n)

/-- `append_agent_ops_audit`, with its cap of 200 entries. -/
def appendAgentOpsAudit (extra : Dict Json) (entry : Dict Json) : Dict Json :=
  let existing := match extra.getJson auditKey with
    | .arr xs => xs.filter fun x => x.obj?.isSome
    | _ => []
  extra.set auditKey (.arr (lastN 200 (existing ++ [.obj entry])))

/-- `record_completion`: the new `extra`. -/
def recordCompletion (event : JobCompletionEvent) (extra : Dict Json) (stamp : AuditStamp) :
    Dict Json := appendAgentOpsAudit extra (auditEntry event stamp)

end CompletionHook

/-! ## `ci_retry_orchestrator.py` -/

namespace CiRetry

open Dispatcher CompletionHook

/-- `SESSION_EXTRA_PROGRESS_KEY` of this module. -/
def progressKey : String := "coding_execute_progress"

/-- `_append_progress`, with its cap of 50 entries. -/
def appendProgress (extra : Dict Json) (prNumber : Int) (headSha completionStatus reason : String)
    (attemptCount : Int) (polledAt : String) : Dict Json :=
  let history := ((extra.getJson progressKey).arr?).getD []
  let entry : Json := .obj
    [("pr_number", .int prNumber),
     ("head_sha", .str headSha),
     ("completion_status", .str completionStatus),
     ("reason", .str reason),
     ("attempt_count", .int attemptCount),
     ("at", .str polledAt)]
  extra.set progressKey (.arr (lastN 50 (history ++ [entry])))

/-- `_bump_branch_hint`: the branch of the next attempt, numbered by the progress history. -/
def bumpBranchHint (request : CodingExecuteRequest) (session : WorkflowSession) :
    CodingExecuteRequest :=
  let attempts := match session.extra.getJson progressKey with
    | .arr history => max 1 (history.length + 1)
    | _ => 1
  if request.branchHint = "" then
    { request with
      branchHint := "agent/" ++ request.executorRole ++ "/retry-" ++ toString attempts }
  else
    { request with
      branchHint := PyText.rsplitHead request.branchHint "-attempt" ++ "-attempt"
        ++ toString attempts }

/-- The request that `_requeue_coding_execute` enqueues; `none` when the builder raises. -/
def requeueRequest (session : WorkflowSession) (codingJob : Dict Json) (env : Env) :
    Option CodingExecuteRequest :=
  (buildCodingExecuteRequest (ReadyCodingJob.of session codingJob) env).map fun request =>
    bumpBranchHint request session

/-- `_requeue_coding_execute`: the job id, if the call did not raise, and the tables. -/
def requeueCodingExecute (q : JobQueue) (session : WorkflowSession) (codingJob : Dict Json)
    (env : Env) (jobId : String) (now : Time) : Option String × JobQueue :=
  match requeueRequest session codingJob env with
  | none => (none, q)
  | some request =>
    match CodingExecutorWorker.enqueue q { request } jobId now with
    | .error _ => (none, q)
    | .ok ((job, _), q') => (some job.jobId, q')

/-- What one poll gets from outside: the fetched status, the policy and the clock. -/
structure PollArgs where
  prNumber : Int
  headSha : String
  status : CIStatus
  policy : CIRetryPolicy := {}
  env : Env := {}
  /-- The id of a row that is inserted, and the clock as a number and as a text. -/
  jobId : String
  now : Time
  polledAt : String
  stamp : AuditStamp

/-- `CIRetryDecision`. -/
structure CIRetryDecision where
  prNumber : Int
  headSha : String
  completionStatus : String
  reason : String
  attemptCount : Int
  maxAttempts : Int
  waitSeconds : ℚ
  requeuedJobId : Option String
  auditEntryId : Option String

/-- The reason that a poll leaves in the log. -/
def attemptReason (status : CIStatus) : String :=
  if status.conclusion.isFailure then "ci_failure" else status.conclusion.value

/-- The `coding_job` mapping, empty when there is none. -/
def codingJobOf (session : WorkflowSession) : Dict Json := (readCodingJob session).getD []

/-- The statuses that are funnelled through the completion hook. -/
def terminalStatuses : List String := ["done", "blocked", "needs_approval"]

/-- The event for the completion hook. -/
def completionEvent (session : WorkflowSession) (completionStatus reason : String) :
    JobCompletionEvent where
  jobId := (codingJobOf session).strOr "session_id" session.sessionId
  jobType := "coding_execute"
  sessionId :=
    if session.sessionId ≠ "" then session.sessionId
    else (codingJobOf session).strOr "session_id" ""
  status := completionStatus
  reason := reason

/--
`orchestrate_ci_retry`: one poll. The log is read before this poll is appended to it, and the
request is built from the session as it was.
-/
def orchestrateCiRetry (q : JobQueue) (session : WorkflowSession) (a : PollArgs) :
    Option (CIRetryDecision × JobQueue × WorkflowSession) := do
  -- every poll is recorded, whatever it found, and the verdict sees the log before that
  let log ← readRetryLog session.extra a.prNumber
  let recorded ←
    recordRetryAttempt session.extra a.prNumber a.headSha (attemptReason a.status) a.polledAt
  let verdict := decideRetry a.status log a.policy
  let completionStatus := deriveCompletionStatusFromCi a.status log a.policy
  let progressed := appendProgress recorded a.prNumber a.headSha completionStatus verdict.reason
    (log.attempts + 1) a.polledAt
  let requeued :=
    if verdict.shouldRetry then
      requeueCodingExecute q session (codingJobOf session) a.env a.jobId a.now
    else (none, q)
  -- without its marker the session is ready for the dispatcher again
  let unmarked := if requeued.1.isSome then progressed.pop sessionExtraDispatchKey else progressed
  let terminal := terminalStatuses.contains completionStatus
  let finished :=
    if terminal then
      recordCompletion (completionEvent session completionStatus verdict.reason) unmarked a.stamp
    else unmarked
  return (
    { prNumber := a.prNumber, headSha := a.headSha, completionStatus, reason := verdict.reason
      attemptCount := log.attempts + 1, maxAttempts := a.policy.maxAttempts
      waitSeconds := verdict.waitSeconds, requeuedJobId := requeued.1
      auditEntryId := if terminal then some a.stamp.entryId else none },
    requeued.2, { session with extra := finished })

/-! ## What a poll leaves in the retry log -/

/-- A poll that can read the log goes through, and the log it leaves is the recorded one. -/
theorem orchestrateCiRetry_of_log {q : JobQueue} {session : WorkflowSession} {a : PollArgs}
    {log : RetryAttemptLog} (hlog : readRetryLog session.extra a.prNumber = some log) :
    ∃ d q' session' recorded, orchestrateCiRetry q session a = some (d, q', session')
      ∧ d.completionStatus = deriveCompletionStatusFromCi a.status log a.policy
      ∧ recordRetryAttempt session.extra a.prNumber a.headSha (attemptReason a.status) a.polledAt
        = some recorded
      ∧ session'.extra.getJson retryLogKey = recorded.getJson retryLogKey := by
  obtain ⟨recorded, hrec⟩ : ∃ recorded, recordRetryAttempt session.extra a.prNumber a.headSha
      (attemptReason a.status) a.polledAt = some recorded := by simp [recordRetryAttempt, hlog]
  refine ⟨_, _, _, recorded, by simp only [orchestrateCiRetry, hlog, hrec]; rfl, rfl, hrec, ?_⟩
  -- what happens after the record is written is about other keys
  have hfinished : ∀ (c : Prop) [Decidable c] (event : JobCompletionEvent) (e : Dict Json),
      (if c then recordCompletion event e a.stamp else e).getJson retryLogKey
        = e.getJson retryLogKey := by
    intro c _ event e
    split
    · exact Dict.getJson_set_ne _ _ (by decide)
    · rfl
  have hunmarked : ∀ (c : Prop) [Decidable c] (e : Dict Json),
      (if c then e.pop sessionExtraDispatchKey else e).getJson retryLogKey
        = e.getJson retryLogKey := by
    intro c _ e
    split
    · exact Dict.getJson_pop_ne _ (by decide)
    · rfl
  rw [hfinished, hunmarked]
  exact Dict.getJson_set_ne _ _ (by decide)

end CiRetry

end ForgeKit
