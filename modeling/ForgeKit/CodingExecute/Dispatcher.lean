import ForgeKit.JobQueue.CodingExecutor

/-!
# The producer of coding jobs (`coding_execute_dispatcher.py`)

A session whose `coding_job` is `ready` gets one `coding_execute` row. The dispatcher looks at
the marker it left in `session.extra`, asks the queue about the row behind it, and hands a
request to `CodingExecutorWorker.enqueue` when the marker says nothing. The two checks look at
different things: the marker at one job id, the worker at session, role and branch.

`none` in the result of `buildCodingExecuteRequest` is the exception of a malformed `coding_job`.
-/

namespace ForgeKit

/-- The fields of a `WorkflowSession` that the coding loop reads. -/
structure WorkflowSession where
  sessionId : String
  prompt : String := ""
  extra : Dict Json := []

namespace Dispatcher

def sessionExtraDispatchKey : String := "coding_execute_dispatch"

def sessionExtraCodingJobKey : String := "coding_job"

/-- The progress bucket of `work_order_coding_continuation.py`, and the marker stamped there. -/
def sessionExtraProgressKey : String := "github_work_order_progress"

def progressCodingDispatchQueued : String := "coding_dispatch_queued"

def defaultBaseBranch : String := "main"

def readyStatuses : List String := ["ready"]

/-- The three environment defaults. -/
structure Env where
  repo : Option String := none
  baseBranch : Option String := none
  dryRun : Option String := none

/-! ## The dispatch marker -/

/-- `DispatchMarkerCheck.state`. -/
inductive MarkerState where
  | valid
  | missing
  | stale
  | pendingRetry
  | terminal
deriving DecidableEq, Repr

/-- The outcome of `validate_coding_dispatch_marker`. -/
structure MarkerCheck where
  state : MarkerState
  reason : Option String := none
  markerJobId : Option String := none
deriving DecidableEq, Repr

/-- `_ACTIVE_DISPATCH_STATES`. -/
def activeDispatchStates : List JobState :=
  [.discovered, .queued, .assigned, .inProgress, .waitingForRole, .researching, .pendingApproval,
   .readyForObsidian]

/-- The verdict on a marker whose row is there. -/
def checkRow (session : WorkflowSession) (jobId : String) (row : Job) : MarkerCheck :=
  let rowType := PyText.strip row.jobType
  let rowSession := PyText.strip row.sessionId
  let sessionId := PyText.strip session.sessionId
  if rowType ≠ "" ∧ rowType ≠ jobTypeCodingExecute then
    { state := .stale, reason := some "marker_wrong_job_type", markerJobId := some jobId }
  else if rowSession ≠ "" ∧ sessionId ≠ "" ∧ rowSession ≠ sessionId then
    { state := .stale, reason := some "marker_wrong_session_id", markerJobId := some jobId }
  else if row.state = .failedRetryable then { state := .pendingRetry, markerJobId := some jobId }
  else if row.state = .saved ∨ row.state = .failedTerminal then
    { state := .terminal, markerJobId := some jobId }
  else if row.state ∉ activeDispatchStates then
    { state := .stale, reason := some "marker_row_terminal_or_inactive",
      markerJobId := some jobId }
  else { state := .valid, markerJobId := some jobId }

/-- `validate_coding_dispatch_marker`. -/
def validateCodingDispatchMarker (session : WorkflowSession) (q : JobQueue) : MarkerCheck :=
  match (session.extra.getJson sessionExtraDispatchKey).obj? with
  | none => { state := .missing }
  | some marker =>
    let jobId := PyText.strip (marker.strOr "job_id" "")
    if jobId = "" then { state := .missing }
    else match q.get jobId with
      | none =>
        { state := .stale, reason := some "marker_job_id_not_in_queue", markerJobId := some jobId }
      | some row => checkRow session jobId row

/-! ## Ready sessions -/

/-- An approved coding job that is ready for dispatch. -/
structure ReadyCodingJob where
  session : WorkflowSession
  codingJob : Dict Json
  sessionId : String

/-- `str(coding_job.get("session_id") or session.session_id)`. -/
def ReadyCodingJob.of (session : WorkflowSession) (codingJob : Dict Json) : ReadyCodingJob :=
  { session, codingJob, sessionId := codingJob.strOr "session_id" session.sessionId }

/-- `executor_role`. -/
def ReadyCodingJob.executorRole (ready : ReadyCodingJob) : String :=
  PyText.strip (ready.codingJob.strOr "executor_role" "")

/-- The producer must not enqueue: the marker points at a row the queue takes care of. -/
def ReadyCodingJob.hasBeenDispatched (ready : ReadyCodingJob) (q : JobQueue) : Bool :=
  match (ready.session.extra.getJson sessionExtraDispatchKey).obj? with
  | none => false
  | some marker =>
    (marker.getJson "job_id").truthy
      && [MarkerState.valid, .pendingRetry, .terminal].contains
        (validateCodingDispatchMarker ready.session q).state

/-- `_read_coding_job`. -/
def readCodingJob (session : WorkflowSession) : Option (Dict Json) :=
  (session.extra.getJson sessionExtraCodingJobKey).obj?

/-- The part of `iter_ready_coding_jobs` that is about one session. -/
def readyJob? (session : WorkflowSession) (q : JobQueue) : Option ReadyCodingJob :=
  match readCodingJob session with
  | none => none
  | some codingJob =>
    let ready := ReadyCodingJob.of session codingJob
    if codingJob.isEmpty then none
    else if PyText.lower (PyText.strip (codingJob.strOr "status" "")) ∉ readyStatuses then none
    else if ready.sessionId = "" ∨ ready.executorRole = "" then none
    else if ready.hasBeenDispatched q then none
    else some ready

/-! ## `build_coding_execute_request` -/

/-- `coding_job.get("metadata") or {}`, when it is a mapping. -/
def metadata? (codingJob : Dict Json) : Option (Dict Json) :=
  ((codingJob.getJson "metadata").orElse (.obj [])).obj?

/-- `_resolve_repo`. -/
def resolveRepo (codingJob : Dict Json) (session : WorkflowSession) (envRepo : Option String) :
    String :=
  let fromMeta := ((metadata? codingJob).map fun m =>
    PyText.strip (m.strOr "repo_full_name" "")).getD ""
  if fromMeta ≠ "" then fromMeta
  else
    let fromAnchor := ((session.extra.getJson "github_work_order_issue").obj?.map fun anchor =>
      PyText.strip (anchor.strOr "repo" "")).getD ""
    if fromAnchor ≠ "" then fromAnchor
    else
      let fromExtra := PyText.strip (session.extra.strOr "coding_repo_full_name" "")
      if fromExtra ≠ "" then fromExtra else PyText.strip (envRepo.getD "")

/-- `_resolve_base_branch`. -/
def resolveBaseBranch (codingJob : Dict Json) (envBase : Option String) : String :=
  let candidate := ((metadata? codingJob).map fun m =>
    PyText.strip (m.strOr "base_branch" "")).getD ""
  if candidate ≠ "" then candidate
  else
    let base := PyText.strip (envBase.getD "")
    if base ≠ "" then base else defaultBaseBranch

/-- `_resolve_dry_run`: the environment wins, then the metadata, then `True`. -/
def resolveDryRun (codingJob : Dict Json) (envDryRun : Option String) : Bool :=
  let metadataDry : Option Bool := (metadata? codingJob).bind fun m =>
    match m.getJson "dry_run" with
    | .null => none
    | raw => some raw.truthy
  let flag := PyText.lower (PyText.strip (envDryRun.getD ""))
  if flag ∈ ["0", "false", "no", "off"] then false
  else if flag ∈ ["1", "true", "yes", "on"] then true
  else metadataDry.getD true

/-- `tuple(str(s).strip() for s in (v or ()) if str(s).strip())`. -/
def textItems (v : Json) : Option (List String) :=
  v.items?.map fun xs => (xs.map fun x => PyText.strip x.toStr).filter (· ≠ "")

/-- `proposal_metadata`, a mapping or not. -/
def proposalMetadata (codingJob : Dict Json) : Json :=
  let proposal : Json := match metadata? codingJob with
    | some m => m.getJson "proposal_metadata"
    | none => .obj []
  proposal.orElse (.obj [])

/-- The issue number: metadata, then the proposal, then the issue anchor of the session. -/
def issueNumber (ready : ReadyCodingJob) : Option Int :=
  let fromMeta := ((metadata? ready.codingJob).map fun m => m.getJson "issue_number").getD .null
  let fromProposal := ((proposalMetadata ready.codingJob).obj?.map fun m =>
    m.getJson "issue_number").getD .null
  match (fromMeta.orElse fromProposal).toInt? with
  | some n => some n
  | none => (ready.session.extra.getJson "github_work_order_issue").obj?.bind fun anchor =>
    (anchor.getJson "issue_number").toInt?

/-- The branch hint: metadata, then the proposal. -/
def branchHint (codingJob : Dict Json) : String :=
  let fromMeta := ((metadata? codingJob).map fun m =>
    PyText.strip (m.strOr "branch_hint" "")).getD ""
  if fromMeta ≠ "" then fromMeta
  else ((proposalMetadata codingJob).obj?.map fun m =>
    PyText.strip (m.strOr "branch_hint" "")).getD ""

/-- The metadata that is handed on to the executor; `none` when `review_roles` is no sequence. -/
def forwardedMetadata (ready : ReadyCodingJob) : Option (Dict Json) := do
  let reviewRoles ← (ready.codingJob.getJson "review_roles").items?
  let known : Dict Json := ["test_command", "executor_runner_id", "review_roles"].foldl
    (fun acc key => match (metadata? ready.codingJob).bind fun m => m.get? key with
      | some value => Dict.set acc key value
      | none => acc) []
  let forwarded : Dict Json :=
    (known.setDefault "approved_at" (ready.codingJob.getJson "approved_at")).setDefault
      "review_roles" (.arr reviewRoles)
  let sliceSpec := match ready.codingJob.getJson "slice_spec" with
    | .null => ready.session.extra.getJson "current_coding_slice"
    | spec => spec
  let forwarded : Dict Json := match sliceSpec with
    | .obj spec => forwarded.set "slice_spec" (.obj spec)
    | _ => forwarded
  let forwarded : Dict Json :=
    if ready.session.prompt ≠ "" then forwarded.set "session_prompt" (.str ready.session.prompt)
    else forwarded
  let workMode := ready.session.extra.getJson "work_mode"
  return if workMode.truthy then forwarded.set "work_mode" (.str workMode.toStr) else forwarded

/-- Translates a ready coding job into a request; `none` when it raises. -/
def buildCodingExecuteRequest (ready : ReadyCodingJob) (env : Env) :
    Option CodingExecuteRequest := do
  let metadata ← forwardedMetadata ready
  let writeScope ← textItems (ready.codingJob.getJson "write_scope")
  let forbiddenScope ← textItems (ready.codingJob.getJson "forbidden_scope")
  let safetyRules ← textItems (ready.codingJob.getJson "safety_rules")
  return {
    sessionId := ready.sessionId
    executorRole := ready.executorRole
    userRequest := ready.codingJob.strOr "user_request" ""
    generatedPrompt := ready.codingJob.strOr "generated_prompt" ""
    writeScope, forbiddenScope, safetyRules
    baseBranch := resolveBaseBranch ready.codingJob env.baseBranch
    branchHint := branchHint ready.codingJob
    repoFullName := resolveRepo ready.codingJob ready.session env.repo
    issueNumber := issueNumber ready
    dryRun := resolveDryRun ready.codingJob env.dryRun
    metadata }

/-! ## `dispatch_ready_coding_jobs` -/

/-- `extra` with the dispatch marker and the progress marker of `_persist_dispatch_marker`. -/
def withDispatchMarker (extra : Dict Json) (jobId : String) (request : CodingExecuteRequest)
    (dispatchedAt : String) : Dict Json :=
  let marked := extra.set sessionExtraDispatchKey
    (.obj [("job_id", .str jobId),
           ("executor_role", .str request.executorRole),
           ("branch_hint", .str request.branchHint),
           ("dispatched_at", .str dispatchedAt),
           ("dry_run", .bool request.dryRun),
           ("repo_full_name", .str request.repoFullName),
           ("base_branch", .str request.baseBranch)])
  let bucket := ((marked.getJson sessionExtraProgressKey).obj?).getD []
  let firstAt := match (bucket.getJson progressCodingDispatchQueued).obj? with
    | some entry => (entry.getJson "at").orElse (.str dispatchedAt)
    | none => .str dispatchedAt
  marked.set sessionExtraProgressKey
    (.obj (bucket.set progressCodingDispatchQueued
      (.obj [("at", firstAt),
             ("detail", .obj [("job_id", .str jobId),
                              ("executor_role", .str request.executorRole),
                              ("repo_full_name", .str request.repoFullName)])])))

/-- The outcome for one session. -/
structure DispatchedCodingJob where
  sessionId : String
  executorRole : String
  jobId : Option String
  created : Bool
  request : Option CodingExecuteRequest := none
  /-- Which step raised, and what the queue said. -/
  error : Option (String × Option QueueError) := none

/-- The body of the loop of `dispatch_ready_coding_jobs`, for one session. -/
def dispatchSession (q : JobQueue) (session : WorkflowSession) (env : Env) (jobId : String)
    (now : Time) (dispatchedAt : String) :
    Option DispatchedCodingJob × JobQueue × WorkflowSession :=
  match readyJob? session q with
  | none => (none, q, session)
  | some ready =>
    match buildCodingExecuteRequest ready env with
    | none =>
      (some { sessionId := ready.sessionId, executorRole := ready.executorRole, jobId := none,
              created := false, error := some ("build_request failed", none) }, q, session)
    | some request =>
      match CodingExecutorWorker.enqueue q { request } jobId now with
      | .error e =>
        (some { sessionId := ready.sessionId, executorRole := request.executorRole, jobId := none,
                created := false, request := some request,
                error := some ("enqueue failed", some e) }, q, session)
      | .ok ((job, created), q') =>
        (some { sessionId := ready.sessionId, executorRole := request.executorRole,
                jobId := some job.jobId, created, request := some request }, q',
          { session with extra := withDispatchMarker session.extra job.jobId request dispatchedAt })

/-- The dispatcher touches its own two keys. -/
theorem dispatchSession_getJson_ne {q : JobQueue} {session : WorkflowSession} {env : Env}
    {jobId : String} {now : Time} {dispatchedAt key : String}
    (hmarker : key ≠ sessionExtraDispatchKey) (hprogress : key ≠ sessionExtraProgressKey) :
    (dispatchSession q session env jobId now dispatchedAt).2.2.extra.getJson key
      = session.extra.getJson key := by
  unfold dispatchSession
  split
  · rfl
  · split
    · rfl
    · split
      · rfl
      · simp [withDispatchMarker, Dict.getJson_set_ne, hmarker, hprogress]

end Dispatcher

end ForgeKit
