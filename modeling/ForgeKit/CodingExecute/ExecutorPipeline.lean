import ForgeKit.CodingExecute.BranchGuards
import ForgeKit.JobQueue.CodingExecutor
import ForgeKit.Lib.Stages

/-!
# The pipeline of the coding executor (`coding_executor_worker.py`)

`processJob` takes a leased `coding_execute` row to `in_progress`, checks the branch with two guards
and, unless the request is a dry run, calls six injected parties in order: worktree, editor, tests,
committer, pusher, PR creator. The parties answer with the next `WorktreeContext` or an exception;
the run records its calls.

The progress stamps in the session are left out: they swallow their errors and the pipeline reads
nothing of them. The stamp for the merge continuation may raise, and is a flag of `Surroundings`.
-/

namespace ForgeKit

/-! ## Requests -/

namespace CodingExecuteRequest

/-- `tuple(str(p) for p in (v or ()) if str(p).strip())`; `none` is the `TypeError`. -/
def texts? (v : Json) : Option (List String) :=
  v.items?.map fun items => (items.map Json.toStr).filter fun p => PyText.strip p ≠ ""

/-- One element of what `dict(…)` is given, as a pair. -/
def pair? : Json → Option (String × Json)
  | .arr [.str k, v] => some (k, v)
  | .str s =>
    match s.toList with
    | [c, c'] => some (String.singleton c, .str (String.singleton c'))
    | _ => none
  | .obj [(k, _), (k', _)] => some (k, .str k')
  | _ => none

/-- `dict(v)`; `none` is the exception. A key that is not a text counts as one. -/
def dict? : Json → Option (Dict Json)
  | .obj d => some d
  | .arr xs => (xs.mapM pair?).map fun pairs => Dict.update [] pairs
  | .str s => if s = "" then some [] else none
  | _ => none

/-- `from_payload`; `none` is the exception. -/
def fromPayload (payload : Dict Json) : Option CodingExecuteRequest := do
  let writeScope ← texts? (payload.getJson "write_scope")
  let forbiddenScope ← texts? (payload.getJson "forbidden_scope")
  let safetyRules ← texts? (payload.getJson "safety_rules")
  let metadata ← dict? ((payload.getJson "metadata").orElse (.obj []))
  return {
    sessionId := payload.strOr "session_id" ""
    executorRole := payload.strOr "executor_role" ""
    userRequest := payload.strOr "user_request" ""
    generatedPrompt := payload.strOr "generated_prompt" ""
    writeScope := writeScope
    forbiddenScope := forbiddenScope
    safetyRules := safetyRules
    baseBranch := payload.strOr "base_branch" "main"
    branchHint := payload.strOr "branch_hint" ""
    repoFullName := payload.strOr "repo_full_name" ""
    issueNumber := (payload.getJson "issue_number").toInt?
    dryRun := ((payload.get? "dry_run").map Json.truthy).getD true
    metadata := metadata }

theorem texts?_map_str {texts : List String} (h : ∀ t ∈ texts, PyText.strip t ≠ "") :
    texts? (.arr (texts.map Json.str)) = some texts := by
  rw [texts?, Json.items?_arr, Option.map_some, List.map_map]
  have hid : Json.toStr ∘ Json.str = id := rfl
  rw [hid, List.map_id, List.filter_eq_self.mpr fun t ht => decide_eq_true (h t ht)]

/-- A request without blank scopes reads back from its own payload. -/
theorem fromPayload_toPayload (r : CodingExecuteRequest) (hbase : r.baseBranch ≠ "")
    (hscopes : ∀ t ∈ r.writeScope ++ r.forbiddenScope ++ r.safetyRules, PyText.strip t ≠ "") :
    fromPayload r.toPayload = some r := by
  have hwrite : texts? (r.toPayload.getJson "write_scope") = some r.writeScope :=
    texts?_map_str fun t ht => hscopes t (by simp [ht])
  have hforbidden : texts? (r.toPayload.getJson "forbidden_scope") = some r.forbiddenScope :=
    texts?_map_str fun t ht => hscopes t (by simp [ht])
  have hrules : texts? (r.toPayload.getJson "safety_rules") = some r.safetyRules :=
    texts?_map_str fun t ht => hscopes t (by simp [ht])
  have hmetadata : dict? ((r.toPayload.getJson "metadata").orElse (.obj [])) = some r.metadata := by
    show dict? ((Json.obj r.metadata).orElse (.obj [])) = some r.metadata
    cases hm : r.metadata <;> rfl
  have hissue : (r.toPayload.getJson "issue_number").toInt? = r.issueNumber := by
    show ((r.issueNumber.map Json.int).getD .null).toInt? = r.issueNumber
    cases r.issueNumber <;> rfl
  have htext : ∀ k s, r.toPayload.get? k = some (.str s) → r.toPayload.strOr k "" = s :=
    fun k s => Dict.strOr_str_self
  have hmain : r.toPayload.strOr "base_branch" "main" = r.baseBranch := by
    have hread : r.toPayload.strOr "base_branch" "main"
        = if r.baseBranch = "" then "main" else r.baseBranch := Dict.strOr_str rfl
    rw [hread, if_neg hbase]
  unfold fromPayload
  rw [hwrite, hforbidden, hrules, hmetadata, hissue, hmain,
    htext "session_id" r.sessionId rfl, htext "executor_role" r.executorRole rfl,
    htext "user_request" r.userRequest rfl, htext "generated_prompt" r.generatedPrompt rfl,
    htext "branch_hint" r.branchHint rfl, htext "repo_full_name" r.repoFullName rfl]
  rfl

end CodingExecuteRequest

/-! ## The injected parties -/

/-- `WorktreeContext`. The test summary is whatever the test runner put there. -/
structure WorktreeContext where
  branch : String
  worktreePath : String := ""
  baseCommitSha : String := ""
  editedFiles : List String := []
  testSummary : Json := .obj []
  commitSha : String := ""
  pushed : Bool := false
  prNumber : Option Int := none
  prUrl : String := ""
  metadata : Dict Json := []

/-- An exception of an injected party, as far as the worker looks at it. -/
structure AdapterError where
  typeName : String
  text : String := ""
  attributes : Dict String := []
  /-- False for `KeyboardInterrupt` and its like, which no handler of the worker catches. -/
  isException : Bool := true
  /-- `isinstance(exc, CodingExecutorNotImplementedError)`. -/
  isNotImplemented : Bool := false

/-- `_short(exc)`. -/
def AdapterError.short (e : AdapterError) : String :=
  let isBreak (c : Char) : Bool := [10, 11, 12, 13, 28, 29, 30, 133, 8232, 8233].contains c.toNat
  let text := if e.text = "" then e.typeName else String.ofList (e.text.toList.takeWhile (!isBreak ·))
  String.ofList ((e.typeName ++ ": " ++ text).toList.take 200)

/-- `getattr(exc, name, dflt)`. -/
def AdapterError.attribute (e : AdapterError) (name dflt : String) : String :=
  (e.attributes.get? name).getD dflt

/-- The six parties that the worker was built with. -/
structure CodingAdapters where
  provision : CodingExecuteRequest → String → Except AdapterError WorktreeContext
  apply : CodingExecuteRequest → WorktreeContext → Except AdapterError WorktreeContext
  run : CodingExecuteRequest → WorktreeContext → Except AdapterError WorktreeContext
  commit : CodingExecuteRequest → WorktreeContext → Except AdapterError WorktreeContext
  push : CodingExecuteRequest → WorktreeContext → Except AdapterError WorktreeContext
  openPr : CodingExecuteRequest → WorktreeContext → Except AdapterError WorktreeContext
  /-- `type(self._editor).__name__`. -/
  editorClass : String

/-- The clocks and texts that a run meets. -/
structure Surroundings where
  now : Time
  /-- `int(time.time())` when the branch name is made up. -/
  seconds : Int
  finishedAt : Time
  /-- What `_short` makes of the exception that a payload, or a `dict(…)`, raises. -/
  payloadError : Dict Json → String
  dictError : Json → AdapterError
  /-- `_stamp_pr_merge_continuation` raises. -/
  stampRaises : Bool := false

/-! ## Branch names -/

/-- `_SLUG_RE.sub("-", …)`: every run of other characters becomes one hyphen. -/
def slugChars : Bool → List Char → List Char
  | _, [] => []
  | inRun, c :: cs =>
    if RuntimePolicy.isAlnum c then c :: slugChars false cs
    else if inRun then slugChars true cs
    else '-' :: slugChars true cs

/-- `derive_standard_branch_name(kind="feat", …)`. -/
def deriveStandardBranchName (shortPurpose : String) (issueNumber : Int) : String :=
  let chars := slugChars false (PyText.lower shortPurpose).toList
  let slug := String.ofList ((chars.dropWhile (· = '-')).rdropWhile (· = '-'))
  let suffix := if 0 < issueNumber then "-issue-" ++ toString issueNumber else ""
  "feat/" ++ (if slug = "" then "work" else slug) ++ suffix

/-- `suggest_branch`. -/
def suggestBranch (request : CodingExecuteRequest) (seconds : Int) : String :=
  match request.issueNumber with
  | some n =>
    if (request.metadata.getJson "use_standard_prefix").truthy then
      let short := if request.executorRole = "" then "work"
        else PyText.firstSegment request.executorRole '-'
      deriveStandardBranchName short n
    else "agent/" ++ request.executorRole ++ "/issue-" ++ toString n ++ "-coding-execute"
  | none =>
    "agent/" ++ request.executorRole ++ "/coding-execute-" ++ toString (seconds % 10000)

/-- The branch that `process_job` works on. -/
def branchOf (request : CodingExecuteRequest) (seconds : Int) : String :=
  if request.branchHint = "" then suggestBranch request seconds else request.branchHint

/-! ## Test summaries -/

/-- `v in (0, "0", "")`. -/
def isZeroCount : Json → Bool
  | .int n => n == 0
  | .bool b => !b
  | .float q => q == 0
  | .str s => s == "0" || s == ""
  | _ => false

/-- `str(summary.get("status") or "").lower()`. -/
def statusOf (summary : Dict Json) : String := PyText.lower (summary.strOr "status" "")

/-- `_tests_passed`. -/
def testsPassed (summary : Json) : Bool :=
  match summary.obj? with
  | none => false
  | some d =>
    if (d.getJson "dry_run").truthy then true
    else if ["ok", "passed", "success"].contains (statusOf d) then true
    else if ["failed", "fail", "error"].contains (statusOf d) then false
    else
      match d.get? "failures", d.get? "failed" with
      | some v, _ => isZeroCount v
      | none, some v => isZeroCount v
      | none, none => false

/-! ## The six stages -/

inductive CodingStep where
  | provision
  | apply
  | run
  | commit
  | push
  | openPr
deriving DecidableEq, Repr

/-- How the pipeline is left before its end. -/
inductive PipelineExit where
  /-- `return self._fail(…)`. -/
  | fail (terminal : Bool) (reason : String) (commitSha : Option String := none)
      (testSummary : Option (Dict Json) := none)
  /-- An exception that `process_job` does not catch. -/
  | escape (e : AdapterError)

section Stages

variable (adapters : CodingAdapters) (around : Surroundings) (request : CodingExecuteRequest)

/-- The two broad handlers at the end of the `try`. -/
def broadHandler (e : AdapterError) : PipelineExit :=
  if !e.isException then .escape e
  else if e.isNotImplemented then .fail true ("executor_not_wired_yet: " ++ e.short)
  else .fail false ("edit_failed: " ++ e.short)

/-- The handler around the worktree. -/
def provisionHandler (e : AdapterError) : PipelineExit :=
  if !e.isException then .escape e
  else if e.typeName = "TargetRepoUnavailableError" then
    .fail false ("target_repo_checkout_missing: " ++ e.short)
  else if e.typeName = "WorktreeProvisionError" then
    .fail false ("worktree_provision_failed:" ++ e.attribute "reason" "unknown" ++ ": " ++ e.short)
  else broadHandler e

/-- The handler around the editor. -/
def applyHandler (e : AdapterError) : PipelineExit :=
  if !e.isException then .escape e
  else if e.typeName = "BootstrapLiveEditorUnavailable" then
    .fail true ("bootstrap_required:live_editor_unavailable:" ++ e.attribute "mode" "unknown")
  else if e.typeName = "NonGreenfieldRealEditUnavailable" then
    .fail true "non_greenfield_real_edit_unavailable"
  else if e.typeName = "BootstrapApplyFailed" then
    .fail true ("bootstrap_required:" ++ e.attribute "sub_reason" "scaffold_apply_failed" ++ ":"
      ++ e.attribute "mode" "unknown")
  else broadHandler e

/-- What follows the test run. -/
def testsExit (c : WorktreeContext) : Option PipelineExit :=
  let mapping := c.testSummary.obj?.getD []
  if (mapping.getJson "status").eqStr "bootstrap_required" then
    let sub := mapping.strOr "bootstrap_sub_reason" "no_signals"
    let sub := if adapters.editorClass = "RecordOnlyCodeEditor" then
      sub ++ "+editor_record_only_insufficient" else sub
    some (.fail true ("bootstrap_required:" ++ sub) none (some mapping))
  else if testsPassed c.testSummary then none
  else
    match CodingExecuteRequest.dict? c.testSummary with
    | some summary => some (.fail false "test_failed" none (some summary))
    | none => some (broadHandler (around.dictError c.testSummary))

/-- The pipeline of `process_job`. -/
def codingStages : List (Stage CodingStep AdapterError PipelineExit WorktreeContext) :=
  [{ name := .provision
     run := fun c => adapters.provision request c.branch
     onError := provisionHandler
     exit := fun _ => none },
   { name := .apply
     run := adapters.apply request
     onError := applyHandler
     exit := fun _ => none },
   { name := .run
     run := adapters.run request
     onError := broadHandler
     exit := testsExit adapters around },
   { name := .commit
     run := adapters.commit request
     onError := broadHandler
     exit := fun c => if c.commitSha = "" then some (.fail false "commit_failed") else none },
   { name := .push
     run := adapters.push request
     onError := broadHandler
     exit := fun c => if !c.pushed then some (.fail false "push_failed" (some c.commitSha)) else none },
   { name := .openPr
     run := adapters.openPr request
     onError := broadHandler
     exit := fun c => if c.prNumber.getD 0 = 0 then
       some (.fail false "draft_pr_failed" (some c.commitSha)) else none }]

end Stages

/-! ## `process_job` -/

/-- `CodingExecuteOutcome`. -/
structure CodingExecuteOutcome where
  job : Option Job
  terminalState : Option JobState := none
  skippedReason : Option String := none
  failureReason : Option String := none
  branch : Option String := none
  commitSha : Option String := none
  prNumber : Option Int := none
  prUrl : Option String := none
  testSummary : Option (Dict Json) := none

/-- What `process_job` raises. -/
inductive ProcessError where
  | queue (e : QueueError)
  | adapter (e : AdapterError)
  | stamp

/-- What a run of `process_job` leaves. -/
structure ProcessRun where
  calls : List (StageCall CodingStep AdapterError WorktreeContext) := []
  queue : JobQueue
  outcome : Except ProcessError CodingExecuteOutcome

namespace CodingExecutorWorker

variable (around : Surroundings)

/-- `_fail`, which swallows what the queue raises. -/
def fail (q : JobQueue) (job : Job) (terminal : Bool) (reason : String) (branch : Option String)
    (commitSha : Option String := none) (testSummary : Option (Dict Json) := none) :
    JobQueue × CodingExecuteOutcome :=
  let target := if terminal then JobState.failedTerminal else .failedRetryable
  let ofText (o : Option String) : Json := (o.map Json.str).getD .null
  (q.commit (q.transition {
    jobId := job.jobId
    target := target
    now := around.finishedAt
    result := some [("reason", .str reason), ("branch", ofText branch),
      ("commit_sha", ofText commitSha)] }),
   { job := some job
     terminalState := some target
     failureReason := some reason
     branch := branch
     commitSha := commitSha
     testSummary := testSummary })

/-- `_success`, which swallows it too. -/
def success (q : JobQueue) (job : Job) (branch : String) (testSummary : Dict Json)
    (commitSha : Option String := none) (prNumber : Option Int := none)
    (prUrl : Option String := none) (auditReason : Option String := none) :
    JobQueue × CodingExecuteOutcome :=
  let ofText (o : Option String) : Json := (o.map Json.str).getD .null
  (q.commit (q.transition {
    jobId := job.jobId
    target := .saved
    now := around.finishedAt
    result := some [("branch", .str branch), ("commit_sha", ofText commitSha),
      ("pr_number", (prNumber.map Json.int).getD .null), ("pr_url", ofText prUrl),
      ("audit_reason", ofText auditReason)] }),
   { job := some job
     terminalState := some .saved
     branch := some branch
     commitSha := commitSha
     prNumber := prNumber
     prUrl := prUrl
     testSummary := some testSummary })

/-- The run of the six stages and what is written after it. -/
def runPipeline (adapters : CodingAdapters) (q : JobQueue) (job : Job)
    (request : CodingExecuteRequest) (branch : String) : ProcessRun :=
  let run := runStages (codingStages adapters around request) { branch := branch }
  match run.result with
  | .error (.fail terminal reason commitSha testSummary) =>
    let (q', outcome) := fail around q job terminal reason (some branch) commitSha testSummary
    ⟨run.calls, q', .ok outcome⟩
  | .error (.escape e) => ⟨run.calls, q, .error (.adapter e)⟩
  | .ok c =>
    if around.stampRaises then ⟨run.calls, q, .error .stamp⟩
    else
      match CodingExecuteRequest.dict? c.testSummary with
      | none => ⟨run.calls, q, .error (.adapter (around.dictError c.testSummary))⟩
      | some summary =>
        let (q', outcome) := success around q job c.branch summary (some c.commitSha) c.prNumber
          (some c.prUrl)
        ⟨run.calls, q', .ok outcome⟩

/-- `process_job` on a row that was leased. -/
def processJob (adapters : CodingAdapters) (q : JobQueue) (jobId : String) : ProcessRun :=
  match q.transition { jobId := jobId, target := .inProgress, now := around.now } with
  | .error e => ⟨[], q, .error (.queue e)⟩
  | .ok (job, q₁) =>
    match CodingExecuteRequest.fromPayload job.payload with
    | none =>
      let (q₂, outcome) := fail around q₁ job true
        ("invalid_request: " ++ around.payloadError job.payload) none
      ⟨[], q₂, .ok outcome⟩
    | some request =>
      let branch := branchOf request around.seconds
      let policy := RuntimePolicy.validateBranchName (some branch) request.issueNumber
      if isProtectedBranch branch then
        let (q₂, outcome) := fail around q₁ job true
          ("protected_branch_blocked (branch=" ++ branch ++ ")") (some branch)
        ⟨[], q₂, .ok outcome⟩
      else if !policy.allowed then
        let (q₂, outcome) := fail around q₁ job true
          ("branch_policy_violation (" ++ policy.reason ++ "; branch=" ++ branch ++ ")") (some branch)
        ⟨[], q₂, .ok outcome⟩
      else if request.dryRun then
        let (q₂, outcome) := success around q₁ job branch [("dry_run", .bool true)]
          none none none (some "dry_run")
        ⟨[], q₂, .ok outcome⟩
      else runPipeline around adapters q₁ job request branch

end CodingExecutorWorker

end ForgeKit
