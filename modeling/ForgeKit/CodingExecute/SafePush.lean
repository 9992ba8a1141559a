import ForgeKit.CodingExecute.ExecutorPipeline

/-!
# What the coding executor pushes

Parties that keep the branch of their context cannot make the worker push a branch that a guard
stops, or before the tests and the commit. A summary that is marked as a dry run counts as passed,
whatever its status says.

* `processJob_cases` — the ways in which `process_job` goes
* `push_is_safe` — one run pushes once at most, and only after everything before it
* `protected_branches_agree_iff` — where the guards of the executor agree with the writer's
-/

namespace ForgeKit

namespace CodingExecutorWorker

variable {adapters : CodingAdapters} {around : Surroundings}

/-! ## The ways a run goes -/

/-- The row, its request and the branch of a run that gets to the pipeline. -/
structure ReachesPipeline (around : Surroundings) (q : JobQueue) (jobId : String) (job : Job)
    (q₁ : JobQueue) (request : CodingExecuteRequest) : Prop where
  moved : q.transition { jobId := jobId, target := .inProgress, now := around.now } = .ok (job, q₁)
  read : CodingExecuteRequest.fromPayload job.payload = some request
  live : request.dryRun = false
  accepted : ExecutorAccepts (branchOf request around.seconds)

/-- The policy reads the issue number for its warnings only. -/
theorem executorAccepts_iff_policy {b : String} (issueNumber : Option Int) :
    ExecutorAccepts b ↔ isProtectedBranch b = false ∧
      (RuntimePolicy.validateBranchName (some b) issueNumber).allowed = true := by
  rw [ExecutorAccepts, validateBranchName_allowed_iff, validateBranchName_allowed_iff]

variable (adapters) in
/-- A run refuses, or fails, or exercises a dry run without calling anybody, or runs the pipeline. -/
theorem processJob_cases (around : Surroundings) (q : JobQueue) (jobId : String) :
    ((∃ e, q.transition { jobId := jobId, target := .inProgress, now := around.now } = .error e)
        ∧ (processJob around adapters q jobId).calls = []
        ∧ (processJob around adapters q jobId).queue = q) ∨
      ∃ job q₁, q.transition { jobId := jobId, target := .inProgress, now := around.now }
          = .ok (job, q₁) ∧
        ((∃ terminal reason branch, (processJob around adapters q jobId).calls = [] ∧
            (processJob around adapters q jobId).queue
              = (fail around q₁ job terminal reason branch).1) ∨
          (∃ branch, (processJob around adapters q jobId).calls = [] ∧
            (processJob around adapters q jobId).queue
              = (success around q₁ job branch [("dry_run", .bool true)] none none none
                  (some "dry_run")).1) ∨
          ∃ request, ReachesPipeline around q jobId job q₁ request ∧
            processJob around adapters q jobId
              = runPipeline around adapters q₁ job request (branchOf request around.seconds)) := by
  unfold processJob
  cases hmoved : q.transition { jobId := jobId, target := .inProgress, now := around.now } with
  | error e => exact .inl ⟨⟨e, rfl⟩, rfl, rfl⟩
  | ok moved =>
    obtain ⟨job, q₁⟩ := moved
    refine .inr ⟨job, q₁, rfl, ?_⟩
    dsimp only
    cases hread : CodingExecuteRequest.fromPayload job.payload with
    | none => exact .inl ⟨true, _, none, rfl, rfl⟩
    | some request =>
      dsimp only
      by_cases hprotected : isProtectedBranch (branchOf request around.seconds) = true
      · rw [if_pos hprotected]
        exact .inl ⟨true, _, _, rfl, rfl⟩
      · rw [if_neg hprotected]
        by_cases hpolicy : (RuntimePolicy.validateBranchName
            (some (branchOf request around.seconds)) request.issueNumber).allowed = true
        · rw [if_neg (by simp [hpolicy])]
          by_cases hdry : request.dryRun = true
          · rw [if_pos hdry]
            exact .inr (.inl ⟨_, rfl, rfl⟩)
          · rw [if_neg hdry]
            refine .inr (.inr ⟨request, ⟨hmoved, hread, by simpa using hdry, ?_⟩, rfl⟩)
            exact (executorAccepts_iff_policy request.issueNumber).mpr
              ⟨by simpa using hprotected, hpolicy⟩
        · rw [if_pos (by simp [hpolicy])]
          exact .inl ⟨true, _, _, rfl, rfl⟩

theorem runPipeline_calls (around : Surroundings) (adapters : CodingAdapters) (q : JobQueue)
    (job : Job) (request : CodingExecuteRequest) (branch : String) :
    (runPipeline around adapters q job request branch).calls
      = (runStages (codingStages adapters around request) { branch := branch }).calls := by
  unfold runPipeline
  dsimp only
  cases (runStages (codingStages adapters around request) { branch := branch }).result with
  | error exit => cases exit <;> rfl
  | ok c =>
    dsimp only
    split
    · rfl
    · split <;> rfl

/-- Whoever was called was called by the pipeline. -/
theorem calls_of_ne_nil {q : JobQueue} {jobId : String}
    (h : (processJob around adapters q jobId).calls ≠ []) :
    ∃ job q₁ request, ReachesPipeline around q jobId job q₁ request ∧
      (processJob around adapters q jobId).calls
        = (runStages (codingStages adapters around request)
            { branch := branchOf request around.seconds }).calls := by
  rcases processJob_cases adapters around q jobId with
    ⟨-, hnil, -⟩ | ⟨job, q₁, -, ⟨_, _, _, hnil, -⟩ | ⟨_, hnil, -⟩ | ⟨request, hreach, hrun⟩⟩
  · exact absurd hnil h
  · exact absurd hnil h
  · exact absurd hnil h
  · exact ⟨job, q₁, request, hreach, by rw [hrun, runPipeline_calls]⟩

/-! ## The stages before a push -/

theorem codingStages_nodup (adapters : CodingAdapters) (around : Surroundings)
    (request : CodingExecuteRequest) :
    ((codingStages adapters around request).map (·.name)).Nodup := by
  show [CodingStep.provision, .apply, .run, .commit, .push, .openPr].Nodup
  decide

/-- The parties keep the branch that they are given. -/
structure KeepsBranch (adapters : CodingAdapters) : Prop where
  provision : ∀ request b c, adapters.provision request b = .ok c → c.branch = b
  apply : ∀ request c c', adapters.apply request c = .ok c' → c'.branch = c.branch
  run : ∀ request c c', adapters.run request c = .ok c' → c'.branch = c.branch
  commit : ∀ request c c', adapters.commit request c = .ok c' → c'.branch = c.branch
  push : ∀ request c c', adapters.push request c = .ok c' → c'.branch = c.branch
  openPr : ∀ request c c', adapters.openPr request c = .ok c' → c'.branch = c.branch

theorem KeepsBranch.stage {request : CodingExecuteRequest} (h : KeepsBranch adapters) :
    ∀ stage ∈ codingStages adapters around request, ∀ c c', stage.run c = .ok c' →
      c'.branch = c.branch := by
  intro stage hs c c' hrun
  simp only [codingStages, List.mem_cons, List.not_mem_nil, or_false] at hs
  rcases hs with rfl | rfl | rfl | rfl | rfl | rfl
  · exact h.provision request c.branch c' hrun
  · exact h.apply request c c' hrun
  · exact h.run request c c' hrun
  · exact h.commit request c c' hrun
  · exact h.push request c c' hrun
  · exact h.openPr request c c' hrun

/-- The summary is marked as a dry run. -/
def markedDryRun (summary : Json) : Bool :=
  summary.obj?.any fun d => (d.getJson "dry_run").truthy

/-- The summary says failed or error, or says nothing since it is not a mapping. -/
def reportsFailure (summary : Json) : Bool :=
  summary.obj?.all fun d => ["failed", "fail", "error"].contains (statusOf d)

/-- What counts as passed reports no failure, unless it is marked as a dry run. -/
theorem not_reportsFailure_of_testsPassed {summary : Json} (h : testsPassed summary = true) :
    markedDryRun summary = true ∨ reportsFailure summary = false := by
  unfold testsPassed at h
  unfold markedDryRun reportsFailure
  cases hobj : summary.obj? with
  | none =>
    rw [hobj] at h
    cases h
  | some d =>
    rw [hobj] at h
    dsimp only at h
    by_cases hdry : (d.getJson "dry_run").truthy = true
    · exact .inl hdry
    · rw [if_neg hdry] at h
      right
      by_cases hok : ["ok", "passed", "success"].contains (statusOf d) = true
      · have hapart : ∀ s ∈ ["ok", "passed", "success"], ["failed", "fail", "error"].contains s = false := by
          decide
        exact hapart _ (List.contains_iff_mem.mp hok)
      · rw [if_neg hok] at h
        by_cases hfailed : ["failed", "fail", "error"].contains (statusOf d) = true
        · rw [if_pos hfailed] at h
          cases h
        · simpa using hfailed

theorem testsPassed_of_exit {c : WorktreeContext} (h : testsExit adapters around c = none) :
    testsPassed c.testSummary = true := by
  unfold testsExit at h
  dsimp only at h
  split at h
  · cases h
  · split at h
    · assumption
    · split at h <;> cases h

variable {request : CodingExecuteRequest} {c : WorktreeContext}
  {before after : List (StageCall CodingStep AdapterError WorktreeContext)}
  {call : StageCall CodingStep AdapterError WorktreeContext}

/-- The four calls before a push, and what their checks let through. -/
theorem before_push
    (h : (runStages (codingStages adapters around request) c).calls = before ++ call :: after)
    (hstage : call.stage = .push) :
    ∃ c₁ c₂ c₃, before = [⟨.provision, c, .ok c₁⟩, ⟨.apply, c₁, .ok c₂⟩, ⟨.run, c₂, .ok c₃⟩,
        ⟨.commit, c₃, .ok call.context⟩] ∧
      testsPassed c₃.testSummary = true ∧ call.context.commitSha ≠ "" := by
  have hpassed := passedStages_before (codingStages_nodup adapters around request) h
  rw [hstage] at hpassed
  change PassedStages [_, _, _, _] _ _ _ at hpassed
  obtain _ | ⟨-, -, _ | ⟨-, -, _ | ⟨-, htests, _ | ⟨-, hsha, ⟨⟩⟩⟩⟩⟩ := hpassed
  exact ⟨_, _, _, rfl, testsPassed_of_exit htests, by simpa using hsha⟩

/-- The call before the PR is opened is a push that went through. -/
theorem before_openPr
    (h : (runStages (codingStages adapters around request) c).calls = before ++ call :: after)
    (hstage : call.stage = .openPr) :
    ∃ c', ⟨.push, c', .ok call.context⟩ ∈ before ∧ call.context.pushed = true := by
  have hpassed := passedStages_before (codingStages_nodup adapters around request) h
  rw [hstage] at hpassed
  change PassedStages [_, _, _, _, _] _ _ _ at hpassed
  obtain _ | ⟨-, -, _ | ⟨-, -, _ | ⟨-, -, _ | ⟨-, -, _ | ⟨-, hpushed, ⟨⟩⟩⟩⟩⟩⟩ := hpassed
  exact ⟨_, List.mem_of_getLast? rfl, by simpa using hpushed⟩

/-- A run that comes through has made its six calls, and the last one opened the PR. -/
theorem calls_of_ok {d : WorktreeContext}
    (h : (runStages (codingStages adapters around request) c).result = .ok d) :
    (runStages (codingStages adapters around request) c).calls.map (·.stage)
        = [.provision, .apply, .run, .commit, .push, .openPr] ∧
      (∀ call ∈ (runStages (codingStages adapters around request) c).calls,
        ∃ c', call.result = .ok c') ∧
      ∃ c', (runStages (codingStages adapters around request) c).calls.getLast?
        = some ⟨.openPr, c', .ok d⟩ ∧ c'.pushed = true ∧ d.prNumber.getD 0 ≠ 0 := by
  have hpassed := passedStages_of_ok h
  change PassedStages [_, _, _, _, _, _] _ _ _ at hpassed
  generalize (runStages (codingStages adapters around request) c).calls = calls at hpassed
  obtain _ | ⟨-, -, _ | ⟨-, -, _ | ⟨-, -, _ | ⟨-, -, _ | ⟨-, hpushed, _ | ⟨-, hnumber, ⟨⟩⟩⟩⟩⟩⟩⟩ := hpassed
  exact ⟨rfl, by simp, _, rfl, by simpa using hpushed, by simpa using hnumber⟩

/-! ## The row after a run -/

theorem rewrite_state_ne_saved {a : JobQueue.TransitionArgs} {r : Job} (ha : a.target ≠ .saved)
    (hr : r.state ≠ .saved) : (a.rewrite r).state ≠ .saved := by
  unfold JobQueue.TransitionArgs.rewrite
  split
  · exact ha
  · exact hr

/-- A row that was not saved is not saved by a failure. -/
theorem fail_state {q : JobQueue} {job r r' : Job} {terminal : Bool} {reason : String}
    {branch commitSha : Option String} (testSummary : Option (Dict Json))
    (hr : q.get job.jobId = some r) (hstate : r.state ≠ .saved)
    (h : (fail around q job terminal reason branch commitSha testSummary).1.get job.jobId = some r') :
    r'.state ≠ .saved := by
  unfold fail at h
  dsimp only at h
  rw [JobQueue.get_commit_transition, hr, Option.map_some, Option.some.injEq] at h
  rw [← h]
  refine rewrite_state_ne_saved ?_ hstate
  show (if terminal then JobState.failedTerminal else .failedRetryable) ≠ .saved
  cases terminal <;> decide

/-- A row that a success saved has the PR number of that success. -/
theorem success_prNumber {q : JobQueue} {job r r' : Job} {branch : String} {testSummary : Dict Json}
    {commitSha prUrl auditReason : Option String} {prNumber : Option Int}
    (hr : q.get job.jobId = some r) (hstate : r.state ≠ .saved)
    (h : (success around q job branch testSummary commitSha prNumber prUrl auditReason).1.get
      job.jobId = some r') (hsaved : r'.state = .saved) :
    r'.result.getJson "pr_number" = (prNumber.map Json.int).getD .null := by
  unfold success at h
  dsimp only at h
  rw [JobQueue.get_commit_transition, hr, Option.map_some, Option.some.injEq] at h
  rw [← h, JobQueue.TransitionArgs.rewrite] at hsaved ⊢
  split at hsaved
  · next hmoves =>
    rw [if_pos hmoves]
    simp [JobQueue.TransitionArgs.apply, Dict.update, Dict.getJson_set]
  · exact absurd hsaved hstate

/-- A row that a run saved with a PR number was saved by a pipeline that came through. -/
theorem pipeline_of_saved {q : JobQueue} {jobId : String} {r r' : Job} {n : Int}
    (hr : q.get jobId = some r) (hstate : r.state ≠ .saved)
    (hr' : (processJob around adapters q jobId).queue.get jobId = some r')
    (hsaved : r'.state = .saved) (hn : r'.result.getJson "pr_number" = .int n) :
    ∃ request d, (processJob around adapters q jobId).calls
        = (runStages (codingStages adapters around request)
          { branch := branchOf request around.seconds }).calls ∧
      (runStages (codingStages adapters around request)
        { branch := branchOf request around.seconds }).result = .ok d ∧ d.prNumber = some n := by
  rcases processJob_cases adapters around q jobId with
    ⟨-, -, hq⟩ | ⟨job, q₁, hmoved, hcase⟩
  · rw [hq, hr] at hr'
    exact absurd (Option.some.inj hr' ▸ hsaved) hstate
  · obtain ⟨c, hc, -, hjob, hq₁⟩ := JobQueue.transition_ok hmoved
    have hprogress : job.state ≠ .saved := by
      rw [hjob]
      show JobState.inProgress ≠ .saved
      decide
    have hid : job.jobId = jobId := by
      rw [hjob, JobQueue.TransitionArgs.apply_jobId]
      exact JobQueue.get_jobId hc
    subst hid
    rcases hcase with ⟨_, _, _, -, hq⟩ | ⟨_, -, hq⟩ | ⟨request, -, hrun⟩
    · rw [hq] at hr'
      exact absurd hsaved (fail_state none hq₁ hprogress hr')
    · rw [hq] at hr'
      rw [success_prNumber hq₁ hprogress hr' hsaved] at hn
      cases hn
    · rw [hrun] at hr'
      unfold runPipeline at hr'
      dsimp only at hr'
      split at hr'
      · next testSummary _ => exact absurd hsaved (fail_state testSummary hq₁ hprogress hr')
      · rw [hq₁] at hr'
        exact absurd (Option.some.inj hr' ▸ hsaved) hprogress
      · next d hd =>
        refine ⟨request, d, by rw [hrun, runPipeline_calls], hd, ?_⟩
        split at hr'
        · rw [hq₁] at hr'
          exact absurd (Option.some.inj hr' ▸ hsaved) hprogress
        · split at hr'
          · rw [hq₁] at hr'
            exact absurd (Option.some.inj hr' ▸ hsaved) hprogress
          · next summary _ =>
            have hrow : (success around q₁ job d.branch summary (some d.commitSha) d.prNumber
              (some d.prUrl)).1.get job.jobId = some r' := hr'
            rw [success_prNumber hq₁ hprogress hrow hsaved] at hn
            cases hp : d.prNumber with
            | none =>
              rw [hp] at hn
              cases hn
            | some m =>
              rw [hp] at hn
              exact congrArg some (Json.int.inj hn)

/-! ## One run -/

/-- What stands behind a push: the request, the branch, the recorded tests and the commit. -/
structure PushAllowed (q : JobQueue) (jobId : String)
    (before : List (StageCall CodingStep AdapterError WorktreeContext)) (pushed : WorktreeContext) :
    Prop where
  live : ∃ row request, q.get jobId = some row ∧
    CodingExecuteRequest.fromPayload row.payload = some request ∧ request.dryRun = false
  branch : ExecutorAccepts pushed.branch
  tests : ∃ edited tested, ⟨.run, edited, .ok tested⟩ ∈ before ∧
    (markedDryRun tested.testSummary = true ∨ reportsFailure tested.testSummary = false)
  commit : ∃ tested, ⟨.commit, tested, .ok pushed⟩ ∈ before
  sha : pushed.commitSha ≠ ""

/-- A run that pushes once at most, in its place, and saves a PR number only at its end. -/
structure SafeRun (q : JobQueue) (jobId : String) (run : ProcessRun) : Prop where
  once : (run.calls.map (·.stage)).count .push ≤ 1
  pushed : ∀ before call after, run.calls = before ++ call :: after → call.stage = .push →
    PushAllowed q jobId before call.context
  opened : ∀ before call after, run.calls = before ++ call :: after → call.stage = .openPr →
    ∃ c, ⟨.push, c, .ok call.context⟩ ∈ before ∧ call.context.pushed = true
  saved : ∀ r r' n, q.get jobId = some r → r.state ≠ .saved → run.queue.get jobId = some r' →
    r'.state = .saved → r'.result.getJson "pr_number" = .int n →
      run.calls.map (·.stage) = [.provision, .apply, .run, .commit, .push, .openPr] ∧
        (∀ call ∈ run.calls, ∃ c, call.result = .ok c) ∧
          ∃ c d, run.calls.getLast? = some ⟨.openPr, c, .ok d⟩ ∧ c.pushed = true ∧
            d.prNumber = some n ∧ n ≠ 0

theorem safeRun_of_calls {q : JobQueue} {jobId : String} {job : Job} {q₁ : JobQueue}
    (hkeep : KeepsBranch adapters) (hreach : ReachesPipeline around q jobId job q₁ request)
    (h : (runStages (codingStages adapters around request)
      { branch := branchOf request around.seconds }).calls = before ++ call :: after)
    (hstage : call.stage = .push) : PushAllowed q jobId before call.context := by
  obtain ⟨row, hrow, -, hjob, -⟩ := JobQueue.transition_ok hreach.moved
  obtain ⟨c₁, c₂, c₃, rfl, htests, hsha⟩ := before_push h hstage
  have hbranch : call.context.branch = branchOf request around.seconds := by
    have hpassed := passedStages_before (codingStages_nodup adapters around request) h
    refine hpassed.invariant (I := fun c => c.branch = branchOf request around.seconds) ?_ rfl
    intro stage hs c c' hc hrun
    have hmem := (List.takeWhile_prefix _).sublist.mem hs
    exact (hkeep.stage stage hmem c c' hrun).trans hc
  exact
    { live := ⟨row, request, hrow, by rw [← hreach.read, hjob]; rfl, hreach.live⟩
      branch := hbranch ▸ hreach.accepted
      tests := ⟨c₂, c₃, by simp, not_reportsFailure_of_testsPassed htests⟩
      commit := ⟨c₃, by simp⟩
      sha := hsha }

/-- One run of `process_job` against any parties that keep the branch. -/
theorem push_is_safe (hkeep : KeepsBranch adapters) (q : JobQueue) (jobId : String) :
    SafeRun q jobId (processJob around adapters q jobId) where
  once := by
    by_cases hnil : (processJob around adapters q jobId).calls = []
    · simp [hnil]
    · obtain ⟨job, q₁, request, -, hcalls⟩ := calls_of_ne_nil hnil
      rw [hcalls]
      exact runStages_count (codingStages_nodup adapters around request) _ _
  pushed := by
    intro before call after h hstage
    obtain ⟨job, q₁, request, hreach, hcalls⟩ := calls_of_ne_nil (by rw [h]; simp)
    exact safeRun_of_calls hkeep hreach (hcalls ▸ h) hstage
  opened := by
    intro before call after h hstage
    obtain ⟨job, q₁, request, hreach, hcalls⟩ := calls_of_ne_nil (by rw [h]; simp)
    exact before_openPr (hcalls ▸ h) hstage
  saved := by
    intro r r' n hr hstate hr' hsaved hn
    obtain ⟨request, d, hcalls, hd, hnumber⟩ := pipeline_of_saved hr hstate hr' hsaved hn
    obtain ⟨hnames, hok, c', hlast, hpushed, hne⟩ := calls_of_ok hd
    rw [hcalls]
    exact ⟨hnames, hok, c', d, hlast, hpushed, hnumber, by simpa [hnumber] using hne⟩

/-! ## Parties that do their work -/

/-- Parties that all succeed; the tests leave the given summary. -/
def workingAdapters (summary : Json) : CodingAdapters where
  provision _ b := .ok { branch := b }
  apply _ c := .ok c
  run _ c := .ok { c with testSummary := summary }
  commit _ c := .ok { c with commitSha := "0f3c1d2" }
  push _ c := .ok { c with pushed := true }
  openPr _ c := .ok { c with prNumber := some 7 }
  editorClass := "CodeEditor"

theorem keepsBranch_workingAdapters (summary : Json) : KeepsBranch (workingAdapters summary) := by
  constructor
  all_goals
    intros
    next h =>
      obtain rfl := Except.ok.inj h
      rfl

/-- A live request for a branch. -/
def liveRequest (branchHint : String) : CodingExecuteRequest where
  sessionId := "session-1"
  executorRole := "backend-engineer"
  userRequest := "fix the form"
  generatedPrompt := "fix the form"
  writeScope := ["src"]
  forbiddenScope := []
  safetyRules := []
  branchHint := branchHint
  dryRun := false

/-- The row of a request that a worker has picked. -/
def pickedRow (request : CodingExecuteRequest) : Job where
  jobId := "job-1"
  sessionId := request.sessionId
  jobType := jobTypeCodingExecute
  state := .assigned
  payload := request.toPayload
  result := []
  role := some request.executorRole
  priority := 0
  attempt := 0
  maxAttempts := 1
  availableAt := 0
  pickedBy := some "worker-1"
  pickedUntil := some 60
  createdAt := 0
  updatedAt := 0

/-- A queue with that row alone. -/
def pickedQueue (request : CodingExecuteRequest) : JobQueue where
  jobs := Table.empty.insert (pickedRow request) rfl
  dependencies := []
  foreignKeys := by simp

def quietSurroundings : Surroundings where
  now := 0
  seconds := 0
  finishedAt := 0
  payloadError _ := "TypeError"
  dictError _ := { typeName := "TypeError" }

/-- `push_is_safe` where a push is made. -/
theorem push_is_safe_working :
    SafeRun (pickedQueue (liveRequest "feat/form-issue-3")) "job-1"
      (processJob quietSurroundings (workingAdapters (.obj [("status", .str "passed")]))
        (pickedQueue (liveRequest "feat/form-issue-3")) "job-1") :=
  push_is_safe (keepsBranch_workingAdapters _) _ _

/-- A summary that says `failed` is pushed when it is marked as a dry run too. -/
theorem failed_dry_run_is_pushed :
    let summary : Json := .obj [("dry_run", .bool true), ("status", .str "failed")]
    reportsFailure summary = true ∧ KeepsBranch (workingAdapters summary) ∧
      (processJob quietSurroundings (workingAdapters summary)
        (pickedQueue (liveRequest "feat/form-issue-3")) "job-1").calls.map
          (fun call => (call.stage, call.context.testSummary.obj?.map statusOf)) =
        [(.provision, some ""), (.apply, some ""), (.run, some ""), (.commit, some "failed"),
          (.push, some "failed"), (.openPr, some "failed")] :=
  ⟨by decide +kernel, keepsBranch_workingAdapters _, by decide +kernel⟩

/-! ## Where the guards agree -/

/-- No run on the branch calls anybody, whatever the parties do. -/
def AlwaysStops (b : String) : Prop :=
  ∀ (adapters : CodingAdapters) (around : Surroundings) (q : JobQueue) (jobId : String) (row : Job)
    (request : CodingExecuteRequest), q.get jobId = some row →
      CodingExecuteRequest.fromPayload row.payload = some request →
        branchOf request around.seconds = b → (processJob around adapters q jobId).calls = []

/-- A run on a branch that the guards accept gets to the pipeline. -/
theorem processJob_of_accepts {q q₁ : JobQueue} {jobId : String} {job : Job}
    (h : ReachesPipeline around q jobId job q₁ request) : processJob around adapters q jobId
      = runPipeline around adapters q₁ job request (branchOf request around.seconds) := by
  obtain ⟨hprotected, hpolicy⟩ := (executorAccepts_iff_policy request.issueNumber).mp h.accepted
  unfold processJob
  rw [h.moved]
  dsimp only
  rw [h.read]
  dsimp only
  rw [if_neg (by simp [hprotected]), if_neg (by simp [hpolicy]), if_neg (by simp [h.live])]

/-- The executor stops every run on a branch exactly when one of its guards refuses it. -/
theorem alwaysStops_iff {b : String} (hb : b ≠ "") : AlwaysStops b ↔ ¬ExecutorAccepts b := by
  constructor
  · intro hstops haccepts
    have hread : CodingExecuteRequest.fromPayload (pickedRow (liveRequest b)).payload
        = some (liveRequest b) := by
      refine CodingExecuteRequest.fromPayload_toPayload _ (show "main" ≠ "" by decide) ?_
      show ∀ t ∈ ["src"], PyText.strip t ≠ ""
      decide
    have hbranch : branchOf (liveRequest b) quietSurroundings.seconds = b := if_neg hb
    have hreach : ReachesPipeline quietSurroundings (pickedQueue (liveRequest b)) "job-1" _ _
        (liveRequest b) := ⟨rfl, hread, rfl, hbranch.symm ▸ haccepts⟩
    have hnil := hstops (workingAdapters .null) quietSurroundings (pickedQueue (liveRequest b)) "job-1"
      (pickedRow (liveRequest b)) (liveRequest b) rfl hread hbranch
    rw [processJob_of_accepts hreach, runPipeline_calls] at hnil
    cases hnil
  · intro hrefused adapters around q jobId row request hrow hread hbranch
    by_contra hcalls
    obtain ⟨job, q₁, request', hreach, -⟩ := calls_of_ne_nil hcalls
    obtain ⟨row', hrow', -, hjob, -⟩ := JobQueue.transition_ok hreach.moved
    have hsame : request' = request := by
      have hread' := hreach.read
      rw [hjob] at hread'
      dsimp only at hrow'
      rw [hrow] at hrow'
      obtain rfl := Option.some.inj hrow'
      exact Option.some.inj (hread'.symm.trans hread)
    exact hrefused (hbranch ▸ hsame ▸ hreach.accepted)

/-- Of the branches that the writer refuses, the executor stops those that it covers. -/
theorem protected_branches_agree_iff {b : String} (h : Branching.isProtectedBranch (some b) = true) :
    (AlwaysStops b ↔ ExecutorCovers b) ∧
      ((isProtectedBranch b = true ∨ (RuntimePolicy.validateBranchName (some b)).allowed = false)
        ↔ ExecutorCovers b) := by
  have hb : b ≠ "" := by
    rintro rfl
    exact absurd h (by decide)
  have hcovers : ¬ExecutorAccepts b ↔ ExecutorCovers b := by
    rw [executorAccepts_iff h, not_not]
  refine ⟨(alwaysStops_iff hb).trans hcovers, ?_⟩
  rw [← hcovers, ExecutorAccepts, not_and_or]
  simp

theorem protected_branches_agree_main : Branching.isProtectedBranch (some "origin/main") = true ∧
    (AlwaysStops "origin/main" ↔ ExecutorCovers "origin/main") :=
  ⟨by decide +kernel, (protected_branches_agree_iff (by decide +kernel)).1⟩

/-- The writer refuses `staging`; the executor pushes it. -/
theorem staging_is_pushed : Branching.isProtectedBranch (some "staging") = true ∧
    (processJob quietSurroundings (workingAdapters (.obj [("status", .str "passed")]))
      (pickedQueue (liveRequest "staging")) "job-1").calls.map
        (fun call => (call.stage, call.context.branch)) =
      [(.provision, "staging"), (.apply, "staging"), (.run, "staging"), (.commit, "staging"),
        (.push, "staging"), (.openPr, "staging")] :=
  ⟨by decide +kernel, by decide +kernel⟩

end CodingExecutorWorker

end ForgeKit
