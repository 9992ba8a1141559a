import ForgeKit.Approval.IssueWorker
import ForgeKit.CodingExecute.SessionWriters
import ForgeKit.GithubWorkos.GithubWriter

/-!
# The row of a work order (`github_work_order_executor.py`)

`process_job` as one call, with the session store and the GitHub writer it was given. The row is in
progress from the first transition on; whatever raises before the last one leaves it there.

* `settled_processStage_iff` — a row in progress, from the stage that the call gets to
* `processJob_settles_iff` — when the row is saved or waits for a retry, without a lease
-/

namespace ForgeKit

namespace WorkOrder

open GithubWorkos (GithubWriter AuditEnv ActionOptions GithubWriteResult)

/-! ## The session store -/

/-- A session as the worker reads it. -/
structure StoredSession where
  sessionId : String
  prompt : String
  referencesUser : List String
  extra : Json

/-- What `load_session_fn` does. -/
inductive LoadResult where
  | raises
  | returns (session : Option StoredSession)

/-- The calls of `load_session_fn` that decide something. -/
inductive LoadPoint where
  | recoverRepo
  | continueToCoding

/--
What the worker was given. `_write_session_anchor` and the calls of `update_session_fn` are tried, and
nothing looks at what comes of them.
-/
structure ProcessEnv where
  load : LoadPoint → LoadResult
  /-- The owner and the repository that `parse_github_target` finds; `none` is an exception. -/
  parseGithubTarget : String → Option (Option (String × String))
  /-- `recover_plan_from_work_order`. -/
  recoverPlan : GitHubWorkOrder → Option (Dict Json)
  /-- `writer_factory`. -/
  writer : GitHubWorkOrder → Option (GithubWriter × String)
  audit : AuditEnv
  continuation : Continuation.Deps
  /-- `_now_iso(None)`. -/
  time : String
  /-- `type(exc).__name__` for a payload that cannot be read. -/
  parseError : Dict Json → String

namespace ProcessEnv

variable (env : ProcessEnv)

/-- A load with `except Exception`. -/
def loaded (point : LoadPoint) : Option StoredSession :=
  match env.load point with
  | .raises => none
  | .returns session => session

/-! ## `_recover_repo_for_work_order` -/

/-- `token.strip().strip("(),.;<>")` of each token. -/
def tokens (source : String) : List String :=
  ((source.toList.splitOnP PyText.isSpace).filter (· ≠ [])).map fun token =>
    String.ofList (Trim.trim (fun c => "(),.;<>".toList.contains c) token)

/-- The tokens that look like a URL. -/
def urlTokens (source : String) : List String :=
  (tokens source).filter fun token =>
    PyText.startsWith token "http://" || PyText.startsWith token "https://"
      || PyText.startsWith token "github.com"

/-- The repository that the session names. -/
def storedRepo (session : StoredSession) : Option String :=
  match session.extra with
  | .obj extra =>
    let stored := PyText.strip (Dict.strOr extra "coding_repo_full_name" "")
    if stored ≠ "" && PyText.contains stored "/" then some stored else none
  | _ => none

/-- The first candidate that names an owner and a repository; `none` is an exception. -/
def firstTarget : List String → Option (Option String)
  | [] => some none
  | raw :: rest =>
    match env.parseGithubTarget raw with
    | none => none
    | some none => firstTarget rest
    | some (some (owner, repo)) =>
      let owner := PyText.strip owner
      let repo := PyText.strip repo
      if owner ≠ "" && repo ≠ "" then some (some (owner ++ "/" ++ repo)) else firstTarget rest

/-- `_recover_repo_for_work_order`; `none` is an exception. -/
def recoverRepo (order : GitHubWorkOrder) : Option (Option String) :=
  match env.loaded .recoverRepo with
  | none => env.firstTarget (urlTokens order.requestSummary)
  | some session =>
    match storedRepo session with
    | some stored => some (some stored)
    | none =>
      env.firstTarget
        (session.referencesUser ++ urlTokens session.prompt ++ urlTokens order.requestSummary)

/-- The repository is blank and looking for one raises. -/
def recoveryRaises (payload : Dict Json) : Bool :=
  match GitHubWorkOrder.fromPayload payload with
  | none => false
  | some order =>
    PyText.strip (order.repo.getD "") == "" && (env.recoverRepo order).isNone

/-! ## The rest of the call -/

/-- `_continue_to_coding`: whether it promoted the session, and its noop reason. -/
def continueToCoding (order : GitHubWorkOrder) (anchor : Dict Json) : Bool × Option String :=
  if order.sessionId = "" then (false, none)
  else
    match env.loaded .continueToCoding with
    | none => (false, none)
    | some session =>
      let outcome := Continuation.promoteSessionToCodingReady env.continuation
        { anchor, order, time := env.time }
        { sessionId := session.sessionId, prompt := session.prompt
          extra := (session.extra.obj?).getD [] }
      (outcome.promoted, outcome.noopReason)

/-- What the stages of the call ask for. -/
def deps : WorkerDeps where
  recoverRepo order := (env.recoverRepo order).join
  recoverPlan := env.recoverPlan
  writer order := (env.writer order).map Prod.snd
  continuation := env.continueToCoding
  parseError := env.parseError

/-- `writer.create_issue`; `none` is an exception. -/
def createIssue (order : GitHubWorkOrder) (call : CreateIssueCall) : Option GithubWriteResult :=
  match env.writer order with
  | none => none
  | some (writer, _) =>
    let options : ActionOptions :=
      { autonomyLevel := call.autonomyLevel, sessionId := some call.sessionId
        decisionId := call.decisionId }
    (writer.createIssue env.audit options call.repo call.title call.body call.labels
      call.assignees).result.toOption

/-- `result.succeeded`. -/
def succeeded (result : GithubWriteResult) : Bool := result.ok && result.outcome == .ok

end ProcessEnv

/-- How a call of `process_job` ends. -/
structure Processed where
  queue : JobQueue
  raised : Bool

/-- The `saved` transition. -/
def closeRow (q : JobQueue) (jobId : String) (result : Dict Json) (now : Time) : Processed :=
  match q.transition
      { jobId := jobId, target := .saved, result := some result, clearLease := true, now := now } with
  | .error _ => ⟨q, true⟩
  | .ok (_, q') => ⟨q', false⟩

/-- `process_job` of a row in progress, from the stage that it gets to. -/
def processStage (env : ProcessEnv) (q : JobQueue) (row : Job) (now : Time) :
    Except (Option String) WorkStage → Processed
  | .error none => ⟨q, true⟩
  | .error (some error) =>
    ⟨IssueDesk.giveUp q row.jobId error now, (GitHubWorkOrder.fromPayload row.payload).isNone⟩
  | .ok .picked => ⟨q, true⟩
  | .ok (.closing result) => closeRow q row.jobId result now
  | .ok (.creating order call) =>
    match env.createIssue order call with
    | none => ⟨q, true⟩
    | some result =>
      closeRow q row.jobId
        (createdResult env.deps order (ProcessEnv.succeeded result) result.outcome.value
          ((result.body.obj?).getD [])) now

/-- `process_job`. -/
def processJob (env : ProcessEnv) (q : JobQueue) (job : Job) (now : Time) : Processed :=
  match q.transition { jobId := job.jobId, target := .inProgress, now := now } with
  | .error _ => ⟨q, true⟩
  | .ok (row, q) =>
    if env.recoveryRaises row.payload then ⟨q, true⟩
    else processStage env q row now (stageOf env.deps row.payload)

/-! ## The row -/

/-- The row is saved or waits for a retry, and nobody has a lease on it. -/
def Settled (q : JobQueue) (jobId : String) : Prop :=
  ∃ row, q.get jobId = some row ∧ (row.state = .saved ∨ row.state = .failedRetryable) ∧
    row.pickedBy = none ∧ row.pickedUntil = none

/-- What `_execute_auto_create` is called with. -/
structure AutoCreate where
  order : GitHubWorkOrder
  plan : Dict Json
  writer : GithubWriter
  autonomyLevel : String

/-- The auto-create that a payload gets to. -/
def autoCreateOf (env : ProcessEnv) (payload : Dict Json) : Option AutoCreate := do
  let order ← (GitHubWorkOrder.fromPayload payload).bind (repoOf env.deps)
  if 0 < order.existingIssueNumber.getD 0 then none
  else
    let plan ← planOf env.deps order
    let (writer, autonomyLevel) ← env.writer order
    return { order, plan, writer, autonomyLevel }

/-- The client, where the writer calls it for an issue, raises or returns a mapping or nothing. -/
def MappingAnswer (w : GithubWriter) (call : CreateIssueCall) : Prop :=
  (w.policyGate "github_issue_create" call.autonomyLevel (some call.repo)).allowed = true →
    w.dryRun = false → w.live = true → ∀ client ∈ w.client, ∀ v,
      client (.createIssue call.repo call.title call.body (GithubWorkos.cleaned call.labels)
        (GithubWorkos.cleaned call.assignees)) = .returns v → v.truthy = true → ∃ d, v = .obj d

/-- Nothing of the auto-create raises. -/
structure AutoCreate.Accepted (env : ProcessEnv) (a : AutoCreate) : Prop where
  labels : (planTexts a.plan "labels").isSome = true
  assignees : (planTexts a.plan "assignees").isSome = true
  title : (Titles.validateIssueTitle env.audit.other
    (PyText.strip (a.plan.strOr "title" "")).toList).ok = true
  answer : ∀ call, createIssueCall a.order a.plan a.autonomyLevel = some call →
    MappingAnswer a.writer call

/-- Nothing raises between the row's two transitions. -/
structure Safe (env : ProcessEnv) (payload : Dict Json) : Prop where
  recovers : env.recoveryRaises payload = false
  creates : ∀ a, autoCreateOf env payload = some a → a.Accepted env

section Rows

variable {env : ProcessEnv} {q : JobQueue} {jobId : String} {row : Job}

theorem not_settled_of_inProgress (hrow : q.get jobId = some row) (hstate : row.state = .inProgress) :
    ¬Settled q jobId := by
  rintro ⟨row', hrow', hsettled, -⟩
  obtain rfl := Option.some.inj (hrow.symm.trans hrow')
  rw [hstate] at hsettled
  rcases hsettled with hsaved | hfailed
  · cases hsaved
  · cases hfailed

/-- A transition that clears the lease settles a row in progress. -/
theorem settled_commit (hrow : q.get jobId = some row) (hstate : row.state = .inProgress)
    {target : JobState} (htarget : target = .saved ∨ target = .failedRetryable)
    (result : Dict Json) (now : Time) :
    Settled (q.commit (q.transition { jobId := jobId, target := target, result := some result
                                      clearLease := true, now := now })) jobId := by
  have hedge : JobState.Edge row.state target := by
    rw [hstate]
    rcases htarget with rfl | rfl <;> decide
  have hget := JobQueue.get_commit_transition q
    { jobId := jobId, target := target, result := some result, clearLease := true, now := now } jobId
  rw [hrow, Option.map_some, JobQueue.TransitionArgs.rewrite,
    if_pos (JobQueue.TransitionArgs.moves_iff.mpr ⟨JobQueue.get_jobId hrow, hedge⟩)] at hget
  exact ⟨_, hget, htarget, rfl, rfl⟩

theorem closeRow_queue (q : JobQueue) (jobId : String) (result : Dict Json) (now : Time) :
    (closeRow q jobId result now).queue
      = q.commit (q.transition { jobId := jobId, target := .saved, result := some result
                                 clearLease := true, now := now }) := by
  unfold closeRow
  split
  · next h => rw [h, JobQueue.commit_error]
  · next h => rw [h, JobQueue.commit_ok]

/-! ## The stages -/

/-- A payload gets to an auto-create, or its stage is an error or a result to save. -/
theorem stageOf_eq (env : ProcessEnv) (payload : Dict Json) :
    (∃ a, autoCreateOf env payload = some a ∧ stageOf env.deps payload
        = match createIssueCall a.order a.plan a.autonomyLevel with
          | none => .error none
          | some call => .ok (.creating a.order call))
      ∨ (autoCreateOf env payload = none
        ∧ ((∃ error, stageOf env.deps payload = .error (some error))
          ∨ ∃ result, stageOf env.deps payload = .ok (.closing result))) := by
  unfold autoCreateOf stageOf
  cases hread : GitHubWorkOrder.fromPayload payload with
  | none => exact .inr ⟨rfl, .inl ⟨_, rfl⟩⟩
  | some order₀ =>
    rw [Option.bind_some]
    dsimp only
    cases hrepo : repoOf env.deps order₀ with
    | none => exact .inr ⟨rfl, .inl ⟨_, rfl⟩⟩
    | some order =>
      dsimp only [Option.bind_eq_bind, Option.bind_some]
      by_cases hexisting : 0 < order.existingIssueNumber.getD 0
      · rw [if_pos hexisting, if_pos hexisting]
        exact .inr ⟨rfl, .inr ⟨_, rfl⟩⟩
      · rw [if_neg hexisting, if_neg hexisting]
        cases hplan : planOf env.deps order with
        | none => exact .inr ⟨rfl, .inl ⟨_, rfl⟩⟩
        | some plan =>
          have hwriter : env.deps.writer order = (env.writer order).map Prod.snd := rfl
          rw [hwriter]
          cases env.writer order with
          | none => exact .inr ⟨rfl, .inl ⟨_, rfl⟩⟩
          | some written =>
            obtain ⟨writer, autonomyLevel⟩ := written
            exact .inl ⟨_, rfl, rfl⟩

theorem writer_of_autoCreateOf {payload : Dict Json} {a : AutoCreate}
    (h : autoCreateOf env payload = some a) :
    env.writer a.order = some (a.writer, a.autonomyLevel) := by
  unfold autoCreateOf at h
  simp only [Option.bind_eq_bind, Option.bind_eq_some_iff] at h
  obtain ⟨order, -, h⟩ := h
  split at h
  · cases h
  · simp only [Option.bind_eq_some_iff] at h
    obtain ⟨plan, -, ⟨writer, autonomyLevel⟩, hwriter, hsome⟩ := h
    obtain rfl := Option.some.inj hsome
    exact hwriter

theorem createIssueCall_eq_some {order : GitHubWorkOrder} {plan : Dict Json} {level : String}
    {call : CreateIssueCall} (h : createIssueCall order plan level = some call) :
    (planTexts plan "labels").isSome = true ∧ (planTexts plan "assignees").isSome = true
      ∧ call.title = PyText.strip (plan.strOr "title" "") := by
  unfold createIssueCall at h
  simp only [Option.bind_eq_bind, Option.bind_eq_some_iff] at h
  obtain ⟨labels, hlabels, assignees, hassignees, hsome⟩ := h
  obtain rfl := Option.some.inj hsome
  exact ⟨by rw [hlabels]; rfl, by rw [hassignees]; rfl, rfl⟩

theorem exists_createIssueCall {order : GitHubWorkOrder} {plan : Dict Json} (level : String)
    (hlabels : (planTexts plan "labels").isSome = true)
    (hassignees : (planTexts plan "assignees").isSome = true) :
    ∃ call, createIssueCall order plan level = some call := by
  obtain ⟨labels, hlabels⟩ := Option.isSome_iff_exists.mp hlabels
  obtain ⟨assignees, hassignees⟩ := Option.isSome_iff_exists.mp hassignees
  unfold createIssueCall
  rw [hlabels, hassignees]
  exact ⟨_, rfl⟩

/-! ## The call of the writer -/

theorem createIssue_isSome_iff {order : GitHubWorkOrder} {writer : GithubWriter} {level : String}
    (hwriter : env.writer order = some (writer, level)) (call : CreateIssueCall) :
    (env.createIssue order call).isSome = true
      ↔ (Titles.validateIssueTitle env.audit.other call.title.toList).ok = true
        ∧ MappingAnswer writer call := by
  unfold ProcessEnv.createIssue GithubWriter.createIssue
  rw [hwriter]
  dsimp only
  cases hok : (Titles.validateIssueTitle env.audit.other call.title.toList).ok with
  | false =>
    rw [Bool.not_false, if_pos rfl]
    split
    · exact iff_of_false (fun h => Bool.noConfusion h) fun h => Bool.noConfusion h.1
    · exact iff_of_false (fun h => Bool.noConfusion h) fun h => Bool.noConfusion h.1
  | true =>
    rw [if_neg (GithubWorkos.strip_ne_of_titleAccepted hok), Bool.not_true, if_neg Bool.false_ne_true,
      GithubWorkos.run_isSome_iff]
    exact ⟨fun hanswer => ⟨rfl, hanswer⟩, fun h => h.2⟩

/-- A row in progress is settled from its stage on when the auto-create it gets to raises nothing. -/
theorem settled_processStage_iff (hrow : q.get row.jobId = some row) (hstate : row.state = .inProgress)
    (now : Time) :
    Settled (processStage env q row now (stageOf env.deps row.payload)).queue row.jobId
      ↔ ∀ a, autoCreateOf env row.payload = some a → a.Accepted env := by
  rcases stageOf_eq env row.payload with ⟨a, ha, hstage⟩ | ⟨hnone, hstage⟩
  · have hone : (∀ a', autoCreateOf env row.payload = some a' → a'.Accepted env) ↔ a.Accepted env := by
      refine ⟨fun h => h a ha, fun haccepted a' ha' => ?_⟩
      obtain rfl := Option.some.inj (ha.symm.trans ha')
      exact haccepted
    rw [hstage, hone]
    cases hcall : createIssueCall a.order a.plan a.autonomyLevel with
    | none =>
      refine iff_of_false (not_settled_of_inProgress hrow hstate) fun haccepted => ?_
      obtain ⟨call, hsome⟩ :=
        exists_createIssueCall a.autonomyLevel haccepted.labels haccepted.assignees
      rw [hcall] at hsome
      cases hsome
    | some call =>
      obtain ⟨hlabels, hassignees, htitle⟩ := createIssueCall_eq_some hcall
      have hiff := createIssue_isSome_iff (writer_of_autoCreateOf ha) call
      unfold processStage
      dsimp only
      cases hresult : env.createIssue a.order call with
      | none =>
        rw [hresult] at hiff
        refine iff_of_false (not_settled_of_inProgress hrow hstate) fun haccepted => ?_
        have hok := haccepted.title
        rw [← htitle] at hok
        exact Bool.noConfusion (hiff.mpr ⟨hok, haccepted.answer call hcall⟩)
      | some result =>
        rw [hresult] at hiff
        obtain ⟨hok, hanswer⟩ := hiff.mp rfl
        dsimp only
        rw [closeRow_queue]
        refine iff_of_true (settled_commit hrow hstate (.inl rfl) _ _) ⟨hlabels, hassignees, ?_, ?_⟩
        · rw [← htitle]
          exact hok
        · intro call' hcall'
          obtain rfl := Option.some.inj (hcall.symm.trans hcall')
          exact hanswer
  · refine iff_of_true ?_ fun a ha => ?_
    · rcases hstage with ⟨error, hstage⟩ | ⟨result, hstage⟩
      · rw [hstage]
        exact settled_commit hrow hstate (.inr rfl) _ _
      · rw [hstage, processStage, closeRow_queue]
        exact settled_commit hrow hstate (.inl rfl) _ _
    · rw [hnone] at ha
      cases ha

end Rows

/--
**A row that is processed is settled exactly when nothing raises between its two transitions.** For
every client, session store, queue and row, a row that can be started is saved or waits for a retry
after `process_job`, without a lease, when the recovery of its repository and its auto-create raise
nothing; otherwise it stays in progress. A row that cannot be started stays as it was.
-/
theorem processJob_settles_iff (env : ProcessEnv) (q : JobQueue) (job : Job) (now : Time) :
    Settled (processJob env q job now).queue job.jobId ↔
      (∃ row, q.get job.jobId = some row ∧ JobState.Edge row.state .inProgress
          ∧ Safe env row.payload)
        ∨ ((∀ row, q.get job.jobId = some row → ¬JobState.Edge row.state .inProgress)
          ∧ Settled q job.jobId) := by
  unfold processJob
  cases htransition : q.transition { jobId := job.jobId, target := .inProgress, now := now } with
  | error e =>
    have hrefused : ∀ row, q.get job.jobId = some row → ¬JobState.Edge row.state .inProgress :=
      JobQueue.transition_error htransition
    refine ⟨fun h => .inr ⟨hrefused, h⟩, ?_⟩
    rintro (⟨row, hrow, hedge, -⟩ | ⟨-, h⟩)
    · exact absurd hedge (hrefused row hrow)
    · exact h
  | ok started =>
    obtain ⟨row', q'⟩ := started
    obtain ⟨row, hrow, hedge, happly, hrow'⟩ := JobQueue.transition_ok htransition
    have hid : row'.jobId = job.jobId := JobQueue.get_jobId hrow'
    have hstate : row'.state = .inProgress := by rw [happly]; rfl
    have hpayload : row'.payload = row.payload := by rw [happly]; rfl
    have hsafe : (∃ row, q.get job.jobId = some row ∧ JobState.Edge row.state .inProgress
          ∧ Safe env row.payload)
        ∨ ((∀ row, q.get job.jobId = some row → ¬JobState.Edge row.state .inProgress)
          ∧ Settled q job.jobId) ↔ Safe env row'.payload := by
      rw [hpayload]
      constructor
      · rintro (⟨other, hother, -, hsafe⟩ | ⟨hrefused, -⟩)
        · obtain rfl := Option.some.inj (hrow.symm.trans hother)
          exact hsafe
        · exact absurd hedge (hrefused row hrow)
      · exact fun h => .inl ⟨row, hrow, hedge, h⟩
    rw [hsafe]
    dsimp only at hrow' ⊢
    rw [← hid] at hrow' ⊢
    split
    · next hraises =>
      refine iff_of_false (not_settled_of_inProgress hrow' hstate) fun hsafe => ?_
      rw [hsafe.recovers] at hraises
      cases hraises
    · next hrecovers =>
      rw [settled_processStage_iff hrow' hstate now]
      exact ⟨fun h => ⟨Bool.not_eq_true _ ▸ hrecovers, h⟩, fun hsafe => hsafe.creates⟩

/-! ## A title that is refused -/

/-- A live writer and no session. -/
def liveEnv : ProcessEnv where
  load _ := .returns none
  parseGithubTarget _ := some none
  recoverPlan _ := none
  writer _ := some (GithubWorkos.liveWriter ["owner/repo"], "L2")
  audit := GithubWorkos.plainEnv
  continuation := { recommend := fun _ _ => none, buildJob := some }
  time := "2026-01-01T00:00:00+00:00"
  parseError _ := "TypeError"

/-- An order whose plan has this title. -/
def titledOrder (title : String) : GitHubWorkOrder where
  proposalId := "proposal"
  sessionId := "session"
  approvalId := "card"
  approvedBy := "operator"
  approvedAt := "2026-01-01T00:00:00+00:00"
  requestSummary := ""
  repo := some "owner/repo"
  dryRun := false
  issueAutoCreatePlan := some [("title", .str title)]

/-- A queue whose only row is this order. -/
def queueOf (order : GitHubWorkOrder) : JobQueue :=
  JobQueue.empty.commit (JobQueue.empty.enqueue
    { jobId := "job", sessionId := order.sessionId, jobType := jobTypeGithubWorkOrder
      payload := order.toPayload, now := 0 })

def pickArgs : JobQueue.PickArgs where
  workerId := "worker"
  jobTypes := [jobTypeGithubWorkOrder]
  now := 1

/-- What becomes of the row that a worker picks and processes: its state, and who has its lease. -/
def runOne (env : ProcessEnv) (q : JobQueue) : Option (JobState × Option String) :=
  match q.pick pickArgs with
  | .ok (some job, q) =>
    ((processJob env q job 2).queue.get job.jobId).map fun row => (row.state, row.pickedBy)
  | _ => none

example : runOne liveEnv (queueOf (titledOrder "[구현] 로그인 오류를 고친다")) = some (.saved, none) := by
  decide +kernel

/-- **An English title leaves the row in progress**, with the lease of the worker that picked it. -/
theorem english_title_keeps_the_lease :
    runOne liveEnv (queueOf (titledOrder "Fix the login")) = some (.inProgress, some "worker")
      ∧ ¬∀ (env : ProcessEnv) (q q' : JobQueue) (args : JobQueue.PickArgs) (job : Job) (now : Time),
        q.pick args = .ok (some job, q') →
          Settled (processJob env q' job now).queue job.jobId := by
  have hrun : runOne liveEnv (queueOf (titledOrder "Fix the login"))
      = some (.inProgress, some "worker") := by decide +kernel
  refine ⟨hrun, fun h => ?_⟩
  unfold runOne at hrun
  split at hrun
  · next job q hpick =>
    obtain ⟨row, hrow, hpair⟩ := Option.map_eq_some_iff.mp hrun
    obtain ⟨hstate, -⟩ := Prod.mk.inj hpair
    exact not_settled_of_inProgress hrow hstate (h _ _ _ _ _ _ hpick)
  · cases hrun

end WorkOrder

end ForgeKit
