import ForgeKit.Approval.ApprovalProducer
import ForgeKit.Approval.WorkOrder

/-!
# Asking for the approval of GitHub work (`github_workos_adapter.py`)

`enqueue_github_work_approval` builds a proposal for a request that asks for code and enqueues its
approval card. Before that it asks the matcher of approval replies for a posted card, and the matcher
falls back to the newest card of the session.

* `reportsDuplicate_iff` — which requests are reported as duplicates
* `swallowed_iff` — when these are the requests whose own card is in flight or posted
-/

namespace ForgeKit

namespace WorkApproval

open ApprovalReply (ApprovalRequest)
open WorkOrder (GitHubWorkOrderProposal approvalKindEngineeringWrite)

/-! ## What the text asks for -/

/-- `_CODING_INTENT_PHRASES`. -/
def codingIntentPhrases : List String :=
  ["pr 올려", "pr을 올려", "pr 만들", "pr을 만들", "pr 작성", "pr 생성", "pull request", "draft pr",
   "draft pull", "이슈로 만들", "이슈를 만들", "이슈 만들어", "issue 만들", "issue 생성", "github 이슈",
   "버그 고쳐", "버그고쳐", "버그 수정", "bug fix", "fix this bug", "fix the bug", "구현해", "구현 해",
   "구현 부탁", "코드 작성", "코드 짜", "코드 짜줘", "기능 구현", "implement this", "implement it",
   "테스트 추가", "테스트 작성", "테스트 보강", "단위 테스트 추가", "유닛 테스트 추가", "regression test",
   "add tests", "write tests", "리팩터", "리팩토", "refactor", "github actions", "github action",
   "ci 수정", "ci 고쳐", "ci 작성", "workflow 수정", "workflow 고쳐", "actions workflow", "actions 고쳐",
   "release workflow", "branch 만들", "branch 생성", "feature branch", "체크인", "commit 만들",
   "git push", "코드 수정", "코드 수정해", "코드를 수정", "코드 패치", "패치 작성", "patch 작성",
   "패치를 만들", "patch 만들", "approval_required", "full_stack_single_repo",
   "full-stack-single-repo", "single_repo", "single-repo", "코딩으로 진행", "구현으로 진행",
   "풀스택으로 진행", "코딩 권한 제안", "수정 권한 제안", "구현 권한 제안"]

/-- `_RESEARCH_ONLY_PHRASES`. -/
def researchOnlyPhrases : List String :=
  ["코드 수정 없이", "코드 수정없이", "코드 수정은 없", "코드 수정하지 말", "코드 수정 하지 말",
   "코드 수정 금지", "리서치만 해", "리서치만 정리", "조사만 해", "조사만 정리", "research only",
   "research-only", "no code change", "do not write code", "don't write code"]

/-- `_ACTION_SIGNATURES`. -/
def actionSignatures : List (String × List String) :=
  [("github_actions", ["github actions", "github action", "workflow 수정", "workflow 고쳐",
      "actions workflow", "release workflow", "ci 수정", "ci 고쳐", "ci 작성", "actions 고쳐"]),
   ("bug_fix", ["버그 고쳐", "버그고쳐", "버그 수정", "bug fix", "fix this bug", "fix the bug"]),
   ("test_add", ["테스트 추가", "테스트 작성", "테스트 보강", "단위 테스트 추가", "유닛 테스트 추가",
      "regression test", "add tests", "write tests"]),
   ("refactor", ["리팩터", "리팩토", "refactor"]),
   ("issue_create", ["이슈로 만들", "이슈를 만들", "이슈 만들어", "issue 만들", "issue 생성",
      "github 이슈"]),
   ("pull_request", ["pr 올려", "pr을 올려", "pr 만들", "pr을 만들", "pr 작성", "pr 생성",
      "pull request", "draft pr", "draft pull"]),
   ("implement", ["구현해", "구현 해", "구현 부탁", "코드 작성", "코드 짜", "코드 짜줘", "기능 구현",
      "implement this", "implement it"]),
   ("patch", ["코드 수정", "코드 수정해", "코드를 수정", "코드 패치", "패치 작성", "patch 작성",
      "패치를 만들", "patch 만들"])]

/-- `_OBSIDIAN_INTENT_PHRASES`. -/
def obsidianIntentPhrases : List String :=
  ["obsidian에 정리", "obsidian에 저장", "옵시디언에 정리", "옵시디언에 저장", "토의 기록 obsidian에",
   "토의 기록 옵시디언에", "vault에 저장", "vault 에 저장", "knowledge note 저장",
   "knowledge note 만들", "knowledge-note 저장", "save to obsidian", "save to vault"]

/-- `CodingIntent`. -/
structure CodingIntent where
  codingRequired : Bool
  matched : List String := []
  actions : List String := []
  researchOnly : Bool := false

/-- `detect_coding_intent`. -/
def detectCodingIntent (text : String) : CodingIntent :=
  let norm := ApprovalReply.normalize text
  if norm = "" then { codingRequired := false }
  else if researchOnlyPhrases.any (PyText.contains norm) then
    { codingRequired := false, researchOnly := true }
  else
    let matched := (codingIntentPhrases.filter (PyText.contains norm)).eraseDups
    if matched.isEmpty then { codingRequired := false }
    else
      { codingRequired := true
        matched
        actions := ((actionSignatures.filter fun signature =>
          signature.2.any (PyText.contains norm)).map Prod.fst).eraseDups }

/-- `detect_obsidian_intent`. -/
def detectObsidianIntent (text : String) : Bool :=
  let norm := ApprovalReply.normalize text
  norm ≠ "" && obsidianIntentPhrases.any (PyText.contains norm)

/-- The constants `SKIPPED_…` of a request that is not routed. -/
inductive RouteSkip where
  | researchOnly
  | noCodingIntent
  | obsidianIntent
deriving DecidableEq, Repr

def RouteSkip.value : RouteSkip → String
  | .researchOnly => "research_only"
  | .noCodingIntent => "no_coding_intent"
  | .obsidianIntent => "obsidian_intent"

/-- `SKIPPED_DUPLICATE_APPROVAL`. -/
def skippedDuplicateApproval : String := "duplicate_approval_in_flight"

/-- `should_route_to_github_workos`: why the request is not routed. -/
def shouldRouteToGithubWorkos (extra : Dict Json) (requestText : String) : Option RouteSkip :=
  if detectObsidianIntent requestText then some .obsidianIntent
  else if PyText.lower (PyText.strip (extra.strOr "lifecycle_mode" "")) = "research_only" then
    some .researchOnly
  else
    let intent := detectCodingIntent requestText
    if intent.researchOnly then some .researchOnly
    else if !intent.codingRequired then some .noCodingIntent
    else none

/-! ## The proposal -/

/-- A role that is named and new is added. -/
def addRole (roles : List String) (role : Json) : List String :=
  let text := PyText.strip (if role.truthy then role.toStr else "")
  if text ≠ "" && !roles.contains text then roles ++ [text] else roles

/-- `_resolve_roles_from_session`: the selected and the excluded roles; `none` is an exception. -/
def resolveRolesFromSession (extra : Dict Json) : Option (List String × List String) := do
  let excluded := match extra.getJson "excluded_research_roles" with
    | .arr roles => roles.foldl addRole []
    | _ => []
  let proposed ← match extra.getJson "coding_proposal" with
    | .obj proposal => do
      let review ← (Dict.getJson proposal "review_roles").items?
      let participants ← (Dict.getJson proposal "participant_roles").items?
      some (Dict.getJson proposal "executor_role" :: (review ++ participants))
    | _ => some []
  let active ← (extra.getJson "active_research_roles").items?
  let selected := (proposed ++ active).foldl addRole []
  -- the tech lead reviews first, so there always is a role
  let selected := "tech-lead" :: selected.filter (· ≠ "tech-lead")
  return (selected.filter fun role => !excluded.contains role, excluded)

/-- `_short_request_summary`. -/
def shortRequestSummary (text : String) (maxChars : Nat) : String :=
  let cleaned := ApprovalReply.collapseSpaces false (PyText.strip text).toList
  if cleaned.length ≤ maxChars then String.ofList cleaned
  else
    let head := cleaned.take maxChars
    let head := match PyText.beforeLast [' '] head with
      | some before => if maxChars / 2 ≤ before.length then before else head
      | none => head
    String.ofList (head.rdropWhile fun c => " ,.;:".toList.contains c) ++ "…"

/-- `_coerce_existing_issue`. -/
def coerceExistingIssue (explicit : Option Int) (extra : Dict Json) : Option Int :=
  match explicit.filter (0 < ·) with
  | some value => some value
  | none =>
    match extra.getJson "github_work_order_issue" with
    | .obj anchor =>
      (((Dict.getJson anchor "issue_number").orElse (.int 0)).toInt?).filter (0 < ·)
    | _ => none

/-- A plan that `build_issue_auto_create_plan` made. -/
structure IssuePlan where
  payload : Dict Json
  auditReason : String
  needsOperatorDecision : Bool

/-- The session, and the arguments of the request. -/
structure WorkRequest where
  sessionId : String
  extra : Dict Json
  requestText : String
  sourceChannelId : Option Int := none
  sourceThreadId : Option Int := none
  sourceMessageId : Option Int := none
  requestedBy : String := ""
  repo : Option String := none
  baseBranch : Option String := none
  proposalExtra : Dict Json := []
  proposalId : Option String := none
  repoContract : Bool := false
  existingIssueNumber : Option Int := none

/-- What building the proposal asks for. -/
structure BuildEnv where
  /-- The plan of the request's repository for a summary, where it has a contract or a name. -/
  issuePlan : WorkRequest → String → Option IssuePlan
  newProposalId : String
  utcNow : String

/-- `build_github_work_order_proposal` of a request that is routed; `none` is an exception. -/
def buildGithubWorkOrderProposal (build : BuildEnv) (request : WorkRequest) :
    Option GitHubWorkOrderProposal := do
  let intent := detectCodingIntent request.requestText
  let (selected, excluded) ← resolveRolesFromSession request.extra
  let summary := shortRequestSummary request.requestText 280
  let existing := coerceExistingIssue request.existingIssueNumber request.extra
  let plan := if existing.isSome then none else build.issuePlan request summary
  let extra := match plan with
    | none => request.proposalExtra
    | some plan =>
      let extra := Dict.setDefault request.proposalExtra "issue_auto_create_audit_reason"
        (.str plan.auditReason)
      let extra := if plan.needsOperatorDecision then
        Dict.setDefault extra "issue_auto_create_needs_decision" (.bool true) else extra
      if request.repoContract then extra
      else Dict.setDefault extra "issue_auto_create_contract_source" (.str "minimal_repo_string")
  let proposalId := PyText.strip (request.proposalId.getD "")
  return {
    proposalId := if proposalId = "" then build.newProposalId else proposalId
    sessionId := request.sessionId
    sourceChannelId := request.sourceChannelId
    sourceThreadId := request.sourceThreadId
    sourceMessageId := request.sourceMessageId
    requestSummary := summary
    selectedRoles := selected
    excludedRoles := excluded
    intentActions := intent.actions
    intentEvidence := intent.matched
    repo := request.repo
    baseBranch := request.baseBranch
    requestedBy := request.requestedBy
    extra := extra
    createdAt := build.utcNow
    issueAutoCreatePlan := plan.map IssuePlan.payload
    existingIssueNumber := existing }

/-- `GitHubWorkOrderProposal.to_payload`. -/
def proposalPayload (p : GitHubWorkOrderProposal) : Dict Json :=
  [("proposal_id", .str p.proposalId), ("session_id", .str p.sessionId),
   ("source_channel_id", optInt p.sourceChannelId), ("source_thread_id", optInt p.sourceThreadId),
   ("source_message_id", optInt p.sourceMessageId), ("request_summary", .str p.requestSummary),
   ("coding_required", .bool p.codingRequired),
   ("selected_roles", .arr (p.selectedRoles.map Json.str)),
   ("excluded_roles", .arr (p.excludedRoles.map Json.str)),
   ("intent_actions", .arr (p.intentActions.map Json.str)),
   ("intent_evidence", .arr (p.intentEvidence.map Json.str)),
   ("approval_kind", .str p.approvalKind), ("approval_level", .str p.approvalLevel),
   ("repo", optText p.repo), ("base_branch", optText p.baseBranch),
   ("requested_by", .str p.requestedBy), ("dry_run_default", .bool p.dryRunDefault),
   ("extra", .obj p.extra), ("created_at", .str p.createdAt),
   ("issue_auto_create_plan", (p.issueAutoCreatePlan.map Json.obj).getD .null),
   ("existing_issue_number", optInt p.existingIssueNumber)]

/-- `a or b`, of texts. -/
def orText (a b : String) : String := if a = "" then b else a

/-- `_approval_request_from_proposal`. -/
def approvalRequestFromProposal (p : GitHubWorkOrderProposal) (createdBy : String) :
    ApprovalRequest :=
  let roleList := if p.selectedRoles.isEmpty then "tech-lead" else ", ".intercalate p.selectedRoles
  let actionLabel := if p.intentActions.isEmpty then "코드 변경" else ", ".intercalate p.intentActions
  { sessionId := p.sessionId
    approvalKind := approvalKindEngineeringWrite
    title := "GitHub 작업 시작 승인"
    summary := orText p.requestSummary "(요약 미포함)"
    requestedAction := actionLabel ++ " (역할: " ++ roleList
      ++ ") — 승인 시 dry-run github_work_order 가 큐에 적재됩니다."
    createdBy := orText createdBy (orText p.requestedBy "engineering-agent")
    sourceChannelId := p.sourceChannelId
    sourceThreadId := p.sourceThreadId
    sourceMessageId := p.sourceMessageId
    extra :=
      [("github_work_order_proposal", .obj (proposalPayload p)),
       ("intent_actions", .arr (p.intentActions.map Json.str)),
       ("intent_evidence", .arr (p.intentEvidence.map Json.str)),
       ("selected_roles", .arr (p.selectedRoles.map Json.str)),
       ("excluded_roles", .arr (p.excludedRoles.map Json.str)),
       ("approval_level", .str p.approvalLevel), ("proposal_id", .str p.proposalId),
       ("dry_run_default", .bool p.dryRunDefault)] }

/-! ## `ApprovalWorker.run_one` -/

/-- What the approval worker was given. -/
structure WorkerEnv where
  workerId : String
  /-- `_resolve_channel`. -/
  channel : Option Int
  /-- `post_fn` of the rendered request; `none` is an exception. -/
  post : ApprovalRequest → Option Json
  /-- `_short_error` of the exception for a row. -/
  shortError : Job → String

/-- `ApprovalJobOutcome`, or an exception, with the queue. -/
structure RunResult where
  queue : JobQueue
  outcome : Option (Job × Option String)

/-- The keys of the post that are kept, of those that are not `None`. -/
def savedResult (channel : Int) (posted : Json) : Dict Json :=
  match posted with
  | .obj posted =>
    ["posted_message_id", "thread_id", "url"].foldl
      (fun result key => match Dict.getJson posted key with
        | .null => result
        | value => Dict.set result key value)
      [("completed", .bool true), ("channel_id", .int channel)]
  | _ => [("completed", .bool true), ("channel_id", .int channel)]

/-- `process_job`. -/
def processApproval (env : WorkerEnv) (q : JobQueue) (job : Job) (now : Time) : RunResult :=
  match q.transition { jobId := job.jobId, target := .inProgress, now := now } with
  | .error _ => ⟨q, none⟩
  | .ok (row, q) =>
    let failed (error : String) : JobQueue :=
      q.commit (q.transition { jobId := row.jobId, target := .failedRetryable
                               result := some [("error", .str error)], clearLease := true, now := now })
    match env.channel with
    | none => ⟨failed "approval_channel_unset", some (row, some "approval_channel_unset")⟩
    | some channel =>
      match (ApprovalRequest.fromPayload row.payload).bind env.post with
      | none => ⟨failed (env.shortError row), none⟩
      | some posted =>
        match q.transition { jobId := row.jobId, target := .saved
                             result := some (savedResult channel posted), clearLease := true
                             now := now } with
        | .error _ => ⟨q, none⟩
        | .ok (saved, q) => ⟨q, some (saved, none)⟩

/-- `run_one`. -/
def runOne (env : WorkerEnv) (q : JobQueue) (request : ApprovalRequest) (jobId : String)
    (now : Time) : RunResult :=
  if request.sessionId = "" || request.approvalKind = "" then ⟨q, none⟩
  else
    match ApprovalWorker.enqueue q { request } jobId now with
    | .error _ => ⟨q, none⟩
    | .ok ((job, false), q) => ⟨q, some (job, some "duplicate_in_flight")⟩
    | .ok ((job, true), q) =>
      match q.pick { workerId := env.workerId, jobTypes := [Supersede.jobTypeApprovalPost]
                     now := now } with
      | .error _ => ⟨q, none⟩
      | .ok (none, q) => ⟨q, some (job, some "claimed_by_other_worker")⟩
      | .ok (some picked, q) =>
        if picked.jobId ≠ job.jobId then ⟨q, some (picked, some "claimed_by_other_worker")⟩
        else processApproval env q picked now

/-! ## `enqueue_github_work_approval` -/

/-- `GitHubWorkApprovalOutcome`. -/
structure GitHubWorkApprovalOutcome where
  proposal : Option GitHubWorkOrderProposal
  approvalJobId : Option String := none
  skippedReason : Option String := none

/-- An outcome, or an exception, with the queue. -/
structure ApprovalResult where
  queue : JobQueue
  outcome : Option GitHubWorkApprovalOutcome

/-- Whether the worker runs at once, the id of a new row, and the clock. -/
structure EnqueueMode where
  driveConsumer : Bool
  jobId : String
  now : Time

/-- The enqueueing of a proposal for which no posted card was found. -/
def enqueueProposal (env : WorkerEnv) (q : JobQueue) (p : GitHubWorkOrderProposal)
    (createdBy : String) (mode : EnqueueMode) : ApprovalResult :=
  let request := approvalRequestFromProposal p createdBy
  if mode.driveConsumer then
    match runOne env q request mode.jobId mode.now with
    | ⟨q, none⟩ => ⟨q, none⟩
    | ⟨q, some (job, skipped)⟩ =>
      ⟨q, some {
        proposal := some p
        approvalJobId := some job.jobId
        skippedReason := skipped.map fun reason =>
          if reason = "duplicate_in_flight" then skippedDuplicateApproval else reason }⟩
  else
    match ApprovalWorker.enqueue q { request } mode.jobId mode.now with
    | .error _ => ⟨q, none⟩
    | .ok ((job, created), q) =>
      ⟨q, some {
        proposal := some p
        approvalJobId := some job.jobId
        skippedReason := if created then none else some skippedDuplicateApproval }⟩

/-- `enqueue_github_work_approval`. -/
def enqueueGithubWorkApproval (build : BuildEnv) (env : WorkerEnv) (q : JobQueue)
    (request : WorkRequest) (mode : EnqueueMode) : ApprovalResult :=
  match shouldRouteToGithubWorkos request.extra request.requestText with
  | some reason => ⟨q, some { proposal := none, skippedReason := some reason.value }⟩
  | none =>
    match buildGithubWorkOrderProposal build request with
    | none => ⟨q, none⟩
    | some p =>
      match ApprovalReply.findReplyableApproval q p.sessionId (some approvalKindEngineeringWrite)
          p.sourceMessageId p.sourceThreadId none with
      | none => ⟨q, none⟩
      | some (some posted) =>
        ⟨q, some { proposal := some p, approvalJobId := some posted.jobId
                   skippedReason := some skippedDuplicateApproval }⟩
      | some none => enqueueProposal env q p request.requestedBy mode

/-- The request is reported as a duplicate, and nothing is enqueued. -/
def ReportsDuplicate (build : BuildEnv) (env : WorkerEnv) (q : JobQueue) (request : WorkRequest)
    (mode : EnqueueMode) : Prop :=
  (enqueueGithubWorkApproval build env q request mode).queue = q
    ∧ ∃ outcome, (enqueueGithubWorkApproval build env q request mode).outcome = some outcome
      ∧ outcome.skippedReason = some skippedDuplicateApproval

/-! ## The cards of a session -/

/-- The `source_message_id` of a card. -/
def source (card : Job) : Json := card.payload.getJson "source_message_id"

/-- The `source_thread_id` of a card. -/
def thread (card : Job) : Json := card.payload.getJson "source_thread_id"

/-- The `engineering_write` cards of the session that are posted. -/
def posted (q : JobQueue) (sessionId : String) : List Job :=
  ApprovalReply.candidates q sessionId (some approvalKindEngineeringWrite)

/-- The `engineering_write` cards of the session that are in flight. -/
def inFlight (q : JobQueue) (sessionId : String) : List Job :=
  ApprovalWorker.activeCards q sessionId approvalKindEngineeringWrite

/-- The card is for this message; a card without a message is for a request without one. -/
def IsFor (sourceMessageId : Option Int) (card : Job) : Prop :=
  match sourceMessageId with
  | none => source card = .null
  | some _ => (source card).toInt? = sourceMessageId

/-- A card of the session for the message of the request is in flight or posted. -/
def HasCard (q : JobQueue) (request : WorkRequest) : Prop :=
  ∃ card ∈ posted q request.sessionId ++ inFlight q request.sessionId,
    IsFor request.sourceMessageId card

/-- A value that is missing, or that `int` reads. -/
def Readable (value : Json) : Prop := value = .null ∨ value.toInt?.isSome = true

/-- The values are readable up to the first card where a search stops. -/
def ReadableUntil (stop : Job → Prop) (value : Job → Json) (cards : List Job) : Prop :=
  ∀ before card after, cards = before ++ card :: after → (∀ b ∈ before, ¬stop b) →
    Readable (value card)

/-- A card in flight that answers a lookup for the message: one of the two names none, or both name
the same. -/
def Answers (sourceMessageId : Option Int) (card : Job) : Prop :=
  sourceMessageId = none ∨ source card = .null ∨ (source card).toInt? = sourceMessageId

/-- The request comes to the lookups, and no `int` raises in them. -/
structure LooksUp (q : JobQueue) (request : WorkRequest) : Prop where
  routed : shouldRouteToGithubWorkos request.extra request.requestText = none
  roles : (resolveRolesFromSession request.extra).isSome = true
  session : request.sessionId ≠ ""
  messages : ∀ id, request.sourceMessageId = some id →
    ReadableUntil (fun card => (source card).toInt? = some id) source (posted q request.sessionId)
  threads : request.sourceThreadId ≠ none →
    (∀ card ∈ posted q request.sessionId, ∀ id, request.sourceMessageId = some id →
      (source card).toInt? ≠ some id) →
    ∀ card ∈ posted q request.sessionId, Readable (thread card)
  flying : posted q request.sessionId = [] → request.sourceMessageId ≠ none →
    ReadableUntil (Answers request.sourceMessageId) source (inFlight q request.sessionId)

theorem isFor_of_same {sourceMessageId : Option Int} {card : Job} (hsome : sourceMessageId ≠ none)
    (hsame : (source card).toInt? = sourceMessageId) : IsFor sourceMessageId card := by
  cases sourceMessageId with
  | none => exact absurd rfl hsome
  | some id => exact hsame

theorem answers_of_isFor {sourceMessageId : Option Int} {card : Job} (h : IsFor sourceMessageId card) :
    Answers sourceMessageId card := by
  cases sourceMessageId with
  | none => exact .inl rfl
  | some id => exact .inr (.inr h)

/-! ## Reading the values -/

section Reading

variable {stop : Job → Prop} {value : Job → Json} {card : Job} {cards : List Job} {id : Int}

theorem readableUntil_nil : ReadableUntil stop value [] := by
  intro before card after h
  cases before <;> cases h

theorem readableUntil_of_forall (h : ∀ card ∈ cards, Readable (value card)) :
    ReadableUntil stop value cards := by
  intro before card after hcards _
  exact h card (by rw [hcards]; exact List.mem_append_right _ List.mem_cons_self)

theorem readableUntil_cons :
    ReadableUntil stop value (card :: cards)
      ↔ Readable (value card) ∧ (stop card ∨ ReadableUntil stop value cards) := by
  constructor
  · refine fun h => ⟨h [] card cards rfl (fun b hb => nomatch hb), ?_⟩
    by_cases hstop : stop card
    · exact .inl hstop
    · refine .inr fun before c after hcards hbefore => ?_
      refine h (card :: before) c after (by rw [hcards]; rfl) fun b hb => ?_
      rcases List.mem_cons.mp hb with rfl | hb
      · exact hstop
      · exact hbefore b hb
  · rintro ⟨hcard, hrest⟩ before c after hcards hbefore
    cases before with
    | nil =>
      obtain ⟨rfl, -⟩ := List.cons.inj hcards
      exact hcard
    | cons b before =>
      obtain ⟨rfl, htail⟩ := List.cons.inj hcards
      have hnot : ¬stop card := hbefore card List.mem_cons_self
      exact (hrest.resolve_left hnot) before c after htail
        fun b hb => hbefore b (List.mem_cons_of_mem _ hb)

theorem findByInt_isSome_iff :
    (ApprovalReply.findByInt value id cards).isSome = true
      ↔ ReadableUntil (fun card => (value card).toInt? = some id) value cards := by
  induction cards with
  | nil => exact iff_of_true rfl readableUntil_nil
  | cons card cards ih =>
    rw [ApprovalReply.findByInt, readableUntil_cons]
    split
    · next hnull =>
      have hnotStop : ¬(value card).toInt? = some id := by
        rw [hnull]
        intro h
        cases h
      rw [ih]
      exact ⟨fun h => ⟨.inl hnull, .inr h⟩, fun h => h.2.resolve_left hnotStop⟩
    · next hvalue =>
      cases hint : (value card).toInt? with
      | none =>
        refine iff_of_false (fun h => Bool.noConfusion h) fun h => ?_
        rcases h.1 with hnull | hsome
        · exact hvalue hnull
        · rw [hint] at hsome
          cases hsome
      | some n =>
        have hread : Readable (value card) := .inr (by rw [hint]; rfl)
        rw [Option.bind_eq_bind, Option.bind_some]
        by_cases heq : n = id
        · rw [if_pos heq]
          exact iff_of_true rfl ⟨hread, .inl (by rw [heq])⟩
        · rw [if_neg heq, ih]
          exact ⟨fun h => ⟨hread, .inr h⟩, fun h => h.2.resolve_left fun h => heq (Option.some.inj h)⟩

theorem value_of_findByInt (h : ApprovalReply.findByInt value id cards = some (some card)) :
    (value card).toInt? = some id := by
  induction cards with
  | nil => cases h
  | cons c cards ih =>
    rw [ApprovalReply.findByInt] at h
    split at h
    · exact ih h
    · obtain ⟨n, hn, h⟩ := Option.bind_eq_some_iff.mp h
      split at h
      · next heq =>
        obtain rfl := Option.some.inj (Option.some.inj h)
        rw [hn, heq]
      · exact ih h

theorem filterByInt_isSome_iff :
    (ApprovalReply.filterByInt value id cards).isSome = true
      ↔ ∀ card ∈ cards, Readable (value card) := by
  induction cards with
  | nil => exact iff_of_true rfl fun card hcard => nomatch hcard
  | cons card cards ih =>
    rw [ApprovalReply.filterByInt, List.forall_mem_cons]
    split
    · next hnull =>
      rw [ih]
      exact ⟨fun h => ⟨.inl hnull, h⟩, fun h => h.2⟩
    · next hvalue =>
      cases hint : (value card).toInt? with
      | none =>
        refine iff_of_false (fun h => Bool.noConfusion h) fun h => ?_
        rcases h.1 with hnull | hsome
        · exact hvalue hnull
        · rw [hint] at hsome
          cases hsome
      | some n =>
        have hread : Readable (value card) := .inr (by rw [hint]; rfl)
        rw [Option.bind_eq_bind, Option.bind_some]
        cases hrest : ApprovalReply.filterByInt value id cards with
        | none =>
          rw [hrest] at ih
          exact iff_of_false (fun h => Bool.noConfusion h) fun h => Bool.noConfusion (ih.mpr h.2)
        | some rest =>
          rw [hrest] at ih
          exact iff_of_true rfl ⟨hread, ih.mp rfl⟩

end Reading

/-! ## The two lookups -/

section Lookups

variable {q : JobQueue} {sessionId : String} {sourceMessageId sourceThreadId : Option Int}

theorem mostRecent_isSome {cards : List Job} (h : cards ≠ []) :
    ∃ card, ApprovalReply.mostRecent cards = some card := by
  cases cards with
  | nil => exact absurd rfl h
  | cons card cards => exact ⟨_, rfl⟩

/-- Without a posted card nothing is found. -/
theorem findReplyable_of_nil (hnone : posted q sessionId = []) :
    ApprovalReply.findReplyableApproval q sessionId (some approvalKindEngineeringWrite)
      sourceMessageId sourceThreadId none = some none := by
  have hcards : ApprovalReply.candidates q sessionId (some approvalKindEngineeringWrite) = [] := hnone
  unfold ApprovalReply.findReplyableApproval
  rw [hcards]
  by_cases hsession : sessionId = ""
  · rw [if_pos hsession]
  · rw [if_neg hsession]
    cases sourceMessageId <;> cases sourceThreadId <;> rfl

/-- The search among the posted cards when none of them is quoted. -/
def unquoted (cards : List Job) (sourceThreadId : Option Int) : Option (Option Job) := do
  let inThread ← sourceThreadId.elim (some []) fun id => ApprovalReply.filterByInt thread id cards
  return (ApprovalReply.mostRecent inThread).or (ApprovalReply.mostRecent cards)

theorem findReplyable_eq (hsession : sessionId ≠ "") :
    ApprovalReply.findReplyableApproval q sessionId (some approvalKindEngineeringWrite)
        sourceMessageId sourceThreadId none
      = (sourceMessageId.elim (some none) fun id =>
          ApprovalReply.findByInt source id (posted q sessionId)).bind fun quoted =>
            if quoted.isSome then some quoted else unquoted (posted q sessionId) sourceThreadId := by
  unfold ApprovalReply.findReplyableApproval
  rw [if_neg hsession]
  rfl

/-- Some card is the newest of the thread or of all, when the threads can be read. -/
theorem unquoted_eq_some_iff {cards : List Job} (hcards : cards ≠ []) :
    (∃ card, unquoted cards sourceThreadId = some (some card))
      ↔ (sourceThreadId ≠ none → ∀ card ∈ cards, Readable (thread card)) := by
  obtain ⟨newest, hnewest⟩ := mostRecent_isSome hcards
  unfold unquoted
  rw [hnewest]
  cases sourceThreadId with
  | none => exact iff_of_true ⟨newest, rfl⟩ fun h => absurd rfl h
  | some id =>
    have hread := @filterByInt_isSome_iff thread cards id
    rw [Option.elim_some]
    cases hfilter : ApprovalReply.filterByInt thread id cards with
    | none =>
      rw [hfilter] at hread
      exact iff_of_false (fun ⟨_, h⟩ => nomatch h) fun h =>
        Bool.noConfusion (hread.mpr (h (Option.some_ne_none _)))
    | some inThread =>
      rw [hfilter] at hread
      refine iff_of_true ?_ fun _ => hread.mp rfl
      rw [Option.bind_eq_bind, Option.bind_some]
      cases ApprovalReply.mostRecent inThread with
      | none => exact ⟨newest, rfl⟩
      | some card => exact ⟨card, rfl⟩

/-- With a posted card one is found, when the values that are looked at can be read. -/
theorem findReplyable_of_posted (hsession : sessionId ≠ "") (hposted : posted q sessionId ≠ []) :
    (∃ card, ApprovalReply.findReplyableApproval q sessionId (some approvalKindEngineeringWrite)
        sourceMessageId sourceThreadId none = some (some card))
      ↔ (∀ id, sourceMessageId = some id →
          ReadableUntil (fun card => (source card).toInt? = some id) source (posted q sessionId))
        ∧ (sourceThreadId ≠ none →
          (∀ card ∈ posted q sessionId, ∀ id, sourceMessageId = some id →
            (source card).toInt? ≠ some id) →
          ∀ card ∈ posted q sessionId, Readable (thread card)) := by
  have hrest := @unquoted_eq_some_iff sourceThreadId _ hposted
  rw [findReplyable_eq hsession]
  cases sourceMessageId with
  | none =>
    rw [Option.elim_none, Option.bind_some, if_neg (by decide), hrest]
    exact ⟨fun h => ⟨fun _ hid => (nomatch hid), fun hthread _ => h hthread⟩,
      fun h hthread => h.2 hthread fun _ _ _ hid => nomatch hid⟩
  | some id =>
    have hfirst : (∀ id', some id = some id' → ReadableUntil
        (fun card => (source card).toInt? = some id') source (posted q sessionId))
        ↔ (ApprovalReply.findByInt source id (posted q sessionId)).isSome = true := by
      rw [findByInt_isSome_iff]
      exact ⟨fun h => h id rfl, fun h id' hid => Option.some.inj hid ▸ h⟩
    rw [hfirst, Option.elim_some]
    cases hfind : ApprovalReply.findByInt source id (posted q sessionId) with
    | none => exact iff_of_false (fun ⟨_, h⟩ => nomatch h) fun h => Bool.noConfusion h.1
    | some found =>
      rw [Option.bind_some]
      cases found with
      | none =>
        have hquoted : ∀ card ∈ posted q sessionId, ∀ id', some id = some id' →
            (source card).toInt? ≠ some id' := by
          intro card hcard id' hid hvalue
          obtain rfl := Option.some.inj hid
          obtain ⟨first, hfirst, -⟩ := ApprovalReply.findByInt_of_mem hfind hcard hvalue
          cases hfirst
        rw [if_neg (by decide), hrest]
        exact ⟨fun h => ⟨rfl, fun hthread _ => h hthread⟩, fun h hthread => h.2 hthread hquoted⟩
      | some card =>
        refine iff_of_true ⟨card, rfl⟩ ⟨rfl, fun _ hquoted => ?_⟩
        exact absurd (value_of_findByInt hfind)
          (hquoted card (ApprovalReply.mem_of_findByInt hfind) id rfl)

/-- With a posted card the search finds one, or a value cannot be read. -/
theorem findReplyable_ne_none (hsession : sessionId ≠ "") (hposted : posted q sessionId ≠ []) :
    ApprovalReply.findReplyableApproval q sessionId (some approvalKindEngineeringWrite)
      sourceMessageId sourceThreadId none ≠ some none := by
  obtain ⟨newest, hnewest⟩ := mostRecent_isSome hposted
  rw [findReplyable_eq hsession]
  intro h
  obtain ⟨quoted, -, h⟩ := Option.bind_eq_some_iff.mp h
  split at h
  · next hsome =>
    rw [Option.some.inj h] at hsome
    cases hsome
  · obtain ⟨inThread, -, h⟩ := Option.bind_eq_some_iff.mp h
    have hor := Option.some.inj h
    rw [hnewest, Option.or_eq_none_iff] at hor
    cases hor.2

/-- What the comparison of the messages says of a card. -/
theorem sameSource_spec (sourceMessageId : Option Int) (card : Job) :
    (ApprovalWorker.sameSource sourceMessageId (source card) = .ok true ∧ Answers sourceMessageId card
        ∧ (sourceMessageId ≠ none → Readable (source card)))
      ∨ (ApprovalWorker.sameSource sourceMessageId (source card) = .ok false
        ∧ ¬Answers sourceMessageId card ∧ Readable (source card))
      ∨ ((∃ e, ApprovalWorker.sameSource sourceMessageId (source card) = .error e)
        ∧ sourceMessageId ≠ none ∧ ¬Readable (source card)) := by
  cases sourceMessageId with
  | none => exact .inl ⟨rfl, .inl rfl, fun h => absurd rfl h⟩
  | some id =>
    by_cases hnull : source card = .null
    · exact .inl ⟨by rw [hnull]; rfl, .inr (.inl hnull), fun _ => .inl hnull⟩
    · have hsame : ApprovalWorker.sameSource (some id) (source card)
          = match (source card).toInt? with
            | none => .error .attributeError
            | some n => .ok (n == id) := by
        cases hcard : source card with
        | null => exact absurd hcard hnull
        | _ => rfl
      rw [hsame]
      cases hint : (source card).toInt? with
      | none =>
        refine .inr (.inr ⟨⟨_, rfl⟩, Option.some_ne_none _, fun h => ?_⟩)
        rcases h with h | h
        · exact hnull h
        · rw [hint] at h
          cases h
      | some n =>
        have hread : Readable (source card) := .inr (by rw [hint]; rfl)
        by_cases heq : n = id
        · have hbeq : (n == id) = true := beq_iff_eq.mpr heq
          exact .inl ⟨congrArg Except.ok hbeq, .inr (.inr (by rw [hint, heq])), fun _ => hread⟩
        · have hbeq : (n == id) = false := beq_eq_false_iff_ne.mpr heq
          refine .inr (.inl ⟨congrArg Except.ok hbeq, ?_, hread⟩)
          rintro (h | h | h)
          · cases h
          · exact hnull h
          · rw [hint] at h
            exact heq (Option.some.inj h)

/-- The search among the cards in flight. -/
theorem findM_isActiveFor_iff (cards : List Job) :
    (∃ card, cards.findM? (ApprovalWorker.isActiveFor approvalKindEngineeringWrite sourceMessageId)
        = .ok (some card))
      ↔ (sourceMessageId ≠ none → ReadableUntil (Answers sourceMessageId) source
          (cards.filter (ApprovalWorker.isCardOf approvalKindEngineeringWrite)))
        ∧ ∃ card ∈ cards.filter (ApprovalWorker.isCardOf approvalKindEngineeringWrite),
          Answers sourceMessageId card := by
  induction cards with
  | nil =>
    refine iff_of_false ?_ ?_
    · rintro ⟨_, h⟩
      cases h
    · rintro ⟨-, _, h, -⟩
      cases h
  | cons card cards ih =>
    rw [FirstMatch.findM?_cons, ApprovalWorker.isActiveFor]
    by_cases hcard : ApprovalWorker.isCardOf approvalKindEngineeringWrite card = true
    · rw [if_pos hcard, List.filter_cons_of_pos hcard, readableUntil_cons, List.exists_mem_cons_iff]
      have hsource : card.payload.getJson "source_message_id" = source card := rfl
      rw [hsource]
      rcases sameSource_spec sourceMessageId card with
        ⟨hsame, hanswers, hread⟩ | ⟨hsame, hnot, hread⟩ | ⟨⟨e, hsame⟩, hsome, hunreadable⟩
      · rw [hsame]
        exact iff_of_true ⟨card, rfl⟩ ⟨fun h => ⟨hread h, .inl hanswers⟩, .inl hanswers⟩
      · rw [hsame, ih]
        exact ⟨fun h => ⟨fun hs => ⟨hread, .inr (h.1 hs)⟩, .inr h.2⟩,
          fun h => ⟨fun hs => (h.1 hs).2.resolve_left hnot, h.2.resolve_left hnot⟩⟩
      · rw [hsame]
        refine iff_of_false ?_ fun h => hunreadable (h.1 hsome).1
        rintro ⟨_, h⟩
        cases h
    · rw [if_neg hcard, List.filter_cons_of_neg hcard]
      exact ih

/-- A card in flight is found for a request. -/
theorem findActive_isSome_iff (request : ApprovalRequest)
    (hkind : request.approvalKind = approvalKindEngineeringWrite) :
    (∃ card, ApprovalWorker.findActive q { request } = .ok (some card))
      ↔ request.sessionId ≠ ""
        ∧ (request.sourceMessageId ≠ none →
          ReadableUntil (Answers request.sourceMessageId) source (inFlight q request.sessionId))
        ∧ ∃ card ∈ inFlight q request.sessionId, Answers request.sourceMessageId card := by
  by_cases hsession : request.sessionId = ""
  · refine iff_of_false ?_ fun h => h.1 hsession
    rintro ⟨card, hcard⟩
    exact (Producer.keyed_of_findActive hcard).1 hsession
  · rw [ApprovalWorker.findActive_eq hsession (by rw [hkind]; decide), and_iff_right hsession]
    have hfound := @findM_isActiveFor_iff request.sourceMessageId
      (q.listForSession request.sessionId ApprovalWorker.activeStates)
    dsimp only
    rw [hkind]
    exact hfound

end Lookups

/-! ## The call -/

section Calls

variable {build : BuildEnv} {env : WorkerEnv} {q : JobQueue} {mode : EnqueueMode}

theorem processApproval_skipped {job row : Job} {now : Time} {reason : String}
    (h : (processApproval env q job now).outcome = some (row, some reason)) :
    reason = "approval_channel_unset" := by
  unfold processApproval at h
  split at h
  · cases h
  · dsimp only at h
    split at h
    · cases h
      rfl
    · split at h
      · cases h
      · split at h
        · cases h
        · cases h

/-- The worker reports a duplicate when it found a card in flight. -/
theorem runOne_spec (request : ApprovalRequest)
    (hkind : request.approvalKind = approvalKindEngineeringWrite) (jobId : String) (now : Time) :
    (∃ card, ApprovalWorker.findActive q { request } = .ok (some card)
        ∧ runOne env q request jobId now = ⟨q, some (card, some "duplicate_in_flight")⟩)
      ∨ ((∀ card, ApprovalWorker.findActive q { request } ≠ .ok (some card))
        ∧ ∀ job reason, (runOne env q request jobId now).outcome = some (job, some reason) →
          reason = "claimed_by_other_worker" ∨ reason = "approval_channel_unset") := by
  have hkeyed : request.approvalKind ≠ "" := by rw [hkind]; decide
  unfold runOne
  by_cases hsession : request.sessionId = ""
  · refine .inr ⟨fun card hcard => (Producer.keyed_of_findActive hcard).1 hsession, ?_⟩
    rw [if_pos (by simp [hsession])]
    exact fun job reason h => nomatch h
  · rw [if_neg (by simp [hsession, hkeyed])]
    cases henqueue : ApprovalWorker.enqueue q { request } jobId now with
    | error e =>
      refine .inr ⟨fun card hcard => ?_, fun job reason h => nomatch h⟩
      have hfound := @Producer.enqueue_of_found _ q jobId now card hcard
      rw [ApprovalWorker.enqueue, hfound] at henqueue
      cases henqueue
    | ok enqueued =>
      obtain ⟨⟨card, created⟩, q'⟩ := enqueued
      rcases Producer.enqueue_ok henqueue with ⟨hfound, rfl, rfl⟩ | ⟨hnone, -, rfl⟩
      · exact .inl ⟨card, hfound, rfl⟩
      · refine .inr ⟨fun card' hcard' => ?_, fun job reason h => ?_⟩
        · have hboth := hnone.symm.trans hcard'
          cases hboth
        · dsimp only at h
          split at h
          · cases h
          · exact .inl (Option.some.inj (Prod.mk.inj (Option.some.inj h)).2).symm
          · split at h
            · exact .inl (Option.some.inj (Prod.mk.inj (Option.some.inj h)).2).symm
            · exact .inr (processApproval_skipped h)

/-- Past the posted cards, a duplicate is reported when a card in flight is found. -/
theorem enqueueProposal_spec (p : GitHubWorkOrderProposal) (createdBy : String) :
    ((enqueueProposal env q p createdBy mode).queue = q
        ∧ ∃ outcome, (enqueueProposal env q p createdBy mode).outcome = some outcome
          ∧ outcome.skippedReason = some skippedDuplicateApproval)
      ↔ ∃ card, ApprovalWorker.findActive q { request := approvalRequestFromProposal p createdBy }
          = .ok (some card) := by
  unfold enqueueProposal
  dsimp only
  cases mode.driveConsumer with
  | true =>
    rw [if_pos rfl]
    rcases @runOne_spec env q (approvalRequestFromProposal p createdBy) rfl mode.jobId mode.now with
      ⟨card, hfound, hrun⟩ | ⟨hnone, hrun⟩
    · rw [hrun]
      exact iff_of_true ⟨rfl, _, rfl, rfl⟩ ⟨card, hfound⟩
    · refine iff_of_false ?_ fun ⟨card, h⟩ => hnone card h
      rintro ⟨-, outcome, houtcome, hskipped⟩
      split at houtcome
      · cases houtcome
      · next q' job skipped heq =>
        rw [heq] at hrun
        obtain rfl := Option.some.inj houtcome
        cases skipped with
        | none => cases hskipped
        | some reason =>
          rcases hrun job reason rfl with rfl | rfl
          · exact absurd (Option.some.inj hskipped) (by decide)
          · exact absurd (Option.some.inj hskipped) (by decide)
  | false =>
    rw [if_neg Bool.false_ne_true]
    constructor
    · rintro ⟨-, outcome, houtcome, hskipped⟩
      split at houtcome
      · cases houtcome
      · next card created q' henqueue =>
        obtain rfl := Option.some.inj houtcome
        cases created with
        | true => cases hskipped
        | false => exact ⟨card, (Producer.found_of_enqueue henqueue).1⟩
    · rintro ⟨card, hfound⟩
      have henqueue : ApprovalWorker.enqueue q { request := approvalRequestFromProposal p createdBy }
          mode.jobId mode.now = .ok ((card, false), q) := Producer.enqueue_of_found hfound
      rw [henqueue]
      exact ⟨rfl, _, rfl, rfl⟩

/-- The proposal is for the session and the message of its request. -/
theorem buildProposal_spec (build : BuildEnv) (request : WorkRequest) :
    (resolveRolesFromSession request.extra = none ∧ buildGithubWorkOrderProposal build request = none)
      ∨ ((resolveRolesFromSession request.extra).isSome = true
        ∧ ∃ p, buildGithubWorkOrderProposal build request = some p ∧ p.sessionId = request.sessionId
          ∧ p.sourceMessageId = request.sourceMessageId
          ∧ p.sourceThreadId = request.sourceThreadId) := by
  unfold buildGithubWorkOrderProposal
  cases resolveRolesFromSession request.extra with
  | none => exact .inl ⟨rfl, rfl⟩
  | some roles => exact .inr ⟨rfl, _, rfl, rfl, rfl, rfl⟩

/-- **A request is reported as a duplicate** when it comes to the lookups, no value stops them, and
the session has a posted card, whatever it is for, or a card in flight that answers. -/
theorem reportsDuplicate_iff (request : WorkRequest) :
    ReportsDuplicate build env q request mode
      ↔ LooksUp q request ∧ (posted q request.sessionId ≠ []
        ∨ ∃ card ∈ inFlight q request.sessionId, Answers request.sourceMessageId card) := by
  unfold ReportsDuplicate enqueueGithubWorkApproval
  cases hrouted : shouldRouteToGithubWorkos request.extra request.requestText with
  | some reason =>
    refine iff_of_false ?_ fun h => ?_
    · rintro ⟨-, outcome, houtcome, hskipped⟩
      obtain rfl := Option.some.inj houtcome
      revert hskipped
      cases reason <;> decide
    · rw [h.1.routed] at hrouted
      cases hrouted
  | none =>
    rcases buildProposal_spec build request with
      ⟨hroles, hbuild⟩ | ⟨hroles, p, hbuild, hsession, hmessage, hthread⟩
    · rw [hbuild]
      refine iff_of_false (fun ⟨_, _, h, _⟩ => nomatch h) fun h => ?_
      have hsome := h.1.roles
      rw [hroles] at hsome
      cases hsome
    · rw [hbuild]
      dsimp only
      rw [hsession, hmessage, hthread]
      have hactive : (∃ card, ApprovalWorker.findActive q
            { request := approvalRequestFromProposal p request.requestedBy } = .ok (some card))
          ↔ request.sessionId ≠ ""
            ∧ (request.sourceMessageId ≠ none → ReadableUntil (Answers request.sourceMessageId) source
                (inFlight q request.sessionId))
            ∧ ∃ card ∈ inFlight q request.sessionId, Answers request.sourceMessageId card := by
        rw [findActive_isSome_iff _ rfl, ← hsession, ← hmessage]
        rfl
      by_cases hposted : posted q request.sessionId = []
      · rw [findReplyable_of_nil hposted, enqueueProposal_spec, hactive]
        constructor
        · rintro ⟨hne, hread, hanswers⟩
          refine ⟨⟨hrouted, hroles, hne, ?_, ?_, fun _ => hread⟩, .inr hanswers⟩
          · rw [hposted]
            exact fun _ _ => readableUntil_nil
          · rw [hposted]
            exact fun _ _ card hcard => nomatch hcard
        · rintro ⟨hlooks, hany⟩
          exact ⟨hlooks.session, hlooks.flying hposted, hany.resolve_left fun h => h hposted⟩
      · by_cases hne : request.sessionId = ""
        · have hfind : ApprovalReply.findReplyableApproval q request.sessionId
              (some approvalKindEngineeringWrite) request.sourceMessageId request.sourceThreadId none
              = some none := by
            rw [ApprovalReply.findReplyableApproval, if_pos hne]
          rw [hfind, enqueueProposal_spec, hactive]
          exact iff_of_false (fun h => h.1 hne) fun h => h.1.session hne
        · have hfound := @findReplyable_of_posted q request.sessionId request.sourceMessageId
            request.sourceThreadId hne hposted
          cases hfind : ApprovalReply.findReplyableApproval q request.sessionId
              (some approvalKindEngineeringWrite) request.sourceMessageId request.sourceThreadId
              none with
          | none =>
            rw [hfind] at hfound
            refine iff_of_false (fun ⟨_, _, h, _⟩ => nomatch h) fun h => ?_
            obtain ⟨card, hcard⟩ := hfound.mpr ⟨h.1.messages, h.1.threads⟩
            cases hcard
          | some found =>
            cases found with
            | none => exact absurd hfind (findReplyable_ne_none hne hposted)
            | some card =>
              obtain ⟨hmessages, hthreads⟩ := hfound.mp ⟨card, hfind⟩
              refine iff_of_true ⟨rfl, _, rfl, rfl⟩ ⟨⟨hrouted, hroles, hne, hmessages, hthreads, ?_⟩,
                .inl hposted⟩
              exact fun h => absurd h hposted

end Calls

/--
**A request is reported as a duplicate exactly when its own card is in flight or posted, if and only
if** such a card is looked up where there is one, and where there is none nothing else answers: the
request is not looked up, or its session has no posted card at all, and none in flight either where
the request or the card names no message.
-/
theorem reportsDuplicate_iff_hasCard_iff (build : BuildEnv) (env : WorkerEnv) (q : JobQueue)
    (request : WorkRequest) (mode : EnqueueMode) :
    (ReportsDuplicate build env q request mode ↔ HasCard q request)
      ↔ (HasCard q request → LooksUp q request)
        ∧ (¬HasCard q request → LooksUp q request → posted q request.sessionId = []
          ∧ ∀ card ∈ inFlight q request.sessionId,
            request.sourceMessageId ≠ none ∧ source card ≠ .null) := by
  rw [reportsDuplicate_iff]
  constructor
  · intro h
    refine ⟨fun hcard => (h.mpr hcard).1, fun hnot hlooks => ?_⟩
    have hnothing := fun hany => hnot (h.mp ⟨hlooks, hany⟩)
    refine ⟨not_not.mp fun hposted => hnothing (.inl hposted),
      fun card hcard => ⟨fun hnone => ?_, fun hnull => ?_⟩⟩
    · exact hnothing (.inr ⟨card, hcard, .inl hnone⟩)
    · exact hnothing (.inr ⟨card, hcard, .inr (.inl hnull)⟩)
  · rintro ⟨hlooked, hquiet⟩
    constructor
    · rintro ⟨hlooks, hany⟩
      by_contra hnot
      obtain ⟨hposted, hflying⟩ := hquiet hnot hlooks
      obtain ⟨card, hcard, hanswers⟩ := hany.resolve_left fun h => h hposted
      obtain ⟨hsome, hmessage⟩ := hflying card hcard
      have hsame : (source card).toInt? = request.sourceMessageId :=
        (hanswers.resolve_left hsome).resolve_left hmessage
      exact hnot ⟨card, List.mem_append_right _ hcard, isFor_of_same hsome hsame⟩
    · intro hhas
      refine ⟨hlooked hhas, ?_⟩
      obtain ⟨card, hcard, hfor⟩ := hhas
      rcases List.mem_append.mp hcard with hposted | hflying
      · exact .inl (List.ne_nil_of_mem hposted)
      · exact .inr ⟨card, hflying, answers_of_isFor hfor⟩

/-! ## A second request in a session -/

def sampleRequest (sourceMessageId : Option Int) : WorkRequest where
  sessionId := "session"
  extra := []
  requestText := "이 버그 고쳐줘"
  sourceMessageId := sourceMessageId
  repo := some "owner/repo"

def sampleBuild : BuildEnv where
  issuePlan _ _ := none
  newProposalId := "proposal"
  utcNow := "2026-01-01T00:00:00+00:00"

def sampleWorker : WorkerEnv where
  workerId := "worker"
  channel := some 1
  post _ := some (.obj [("posted_message_id", .int 900)])
  shortError _ := "RuntimeError: post"

/-- The card of a request for a message. -/
def sampleCard (sourceMessageId : Option Int) : ApprovalRequest where
  sessionId := "session"
  approvalKind := approvalKindEngineeringWrite
  title := "GitHub 작업 시작 승인"
  summary := "이 버그 고쳐줘"
  requestedAction := "bug_fix"
  createdBy := "engineering-agent"
  sourceChannelId := none
  sourceThreadId := none
  sourceMessageId := sourceMessageId
  extra := []

/-- The queue after the worker posted the card of a request. -/
def postedQueue (sourceMessageId : Option Int) : JobQueue :=
  (runOne sampleWorker JobQueue.empty (sampleCard sourceMessageId) "card" 1).queue

/-- **The request for a second message is swallowed** by the posted card of the first one. -/
theorem second_message_is_swallowed :
    ((enqueueGithubWorkApproval sampleBuild sampleWorker (postedQueue (some 100))
        (sampleRequest (some 200)) ⟨true, "second", 2⟩).outcome.bind
          GitHubWorkApprovalOutcome.skippedReason) = some "duplicate_approval_in_flight"
      ∧ ¬∀ (build : BuildEnv) (env : WorkerEnv) (q : JobQueue) (request : WorkRequest)
        (mode : EnqueueMode), ReportsDuplicate build env q request mode ↔ HasCard q request := by
  have hroutes : shouldRouteToGithubWorkos [] "이 버그 고쳐줘" = none := by decide +kernel
  have hcards : (posted (postedQueue (some 100)) "session").isEmpty = false := by decide +kernel
  have hread : (posted (postedQueue (some 100)) "session").all
      (fun card => (source card).toInt?.isSome) = true := by decide +kernel
  have hother : (posted (postedQueue (some 100)) "session"
      ++ inFlight (postedQueue (some 100)) "session").all
        (fun card => (source card).toInt? != some 200) = true := by decide +kernel
  have hne : posted (postedQueue (some 100)) "session" ≠ [] := by
    intro hnil
    rw [hnil] at hcards
    cases hcards
  have hlooks : LooksUp (postedQueue (some 100)) (sampleRequest (some 200)) := by
    refine ⟨hroutes, rfl, by decide, fun id _ => ?_, fun h => absurd rfl h, fun h => absurd h hne⟩
    exact readableUntil_of_forall fun card hcard => .inr (List.all_eq_true.mp hread card hcard)
  refine ⟨by decide +kernel, fun h => ?_⟩
  have hreports := (@reportsDuplicate_iff sampleBuild sampleWorker (postedQueue (some 100))
    ⟨true, "second", 2⟩ (sampleRequest (some 200))).mpr ⟨hlooks, .inl hne⟩
  obtain ⟨card, hcard, hfor⟩ := (h _ _ _ _ _).mp hreports
  have hdiffers := List.all_eq_true.mp hother card hcard
  have hsame : (source card).toInt? = some 200 := hfor
  rw [hsame] at hdiffers
  exact absurd hdiffers (by decide)

end WorkApproval

end ForgeKit
