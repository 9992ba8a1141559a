import ForgeKit.JobQueue.RawWrites
import ForgeKit.PrMerge.Continuation
import ForgeKit.PrMerge.Gate

/-!
# One tick over a pending session (`pr_merge_continuation_worker.py`)

`advancePendingSession` moves a session one step. In `approval_required` mode it has a card
enqueued and leaves the stage to the reply; in `autonomous_merge` mode it calls the executor, and
a draft is handed to a human.

The two callbacks are parameters: the enqueuer answers with the job id of the card, the executor
with a mapping or an exception. A result says which callbacks were called and what was persisted.
-/

namespace ForgeKit

namespace PrMerge

/-- What the merge executor does with a proposal. -/
inductive ExecutorReply where
  | returned (result : Dict Json)
  | raised (excName error : String) (status : Option Json) (url : Option String)

/-- The callbacks of a tick, the queue and the clock. -/
structure TickEnv where
  approvalEnqueuer : Option (PRMergeProposal → Option String) := none
  mergeExecutor : Option (PRMergeProposal → ExecutorReply) := none
  queue : Option JobQueue := none
  now : String

/-- The action tokens. -/
inductive TickAction where
  | skippedNotPending
  | skippedAlreadyEnqueued
  | approvalCardEnqueued
  | autonomousMergeBlocked
  | autonomousMergeSucceeded
  | skippedNoExecutor
  | skippedNoApprovalWorker
  | draftEscalatedToApproval
deriving DecidableEq, Repr

def TickAction.value : TickAction → String
  | skippedNotPending => "not_pending"
  | skippedAlreadyEnqueued => "approval_card_already_enqueued"
  | approvalCardEnqueued => "approval_card_enqueued"
  | autonomousMergeBlocked => "autonomous_merge_blocked"
  | autonomousMergeSucceeded => "autonomous_merge_succeeded"
  | skippedNoExecutor => "no_executor_wired"
  | skippedNoApprovalWorker => "no_approval_worker_wired"
  | draftEscalatedToApproval => "draft_escalated_to_approval_card"

/-- `PRMergeContinuationOutcome`. -/
structure Outcome where
  sessionId : String
  action : TickAction
  workMode : WorkMode
  newStage : Option Stage := none
  reason : Option String := none
  approvalJobId : Option String := none
  mergeSha : Option String := none
  extraAuditFields : Dict Json := []

/-- The outcome with the callbacks that were called. -/
structure TickResult where
  outcome : Outcome
  /-- What `persist_extra` was called with. -/
  persisted : Option (Dict Json) := none
  /-- What the approval enqueuer was called with. -/
  card : Option PRMergeProposal := none
  /-- What the next-slice dispatcher was called with. -/
  nextSlice : Option (Dict Json) := none
  /-- The queue, when old cards were superseded. -/
  queue : Option JobQueue := none

/-- `_truncate`, with its limit of 240. -/
def truncate (text : String) : String :=
  if text.toList.length ≤ 240 then text else String.ofList (text.toList.take 239) ++ "…"

/--
`_proposal_from_session_extra`: `some none` when the pull request is not known, `none` when its
number cannot be read.
-/
def proposalFromSessionExtra (extra : Dict Json) (requestedBy : String) :
    Option (Option PRMergeProposal) :=
  let prNumber := extra.getJson prNumberKey
  let repo := extra.getJson repoKey
  let prUrl := extra.getJson prUrlKey
  if !prNumber.truthy || !repo.truthy || !prUrl.truthy then some none
  else prNumber.toInt?.map fun number => some
    { repo := repo.toStr
      prNumber := number
      prUrl := prUrl.toStr
      headSha := extra.strOr headShaKey ""
      baseBranch := extra.strOr baseBranchKey "main"
      draft := true
      mergeableState := "unknown"
      requestedBy }

/-- The path of a session in `approval_required` mode. -/
def approvalTick (sessionId : String) (extra : Dict Json) (env : TickEnv) :
    Option TickResult := do
  let skipped (action : TickAction) (reason : Option String) : TickResult :=
    { outcome := { sessionId, action, workMode := .approvalRequired, reason } }
  if (← isPendingApprovalCard extra) = false then
    return skipped .skippedAlreadyEnqueued none
  match env.approvalEnqueuer with
  | none => return skipped .skippedNoApprovalWorker none
  | some enqueuer =>
    match ← proposalFromSessionExtra extra "auto-continuation" with
    | none => return skipped .skippedNotPending (some "missing_pr_metadata")
    | some proposal =>
      let approvalJobId := enqueuer proposal
      -- the stage stays `pr_merge_pending`; the reply to the card advances it
      let newExtra ← withAudit extra
        [("event", .str cardEvent),
         ("approval_job_id", optStr approvalJobId),
         ("at", .str env.now)]
      return {
        outcome :=
          { sessionId, action := .approvalCardEnqueued, workMode := .approvalRequired
            approvalJobId }
        persisted := some newExtra
        card := some proposal }

/-! ## The autonomous path -/

/-- The reason token of an exception of the executor. -/
def exceptionReason (excName : String) : String :=
  if excName = "GitHubAppNotFoundError" then "pr_not_found"
  else if excName ∈ ["LiveGithubAppHTTPError", "GitHubAppHTTPError", "GitHubAppAuthError",
      "GitHubAppPermissionError", "GitHubAppServerError"] then "github_http_error:" ++ excName
  else "merge_executor_raised:" ++ excName

/-- The reason token and the audit fields of a merge that did not happen. -/
def blockedReason (result : Dict Json) : String × Dict Json :=
  if (result.getJson "gate_failed_step").truthy then
    ("gate_failed:" ++ (result.getJson "gate_failed_step").toStr,
      [("gate_failed_step", result.getJson "gate_failed_step"),
       ("gate_reason", .str (result.strOr "gate_reason" ""))])
  else if (result.getJson "merge_disabled").truthy then
    ("merge_disabled", [("merge_disabled_reason", .str (result.strOr "reason" ""))])
  else if (result.getJson "merge_failed").truthy then
    ("merge_api_failed",
      [("error", .str (result.strOr "error" "")), ("status", result.getJson "status")])
  else ("blocked", [])

/-- The session is taken to `pr_merge_blocked`. -/
def blockedTick (sessionId : String) (extra : Dict Json) (reason : String) (fields : Dict Json)
    (now : String) : Option TickResult := do
  let newExtra ← advanceStage extra .prMergeBlocked reason fields now
  return {
    outcome :=
      { sessionId, action := .autonomousMergeBlocked, workMode := .autonomousMerge
        newStage := some .prMergeBlocked, reason := some reason, extraAuditFields := fields }
    persisted := some newExtra }

/-- The event of a card that asks to release a draft. -/
def escalationEvent : String := "approval_card_enqueued_draft_escalation"

/-- A draft becomes an approval card: old cards are superseded, the new one is awaited. -/
def escalationTick (sessionId : String) (extra : Dict Json) (env : TickEnv)
    (enqueuer : PRMergeProposal → Option String) (proposal : PRMergeProposal)
    (result : Dict Json) : Option TickResult := do
  let flagged := { proposal with
    extra := (proposal.extra.set "draft_escalation" (.bool true)).set "escalation_source"
      (.str "autonomous_merge_draft_block") }
  let approvalJobId := enqueuer flagged
  let ids := (env.queue.map fun q => Supersede.targets q sessionId approvalJobId).getD []
  let queue := env.queue.map fun q => Supersede.write q ids approvalJobId env.now
  let reason := "approval_needed_for_ready_for_review"
  let advanced ← advanceStage extra .awaitingDraftApproval reason
    [("approval_job_id", optStr approvalJobId),
     ("gate_failed_step", .str "draft"),
     ("gate_reason", .str (result.strOr "gate_reason" "")),
     ("superseded_pr_merge_cards", .arr (ids.map Json.str))] env.now
  let newExtra ← withAudit advanced
    [("event", .str escalationEvent),
     ("approval_job_id", optStr approvalJobId),
     ("superseded_pr_merge_cards", .arr (ids.map Json.str)),
     ("at", .str env.now)]
  return {
    outcome :=
      { sessionId, action := .draftEscalatedToApproval, workMode := .autonomousMerge
        newStage := some .awaitingDraftApproval, reason := some reason, approvalJobId }
    persisted := some newExtra
    card := some flagged
    queue }

/-- What follows from the mapping that the executor returned. -/
def returnedTick (sessionId : String) (extra : Dict Json) (env : TickEnv) (result : Dict Json) :
    Option TickResult := do
  let mergeSha := result.strOr "merge_sha" ""
  if mergeSha ≠ "" then
    let newExtra ← advanceStage extra .prMerged "autonomous_merge_succeeded"
      [("merge_sha", .str mergeSha), ("method", .str (result.strOr "method" "squash"))] env.now
    return {
      outcome :=
        { sessionId, action := .autonomousMergeSucceeded, workMode := .autonomousMerge
          newStage := some .prMerged, mergeSha := some mergeSha }
      persisted := some newExtra
      nextSlice := some newExtra }
  let (reason, fields) := blockedReason result
  let blocked := blockedTick sessionId extra reason fields env.now
  -- only a draft is escalated, once, and only with an enqueuer
  if !(result.getJson "gate_failed_step").eqStr "draft" then blocked
  else match env.approvalEnqueuer with
    | none => blocked
    | some enqueuer =>
      if hasEvent (← auditOf extra) escalationEvent then blocked
      else match ← proposalFromSessionExtra extra "autonomous_merge_draft_escalation" with
        | none => blocked
        | some proposal => escalationTick sessionId extra env enqueuer proposal result

/-- The path of a session in `autonomous_merge` mode. -/
def autonomousTick (sessionId : String) (extra : Dict Json) (env : TickEnv) :
    Option TickResult := do
  let skipped (action : TickAction) (reason : Option String) : TickResult :=
    { outcome := { sessionId, action, workMode := .autonomousMerge, reason } }
  if !isPendingAutonomousMerge extra then return skipped .skippedNotPending none
  match env.mergeExecutor with
  | none => return skipped .skippedNoExecutor none
  | some executor =>
    match ← proposalFromSessionExtra extra "autonomous_merge" with
    | none => return skipped .skippedNotPending (some "missing_pr_metadata")
    | some proposal =>
      match executor proposal with
      | .returned result => returnedTick sessionId extra env result
      | .raised excName error status url =>
        let fields : Dict Json :=
          [("exception_class", .str excName), ("error", .str (truncate error))]
            ++ (status.map fun s => ("status", s)).toList
            ++ (url.map fun u => ("url", Json.str u)).toList
        blockedTick sessionId extra (exceptionReason excName) fields env.now

/-- `advance_pending_session`. -/
def advancePendingSession (sessionId : String) (extra : Dict Json) (env : TickEnv) :
    Option TickResult :=
  let workMode := resolveWorkMode extra
  if !isPendingContinuation extra then
    some { outcome := { sessionId, action := .skippedNotPending, workMode } }
  else match workMode with
    | .approvalRequired => approvalTick sessionId extra env
    | .autonomousMerge => autonomousTick sessionId extra env

/-! ## The approval path of a pending session -/

theorem PendingOn.isPending {a : StampArgs} {extra : Dict Json} (h : PendingOn a extra) :
    isPendingContinuation extra = true := by
  simp [isPendingContinuation, h.stage]

/-- The proposal of a session that is pending on `a` is about the pull request of `a`. -/
theorem proposalFromSessionExtra_spec {a : StampArgs} {extra : Dict Json} (h : PendingOn a extra)
    (requestedBy : String) :
    ∃ card, proposalFromSessionExtra extra requestedBy = some (some card)
      ∧ a.repoFullName = some card.repo ∧ a.prNumber = some card.prNumber
      ∧ a.prUrl = some card.prUrl := by
  obtain ⟨number, url, repo, ⟨hn, hu, hr⟩, ⟨hnumber, hurl, hrepo⟩, hn', hu', hr'⟩ := h.metadata
  let card : PRMergeProposal :=
    { repo, prNumber := number, prUrl := url, headSha := extra.strOr headShaKey ""
      baseBranch := extra.strOr baseBranchKey "main", draft := true, mergeableState := "unknown"
      requestedBy }
  refine ⟨card, ?_, hrepo, hnumber, hurl⟩
  simp [proposalFromSessionExtra, hn', hu', hr', Json.truthy, Json.toStr, Json.toInt?, hn, hu, hr,
    card]

theorem isPendingApprovalCard_eq {extra : Dict Json} {audit : List Json}
    (h : isPendingContinuation extra = true) (hmode : resolveWorkMode extra = .approvalRequired)
    (haudit : auditOf extra = some audit) :
    isPendingApprovalCard extra = some (!hasEvent audit cardEvent) := by
  simp [isPendingApprovalCard, h, hmode, haudit]

/-- A session with a card is skipped. -/
theorem approvalTick_carded {sessionId : String} {extra : Dict Json}
    {audit : List Json} {env : TickEnv} (h : isPendingContinuation extra = true)
    (hmode : resolveWorkMode extra = .approvalRequired) (haudit : auditOf extra = some audit)
    (hcard : hasEvent audit cardEvent = true) :
    approvalTick sessionId extra env = some
      { outcome :=
          { sessionId, action := .skippedAlreadyEnqueued, workMode := .approvalRequired } } := by
  simp [approvalTick, isPendingApprovalCard_eq h hmode haudit, hcard]

/-- A session without one has its card enqueued, and the event is persisted. -/
theorem approvalTick_uncarded (sessionId : String) {a : StampArgs} {extra : Dict Json}
    {audit : List Json} (env : TickEnv) {enqueuer : PRMergeProposal → Option String}
    (h : PendingOn a extra) (hmode : resolveWorkMode extra = .approvalRequired)
    (haudit : auditOf extra = some audit) (hcard : hasEvent audit cardEvent = false)
    (henv : env.approvalEnqueuer = some enqueuer) :
    ∃ card, ∃ entry : Dict Json, approvalTick sessionId extra env = some
        { outcome :=
            { sessionId, action := .approvalCardEnqueued, workMode := .approvalRequired
              approvalJobId := enqueuer card }
          persisted := some (extra.set auditKey (.arr (audit ++ [.obj entry])))
          card := some card }
      ∧ entry.getJson "event" = .str cardEvent
      ∧ a.repoFullName = some card.repo ∧ a.prNumber = some card.prNumber
      ∧ a.prUrl = some card.prUrl := by
  obtain ⟨card, hproposal, hpr⟩ := proposalFromSessionExtra_spec h "auto-continuation"
  let entry : Dict Json :=
    [("event", .str cardEvent), ("approval_job_id", optStr (enqueuer card)), ("at", .str env.now)]
  refine ⟨card, entry, ?_, rfl, hpr⟩
  simp [approvalTick, isPendingApprovalCard_eq h.isPending hmode haudit, hcard, henv, hproposal,
    withAudit, haudit, entry]

/-- What the approval path persists is `extra` with one more audit entry. -/
theorem approvalTick_grows {sessionId : String} {extra extra' : Dict Json} {env : TickEnv}
    {r : TickResult} (h : approvalTick sessionId extra env = some r)
    (hr : r.persisted = some extra') : AuditGrows extra extra' := by
  simp only [approvalTick, Option.bind_eq_bind, Option.bind_eq_some_iff, Option.pure_def] at h
  obtain ⟨pending, -, h⟩ := h
  split at h
  · cases h
    cases hr
  · split at h
    · cases h
      cases hr
    · obtain ⟨proposal?, -, h⟩ := Option.bind_eq_some_iff.mp h
      cases proposal? with
      | none =>
        cases h
        cases hr
      | some proposal =>
        obtain ⟨newExtra, hnew, h⟩ := Option.bind_eq_some_iff.mp h
        cases h
        cases hr
        exact .of_withAudit hnew rfl rfl

end PrMerge

end ForgeKit
