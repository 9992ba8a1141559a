import ForgeKit.Approval.Reply
import ForgeKit.PrMerge.Gate

/-!
# Replies to a merge card (`pr_approval.py`, `approval_reply.py`)

The two scans that look for a card in every session, and what a reply to a merge card comes to. The
scans are bounded before they are filtered by kind; the handler finds the card of its session again,
and does not know which message was quoted.

A `none` is an exception of the source, as in `Approval.Reply`.
-/

namespace ForgeKit

namespace PrMergeReply

open ApprovalReply

/-- `APPROVAL_KIND_PR_MERGE`. -/
def approvalKindPrMerge : String := Supersede.approvalKindPrMerge

/-! ## Cards of every session -/

/-- A card that was posted: a saved `approval_post` row. -/
def isSavedCard (job : Job) : Bool :=
  job.jobType == Supersede.jobTypeApprovalPost && job.state == .saved

/-- The saved cards, newest first. -/
def savedCards (q : JobQueue) : List Job :=
  (q.jobs.rows.filter isSavedCard).insertionSort fun a b => b.createdAt ≤ a.createdAt

/-- The saved cards of one kind, of every session. -/
def cardsOfKind (kind : String) (cards : List Job) : List Job :=
  cards.filter fun job => job.payload.strOr "approval_kind" "" == kind

/-- The loop of `find_approval_by_posted_message_id`. -/
def scanPosted (postedMessageId : Int) (kind : Option String) : List Job → Option (Option Job)
  | [] => some none
  | job :: jobs =>
    match job.result.getJson "posted_message_id" with
    | .null => scanPosted postedMessageId kind jobs
    | v => do
      let n ← v.toInt?
      if n = postedMessageId && kind.all fun kind => job.payload.strOr "approval_kind" "" == kind then
        some (some job)
      else scanPosted postedMessageId kind jobs

/-- `find_approval_by_posted_message_id`: among the newest 200 saved cards. -/
def findApprovalByPostedMessageId (q : JobQueue) (postedMessageId : Int) (kind : Option String) :
    Option (Option Job) :=
  if postedMessageId = 0 then some none
  else scanPosted postedMessageId kind ((savedCards q).take 200)

/-- `find_open_approval_cards_by_kind`: among the newest 100 saved cards. -/
def findOpenApprovalCardsByKind (q : JobQueue) (kind : String) : List Job :=
  cardsOfKind kind ((savedCards q).take 100)

/-! ## Intent -/

/-- `PRMergeReplyIntent`. -/
inductive PRMergeReplyIntent where
  | approve
  | reject
  | hold
  | unclear
  | reviseAndRepeat
deriving DecidableEq, Repr

/-- `_REVISE_PHRASES`. -/
def revisePhrases : List String :=
  ["수정 후 다시", "수정후다시", "수정 후 다시 보자", "수정 후에 다시", "수정후 다시", "수정후에 다시",
   "다시 작성 후", "다시 작성 후 보자", "revise", "revise and repeat", "revise then merge",
   "fix and reopen", "fix then merge"]

/-- `PRMergeReplyIntent(base_intent.value)`. -/
def PRMergeReplyIntent.ofBase : ApprovalIntent → PRMergeReplyIntent
  | .approve => approve
  | .reject => reject
  | .hold => hold
  | .unclear => unclear

/-- `parse_pr_merge_reply_intent`. -/
def parsePrMergeReplyIntent (text : String) : PRMergeReplyIntent :=
  if revisePhrases.any (PyText.contains (normalize text)) then .reviseAndRepeat
  else .ofBase (parseApprovalIntent text)

/-! ## The proposal of a card -/

/-- The keys that `from_extra` reads into fields. -/
def proposalKeys : List String :=
  ["repo", "pr_number", "pr_title", "pr_url", "head_sha", "base_branch", "draft", "mergeable_state",
   "summary_md", "scope_labels", "risk", "check_runs_summary", "branch_protection_summary",
   "body_excerpt", "requested_by"]

/-- `PRMergeProposal.from_extra`, the labels as texts. -/
def proposalFromExtra (payload : Dict Json) : Option PRMergeProposal := do
  let prNumber ← ((payload.getJson "pr_number").orElse (.int 0)).toInt?
  let scopeLabels ← (payload.getJson "scope_labels").items?
  some
    { repo := payload.strOr "repo" ""
      prNumber
      prTitle := payload.strOr "pr_title" ""
      prUrl := payload.strOr "pr_url" ""
      headSha := payload.strOr "head_sha" ""
      baseBranch := payload.strOr "base_branch" ""
      draft := (payload.getJson "draft").truthy
      mergeableState := payload.strOr "mergeable_state" "unknown"
      summaryMd := payload.strOr "summary_md" ""
      scopeLabels := scopeLabels.map Json.toStr
      risk := payload.strOr "risk" "UNKNOWN"
      checkRunsSummary := payload.strOr "check_runs_summary" ""
      branchProtectionSummary := payload.strOr "branch_protection_summary" ""
      bodyExcerpt := payload.strOr "body_excerpt" ""
      requestedBy := payload.strOr "requested_by" ""
      extra := payload.filter fun e => !proposalKeys.contains e.1 }

/-! ## `handle_pr_merge_approval_reply` -/

/-- `PRMergeReplyDispatch`, what the merge executor is called with. -/
structure PRMergeReplyDispatch where
  proposal : PRMergeProposal
  approvalJobId : String
  approvedBy : String
  approvedAt : String
  sourceMessageId : Option Int

/-- What is wired into the handler. -/
structure MergeWiring where
  /-- The registered `merge_executor` and the mapping it returns; `none` when it raises. -/
  mergeExecutor : Option (PRMergeReplyDispatch → Option (Dict Json))
  /-- The registered `ready_for_review_action`; the name and the text of what it raises. -/
  readyForReviewAction : Option (String → Int → Except (String × String) Unit)

/-- `PRMergeReplyResult`. -/
structure PRMergeReplyResult where
  intent : PRMergeReplyIntent
  approvalJobId : Option String := none
  proposal : Option PRMergeProposal := none
  mergeDisabled : Bool := false
  gateFailedStep : Option String := none
  gateReason : String := ""
  mergeResult : Option (Dict Json) := none
  rejectionRecorded : Bool := false
  skippedReason : Option String := none
  audit : Dict Json := []

/-- The arguments of `handle_pr_merge_approval_reply`. -/
structure PrMergeReplyArgs where
  text : String
  sessionId : String
  approvedBy : String
  sourceMessageId : Option Int
  sourceThreadId : Option Int
  approvedAt : String

/-- The card the handler acts on: the quoted message plays no part. -/
def mergeCard (q : JobQueue) (sessionId : String) (sourceMessageId sourceThreadId : Option Int) :
    Option (Option Job) :=
  findReplyableApproval q sessionId (some approvalKindPrMerge) sourceMessageId sourceThreadId none

/-- The call of the merge executor and what its result is read as. -/
def callExecutor (executor : PRMergeReplyDispatch → Option (Dict Json))
    (dispatch : PRMergeReplyDispatch) : Option PRMergeReplyResult :=
  (executor dispatch).map fun (result : Dict Json) =>
    { intent := .approve
      approvalJobId := some dispatch.approvalJobId
      proposal := some dispatch.proposal
      mergeDisabled := ((result.get? "merge_disabled").getD (.bool false)).truthy
      gateFailedStep := match Dict.getJson result "gate_failed_step" with
        | .str step => some step
        | _ => none
      gateReason := result.strOr "gate_reason" ""
      mergeResult := if (result.getJson "merge_sha").truthy then some result else none
      audit := [("approved_by", .str dispatch.approvedBy), ("approved_at", .str dispatch.approvedAt),
        ("result", .obj result)] }

/-- The approval of a card: the result, and the call of the merge executor. -/
def approveMerge (wiring : MergeWiring) (dispatch : PRMergeReplyDispatch) :
    Option PRMergeReplyResult × Option PRMergeReplyDispatch :=
  let card : PRMergeReplyResult :=
    { intent := .approve, approvalJobId := some dispatch.approvalJobId
      proposal := some dispatch.proposal }
  let audit : Dict Json :=
    [("approved_by", .str dispatch.approvedBy), ("approved_at", .str dispatch.approvedAt)]
  match wiring.mergeExecutor with
  | none =>
    (some { card with
      mergeDisabled := true
      audit := audit ++ [("reason", .str "merge_executor_not_registered")] }, none)
  | some executor =>
    -- a draft is marked ready before its merge
    let ready := if (Dict.getJson dispatch.proposal.extra "draft_escalation").truthy then
        wiring.readyForReviewAction.elim (.ok ()) fun action =>
          action dispatch.proposal.repo dispatch.proposal.prNumber
      else .ok ()
    match ready with
    | .error (name, message) =>
      let message := String.ofList (message.toList.take 240)
      (some { card with
        gateFailedStep := some "draft_ready_for_review"
        gateReason := message
        audit := audit ++ [("draft_escalation", .bool true), ("ready_for_review_error", .str name),
          ("ready_for_review_message", .str message)] }, none)
    | .ok () => (callExecutor executor dispatch, some dispatch)

/-- What a reply does to the card it was matched to. -/
def replyToCard (wiring : MergeWiring) (intent : PRMergeReplyIntent) (card : Job)
    (a : PrMergeReplyArgs) : Option PRMergeReplyResult × Option PRMergeReplyDispatch :=
  match ApprovalRequest.fromPayload card.payload with
  | none => (none, none)
  | some request =>
    if request.approvalKind ≠ approvalKindPrMerge then
      (some { intent, approvalJobId := some card.jobId
              skippedReason := some "approval_kind_mismatch" }, none)
    else
      match proposalFromExtra request.extra with
      | none => (none, none)
      | some proposal =>
        let result : PRMergeReplyResult :=
          { intent, approvalJobId := some card.jobId, proposal := some proposal }
        match intent with
        | .reject =>
          (some { result with
            rejectionRecorded := true
            audit := [("rejected_by", .str a.approvedBy), ("rejected_at", .str a.approvedAt),
              ("source_message_id", optInt a.sourceMessageId)] }, none)
        | .reviseAndRepeat =>
          (some { result with
            audit := [("revise_requested_by", .str a.approvedBy), ("revise_at", .str a.approvedAt),
              ("source_message_id", optInt a.sourceMessageId)] }, none)
        | _ =>
          approveMerge wiring
            { proposal, approvalJobId := card.jobId, approvedBy := a.approvedBy
              approvedAt := a.approvedAt, sourceMessageId := a.sourceMessageId }

/-- `handle_pr_merge_approval_reply`: the result, and the call of the merge executor. -/
def handlePrMergeApprovalReply (wiring : MergeWiring) (q : JobQueue) (a : PrMergeReplyArgs) :
    Option PRMergeReplyResult × Option PRMergeReplyDispatch :=
  let intent := parsePrMergeReplyIntent a.text
  if intent = .hold ∨ intent = .unclear then
    (some { intent, skippedReason := some "intent_not_actionable" }, none)
  else
    match mergeCard q a.sessionId a.sourceMessageId a.sourceThreadId with
    | none => (none, none)
    | some none => (some { intent, skippedReason := some "no_matching_approval" }, none)
    | some (some card) => replyToCard wiring intent card a

/-! ## Which card the executor is called for -/

theorem mem_savedCards {q : JobQueue} {card : Job} :
    card ∈ savedCards q ↔ card ∈ q.jobs.rows ∧ isSavedCard card = true := by
  rw [savedCards, List.mem_insertionSort, List.mem_filter]

theorem approveMerge_dispatch {wiring : MergeWiring} {dispatch call : PRMergeReplyDispatch}
    (h : (approveMerge wiring dispatch).2 = some call) : call = dispatch := by
  unfold approveMerge at h
  dsimp only at h
  split at h
  · cases h
  · split at h
    · cases h
    · cases h
      rfl

/-- The executor is called for the card that the reply was matched to. -/
theorem replyToCard_dispatch {wiring : MergeWiring} {intent : PRMergeReplyIntent} {card : Job}
    {a : PrMergeReplyArgs} {call : PRMergeReplyDispatch}
    (h : (replyToCard wiring intent card a).2 = some call) : call.approvalJobId = card.jobId := by
  unfold replyToCard at h
  dsimp only at h
  split at h
  · cases h
  · split at h
    · cases h
    · split at h
      · cases h
      · split at h
        · cases h
        · cases h
        · rw [approveMerge_dispatch h]

end PrMergeReply

end ForgeKit
