import ForgeKit.CodingExecute.Dispatcher

/-!
# After the pull request (`pr_merge_continuation.py`)

The merge cycle of a session lives in `session.extra`: a stage, the pull request it is about, and
an audit list that every step appends to. The stage and the pull request are overwritten when the
next pull request is opened (`coding_executor_progress.py`), the audit list is not.

Next to it stands `next_slice_dispatcher.py`, which takes the next slice off the backlog once a
pull request is merged. A `none` from these functions is the exception that Python raises when
the audit or the backlog cannot be iterated.
-/

namespace ForgeKit

namespace PrMerge

/-! ## The keys -/

def workModeKey : String := "work_mode"
def stageKey : String := "pr_merge_stage"
def prNumberKey : String := "pr_merge_pr_number"
def prUrlKey : String := "pr_merge_pr_url"
def repoKey : String := "pr_merge_repo"
def headShaKey : String := "pr_merge_head_sha"
def baseBranchKey : String := "pr_merge_base_branch"
def decidedAtKey : String := "pr_merge_decided_at"
def reasonKey : String := "pr_merge_reason"
def auditKey : String := "pr_merge_continuation_audit"
def codingBacklogKey : String := "coding_backlog"
def sessionCompletedReasonKey : String := "session_completed_reason"

/-- The two work modes of `session_mode.py`. -/
inductive WorkMode where
  | autonomousMerge
  | approvalRequired
deriving DecidableEq, Repr

def WorkMode.value : WorkMode → String
  | autonomousMerge => "autonomous_merge"
  | approvalRequired => "approval_required"

/-- `PR_MERGE_STAGES`. -/
inductive Stage where
  | prMergePending
  | awaitingDraftApproval
  | prMergeApproved
  | prMerged
  | prMergeBlocked
deriving DecidableEq, Repr

def Stage.value : Stage → String
  | prMergePending => "pr_merge_pending"
  | awaitingDraftApproval => "awaiting_draft_approval"
  | prMergeApproved => "pr_merge_approved"
  | prMerged => "pr_merged"
  | prMergeBlocked => "pr_merge_blocked"

/-- `resolve_work_mode`; anything but the two modes is `approval_required`. -/
def resolveWorkMode (extra : Dict Json) : WorkMode :=
  if (extra.getJson workModeKey).eqStr WorkMode.autonomousMerge.value then .autonomousMerge
  else .approvalRequired

/-- `list(extra.get(EXTRA_PR_MERGE_AUDIT) or ())`. -/
def auditOf (extra : Dict Json) : Option (List Json) := (extra.getJson auditKey).items?

/-- `extra` with one more audit entry. -/
def withAudit (extra : Dict Json) (entry : Dict Json) : Option (Dict Json) :=
  (auditOf extra).map fun audit => extra.set auditKey (.arr (audit ++ [.obj entry]))

/-- An entry of the audit has this `event`. -/
def hasEvent (audit : List Json) (event : String) : Bool :=
  audit.any fun entry => (entry.obj?.map fun e => (e.getJson "event").eqStr event).getD false

theorem withAudit_spec {extra extra' entry : Dict Json}
    (h : withAudit extra entry = some extra') :
    ∃ audit, auditOf extra = some audit ∧ auditOf extra' = some (audit ++ [.obj entry])
      ∧ ∀ key, key ≠ auditKey → extra'.getJson key = extra.getJson key := by
  obtain ⟨audit, haudit, rfl⟩ := Option.map_eq_some_iff.mp h
  exact ⟨audit, haudit, by simp [auditOf], fun key hkey => Dict.getJson_set_ne _ _ hkey⟩

@[simp] theorem hasEvent_concat (audit : List Json) (entry : Dict Json) (event : String) :
    hasEvent (audit ++ [.obj entry]) event
      = (hasEvent audit event || (entry.getJson "event").eqStr event) := by
  simp [hasEvent, Json.obj?]

/-! ## `decide_post_pr_action` -/

/-- `PostPRAction`. -/
inductive PostPRAction where
  | autonomousMerge
  | approvalRequired
  | skip
deriving DecidableEq, Repr

def PostPRAction.value : PostPRAction → String
  | autonomousMerge => "autonomous_merge_continuation"
  | approvalRequired => "approval_required_continuation"
  | skip => "skip"

/-- `ContinuationContext`. -/
structure ContinuationContext where
  sessionId : String
  repoFullName : String
  prNumber : Int
  prUrl : String
  headSha : String
  baseBranch : String
  workMode : WorkMode
deriving DecidableEq, Repr

/-- `ContinuationDecision`. -/
structure ContinuationDecision where
  action : PostPRAction
  reason : String
  context : Option ContinuationContext := none
  extraUpdates : Dict Json := []

/-- What the coding executor knows when its draft pull request is open. -/
structure StampArgs where
  jobId : String
  repoFullName : Option String
  prNumber : Option Int
  prUrl : Option String
  headSha : Option String := none
  baseBranch : String := "main"
  dryRun : Bool := false
  now : String

/-- `value or default`, of a text. -/
def textOr (value dflt : String) : String := if value = "" then dflt else value

/-- The `extra_updates` of a decision that does not skip. -/
def pendingUpdates (context : ContinuationContext) (decidedAt reason : String) : Dict Json :=
  [(stageKey, .str Stage.prMergePending.value),
   (prNumberKey, .int context.prNumber),
   (prUrlKey, .str context.prUrl),
   (repoKey, .str context.repoFullName),
   (headShaKey, .str context.headSha),
   (baseBranchKey, .str context.baseBranch),
   (decidedAtKey, .str decidedAt),
   (reasonKey, .str reason)]

/-- `decide_post_pr_action`. -/
def decidePostPrAction (sessionId : String) (extra : Dict Json) (a : StampArgs) :
    ContinuationDecision :=
  if a.dryRun then { action := .skip, reason := "dry_run" }
  else if a.prNumber.getD 0 = 0 ∨ a.prUrl.getD "" = "" ∨ a.repoFullName.getD "" = "" then
    { action := .skip, reason := "missing_pr_metadata" }
  else
    let workMode := resolveWorkMode extra
    let context : ContinuationContext :=
      { sessionId, repoFullName := a.repoFullName.getD "", prNumber := a.prNumber.getD 0
        prUrl := a.prUrl.getD "", headSha := a.headSha.getD ""
        baseBranch := textOr a.baseBranch "main", workMode }
    let reason := "draft_pr_opened:" ++ workMode.value
    { action := match workMode with
        | .autonomousMerge => .autonomousMerge
        | .approvalRequired => .approvalRequired
      reason
      context := some context
      extraUpdates := pendingUpdates context a.now reason }

/-! ## `coding_executor_progress.py` -/

/-- `None` or a text. -/
def optStr (value : Option String) : Json := (value.map Json.str).getD .null

/-- `stamp_progress_marker`; the first time of a marker is kept. -/
def stampProgressMarker (extra : Dict Json) (marker now : String) (detail : Dict Json) :
    Dict Json :=
  let bucket := ((extra.getJson Dispatcher.sessionExtraProgressKey).obj?).getD []
  let firstAt := match (bucket.getJson marker).obj? with
    | some entry => (entry.getJson "at").orElse (.str now)
    | none => .str now
  extra.set Dispatcher.sessionExtraProgressKey
    (.obj (bucket.set marker (.obj [("at", firstAt), ("detail", .obj detail)])))

/-- The audit entry of a stamp. -/
def stampEntry (decision : ContinuationDecision) (a : StampArgs) : Dict Json :=
  [("stage", .str Stage.prMergePending.value),
   ("action", .str decision.action.value),
   ("reason", .str decision.reason),
   ("job_id", .str a.jobId),
   ("pr_number", (a.prNumber.map Json.int).getD .null),
   ("pr_url", optStr a.prUrl),
   ("head_sha", optStr a.headSha),
   ("at", .str a.now)]

/-- `stamp_pr_merge_continuation`: the new `extra`; `none` when nothing is stamped. -/
def stampPrMergeContinuation (sessionId : String) (extra : Dict Json) (a : StampArgs) :
    Option (Dict Json) :=
  let decision := decidePostPrAction sessionId extra a
  if sessionId = "" ∨ decision.action = .skip then none
  else
    (withAudit (extra.update decision.extraUpdates) (stampEntry decision a)).map fun stamped =>
      stampProgressMarker stamped "pr_merge_pending" a.now
        [("job_id", .str a.jobId),
         ("pr_number", (a.prNumber.map Json.int).getD .null),
         ("pr_url", optStr a.prUrl),
         ("work_mode_action", .str decision.action.value),
         ("reason", .str decision.reason)]

/-- The session is pending on the pull request of `a`. -/
structure PendingOn (a : StampArgs) (extra : Dict Json) : Prop where
  stage : extra.getJson stageKey = .str Stage.prMergePending.value
  metadata : ∃ number url repo, (number ≠ 0 ∧ url ≠ "" ∧ repo ≠ "")
    ∧ (a.prNumber = some number ∧ a.prUrl = some url ∧ a.repoFullName = some repo)
    ∧ extra.getJson prNumberKey = .int number ∧ extra.getJson prUrlKey = .str url
    ∧ extra.getJson repoKey = .str repo

theorem stampProgressMarker_getJson_ne {extra : Dict Json} {marker now key : String}
    {detail : Dict Json} (h : key ≠ Dispatcher.sessionExtraProgressKey) :
    (stampProgressMarker extra marker now detail).getJson key = extra.getJson key :=
  Dict.getJson_set_ne _ _ h

/-- A decision that does not skip knows the pull request. -/
theorem decidePostPrAction_spec {sessionId : String} {extra : Dict Json} {a : StampArgs}
    (h : (decidePostPrAction sessionId extra a).action ≠ .skip) :
    ∃ context reason, (context.prNumber ≠ 0 ∧ context.prUrl ≠ "" ∧ context.repoFullName ≠ "")
      ∧ (a.prNumber = some context.prNumber ∧ a.prUrl = some context.prUrl
        ∧ a.repoFullName = some context.repoFullName)
      ∧ (decidePostPrAction sessionId extra a).extraUpdates
        = pendingUpdates context a.now reason := by
  unfold decidePostPrAction at h ⊢
  split at h
  · exact absurd rfl h
  · split at h
    · exact absurd rfl h
    · rename_i hdry hmeta
      rw [if_neg hdry, if_neg hmeta]
      refine ⟨_, _, ?_, ?_, rfl⟩
      · simpa [not_or] using hmeta
      · simp only [not_or] at hmeta
        refine ⟨?_, ?_, ?_⟩
        · cases hn : a.prNumber <;> simp [hn] at hmeta ⊢
        · cases hu : a.prUrl <;> simp [hu] at hmeta ⊢
        · cases hr : a.repoFullName <;> simp [hr] at hmeta ⊢

/-- The eight keys after the updates, and the two that they leave alone. -/
theorem getJson_update_pendingUpdates (extra : Dict Json) (context : ContinuationContext)
    (decidedAt reason : String) :
    (extra.update (pendingUpdates context decidedAt reason)).getJson stageKey
        = .str Stage.prMergePending.value
      ∧ (extra.update (pendingUpdates context decidedAt reason)).getJson prNumberKey
        = .int context.prNumber
      ∧ (extra.update (pendingUpdates context decidedAt reason)).getJson prUrlKey
        = .str context.prUrl
      ∧ (extra.update (pendingUpdates context decidedAt reason)).getJson repoKey
        = .str context.repoFullName
      ∧ (extra.update (pendingUpdates context decidedAt reason)).getJson workModeKey
        = extra.getJson workModeKey
      ∧ (extra.update (pendingUpdates context decidedAt reason)).getJson auditKey
        = extra.getJson auditKey := by
  simp [Dict.update, pendingUpdates, Dict.getJson_set, auditKey, stageKey, prNumberKey, prUrlKey,
    repoKey, headShaKey, baseBranchKey, decidedAtKey, reasonKey, workModeKey]

/-- What a stamp does: the session is pending on the new pull request, the audit is kept. -/
theorem stampPrMergeContinuation_spec {sessionId : String} {extra extra' : Dict Json}
    {a : StampArgs} (h : stampPrMergeContinuation sessionId extra a = some extra') :
    PendingOn a extra' ∧ extra'.getJson workModeKey = extra.getJson workModeKey
      ∧ ∃ audit, auditOf extra = some audit ∧ auditOf extra' = some
        (audit ++ [.obj (stampEntry (decidePostPrAction sessionId extra a) a)]) := by
  simp only [stampPrMergeContinuation] at h
  split at h
  · cases h
  · rename_i hguard
    obtain ⟨-, haction⟩ := not_or.mp hguard
    obtain ⟨context, reason, hne, hargs, hupdates⟩ := decidePostPrAction_spec haction
    obtain ⟨stamped, hstamped, rfl⟩ := Option.map_eq_some_iff.mp h
    rw [hupdates] at hstamped
    obtain ⟨audit, hbefore, hafter, hother⟩ := withAudit_spec hstamped
    obtain ⟨hstage, hnumber, hurl, hrepo, hmode, haudit⟩ :=
      getJson_update_pendingUpdates extra context a.now reason
    -- the audit entry and the progress marker come after the eight keys and leave them alone
    have hread : ∀ detail key, key ≠ auditKey → key ≠ Dispatcher.sessionExtraProgressKey →
        (stampProgressMarker stamped "pr_merge_pending" a.now detail).getJson key
          = (extra.update (pendingUpdates context a.now reason)).getJson key :=
      fun detail key h₁ h₂ => (stampProgressMarker_getJson_ne h₂).trans (hother key h₁)
    refine ⟨⟨?_, context.prNumber, context.prUrl, context.repoFullName, hne, hargs, ?_, ?_, ?_⟩,
      ?_, audit, ?_, ?_⟩
    · rw [hread _ _ (by decide) (by decide), hstage]
    · rw [hread _ _ (by decide) (by decide), hnumber]
    · rw [hread _ _ (by decide) (by decide), hurl]
    · rw [hread _ _ (by decide) (by decide), hrepo]
    · rw [hread _ _ (by decide) (by decide), hmode]
    · rw [← hbefore, auditOf, auditOf, haudit]
    · rw [auditOf, stampProgressMarker_getJson_ne (by decide), ← auditOf, hafter]

/-! ## `advance_stage` and the three predicates -/

/-- `advance_stage`. -/
def advanceStage (extra : Dict Json) (newStage : Stage) (reason : String) (fields : Dict Json)
    (now : String) : Option (Dict Json) :=
  let staged := ((extra.set stageKey (.str newStage.value)).set decidedAtKey (.str now)).set
    reasonKey (.str reason)
  withAudit staged (Dict.update
    [("stage", .str newStage.value),
     ("prior_stage", extra.getJson stageKey),
     ("reason", .str reason),
     ("at", .str now)] fields)

/-- `is_pending_continuation`. -/
def isPendingContinuation (extra : Dict Json) : Bool :=
  (extra.getJson stageKey).eqStr Stage.prMergePending.value

/-- `is_pending_autonomous_merge`. -/
def isPendingAutonomousMerge (extra : Dict Json) : Bool :=
  isPendingContinuation extra && resolveWorkMode extra == .autonomousMerge

/-- The event that keeps the approval path from enqueuing a second card. -/
def cardEvent : String := "approval_card_enqueued"

/-- `is_pending_approval_card`. -/
def isPendingApprovalCard (extra : Dict Json) : Option Bool :=
  if !isPendingContinuation extra then some false
  else if resolveWorkMode extra ≠ .approvalRequired then some false
  else (auditOf extra).map fun audit => !hasEvent audit cardEvent

/-! ## `next_slice_dispatcher.py` -/

/-- `NextSliceAction`. -/
inductive NextSliceAction where
  | dispatchSlice
  | sessionDone
  | skippedNotMerged
deriving DecidableEq, Repr

/-- `NextSliceDecision`. -/
structure NextSliceDecision where
  action : NextSliceAction
  sliceSpec : Option (Dict Json) := none
  remainingBacklog : Nat := 0
  extraUpdates : Dict Json := []

/-- `[dict(item) for item in backlog_raw if isinstance(item, Mapping)]`. -/
def backlogOf (extra : Dict Json) : Option (List (Dict Json)) :=
  (extra.getJson codingBacklogKey).items?.map fun xs => xs.filterMap Json.obj?

/-- `decide_next_slice`. -/
def decideNextSlice (extra : Dict Json) (now : String) : Option NextSliceDecision :=
  if !(extra.getJson stageKey).eqStr Stage.prMerged.value then
    some { action := .skippedNotMerged }
  else
    (backlogOf extra).bind fun
      | [] =>
        (withAudit ((extra.set codingBacklogKey (.arr [])).set sessionCompletedReasonKey
            (.str "backlog_empty_after_merge"))
          [("event", .str "session_done_after_merge"),
           ("reason", .str "backlog_empty_after_merge"),
           ("at", .str now)]).map fun extraUpdates => { action := .sessionDone, extraUpdates }
      | nextSlice :: remaining =>
        (withAudit (extra.set codingBacklogKey (.arr (remaining.map Json.obj)))
          [("event", .str "next_slice_dispatched"),
           ("slice_summary", .str ((nextSlice.getJson "summary").orElse
              ((nextSlice.getJson "title").orElse (.str ""))).toStr),
           ("remaining_backlog", .int remaining.length),
           ("at", .str now)]).map fun extraUpdates =>
            { action := .dispatchSlice, sliceSpec := some nextSlice
              remainingBacklog := remaining.length, extraUpdates }

/-! ## The audit only grows -/

/-- The work mode stays, and the audit is a prefix of the new one. -/
structure AuditGrows (extra extra' : Dict Json) : Prop where
  mode : extra'.getJson workModeKey = extra.getJson workModeKey
  audit : ∃ audit more, auditOf extra = some audit ∧ auditOf extra' = some (audit ++ more)

theorem AuditGrows.of_withAudit {extra between extra' entry : Dict Json}
    (h : withAudit between entry = some extra')
    (hmode : between.getJson workModeKey = extra.getJson workModeKey)
    (haudit : between.getJson auditKey = extra.getJson auditKey) : AuditGrows extra extra' := by
  obtain ⟨audit, hbefore, hafter, hother⟩ := withAudit_spec h
  refine ⟨(hother _ (by decide)).trans hmode, audit, _, ?_, hafter⟩
  rw [← hbefore, auditOf, auditOf, haudit]

theorem AuditGrows.workMode {extra extra' : Dict Json} (h : AuditGrows extra extra') :
    resolveWorkMode extra' = resolveWorkMode extra := by
  rw [resolveWorkMode, h.mode]; rfl

theorem stampPrMergeContinuation_grows {sessionId : String} {extra extra' : Dict Json}
    {a : StampArgs} (h : stampPrMergeContinuation sessionId extra a = some extra') :
    AuditGrows extra extra' := by
  obtain ⟨-, hmode, audit, hbefore, hafter⟩ := stampPrMergeContinuation_spec h
  exact ⟨hmode, audit, _, hbefore, hafter⟩

theorem advanceStage_grows {extra extra' fields : Dict Json} {newStage : Stage}
    {reason now : String} (h : advanceStage extra newStage reason fields now = some extra') :
    AuditGrows extra extra' := by
  refine .of_withAudit h ?_ ?_
  all_goals simp [Dict.getJson_set, workModeKey, auditKey, stageKey, decidedAtKey, reasonKey]

theorem decideNextSlice_grows {extra : Dict Json} {now : String} {d : NextSliceDecision}
    (h : decideNextSlice extra now = some d) (hd : d.extraUpdates ≠ []) :
    AuditGrows extra d.extraUpdates := by
  unfold decideNextSlice at h
  split at h
  · cases h
    exact absurd rfl hd
  · obtain ⟨backlog, -, h⟩ := Option.bind_eq_some_iff.mp h
    cases backlog with
    | nil =>
      obtain ⟨extra', hextra, rfl⟩ := Option.map_eq_some_iff.mp h
      refine .of_withAudit hextra ?_ ?_
      all_goals simp [Dict.getJson_set, workModeKey, auditKey, codingBacklogKey,
        sessionCompletedReasonKey]
    | cons nextSlice remaining =>
      obtain ⟨extra', hextra, rfl⟩ := Option.map_eq_some_iff.mp h
      refine .of_withAudit hextra ?_ ?_
      all_goals simp [Dict.getJson_set, workModeKey, auditKey, codingBacklogKey]

end PrMerge

end ForgeKit
