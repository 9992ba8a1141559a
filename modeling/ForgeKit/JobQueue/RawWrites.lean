import ForgeKit.JobQueue.CodingExecutor

/-!
# Writers that bypass the state table

Two modules update `job_queue.state` with SQL of their own, both on purpose:

* `coding_execute_recovery.py` — revives a `failed_terminal` row whose environment is repaired
* `pr_merge_continuation_worker.py` — takes old, already saved merge cards out of the replies

The sweeps of the first and the scan of the second are reads; the writes come later, row by
row, on other connections.
-/

namespace ForgeKit

open JobQueue

/-! ## `coding_execute_recovery.py` -/

namespace Recovery

def targetRepoMissingReasonPrefix : String := "target_repo_checkout_missing"

def bootstrapRequiredReasonPrefix : String := "bootstrap_required"

/-- The sub-reasons that an environment switch repairs. -/
def bootstrapRecoverableSubTokens : List String :=
  ["editor_record_only_insufficient", "live_editor_unavailable"]

/-- One entry of the `revivals` list; the note may overwrite the first two keys. -/
def revivalEntry (now : Time) (note : Dict Json) : Json :=
  .obj (Dict.update
    [("at", .float now), ("from_state", .str (JobState.failedTerminal.value))] note)

/-- `current_result.setdefault("revivals", []).append(…)`; `none` when the value has no `append`. -/
def withRevival (now : Time) (note : Dict Json) (result : Dict Json) : Option (Dict Json) :=
  match (result.get? "revivals").getD (.arr []) with
  | .arr xs => some (result.set "revivals" (.arr (xs ++ [revivalEntry now note])))
  | _ => none

/-- The row after the revive. -/
def revive (now : Time) (result : Dict Json) (r : Job) : Job :=
  { r with
    state := .queued
    attempt := 0
    availableAt := now
    pickedBy := none
    pickedUntil := none
    result := result
    updatedAt := now }

@[simp] theorem revive_jobId (now : Time) (result : Dict Json) (r : Job) :
    (revive now result r).jobId = r.jobId := rfl

/-- `_revive_failed_terminal_row`: a direct update, since the table has no edge for it. -/
def reviveFailedTerminalRow (q : JobQueue) (jobId : String) (note : Dict Json) (now : Time) :
    Except QueueError (Bool × JobQueue) :=
  match q.get jobId with
  | none => .ok (false, q)
  | some current =>
    if current.state ≠ .failedTerminal then .ok (false, q)
    else match withRevival now note current.result with
      | none => .error .attributeError
      | some result =>
        .ok (true, q.updateJob jobId (revive now result) (revive_jobId now result))

/-- The columns a sweep reads from a row. -/
structure SweepRow where
  jobId : String
  state : JobState
  payload : Dict Json
  result : Dict Json

/-- The two sweeps. -/
inductive SweepKind where
  | targetRepoMissing
  | bootstrapRequired
deriving DecidableEq, Repr

/-- `LIMIT ?`; a negative limit is no limit. -/
def limit {α : Type} (n : Int) (xs : List α) : List α := if n < 0 then xs else xs.take n.toNat

/-- The query that both sweeps start with. -/
def failedRows (q : JobQueue) (maxPerRun : Int) : List Job :=
  limit maxPerRun
    ((q.jobs.rows.filter fun r =>
        r.jobType == jobTypeCodingExecute
          && [JobState.failedRetryable, .failedTerminal].contains r.state).insertionSort
      fun a b => b.updatedAt ≤ a.updatedAt)

/-- `str(result.get("reason") or result.get("error") or "").strip()`. -/
def failureReason (result : Dict Json) : String :=
  PyText.strip
    ((result.getJson "reason").orElse ((result.getJson "error").orElse (.str ""))).toStr

/-- `_classify_bootstrap_reason`. -/
def classifyBootstrapReason (reason : String) : Option String :=
  let text := PyText.strip reason
  let head := bootstrapRequiredReasonPrefix ++ ":"
  if PyText.startsWith text head then
    let sub := String.ofList (text.toList.drop head.toList.length)
    bootstrapRecoverableSubTokens.find? (PyText.contains sub)
  else none

/--
`_resolve_repo_for_request_payload`: the checkout and the repository name. `resolver` says which
directory holds a repository at the moment.
-/
def resolveRepo (resolver : String → Option String) (payload : Dict Json) :
    Option String × String :=
  let repoFullName := PyText.strip (payload.strOr "repo_full_name" "")
  if repoFullName = "" then (none, "") else (resolver repoFullName, repoFullName)

/-- The note a sweep leaves on a row it revives; `none` when it skips the row. -/
def reviveNote (kind : SweepKind) (resolver : String → Option String) (row : SweepRow) :
    Option (Dict Json) :=
  let reason := failureReason row.result
  match kind with
  | .targetRepoMissing =>
    if PyText.startsWith reason targetRepoMissingReasonPrefix then
      match resolveRepo resolver row.payload with
      | (none, _) => none
      | (some resolved, repoFullName) =>
        some [("reason", .str "target_repo_checkout_appeared"),
              ("resolved_repo_path", .str resolved),
              ("repo_full_name", .str repoFullName)]
    else none
  | .bootstrapRequired =>
    match classifyBootstrapReason reason with
    | none => none
    | some subToken =>
      match resolveRepo resolver row.payload with
      | (none, _) => none
      | (some resolved, repoFullName) =>
        some [("reason", .str "bootstrap_capability_enabled"),
              ("trigger_sub_token", .str subToken),
              ("original_reason", .str reason),
              ("editor", .str "GreenfieldBootstrapEditor"),
              ("env", .str "YULE_CODING_EXECUTOR_GREENFIELD_BOOTSTRAP_ENABLED"),
              ("repo_full_name", .str repoFullName),
              ("resolved_repo_path", .str resolved)]

/-- The rows a sweep goes through; the second sweep runs only when its switch is on. -/
def sweepRows (q : JobQueue) (kind : SweepKind) (capabilityEnabled : Bool) (maxPerRun : Int) :
    List SweepRow :=
  if kind = .bootstrapRequired ∧ capabilityEnabled = false then []
  else (failedRows q maxPerRun).map fun r =>
    { jobId := r.jobId, state := r.state, payload := r.payload, result := r.result }

/-! What the revive does -/

/-- The revive goes through on this row. -/
def revives (jobId : String) (note : Dict Json) (now : Time) (r : Job) : Bool :=
  r.jobId == jobId && r.state == .failedTerminal && (withRevival now note r.result).isSome

/-- What a revive makes of a row. -/
def reviveRewrite (jobId : String) (note : Dict Json) (now : Time) (r : Job) : Job :=
  if revives jobId note now r then revive now ((withRevival now note r.result).getD []) r else r

theorem get_commit_revive (q : JobQueue) (jobId : String) (note : Dict Json) (now : Time)
    (k : String) :
    (q.commit (reviveFailedTerminalRow q jobId note now)).get k
      = (q.get k).map (reviveRewrite jobId note now) := by
  have hself : ∀ r, q.get k = some r → revives jobId note now r = false →
      (q.get k).map (reviveRewrite jobId note now) = q.get k := by
    intro r hr hno
    rw [hr, Option.map_some, reviveRewrite, if_neg (by simp [hno])]
  have hrefused : (∀ r, q.get jobId = some r → revives jobId note now r = false) →
      (q.get k).map (reviveRewrite jobId note now) = q.get k := by
    intro h
    cases hr : q.get k with
    | none => rfl
    | some r =>
      rw [← hr]
      refine hself r hr ?_
      by_cases hid : r.jobId = jobId
      · have hk : k = jobId := by rw [← get_jobId hr, hid]
        exact h r (hk ▸ hr)
      · simp [revives, hid]
  unfold reviveFailedTerminalRow
  cases hc : q.get jobId with
  | none => exact (hrefused (by simp [hc])).symm
  | some c =>
    have hone : ∀ r, q.get jobId = some r → r = c := by
      intro r hr
      rw [hc] at hr
      exact (Option.some.inj hr).symm
    by_cases hst : c.state = .failedTerminal
    · cases hres : withRevival now note c.result with
      | none =>
        simp only [hst, ne_eq, not_true_eq_false, if_false, hres, commit_error]
        refine (hrefused fun r hr => ?_).symm
        rw [hone r hr]
        simp [revives, hres]
      | some result =>
        simp only [hst, ne_eq, not_true_eq_false, if_false, hres, commit_ok, get_updateJob]
        cases hr : q.get k with
        | none => rfl
        | some r =>
          by_cases hid : r.jobId = jobId
          · have hk : k = jobId := by rw [← get_jobId hr, hid]
            obtain rfl : r = c := hone r (hk ▸ hr)
            simp [reviveRewrite, revives, hid, hst, hres]
          · simp [reviveRewrite, revives, hid]
    · simp only [ne_eq, hst, not_false_eq_true, if_true, commit_ok]
      refine (hrefused fun r hr => ?_).symm
      rw [hone r hr]
      simp [revives, hst]

theorem mem_limit {α : Type} {n : Int} {xs : List α} {x : α} (h : x ∈ limit n xs) : x ∈ xs := by
  unfold limit at h
  split at h
  · exact h
  · exact List.mem_of_mem_take h

/-- A sweep goes through failed `coding_execute` rows only. -/
theorem mem_sweepRows {q : JobQueue} {kind : SweepKind} {enabled : Bool} {maxPerRun : Int}
    {row : SweepRow} (h : row ∈ sweepRows q kind enabled maxPerRun) :
    ∃ r, q.get row.jobId = some r ∧ r.jobType = jobTypeCodingExecute := by
  unfold sweepRows at h
  split at h
  · cases h
  · obtain ⟨r, hr, rfl⟩ := List.mem_map.mp h
    have hmem := mem_limit hr
    simp only [List.mem_insertionSort, List.mem_filter, Bool.and_eq_true, beq_iff_eq] at hmem
    exact ⟨r, get_of_mem hmem.1, hmem.2.1⟩

end Recovery

/-! ## `_supersede_old_pr_merge_cards` -/

namespace Supersede

/-- The type of a card, and the kind the merge loop is about. -/
def jobTypeApprovalPost : String := "approval_post"

def approvalKindPrMerge : String := "pr_merge"

/-- A merge card. -/
def isPrMergeCard (r : Job) : Bool :=
  r.jobType == jobTypeApprovalPost && r.payload.strOr "approval_kind" "" == approvalKindPrMerge

/-- The saved merge cards of the session, but the one to keep. -/
def targets (q : JobQueue) (sessionId : String) (keepJobId : Option String) : List String :=
  if sessionId = "" then []
  else ((q.listForSession sessionId [.saved]).filter fun r =>
      isPrMergeCard r && !(keepJobId.any fun keep => keep != "" && r.jobId == keep)).map Job.jobId

/-- The row after it was superseded; `updated_at` stays. -/
def supersede (keepJobId : Option String) (supersededAt : String) (r : Job) : Job :=
  { r with
    state := .failedTerminal
    result := r.result.update
      [("superseded", .bool true),
       ("superseded_by", .str "draft_escalation_card"),
       ("superseded_keep_job_id", (keepJobId.map Json.str).getD .null),
       ("superseded_at", .str supersededAt)] }

@[simp] theorem supersede_jobId (keepJobId : Option String) (at_ : String) (r : Job) :
    (supersede keepJobId at_ r).jobId = r.jobId := rfl

/-- What the write makes of a row: the update has no condition on the state. -/
def supersedeRewrite (ids : List String) (keepJobId : Option String) (supersededAt : String)
    (r : Job) : Job :=
  if r.jobId ∈ ids then supersede keepJobId supersededAt r else r

theorem supersedeRewrite_jobId (ids : List String) (keepJobId : Option String)
    (supersededAt : String) (r : Job) :
    (supersedeRewrite ids keepJobId supersededAt r).jobId = r.jobId := by
  unfold supersedeRewrite
  split <;> rfl

/-- The write, for all targets in one transaction; each result is read right before its update. -/
def write (q : JobQueue) (ids : List String) (keepJobId : Option String) (supersededAt : String) :
    JobQueue :=
  q.mapJobs (supersedeRewrite ids keepJobId supersededAt)
    (supersedeRewrite_jobId ids keepJobId supersededAt)

theorem mem_targets {q : JobQueue} {sessionId : String} {keepJobId : Option String} {id : String}
    (h : id ∈ targets q sessionId keepJobId) :
    ∃ r, q.get id = some r ∧ isPrMergeCard r = true ∧ r.state = .saved := by
  unfold targets at h
  split at h
  · cases h
  · obtain ⟨r, hr, rfl⟩ := List.mem_map.mp h
    simp only [List.mem_filter, JobQueue.listForSession, List.mem_insertionSort,
      Bool.and_eq_true] at hr
    obtain ⟨⟨hrow, -, hst⟩, hcard, -⟩ := hr
    exact ⟨r, get_of_mem hrow, hcard, by simpa using hst⟩

end Supersede

end ForgeKit
