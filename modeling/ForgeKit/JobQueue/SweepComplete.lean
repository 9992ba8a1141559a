import ForgeKit.JobQueue.RecoverySweep

/-!
# What a recovery sweep leaves behind

The query of a sweep takes the newest failed rows and only then looks at their reason, so a row that
could be revived may stand behind unrelated failures.

`complete_iff` — a sweep that returns nothing has left nothing to revive exactly when there was
nothing to revive at all, or a row that can be revived stands within the limit.
-/

namespace ForgeKit

open JobQueue

namespace Recovery

/-- A failed `coding_execute` row. -/
def isFailed (r : Job) : Bool :=
  r.jobType == jobTypeCodingExecute
    && [JobState.failedRetryable, .failedTerminal].contains r.state

/-- The failed rows, the one updated last first. -/
def failedByUpdate (q : JobQueue) : List Job :=
  (q.jobs.rows.filter isFailed).insertionSort fun a b => b.updatedAt ≤ a.updatedAt

/-- The place of a row among the failed rows. -/
def position (q : JobQueue) (r : Job) : Nat :=
  ((failedByUpdate q).map Job.jobId).idxOf r.jobId

/-- A failed row whose checkout was missing and is there now. -/
structure Revivable (resolver : String → String → Option String) (r : Job) : Prop where
  failed : isFailed r = true
  reason : PyText.startsWith (failureReason r.result) targetRepoMissingReasonPrefix = true
  resolves : (resolveRepo (resolver r.jobId) r.payload).1.isSome = true

/-- The list of revivals of a terminal row can be extended; anything but a list has no `append`. -/
def TakesRevival (r : Job) : Prop :=
  r.state = .failedTerminal → ∀ v, r.result.get? "revivals" = some v → ∃ xs, v = .arr xs

/-- When the sweep returns nothing, no row is left that it could revive. -/
def Complete (resolver : String → String → Option String) (out : List String × JobQueue) : Prop :=
  out.1 = [] → ∀ k r, out.2.get k = some r → ¬ Revivable resolver r

/-- There is nothing to revive, or one of the rows within the limit takes the revival. -/
def WithinLimit (q : JobQueue) (resolver : String → String → Option String) (maxPerRun : Int) :
    Prop :=
  (∀ r ∈ q.jobs.rows, ¬ Revivable resolver r)
    ∨ ∃ r ∈ q.jobs.rows, Revivable resolver r ∧ TakesRevival r
      ∧ (position q r : Int) < maxPerRun

variable {q : JobQueue} {resolver : String → String → Option String} {now : String → Time}
  {r : Job}

/-! ## The rows within the limit -/

theorem mem_failedByUpdate : r ∈ failedByUpdate q ↔ r ∈ q.jobs.rows ∧ isFailed r = true := by
  rw [failedByUpdate, List.mem_insertionSort, List.mem_filter]

theorem nodup_failedByUpdate (q : JobQueue) : ((failedByUpdate q).map Job.jobId).Nodup := by
  refine (((List.perm_insertionSort _ _).map Job.jobId).nodup_iff).mpr ?_
  exact q.jobs.nodup.sublist (List.filter_sublist.map _)

/-- The query returns the failed rows whose place is below the limit. -/
theorem mem_failedRows_iff {maxPerRun : Int} (hmax : 1 ≤ maxPerRun) :
    r ∈ failedRows q maxPerRun
      ↔ (r ∈ q.jobs.rows ∧ isFailed r = true) ∧ (position q r : Int) < maxPerRun := by
  have hrows : failedRows q maxPerRun = (failedByUpdate q).take maxPerRun.toNat := by
    rw [failedRows, limit, if_neg (by omega)]
    rfl
  rw [hrows, ← mem_failedByUpdate]
  constructor
  · intro h
    have hmem := List.mem_of_mem_take h
    refine ⟨hmem, ?_⟩
    have hid : r.jobId ∈ ((failedByUpdate q).map Job.jobId).take maxPerRun.toNat := by
      rw [← List.map_take]
      exact List.mem_map_of_mem h
    have hlt := (List.mem_take_iff_idxOf_lt (List.mem_map_of_mem hmem)).mp hid
    unfold position
    omega
  · rintro ⟨hmem, hlt⟩
    have hid : r.jobId ∈ ((failedByUpdate q).map Job.jobId).take maxPerRun.toNat := by
      rw [List.mem_take_iff_idxOf_lt (List.mem_map_of_mem hmem)]
      unfold position at hlt
      omega
    rw [← List.map_take] at hid
    obtain ⟨r', hr', hsame⟩ := List.mem_map.mp hid
    have he := List.inj_on_of_nodup_map (nodup_failedByUpdate q) (List.mem_of_mem_take hr') hmem
      hsame
    rwa [← he]

/-! ## The rows that are returned -/

theorem withRevival_isSome {t : Time} {note result : Dict Json} :
    (withRevival t note result).isSome = true
      ↔ ∀ v, result.get? "revivals" = some v → ∃ xs, v = .arr xs := by
  unfold withRevival
  cases hv : result.get? "revivals" with
  | none => simp
  | some v => cases v <;> simp

theorem reviveNote_isSome (hfailed : isFailed r = true) :
    (reviveNote .targetRepoMissing (resolver r.jobId) (columns r)).isSome = true
      ↔ Revivable resolver r := by
  have hiff : (reviveNote .targetRepoMissing (resolver r.jobId) (columns r)).isSome = true
      ↔ PyText.startsWith (failureReason r.result) targetRepoMissingReasonPrefix = true
        ∧ (resolveRepo (resolver r.jobId) r.payload).1.isSome = true := by
    unfold reviveNote
    simp only [columns]
    by_cases hreason :
        PyText.startsWith (failureReason r.result) targetRepoMissingReasonPrefix = true
    · rcases hres : resolveRepo (resolver r.jobId) r.payload with ⟨_ | resolved, repo⟩ <;>
        simp [hreason]
    · simp [hreason]
  exact hiff.trans ⟨fun h => ⟨hfailed, h.1, h.2⟩, fun h => ⟨h.reason, h.resolves⟩⟩

/-- The sweep returns the revivable rows that take the revival. -/
theorem reported_iff (hfailed : isFailed r = true) :
    reported .targetRepoMissing resolver now r = true ↔ Revivable resolver r ∧ TakesRevival r := by
  have hstate : r.state = .failedRetryable ∨ r.state = .failedTerminal := by
    simpa [isFailed] using (Bool.and_eq_true_iff.mp hfailed).2
  rw [← reviveNote_isSome hfailed, reported]
  cases hnote : reviveNote .targetRepoMissing (resolver r.jobId) (columns r) with
  | none => simp
  | some note =>
    rcases hstate with hst | hst
    · simp [hst, TakesRevival]
    · have htakes : TakesRevival r ↔ (withRevival (now r.jobId) note r.result).isSome = true := by
        rw [withRevival_isSome]
        exact ⟨fun h => h hst, fun h _ => h⟩
      simp [hst, revives, htakes]

/-- A sweep that returns nothing leaves every row as it was. -/
theorem get_of_nothing_reported {maxPerRun : Int}
    (h : (recoverTargetRepoMissingRows q maxPerRun resolver now).1 = []) (k : String) :
    (recoverTargetRepoMissingRows q maxPerRun resolver now).2.get k = q.get k := by
  obtain ⟨hids, hget⟩ := sweep_eq q .targetRepoMissing true maxPerRun resolver now
  rw [recoverTargetRepoMissingRows] at h ⊢
  rw [hids, List.map_eq_nil_iff, List.filter_eq_nil_iff] at h
  rw [hget]
  cases hk : q.get k with
  | none => rfl
  | some r =>
    rw [Option.map_some, Option.some.injEq]
    split
    · next hmem =>
      obtain ⟨r', hr', hid⟩ := List.mem_map.mp hmem
      have hrow := (swept_spec hr').1
      rw [hid, get_jobId hk, hk] at hrow
      cases hrow
      exact sweepRewrite_of_not_reported (by simpa using h r hr')
    · rfl

/-- The sweep returns nothing when no row within the limit takes a revival. -/
theorem nothing_reported_iff (now : String → Time) {maxPerRun : Int} (hmax : 1 ≤ maxPerRun) :
    (recoverTargetRepoMissingRows q maxPerRun resolver now).1 = []
      ↔ ¬ ∃ r ∈ q.jobs.rows, Revivable resolver r ∧ TakesRevival r
        ∧ (position q r : Int) < maxPerRun := by
  have hids := (sweep_eq q .targetRepoMissing true maxPerRun resolver now).1
  have hswept : swept q .targetRepoMissing true maxPerRun = failedRows q maxPerRun :=
    if_neg (by simp)
  rw [recoverTargetRepoMissingRows, hids, hswept, List.map_eq_nil_iff, List.filter_eq_nil_iff]
  constructor
  · rintro h ⟨r, hr, hrev, htakes, hpos⟩
    exact h r ((mem_failedRows_iff hmax).mpr ⟨⟨hr, hrev.failed⟩, hpos⟩)
      ((reported_iff hrev.failed).mpr ⟨hrev, htakes⟩)
  · intro h r hr hrep
    obtain ⟨⟨hrow, hfailed⟩, hpos⟩ := (mem_failedRows_iff hmax).mp hr
    obtain ⟨hrev, htakes⟩ := (reported_iff hfailed).mp hrep
    exact h ⟨r, hrow, hrev, htakes, hpos⟩

/-- **When an empty report means that nothing is left to revive.** -/
theorem complete_iff (q : JobQueue) (maxPerRun : Int) (hmax : 1 ≤ maxPerRun)
    (resolver : String → String → Option String) (now : String → Time) :
    Complete resolver (recoverTargetRepoMissingRows q maxPerRun resolver now)
      ↔ WithinLimit q resolver maxPerRun := by
  constructor
  · intro h
    by_cases hfound : ∃ r ∈ q.jobs.rows, Revivable resolver r ∧ TakesRevival r
        ∧ (position q r : Int) < maxPerRun
    · exact .inr hfound
    · have hnothing := (nothing_reported_iff now hmax).mpr hfound
      refine .inl fun r hr => h hnothing r.jobId r ?_
      rw [get_of_nothing_reported hnothing, get_of_mem hr]
  · intro h hnothing k r hr
    rw [get_of_nothing_reported hnothing] at hr
    rcases h with hnone | hfound
    · exact hnone r (Table.find?_eq_some_iff.mp hr).1
    · exact absurd hfound ((nothing_reported_iff now hmax).mp hnothing)

/-! ## Two failed jobs -/

/-- A job that failed for `reason` at the time `now`. -/
def failJob (jobId reason : String) (now : Time) (q : JobQueue) : JobQueue :=
  let q := q.commit (q.enqueue
    { jobId, sessionId := "session", jobType := "coding_execute", maxAttempts := 3,
      payload := [("repo_full_name", .str "owner/repo")], now })
  let q := q.commit (q.pick { workerId := "A", now })
  let q := q.commit (q.transition { jobId, target := .inProgress, now })
  q.commit (q.transition
    { jobId, target := .failedRetryable, result := some [("reason", .str reason)], now })

/-- The checkout of the older job is there again, and a newer job failed in its tests. -/
def hiddenQueue : JobQueue :=
  failJob "newer" "tests_failed" 2 (failJob "older" "target_repo_checkout_missing" 1 JobQueue.empty)

/-- The older job as a sweep finds it. -/
theorem older_job (q : JobQueue) (h : (q.get "older").any (fun r =>
      r.state == .failedRetryable && isFailed r
        && PyText.startsWith (failureReason r.result) targetRepoMissingReasonPrefix
        && (resolveRepo (fun _ => some "/srv/repo") r.payload).1.isSome) = true) :
    ∃ r, q.get "older" = some r ∧ Revivable (fun _ _ => some "/srv/repo") r ∧ TakesRevival r := by
  obtain ⟨r, hr, hrow⟩ := (Option.any_eq_true _ _).mp h
  simp only [Bool.and_eq_true, beq_iff_eq] at hrow
  obtain ⟨⟨⟨hst, hfailed⟩, hreason⟩, hresolves⟩ := hrow
  refine ⟨r, hr, ⟨hfailed, hreason, hresolves⟩, fun hterminal => ?_⟩
  rw [hst] at hterminal
  cases hterminal

/-- With one more row in the query the older job is revived. -/
theorem hidden_job_within_limit :
    Complete (fun _ _ => some "/srv/repo")
      (recoverTargetRepoMissingRows hiddenQueue 2 (fun _ _ => some "/srv/repo") fun _ => 3) := by
  obtain ⟨r, hr, hrev, htakes⟩ := older_job hiddenQueue (by decide +kernel)
  have hplace : (((failedByUpdate hiddenQueue).map Job.jobId).idxOf "older" : Int) < 2 := by
    decide +kernel
  refine (complete_iff hiddenQueue 2 (by decide) _ _).mpr
    (.inr ⟨r, (Table.find?_eq_some_iff.mp hr).1, hrev, htakes, ?_⟩)
  rwa [position, get_jobId hr]

/-- The newer failure takes the only place of the query. -/
theorem hidden_job_is_left :
    ¬ ∀ (q : JobQueue) (maxPerRun : Int), 1 ≤ maxPerRun →
      ∀ (resolver : String → String → Option String) (now : String → Time),
        Complete resolver (recoverTargetRepoMissingRows q maxPerRun resolver now) := by
  intro h
  have hnothing : (recoverTargetRepoMissingRows hiddenQueue 1 (fun _ _ => some "/srv/repo")
      fun _ => 3).1 = [] := by decide +kernel
  obtain ⟨r, hr, hrev, -⟩ := older_job hiddenQueue (by decide +kernel)
  rw [← get_of_nothing_reported hnothing] at hr
  exact h hiddenQueue 1 (by decide) _ _ hnothing "older" r hr hrev

end Recovery

end ForgeKit
