import ForgeKit.JobQueue.RawWrites

/-!
# What a recovery sweep reports

A whole sweep of `coding_execute_recovery.py` with nothing else at work: the query, then one row
after the other. A `failed_retryable` row goes through `requeue_retryable`, which may also
escalate it to `failed_terminal`; the sweep counts the row as revived either way.

* `sweep_eq` — the report and the rows afterwards, in closed form
* `reports_iff` — the report is right exactly when no row that is put back has used up its
  attempts
-/

namespace ForgeKit

namespace JobQueue

/-! ## `requeue_retryable` on a row it accepts -/

/-- The `transition` call that `requeue_retryable` makes for a `failed_retryable` row. -/
def requeueCall (backoffSeconds : ℚ) (now : Time) (r : Job) : TransitionArgs :=
  if r.attempt + 1 ≥ r.maxAttempts then
    { jobId := r.jobId, target := .failedTerminal, clearLease := true, now }
  else
    { jobId := r.jobId, target := .queued, availableAt := some (now + max 0 backoffSeconds),
      clearLease := true, bumpAttempt := true, now }

theorem requeueRetryable_eq {q : JobQueue} {r : Job} (hr : q.get r.jobId = some r)
    (hst : r.state = .failedRetryable) (backoff : ℚ) (now : Time) :
    q.requeueRetryable r.jobId backoff now
      = .ok ((requeueCall backoff now r).apply r,
          q.updateJob r.jobId (requeueCall backoff now r).apply
            (requeueCall backoff now r).apply_jobId) := by
  have hread : q.requeueRead r.jobId backoff now = .ok (requeueCall backoff now r) := by
    unfold requeueRead requeueCall
    simp only [hr, hst, ne_eq, not_true_eq_false, if_false]
    split <;> rfl
  have hid : (requeueCall backoff now r).jobId = r.jobId := by
    unfold requeueCall
    split <;> rfl
  have hedge : JobState.validateTransition r.state (requeueCall backoff now r).target
      = .ok () := by
    rw [JobState.validateTransition_ok_iff, hst]
    unfold requeueCall
    split
    · exact (by decide : JobState.Edge .failedRetryable .failedTerminal)
    · exact (by decide : JobState.Edge .failedRetryable .queued)
  have hbind : q.requeueRetryable r.jobId backoff now
      = q.transition (requeueCall backoff now r) := by
    unfold requeueRetryable
    rw [hread]
    rfl
  rw [hbind, transition]
  simp only [hid, hr, hedge]

end JobQueue

namespace Recovery

open JobQueue

/-! ## The sweep -/

/--
One row of a sweep. `resolver jobId` is the resolver at the moment the sweep is at that job, and
`now jobId` the clock.
-/
def sweepRow (kind : SweepKind) (resolver : String → String → Option String)
    (now : String → Time) (acc : List String × JobQueue) (row : SweepRow) :
    List String × JobQueue :=
  match reviveNote kind (resolver row.jobId) row with
  | none => acc
  | some note =>
    if row.state = .failedRetryable then
      match acc.2.requeueRetryable row.jobId 5 (now row.jobId) with
      | .ok (_, q) => (acc.1 ++ [row.jobId], q)
      | .error _ => acc
    else
      match reviveFailedTerminalRow acc.2 row.jobId note (now row.jobId) with
      | .ok (true, q) => (acc.1 ++ [row.jobId], q)
      | _ => acc

/-- A sweep: the job ids it returns, and the tables. -/
def sweep (q : JobQueue) (kind : SweepKind) (capabilityEnabled : Bool) (maxPerRun : Int)
    (resolver : String → String → Option String) (now : String → Time) : List String × JobQueue :=
  (sweepRows q kind capabilityEnabled maxPerRun).foldl (sweepRow kind resolver now) ([], q)

/-- `recover_target_repo_missing_rows`. -/
def recoverTargetRepoMissingRows (q : JobQueue) (maxPerRun : Int)
    (resolver : String → String → Option String) (now : String → Time) : List String × JobQueue :=
  sweep q .targetRepoMissing true maxPerRun resolver now

/-- `recover_bootstrap_required_rows`. -/
def recoverBootstrapRequiredRows (q : JobQueue) (capabilityEnabled : Bool) (maxPerRun : Int)
    (resolver : String → String → Option String) (now : String → Time) : List String × JobQueue :=
  sweep q .bootstrapRequired capabilityEnabled maxPerRun resolver now

/-! ## One row -/

/-- What a sweep reads of a row. -/
def columns (r : Job) : SweepRow :=
  { jobId := r.jobId, state := r.state, payload := r.payload, result := r.result }

/-- What a sweep makes of a row it goes through. -/
def sweepRewrite (kind : SweepKind) (resolver : String → String → Option String)
    (now : String → Time) (r : Job) : Job :=
  match reviveNote kind (resolver r.jobId) (columns r) with
  | none => r
  | some note =>
    if r.state = .failedRetryable then (requeueCall 5 (now r.jobId) r).apply r
    else reviveRewrite r.jobId note (now r.jobId) r

/-- The sweep returns the id of this row. -/
def reported (kind : SweepKind) (resolver : String → String → Option String)
    (now : String → Time) (r : Job) : Bool :=
  match reviveNote kind (resolver r.jobId) (columns r) with
  | none => false
  | some note => r.state == .failedRetryable || revives r.jobId note (now r.jobId) r

section Sweep

variable {kind : SweepKind} {resolver : String → String → Option String} {now : String → Time}

@[simp] theorem sweepRewrite_jobId (r : Job) :
    (sweepRewrite kind resolver now r).jobId = r.jobId := by
  unfold sweepRewrite reviveRewrite
  split
  · rfl
  · split
    · rfl
    · split <;> rfl

/-- Two rewrites of one row that agree on it. -/
theorem map_row_congr {q : JobQueue} {r : Job} (hr : q.get r.jobId = some r) {f g : Job → Job}
    (hfg : f r = g r) (k : String) :
    ((q.get k).map fun x => if x.jobId = r.jobId then f x else x)
      = (q.get k).map fun x => if x.jobId = r.jobId then g x else x := by
  cases hx : q.get k with
  | none => rfl
  | some x =>
    by_cases hid : x.jobId = r.jobId
    · have hk : k = r.jobId := by rw [← get_jobId hx, hid]
      rw [hk, hr] at hx
      cases hx
      simp [hfg]
    · simp [hid]

theorem reviveFailedTerminalRow_of_revives {q : JobQueue} {r : Job} {note : Dict Json}
    {now : Time} (hr : q.get r.jobId = some r) (h : revives r.jobId note now r = true) :
    ∃ q', reviveFailedTerminalRow q r.jobId note now = .ok (true, q')
      ∧ ∀ k, q'.get k
        = (q.get k).map fun x => if x.jobId = r.jobId then reviveRewrite r.jobId note now x
          else x := by
  have hrw : reviveRewrite r.jobId note now r
      = revive now ((withRevival now note r.result).getD []) r := by
    rw [reviveRewrite, if_pos h]
  simp only [revives, beq_self_eq_true, Bool.true_and, Bool.and_eq_true, beq_iff_eq,
    Option.isSome_iff_exists] at h
  obtain ⟨hst, result, hres⟩ := h
  rw [hres, Option.getD_some] at hrw
  refine ⟨q.updateJob r.jobId (revive now result) (revive_jobId now result), ?_, fun k => ?_⟩
  · unfold reviveFailedTerminalRow
    simp [hr, hst, hres]
  · rw [get_updateJob]
    exact map_row_congr hr hrw.symm k

theorem reviveFailedTerminalRow_of_not_revives {q q' : JobQueue} {r : Job} {note : Dict Json}
    {now : Time} (hr : q.get r.jobId = some r) (h : revives r.jobId note now r = false) :
    reviveFailedTerminalRow q r.jobId note now ≠ .ok (true, q') := by
  unfold reviveFailedTerminalRow
  simp only [hr]
  by_cases hst : r.state = .failedTerminal
  · cases hres : withRevival now note r.result with
    | none => simp [hst]
    | some result => simp [revives, hst, hres] at h
  · simp [hst]

/-- **One row of a sweep.** -/
theorem sweepRow_eq (kind : SweepKind) (resolver : String → String → Option String)
    (now : String → Time) {q : JobQueue} {r : Job} (hr : q.get r.jobId = some r)
    (ids : List String) :
    (sweepRow kind resolver now (ids, q) (columns r)).1
        = ids ++ (if reported kind resolver now r then [r.jobId] else [])
      ∧ ∀ k, (sweepRow kind resolver now (ids, q) (columns r)).2.get k
        = (q.get k).map fun x => if x.jobId = r.jobId then sweepRewrite kind resolver now x
          else x := by
  have hself : ∀ k, q.get k = (q.get k).map fun x => if x.jobId = r.jobId then x else x := by
    intro k
    simp
  have hid : (columns r).jobId = r.jobId := rfl
  have hstate : (columns r).state = r.state := rfl
  unfold sweepRow
  simp only [hid, hstate]
  cases hnote : reviveNote kind (resolver r.jobId) (columns r) with
  | none =>
    have hrw : sweepRewrite kind resolver now r = r := by simp [sweepRewrite, hnote]
    exact ⟨by simp [reported, hnote], fun k => (hself k).trans (map_row_congr hr hrw.symm k)⟩
  | some note =>
    by_cases hst : r.state = .failedRetryable
    · simp only [hst, if_true, requeueRetryable_eq hr hst, get_updateJob]
      refine ⟨by simp [reported, hnote, hst], fun k => ?_⟩
      exact map_row_congr hr (by simp [sweepRewrite, hnote, hst]) k
    · have hrw : sweepRewrite kind resolver now r
          = reviveRewrite r.jobId note (now r.jobId) r := by
        simp [sweepRewrite, hnote, hst]
      have hrep : reported kind resolver now r = revives r.jobId note (now r.jobId) r := by
        simp [reported, hnote, hst]
      simp only [hst, if_false, hrep]
      cases hrev : revives r.jobId note (now r.jobId) r with
      | true =>
        obtain ⟨q', hok, hget⟩ := reviveFailedTerminalRow_of_revives hr hrev
        simp only [hok, if_true]
        refine ⟨trivial, fun k => ?_⟩
        rw [hget]
        exact map_row_congr hr hrw.symm k
      | false =>
        have hno : ∀ q', reviveFailedTerminalRow q r.jobId note (now r.jobId)
            ≠ .ok (true, q') := fun q' => reviveFailedTerminalRow_of_not_revives hr hrev
        have hskip : (match reviveFailedTerminalRow q r.jobId note (now r.jobId) with
            | .ok (true, q') => (ids ++ [r.jobId], q')
            | _ => (ids, q)) = (ids, q) := by
          split
          · next q' hok => exact absurd hok (hno q')
          · rfl
        have hsame : sweepRewrite kind resolver now r = r := by simp [hrw, reviveRewrite, hrev]
        rw [hskip]
        exact ⟨by simp, fun k => (hself k).trans (map_row_congr hr hsame.symm k)⟩

/-! ## All rows -/

theorem foldl_sweepRow_eq (kind : SweepKind) (resolver : String → String → Option String)
    (now : String → Time) {q : JobQueue} {rs : List Job} (hnd : (rs.map Job.jobId).Nodup)
    (hrs : ∀ r ∈ rs, q.get r.jobId = some r) (ids : List String) :
    ((rs.map columns).foldl (sweepRow kind resolver now) (ids, q)).1
        = ids ++ (rs.filter (reported kind resolver now)).map Job.jobId
      ∧ ∀ k, ((rs.map columns).foldl (sweepRow kind resolver now) (ids, q)).2.get k
        = (q.get k).map fun x => if x.jobId ∈ rs.map Job.jobId then sweepRewrite kind resolver now x
          else x := by
  induction rs generalizing q ids with
  | nil => simp
  | cons r rs ih =>
    obtain ⟨hfresh, hnd⟩ := List.nodup_cons.mp hnd
    obtain ⟨hids, hget⟩ :=
      sweepRow_eq kind resolver now (hrs r (by simp)) ids
    -- the other rows are as they were when the query ran
    have hrest : ∀ r' ∈ rs, (sweepRow kind resolver now (ids, q) (columns r)).2.get r'.jobId
        = some r' := by
      intro r' hr'
      have hne : r'.jobId ≠ r.jobId := fun he => hfresh (he ▸ List.mem_map_of_mem hr')
      rw [hget, hrs r' (List.mem_cons_of_mem _ hr'), Option.map_some, if_neg hne]
    obtain ⟨hids', hget'⟩ := ih hnd hrest (sweepRow kind resolver now (ids, q) (columns r)).1
    rw [List.map_cons, List.foldl_cons]
    refine ⟨?_, fun k => ?_⟩
    · rw [hids', hids, List.filter_cons]
      split <;> simp
    · rw [hget', hget, Option.map_map]
      congr 1
      funext x
      by_cases hx : x.jobId = r.jobId
      · have hout : (sweepRewrite kind resolver now x).jobId ∉ rs.map Job.jobId := by
          rw [sweepRewrite_jobId, hx]
          exact hfresh
        simp only [Function.comp_apply, hx, if_true, if_neg hout, List.map_cons, List.mem_cons,
          true_or]
      · simp [hx]

end Sweep

/-- The rows that the sweep goes through. -/
def swept (q : JobQueue) (kind : SweepKind) (capabilityEnabled : Bool) (maxPerRun : Int) :
    List Job :=
  if kind = .bootstrapRequired ∧ capabilityEnabled = false then [] else failedRows q maxPerRun

theorem sweepRows_eq (q : JobQueue) (kind : SweepKind) (enabled : Bool) (maxPerRun : Int) :
    sweepRows q kind enabled maxPerRun = (swept q kind enabled maxPerRun).map columns := by
  unfold sweepRows swept
  split <;> rfl

theorem limit_sublist {α : Type} (n : Int) (xs : List α) : (limit n xs).Sublist xs := by
  unfold limit
  split
  · exact List.Sublist.refl _
  · exact List.take_sublist _ _

theorem nodup_swept (q : JobQueue) (kind : SweepKind) (enabled : Bool) (maxPerRun : Int) :
    ((swept q kind enabled maxPerRun).map Job.jobId).Nodup := by
  unfold swept
  split
  · exact List.nodup_nil
  · refine List.Nodup.sublist ((limit_sublist _ _).map _) ?_
    refine (((List.perm_insertionSort _ _).map Job.jobId).nodup_iff).mpr ?_
    exact q.jobs.nodup.sublist (List.filter_sublist.map _)

theorem swept_spec {q : JobQueue} {kind : SweepKind} {enabled : Bool} {maxPerRun : Int} {r : Job}
    (h : r ∈ swept q kind enabled maxPerRun) :
    q.get r.jobId = some r ∧ (r.state = .failedRetryable ∨ r.state = .failedTerminal) := by
  unfold swept at h
  split at h
  · cases h
  · have hmem := mem_limit h
    simp only [List.mem_insertionSort, List.mem_filter, Bool.and_eq_true] at hmem
    exact ⟨get_of_mem hmem.1, by simpa using hmem.2.2⟩

/-- **What a sweep returns, and what it makes of every row.** -/
theorem sweep_eq (q : JobQueue) (kind : SweepKind) (enabled : Bool) (maxPerRun : Int)
    (resolver : String → String → Option String) (now : String → Time) :
    (sweep q kind enabled maxPerRun resolver now).1
        = ((swept q kind enabled maxPerRun).filter (reported kind resolver now)).map Job.jobId
      ∧ ∀ k, (sweep q kind enabled maxPerRun resolver now).2.get k
        = (q.get k).map fun x => if x.jobId ∈ (swept q kind enabled maxPerRun).map Job.jobId then
            sweepRewrite kind resolver now x else x := by
  unfold sweep
  rw [sweepRows_eq]
  have h := foldl_sweepRow_eq kind resolver now
    (nodup_swept q kind enabled maxPerRun) (fun r hr => (swept_spec hr).1) []
  simpa only [List.nil_append] using h

/-! ## When the report is right -/

/--
The report of a sweep is right: every id it returns is queued without a lease, and every job
that the sweep put into `queued` is returned.
-/
def ReportsWhatItDid (before : JobQueue) (out : List String × JobQueue) : Prop :=
  (∀ id ∈ out.1, ∃ r, out.2.get id = some r ∧ r.state = .queued ∧ r.pickedBy = none
      ∧ r.pickedUntil = none)
    ∧ ∀ id r', out.2.get id = some r' → r'.state = .queued →
      (∀ r, before.get id = some r → r.state ≠ .queued) → id ∈ out.1

/-- Every `failed_retryable` row that the sweep puts back has an attempt left. -/
def AttemptsLeft (q : JobQueue) (kind : SweepKind) (capabilityEnabled : Bool) (maxPerRun : Int)
    (resolver : String → String → Option String) : Prop :=
  ∀ r ∈ swept q kind capabilityEnabled maxPerRun,
    (reviveNote kind (resolver r.jobId) (columns r)).isSome = true →
    r.state = .failedRetryable → r.attempt + 1 < r.maxAttempts

theorem requeueCall_target (backoff : ℚ) (now : Time) (r : Job) :
    (requeueCall backoff now r).target = .queued ↔ r.attempt + 1 < r.maxAttempts := by
  unfold requeueCall
  split
  · next h => exact iff_of_false (by simp) (by omega)
  · next h => exact iff_of_true rfl (by omega)

theorem requeueCall_clearLease (backoff : ℚ) (now : Time) (r : Job) :
    (requeueCall backoff now r).clearLease = true := by
  unfold requeueCall
  split <;> rfl

section Report

variable {kind : SweepKind} {resolver : String → String → Option String} {now : String → Time}

/-- A row that the sweep returns is queued without a lease, if it had an attempt left. -/
theorem reported_spec {r : Job} (h : reported kind resolver now r = true)
    (hleft : (reviveNote kind (resolver r.jobId) (columns r)).isSome = true →
      r.state = .failedRetryable → r.attempt + 1 < r.maxAttempts) :
    (sweepRewrite kind resolver now r).state = .queued
      ∧ (sweepRewrite kind resolver now r).pickedBy = none
      ∧ (sweepRewrite kind resolver now r).pickedUntil = none := by
  unfold reported at h
  unfold sweepRewrite
  cases hnote : reviveNote kind (resolver r.jobId) (columns r) with
  | none => simp [hnote] at h
  | some note =>
    simp only [hnote] at h ⊢
    by_cases hst : r.state = .failedRetryable
    · rw [if_pos hst]
      refine ⟨?_, ?_, ?_⟩
      · exact (requeueCall_target _ _ r).mpr (hleft (by simp [hnote]) hst)
      all_goals simp [TransitionArgs.apply, requeueCall_clearLease]
    · have hrev : revives r.jobId note (now r.jobId) r = true := by simpa [hst] using h
      rw [if_neg hst, reviveRewrite, if_pos hrev]
      exact ⟨rfl, rfl, rfl⟩

/-- A row that the sweep does not return keeps its state. -/
theorem sweepRewrite_of_not_reported {r : Job} (h : reported kind resolver now r = false) :
    sweepRewrite kind resolver now r = r := by
  unfold reported at h
  unfold sweepRewrite
  cases hnote : reviveNote kind (resolver r.jobId) (columns r) with
  | none => rfl
  | some note =>
    simp only [hnote, Bool.or_eq_false_iff, beq_eq_false_iff_ne, ne_eq] at h ⊢
    rw [if_neg h.1, reviveRewrite, if_neg (by simp [h.2])]

end Report

theorem reportsWhatItDid_sweep_iff (q : JobQueue) (kind : SweepKind) (enabled : Bool)
    (maxPerRun : Int) (resolver : String → String → Option String) (now : String → Time) :
    ReportsWhatItDid q (sweep q kind enabled maxPerRun resolver now)
      ↔ AttemptsLeft q kind enabled maxPerRun resolver := by
  obtain ⟨hids, hget⟩ := sweep_eq q kind enabled maxPerRun resolver now
  have hafter : ∀ r ∈ swept q kind enabled maxPerRun,
      (sweep q kind enabled maxPerRun resolver now).2.get r.jobId
        = some (sweepRewrite kind resolver now r) := by
    intro r hr
    rw [hget, (swept_spec hr).1, Option.map_some, if_pos (List.mem_map_of_mem hr)]
  unfold ReportsWhatItDid
  rw [hids]
  constructor
  · rintro ⟨hqueued, -⟩ r hr hnote hst
    -- the row is returned whatever `requeue_retryable` decided
    obtain ⟨note, hnote⟩ := Option.isSome_iff_exists.mp hnote
    have hrep : reported kind resolver now r = true := by simp [reported, hnote, hst]
    obtain ⟨r', hr', hst', -⟩ :=
      hqueued r.jobId (List.mem_map_of_mem (List.mem_filter.mpr ⟨hr, hrep⟩))
    rw [hafter r hr] at hr'
    obtain rfl := Option.some.inj hr'
    simp only [sweepRewrite, hnote, hst, if_true] at hst'
    exact (requeueCall_target _ _ r).mp hst'
  · intro hleft
    refine ⟨?_, ?_⟩
    · intro id hid
      obtain ⟨r, hr, rfl⟩ := List.mem_map.mp hid
      obtain ⟨hr, hrep⟩ := List.mem_filter.mp hr
      exact ⟨_, hafter r hr, reported_spec hrep (hleft r hr)⟩
    · intro id r' hr' hst' hnew
      rw [hget] at hr'
      obtain ⟨r, hr, rfl⟩ := Option.map_eq_some_iff.mp hr'
      split at hst'
      · next hmem =>
        obtain ⟨r₁, hr₁, hid₁⟩ := List.mem_map.mp hmem
        have hsame : r₁ = r := by
          have h₁ := (swept_spec hr₁).1
          rw [hid₁, get_jobId hr, hr] at h₁
          exact (Option.some.inj h₁).symm
        subst hsame
        by_cases hrep : reported kind resolver now r₁ = true
        · rw [← get_jobId hr]
          exact List.mem_map_of_mem (List.mem_filter.mpr ⟨hr₁, hrep⟩)
        · rw [sweepRewrite_of_not_reported (by simpa using hrep)] at hst'
          exact absurd hst' (hnew _ hr)
      · exact absurd hst' (hnew _ hr)

/--
**When a sweep reports what it did.**

Both sweeps, on every queue and under every resolver: exactly when each `failed_retryable` row
that is put back has an attempt left. A row without one is escalated to `failed_terminal`, and
returned all the same.
-/
theorem sweeps_report_iff (q : JobQueue) (enabled : Bool) (maxPerRun : Int)
    (resolver : String → String → Option String) (now : String → Time) :
    (ReportsWhatItDid q (recoverTargetRepoMissingRows q maxPerRun resolver now)
        ↔ AttemptsLeft q .targetRepoMissing true maxPerRun resolver)
      ∧ (ReportsWhatItDid q (recoverBootstrapRequiredRows q enabled maxPerRun resolver now)
        ↔ AttemptsLeft q .bootstrapRequired enabled maxPerRun resolver) :=
  ⟨reportsWhatItDid_sweep_iff _ _ _ _ _ _, reportsWhatItDid_sweep_iff _ _ _ _ _ _⟩

/-- A coding job of one attempt that failed because the checkout was missing. -/
def missingCheckoutQueue : JobQueue :=
  let q := JobQueue.empty
  let q := q.commit (q.enqueue
    { jobId := "job", sessionId := "session", jobType := "coding_execute", maxAttempts := 1,
      payload := [("repo_full_name", .str "owner/repo")], now := 0 })
  let q := q.commit (q.pick { workerId := "A", now := 1 })
  let q := q.commit (q.transition { jobId := "job", target := .inProgress, now := 1 })
  q.commit (q.transition
    { jobId := "job", target := .failedRetryable,
      result := some [("reason", .str "target_repo_checkout_missing")], now := 2 })

/-- The checkout is there now: the sweep returns the job, and the job is `failed_terminal`. -/
theorem not_reportsWhatItDid_missingCheckout :
    ¬ReportsWhatItDid missingCheckoutQueue
      (recoverTargetRepoMissingRows missingCheckoutQueue 50 (fun _ _ => some "/srv/repo")
        fun _ => 3) := by
  intro h
  have hout : "job" ∈ (recoverTargetRepoMissingRows missingCheckoutQueue 50
      (fun _ _ => some "/srv/repo") fun _ => 3).1 := by decide +kernel
  have hrow : ((recoverTargetRepoMissingRows missingCheckoutQueue 50
      (fun _ _ => some "/srv/repo") fun _ => 3).2.get "job").map Job.state
        = some .failedTerminal := by decide +kernel
  obtain ⟨r, hr, hst, -⟩ := h.1 "job" hout
  rw [hr, Option.map_some, hst] at hrow
  cases hrow

end Recovery

end ForgeKit
