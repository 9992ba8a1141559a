import ForgeKit.JobQueue.Store

/-!
# What each method of the queue does to a row

One equation per method, stated through `get`. Every method but `enqueue` rewrites rows in
place, so its equation has the form `q'.get k = (q.get k).map f`; `enqueue` adds one row and
touches no other.

Later modules use these equations and never unfold a method.
-/

namespace ForgeKit

namespace JobQueue

/-- The tables once a method is over: those it committed, or the old ones when it raised. -/
def commit {β : Type} (q : JobQueue) : Except QueueError (β × JobQueue) → JobQueue
  | .ok (_, q') => q'
  | .error _ => q

@[simp] theorem commit_ok {β : Type} (q q' : JobQueue) (b : β) : q.commit (.ok (b, q')) = q' := rfl

@[simp] theorem commit_error {β : Type} (q : JobQueue) (e : QueueError) :
    q.commit (.error e : Except QueueError (β × JobQueue)) = q := rfl

/-! ## Rows and keys -/

theorem get_jobId {q : JobQueue} {k : String} {r : Job} (h : q.get k = some r) : r.jobId = k :=
  Table.find?_key h

theorem get_of_mem {q : JobQueue} {r : Job} (h : r ∈ q.jobs.rows) : q.get r.jobId = some r :=
  Table.find?_of_mem h

@[simp] theorem get_mapJobs (q : JobQueue) (f : Job → Job) (hf : ∀ r, (f r).jobId = r.jobId)
    (k : String) : (q.mapJobs f hf).get k = (q.get k).map f := Table.find?_mapRows q.jobs f hf k

@[simp] theorem get_updateJob (q : JobQueue) (jobId : String) (f : Job → Job)
    (hf : ∀ r, (f r).jobId = r.jobId) (k : String) :
    (q.updateJob jobId f hf).get k
      = (q.get k).map fun r => if r.jobId = jobId then f r else r := by
  unfold updateJob
  exact get_mapJobs _ _ _ _

/-- A method that checks the row it read and then updates it: the check passed. -/
theorem map_guarded_of_accepted {q : JobQueue} {jobId : String} {c : Job} {accepts : Job → Bool}
    {f : Job → Job} (hc : q.get jobId = some c) (ha : accepts c = true) (k : String) :
    ((q.get k).map fun r => if r.jobId == jobId && accepts r then f r else r)
      = (q.get k).map fun r => if r.jobId = jobId then f r else r := by
  cases hr : q.get k with
  | none => rfl
  | some r =>
    by_cases hid : r.jobId = jobId
    · have hk : k = jobId := by rw [← get_jobId hr, hid]
      rw [hk, hc] at hr
      cases hr
      simp [hid, ha]
    · simp [hid]

/-- A method that checks the row it read: there is no row, or the check failed. -/
theorem map_guarded_of_refused {q : JobQueue} {jobId : String} {accepts : Job → Bool}
    {f : Job → Job} (h : ∀ c, q.get jobId = some c → accepts c = false) (k : String) :
    ((q.get k).map fun r => if r.jobId == jobId && accepts r then f r else r) = q.get k := by
  cases hr : q.get k with
  | none => rfl
  | some r =>
    by_cases hid : r.jobId = jobId
    · have hk : k = jobId := by rw [← get_jobId hr, hid]
      simp [h r (hk ▸ hr)]
    · simp [hid]

/-! ## `enqueue` -/

theorem enqueue_ok {q q' : JobQueue} {a : EnqueueArgs} {r : Job} (h : q.enqueue a = .ok (r, q')) :
    r = a.job ∧ 1 ≤ a.maxAttempts ∧ a.sessionId ≠ "" ∧ a.jobType ≠ "" ∧ q.get a.jobId = none
      ∧ (∀ k, q'.get k = if a.jobId = k then some a.job else q.get k)
      ∧ (∀ p ∈ a.parents, (q'.get p).isSome)
      ∧ q'.dependencies = insertParents a.jobId a.parents q.dependencies := by
  unfold enqueue at h
  by_cases hs : a.sessionId = ""
  · rw [if_pos hs] at h; cases h
  by_cases ht : a.jobType = ""
  · rw [if_neg hs, if_pos ht] at h; cases h
  by_cases hm : a.maxAttempts < 1
  · rw [if_neg hs, if_neg ht, if_pos hm] at h; cases h
  rw [if_neg hs, if_neg ht, if_neg hm] at h
  split at h
  · next hfree =>
    split at h
    · next hp =>
      cases h
      exact ⟨rfl, by omega, hs, ht, hfree, fun k => Table.find?_insert hfree k, hp, rfl⟩
    · cases h
  · cases h

/-! ## `pick` -/

/-- The row the next `pick` would claim. -/
def picks (q : JobQueue) (a : PickArgs) (r : Job) : Bool :=
  a.workerId != "" && (q.candidate a).any fun c => c.jobId == r.jobId

theorem mem_of_firstRow {rs : List Job} {r : Job} (h : firstRow rs = some r) : r ∈ rs := by
  induction rs generalizing r with
  | nil => cases h
  | cons r' rs ih =>
    rw [firstRow] at h
    cases hb : firstRow rs with
    | none =>
      rw [hb] at h
      cases h
      exact List.mem_cons_self
    | some best =>
      rw [hb] at h
      simp only at h
      split at h
      · cases h
        exact List.mem_cons_of_mem _ (ih hb)
      · cases h
        exact List.mem_cons_self

theorem candidate_spec {q : JobQueue} {a : PickArgs} {r : Job} (h : q.candidate a = some r) :
    q.get r.jobId = some r ∧ r.state = .queued ∧ r.availableAt ≤ a.now ∧ a.admits r = true
      ∧ q.blocked r.jobId = false := by
  have hmem := mem_of_firstRow h
  obtain ⟨hrow, helig⟩ := List.mem_filter.mp hmem
  simp only [eligible, Bool.and_eq_true, beq_iff_eq, decide_eq_true_eq, Bool.not_eq_true'] at helig
  obtain ⟨⟨⟨hst, hav⟩, had⟩, hbl⟩ := helig
  exact ⟨get_of_mem hrow, hst, hav, had, hbl⟩

theorem picks_spec {q : JobQueue} {a : PickArgs} {r : Job} (hr : q.get r.jobId = some r)
    (h : q.picks a r = true) : r.state = .queued := by
  simp only [picks, Bool.and_eq_true, Option.any_eq_true, beq_iff_eq] at h
  obtain ⟨-, c, hc, hid⟩ := h
  obtain ⟨hget, hst, -⟩ := candidate_spec hc
  rw [hid, hr] at hget
  rw [Option.some.inj hget]; exact hst

/-- What `pick` returns, and that its state check cannot fail. -/
theorem pick_eq (q : JobQueue) (a : PickArgs) (hw : a.workerId ≠ "") :
    q.pick a = match q.candidate a with
      | none => .ok (none, q)
      | some r => .ok (some (assign a r), q.updateJob r.jobId (assign a) (assign_jobId a)) := by
  unfold pick
  rw [if_neg hw]
  cases hc : q.candidate a with
  | none => rfl
  | some r =>
    have hst : r.state = .queued := (candidate_spec hc).2.1
    have hval : JobState.validateTransition r.state .assigned = .ok () := by
      rw [hst]; rfl
    simp only [hval]

theorem pick_ok_some {q q' : JobQueue} {a : PickArgs} {r' : Job}
    (h : q.pick a = .ok (some r', q')) :
    ∃ r, a.workerId ≠ "" ∧ q.candidate a = some r ∧ r' = assign a r := by
  by_cases hw : a.workerId = ""
  · unfold pick at h
    rw [if_pos hw] at h; cases h
  · rw [pick_eq q a hw] at h
    cases hc : q.candidate a with
    | none => rw [hc] at h; cases h
    | some r =>
      rw [hc] at h
      cases h
      exact ⟨r, hw, rfl, rfl⟩

theorem pick_ok_none {q q' : JobQueue} {a : PickArgs} (h : q.pick a = .ok (none, q')) : q' = q := by
  by_cases hw : a.workerId = ""
  · unfold pick at h
    rw [if_pos hw] at h; cases h
  · rw [pick_eq q a hw] at h
    cases hc : q.candidate a <;> rw [hc] at h <;> cases h
    rfl

theorem get_commit_pick (q : JobQueue) (a : PickArgs) (k : String) :
    (q.commit (q.pick a)).get k
      = (q.get k).map fun r => if q.picks a r then assign a r else r := by
  by_cases hw : a.workerId = ""
  · have herr : q.pick a = .error (.jobQueueError "worker_id is required") := by
      unfold pick; rw [if_pos hw]
    rw [herr]
    simp [picks, hw]
  · rw [pick_eq q a hw]
    cases hc : q.candidate a with
    | none => simp [picks, hc]
    | some c =>
      simp only [commit_ok, get_updateJob]
      congr 1
      funext r
      have hpk : q.picks a r = decide (r.jobId = c.jobId) := by
        simp [picks, hc, hw, beq_eq_decide, eq_comm (a := c.jobId)]
      simp [hpk]

/-! ## `transition` -/

/-- `transition` changes this row. -/
def TransitionArgs.moves (a : TransitionArgs) (r : Job) : Bool :=
  r.jobId == a.jobId && decide (JobState.Edge r.state a.target)

/-- What a `transition` call makes of a row, allowed or not. -/
def TransitionArgs.rewrite (a : TransitionArgs) (r : Job) : Job :=
  if a.moves r then a.apply r else r

theorem TransitionArgs.moves_iff {a : TransitionArgs} {r : Job} :
    a.moves r = true ↔ r.jobId = a.jobId ∧ JobState.Edge r.state a.target := by
  simp [TransitionArgs.moves]

/-- An allowed call changes the state, since the table has no loops. -/
theorem TransitionArgs.rewrite_state_ne {a : TransitionArgs} {r : Job} (h : a.moves r = true) :
    (a.rewrite r).state ≠ r.state := by
  rw [TransitionArgs.rewrite, if_pos h]
  intro he
  rw [TransitionArgs.apply_state] at he
  have hedge := (TransitionArgs.moves_iff.mp h).2
  rw [he] at hedge
  exact JobState.edge_irrefl _ hedge

theorem get_commit_transition (q : JobQueue) (a : TransitionArgs) (k : String) :
    (q.commit (q.transition a)).get k = (q.get k).map a.rewrite := by
  -- a call that raises leaves every row, and so does `rewrite` when the edge is missing
  have hrefused : (∀ c, q.get a.jobId = some c → decide (JobState.Edge c.state a.target) = false) →
      (q.get k).map a.rewrite = q.get k := fun h => map_guarded_of_refused h k
  unfold transition
  cases hc : q.get a.jobId with
  | none => exact (hrefused (by simp [hc])).symm
  | some c =>
    cases hv : JobState.validateTransition c.state a.target with
    | error msg =>
      have hno := JobState.validateTransition_error_iff.mp ⟨msg, hv⟩
      simp only [hv, commit_error]
      refine (hrefused fun c' hc' => ?_).symm
      rw [hc] at hc'
      cases hc'
      exact decide_eq_false hno
    | ok u =>
      have he := JobState.validateTransition_ok_iff.mp hv
      simp only [hv, commit_ok, get_updateJob]
      exact (map_guarded_of_accepted hc (decide_eq_true he) k).symm

/-- A call that went through moved a row along an edge. -/
theorem transition_ok {q q' : JobQueue} {a : TransitionArgs} {r : Job}
    (h : q.transition a = .ok (r, q')) :
    ∃ c, q.get a.jobId = some c ∧ JobState.Edge c.state a.target ∧ r = a.apply c ∧
      q'.get a.jobId = some r := by
  have hget := get_commit_transition q a a.jobId
  rw [h, commit_ok] at hget
  unfold transition at h
  cases hc : q.get a.jobId with
  | none =>
    rw [hc] at h
    cases h
  | some c =>
    rw [hc] at h hget
    cases hv : JobState.validateTransition c.state a.target with
    | error msg => simp [hv] at h
    | ok u =>
      have hedge := JobState.validateTransition_ok_iff.mp hv
      have hr : a.apply c = r := by
        simp only [hv, Except.ok.injEq, Prod.mk.injEq] at h
        exact h.1
      have hmoves : a.moves c = true := TransitionArgs.moves_iff.mpr ⟨get_jobId hc, hedge⟩
      rw [Option.map_some, TransitionArgs.rewrite, if_pos hmoves, hr] at hget
      exact ⟨c, rfl, hedge, hr.symm, hget⟩

/-- A call that was refused found no edge. -/
theorem transition_error {q : JobQueue} {a : TransitionArgs} {e : QueueError}
    (h : q.transition a = .error e) :
    ∀ c, q.get a.jobId = some c → ¬JobState.Edge c.state a.target := by
  intro c hc hedge
  unfold transition at h
  rw [hc] at h
  dsimp only at h
  cases hv : JobState.validateTransition c.state a.target with
  | error msg => exact JobState.validateTransition_error_iff.mp ⟨msg, hv⟩ hedge
  | ok u =>
    rw [hv] at h
    cases h

/-! ## `renew_lease` and `reap_expired_leases` -/

/-- What `renew_lease` makes of a row. -/
def RenewArgs.rewrite (a : RenewArgs) (r : Job) : Job :=
  if r.jobId == a.jobId && a.accepts r then a.apply r else r

theorem get_renewLease (q : JobQueue) (a : RenewArgs) (k : String) :
    (q.renewLease a).2.get k = (q.get k).map a.rewrite := by
  have hrefused : (∀ c, q.get a.jobId = some c → a.accepts c = false) →
      (q.get k).map a.rewrite = q.get k := fun h => map_guarded_of_refused h k
  unfold renewLease
  cases hc : q.get a.jobId with
  | none => exact (hrefused (by simp [hc])).symm
  | some c =>
    by_cases hacc : a.accepts c = true
    · simp only [hacc, if_true, get_updateJob]
      exact (map_guarded_of_accepted hc hacc k).symm
    · simp only [hacc]
      refine (hrefused fun c' hc' => ?_).symm
      rw [hc] at hc'
      cases hc'
      exact Bool.not_eq_true _ ▸ hacc

theorem get_reapExpiredLeases (q : JobQueue) (now : Time) (k : String) :
    (q.reapExpiredLeases now).2.get k = (q.get k).map (reapRewrite now) := get_mapJobs _ _ _ _

theorem reapable_state {now : Time} {r : Job} (h : reapable now r = true) :
    r.state = .assigned ∨ r.state = .inProgress ∨ r.state = .researching
      ∨ r.state = .readyForObsidian := by
  simp only [reapable, leaseExpired, Bool.and_eq_true] at h
  have hs := h.1.1
  cases hst : r.state <;> simp_all

/-! ## `requeue_retryable` -/

/-- The call `requeue_retryable` decides on, with the reason for it. -/
theorem requeueRead_ok {q : JobQueue} {jobId : String} {backoff : ℚ} {now : Time}
    {c : TransitionArgs} (h : q.requeueRead jobId backoff now = .ok c) :
    c.jobId = jobId ∧ c.clearLease = true ∧ c.result = none
      ∧ ∃ r, q.get jobId = some r ∧ r.state = .failedRetryable
        ∧ ((c.target = .failedTerminal ∧ c.bumpAttempt = false ∧ r.maxAttempts ≤ r.attempt + 1)
          ∨ (c.target = .queued ∧ c.bumpAttempt = true ∧ r.attempt + 1 < r.maxAttempts)) := by
  unfold requeueRead at h
  cases hr : q.get jobId with
  | none => rw [hr] at h; cases h
  | some r =>
    rw [hr] at h
    simp only at h
    by_cases hst : r.state = .failedRetryable
    · rw [if_neg (not_not.mpr hst)] at h
      by_cases hlim : r.attempt + 1 ≥ r.maxAttempts
      · rw [if_pos hlim] at h
        cases h
        exact ⟨rfl, rfl, rfl, r, rfl, hst, .inl ⟨rfl, rfl, hlim⟩⟩
      · rw [if_neg hlim] at h
        cases h
        exact ⟨rfl, rfl, rfl, r, rfl, hst, .inr ⟨rfl, rfl, by omega⟩⟩
    · rw [if_pos hst] at h; cases h

end JobQueue

end ForgeKit
