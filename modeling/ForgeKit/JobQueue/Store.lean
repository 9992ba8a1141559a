import Mathlib.Algebra.Order.Ring.Unbundled.Rat
import Mathlib.Data.List.Sort
import ForgeKit.JobQueue.StateMachine
import ForgeKit.Lib.Json
import ForgeKit.Lib.Table

/-!
# The persistent job queue (`job_queue/store.py`)

The two SQLite tables and the methods of `JobQueue`. A method is a function from the tables
and its arguments to the tables after its transaction; a method that raises returns the error
and no tables, since its transaction is rolled back.

`requeue_retryable` is the one method made of two transactions: it reads the row on one
connection (`requeueRead`) and calls `transition` on another. The two halves are separate
definitions so that other callers can run in between; `requeueRetryable` runs them back to back.

The clock and the fresh job id are arguments. Times are rationals: nothing here depends on the
rounding of a float.
-/

namespace ForgeKit

/-- Wall-clock seconds. -/
abbrev Time := ℚ

/-- What a method of the queue raises. -/
inductive QueueError where
  | jobQueueError (msg : String)
  /-- The `ValueError` of `validate_transition` or of a caller's own check. -/
  | valueError (msg : String)
  /-- `sqlite3.IntegrityError`: a taken job id or a parent that does not exist. -/
  | integrityError
  /-- A stored value has another type than the code expects. -/
  | attributeError
deriving DecidableEq, Repr

/-- One `job_queue` row. -/
structure Job where
  jobId : String
  sessionId : String
  jobType : String
  state : JobState
  payload : Dict Json
  result : Dict Json
  role : Option String
  priority : Int
  attempt : Int
  maxAttempts : Int
  availableAt : Time
  pickedBy : Option String
  pickedUntil : Option Time
  createdAt : Time
  updatedAt : Time

/-- The tables `job_queue` and `job_dependencies`, with the constraints the schema declares. -/
structure JobQueue where
  jobs : Table String Job Job.jobId
  /-- Pairs of `job_id` and `parent_id`. -/
  dependencies : List (String × String)
  /-- The two `FOREIGN KEY` clauses. -/
  foreignKeys : ∀ d ∈ dependencies, (jobs.find? d.1).isSome ∧ (jobs.find? d.2).isSome

namespace JobQueue

/-- A fresh database. -/
def empty : JobQueue := ⟨Table.empty, [], by simp⟩

/-- `get`. -/
def get (q : JobQueue) (jobId : String) : Option Job := q.jobs.find? jobId

/-- Updates every row in place. -/
def mapJobs (q : JobQueue) (f : Job → Job) (hf : ∀ r, (f r).jobId = r.jobId) : JobQueue where
  jobs := q.jobs.mapRows f hf
  dependencies := q.dependencies
  foreignKeys := by
    intro d hd
    simpa using q.foreignKeys d hd

/-- `UPDATE job_queue SET … WHERE job_id = ?`. -/
def updateJob (q : JobQueue) (jobId : String) (f : Job → Job) (hf : ∀ r, (f r).jobId = r.jobId) :
    JobQueue :=
  q.mapJobs (fun r => if r.jobId = jobId then f r else r) fun r => by split <;> simp [hf]

/-! ## `enqueue` -/

/-- The arguments of `enqueue`, with the id that `_new_job_id` returns. -/
structure EnqueueArgs where
  jobId : String
  sessionId : String
  jobType : String
  role : Option String := none
  payload : Dict Json := []
  priority : Int := 0
  maxAttempts : Int := 3
  availableAt : Option Time := none
  afterJobs : List String := []
  now : Time

/-- The row `enqueue` inserts. -/
def EnqueueArgs.job (a : EnqueueArgs) : Job where
  jobId := a.jobId
  sessionId := a.sessionId
  jobType := a.jobType
  state := if a.afterJobs.isEmpty then .queued else .waitingForRole
  payload := a.payload
  result := []
  role := a.role
  priority := a.priority
  attempt := 0
  maxAttempts := a.maxAttempts
  availableAt := a.availableAt.getD a.now
  pickedBy := none
  pickedUntil := none
  createdAt := a.now
  updatedAt := a.now

/-- The parents that get a dependency row; an empty id is skipped. -/
def EnqueueArgs.parents (a : EnqueueArgs) : List String := a.afterJobs.filter (· ≠ "")

/-- `INSERT OR IGNORE INTO job_dependencies`, once per parent. -/
def insertParents (jobId : String) (parents : List String) (deps : List (String × String)) :
    List (String × String) :=
  parents.foldl (fun ds p => ds.insert (jobId, p)) deps

theorem mem_insertParents {jobId : String} {parents : List String}
    {deps : List (String × String)} {d : String × String} :
    d ∈ insertParents jobId parents deps ↔ d ∈ deps ∨ ∃ p ∈ parents, d = (jobId, p) := by
  unfold insertParents
  induction parents generalizing deps with
  | nil => simp
  | cons p ps ih =>
    rw [List.foldl_cons, ih, List.mem_insert_iff]
    simp only [List.mem_cons, exists_eq_or_imp]
    tauto

theorem enqueue_foreignKeys {q : JobQueue} {a : EnqueueArgs}
    (h : q.jobs.find? a.job.jobId = none)
    (hp : ∀ p ∈ a.parents, ((q.jobs.insert a.job h).find? p).isSome) :
    ∀ d ∈ insertParents a.jobId a.parents q.dependencies,
      ((q.jobs.insert a.job h).find? d.1).isSome ∧ ((q.jobs.insert a.job h).find? d.2).isSome := by
  have hmono : ∀ k, (q.jobs.find? k).isSome → ((q.jobs.insert a.job h).find? k).isSome := by
    intro k hk
    rw [Table.find?_insert]
    split
    · rfl
    · exact hk
  intro d hd
  rcases mem_insertParents.mp hd with hd | ⟨p, hpm, rfl⟩
  · obtain ⟨h1, h2⟩ := q.foreignKeys d hd
    exact ⟨hmono _ h1, hmono _ h2⟩
  · refine ⟨?_, hp p hpm⟩
    have hself : a.job.jobId = a.jobId := rfl
    rw [Table.find?_insert, if_pos hself]
    rfl

/--
Inserts a new job: `queued`, or `waiting_for_role` when `after_jobs` is non-empty.

The row and its dependency rows are one transaction, so a parent that does not exist undoes
the row as well.
-/
def enqueue (q : JobQueue) (a : EnqueueArgs) : Except QueueError (Job × JobQueue) :=
  if a.sessionId = "" then .error (.jobQueueError "session_id is required")
  else if a.jobType = "" then .error (.jobQueueError "job_type is required")
  else if a.maxAttempts < 1 then .error (.jobQueueError "max_attempts must be >= 1")
  else if h : q.jobs.find? a.job.jobId = none then
    if hp : ∀ p ∈ a.parents, ((q.jobs.insert a.job h).find? p).isSome then
      .ok (a.job,
        { jobs := q.jobs.insert a.job h
          dependencies := insertParents a.jobId a.parents q.dependencies
          foreignKeys := enqueue_foreignKeys h hp })
    else .error .integrityError
  else .error .integrityError

/-! ## `pick` -/

/-- The arguments of `pick`. -/
structure PickArgs where
  workerId : String
  jobTypes : List String := []
  roles : List String := []
  leaseSeconds : ℚ := 60
  now : Time

/-- The two optional filters of `pick`. -/
def PickArgs.admits (a : PickArgs) (r : Job) : Bool :=
  (a.jobTypes.isEmpty || a.jobTypes.contains r.jobType)
    && (a.roles.isEmpty || r.role.any fun role => a.roles.contains role)

/-- Some parent of the job is not saved: the subquery under `NOT EXISTS`. -/
def blocked (q : JobQueue) (jobId : String) : Bool :=
  q.dependencies.any fun d =>
    d.1 == jobId && (q.jobs.find? d.2).any fun parent => parent.state != .saved

/-- The `WHERE` clause of `pick`. -/
def eligible (q : JobQueue) (a : PickArgs) (r : Job) : Bool :=
  r.state == .queued && decide (r.availableAt ≤ a.now) && a.admits r && !q.blocked r.jobId

/-- `ORDER BY priority DESC, available_at ASC, created_at ASC`: `r` comes before `r'`. -/
def ordersBefore (r r' : Job) : Bool :=
  decide (r'.priority < r.priority)
    || (r.priority == r'.priority
      && (decide (r.availableAt < r'.availableAt)
        || (r.availableAt == r'.availableAt && decide (r.createdAt < r'.createdAt))))

/-- The first row in that order, the one inserted first when several are. -/
def firstRow : List Job → Option Job
  | [] => none
  | r :: rs =>
    match firstRow rs with
    | none => some r
    | some best => if ordersBefore best r then some best else some r

/-- The row that `pick` claims. -/
def candidate (q : JobQueue) (a : PickArgs) : Option Job :=
  firstRow (q.jobs.rows.filter (q.eligible a))

/-- The row after `pick` claimed it. -/
def assign (a : PickArgs) (r : Job) : Job :=
  { r with
    state := .assigned
    pickedBy := some a.workerId
    pickedUntil := some (a.now + max 1 a.leaseSeconds)
    updatedAt := a.now }

@[simp] theorem assign_jobId (a : PickArgs) (r : Job) : (assign a r).jobId = r.jobId := rfl

/-- Atomically claims the next eligible job for a worker. -/
def pick (q : JobQueue) (a : PickArgs) : Except QueueError (Option Job × JobQueue) :=
  if a.workerId = "" then .error (.jobQueueError "worker_id is required")
  else match q.candidate a with
    | none => .ok (none, q)
    | some job =>
      match JobState.validateTransition job.state .assigned with
      | .error msg => .error (.valueError msg)
      | .ok () => .ok (some (assign a job), q.updateJob job.jobId (assign a) (assign_jobId a))

/-! ## `transition` and `renew_lease` -/

/-- The arguments of `transition`. -/
structure TransitionArgs where
  jobId : String
  target : JobState
  result : Option (Dict Json) := none
  availableAt : Option Time := none
  clearLease : Bool := false
  bumpAttempt : Bool := false
  now : Time

/-- The row after a transition. -/
def TransitionArgs.apply (a : TransitionArgs) (r : Job) : Job :=
  { r with
    state := a.target
    result := match a.result with
      | none => r.result
      | some new => r.result.update new
    attempt := if a.bumpAttempt then r.attempt + 1 else r.attempt
    availableAt := a.availableAt.getD r.availableAt
    pickedBy := if a.clearLease then none else r.pickedBy
    pickedUntil := if a.clearLease then none else r.pickedUntil
    updatedAt := a.now }

@[simp] theorem TransitionArgs.apply_jobId (a : TransitionArgs) (r : Job) :
    (a.apply r).jobId = r.jobId := rfl

@[simp] theorem TransitionArgs.apply_state (a : TransitionArgs) (r : Job) :
    (a.apply r).state = a.target := rfl

/-- Moves a job to the target state when the table allows it. Nothing ties the call to a lease. -/
def transition (q : JobQueue) (a : TransitionArgs) : Except QueueError (Job × JobQueue) :=
  match q.get a.jobId with
  | none => .error (.jobQueueError ("unknown job_id: " ++ a.jobId))
  | some current =>
    match JobState.validateTransition current.state a.target with
    | .error msg => .error (.valueError msg)
    | .ok () => .ok (a.apply current, q.updateJob a.jobId a.apply a.apply_jobId)

/-- The states `renew_lease` counts as in flight. -/
def renewableStates : List JobState :=
  [.assigned, .inProgress, .researching, .readyForObsidian, .waitingForRole, .pendingApproval]

/-- The arguments of `renew_lease`. -/
structure RenewArgs where
  jobId : String
  leaseSeconds : ℚ := 60
  workerId : Option String := none
  now : Time

/-- The row after its lease was extended. -/
def RenewArgs.apply (a : RenewArgs) (r : Job) : Job :=
  { r with
    pickedUntil := some (a.now + max 1 a.leaseSeconds)
    updatedAt := a.now }

@[simp] theorem RenewArgs.apply_jobId (a : RenewArgs) (r : Job) :
    (a.apply r).jobId = r.jobId := rfl

/-- `renew_lease` extends this row. -/
def RenewArgs.accepts (a : RenewArgs) (r : Job) : Bool :=
  renewableStates.contains r.state && a.workerId.all fun w => r.pickedBy.getD "" == w

/-- Extends `picked_until` of an in-flight job; `none` when the caller should bail out. -/
def renewLease (q : JobQueue) (a : RenewArgs) : Option Job × JobQueue :=
  match q.get a.jobId with
  | none => (none, q)
  | some current =>
    if a.accepts current then (some (a.apply current), q.updateJob a.jobId a.apply a.apply_jobId)
    else (none, q)

/-! ## Read helpers -/

/-- `list_for_session`: the session's rows in creation order. -/
def listForSession (q : JobQueue) (sessionId : String) (states : List JobState := []) : List Job :=
  (q.jobs.rows.filter fun r =>
      r.sessionId == sessionId && (states.isEmpty || states.contains r.state)).insertionSort
    fun a b => a.createdAt ≤ b.createdAt

/-! ## Maintenance -/

/-- The rows `reap_expired_leases` selects. -/
def leaseExpired (now : Time) (r : Job) : Bool :=
  [JobState.assigned, .inProgress, .researching, .readyForObsidian].contains r.state
    && r.pickedUntil.any fun t => decide (t ≤ now)

/-- The selected rows that also pass `validate_transition`; the others are skipped. -/
def reapable (now : Time) (r : Job) : Bool :=
  leaseExpired now r && decide (JobState.Edge r.state .failedRetryable)

/-- A reaped row: retryable, without a lease, and with the reason in its result. -/
def reap (now : Time) (r : Job) : Job :=
  { r with
    state := .failedRetryable
    result := r.result.update
      [("error", .str "lease_expired"),
       ("reaped_at", .float now),
       ("previous_picked_by", (r.pickedBy.map Json.str).getD .null),
       ("previous_picked_until", (r.pickedUntil.map Json.float).getD .null),
       ("previous_state", .str r.state.value)]
    pickedBy := none
    pickedUntil := none
    updatedAt := now }

@[simp] theorem reap_jobId (now : Time) (r : Job) : (reap now r).jobId = r.jobId := rfl

/-- What `reap_expired_leases` makes of a row. -/
def reapRewrite (now : Time) (r : Job) : Job := if reapable now r then reap now r else r

@[simp] theorem reapRewrite_jobId (now : Time) (r : Job) :
    (reapRewrite now r).jobId = r.jobId := by
  unfold reapRewrite
  split <;> rfl

/-- Bounces every job with an expired lease to `failed_retryable`, in one transaction. -/
def reapExpiredLeases (q : JobQueue) (now : Time) : List Job × JobQueue :=
  ((q.jobs.rows.filter (reapable now)).map (reap now),
    q.mapJobs (reapRewrite now) (reapRewrite_jobId now))

/--
The first transaction of `requeue_retryable`: reads the row, checks it, and decides which
`transition` call follows. The attempt limit is checked here and only here.
-/
def requeueRead (q : JobQueue) (jobId : String) (backoffSeconds : ℚ) (now : Time) :
    Except QueueError TransitionArgs :=
  match q.get jobId with
  | none => .error (.jobQueueError ("unknown job_id: " ++ jobId))
  | some current =>
    if current.state ≠ .failedRetryable then
      .error (.jobQueueError
        ("requeue_retryable expects failed_retryable, got " ++ current.state.value))
    else if current.attempt + 1 ≥ current.maxAttempts then
      .ok { jobId, target := .failedTerminal, clearLease := true, now }
    else
      .ok { jobId, target := .queued, availableAt := some (now + max 0 backoffSeconds),
            clearLease := true, bumpAttempt := true, now }

/-- `requeue_retryable` with nothing between its two transactions. -/
def requeueRetryable (q : JobQueue) (jobId : String) (backoffSeconds : ℚ) (now : Time) :
    Except QueueError (Job × JobQueue) := do
  let call ← q.requeueRead jobId backoffSeconds now
  q.transition call

end JobQueue

end ForgeKit
