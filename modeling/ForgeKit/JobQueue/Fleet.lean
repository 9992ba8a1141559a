import ForgeKit.JobQueue.StoreSpec
import Mathlib.Data.List.Infix
import ForgeKit.Lib.Machine

/-!
# The queue and the workers that share it

The five workers share one shape: `transition` to `in_progress`, the body, and one last
`transition`. The body is a callback, so its end is an input; `Outcome` lists the ends that
each worker tells apart, and `Outcome.call` is the last call as the worker makes it.
`CodingExecutorWorker` differs from the other four in two ways: it never clears the lease, and
it is the only one that fails terminally.

A `Fleet` is the queue, one ticket for each job a `pick` returned, and the `transition` calls
that `requeue_retryable` has decided on but not made yet. An action is one transaction of the
source, so a list of actions is an interleaving of any number of workers, reapers and
requeuers. A call that raises leaves the queue as it is.

Everything later is read off a few lemmas about one step:

* `get_step` — a step adds at most one row and rewrites the others by `rewrite`
* `rowChange` — the five things `rewrite` can do to a row, with the checks that passed
* `picked_step`, `mem_requeues_step` — what a step adds to the tickets and to the pending calls
* `Inv.run` — the states that rows with a ticket or a pending call can be in
-/

namespace ForgeKit

/-- The workers that run a `process_job`. -/
inductive WorkerKind where
  | roleTake
  | research
  | approval
  | obsidianWriter
  | codingExecutor
deriving DecidableEq, Repr

/-- How the body of a `process_job` ended, with what the worker writes about it. -/
inductive Outcome where
  /-- `RoleTakeWorker`; the flag is `bool(result)` of the runner. -/
  | roleTakeSaved (producedOutcome : Bool)
  | roleTakeFailed (error : String)
  | researchSaved
  | researchFailed (error : String)
  /-- `ApprovalWorker`; `posted` is what the post function returned. -/
  | approvalSaved (channelId : Int) (posted : Dict Json)
  | approvalFailed (error : String)
  /-- `ObsidianWriterWorker`; `summary` is `_summarize_write_result`. -/
  | obsidianSaved (summary : Dict Json)
  | obsidianFailed (error : String) (detail : Option String)
  /-- `CodingExecutorWorker._success`. -/
  | codingSuccess (branch : String) (commitSha : Option String) (prNumber : Option Int)
      (prUrl : Option String) (auditReason : Option String)
  /-- `CodingExecutorWorker._fail`. -/
  | codingFail (terminal : Bool) (reason : String) (branch commitSha : Option String)

namespace Outcome

/-- The worker whose `process_job` ends this way. -/
def kind : Outcome → WorkerKind
  | roleTakeSaved _ | roleTakeFailed _ => .roleTake
  | researchSaved | researchFailed _ => .research
  | approvalSaved _ _ | approvalFailed _ => .approval
  | obsidianSaved _ | obsidianFailed _ _ => .obsidianWriter
  | codingSuccess .. | codingFail .. => .codingExecutor

/-- The state the row is sent to. -/
def target : Outcome → JobState
  | roleTakeSaved _ | researchSaved | approvalSaved _ _ | obsidianSaved _ | codingSuccess .. =>
    .saved
  | roleTakeFailed _ | researchFailed _ | approvalFailed _ | obsidianFailed _ _ => .failedRetryable
  | codingFail terminal _ _ _ => if terminal then .failedTerminal else .failedRetryable

/-- The worker passes `clear_lease=True`. -/
def clearLease (o : Outcome) : Bool := o.kind != .codingExecutor

/-- `str` or `None`. -/
def optStr (s : Option String) : Json := (s.map Json.str).getD .null

/-- The keys that the approval worker copies from the post result when they are not `None`. -/
def postedKeys : List String := ["posted_message_id", "thread_id", "url"]

/-- The `result=` argument. -/
def result : Outcome → Dict Json
  | roleTakeSaved produced => [("completed", .bool true), ("produced_outcome", .bool produced)]
  | roleTakeFailed error => [("error", .str error)]
  | researchSaved => [("completed", .bool true)]
  | researchFailed error => [("error", .str error)]
  | approvalSaved channelId posted =>
    postedKeys.foldl
      (fun acc key => match posted.getJson key with
        | .null => acc
        | value => Dict.set acc key value)
      [("completed", .bool true), ("channel_id", .int channelId)]
  | approvalFailed error => [("error", .str error)]
  | obsidianSaved summary => summary
  | obsidianFailed error none => [("error", .str error)]
  | obsidianFailed error (some detail) => [("error", .str error), ("detail", .str detail)]
  | codingSuccess branch commitSha prNumber prUrl auditReason =>
    [("branch", .str branch), ("commit_sha", optStr commitSha),
     ("pr_number", (prNumber.map Json.int).getD .null), ("pr_url", optStr prUrl),
     ("audit_reason", optStr auditReason)]
  | codingFail _ reason branch commitSha =>
    [("reason", .str reason), ("branch", optStr branch), ("commit_sha", optStr commitSha)]

/-- The last `transition` call of the `process_job`. -/
def call (o : Outcome) (jobId : String) (now : Time) : JobQueue.TransitionArgs where
  jobId := jobId
  target := o.target
  result := some o.result
  clearLease := o.clearLease
  now := now

/-! ## What every outcome has in common -/

theorem target_cases (o : Outcome) :
    o.target = .saved ∨ o.target = .failedRetryable ∨ o.target = .failedTerminal := by
  cases o with
  | codingFail terminal reason branch commitSha => cases terminal <;> simp [target]
  | _ => simp [target]

end Outcome

end ForgeKit

namespace ForgeKit

/-- How far a worker got with the job it picked. -/
inductive Phase where
  | assigned
  | inProgress
  | done
deriving DecidableEq, Repr

/--
What happened to the lease that a ticket stands for. This is history, no code reads it:
`fenced` means that the lease was reaped and another worker has picked the job since.
-/
inductive LeaseStatus where
  | held
  | reaped
  | fenced
deriving DecidableEq, Repr

/-- One job returned by `pick`, in the hands of the worker that runs `process_job` on it. -/
structure Ticket where
  jobId : String
  workerId : String
  kind : WorkerKind
  phase : Phase := .assigned
  status : LeaseStatus := .held
deriving DecidableEq, Repr

namespace Ticket

/-- The first `transition` of `process_job` returned (`ok`) or raised. -/
def started (ok : Bool) (t : Ticket) : Ticket :=
  { t with phase := if ok then .inProgress else .done }

/-- The last `transition` of `process_job` is over. -/
def finished (t : Ticket) : Ticket := { t with phase := .done }

/-- A worker picks the job anew. -/
def fence (jobId workerId : String) (t : Ticket) : Ticket :=
  if t.jobId = jobId ∧ t.status = .reaped ∧ t.workerId ≠ workerId then { t with status := .fenced }
  else t

/-- The reaper took these jobs back; the last ticket on a job is the one that holds its lease. -/
def markReaped (moved : List String) : List Ticket → List Ticket
  | [] => []
  | t :: ts =>
    (if t.jobId ∈ moved ∧ t.status = .held ∧ ∀ u ∈ ts, u.jobId ≠ t.jobId then
        { t with status := .reaped }
      else t) :: markReaped moved ts

@[simp] theorem started_jobId (ok : Bool) (t : Ticket) : (t.started ok).jobId = t.jobId := rfl

@[simp] theorem finished_jobId (t : Ticket) : t.finished.jobId = t.jobId := rfl

@[simp] theorem fence_jobId (jobId workerId : String) (t : Ticket) :
    (t.fence jobId workerId).jobId = t.jobId := by
  unfold fence
  split <;> rfl

@[simp] theorem map_jobId_markReaped (moved : List String) (ts : List Ticket) :
    (markReaped moved ts).map jobId = ts.map jobId := by
  induction ts with
  | nil => rfl
  | cons t ts ih =>
    simp only [markReaped, List.map_cons, ih]
    split <;> rfl

end Ticket

/-- The shared state: the queue, the workers' tickets, and the pending requeue calls. -/
structure Fleet where
  queue : JobQueue
  tickets : List Ticket
  requeues : List JobQueue.TransitionArgs

/-- One transaction, by whoever issues it. `i` is the position of a ticket or a pending call. -/
inductive FleetAction where
  | enqueue (a : JobQueue.EnqueueArgs)
  | pick (kind : WorkerKind) (a : JobQueue.PickArgs)
  /-- The first `transition` of `process_job`. -/
  | start (i : Nat) (now : Time)
  /-- The last `transition` of `process_job`. -/
  | finish (i : Nat) (o : Outcome) (now : Time)
  | renewLease (a : JobQueue.RenewArgs)
  | reapExpiredLeases (now : Time)
  | requeueRead (jobId : String) (backoffSeconds : ℚ) (now : Time)
  | requeueWrite (i : Nat)

namespace Fleet

open JobQueue

/-- An empty queue that nobody has used yet. -/
def empty : Fleet := ⟨JobQueue.empty, [], []⟩

/-- The `transition` call an action makes, if it makes one. -/
def call? (s : Fleet) : FleetAction → Option TransitionArgs
  | .start i now => (s.tickets[i]?).bind fun t =>
    if t.phase = .assigned then some { jobId := t.jobId, target := .inProgress, now } else none
  | .finish i o now => (s.tickets[i]?).bind fun t =>
    if t.phase = .inProgress ∧ o.kind = t.kind then some (o.call t.jobId now) else none
  | .requeueWrite i => s.requeues[i]?
  | _ => none

/-- The queue after the action's `transition` call. -/
def queueAfterCall (s : Fleet) (a : FleetAction) : JobQueue :=
  match s.call? a with
  | none => s.queue
  | some c => s.queue.commit (s.queue.transition c)

/-- The call is made and the table allows it. -/
def callSucceeds (s : Fleet) (a : FleetAction) : Bool :=
  (s.call? a).any fun c => (s.queue.transition c).isOk

/-- One transaction. -/
def step (s : Fleet) : FleetAction → Fleet
  | .enqueue a => { s with queue := s.queue.commit (s.queue.enqueue a) }
  | .pick kind a =>
    match s.queue.pick a with
    | .ok (some r, q') =>
      { s with
        queue := q'
        tickets := s.tickets.map (Ticket.fence r.jobId a.workerId)
          ++ [{ jobId := r.jobId, workerId := a.workerId, kind }] }
    | _ => s
  | .start i now =>
    if (s.call? (.start i now)).isSome then
      { s with
        queue := s.queueAfterCall (.start i now)
        tickets := s.tickets.modify i (Ticket.started (s.callSucceeds (.start i now))) }
    else s
  | .finish i o now =>
    if (s.call? (.finish i o now)).isSome then
      { s with
        queue := s.queueAfterCall (.finish i o now)
        tickets := s.tickets.modify i Ticket.finished }
    else s
  | .renewLease a => { s with queue := (s.queue.renewLease a).2 }
  | .reapExpiredLeases now =>
    { s with
      queue := (s.queue.reapExpiredLeases now).2
      tickets := Ticket.markReaped ((s.queue.reapExpiredLeases now).1.map Job.jobId) s.tickets }
  | .requeueRead jobId backoffSeconds now =>
    match s.queue.requeueRead jobId backoffSeconds now with
    | .ok c => { s with requeues := s.requeues ++ [c] }
    | .error _ => s
  | .requeueWrite i =>
    { s with
      queue := s.queueAfterCall (.requeueWrite i)
      requeues := s.requeues.eraseIdx i }

/-! ## What a step does to the rows -/

/-- What the action's `transition` call makes of a row. -/
def callRewrite (s : Fleet) (a : FleetAction) (r : Job) : Job :=
  match s.call? a with
  | none => r
  | some c => c.rewrite r

/-- What an action makes of a row that is already there. -/
def rewrite (s : Fleet) (a : FleetAction) (r : Job) : Job :=
  match a with
  | .pick _ args => if s.queue.picks args r then assign args r else r
  | .renewLease args => args.rewrite r
  | .reapExpiredLeases now => reapRewrite now r
  | a => s.callRewrite a r

theorem get_queueAfterCall (s : Fleet) (a : FleetAction) (k : String) :
    (s.queueAfterCall a).get k = (s.queue.get k).map (s.callRewrite a) := by
  unfold queueAfterCall callRewrite
  cases hc : s.call? a with
  | none => simp
  | some c => exact get_commit_transition _ _ _

theorem queueAfterCall_of_none {s : Fleet} {a : FleetAction} (h : ¬(s.call? a).isSome = true) :
    s.queueAfterCall a = s.queue := by
  unfold queueAfterCall
  cases hc : s.call? a with
  | none => rfl
  | some c => exact absurd (by simp [hc]) h

/-- A step other than `enqueue` rewrites the rows in place. -/
theorem get_step_of_ne_enqueue (s : Fleet) {a : FleetAction} (ha : ∀ args, a ≠ .enqueue args)
    (k : String) : (s.step a).queue.get k = (s.queue.get k).map (s.rewrite a) := by
  cases a with
  | enqueue args => exact absurd rfl (ha args)
  | pick kind args =>
    refine Eq.trans ?_ (get_commit_pick s.queue args k)
    simp only [step]
    cases hp : s.queue.pick args with
    | error e => simp
    | ok p =>
      obtain ⟨r, q'⟩ := p
      cases r with
      | some r => simp
      | none => simp [pick_ok_none hp]
  | start i now =>
    refine Eq.trans ?_ (get_queueAfterCall s (.start i now) k)
    simp only [step]
    split
    · rfl
    · next h => rw [queueAfterCall_of_none h]
  | finish i o now =>
    refine Eq.trans ?_ (get_queueAfterCall s (.finish i o now) k)
    simp only [step]
    split
    · rfl
    · next h => rw [queueAfterCall_of_none h]
  | renewLease args => exact get_renewLease _ _ _
  | reapExpiredLeases now => exact get_reapExpiredLeases _ _ _
  | requeueRead jobId backoff now =>
    have hid : s.rewrite (.requeueRead jobId backoff now) = id := rfl
    simp only [step]
    cases he : s.queue.requeueRead jobId backoff now <;> simp [hid]
  | requeueWrite i => exact get_queueAfterCall s (.requeueWrite i) k

theorem get_step_enqueue (s : Fleet) (args : EnqueueArgs) (k : String) :
    (s.step (.enqueue args)).queue.get k = s.queue.get k
      ∨ s.queue.get k = none ∧ k = args.jobId
        ∧ s.queue.enqueue args = .ok (args.job, (s.step (.enqueue args)).queue) := by
  simp only [step]
  cases he : s.queue.enqueue args with
  | error e => exact .inl rfl
  | ok p =>
    obtain ⟨r, q'⟩ := p
    obtain ⟨rfl, -, -, -, hfree, hget, -⟩ := enqueue_ok he
    by_cases hk : args.jobId = k
    · subst hk
      exact .inr ⟨hfree, rfl, rfl⟩
    · exact .inl (by rw [commit_ok, hget, if_neg hk])

/-- **What a step does to one row.** A row that is there is rewritten; a new row is fresh. -/
theorem get_step (s : Fleet) (a : FleetAction) {k : String} {r' : Job}
    (h : (s.step a).queue.get k = some r') :
    (∃ r, s.queue.get k = some r ∧ r' = s.rewrite a r)
      ∨ ∃ args, a = .enqueue args ∧ k = args.jobId ∧ s.queue.get k = none ∧ r' = args.job
        ∧ s.queue.enqueue args = .ok (args.job, (s.step a).queue) := by
  by_cases ha : ∃ args, a = .enqueue args
  -- a refused `enqueue` writes nothing, an accepted one writes under a free key
  · obtain ⟨args, rfl⟩ := ha
    rcases get_step_enqueue s args k with he | ⟨hnone, hk, hok⟩
    · exact .inl ⟨r', by rw [← he, h], rfl⟩
    · obtain ⟨-, -, -, -, -, hget, -⟩ := enqueue_ok hok
      rw [hget, if_pos hk.symm] at h
      exact .inr ⟨args, rfl, hk, hnone, (Option.some.inj h).symm, hok⟩
  · rw [get_step_of_ne_enqueue s (fun args he => ha ⟨args, he⟩)] at h
    obtain ⟨r, hr, rfl⟩ := Option.map_eq_some_iff.mp h
    exact .inl ⟨r, hr, rfl⟩

/-- Rows are never deleted. -/
theorem get_step_of_some (s : Fleet) (a : FleetAction) {k : String} {r : Job}
    (h : s.queue.get k = some r) : (s.step a).queue.get k = some (s.rewrite a r) := by
  by_cases ha : ∃ args, a = .enqueue args
  · obtain ⟨args, rfl⟩ := ha
    rcases get_step_enqueue s args k with he | ⟨hnone, -⟩
    · rw [he, h]; rfl
    · rw [hnone] at h; cases h
  · rw [get_step_of_ne_enqueue s (fun args he => ha ⟨args, he⟩), h]; rfl

/-- One row before and after a step, with the check that let the change through. -/
inductive RowChange (s : Fleet) (a : FleetAction) (r : Job) : Job → Prop where
  | same : RowChange s a r r
  | assigned {kind : WorkerKind} {args : PickArgs} (ha : a = .pick kind args)
      (hp : s.queue.picks args r = true) : RowChange s a r (assign args r)
  | moved {c : TransitionArgs} (hc : s.call? a = some c) (hm : c.moves r = true) :
      RowChange s a r (c.apply r)
  | renewed {args : RenewArgs} (ha : a = .renewLease args) (hacc : args.accepts r = true) :
      RowChange s a r (args.apply r)
  | reaped {now : Time} (ha : a = .reapExpiredLeases now) (hr : reapable now r = true) :
      RowChange s a r (reap now r)

theorem rowChange_callRewrite (s : Fleet) (a : FleetAction) (r : Job) :
    RowChange s a r (s.callRewrite a r) := by
  unfold callRewrite
  cases hc : s.call? a with
  | none => exact .same
  | some c =>
    simp only [TransitionArgs.rewrite]
    split
    · next hm => exact .moved hc hm
    · exact .same

theorem rowChange (s : Fleet) (a : FleetAction) (r : Job) : RowChange s a r (s.rewrite a r) := by
  cases a with
  | pick kind args =>
    simp only [rewrite]
    split
    · next hp => exact .assigned rfl hp
    · exact .same
  | renewLease args =>
    simp only [rewrite, RenewArgs.rewrite]
    split
    · next h => exact .renewed rfl (Bool.and_eq_true_iff.mp h).2
    · exact .same
  | reapExpiredLeases now =>
    simp only [rewrite, reapRewrite]
    split
    · next hr => exact .reaped rfl hr
    · exact .same
  | enqueue args => exact rowChange_callRewrite _ _ _
  | start i now => exact rowChange_callRewrite _ _ _
  | finish i o now => exact rowChange_callRewrite _ _ _
  | requeueRead jobId backoff now => exact rowChange_callRewrite _ _ _
  | requeueWrite i => exact rowChange_callRewrite _ _ _

/-! ## What a step does to the tickets and the pending calls -/

/-- The jobs that `pick` returned so far, one entry for each time. -/
def picked (s : Fleet) : List String := s.tickets.map Ticket.jobId

/-- The row that an action's `pick` is about to claim. -/
def claims? (s : Fleet) : FleetAction → Option Job
  | .pick _ args => if args.workerId = "" then none else s.queue.candidate args
  | _ => none

theorem picked_step (s : Fleet) (a : FleetAction) :
    (s.step a).picked = s.picked ++ ((s.claims? a).map Job.jobId).toList := by
  have hmodify : ∀ (ts : List Ticket) (i : Nat) (f : Ticket → Ticket),
      (∀ t, (f t).jobId = t.jobId) → (ts.modify i f).map Ticket.jobId = ts.map Ticket.jobId := by
    intro ts i f hf
    refine List.ext_getElem? fun j => ?_
    simp only [List.getElem?_map, List.getElem?_modify]
    cases ts[j]? with
    | none => rfl
    | some t => by_cases hij : i = j <;> simp [hij, hf]
  cases a with
  | pick kind args =>
    by_cases hw : args.workerId = ""
    · have herr : s.queue.pick args = .error (.jobQueueError "worker_id is required") := by
        unfold pick; rw [if_pos hw]
      simp [step, herr, claims?, hw, picked]
    · simp only [step, pick_eq _ _ hw, claims?, if_neg hw]
      cases hc : s.queue.candidate args with
      | none => simp
      | some c =>
        simp only [picked, List.map_append, List.map_map, List.map_cons, List.map_nil, assign_jobId,
          Option.map_some, Option.toList_some]
        congr 1
        exact List.map_congr_left fun t _ => Ticket.fence_jobId _ _ t
  | start i now =>
    simp only [step, claims?]
    split
    · simp [picked, hmodify _ _ _ (Ticket.started_jobId _)]
    · simp
  | finish i o now =>
    simp only [step, claims?]
    split
    · simp [picked, hmodify _ _ _ Ticket.finished_jobId]
    · simp
  | reapExpiredLeases now => simp [step, picked, claims?]
  | requeueRead jobId backoff now =>
    simp only [step, claims?]
    split <;> simp [picked]
  | enqueue args => simp [step, picked, claims?]
  | renewLease args => simp [step, picked, claims?]
  | requeueWrite i => simp [step, picked, claims?]

theorem claims?_spec {s : Fleet} {a : FleetAction} {r : Job} (h : s.claims? a = some r) :
    s.queue.get r.jobId = some r ∧ r.state = .queued
      ∧ ∃ kind args, a = .pick kind args ∧ s.rewrite a r = assign args r := by
  cases a with
  | pick kind args =>
    simp only [claims?] at h
    by_cases hw : args.workerId = ""
    · rw [if_pos hw] at h; cases h
    · rw [if_neg hw] at h
      obtain ⟨hget, hst, -⟩ := candidate_spec h
      have hpk : s.queue.picks args r = true := by simp [picks, hw, h]
      exact ⟨hget, hst, kind, args, rfl, by simp only [rewrite, if_pos hpk]⟩
  | _ => cases h

theorem mem_requeues_step {s : Fleet} {a : FleetAction} {c : TransitionArgs}
    (h : c ∈ (s.step a).requeues) :
    c ∈ s.requeues ∨ ∃ jobId backoff now, s.queue.requeueRead jobId backoff now = .ok c := by
  cases a with
  | requeueRead jobId backoff now =>
    simp only [step] at h
    cases hr : s.queue.requeueRead jobId backoff now with
    | error e => rw [hr] at h; exact .inl h
    | ok c' =>
      rw [hr] at h
      rcases List.mem_append.mp h with h | h
      · exact .inl h
      · rw [List.mem_singleton.mp h]
        exact .inr ⟨jobId, backoff, now, hr⟩
  | requeueWrite i => exact .inl (List.mem_of_mem_eraseIdx h)
  | pick kind args =>
    simp only [step] at h
    split at h <;> exact .inl h
  | start i now =>
    simp only [step] at h
    split at h <;> exact .inl h
  | finish i o now =>
    simp only [step] at h
    split at h <;> exact .inl h
  | _ => exact .inl h

/-- A call is either made by a worker on a job it picked, or it is a pending requeue. -/
theorem call?_cases {s : Fleet} {a : FleetAction} {c : TransitionArgs} (h : s.call? a = some c) :
    (c.jobId ∈ s.picked ∧ c.bumpAttempt = false
        ∧ (c.target = .inProgress ∧ c.clearLease = false ∨ c.target = .saved
          ∨ c.target = .failedRetryable ∨ c.target = .failedTerminal))
      ∨ ∃ i, a = .requeueWrite i ∧ s.requeues[i]? = some c := by
  have hpicked : ∀ {i : Nat} {t : Ticket}, s.tickets[i]? = some t → t.jobId ∈ s.picked :=
    fun ht => List.mem_map_of_mem (List.mem_of_getElem? ht)
  cases a with
  | start i now =>
    obtain ⟨t, ht, hc⟩ := Option.bind_eq_some_iff.mp h
    split at hc
    · cases hc
      exact .inl ⟨hpicked ht, rfl, .inl ⟨rfl, rfl⟩⟩
    · cases hc
  | finish i o now =>
    obtain ⟨t, ht, hc⟩ := Option.bind_eq_some_iff.mp h
    split at hc
    · cases hc
      exact .inl ⟨hpicked ht, rfl, .inr o.target_cases⟩
    · cases hc
  | requeueWrite i => exact .inr ⟨i, rfl, h⟩
  | _ => cases h

/-! ## The invariant of the rows in use -/

/-- The states a row can be in when only the workers and the maintenance methods write it. -/
def workerStates : List JobState :=
  [.queued, .assigned, .inProgress, .waitingForRole, .saved, .failedRetryable, .failedTerminal]

/-- A row that was once picked or requeued: it is there, and it does not wait for parents. -/
def Woken (q : JobQueue) (jobId : String) : Prop :=
  ∃ r, q.get jobId = some r ∧ r.state ≠ .waitingForRole

/-- The two calls `requeue_retryable` can decide on. -/
def RequeueCall (c : TransitionArgs) : Prop :=
  c.clearLease = true
    ∧ (c.target = .failedTerminal ∧ c.bumpAttempt = false
      ∨ c.target = .queued ∧ c.bumpAttempt = true)

/-- What holds of the rows, the tickets and the pending calls in every reachable state. -/
structure Inv (s : Fleet) : Prop where
  states : ∀ k r, s.queue.get k = some r → r.state ∈ workerStates
  picked : ∀ k ∈ s.picked, Woken s.queue k
  requeues : ∀ c ∈ s.requeues, RequeueCall c ∧ Woken s.queue c.jobId

theorem Inv.empty : Inv empty where
  states := by intro k r h; cases h
  picked := by intro k h; cases h
  requeues := by intro c h; cases h

/-- Every call goes to one of these states, on a row that was picked or requeued. -/
theorem Inv.call?_spec {s : Fleet} (hinv : Inv s) {a : FleetAction} {c : TransitionArgs}
    (h : s.call? a = some c) :
    c.target ∈ [JobState.inProgress, .saved, .failedRetryable, .failedTerminal, .queued]
      ∧ Woken s.queue c.jobId := by
  rcases call?_cases h with ⟨hp, -, ht⟩ | ⟨i, -, hi⟩
  · refine ⟨?_, hinv.picked _ hp⟩
    rcases ht with ⟨ht, -⟩ | ht | ht | ht <;> simp [ht]
  · obtain ⟨⟨-, ht⟩, hw⟩ := hinv.requeues c (List.mem_of_getElem? hi)
    refine ⟨?_, hw⟩
    rcases ht with ⟨ht, -⟩ | ⟨ht, -⟩ <;> simp [ht]

/-- A row that waits for its parents is left alone, whatever the action. -/
theorem Inv.change_waiting {s : Fleet} (hinv : Inv s) {a : FleetAction} {k : String} {r r' : Job}
    (hr : s.queue.get k = some r) (hch : RowChange s a r r') (hst : r.state = .waitingForRole) :
    r'.state = .waitingForRole := by
  have hid := get_jobId hr
  cases hch with
  | same => exact hst
  | assigned ha hp => rw [picks_spec (hid ▸ hr) hp] at hst; cases hst
  | moved hc hm =>
    obtain ⟨r', hr', hw⟩ := (hinv.call?_spec hc).2
    have hrow : r.jobId = _ := (TransitionArgs.moves_iff.mp hm).1
    rw [← hrow, hid, hr] at hr'
    cases hr'
    exact absurd hst hw
  | renewed ha hacc => exact hst
  | reaped ha hre =>
    rcases reapable_state hre with h | h | h | h <;> rw [h] at hst <;> cases hst

/-- A row that does not wait never waits later. -/
theorem Inv.change_not_waiting {s : Fleet} (hinv : Inv s) {a : FleetAction} {r r' : Job}
    (hch : RowChange s a r r') (hst : r.state ≠ .waitingForRole) : r'.state ≠ .waitingForRole := by
  cases hch with
  | same => exact hst
  | assigned ha hp => simp [assign]
  | moved hc hm =>
    have ht := (hinv.call?_spec hc).1
    intro he
    rw [TransitionArgs.apply_state] at he
    simp [he] at ht
  | renewed ha hacc => exact hst
  | reaped ha hre => simp [reap]

theorem Inv.change_states {s : Fleet} (hinv : Inv s) {a : FleetAction} {r r' : Job}
    (hch : RowChange s a r r') (hst : r.state ∈ workerStates) : r'.state ∈ workerStates := by
  cases hch with
  | same => exact hst
  | assigned ha hp => simp [assign, workerStates]
  | moved hc hm =>
    have ht := (hinv.call?_spec hc).1
    rw [TransitionArgs.apply_state]
    simp only [List.mem_cons, List.not_mem_nil, or_false] at ht
    rcases ht with ht | ht | ht | ht | ht <;> rw [ht] <;> decide
  | renewed ha hacc => exact hst
  | reaped ha hre => simp [reap, workerStates]

theorem Inv.woken_step {s : Fleet} (hinv : Inv s) (a : FleetAction) {k : String}
    (h : Woken s.queue k) : Woken (s.step a).queue k := by
  obtain ⟨r, hr, hst⟩ := h
  exact ⟨_, get_step_of_some s a hr, hinv.change_not_waiting (rowChange s a r) hst⟩

/-- **One step keeps the invariant.** -/
theorem Inv.step {s : Fleet} (hinv : Inv s) (a : FleetAction) : Inv (s.step a) where
  states := by
    intro k r' h
    rcases get_step s a h with ⟨r, hr, rfl⟩ | ⟨args, -, -, -, rfl, -⟩
    · exact hinv.change_states (rowChange s a r) (hinv.states k r hr)
    · simp only [EnqueueArgs.job]
      split <;> decide
  picked := by
    intro k hk
    rw [picked_step] at hk
    rcases List.mem_append.mp hk with hk | hk
    · exact hinv.woken_step a (hinv.picked k hk)
    · simp only [Option.mem_toList, Option.map_eq_some_iff] at hk
      obtain ⟨r, hcl, rfl⟩ := hk
      obtain ⟨hget, hst, -⟩ := claims?_spec hcl
      exact hinv.woken_step a ⟨r, hget, by rw [hst]; decide⟩
  requeues := by
    intro c hc
    rcases mem_requeues_step hc with hc | ⟨jobId, backoff, now, hok⟩
    · obtain ⟨hcall, hw⟩ := hinv.requeues c hc
      exact ⟨hcall, hinv.woken_step a hw⟩
    · obtain ⟨hid, hclear, -, r, hr, hst, ht⟩ := requeueRead_ok hok
      refine ⟨⟨hclear, ?_⟩, hinv.woken_step a ⟨r, by rw [hid]; exact hr, by rw [hst]; decide⟩⟩
      rcases ht with ⟨ht, hb, -⟩ | ⟨ht, hb, -⟩
      · exact .inl ⟨ht, hb⟩
      · exact .inr ⟨ht, hb⟩

theorem Inv.run {s : Fleet} (hinv : Inv s) (as : List FleetAction) :
    Inv (Machine.run Fleet.step s as) :=
  Machine.run_of_step (A := fun _ => True) (fun _ a _ h => h.step a) hinv fun _ _ => trivial

end Fleet

end ForgeKit
