import ForgeKit.CodingExecute.CodingLoop

/-!
# One attempt in flight

Two producers enqueue coding jobs of one session: the dispatcher, which trusts its marker, and
the retry orchestrator, which drops the marker and goes past `find_active` with a bumped branch.
Both rely on `find_active` for the rest, and `find_active` compares branches.

`atMostOneActive_iff` says along every run exactly when one session and role have at most one
active row.
-/

namespace ForgeKit

open JobQueue

/-- The rows that a coding worker may be at work on. -/
def Job.isActiveCoding (r : Job) : Prop :=
  r.jobType = jobTypeCodingExecute
    ∧ (r.state = .queued ∨ r.state = .assigned ∨ r.state = .inProgress)

/-- Session and executor role. -/
def Job.attemptKey (r : Job) : String × String :=
  (r.sessionId, r.payload.strOr "executor_role" "")

namespace CodingLoop

/-- The request that a producer hands to `CodingExecutorWorker.enqueue`. -/
def request? (s : CodingLoop) : LoopAction → Option (CodingExecuteRequest × String × Time)
  | .dispatch i env jobId now _ => do
    let session ← s.sessions[i]?
    let ready ← Dispatcher.readyJob? session s.queue
    let request ← Dispatcher.buildCodingExecuteRequest ready env
    return (request, jobId, now)
  | .poll i a => do
    let session ← s.sessions[i]?
    let log ← readRetryLog session.extra a.prNumber
    if (decideRetry a.status log a.policy).shouldRetry then
      let request ← CiRetry.requeueRequest session (CiRetry.codingJobOf session) a.env
      return (request, a.jobId, a.now)
    else none
  | .fleet _ => none

/-- The row that a producer inserts: its request, unless `find_active` has an answer to it. -/
def inserts? (s : CodingLoop) (a : LoopAction) : Option JobQueue.EnqueueArgs :=
  (s.request? a).bind fun (request, jobId, now) =>
    CodingExecutorWorker.insert? s.queue { request } jobId now

/-- No session and role have two active rows. -/
def AtMostOneActive (s : CodingLoop) : Prop :=
  ∀ k₁ k₂ r₁ r₂, s.queue.get k₁ = some r₁ → s.queue.get k₂ = some r₂ → r₁.isActiveCoding →
    r₂.isActiveCoding → r₁.attemptKey = r₂.attemptKey → k₁ = k₂

/-- A producer that inserts a row finds no active row of its session and role, on any branch. -/
def InsertsAlone (s : CodingLoop) (a : LoopAction) : Prop :=
  ∀ args, s.inserts? a = some args → (s.queue.enqueue args).isOk = true →
    ∀ k r, s.queue.get k = some r → r.isActiveCoding → r.attemptKey ≠ args.job.attemptKey

/-- Other producers leave coding jobs to these two. -/
def Allowed (a : LoopAction) : Prop :=
  ∀ args, a = .fleet (.enqueue args) → args.jobType ≠ jobTypeCodingExecute

/-! ## What the producers do to the queue -/

theorem dispatchSession_queue (s : CodingLoop) {i : Nat} {env : Dispatcher.Env} {jobId : String}
    {now : Time} {dispatchedAt : String} {session : WorkflowSession}
    (hi : s.sessions[i]? = some session) :
    (Dispatcher.dispatchSession s.queue session env jobId now dispatchedAt).2.1
      = match s.request? (.dispatch i env jobId now dispatchedAt) with
        | none => s.queue
        | some (request, jobId, now) =>
          s.queue.commit (CodingExecutorWorker.enqueue s.queue { request } jobId now) := by
  simp only [request?, hi, Dispatcher.dispatchSession, Option.bind_eq_bind, Option.bind_some]
  cases Dispatcher.readyJob? session s.queue with
  | none => rfl
  | some ready =>
    simp only [Option.bind_some]
    cases Dispatcher.buildCodingExecuteRequest ready env with
    | none => rfl
    | some request =>
      simp only [Option.bind_some, Option.pure_def]
      cases CodingExecutorWorker.enqueue s.queue { request } jobId now with
      | error e => rfl
      | ok p => rfl

theorem requeueCodingExecute_queue (q : JobQueue) (session : WorkflowSession)
    (codingJob : Dict Json) (env : Dispatcher.Env) (jobId : String) (now : Time) :
    (CiRetry.requeueCodingExecute q session codingJob env jobId now).2
      = match CiRetry.requeueRequest session codingJob env with
        | none => q
        | some request => q.commit (CodingExecutorWorker.enqueue q { request } jobId now) := by
  unfold CiRetry.requeueCodingExecute
  cases CiRetry.requeueRequest session codingJob env with
  | none => rfl
  | some request =>
    simp only
    cases CodingExecutorWorker.enqueue q { request } jobId now <;> rfl

/-- A step changes the fleet as a worker does, as an `enqueue` of one row does, or not at all. -/
theorem fleet_step (s : CodingLoop) (a : LoopAction) :
    (∃ b, a = .fleet b ∧ (s.step a).fleet = s.fleet.step b)
      ∨ (∃ args, s.inserts? a = some args ∧ (s.step a).fleet = s.fleet.step (.enqueue args))
      ∨ s.inserts? a = none ∧ (s.step a).fleet = s.fleet := by
  -- both producers end in one call of `CodingExecutorWorker.enqueue`, or in none
  have hcall : ∀ q, (s.step a).fleet = { s.fleet with queue := q } →
      (q = match s.request? a with
        | none => s.queue
        | some (request, jobId, now) =>
          s.queue.commit (CodingExecutorWorker.enqueue s.queue { request } jobId now)) →
      (∃ args, s.inserts? a = some args ∧ (s.step a).fleet = s.fleet.step (.enqueue args))
        ∨ s.inserts? a = none ∧ (s.step a).fleet = s.fleet := by
    intro q hf hq
    cases hr : s.request? a with
    | none =>
      rw [hr] at hq
      refine .inr ⟨by simp [inserts?, hr], ?_⟩
      rw [hf, hq]; rfl
    | some p =>
      obtain ⟨request, jobId, now⟩ := p
      rw [hr] at hq
      simp only [CodingExecutorWorker.commit_enqueue] at hq
      have hins : s.inserts? a = CodingExecutorWorker.insert? s.queue { request } jobId now := by
        simp [inserts?, hr]
      rw [hins]
      cases hi : CodingExecutorWorker.insert? s.queue { request } jobId now with
      | none =>
        rw [hi] at hq
        exact .inr ⟨rfl, by rw [hf, hq]; rfl⟩
      | some args =>
        rw [hi] at hq
        exact .inl ⟨args, rfl, by rw [hf, hq]; rfl⟩
  cases a with
  | fleet b => exact .inl ⟨b, rfl, rfl⟩
  | dispatch i env jobId now dispatchedAt =>
    refine .inr ?_
    cases hi : s.sessions[i]? with
    | none => exact .inr ⟨by simp [inserts?, request?, hi], by simp [step, hi]⟩
    | some session =>
      exact hcall _ (by simp only [step, hi, store]) (dispatchSession_queue s hi)
  | poll i args =>
    refine .inr ?_
    cases hi : s.sessions[i]? with
    | none => exact .inr ⟨by simp [inserts?, request?, hi], by simp [step, hi]⟩
    | some session =>
      cases hlog : readRetryLog session.extra args.prNumber with
      | none =>
        refine .inr ⟨by simp [inserts?, request?, hi, hlog], ?_⟩
        simp [step, hi, CiRetry.orchestrateCiRetry, hlog]
      | some log =>
        refine hcall (if (decideRetry args.status log args.policy).shouldRetry then
          CiRetry.requeueCodingExecute s.queue session (CiRetry.codingJobOf session) args.env
            args.jobId args.now else (none, s.queue)).2 ?_ ?_
        · simp [step, hi, CiRetry.orchestrateCiRetry, hlog, recordRetryAttempt, store]
        · simp only [request?, hi, hlog, Option.bind_eq_bind, Option.bind_some]
          split
          · rw [requeueCodingExecute_queue]
            cases CiRetry.requeueRequest session (CiRetry.codingJobOf session) args.env <;> rfl
          · rfl

/-! ## Coding rows are tried once -/

/-- A coding row has one attempt, so `requeue_retryable` only ever closes it. -/
structure TriedOnce (f : Fleet) : Prop where
  rows : ∀ k r, f.queue.get k = some r → r.jobType = jobTypeCodingExecute →
    r.maxAttempts = 1 ∧ 0 ≤ r.attempt
  requeues : ∀ c ∈ f.requeues, ∀ r, f.queue.get c.jobId = some r →
    r.jobType = jobTypeCodingExecute → c.target = .failedTerminal

theorem triedOnce_empty : TriedOnce Fleet.empty where
  rows := by intro k r h; cases h
  requeues := by intro c h; cases h

theorem attempt_nonneg_change {f : Fleet} {b : FleetAction} {r r' : Job}
    (hch : Fleet.RowChange f b r r') (h : r.maxAttempts = 1 ∧ 0 ≤ r.attempt) :
    r'.maxAttempts = 1 ∧ 0 ≤ r'.attempt := by
  cases hch with
  | @moved c hc hm =>
    refine ⟨h.1, ?_⟩
    simp only [TransitionArgs.apply]
    split
    · omega
    · exact h.2
  | _ => exact h

theorem jobType_change {f : Fleet} {b : FleetAction} {r r' : Job}
    (hch : Fleet.RowChange f b r r') : r'.jobType = r.jobType ∧ r'.attemptKey = r.attemptKey := by
  cases hch <;> exact ⟨rfl, rfl⟩

theorem triedOnce_step {f : Fleet} (hinv : f.Inv) (h : TriedOnce f) {b : FleetAction}
    (hb : ∀ args, b = .enqueue args → args.jobType = jobTypeCodingExecute → args.maxAttempts = 1) :
    TriedOnce (f.step b) where
  rows := by
    intro k r' hr' hty
    rcases Fleet.get_step f b hr' with ⟨r, hr, rfl⟩ | ⟨args, he, -, -, rfl, -⟩
    · have hch := Fleet.rowChange f b r
      exact attempt_nonneg_change hch (h.rows k r hr (by rw [← (jobType_change hch).1, hty]))
    · exact ⟨hb args he hty, le_refl 0⟩
  requeues := by
    intro c hc r' hr' hty
    have hback : ∀ r, f.queue.get c.jobId = some r → r.jobType = jobTypeCodingExecute := by
      intro r hr
      rw [Fleet.get_step_of_some f b hr] at hr'
      cases hr'
      rw [← (jobType_change (Fleet.rowChange f b r)).1, hty]
    rcases Fleet.mem_requeues_step hc with hc | ⟨jobId, backoff, now, hok⟩
    · obtain ⟨-, r, hr, -⟩ := hinv.requeues c hc
      exact h.requeues c hc r hr (hback r hr)
    · obtain ⟨hid, -, -, r, hr, -, ht⟩ := requeueRead_ok hok
      have hrow : f.queue.get c.jobId = some r := by rw [hid]; exact hr
      obtain ⟨hmax, hatt⟩ := h.rows _ r hrow (hback r hrow)
      rcases ht with ⟨ht, -, -⟩ | ⟨-, -, hlt⟩
      · exact ht
      · omega

/-- A row that a worker's step leaves active was active before. -/
theorem active_before {f : Fleet} (hinv : f.Inv) (h : TriedOnce f) {b : FleetAction} {k : String}
    {r r' : Job} (hr : f.queue.get k = some r) (hch : Fleet.RowChange f b r r')
    (hact : r'.isActiveCoding) : r.isActiveCoding := by
  have hid := get_jobId hr
  have hty : r.jobType = jobTypeCodingExecute := by rw [← (jobType_change hch).1, hact.1]
  refine ⟨hty, ?_⟩
  cases hch with
  | same => exact hact.2
  | assigned ha hp => exact .inl (picks_spec (hid ▸ hr) hp)
  | @moved c hc hm =>
    obtain ⟨hjob, hedge⟩ := TransitionArgs.moves_iff.mp hm
    have hs := hinv.states k r hr
    have hst : c.target = .queued ∨ c.target = .assigned ∨ c.target = .inProgress := hact.2
    -- a worker's call that leaves the row active started from an active row; a requeue of a
    -- coding row closes it
    rcases Fleet.call?_cases hc with ⟨-, -, ht⟩ | ⟨i, -, hi⟩
    · rcases ht with ⟨ht, -⟩ | ht | ht | ht
      · rw [ht] at hedge
        cases hr' : r.state <;> rw [hr'] at hedge hs <;> revert hedge hs <;> decide
      all_goals simp [ht] at hst
    · have ht := h.requeues c (List.mem_of_getElem? hi) r (by rw [← hjob, hid]; exact hr) hty
      simp [ht] at hst
  | renewed ha hacc => exact hact.2
  | reaped ha hre => simp [Job.isActiveCoding, reap] at hact

/-! ## One step -/

/-- The invariant of the loop. -/
def Inv (s : CodingLoop) : Prop := s.fleet.Inv ∧ TriedOnce s.fleet

theorem maxAttempts_inserts? {s : CodingLoop} {a : LoopAction} {args : JobQueue.EnqueueArgs}
    (h : s.inserts? a = some args) :
    args.maxAttempts = 1 ∧ args.jobType = jobTypeCodingExecute ∧ args.afterJobs = [] := by
  obtain ⟨⟨request, jobId, now⟩, -, hins⟩ := Option.bind_eq_some_iff.mp h
  simp only [CodingExecutorWorker.insert?] at hins
  split at hins
  · cases hins; exact ⟨rfl, rfl, rfl⟩
  · cases hins

theorem inv_step {s : CodingLoop} (h : s.Inv) {a : LoopAction} (ha : Allowed a) :
    (s.step a).Inv := by
  unfold Inv
  rcases fleet_step s a with ⟨b, rfl, hf⟩ | ⟨args, hins, hf⟩ | ⟨-, hf⟩
  · rw [hf]
    refine ⟨h.1.step b, triedOnce_step h.1 h.2 fun args he hty => ?_⟩
    exact absurd hty (ha args (by rw [he]))
  · rw [hf]
    refine ⟨h.1.step _, triedOnce_step h.1 h.2 fun args' he _ => ?_⟩
    cases he
    exact (maxAttempts_inserts? hins).1
  · rw [hf]; exact h

/-- The rows of a step: an active row from before, or the inserted one. -/
theorem active_after_cases {s : CodingLoop} (h : s.Inv) {a : LoopAction} (ha : Allowed a)
    {k : String} {r' : Job} (hr' : (s.step a).queue.get k = some r') (hact : r'.isActiveCoding) :
    (∃ r, s.queue.get k = some r ∧ r.isActiveCoding ∧ r.attemptKey = r'.attemptKey)
      ∨ ∃ args, s.inserts? a = some args ∧ (s.queue.enqueue args).isOk = true ∧ k = args.jobId
        ∧ args.job.attemptKey = r'.attemptKey := by
  have hold : ∀ b r, s.queue.get k = some r → r' = s.fleet.rewrite b r →
      ∃ r, s.queue.get k = some r ∧ r.isActiveCoding ∧ r.attemptKey = r'.attemptKey := by
    rintro b r hr rfl
    have hch := Fleet.rowChange s.fleet b r
    exact ⟨r, hr, active_before h.1 h.2 hr hch hact, (jobType_change hch).2.symm⟩
  rw [queue] at hr'
  rcases fleet_step s a with ⟨b, rfl, hf⟩ | ⟨args, hins, hf⟩ | ⟨-, hf⟩
  · rw [hf] at hr'
    rcases Fleet.get_step s.fleet b hr' with ⟨r, hr, hrw⟩ | ⟨args, rfl, -, -, rfl, -⟩
    · exact .inl (hold b r hr hrw)
    · exact absurd hact.1 (ha args rfl)
  · rw [hf] at hr'
    rcases Fleet.get_step s.fleet _ hr' with ⟨r, hr, hrw⟩ | ⟨args', he, hk, -, rfl, hok⟩
    · exact .inl (hold _ r hr hrw)
    · cases he
      exact .inr ⟨args, hins, by rw [queue, hok]; rfl, hk, rfl⟩
  · rw [hf] at hr'
    exact .inl ⟨r', hr', hact, rfl⟩

theorem atMostOneActive_step {s : CodingLoop} (h : s.Inv) {a : LoopAction} (ha : Allowed a)
    (hone : AtMostOneActive s) (hg : InsertsAlone s a) : AtMostOneActive (s.step a) := by
  intro k₁ k₂ r₁ r₂ hr₁ hr₂ ha₁ ha₂ hkey
  rcases active_after_cases h ha hr₁ ha₁ with ⟨o₁, ho₁, hoa₁, hk₁⟩ | ⟨args₁, hi₁, hok₁, hj₁, hk₁⟩
  · rcases active_after_cases h ha hr₂ ha₂ with ⟨o₂, ho₂, hoa₂, hk₂⟩ | ⟨args₂, hi₂, hok₂, -, hk₂⟩
    · exact hone _ _ _ _ ho₁ ho₂ hoa₁ hoa₂ (by rw [hk₁, hk₂, hkey])
    · exact absurd (by rw [hk₁, hk₂, hkey]) (hg args₂ hi₂ hok₂ _ _ ho₁ hoa₁)
  · rcases active_after_cases h ha hr₂ ha₂ with ⟨o₂, ho₂, hoa₂, hk₂⟩ | ⟨args₂, hi₂, -, hj₂, -⟩
    · exact absurd (by rw [hk₁, hk₂, hkey]) (hg args₁ hi₁ hok₁ _ _ ho₂ hoa₂)
    · rw [hi₁] at hi₂
      cases hi₂
      rw [hj₁, hj₂]

/-- A step to a good state inserts its row alone. -/
theorem insertsAlone_of_step {s : CodingLoop} {a : LoopAction}
    (hone : AtMostOneActive (s.step a)) : InsertsAlone s a := by
  intro args hins hok k r hr hact hkey
  have hf : (s.step a).fleet = s.fleet.step (.enqueue args) := by
    rcases fleet_step s a with ⟨b, rfl, -⟩ | ⟨args', hins', hf⟩ | ⟨hnone, -⟩
    · cases hins
    · rw [hins] at hins'
      cases hins'
      exact hf
    · rw [hins] at hnone; cases hnone
  obtain ⟨-, hty, hafter⟩ := maxAttempts_inserts? hins
  cases he : s.queue.enqueue args with
  | error e => rw [he] at hok; cases hok
  | ok p =>
    obtain ⟨j, q'⟩ := p
    obtain ⟨-, -, -, -, hfree, hget, -⟩ := enqueue_ok he
    have hq : (s.step a).queue = q' := by
      rw [queue, hf]
      exact congrArg s.queue.commit he
    have hrow : (s.step a).queue.get k = some r := by
      rw [hq, hget, if_neg, hr]
      rintro rfl
      rw [hfree] at hr; cases hr
    have hnew : (s.step a).queue.get args.jobId = some args.job := by rw [hq, hget, if_pos rfl]
    have hnewAct : args.job.isActiveCoding := ⟨hty, .inl (by simp [EnqueueArgs.job, hafter])⟩
    have hk := hone _ _ _ _ hrow hnew hact hnewAct hkey
    rw [hk, hfree] at hr
    cases hr

/-! ## Along a run -/

/-- A session whose coding job is ready. -/
def readySession : WorkflowSession :=
  { sessionId := "session"
    extra :=
      [("coding_job", .obj
        [("session_id", .str "session"), ("status", .str "ready"),
         ("executor_role", .str "backend-engineer"),
         ("metadata", .obj [("branch_hint", .str "agent/backend/issue-7")])])] }

/-- The pull request of the first attempt fails its checks once. -/
def failedPoll : CiRetry.PollArgs :=
  { prNumber := 7, headSha := "abc", status := ⟨7, "abc", .failure, ["tests"]⟩, jobId := "second",
    now := 10, polledAt := "2026-01-01T00:00:10+00:00", stamp := ⟨"entry", "decision", "now"⟩ }

/-- Dispatch, a saved attempt, a failing poll, and the next tick of the dispatcher. -/
def retryThenTickRun : List LoopAction :=
  [.dispatch 0 {} "first" 1 "2026-01-01T00:00:01+00:00",
   .fleet (.pick .codingExecutor { workerId := "A", jobTypes := ["coding_execute"], now := 2 }),
   .fleet (.start 0 2),
   .fleet (.finish 0 (.codingSuccess "agent/backend/issue-7" none (some 7) none none) 3),
   .poll 0 failedPoll,
   .dispatch 0 {} "third" 20 "2026-01-01T00:00:20+00:00"]

end CodingLoop

end ForgeKit
