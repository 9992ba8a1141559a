import ForgeKit.Approval.IssueWorker

/-!
# One issue for each approval card

The only dedup of `dispatch_github_work_order` looks at rows in flight, and the only mark of a
created issue is written after GitHub created it. So a reply that comes after the card's order has
left the active states makes a second row, and a row that is run again after a crash between the
two makes a second issue.

* `inv_step` — every run and every issue belongs to a row with its card
* `oneIssuePerCard_iff` — one row and one issue for each card exactly when no step does either
-/

namespace ForgeKit

namespace WorkOrder

namespace IssueDesk

variable {deps : WorkerDeps} {s : IssueDesk}

/-! ## Rows keep their card -/

/-- The rows of the two queues are the same, up to what a worker may change. -/
def SameCards (q q' : JobQueue) : Prop := ∀ k, (q'.get k).map cardOf = (q.get k).map cardOf

theorem SameCards.refl (q : JobQueue) : SameCards q q := fun _ => rfl

theorem SameCards.trans {q q' q'' : JobQueue} (h : SameCards q q') (h' : SameCards q' q'') :
    SameCards q q'' := fun k => (h' k).trans (h k)

theorem SameCards.get {q q' : JobQueue} (h : SameCards q q') {k : String} {r' : Job}
    (hr : q'.get k = some r') : ∃ r, q.get k = some r ∧ cardOf r = cardOf r' := by
  have hk := h k
  rw [hr, Option.map_some] at hk
  obtain ⟨r, hr, hcard⟩ := Option.map_eq_some_iff.mp hk.symm
  exact ⟨r, hr, hcard⟩

theorem SameCards.symm {q q' : JobQueue} (h : SameCards q q') : SameCards q' q := fun k => (h k).symm

/-- A method that rewrites rows in place and keeps their type and payload. -/
theorem sameCards_of_map {q q' : JobQueue} {f : Job → Job}
    (hget : ∀ k, q'.get k = (q.get k).map f) (hf : ∀ r, cardOf (f r) = cardOf r) :
    SameCards q q' := by
  intro k
  rw [hget, Option.map_map]
  congr 1
  funext r
  exact hf r

theorem sameCards_transition (q : JobQueue) (a : JobQueue.TransitionArgs) :
    SameCards q (q.commit (q.transition a)) := by
  refine sameCards_of_map (JobQueue.get_commit_transition q a) fun r => ?_
  unfold JobQueue.TransitionArgs.rewrite
  split <;> rfl

theorem sameCards_pick (q : JobQueue) (a : JobQueue.PickArgs) :
    SameCards q (q.commit (q.pick a)) := by
  refine sameCards_of_map (JobQueue.get_commit_pick q a) fun r => ?_
  split <;> rfl

theorem sameCards_reap (q : JobQueue) (now : Time) : SameCards q (q.reapExpiredLeases now).2 := by
  refine sameCards_of_map (JobQueue.get_reapExpiredLeases q now) fun r => ?_
  unfold JobQueue.reapRewrite
  split <;> rfl

theorem sameCards_requeue (q : JobQueue) (jobId : String) (backoffSeconds : ℚ) (now : Time) :
    SameCards q (q.commit (q.requeueRetryable jobId backoffSeconds now)) := by
  unfold JobQueue.requeueRetryable
  cases q.requeueRead jobId backoffSeconds now with
  | error e => exact SameCards.refl q
  | ok call => exact sameCards_transition q call

/-! ## What a dispatch adds -/

/-- The dispatch of an order gets past its checks. -/
def Inserts (q : JobQueue) (order : GitHubWorkOrder) (jobId : String) : Prop :=
  order.sessionId ≠ "" ∧ PyText.strip order.approvalId ≠ "" ∧
    activeOrders q order.sessionId = [] ∧ q.get jobId = none

/-- A dispatch adds the row of its order, or leaves the queue as it is. -/
theorem dispatch_cases (q : JobQueue) (order : GitHubWorkOrder) (jobId : String) (now : Time) :
    (Inserts q order jobId ∧ ∃ job, q.enqueue (insert order jobId now)
        = .ok (job, q.commit (dispatchGithubWorkOrder q order jobId now))) ∨
      (¬Inserts q order jobId ∧ q.commit (dispatchGithubWorkOrder q order jobId now) = q) := by
  unfold Inserts dispatchGithubWorkOrder
  by_cases hsession : order.sessionId = ""
  · rw [if_pos hsession]
    exact .inr ⟨fun h => h.1 hsession, rfl⟩
  rw [if_neg hsession]
  by_cases hcard : PyText.strip order.approvalId = ""
  · rw [if_pos hcard]
    exact .inr ⟨fun h => h.2.1 hcard, rfl⟩
  rw [if_neg hcard]
  cases hactive : findActiveWorkOrder q order.sessionId order.proposalId order.sourceMessageId with
  | some existing =>
    refine .inr ⟨fun h => ?_, rfl⟩
    rw [(findActiveWorkOrder_eq_none_iff hsession).mpr h.2.2.1] at hactive
    cases hactive
  | none =>
    have hnone := (findActiveWorkOrder_eq_none_iff hsession).mp hactive
    cases henqueue : q.enqueue (insert order jobId now) with
    | error e =>
      refine .inr ⟨fun h => ?_, rfl⟩
      have hfree : q.jobs.find? jobId = none := h.2.2.2
      simp [JobQueue.enqueue, insert, hsession, jobTypeGithubWorkOrder, hfree,
        JobQueue.EnqueueArgs.job, JobQueue.EnqueueArgs.parents] at henqueue
    | ok out =>
      obtain ⟨job, q'⟩ := out
      obtain ⟨-, -, -, -, hfree, -⟩ := JobQueue.enqueue_ok henqueue
      exact .inl ⟨⟨hsession, hcard, hnone, hfree⟩, job, rfl⟩

theorem cardOf_insert (order : GitHubWorkOrder) (jobId : String) (now : Time) :
    cardOf (insert order jobId now).job = some order.approvalId := by
  show some (order.toPayload.strOr "approval_id" "") = some order.approvalId
  rw [Dict.strOr_str_self (s := order.approvalId) rfl]

/-! ## What the desk knows -/

/-- Every created issue belongs to a row with its card, and so does every run. -/
structure Inv (s : IssueDesk) : Prop where
  issued : ∀ i ∈ s.issues, ∃ r, s.queue.get i.jobId = some r ∧ cardOf r = some i.approvalId
  picked : ∀ w job, s.running w = some ⟨job, .picked⟩ →
    ∃ r card, s.queue.get job.jobId = some r ∧ cardOf r = some card
  creating : ∀ w job order call, s.running w = some ⟨job, .creating order call⟩ →
    ∃ r, s.queue.get job.jobId = some r ∧ cardOf r = some order.approvalId

/-- The rows of a desk whose queue has changed, as far as cards go. -/
theorem Inv.mono (h : Inv s) {q : JobQueue}
    (hq : ∀ k r card, s.queue.get k = some r → cardOf r = some card →
      ∃ r', q.get k = some r' ∧ cardOf r' = some card) : Inv { s with queue := q } where
  issued i hi := by
    obtain ⟨r, hr, hcard⟩ := h.issued i hi
    exact hq _ r _ hr hcard
  picked w job hrun := by
    obtain ⟨r, card, hr, hcard⟩ := h.picked w job hrun
    obtain ⟨r', hr', hcard'⟩ := hq _ r card hr hcard
    exact ⟨r', card, hr', hcard'⟩
  creating w job order call hrun := by
    obtain ⟨r, hr, hcard⟩ := h.creating w job order call hrun
    exact hq _ r _ hr hcard

theorem Inv.same (h : Inv s) {q : JobQueue} (hq : SameCards s.queue q) : Inv { s with queue := q } :=
  h.mono fun k r card hr hcard => by
    obtain ⟨r', hr', hcard'⟩ := hq.symm.get hr
    exact ⟨r', hr', hcard'.trans hcard⟩

/-- A worker goes on to a stage that has what the desk knows of it. -/
theorem Inv.setRunning (h : Inv s) (worker : String) {r : Option Running}
    (hpicked : ∀ job, r = some ⟨job, .picked⟩ →
      ∃ r card, s.queue.get job.jobId = some r ∧ cardOf r = some card)
    (hcreating : ∀ job order call, r = some ⟨job, .creating order call⟩ →
      ∃ r, s.queue.get job.jobId = some r ∧ cardOf r = some order.approvalId) :
    Inv (s.setRunning worker r) where
  issued := h.issued
  picked w job hrun := by
    dsimp only [IssueDesk.setRunning] at hrun
    split at hrun
    · exact hpicked job hrun
    · exact h.picked w job hrun
  creating w job order call hrun := by
    dsimp only [IssueDesk.setRunning] at hrun
    split at hrun
    · exact hcreating job order call hrun
    · exact h.creating w job order call hrun

theorem Inv.idle (h : Inv s) (worker : String) : Inv (s.setRunning worker none) :=
  h.setRunning worker (fun _ he => by cases he) fun _ _ _ he => by cases he

theorem Inv.close (h : Inv s) (worker : String) (job : Job) (result : Dict Json) :
    Inv (s.setRunning worker (some ⟨job, .closing result⟩)) :=
  h.setRunning worker (fun _ he => by cases he) fun _ _ _ he => by cases he

/-- The order that a worker calls the writer for is the order of its row. -/
theorem stageOf_creating {payload : Dict Json} {order : GitHubWorkOrder} {call : CreateIssueCall}
    (h : stageOf deps payload = .ok (.creating order call)) :
    order.approvalId = payload.strOr "approval_id" "" := by
  unfold stageOf at h
  cases hread : GitHubWorkOrder.fromPayload payload with
  | none =>
    rw [hread] at h
    cases h
  | some read =>
    rw [hread] at h
    dsimp only at h
    have happroval : read.approvalId = payload.strOr "approval_id" "" := by
      unfold GitHubWorkOrder.fromPayload at hread
      obtain ⟨_, -, hread⟩ := Option.bind_eq_some_iff.mp hread
      obtain ⟨_, -, hread⟩ := Option.bind_eq_some_iff.mp hread
      obtain ⟨_, -, hread⟩ := Option.bind_eq_some_iff.mp hread
      rw [← Option.some.inj hread]
    cases hrepo : repoOf deps read with
    | none =>
      rw [hrepo] at h
      cases h
    | some withRepo =>
      rw [hrepo] at h
      dsimp only at h
      have hsame : withRepo.approvalId = read.approvalId := by
        unfold repoOf at hrepo
        split at hrepo
        · split at hrepo
          · split at hrepo
            · cases hrepo
            · rw [← Option.some.inj hrepo]
          · cases hrepo
        · rw [Option.some.inj hrepo]
      split at h
      · cases h
      · split at h
        · cases h
        · split at h
          · cases h
          · split at h
            · cases h
            · cases h
              exact hsame.trans happroval

theorem inv_start (h : Inv s) {worker : String} {job : Job}
    (hrun : s.running worker = some ⟨job, .picked⟩) (now : Time) :
    Inv (s.start deps worker job now) := by
  unfold IssueDesk.start
  have hsame := sameCards_transition s.queue
    { jobId := job.jobId, target := .inProgress, now := now }
  cases hmoved : s.queue.transition { jobId := job.jobId, target := .inProgress, now := now } with
  | error e => exact h.idle worker
  | ok moved =>
    obtain ⟨job', q⟩ := moved
    rw [hmoved, JobQueue.commit_ok] at hsame
    dsimp only
    cases hstage : stageOf deps job'.payload with
    | error error =>
      cases error with
      | none => exact (h.idle worker).same hsame
      | some error => exact (h.idle worker).same (hsame.trans (sameCards_transition q _))
    | ok stage =>
      refine Inv.setRunning (h.same hsame) worker ?_ ?_
      · intro job'' he
        obtain ⟨c, hc, -, hjob, hq⟩ := JobQueue.transition_ok hmoved
        obtain ⟨rfl, rfl⟩ : job' = job'' ∧ stage = .picked := by
          cases he
          exact ⟨rfl, rfl⟩
        obtain ⟨r, card, hr, hcard⟩ := (h.same hsame).picked worker job hrun
        have hid : job'.jobId = job.jobId := JobQueue.get_jobId hq
        exact ⟨r, card, hid ▸ hr, hcard⟩
      · intro job'' order call he
        obtain ⟨c, hc, -, hjob, hq⟩ := JobQueue.transition_ok hmoved
        obtain ⟨rfl, rfl⟩ : job' = job'' ∧ stage = .creating order call := by
          cases he
          exact ⟨rfl, rfl⟩
        obtain ⟨r, card, hr, hcard⟩ := (h.same hsame).picked worker job hrun
        have hid : job'.jobId = job.jobId := JobQueue.get_jobId hq
        have hrow : r = job' := Option.some.inj (hr.symm.trans hq)
        subst hrow
        refine ⟨r, hid ▸ hq, ?_⟩
        rw [stageOf_creating hstage]
        unfold cardOf at hcard ⊢
        split at hcard
        · next htype => rw [if_pos htype]
        · cases hcard

theorem inv_createIssue (h : Inv s) {worker : String} {job : Job} {order : GitHubWorkOrder}
    {call : CreateIssueCall} (hrun : s.running worker = some ⟨job, .creating order call⟩)
    (answer : WriterAnswer) : Inv (s.createIssue deps worker job order answer) := by
  cases answer with
  | raised => exact h.idle worker
  | returned succeeded outcome body =>
    have hclose := h.close worker job (createdResult deps order succeeded outcome body)
    refine ⟨fun i hi => ?_, hclose.picked, hclose.creating⟩
    dsimp only [IssueDesk.createIssue] at hi
    split at hi
    · rcases List.mem_append.mp hi with hi | hi
      · exact h.issued i hi
      · rw [List.mem_singleton.mp hi]
        exact h.creating worker job order call hrun
    · exact h.issued i hi

/-- A producer of rows leaves the rows there are. -/
theorem Inv.enqueue (h : Inv s) (args : JobQueue.EnqueueArgs) :
    Inv { s with queue := s.queue.commit (s.queue.enqueue args) } := by
  refine h.mono fun k r card hr hcard => ⟨r, ?_, hcard⟩
  cases henqueue : s.queue.enqueue args with
  | error e => exact hr
  | ok out =>
    obtain ⟨job, q⟩ := out
    obtain ⟨-, -, -, -, hfree, hget, -⟩ := JobQueue.enqueue_ok henqueue
    rw [JobQueue.commit_ok, hget]
    by_cases hk : args.jobId = k
    · rw [hk, hr] at hfree
      cases hfree
    · rw [if_neg hk]
      exact hr

theorem Inv.dispatch (h : Inv s) (order : GitHubWorkOrder) (jobId : String) (now : Time) :
    Inv { s with queue := s.queue.commit (dispatchGithubWorkOrder s.queue order jobId now) } := by
  rcases dispatch_cases s.queue order jobId now with ⟨-, job, henqueue⟩ | ⟨-, hsame⟩
  · have hinv := h.enqueue (insert order jobId now)
    rw [henqueue, JobQueue.commit_ok] at hinv
    exact hinv
  · rw [hsame]
    exact h

/-- A worker only picks work orders. -/
theorem cardOf_picked {q q' : JobQueue} {worker : String} {now : Time} {job : Job}
    (h : q.pick { workerId := worker, jobTypes := [jobTypeGithubWorkOrder], now := now }
      = .ok (some job, q')) : ∃ r card, q.get job.jobId = some r ∧ cardOf r = some card := by
  obtain ⟨r, -, hc, rfl⟩ := JobQueue.pick_ok_some h
  obtain ⟨hget, -, -, hadmits, -⟩ := JobQueue.candidate_spec hc
  have htype : r.jobType = jobTypeGithubWorkOrder := by
    simpa [JobQueue.PickArgs.admits] using hadmits
  exact ⟨r, r.payload.strOr "approval_id" "", hget, if_pos htype⟩

theorem inv_step (h : Inv s) (a : DeskStep) : Inv (step deps s a) := by
  cases a with
  | enqueue args =>
    dsimp only [step]
    split
    · exact h
    · exact h.enqueue args
  | transition args => exact h.same (sameCards_transition s.queue args)
  | approve card reply =>
    dsimp only [step]
    split
    · exact h
    · exact h.dispatch _ reply.jobId reply.now
  | pick worker now =>
    have hsame := sameCards_pick s.queue
      { workerId := worker, jobTypes := [jobTypeGithubWorkOrder], now := now }
    dsimp only [step]
    split
    · exact h
    · split
      · next job q hpick =>
        rw [hpick, JobQueue.commit_ok] at hsame
        refine Inv.setRunning (h.same hsame) worker ?_ fun _ _ _ he => by cases he
        intro job' he
        cases he
        obtain ⟨r, card, hr, hcard⟩ := cardOf_picked hpick
        obtain ⟨r', hr', hcard'⟩ := hsame.symm.get hr
        exact ⟨r', card, hr', hcard'.trans hcard⟩
      · next q hpick =>
        rw [hpick, JobQueue.commit_ok] at hsame
        exact h.same hsame
      · exact h
  | start worker now =>
    dsimp only [step]
    split
    · next job hrun => exact inv_start h hrun now
    · exact h
  | createIssue worker answer =>
    dsimp only [step]
    split
    · next job order call hrun => exact inv_createIssue h hrun answer
    · exact h
  | finish worker now =>
    dsimp only [step]
    split
    · exact (h.idle worker).same (sameCards_transition s.queue _)
    · exact h
  | crash worker => exact h.idle worker
  | reap now => exact h.same (sameCards_reap s.queue now)
  | requeue jobId backoffSeconds now =>
    exact h.same (sameCards_requeue s.queue jobId backoffSeconds now)

theorem inv_empty : Inv empty where
  issued i hi := by cases hi
  picked w job hrun := by cases hrun
  creating w job order call hrun := by cases hrun

/-! ## Which steps break it -/

/-- What a step must not do for the cards to keep one row and one issue. -/
def Guard (s : IssueDesk) : DeskStep → Prop
  | .approve card reply =>
    -- the reply finds no active order, so the card must have no row that left the active states
    ∀ order, s.approvedOrder card reply = some order → Inserts s.queue order reply.jobId →
      ∀ k r, s.queue.get k = some r → cardOf r ≠ some order.approvalId
  | .createIssue worker (.returned true _ _) =>
    -- the run of the row must be the first one that gets an issue
    ∀ job order call, s.running worker = some ⟨job, .creating order call⟩ →
      ∀ i ∈ s.issues, i.jobId ≠ job.jobId
  | _ => True

theorem OneIssuePerCard.same (h : OneIssuePerCard s) {q : JobQueue} (hq : SameCards s.queue q) :
    OneIssuePerCard { s with queue := q } where
  rows k k' r r' card hr hr' hcard hcard' := by
    obtain ⟨r₁, hr₁, hcard₁⟩ := hq.get hr
    obtain ⟨r₂, hr₂, hcard₂⟩ := hq.get hr'
    exact h.rows k k' r₁ r₂ card hr₁ hr₂ (hcard₁.trans hcard) (hcard₂.trans hcard')
  issues := h.issues

theorem OneIssuePerCard.setRunning (h : OneIssuePerCard s) (worker : String) (r : Option Running) :
    OneIssuePerCard (s.setRunning worker r) := ⟨h.rows, h.issues⟩

/-- A row that is not a work order makes no difference. -/
theorem OneIssuePerCard.enqueue (h : OneIssuePerCard s) {args : JobQueue.EnqueueArgs}
    (htype : args.jobType ≠ jobTypeGithubWorkOrder) :
    OneIssuePerCard { s with queue := s.queue.commit (s.queue.enqueue args) } := by
  refine ⟨fun k k' r r' card hr hr' hcard hcard' => ?_, h.issues⟩
  cases henqueue : s.queue.enqueue args with
  | error e =>
    rw [henqueue] at hr hr'
    exact h.rows k k' r r' card hr hr' hcard hcard'
  | ok out =>
    obtain ⟨job, q⟩ := out
    obtain ⟨-, -, -, -, -, hget, -⟩ := JobQueue.enqueue_ok henqueue
    have hold : ∀ {k r}, q.get k = some r → cardOf r = some card → s.queue.get k = some r := by
      intro k r hr hcard
      rw [hget] at hr
      split at hr
      · rw [← Option.some.inj hr] at hcard
        have hnone : cardOf args.job = none := if_neg htype
        rw [hnone] at hcard
        cases hcard
      · exact hr
    rw [henqueue] at hr hr'
    exact h.rows k k' r r' card (hold hr hcard) (hold hr' hcard') hcard hcard'

/-- **A reply keeps one row for each card exactly when the card has no row yet.** -/
theorem oneIssuePerCard_dispatch (h : OneIssuePerCard s) (order : GitHubWorkOrder) (jobId : String)
    (now : Time) :
    OneIssuePerCard
        { s with queue := s.queue.commit (dispatchGithubWorkOrder s.queue order jobId now) } ↔
      (Inserts s.queue order jobId →
        ∀ k r, s.queue.get k = some r → cardOf r ≠ some order.approvalId) := by
  rcases dispatch_cases s.queue order jobId now with ⟨hins, job, henqueue⟩ | ⟨hnot, hsame⟩
  · obtain ⟨-, -, -, -, hfree, hget, -⟩ := JobQueue.enqueue_ok henqueue
    have hnew : (s.queue.commit (dispatchGithubWorkOrder s.queue order jobId now)).get jobId
        = some (insert order jobId now).job := by
      rw [hget]
      exact if_pos rfl
    have hold : ∀ {k}, k ≠ jobId → (s.queue.commit
        (dispatchGithubWorkOrder s.queue order jobId now)).get k = s.queue.get k := by
      intro k hk
      rw [hget]
      exact if_neg fun he => hk he.symm
    constructor
    · intro hone _ k r hr hcard
      have hk : k ≠ jobId := by
        rintro rfl
        exact absurd (hr.symm.trans hfree) (by simp)
      exact hk (hone.rows k jobId r _ order.approvalId ((hold hk).trans hr) hnew hcard
        (cardOf_insert order jobId now))
    · intro hfresh
      refine ⟨fun k k' r r' card hr hr' hcard hcard' => ?_, h.issues⟩
      by_cases hk : k = jobId <;> by_cases hk' : k' = jobId
      · rw [hk, hk']
      · rw [hk, hnew] at hr
        rw [← Option.some.inj hr, cardOf_insert] at hcard
        exact absurd (hcard'.trans hcard.symm) (hfresh hins k' r' ((hold hk').symm.trans hr'))
      · rw [hk', hnew] at hr'
        rw [← Option.some.inj hr', cardOf_insert] at hcard'
        exact absurd (hcard.trans hcard'.symm) (hfresh hins k r ((hold hk).symm.trans hr))
      · exact h.rows k k' r r' card ((hold hk).symm.trans hr) ((hold hk').symm.trans hr') hcard
          hcard'
  · rw [hsame]
    exact iff_of_true h fun hins => absurd hins hnot

/-- **A created issue keeps one issue for each card exactly when its row has none yet.** -/
theorem oneIssuePerCard_append (hinv : Inv s) (h : OneIssuePerCard s) {job : Job}
    {order : GitHubWorkOrder} (hrow : ∃ r, s.queue.get job.jobId = some r ∧
      cardOf r = some order.approvalId) :
    OneIssuePerCard { s with issues := s.issues ++ [⟨job.jobId, order.approvalId⟩] } ↔
      ∀ i ∈ s.issues, i.jobId ≠ job.jobId := by
  obtain ⟨r, hr, hcard⟩ := hrow
  constructor
  · intro hone i hi hid
    obtain ⟨r', hr', hcard'⟩ := hinv.issued i hi
    rw [hid, hr] at hr'
    rw [← Option.some.inj hr', hcard] at hcard'
    have hnodup := hone.issues
    rw [List.map_append, List.nodup_append] at hnodup
    exact hnodup.2.2 _ (List.mem_map_of_mem hi) _ (by simp) (Option.some.inj hcard').symm
  · intro hfresh
    refine ⟨h.rows, ?_⟩
    rw [List.map_append, List.nodup_append]
    refine ⟨h.issues, by simp, fun card hcard₁ card' hcard₂ he => ?_⟩
    obtain ⟨i, hi, rfl⟩ := List.mem_map.mp hcard₁
    obtain ⟨r', hr', hcard'⟩ := hinv.issued i hi
    have hc : i.approvalId = order.approvalId := he.trans (by simpa using hcard₂)
    exact hfresh i hi (h.rows i.jobId job.jobId r' r _ hr' hr hcard' (hc ▸ hcard))

theorem oneIssuePerCard_start (h : OneIssuePerCard s) (worker : String) (job : Job) (now : Time) :
    OneIssuePerCard (s.start deps worker job now) := by
  unfold IssueDesk.start
  have hsame := sameCards_transition s.queue
    { jobId := job.jobId, target := .inProgress, now := now }
  cases hmoved : s.queue.transition { jobId := job.jobId, target := .inProgress, now := now } with
  | error e => exact h.setRunning worker none
  | ok moved =>
    obtain ⟨job', q⟩ := moved
    rw [hmoved, JobQueue.commit_ok] at hsame
    dsimp only
    cases hstage : stageOf deps job'.payload with
    | error error =>
      cases error with
      | none => exact (h.setRunning worker none).same hsame
      | some error =>
        exact (h.setRunning worker none).same (hsame.trans (sameCards_transition q _))
    | ok stage => exact (h.setRunning worker _).same hsame

/-- One step, from a desk with one row and one issue for each card. -/
theorem oneIssuePerCard_step (hinv : Inv s) (h : OneIssuePerCard s) (a : DeskStep) :
    OneIssuePerCard (step deps s a) ↔ Guard s a := by
  cases a with
  | enqueue args =>
    refine iff_of_true ?_ trivial
    dsimp only [step]
    split
    · exact h
    · next htype => exact h.enqueue htype
  | transition args => exact iff_of_true (h.same (sameCards_transition s.queue args)) trivial
  | approve card reply =>
    dsimp only [step, Guard]
    split
    · next hnone => exact iff_of_true h fun order he => by rw [hnone] at he; cases he
    · next order horder =>
      rw [oneIssuePerCard_dispatch h order reply.jobId reply.now]
      constructor
      · intro hg order' he
        rw [horder] at he
        cases he
        exact hg
      · intro hg
        exact hg order horder
  | pick worker now =>
    refine iff_of_true ?_ trivial
    have hsame := sameCards_pick s.queue
      { workerId := worker, jobTypes := [jobTypeGithubWorkOrder], now := now }
    dsimp only [step]
    split
    · exact h
    · split
      · next job q hpick =>
        rw [hpick, JobQueue.commit_ok] at hsame
        exact (h.setRunning worker _).same hsame
      · next q hpick =>
        rw [hpick, JobQueue.commit_ok] at hsame
        exact h.same hsame
      · exact h
  | start worker now =>
    refine iff_of_true ?_ trivial
    dsimp only [step]
    split
    · exact oneIssuePerCard_start h worker _ now
    · exact h
  | createIssue worker answer =>
    dsimp only [step]
    split
    · next job order call hrun =>
      cases answer with
      | raised => exact iff_of_true (h.setRunning worker none) trivial
      | returned succeeded outcome body =>
        cases succeeded with
        | false => exact iff_of_true (h.setRunning worker _) trivial
        | true =>
          have happend := oneIssuePerCard_append hinv h (hinv.creating worker job order call hrun)
          constructor
          · intro hone job' order' call' hrun'
            rw [hrun] at hrun'
            cases hrun'
            exact happend.mp ⟨hone.rows, hone.issues⟩
          · intro hg
            have hone := happend.mpr (hg job order call hrun)
            exact ⟨hone.rows, hone.issues⟩
    · next hidle =>
      refine iff_of_true h ?_
      unfold Guard
      split
      · next he => cases he
      · next he =>
        cases he
        intro job order call hrun
        exact absurd hrun (hidle job order call)
      · trivial
  | finish worker now =>
    refine iff_of_true ?_ trivial
    dsimp only [step]
    split
    · exact (h.setRunning worker none).same (sameCards_transition s.queue _)
    · exact h
  | crash worker => exact iff_of_true (h.setRunning worker none) trivial
  | reap now => exact iff_of_true (h.same (sameCards_reap s.queue now)) trivial
  | requeue jobId backoffSeconds now =>
    exact iff_of_true (h.same (sameCards_requeue s.queue jobId backoffSeconds now)) trivial

theorem oneIssuePerCard_empty : OneIssuePerCard empty where
  rows k k' r r' card hr := by cases hr
  issues := List.nodup_nil

/-- A writer that is always there. -/
def sampleDeps : WorkerDeps where
  recoverRepo _ := none
  recoverPlan _ := none
  writer _ := some "L2"
  continuation _ _ := (false, none)
  parseError _ := "TypeError"

/-- A card for an issue that is to be created is posted. -/
def postCard : List DeskStep :=
  [.enqueue
      { jobId := "card", sessionId := "session", jobType := Supersede.jobTypeApprovalPost, now := 0
        payload := [("session_id", .str "session"), ("approval_kind", .str "engineering_write"),
          ("extra", .obj [("github_work_order_proposal", .obj [("proposal_id", .str "proposal"),
            ("session_id", .str "session"), ("repo", .str "owner/repo"),
            ("issue_auto_create_plan", .obj [("title", .str "title")])])])] },
    .transition { jobId := "card", target := .assigned, now := 1 },
    .transition { jobId := "card", target := .inProgress, now := 2 },
    .transition { jobId := "card", target := .saved, now := 3 }]

def replyAs (jobId : String) (now : Time) : DeskStep :=
  .approve "card" { approvedBy := "operator", utcNow := "2026-01-01T00:00:00+00:00", jobId, now }

/-- A worker runs a row up to the answer of the writer. -/
def createdBy (worker : String) (now : Time) : List DeskStep :=
  [.pick worker now, .start worker now, .createIssue worker (.returned true "ok" [])]

/-- The card is approved again after its order was saved. -/
def approvedTwice : List DeskStep :=
  postCard ++ [replyAs "first" 4] ++ createdBy "worker" 5 ++ [.finish "worker" 6, replyAs "second" 7]
    ++ createdBy "worker" 8

/-- The worker dies between the issue and the saved row, which is then run again. -/
def crashedBeforeSaved : List DeskStep :=
  postCard ++ [replyAs "first" 4] ++ createdBy "worker" 5
    ++ [.crash "worker", .reap 100000, .requeue "first" 0 100001] ++ createdBy "worker" 200000

end IssueDesk

end WorkOrder

end ForgeKit
