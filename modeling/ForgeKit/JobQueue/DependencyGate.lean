import ForgeKit.JobQueue.Fleet

/-!
# The two gates of a dependent job

A job enqueued with `after_jobs` is held back twice: by its own state `waiting_for_role`, and
by the `NOT EXISTS` clause of `pick` over its parents. The clause opens when the parents are
saved. The state never opens: the two edges out of `waiting_for_role` that lead to work are taken
by nobody.

`pick_dependent_iff` — so `pick` agrees with "every parent is saved" exactly while some parent
is not.
-/

namespace ForgeKit

namespace JobQueue

/-- `pick` returns the job. -/
def PickReturns (q : JobQueue) (a : PickArgs) (jobId : String) : Prop :=
  ∃ r q', q.pick a = .ok (some r, q') ∧ r.jobId = jobId

/-- The row is there and saved. -/
def IsSaved (q : JobQueue) (jobId : String) : Prop :=
  ∃ r, q.get jobId = some r ∧ r.state = .saved

/-- Every parent that the job was enqueued with is saved. -/
def ParentsSaved (q : JobQueue) (e : EnqueueArgs) : Prop := ∀ p ∈ e.parents, q.IsSaved p

theorem pickReturns_cases {q : JobQueue} {a : PickArgs} {jobId : String}
    (h : q.PickReturns a jobId) :
    ∃ r, q.get jobId = some r ∧ r.state = .queued ∧ q.blocked jobId = false := by
  obtain ⟨r', q', hp, rfl⟩ := h
  obtain ⟨r, -, hc, rfl⟩ := pick_ok_some hp
  obtain ⟨hget, hst, -, -, hbl⟩ := candidate_spec hc
  exact ⟨r, hget, hst, hbl⟩

end JobQueue

namespace Fleet

open JobQueue

/-- The job is there and waits for its parents. -/
def Waits (s : Fleet) (jobId : String) : Prop :=
  ∃ r, s.queue.get jobId = some r ∧ r.state = .waitingForRole

theorem waits_step {s : Fleet} (hinv : Inv s) {jobId : String} (h : s.Waits jobId)
    (a : FleetAction) : (s.step a).Waits jobId := by
  obtain ⟨r, hr, hst⟩ := h
  exact ⟨_, get_step_of_some s a hr, hinv.change_waiting hr (rowChange s a r) hst⟩

/-- **A waiting job waits forever.** -/
theorem waits_run {s : Fleet} (hinv : Inv s) {jobId : String} (h : s.Waits jobId)
    (as : List FleetAction) : (Machine.run Fleet.step s as).Waits jobId :=
  (Machine.run_of_step (A := fun _ => True) (I := fun s => Inv s ∧ s.Waits jobId)
    (fun _ a _ h => ⟨h.1.step a, waits_step h.1 h.2 a⟩) ⟨hinv, h⟩ fun _ _ => trivial).2

theorem waits_enqueue {s : Fleet} {e : EnqueueArgs} (hafter : e.afterJobs ≠ [])
    (hok : (s.queue.enqueue e).isOk = true) : (s.step (.enqueue e)).Waits e.jobId := by
  cases he : s.queue.enqueue e with
  | error err => rw [he] at hok; cases hok
  | ok p =>
    obtain ⟨r, q'⟩ := p
    obtain ⟨-, -, -, -, -, hget, -⟩ := enqueue_ok he
    refine ⟨e.job, ?_, ?_⟩
    · simp [step, he, hget]
    · have hne : e.afterJobs.isEmpty = false := by simpa using hafter
      simp [EnqueueArgs.job, hne]

theorem not_pickReturns_of_waits {s : Fleet} {jobId : String} (h : s.Waits jobId)
    (a : PickArgs) : ¬s.queue.PickReturns a jobId := by
  intro hp
  obtain ⟨r, hr, hst⟩ := h
  obtain ⟨r', hr', hst', -⟩ := pickReturns_cases hp
  rw [hr] at hr'
  cases hr'
  rw [hst] at hst'
  cases hst'

/--
**When a dependent job is picked as it should.**

`J` is enqueued with a non-empty `after_jobs` somewhere in a run. Whatever its filters, a `pick`
after the run returns `J` if and only if every parent of `J` is saved — exactly while some
parent is not saved.
-/
theorem pick_dependent_iff (before after : List FleetAction) (e : EnqueueArgs) (a : PickArgs)
    (hafter : e.afterJobs ≠ [])
    (hok : ((Machine.run Fleet.step empty before).queue.enqueue e).isOk = true) :
    let q := (Machine.run Fleet.step empty (before ++ .enqueue e :: after)).queue
    (q.PickReturns a e.jobId ↔ q.ParentsSaved e) ↔ ∃ p ∈ e.parents, ¬q.IsSaved p := by
  intro q
  have hinv : Inv (Machine.run Fleet.step empty before) := Inv.empty.run before
  -- the state never opens, so the pick never returns the job and only the parents matter
  have hwaits : (Machine.run Fleet.step empty (before ++ .enqueue e :: after)).Waits e.jobId := by
    rw [Machine.run_append]
    exact waits_run (hinv.step _) (waits_enqueue hafter hok) after
  have hnever : ¬q.PickReturns a e.jobId := not_pickReturns_of_waits hwaits a
  have hgap : (∃ p ∈ e.parents, ¬q.IsSaved p) ↔ ¬q.ParentsSaved e := by
    simp [ParentsSaved]
  rw [hgap]
  simp [hnever]

/-- The only job of its type, behind one parent. -/
def childArgs : EnqueueArgs :=
  { jobId := "child", sessionId := "session", jobType := "role_take", afterJobs := ["parent"],
    now := 1 }

/-- The parent is enqueued first. -/
def parentRun : List FleetAction :=
  [.enqueue { jobId := "parent", sessionId := "session", jobType := "research_collect", now := 0 }]

/-- The parent is picked and saved. -/
def parentSavedRun : List FleetAction :=
  [.pick .research { workerId := "A", jobTypes := ["research_collect"], now := 2 },
   .start 0 3,
   .finish 0 .researchSaved 4]

/-- A pick whose filter matches the child only. -/
def childPick : PickArgs := { workerId := "B", jobTypes := ["role_take"], now := 5 }

theorem pick_dependent_iff_child :
    let q := (Machine.run Fleet.step empty (parentRun ++ .enqueue childArgs :: [])).queue
    (q.PickReturns childPick "child" ↔ q.ParentsSaved childArgs)
      ↔ ∃ p ∈ childArgs.parents, ¬q.IsSaved p :=
  pick_dependent_iff parentRun [] childArgs childPick (by decide) (by decide +kernel)

/-- The parent is saved, the filter matches the available child only, and it is not returned. -/
theorem not_pick_child_after_parent_saved :
    let q := (Machine.run Fleet.step empty
      (parentRun ++ .enqueue childArgs :: parentSavedRun)).queue
    (∀ r ∈ q.jobs.rows, childPick.admits r = true ↔ r.jobId = "child")
      ∧ (∀ r ∈ q.jobs.rows, r.jobId = "child" → r.availableAt ≤ childPick.now)
      ∧ ¬(q.PickReturns childPick "child" ↔ q.ParentsSaved childArgs) := by
  refine ⟨by decide +kernel, by decide +kernel, ?_⟩
  have hstate : ((Machine.run Fleet.step empty
      (parentRun ++ .enqueue childArgs :: parentSavedRun)).queue.get "parent").map Job.state
      = some .saved := by decide +kernel
  have hnone : ((Machine.run Fleet.step empty
      (parentRun ++ .enqueue childArgs :: parentSavedRun)).queue.candidate childPick).isNone
      = true := by decide +kernel
  have hparents : childArgs.parents = ["parent"] := by decide +kernel
  generalize (Machine.run Fleet.step empty
    (parentRun ++ .enqueue childArgs :: parentSavedRun)).queue = q at hstate hnone ⊢
  intro h
  have hsaved : q.ParentsSaved childArgs := by
    intro p hp
    rw [hparents, List.mem_singleton] at hp
    subst hp
    exact Option.map_eq_some_iff.mp hstate
  obtain ⟨r, q', hpick, -⟩ := h.mpr hsaved
  obtain ⟨c, -, hc, -⟩ := pick_ok_some hpick
  rw [Option.isNone_iff_eq_none.mp hnone] at hc
  cases hc

end Fleet

end ForgeKit
