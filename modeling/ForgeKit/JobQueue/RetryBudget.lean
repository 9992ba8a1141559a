import ForgeKit.JobQueue.Fleet

/-!
# The retry budget

`requeue_retryable` compares `attempt + 1` with `max_attempts` in one transaction and bumps
`attempt` in another. Two callers that both read before either writes bump twice on one
failure, and the second bump is checked against nothing.

* `Counted` — what holds unconditionally: a job is picked at most `attempt + 1` times
* `withinBudget_iff` — the budget holds along a run exactly when every requeue finds the
  budget it read
-/

namespace ForgeKit

namespace Fleet

open JobQueue

/-- How often `pick` returned the job. -/
def picks (s : Fleet) (jobId : String) : Nat := s.picked.count jobId

/-- The budget: `attempt` stays below `max_attempts`, and the job is picked at most that often. -/
def WithinBudget (s : Fleet) : Prop :=
  ∀ k r, s.queue.get k = some r → r.attempt < r.maxAttempts ∧ s.picks k ≤ r.maxAttempts

/-- A requeue that goes through still finds the attempts below the limit. -/
def RequeueWithinBudget (s : Fleet) (a : FleetAction) : Prop :=
  ∀ i c r, a = .requeueWrite i → s.requeues[i]? = some c → c.target = .queued →
    s.queue.get c.jobId = some r → r.state = .failedRetryable ∨ r.state = .assigned →
    r.attempt + 1 < r.maxAttempts

/-- The counts of a row: every pick but the first was preceded by a bump. -/
def CountedRow (picks : Nat) (r : Job) : Prop :=
  1 ≤ r.maxAttempts ∧ (picks : Int) ≤ r.attempt + 1
    ∧ (r.state = .queued ∨ r.state = .waitingForRole → (picks : Int) ≤ r.attempt)

/-- The counts of every row. -/
def Counted (s : Fleet) : Prop := ∀ k r, s.queue.get k = some r → CountedRow (s.picks k) r

theorem counted_empty : Counted empty := by
  intro k r h; cases h

/-! ## One step -/

theorem picks_step (s : Fleet) (a : FleetAction) (k : String) :
    (s.step a).picks k
      = s.picks k + if (s.claims? a).map Job.jobId = some k then 1 else 0 := by
  unfold picks
  rw [picked_step, List.count_append]
  cases (s.claims? a).map Job.jobId with
  | none => simp
  | some j => by_cases hj : j = k <;> simp [hj]

/-- Nothing changes the limit, and only a requeue bumps the attempts. -/
theorem attempt_change {s : Fleet} {a : FleetAction} {r r' : Job} (hch : RowChange s a r r') :
    r'.maxAttempts = r.maxAttempts
      ∧ (r'.attempt = r.attempt
        ∨ ∃ i c, a = .requeueWrite i ∧ s.requeues[i]? = some c ∧ c.moves r = true
          ∧ c.bumpAttempt = true ∧ r' = c.apply r) := by
  cases hch with
  | @moved c hc hm =>
    refine ⟨rfl, ?_⟩
    rcases call?_cases hc with ⟨-, hb, -⟩ | ⟨i, ha, hi⟩
    · exact .inl (by simp [TransitionArgs.apply, hb])
    · by_cases hb : c.bumpAttempt = true
      · exact .inr ⟨i, c, ha, hi, hm, hb, rfl⟩
      · exact .inl (by simp [TransitionArgs.apply, hb])
  | _ => exact ⟨rfl, .inl rfl⟩

/-- A row that was not claimed keeps its counts: a call that requeues it also bumps it. -/
theorem countedRow_change {s : Fleet} (hinv : Inv s) {a : FleetAction} {n : Nat} {r r' : Job}
    (hch : RowChange s a r r') (h : CountedRow n r) : CountedRow n r' := by
  obtain ⟨hmax, hle, hq⟩ := h
  cases hch with
  | same => exact ⟨hmax, hle, hq⟩
  | assigned ha hp => exact ⟨hmax, hle, by simp [assign]⟩
  | @moved c hc hm =>
    rcases call?_cases hc with ⟨-, hb, ht⟩ | ⟨i, -, hi⟩
    · refine ⟨hmax, by simpa [TransitionArgs.apply, hb] using hle, ?_⟩
      rcases ht with ⟨ht, -⟩ | ht | ht | ht <;> simp [ht]
    · obtain ⟨-, ht⟩ := (hinv.requeues c (List.mem_of_getElem? hi)).1
      rcases ht with ⟨ht, hb⟩ | ⟨ht, hb⟩
      · exact ⟨hmax, by simpa [TransitionArgs.apply, hb] using hle, by simp [ht]⟩
      · have hbump : (c.apply r).attempt = r.attempt + 1 := by simp [TransitionArgs.apply, hb]
        exact ⟨hmax, by omega, fun _ => by omega⟩
  | renewed ha hacc => exact ⟨hmax, hle, hq⟩
  | reaped ha hr => exact ⟨hmax, hle, by simp [reap]⟩

theorem counted_step {s : Fleet} (hinv : Inv s) (hc : Counted s) (a : FleetAction) :
    Counted (s.step a) := by
  intro k r' h
  rw [picks_step]
  rcases get_step s a h with ⟨r, hr, rfl⟩ | ⟨args, rfl, rfl, hnone, rfl, hok⟩
  · by_cases hcl : (s.claims? a).map Job.jobId = some k
    · -- the row is claimed, so it was queued and one pick short
      obtain ⟨c, hclaim, hck⟩ := Option.map_eq_some_iff.mp hcl
      obtain ⟨hget, hst, kind, args, -, hrw⟩ := claims?_spec hclaim
      rw [hck, hr] at hget
      cases hget
      obtain ⟨hmax, -, hq⟩ := hc k r hr
      rw [if_pos hcl, hrw]
      have hle := hq (.inl hst)
      exact ⟨hmax, by simp only [assign]; omega, by simp [assign]⟩
    · rw [if_neg hcl, Nat.add_zero]
      exact countedRow_change hinv (rowChange s a r) (hc k r hr)
  · have hfree : s.picks args.jobId = 0 := by
      refine List.count_eq_zero.mpr fun hmem => ?_
      obtain ⟨r, hr, -⟩ := hinv.picked _ hmem
      rw [hnone] at hr; cases hr
    obtain ⟨-, hmax, -⟩ := enqueue_ok hok
    rw [hfree]
    exact ⟨hmax, by simp [EnqueueArgs.job, claims?], by simp [EnqueueArgs.job, claims?]⟩

/-- A requeue that reaches a row in use finds it failed or assigned. -/
theorem requeue_moves_iff {s : Fleet} (hinv : Inv s) {c : TransitionArgs} {r : Job}
    (hc : c ∈ s.requeues) (ht : c.target = .queued) (hr : s.queue.get c.jobId = some r) :
    c.moves r = true ↔ r.state = .failedRetryable ∨ r.state = .assigned := by
  obtain ⟨-, r', hr', hw⟩ := hinv.requeues c hc
  rw [hr] at hr'
  cases hr'
  have hs := hinv.states _ r hr
  rw [TransitionArgs.moves_iff, ht, JobState.edge_queued_iff]
  simp only [get_jobId hr, true_and]
  constructor
  · rintro (h | h | h | h)
    · rw [h] at hs; exact absurd hs (by decide)
    · exact .inr h
    · exact absurd h hw
    · exact .inl h
  · rintro (h | h) <;> simp [h]

/-- From a state within the budget, one step stays within it exactly when its requeue does. -/
theorem withinBudget_step_iff {s : Fleet} (hinv : Inv s) (hc : Counted s) (hb : WithinBudget s)
    (a : FleetAction) : WithinBudget (s.step a) ↔ RequeueWithinBudget s a := by
  constructor
  · rintro h i c r rfl hi ht hr hst
    have hmem := List.mem_of_getElem? hi
    have hm := (requeue_moves_iff hinv hmem ht hr).mpr hst
    have hbump : c.bumpAttempt = true := by
      rcases (hinv.requeues c hmem).1.2 with ⟨ht', -⟩ | ⟨-, hb'⟩
      · rw [ht] at ht'; cases ht'
      · exact hb'
    have hrw : s.rewrite (.requeueWrite i) r = c.apply r := by
      simp [rewrite, callRewrite, call?, hi, TransitionArgs.rewrite, hm]
    have hlt := (h _ _ (get_step_of_some s (.requeueWrite i) hr)).1
    rw [hrw] at hlt
    simpa [TransitionArgs.apply, hbump] using hlt
  · intro hg k r' hr'
    have hcount := counted_step hinv hc a k r' hr'
    suffices hlt : r'.attempt < r'.maxAttempts by
      exact ⟨hlt, by have := hcount.2.1; omega⟩
    rcases get_step s a hr' with ⟨r, hr, rfl⟩ | ⟨args, -, -, -, rfl, hok⟩
    · obtain ⟨hmax, hatt | ⟨i, c, rfl, hi, hm, hbump, hap⟩⟩ := attempt_change (rowChange s a r)
      · rw [hmax, hatt]
        exact (hb k r hr).1
      · -- the attempts were bumped, so this is a requeue that went through
        have hmem := List.mem_of_getElem? hi
        have ht : c.target = .queued := by
          rcases (hinv.requeues c hmem).1.2 with ⟨-, hb'⟩ | ⟨ht, -⟩
          · rw [hbump] at hb'; cases hb'
          · exact ht
        have hrow : s.queue.get c.jobId = some r := by
          rw [← (TransitionArgs.moves_iff.mp hm).1, get_jobId hr]; exact hr
        have hlt := hg i c r rfl hi ht hrow ((requeue_moves_iff hinv hmem ht hrow).mp hm)
        rw [hap]
        simpa [TransitionArgs.apply, hbump] using hlt
    · obtain ⟨-, hmax, -⟩ := enqueue_ok hok
      simp only [EnqueueArgs.job]
      omega

/-! ## Along a run -/

/--
**When the retry budget holds.**

In every run from an empty queue: at every moment every job has `attempt < max_attempts` and
was picked at most `max_attempts` times, exactly when each requeue that goes through still
finds `attempt + 1 < max_attempts`.
-/
theorem withinBudget_iff (as : List FleetAction) :
    Machine.Always Fleet.step WithinBudget empty as
      ↔ Machine.EachStep Fleet.step RequeueWithinBudget empty as :=
  Machine.always_iff_eachStep (A := fun _ => True) (I := fun s => Inv s ∧ Counted s)
    (fun _ a _ h => ⟨h.1.step a, counted_step h.1 h.2 a⟩)
    (fun _ a _ h hb => withinBudget_step_iff h.1 h.2 hb a)
    ⟨Inv.empty, counted_empty⟩ (by intro k r h; cases h) fun _ _ => trivial

/-- Two callers requeue one failure of a job with two attempts; each read before the other wrote. -/
def twoRequeuersRun : List FleetAction :=
  [.enqueue { jobId := "job", sessionId := "session", jobType := "role_take",
              role := some "tech-lead", maxAttempts := 2, now := 0 },
   .pick .roleTake { workerId := "A", now := 1 },
   .start 0 1,
   .finish 0 (.roleTakeFailed "timeout") 2,
   .requeueRead "job" 5 3,
   .requeueRead "job" 5 3,
   .requeueWrite 0,
   .pick .roleTake { workerId := "A", now := 9 },
   .start 1 9,
   .finish 1 (.roleTakeFailed "timeout") 10,
   .requeueWrite 0,
   .pick .roleTake { workerId := "A", now := 11 }]

/-- The job is picked three times, and `attempt` reaches `max_attempts`. -/
theorem not_withinBudget_twoRequeuers :
    ¬Machine.Always Fleet.step WithinBudget empty twoRequeuersRun := by
  intro h
  have hend := Machine.always_iff_prefix.mp h _ (List.prefix_refl _)
  have hrow : ((Machine.run Fleet.step empty twoRequeuersRun).queue.get "job").map
      (fun r => (r.attempt, r.maxAttempts)) = some (2, 2) := by decide +kernel
  obtain ⟨r, hr, hfields⟩ := Option.map_eq_some_iff.mp hrow
  obtain ⟨hatt, hmax⟩ := Prod.mk.inj hfields
  have hlt := (hend _ r hr).1
  omega

end Fleet

end ForgeKit
