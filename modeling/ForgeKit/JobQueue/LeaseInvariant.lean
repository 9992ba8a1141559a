import ForgeKit.JobQueue.System

/-!
# Active rows hold a lease

The reaper finds a row by its lease, so a row in `assigned` or `in_progress` without one would
be lost for good. `CodingExecutorWorker` never clears a lease and stale workers keep calling
`transition`, but the only ways into the two active states keep the lease of an `assigned`
row, and the only ways into `queued` clear it.

* `leaseOk_step` — every writer but a foreign `transition` keeps this
* `no_stranded_row` — so a reaper that runs late enough leaves no active row behind
-/

namespace ForgeKit

open JobQueue

/-- The states in which a worker is at work. -/
def Job.isActive (r : Job) : Prop := r.state = .assigned ∨ r.state = .inProgress

/-- An active row holds a lease, a queued one does not. -/
structure LeaseOk (r : Job) : Prop where
  held : r.isActive → r.pickedBy.isSome ∧ r.pickedUntil.isSome
  free : r.state = .queued → r.pickedBy = none ∧ r.pickedUntil = none

/-- A row in another state may or may not hold one. -/
theorem leaseOk_of_idle {r : Job} (ha : ¬r.isActive) (hq : r.state ≠ .queued) : LeaseOk r :=
  ⟨fun h => absurd h ha, fun h => absurd h hq⟩

theorem leaseOk_enqueue (e : EnqueueArgs) : LeaseOk e.job := by
  refine ⟨?_, fun _ => ⟨rfl, rfl⟩⟩
  simp only [Job.isActive, EnqueueArgs.job]
  split <;> simp

namespace Fleet

/-- The calls of the workers and of `requeue_retryable`, on a row in a state that occurs. -/
theorem leaseOk_moved {s : Fleet} (hinv : Inv s) {a : FleetAction} {c : TransitionArgs} {r : Job}
    (hc : s.call? a = some c) (hm : c.moves r = true) (hs : r.state ∈ workerStates)
    (hr : LeaseOk r) : LeaseOk (c.apply r) := by
  have hedge := (TransitionArgs.moves_iff.mp hm).2
  rcases call?_cases hc with ⟨-, -, ht⟩ | ⟨i, -, hi⟩
  · rcases ht with ⟨ht, hclear⟩ | ht | ht | ht
    · -- the only state that leads to `in_progress` here is `assigned`, and its lease stays
      have hst : r.state = .assigned := by
        rw [ht] at hedge
        cases hst : r.state <;> rw [hst] at hedge hs <;> revert hedge hs <;> decide
      refine ⟨fun _ => ?_, fun h => ?_⟩
      · simpa [TransitionArgs.apply, hclear] using hr.held (.inl hst)
      · rw [TransitionArgs.apply_state, ht] at h; cases h
    all_goals exact leaseOk_of_idle (by simp [Job.isActive, ht]) (by simp [ht])
  · obtain ⟨hclear, ht⟩ := (hinv.requeues c (List.mem_of_getElem? hi)).1
    rcases ht with ⟨ht, -⟩ | ⟨ht, -⟩
    · exact leaseOk_of_idle (by simp [Job.isActive, ht]) (by simp [ht])
    · refine ⟨fun h => ?_, fun _ => by simp [TransitionArgs.apply, hclear]⟩
      simp [Job.isActive, ht] at h

theorem leaseOk_change {s : Fleet} (hinv : Inv s) {a : FleetAction} {r r' : Job}
    (hch : RowChange s a r r') (hs : r.state ∈ workerStates) (hr : LeaseOk r) : LeaseOk r' := by
  cases hch with
  | same => exact hr
  | assigned ha hp => exact ⟨fun _ => by simp [assign], fun h => by simp [assign] at h⟩
  | moved hc hm => exact leaseOk_moved hinv hc hm hs hr
  | renewed ha hacc =>
    refine ⟨fun h => ⟨(hr.held h).1, rfl⟩, fun h => ?_⟩
    simp only [RenewArgs.accepts, Bool.and_eq_true] at hacc
    have hst : r.state = .queued := h
    rw [hst] at hacc
    exact absurd hacc.1 (by decide)
  | reaped ha hre => exact leaseOk_of_idle (by simp [Job.isActive, reap]) (by simp [reap])

end Fleet

namespace System

/-- The rows of a reachable state. -/
def LeasesOk (s : System) : Prop := ∀ k r, s.queue.get k = some r → LeaseOk r

theorem leaseOk_change {s : System} (hinv : s.fleet.Inv) {a : SystemAction}
    (ha : ∀ c, a ≠ .transition c) {r r' : Job} (hch : SystemChange s a r r')
    (hs : r.state ∈ Fleet.workerStates) (hr : LeaseOk r) : LeaseOk r' := by
  cases hch with
  | same => exact hr
  | fleet hb hch => exact Fleet.leaseOk_change hinv hch hs hr
  | transitioned hc hm => exact absurd hc (ha _)
  | revived hv hre =>
    exact ⟨fun h => by simp [Job.isActive, Recovery.revive] at h, fun _ => ⟨rfl, rfl⟩⟩
  | superseded hw hp hid =>
    exact leaseOk_of_idle (by simp [Job.isActive, Supersede.supersede])
      (by simp [Supersede.supersede])

theorem leaseOk_step {s : System} (hinv : s.fleet.Inv) (hl : s.LeasesOk) {a : SystemAction}
    (ha : ∀ c, a ≠ .transition c) : (s.step a).LeasesOk := by
  intro k r' h
  rcases get_step s a h with ⟨r, hr, rfl⟩ | ⟨args, -, -, -, rfl, -⟩
  · exact leaseOk_change hinv ha (systemChange s a r) (hinv.states k r hr) (hl k r hr)
  · exact leaseOk_enqueue args

/-- A reaper that runs after every lease has expired takes back every active row. -/
theorem reap_leaves_no_active {q : JobQueue} (hl : ∀ k r, q.get k = some r → LeaseOk r)
    {now : Time} (hnow : ∀ k r t, q.get k = some r → r.pickedUntil = some t → t ≤ now) :
    ∀ k r, (q.reapExpiredLeases now).2.get k = some r → ¬r.isActive := by
  intro k r' h
  rw [get_reapExpiredLeases] at h
  obtain ⟨r, hr, rfl⟩ := Option.map_eq_some_iff.mp h
  unfold reapRewrite
  by_cases hre : reapable now r = true
  · rw [if_pos hre]; simp [Job.isActive, reap]
  · rw [if_neg hre]
    intro hact
    obtain ⟨t, ht⟩ := Option.isSome_iff_exists.mp ((hl k r hr).held hact).2
    have hle := hnow k r t hr ht
    rcases hact with hst | hst <;>
      exact hre (by simp [reapable, leaseExpired, hst, ht, hle, JobState.Edge,
        JobState.stateTransitions])

/--
**No active row is ever stranded.**

In every state that any interleaving of the listed writers reaches from an empty database,
active rows hold a lease and queued rows do not; so a reaper that runs after every lease has
expired leaves no row in `assigned` or `in_progress`.
-/
theorem no_stranded_row (as : List SystemAction) (has : ∀ a ∈ as, ∀ c, a ≠ .transition c) :
    let q := (Machine.run step empty as).queue
    (∀ k r, q.get k = some r →
        (r.isActive → r.pickedBy.isSome ∧ r.pickedUntil.isSome)
          ∧ (r.state = .queued → r.pickedBy = none ∧ r.pickedUntil = none))
      ∧ ∀ now, (∀ k r t, q.get k = some r → r.pickedUntil = some t → t ≤ now) →
        ∀ k r, (q.reapExpiredLeases now).2.get k = some r → ¬r.isActive := by
  intro q
  have hempty : empty.LeasesOk := by intro k r h; cases h
  have hrun := Machine.run_of_step (A := fun a => ∀ c, a ≠ SystemAction.transition c)
    (I := fun s : System => s.fleet.Inv ∧ s.LeasesOk)
    (fun _ _ ha h => ⟨fleetInv_step h.1 ha, leaseOk_step h.1 h.2 ha⟩)
    ⟨Fleet.Inv.empty, hempty⟩ has
  have hl : ∀ k r, q.get k = some r → LeaseOk r := hrun.2
  exact ⟨fun k r hr => ⟨(hl k r hr).held, (hl k r hr).free⟩,
    fun now hnow => reap_leaves_no_active hl hnow⟩

/-- A coding worker fails and keeps its lease; a sweep requeues the row, and it is picked again. -/
theorem no_stranded_row_coding :
    let q := (Machine.run step empty
      [.fleet (.enqueue { jobId := "job", sessionId := "session", jobType := "coding_execute",
                          maxAttempts := 2, now := 0 }),
       .fleet (.pick .codingExecutor { workerId := "A", now := 1 }),
       .fleet (.start 0 1),
       .fleet (.finish 0 (.codingFail false "target_repo_checkout_missing" none none) 2),
       .fleet (.requeueRead "job" 5 3),
       .fleet (.requeueWrite 0),
       .fleet (.pick .codingExecutor { workerId := "B", now := 9 })]).queue
    (∀ k r, q.get k = some r →
        (r.isActive → r.pickedBy.isSome ∧ r.pickedUntil.isSome)
          ∧ (r.state = .queued → r.pickedBy = none ∧ r.pickedUntil = none))
      ∧ ∀ now, (∀ k r t, q.get k = some r → r.pickedUntil = some t → t ≤ now) →
        ∀ k r, (q.reapExpiredLeases now).2.get k = some r → ¬r.isActive :=
  no_stranded_row _ (by simp)

end System

end ForgeKit
