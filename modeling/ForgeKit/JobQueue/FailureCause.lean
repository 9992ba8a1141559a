import ForgeKit.JobQueue.StatePaths

/-!
# Which failure a recovery sweep revives

`result_json` is merged by every write and never reset, and the sweep reads `reason` before
`error`. So a failure that writes `error` only, as the reaper does, hides behind the `reason` of
an earlier one.

`FailureLog` is the system together with what the last failure of each job wrote.

* `CauseInv` — a row that reads as a missing checkout was last failed by one
* `revivals_for_cause` — no sweep revives another failure, in every run in which no failure hides
  and no row fails anew between the query of a sweep and its write
-/

namespace ForgeKit

open JobQueue

/-- The test that `recover_target_repo_missing_rows` makes on the result of a row. -/
def readsCheckoutMissing (result : Dict Json) : Bool :=
  PyText.startsWith (Recovery.failureReason result) Recovery.targetRepoMissingReasonPrefix

theorem readsCheckoutMissing_job (args : EnqueueArgs) :
    readsCheckoutMissing args.job.result = false := by
  have hnil : readsCheckoutMissing [] = false := by decide +kernel
  exact hnil

/-- What the reaper writes about a row it takes back. -/
def leaseExpiredResult (now : Time) (r : Job) : Dict Json :=
  [("error", .str "lease_expired"),
   ("reaped_at", .float now),
   ("previous_picked_by", (r.pickedBy.map Json.str).getD .null),
   ("previous_picked_until", (r.pickedUntil.map Json.float).getD .null),
   ("previous_state", .str r.state.value)]

theorem reap_result (now : Time) (r : Job) :
    (reap now r).result = r.result.update (leaseExpiredResult now r) := rfl

/-- The two states of a failed row. -/
def failedStates : List JobState := [.failedRetryable, .failedTerminal]

namespace System

/--
What an action that fails the row writes about it. When `requeue_retryable` escalates a row it
writes nothing: the failure is still the one that made the row retryable.
-/
def failure? (s : System) (a : SystemAction) (r : Job) : Option (Dict Json) :=
  match a with
  | .fleet (.reapExpiredLeases now) =>
    if reapable now r then some (leaseExpiredResult now r) else none
  | .fleet b => (s.fleet.call? b).bind fun c =>
    if c.moves r = true ∧ c.target ∈ failedStates then c.result else none
  | _ => none

/-- The workers, the producers, the maintenance methods and the sweeps. -/
def OwnWriter : SystemAction → Prop
  | .fleet _ | .codingRead _ | .codingInsert .. | .sweepRead .. | .sweepWrite .. => True
  | _ => False

/-! ## What a step does to a result -/

theorem failureReason_withRevival {now : Time} {note result result' : Dict Json}
    (h : Recovery.withRevival now note result = some result') :
    Recovery.failureReason result' = Recovery.failureReason result := by
  unfold Recovery.withRevival at h
  split at h
  · cases h
    unfold Recovery.failureReason
    rw [Dict.getJson_set_ne _ _ (by decide), Dict.getJson_set_ne _ _ (by decide)]
  · cases h

theorem failureReason_reviveRewrite (jobId : String) (note : Dict Json) (now : Time) (r : Job) :
    Recovery.failureReason (Recovery.reviveRewrite jobId note now r).result
      = Recovery.failureReason r.result := by
  unfold Recovery.reviveRewrite
  split
  · next h =>
    simp only [Recovery.revives, Bool.and_eq_true, Option.isSome_iff_exists] at h
    obtain ⟨-, result, hres⟩ := h
    rw [hres]
    exact failureReason_withRevival hres
  · rfl

/-- The calls of the workers, and the pending ones when they have no result. -/
theorem call?_result {f : Fleet} (hreq : ∀ c ∈ f.requeues, c.result = none) {b : FleetAction}
    {c : TransitionArgs} (hc : f.call? b = some c) :
    c.result = none ∨ c.target ∈ failedStates ∨ c.target = .saved := by
  cases b with
  | start i now =>
    obtain ⟨t, -, hc⟩ := Option.bind_eq_some_iff.mp hc
    split at hc
    · cases hc; exact .inl rfl
    · cases hc
  | finish i o now =>
    obtain ⟨t, -, hc⟩ := Option.bind_eq_some_iff.mp hc
    split at hc
    · cases hc
      rcases o.target_cases with ht | ht | ht
      · exact .inr (.inr ht)
      · exact .inr (.inl (by simp [Outcome.call, ht, failedStates]))
      · exact .inr (.inl (by simp [Outcome.call, ht, failedStates]))
    · cases hc
  | requeueWrite i => exact .inl (hreq c (List.mem_of_getElem? hc))
  | _ => cases hc

theorem rewrite_of_call? {f : Fleet} {b : FleetAction} {c : TransitionArgs}
    (hc : f.call? b = some c) (r : Job) : f.rewrite b r = c.rewrite r := by
  cases b with
  | start i now => simp only [Fleet.rewrite, Fleet.callRewrite, hc]
  | finish i o now => simp only [Fleet.rewrite, Fleet.callRewrite, hc]
  | requeueWrite i => simp only [Fleet.rewrite, Fleet.callRewrite, hc]
  | _ => cases hc

/-- What a failure writes is merged into the result. -/
theorem result_of_failure {s : System} {a : SystemAction} {r : Job} {own : Dict Json}
    (h : s.failure? a r = some own) : (s.rewrite a r).result = r.result.update own := by
  have hcall : ∀ b, ((s.fleet.call? b).bind fun c =>
      if c.moves r = true ∧ c.target ∈ failedStates then c.result else none) = some own →
      (s.fleet.rewrite b r).result = r.result.update own := by
    intro b hb
    obtain ⟨c, hc, hown⟩ := Option.bind_eq_some_iff.mp hb
    split at hown
    · next hm =>
      rw [rewrite_of_call? hc, TransitionArgs.rewrite, if_pos hm.1]
      simp [TransitionArgs.apply, hown]
    · cases hown
  cases a with
  | fleet b =>
    cases b with
    | reapExpiredLeases now =>
      simp only [failure?] at h
      split at h
      · next hre =>
        cases h
        have hrw : s.rewrite (.fleet (.reapExpiredLeases now)) r = reap now r := by
          simp [rewrite, Fleet.rewrite, reapRewrite, hre]
        rw [hrw, reap_result]
      · cases h
    | _ => exact hcall _ h
  | _ => cases h

/-- Without a failure the row is saved, or the sweep reads it as before. -/
theorem reason_of_no_failure {s : System} (hreq : ∀ c ∈ s.fleet.requeues, c.result = none)
    {a : SystemAction} (ha : OwnWriter a) {r : Job} (h : s.failure? a r = none) :
    (s.rewrite a r).state = .saved
      ∨ Recovery.failureReason (s.rewrite a r).result = Recovery.failureReason r.result := by
  cases a with
  | fleet b =>
    have hch := Fleet.rowChange s.fleet b r
    have hrw : s.rewrite (.fleet b) r = s.fleet.rewrite b r := rfl
    rw [hrw]
    generalize s.fleet.rewrite b r = r' at hch
    cases hch with
    | same => exact .inr rfl
    | assigned hb hp => exact .inr rfl
    | renewed hb hacc => exact .inr rfl
    | reaped hb hre =>
      subst hb
      simp [failure?, hre] at h
    | @moved c hc hm =>
      have hnone : c.target ∈ failedStates → c.result = none := by
        intro hf
        cases b with
        | reapExpiredLeases now => cases hc
        | _ => simpa [failure?, hc, hm, hf] using h
      have hsame : c.result = none → (c.apply r).result = r.result := by
        intro hres
        simp [TransitionArgs.apply, hres]
      rcases call?_result hreq hc with hres | hf | hsaved
      · exact .inr (by rw [hsame hres])
      · exact .inr (by rw [hsame (hnone hf)])
      · exact .inl hsaved
  | sweepWrite i resolver now =>
    simp only [rewrite]
    cases s.revival? (.sweepWrite i resolver now) with
    | none => exact .inr rfl
    | some p => exact .inr (failureReason_reviveRewrite _ _ _ _)
  | codingRead args => exact .inr rfl
  | codingInsert i jobId now => exact .inr rfl
  | sweepRead kind enabled n => exact .inr rfl
  | _ => cases ha

/-- These writers leave a saved row saved. -/
theorem saved_stays {s : System} {a : SystemAction} (ha : OwnWriter a) {k : String} {r : Job}
    (hr : s.queue.get k = some r) (hst : r.state = .saved) : (s.rewrite a r).state = .saved := by
  cases a with
  | fleet b =>
    have hstep : StateStep (.fleet b) r (s.rewrite (.fleet b) r).state :=
      stateStep_fleet hr (Fleet.rowChange s.fleet b r)
    generalize (s.rewrite (.fleet b) r).state = state at hstep
    cases hstep with
    | stays h => rw [h, hst]
    | edge h => exact absurd h (not_edge_of_closed (.inl hst))
    | revived h => cases h
    | superseded h => cases h
  | sweepWrite i resolver now =>
    simp only [rewrite]
    split
    · exact hst
    · simp [Recovery.reviveRewrite, Recovery.revives, hst]
  | codingRead args => exact hst
  | codingInsert i jobId now => exact hst
  | sweepRead kind enabled n => exact hst
  | _ => cases ha

/-- `requeue_retryable` passes no result. -/
theorem requeues_result_step {s : System} (hreq : ∀ c ∈ s.fleet.requeues, c.result = none)
    {a : SystemAction} (ha : OwnWriter a) : ∀ c ∈ (s.step a).fleet.requeues, c.result = none := by
  have hfleet : ∀ b, ∀ c ∈ (s.fleet.step b).requeues, c.result = none := by
    intro b c hc
    rcases Fleet.mem_requeues_step hc with hc | ⟨jobId, backoff, now, hok⟩
    · exact hreq c hc
    · exact (requeueRead_ok hok).2.2.1
  cases a with
  | fleet b => exact hfleet b
  | codingRead args =>
    simp only [step]
    split <;> exact hreq
  | codingInsert i jobId now =>
    simp only [step]
    split
    · exact hreq
    · exact hfleet _
  | sweepRead kind enabled n => exact hreq
  | sweepWrite i resolver now =>
    simp only [step, sweepRequeue]
    split
    · exact hreq
    · split
      · exact hfleet _
      · exact hreq
  | _ => cases ha

end System

/-! ## The history of failures -/

/-- The system, with what the last failure of each job wrote. History: no code reads it. -/
structure FailureLog where
  system : System
  lastFailure : String → Option (Dict Json)
  /-- For each pending call of `requeue_retryable`: the target-repo sweep made it. -/
  fromSweep : List Bool

namespace FailureLog

/-- An empty database. -/
def empty : FailureLog := ⟨System.empty, fun _ => none, []⟩

/-- The action is a write of the target-repo sweep. -/
def sweepsTargetRepo (s : FailureLog) : SystemAction → Bool
  | .sweepWrite i _ _ => (s.system.sweeps[i]?).any fun p => p.1 == .targetRepoMissing
  | _ => false

/-- One transaction, and what it adds to the history. -/
def step (s : FailureLog) (a : SystemAction) : FailureLog where
  system := s.system.step a
  lastFailure k := ((s.system.queue.get k).bind (s.system.failure? a)).or (s.lastFailure k)
  fromSweep :=
    match a with
    | .fleet (.requeueWrite i) => s.fromSweep.eraseIdx i
    | a => s.fromSweep ++ List.replicate
        ((s.system.step a).fleet.requeues.length - s.system.fleet.requeues.length)
        (s.sweepsTargetRepo a)

/--
`recover_target_repo_missing_rows` revives the row: by its own update, or by the second half of
the `requeue_retryable` call it made.
-/
def revives (s : FailureLog) (a : SystemAction) (r : Job) : Bool :=
  match a with
  | .fleet (.requeueWrite i) =>
    s.fromSweep[i]? == some true
      && (s.system.fleet.call? (.requeueWrite i)).any fun c =>
        c.target == .queued && c.moves r
  | a =>
    s.sweepsTargetRepo a
      && (s.system.revival? a).any fun (jobId, note, now) => Recovery.revives jobId note now r

/-- A row that the action revives was last failed by a missing checkout. -/
def RevivesForCause (s : FailureLog) (a : SystemAction) : Prop :=
  ∀ k r, s.system.queue.get k = some r → s.revives a r = true →
    ∃ own, s.lastFailure k = some own ∧ readsCheckoutMissing own = true

/-- What the claim needs of one step. -/
structure CauseGuard (s : FailureLog) (a : SystemAction) : Prop where
  /-- A failure does not hide behind the reason of an earlier one. -/
  noShadow : ∀ k r own, s.system.queue.get k = some r → s.system.failure? a r = some own →
    readsCheckoutMissing (r.result.update own) = true → readsCheckoutMissing own = true
  /-- A row that the action revives still reads as it did in the query of the sweep. -/
  noRace : ∀ k r, s.system.queue.get k = some r → s.revives a r = true →
    readsCheckoutMissing r.result = true

/-- The guard, on one row. -/
def guardsRow (s : FailureLog) (a : SystemAction) (r : Job) : Bool :=
  (s.system.failure? a r).all (fun own =>
      !readsCheckoutMissing (r.result.update own) || readsCheckoutMissing own)
    && (!s.revives a r || readsCheckoutMissing r.result)

theorem causeGuard_iff {s : FailureLog} {a : SystemAction} :
    CauseGuard s a ↔ ∀ r ∈ s.system.queue.jobs.rows, s.guardsRow a r = true := by
  simp only [guardsRow, Bool.and_eq_true, Option.all_eq_true, Bool.or_eq_true,
    Bool.not_eq_true', ← Bool.not_eq_true, imp_iff_not_or.symm]
  constructor
  · intro h r hr
    exact ⟨fun own => h.noShadow _ r own (get_of_mem hr), h.noRace _ r (get_of_mem hr)⟩
  · intro h
    exact ⟨fun k r own hr => (h r (Table.mem_of_find? hr)).1 own,
      fun k r hr => (h r (Table.mem_of_find? hr)).2⟩

instance (s : FailureLog) (a : SystemAction) : Decidable (CauseGuard s a) :=
  decidable_of_iff _ causeGuard_iff.symm

/-- The results of the rows against the history. -/
structure CauseInv (s : FailureLog) : Prop where
  causes : ∀ k r, s.system.queue.get k = some r → r.state ≠ .saved →
    readsCheckoutMissing r.result = true →
    ∃ own, s.lastFailure k = some own ∧ readsCheckoutMissing own = true
  requeues : ∀ c ∈ s.system.fleet.requeues, c.result = none

theorem causeInv_empty : CauseInv empty where
  causes := by intro k r h; cases h
  requeues := by intro c h; cases h

/-- A row that a sweep revives is not saved. -/
theorem revives_state {s : FailureLog} {a : SystemAction} {r : Job} (h : s.revives a r = true) :
    r.state ≠ .saved := by
  have hrevival : ∀ b, ((s.system.revival? b).any fun (jobId, note, now) =>
      Recovery.revives jobId note now r) = true → r.state ≠ .saved := by
    intro b hb
    simp only [Option.any_eq_true] at hb
    obtain ⟨⟨jobId, note, now⟩, -, hr⟩ := hb
    rw [(System.revives_state hr).2]
    decide
  have hmoves : ∀ c : TransitionArgs, c.moves r = true → r.state ≠ .saved := by
    intro c hm hst
    have hedge := (TransitionArgs.moves_iff.mp hm).2
    rw [hst] at hedge
    cases hedge
  unfold revives at h
  split at h
  · simp only [Bool.and_eq_true, Option.any_eq_true] at h
    obtain ⟨-, c, -, -, hm⟩ := h
    exact hmoves c hm
  · exact hrevival _ (Bool.and_eq_true_iff.mp h).2

/-- **One step keeps the invariant, unless a failure hides.** -/
theorem causeInv_step {s : FailureLog} (hinv : CauseInv s) {a : SystemAction}
    (ha : System.OwnWriter a) (hg : CauseGuard s a) : CauseInv (s.step a) where
  causes := by
    intro k r' hr' hst' hreads
    rcases System.get_step s.system a hr' with ⟨r, hr, rfl⟩ | ⟨args, -, -, -, rfl, -⟩
    · have hlast : (s.step a).lastFailure k
          = (s.system.failure? a r).or (s.lastFailure k) := by
        simp only [step, hr, Option.bind_some]
      rw [hlast]
      cases hf : s.system.failure? a r with
      | some own =>
        rw [System.result_of_failure hf] at hreads
        exact ⟨own, rfl, hg.noShadow k r own hr hf hreads⟩
      | none =>
        rw [Option.none_or]
        rcases System.reason_of_no_failure hinv.requeues ha hf with hsaved | hsame
        · exact absurd hsaved hst'
        · have hst : r.state ≠ .saved := fun hst => hst' (System.saved_stays ha hr hst)
          have hreads' : readsCheckoutMissing r.result = true := by
            unfold readsCheckoutMissing at hreads ⊢
            rw [← hsame]
            exact hreads
          exact hinv.causes k r hr hst hreads'
    · exact absurd hreads (by rw [readsCheckoutMissing_job]; decide)
  requeues := System.requeues_result_step hinv.requeues ha

/-! ## Along a run -/

/--
**When a sweep revives for the current cause.**

Workers, producers, the reaper, `requeue_retryable` and the sweeps, in any order: if no failure
hides behind the reason of an earlier one, and a row that the sweep revives still reads as it
did in its query, then each row that `recover_target_repo_missing_rows` revives was last failed
by a missing checkout.
-/
theorem revivals_for_cause (as : List SystemAction) (has : ∀ a ∈ as, System.OwnWriter a)
    (hg : Machine.EachStep step CauseGuard empty as) :
    Machine.EachStep step RevivesForCause empty as :=
  Machine.eachStep_of_guard (A := System.OwnWriter) (I := CauseInv)
    (fun _ _ ha hinv hg => causeInv_step hinv ha hg)
    (fun _ _ _ hinv hg k r hr hrev =>
      hinv.causes k r hr (revives_state hrev) (hg.noRace k r hr hrev))
    causeInv_empty has hg

/-- A checkout that was missing appears, and the sweep puts the job back. -/
theorem revivals_for_cause_checkout :
    Machine.EachStep step RevivesForCause empty
      [.fleet (.enqueue { jobId := "job", sessionId := "session", jobType := "coding_execute",
                          payload := [("repo_full_name", .str "owner/repo")], now := 0 }),
       .fleet (.pick .codingExecutor { workerId := "A", now := 1 }),
       .fleet (.start 0 1),
       .fleet (.finish 0 (.codingFail false "target_repo_checkout_missing" none none) 2),
       .sweepRead .targetRepoMissing true 50,
       .sweepWrite 0 (fun _ => some "/srv/repo") 3,
       .fleet (.requeueWrite 0)] :=
  revivals_for_cause _ (by simp [System.OwnWriter]) (by decide +kernel)

/-- A job whose checkout was missing once is picked again, and its lease expires. -/
def staleReasonRun : List SystemAction :=
  [.fleet (.enqueue { jobId := "job", sessionId := "session", jobType := "coding_execute",
                      payload := [("repo_full_name", .str "owner/repo")], now := 0 }),
   .fleet (.pick .codingExecutor { workerId := "A", now := 1 }),
   .fleet (.start 0 1),
   .fleet (.finish 0 (.codingFail false "target_repo_checkout_missing" none none) 2),
   .sweepRead .targetRepoMissing true 50,
   .sweepWrite 0 (fun _ => some "/srv/repo") 3,
   .fleet (.requeueWrite 0),
   .fleet (.pick .codingExecutor { workerId := "B", now := 9 }),
   .fleet (.start 1 9),
   .fleet (.reapExpiredLeases 100),
   .sweepRead .targetRepoMissing true 50,
   .sweepWrite 0 (fun _ => some "/srv/repo") 101]

/-- The sweep revives the job although its last failure was the expired lease. -/
theorem not_revivesForCause_staleReason :
    ¬Machine.EachStep step RevivesForCause empty
      (staleReasonRun ++ [.fleet (.requeueWrite 0)]) := by
  intro h
  have hlast := (Machine.eachStep_append.mp h).2.1
  have hrow : ((Machine.run step empty staleReasonRun).system.queue.get "job").map
      ((Machine.run step empty staleReasonRun).revives (.fleet (.requeueWrite 0)))
        = some true := by decide +kernel
  have hcause : ((Machine.run step empty staleReasonRun).lastFailure "job").map
      readsCheckoutMissing = some false := by decide +kernel
  obtain ⟨r, hr, hrev⟩ := Option.map_eq_some_iff.mp hrow
  obtain ⟨own, hown, hreads⟩ := hlast "job" r hr hrev
  rw [hown, Option.map_some, hreads] at hcause
  cases hcause

end FailureLog

end ForgeKit
