import ForgeKit.JobQueue.System

/-!
# The paths that job states take

`validate_transition` guards `pick`, `transition` and the reaper, whoever calls them. The two
writers of `RawWrites` leave the table on purpose, each along one edge of its own and only on
one kind of row:

* `failed_terminal` to `queued`, by a recovery sweep, on a `coding_execute` row
* `saved` to `failed_terminal`, by a supersede, on a merge card

`state_paths` says that there is no third way. The supersede does not look at the state it
overwrites; that it only ever overwrites `saved` or `failed_terminal` is the invariant here.
-/

namespace ForgeKit

open JobQueue

namespace System

/-- One row along one step: the state stays, or takes an edge of the table or one of two others. -/
inductive StateStep (a : SystemAction) (r : Job) : JobState → Prop where
  | stays {target : JobState} (h : target = r.state) : StateStep a r target
  | edge {target : JobState} (h : JobState.Edge r.state target) : StateStep a r target
  | revived {i : Nat} {resolver : String → Option String} {now : Time}
      (ha : a = .sweepWrite i resolver now) (hst : r.state = .failedTerminal)
      (hty : r.jobType = jobTypeCodingExecute) : StateStep a r .queued
  | superseded {i : Nat} {supersededAt : String} (ha : a = .supersedeWrite i supersededAt)
      (hst : r.state = .saved) (hcard : Supersede.isPrMergeCard r = true) :
      StateStep a r .failedTerminal

/-- Every row that is there before a step takes a `StateStep`. -/
def FollowsTable (s : System) (a : SystemAction) : Prop :=
  ∀ k r r', s.queue.get k = some r → (s.step a).queue.get k = some r' → StateStep a r r'.state

/-- Every change is an edge of the table: the law without the two exceptions. -/
def FollowsTableOnly (s : System) (a : SystemAction) : Prop :=
  ∀ k r r', s.queue.get k = some r → (s.step a).queue.get k = some r' →
    r'.state = r.state ∨ JobState.Edge r.state r'.state

/-! ## What waits between a read and its write -/

/-- A row that a supersede may overwrite: a merge card that is over. -/
def ClosedCard (q : JobQueue) (id : String) : Prop :=
  ∃ r, q.get id = some r ∧ Supersede.isPrMergeCard r = true
    ∧ (r.state = .saved ∨ r.state = .failedTerminal)

/-- The rows behind the pending sweeps and supersedes. -/
structure PendingInv (s : System) : Prop where
  sweeps : ∀ p ∈ s.sweeps, ∃ r, s.queue.get p.2.jobId = some r ∧ r.jobType = jobTypeCodingExecute
  supersedes : ∀ p ∈ s.supersedes, ∀ id ∈ p.ids, ClosedCard s.queue id

theorem pendingInv_empty : PendingInv empty where
  sweeps := by intro p h; cases h
  supersedes := by intro p h; cases h

theorem mem_sweeps_step {s : System} {a : SystemAction}
    {p : Recovery.SweepKind × Recovery.SweepRow} (h : p ∈ (s.step a).sweeps) :
    p ∈ s.sweeps ∨ ∃ enabled n, p.2 ∈ Recovery.sweepRows s.queue p.1 enabled n := by
  cases a with
  | sweepRead kind enabled n =>
    rcases List.mem_append.mp h with h | h
    · exact .inl h
    · obtain ⟨row, hrow, rfl⟩ := List.mem_map.mp h
      exact .inr ⟨enabled, n, hrow⟩
  | sweepWrite i resolver now => exact .inl (List.mem_of_mem_eraseIdx h)
  | codingRead args =>
    simp only [step] at h
    split at h <;> exact .inl h
  | codingInsert i jobId now =>
    simp only [step] at h
    split at h <;> exact .inl h
  | supersedeWrite i supersededAt =>
    simp only [step] at h
    split at h <;> exact .inl h
  | _ => exact .inl h

theorem mem_supersedes_step {s : System} {a : SystemAction} {p : PendingSupersede}
    (h : p ∈ (s.step a).supersedes) :
    p ∈ s.supersedes ∨ ∃ sessionId, p.ids = Supersede.targets s.queue sessionId p.keepJobId := by
  cases a with
  | supersedeRead sessionId keep =>
    rcases List.mem_append.mp h with h | h
    · exact .inl h
    · rw [List.mem_singleton.mp h]
      exact .inr ⟨sessionId, rfl⟩
  | supersedeWrite i supersededAt =>
    simp only [step] at h
    split at h
    · exact .inl h
    · exact .inl (List.mem_of_mem_eraseIdx h)
  | codingRead args =>
    simp only [step] at h
    split at h <;> exact .inl h
  | codingInsert i jobId now =>
    simp only [step] at h
    split at h <;> exact .inl h
  | _ => exact .inl h

/-- A revive by a sweep is about a `coding_execute` row. -/
theorem revived_coding {s : System} (hp : PendingInv s) {a : SystemAction}
    (ha : ∀ jobId note now, a ≠ .revive jobId note now) {jobId : String} {note : Dict Json}
    {now : Time} (hv : s.revival? a = some (jobId, note, now)) {r : Job}
    (hr : s.queue.get jobId = some r) :
    r.jobType = jobTypeCodingExecute ∧ ∃ i resolver, a = .sweepWrite i resolver now := by
  cases a with
  | revive id n t => exact absurd rfl (ha id n t)
  | sweepWrite i resolver t =>
    obtain ⟨p, hi, hrow⟩ := Option.bind_eq_some_iff.mp hv
    simp only at hrow
    split at hrow
    · cases hrow
    · obtain ⟨n, -, heq⟩ := Option.map_eq_some_iff.mp hrow
      cases heq
      obtain ⟨r', hr', hty⟩ := hp.sweeps p (List.mem_of_getElem? hi)
      rw [hr] at hr'
      cases hr'
      exact ⟨hty, i, resolver, rfl⟩
  | _ => cases hv

/-! ## One step -/

theorem not_edge_of_closed {state target : JobState}
    (h : state = .saved ∨ state = .failedTerminal) : ¬JobState.Edge state target :=
  JobState.isTerminal_iff_no_edge.mp (JobState.isTerminal_iff.mpr h) target

theorem stateStep_fleet {f : Fleet} {b : FleetAction} {a : SystemAction} {k : String} {r r' : Job}
    (hr : f.queue.get k = some r) (hch : Fleet.RowChange f b r r') : StateStep a r r'.state := by
  have hid := get_jobId hr
  cases hch with
  | same => exact .stays rfl
  | assigned ha hp =>
    have hst : r.state = .queued := picks_spec (hid ▸ hr) hp
    exact .edge (by simp [assign, hst, JobState.Edge, JobState.stateTransitions])
  | moved hc hm => exact .edge (TransitionArgs.moves_iff.mp hm).2
  | renewed ha hacc => exact .stays rfl
  | reaped ha hre =>
    refine .edge ?_
    simp only [reapable, Bool.and_eq_true, decide_eq_true_eq] at hre
    exact hre.2

/-- **One step of any writer is a `StateStep` on every row.** -/
theorem followsTable_of_pendingInv {s : System} (hp : PendingInv s) {a : SystemAction}
    (ha : ∀ jobId note now, a ≠ .revive jobId note now) : FollowsTable s a := by
  intro k r r' hr hr'
  rw [get_step_of_some s a hr] at hr'
  obtain rfl := Option.some.inj hr'
  have hid := get_jobId hr
  have hch := systemChange s a r
  generalize s.rewrite a r = r' at hch ⊢
  cases hch with
  | same => exact .stays rfl
  | fleet hb hch => exact stateStep_fleet hr hch
  | transitioned hc hm => exact .edge (TransitionArgs.moves_iff.mp hm).2
  | revived hv hre =>
    obtain ⟨hjob, hst⟩ := revives_state hre
    obtain ⟨hty, i, resolver, hact⟩ := revived_coding hp ha hv (hjob ▸ hid ▸ hr)
    exact .revived hact hst hty
  | superseded hact hpend hmem =>
    obtain ⟨r₀, hr₀, hcard, hst⟩ := hp.supersedes _ (List.mem_of_getElem? hpend) _ hmem
    rw [hid, hr] at hr₀
    cases hr₀
    rcases hst with hst | hst
    · exact .superseded hact hst hcard
    · exact .stays hst.symm

/-- A merge card that is over stays over: sweeps revive `coding_execute` rows only. -/
theorem closedCard_step {s : System} (hp : PendingInv s) {a : SystemAction}
    (ha : ∀ jobId note now, a ≠ .revive jobId note now) {id : String} (h : ClosedCard s.queue id) :
    ClosedCard (s.step a).queue id := by
  obtain ⟨r, hr, hcard, hst⟩ := h
  refine ⟨_, get_step_of_some s a hr, ?_, ?_⟩
  · obtain ⟨-, -, hty, hpay⟩ := (systemChange s a r).identity
    rw [Supersede.isPrMergeCard, hty, hpay]
    exact hcard
  · have hstep := followsTable_of_pendingInv hp ha _ _ _ hr (get_step_of_some s a hr)
    generalize (s.rewrite a r).state = target at hstep ⊢
    cases hstep with
    | stays h => rw [h]; exact hst
    | edge he => exact absurd he (not_edge_of_closed hst)
    | revived hact hst' hty =>
      simp [Supersede.isPrMergeCard, hty, jobTypeCodingExecute, Supersede.jobTypeApprovalPost]
        at hcard
    | superseded hact hst' hcard' => exact .inr rfl

theorem pendingInv_step {s : System} (hp : PendingInv s) {a : SystemAction}
    (ha : ∀ jobId note now, a ≠ .revive jobId note now) : PendingInv (s.step a) := by
  have hkeep : ∀ {id : String}, (∃ r, s.queue.get id = some r ∧ r.jobType = jobTypeCodingExecute) →
      ∃ r, (s.step a).queue.get id = some r ∧ r.jobType = jobTypeCodingExecute := by
    rintro id ⟨r, hr, hty⟩
    exact ⟨_, get_step_of_some s a hr, by rw [(systemChange s a r).identity.2.2.1, hty]⟩
  refine ⟨fun p hmem => ?_, fun p hmem id hid => ?_⟩
  · rcases mem_sweeps_step hmem with h | ⟨enabled, n, h⟩
    · exact hkeep (hp.sweeps p h)
    · exact hkeep (Recovery.mem_sweepRows h)
  · rcases mem_supersedes_step hmem with h | ⟨sessionId, h⟩
    · exact closedCard_step hp ha (hp.supersedes p h id hid)
    · rw [h] at hid
      obtain ⟨r, hr, hcard, hst⟩ := Supersede.mem_targets hid
      exact closedCard_step hp ha ⟨r, hr, hcard, .inl hst⟩

/-! ## Along a run -/

/--
**The paths that job states take.**

In every run of all writers from an empty database, foreign `transition` calls included, each
change of a row's state is an edge of the table, the revive of a `failed_terminal`
`coding_execute` row by a sweep, or the supersede of a `saved` merge card.
-/
theorem state_paths (as : List SystemAction)
    (has : ∀ a ∈ as, ∀ jobId note now, a ≠ .revive jobId note now) :
    Machine.EachStep step FollowsTable empty as :=
  Machine.eachStep_of_step (A := fun a => ∀ jobId note now, a ≠ SystemAction.revive jobId note now)
    (fun _ _ ha hp => pendingInv_step hp ha) (fun _ _ ha hp => followsTable_of_pendingInv hp ha)
    pendingInv_empty has

/-- A merge card is posted, and later superseded. -/
def supersededCardRun : List SystemAction :=
  [.fleet (.enqueue { jobId := "card", sessionId := "session", jobType := "approval_post",
                      payload := [("approval_kind", .str "pr_merge")], now := 0 }),
   .fleet (.pick .approval { workerId := "A", jobTypes := ["approval_post"], now := 1 }),
   .fleet (.start 0 1),
   .fleet (.finish 0 (.approvalSaved 7 []) 2),
   .supersedeRead "session" none]

theorem state_paths_supersededCard :
    Machine.EachStep step FollowsTable empty
      (supersededCardRun ++ [.supersedeWrite 0 "2026-01-01T00:00:00+00:00"]) :=
  state_paths _ (by simp [supersededCardRun])

/-- The card goes from `saved` to `failed_terminal`. -/
theorem not_followsTableOnly_supersededCard :
    ¬Machine.EachStep step FollowsTableOnly empty
      (supersededCardRun ++ [.supersedeWrite 0 "2026-01-01T00:00:00+00:00"]) := by
  intro h
  have hlast := (Machine.eachStep_append.mp h).2.1
  have hbefore : ((Machine.run step empty supersededCardRun).queue.get "card").map Job.state
      = some .saved := by decide +kernel
  have hafter : (((Machine.run step empty supersededCardRun).step
      (.supersedeWrite 0 "2026-01-01T00:00:00+00:00")).queue.get "card").map Job.state
      = some .failedTerminal := by decide +kernel
  obtain ⟨r, hr, hst⟩ := Option.map_eq_some_iff.mp hbefore
  obtain ⟨r', hr', hst'⟩ := Option.map_eq_some_iff.mp hafter
  have hlaw := hlast "card" r r' hr hr'
  rw [hst, hst'] at hlaw
  revert hlaw
  decide

end System

end ForgeKit
