import ForgeKit.JobQueue.Fleet
import ForgeKit.JobQueue.RawWrites

/-!
# Everything that writes the queue

A `System` is the fleet together with the other processes that write job rows: producers of
coding jobs between `find_active` and their insert, recovery sweeps between their query and
each row, supersedes between their scan and their update. As in `Fleet`, one action is one
transaction.

* `get_step` — what a step does to one row, as in `Fleet`
* `SystemChange` — the ways a row can change, with the check that let the change through
* `fleetInv_step` — all of them but a foreign `transition` keep `Fleet.Inv`
-/

namespace ForgeKit

open JobQueue

/-- A supersede between its scan and its update. -/
structure PendingSupersede where
  ids : List String
  keepJobId : Option String

/-- The queue, its workers, and everybody between a read and the write that follows it. -/
structure System where
  fleet : Fleet
  /-- Producers whose `find_active` returned nothing. -/
  inserts : List CodingExecutorWorker.EnqueueArgs
  /-- Rows that sweeps have read and not handled yet. -/
  sweeps : List (Recovery.SweepKind × Recovery.SweepRow)
  supersedes : List PendingSupersede

/-- One transaction, by whoever issues it. -/
inductive SystemAction where
  | fleet (a : FleetAction)
  /-- `transition`, called by other code than a worker or `requeue_retryable`. -/
  | transition (c : TransitionArgs)
  | codingRead (a : CodingExecutorWorker.EnqueueArgs)
  | codingInsert (i : Nat) (jobId : String) (now : Time)
  | sweepRead (kind : Recovery.SweepKind) (capabilityEnabled : Bool) (maxPerRun : Int)
  | sweepWrite (i : Nat) (resolver : String → Option String) (now : Time)
  /-- `_revive_failed_terminal_row`, called on a row that no sweep has selected. -/
  | revive (jobId : String) (note : Dict Json) (now : Time)
  | supersedeRead (sessionId : String) (keepJobId : Option String)
  | supersedeWrite (i : Nat) (supersededAt : String)

namespace System

/-- An empty database. -/
def empty : System := ⟨Fleet.empty, [], [], []⟩

/-- The tables. -/
def queue (s : System) : JobQueue := s.fleet.queue

/-- The same system over other tables. -/
def withQueue (s : System) (q : JobQueue) : System :=
  { s with fleet := { s.fleet with queue := q } }

@[simp] theorem withQueue_queue (s : System) (q : JobQueue) : (s.withQueue q).queue = q := rfl

@[simp] theorem withQueue_inserts (s : System) (q : JobQueue) :
    (s.withQueue q).inserts = s.inserts := rfl

@[simp] theorem withQueue_sweeps (s : System) (q : JobQueue) :
    (s.withQueue q).sweeps = s.sweeps := rfl

@[simp] theorem withQueue_supersedes (s : System) (q : JobQueue) :
    (s.withQueue q).supersedes = s.supersedes := rfl

/-- The revive that an action asks for: the row and the note. -/
def revival? (s : System) : SystemAction → Option (String × Dict Json × Time)
  | .revive jobId note now => some (jobId, note, now)
  | .sweepWrite i resolver now => (s.sweeps[i]?).bind fun (kind, row) =>
    if row.state = .failedRetryable then none
    else (Recovery.reviveNote kind resolver row).map fun note => (row.jobId, note, now)
  | _ => none

/-- The queue after the action's revive. -/
def queueAfterRevive (s : System) (a : SystemAction) : JobQueue :=
  match s.revival? a with
  | none => s.queue
  | some (jobId, note, now) =>
    s.queue.commit (Recovery.reviveFailedTerminalRow s.queue jobId note now)

/-- The first half of the `requeue_retryable` call of a sweep, on a `failed_retryable` row. -/
def sweepRequeue (s : System) (i : Nat) (resolver : String → Option String) (now : Time) : Fleet :=
  match s.sweeps[i]? with
  | none => s.fleet
  | some (kind, row) =>
    if row.state = .failedRetryable ∧ (Recovery.reviveNote kind resolver row).isSome then
      s.fleet.step (.requeueRead row.jobId 5 now)
    else s.fleet

/-- One transaction. -/
def step (s : System) : SystemAction → System
  | .fleet a => { s with fleet := s.fleet.step a }
  | .transition c => s.withQueue (s.queue.commit (s.queue.transition c))
  | .codingRead a =>
    match CodingExecutorWorker.enqueueRead s.queue a with
    | .ok none => { s with inserts := s.inserts ++ [a] }
    | _ => s
  | .codingInsert i jobId now =>
    match s.inserts[i]? with
    | none => s
    | some a =>
      { s with
        fleet := s.fleet.step (.enqueue (a.insert jobId now))
        inserts := s.inserts.eraseIdx i }
  | .sweepRead kind capabilityEnabled maxPerRun =>
    { s with
      sweeps := s.sweeps
        ++ (Recovery.sweepRows s.queue kind capabilityEnabled maxPerRun).map fun r => (kind, r) }
  | .sweepWrite i resolver now =>
    { s with
      fleet := { s.sweepRequeue i resolver now with
        queue := s.queueAfterRevive (.sweepWrite i resolver now) }
      sweeps := s.sweeps.eraseIdx i }
  | .revive jobId note now => s.withQueue (s.queueAfterRevive (.revive jobId note now))
  | .supersedeRead sessionId keepJobId =>
    { s with
      supersedes := s.supersedes
        ++ [⟨Supersede.targets s.queue sessionId keepJobId, keepJobId⟩] }
  | .supersedeWrite i supersededAt =>
    match s.supersedes[i]? with
    | none => s
    | some p =>
      { s.withQueue (Supersede.write s.queue p.ids p.keepJobId supersededAt) with
        supersedes := s.supersedes.eraseIdx i }

/-! ## What a step does to the rows -/

/-- What an action makes of a row that is already there. -/
def rewrite (s : System) (a : SystemAction) (r : Job) : Job :=
  match a with
  | .fleet a => s.fleet.rewrite a r
  | .transition c => c.rewrite r
  | .supersedeWrite i supersededAt =>
    match s.supersedes[i]? with
    | none => r
    | some p => Supersede.supersedeRewrite p.ids p.keepJobId supersededAt r
  | a =>
    match s.revival? a with
    | none => r
    | some (jobId, note, now) => Recovery.reviveRewrite jobId note now r

/-- The row that an action may insert. -/
def inserts? (s : System) : SystemAction → Option JobQueue.EnqueueArgs
  | .fleet (.enqueue args) => some args
  | .codingInsert i jobId now => (s.inserts[i]?).map fun a => a.insert jobId now
  | _ => none

theorem get_queueAfterRevive (s : System) (a : SystemAction) (k : String) :
    (s.queueAfterRevive a).get k
      = (s.queue.get k).map fun r => match s.revival? a with
        | none => r
        | some (jobId, note, now) => Recovery.reviveRewrite jobId note now r := by
  unfold queueAfterRevive
  cases hr : s.revival? a with
  | none => simp
  | some p => exact Recovery.get_commit_revive _ _ _ _ _

/-- A step that inserts nothing rewrites the rows in place. -/
theorem get_step_of_inserts?_none {s : System} {a : SystemAction} (h : s.inserts? a = none)
    (k : String) : (s.step a).queue.get k = (s.queue.get k).map (s.rewrite a) := by
  have hid : (s.step a).queue = s.queue → s.rewrite a = id →
      (s.step a).queue.get k = (s.queue.get k).map (s.rewrite a) := by
    intro hq hrw
    rw [hq, hrw]; simp
  cases a with
  | fleet b =>
    refine Fleet.get_step_of_ne_enqueue s.fleet (fun args he => ?_) k
    rw [he] at h
    cases h
  | transition c => exact get_commit_transition _ _ _
  | codingRead args =>
    refine hid ?_ rfl
    simp only [step]
    split <;> rfl
  | codingInsert i jobId now =>
    have hi : s.inserts[i]? = none := by simpa [inserts?] using h
    exact hid (by simp [step, hi]) rfl
  | sweepRead kind enabled n => exact hid rfl rfl
  | sweepWrite i resolver now => exact get_queueAfterRevive s (.sweepWrite i resolver now) k
  | revive jobId note now => exact get_queueAfterRevive s (.revive jobId note now) k
  | supersedeRead sessionId keep => exact hid rfl rfl
  | supersedeWrite i supersededAt =>
    cases hi : s.supersedes[i]? with
    | none => exact hid (by simp [step, hi]) (by funext r; simp [rewrite, hi])
    | some p =>
      have hrw : s.rewrite (.supersedeWrite i supersededAt)
          = Supersede.supersedeRewrite p.ids p.keepJobId supersededAt := by
        funext r; simp [rewrite, hi]
      rw [hrw]
      simp only [step, hi]
      exact get_mapJobs _ _ _ _

/-- A step that inserts a row is an `enqueue`, and leaves the other rows as they are. -/
theorem step_of_inserts?_some {s : System} {a : SystemAction} {args : JobQueue.EnqueueArgs}
    (h : s.inserts? a = some args) :
    (s.step a).fleet = s.fleet.step (.enqueue args) ∧ s.rewrite a = id := by
  cases a with
  | fleet b =>
    cases b with
    | enqueue args' => cases h; exact ⟨rfl, rfl⟩
    | _ => cases h
  | codingInsert i jobId now =>
    obtain ⟨ins, hi, rfl⟩ := Option.map_eq_some_iff.mp h
    exact ⟨by simp [step, hi], rfl⟩
  | _ => cases h

/-- **What a step does to one row.** A row that is there is rewritten; a new row is fresh. -/
theorem get_step (s : System) (a : SystemAction) {k : String} {r' : Job}
    (h : (s.step a).queue.get k = some r') :
    (∃ r, s.queue.get k = some r ∧ r' = s.rewrite a r)
      ∨ ∃ args, s.inserts? a = some args ∧ k = args.jobId ∧ s.queue.get k = none
        ∧ r' = args.job ∧ s.queue.enqueue args = .ok (args.job, (s.step a).queue) := by
  cases hins : s.inserts? a with
  | none =>
    rw [get_step_of_inserts?_none hins] at h
    obtain ⟨r, hr, rfl⟩ := Option.map_eq_some_iff.mp h
    exact .inl ⟨r, hr, rfl⟩
  | some args =>
    obtain ⟨hfleet, hrw⟩ := step_of_inserts?_some hins
    have hq : (s.step a).queue = (s.fleet.step (.enqueue args)).queue := congrArg Fleet.queue hfleet
    rw [hq] at h ⊢
    rcases Fleet.get_step s.fleet _ h with ⟨r, hr, hr'⟩ | ⟨args', he, hk, hnone, hrow, hok⟩
    · exact .inl ⟨r, hr, by rw [hrw, hr']; rfl⟩
    · cases he
      exact .inr ⟨args, rfl, hk, hnone, hrow, hok⟩

/-- Rows are never deleted. -/
theorem get_step_of_some (s : System) (a : SystemAction) {k : String} {r : Job}
    (h : s.queue.get k = some r) : (s.step a).queue.get k = some (s.rewrite a r) := by
  cases hins : s.inserts? a with
  | none => rw [get_step_of_inserts?_none hins, h]; rfl
  | some args =>
    obtain ⟨hfleet, hrw⟩ := step_of_inserts?_some hins
    have hq : (s.step a).queue = (s.fleet.step (.enqueue args)).queue := congrArg Fleet.queue hfleet
    rw [hq, Fleet.get_step_of_some s.fleet (.enqueue args) h, hrw]
    rfl

/-- One row before and after a step, with the check that let the change through. -/
inductive SystemChange (s : System) (a : SystemAction) (r : Job) : Job → Prop where
  | same : SystemChange s a r r
  | fleet {b : FleetAction} {r' : Job} (ha : a = .fleet b) (hch : Fleet.RowChange s.fleet b r r') :
      SystemChange s a r r'
  | transitioned {c : TransitionArgs} (ha : a = .transition c) (hm : c.moves r = true) :
      SystemChange s a r (c.apply r)
  | revived {jobId : String} {note result : Dict Json} {now : Time}
      (hv : s.revival? a = some (jobId, note, now))
      (hr : Recovery.revives jobId note now r = true) :
      SystemChange s a r (Recovery.revive now result r)
  | superseded {i : Nat} {supersededAt : String} {p : PendingSupersede}
      (ha : a = .supersedeWrite i supersededAt) (hp : s.supersedes[i]? = some p)
      (hid : r.jobId ∈ p.ids) :
      SystemChange s a r (Supersede.supersede p.keepJobId supersededAt r)

theorem systemChange (s : System) (a : SystemAction) (r : Job) :
    SystemChange s a r (s.rewrite a r) := by
  have hrevive : ∀ b, a = b → SystemChange s a r (match s.revival? b with
      | none => r
      | some (jobId, note, now) => Recovery.reviveRewrite jobId note now r) := by
    rintro b rfl
    cases hv : s.revival? a with
    | none => exact .same
    | some p =>
      obtain ⟨jobId, note, now⟩ := p
      simp only [Recovery.reviveRewrite]
      split
      · next hr => exact .revived hv hr
      · exact .same
  cases a with
  | fleet b => exact .fleet rfl (Fleet.rowChange s.fleet b r)
  | transition c =>
    simp only [rewrite, TransitionArgs.rewrite]
    split
    · next hm => exact .transitioned rfl hm
    · exact .same
  | supersedeWrite i supersededAt =>
    simp only [rewrite]
    cases hp : s.supersedes[i]? with
    | none => exact .same
    | some p =>
      simp only [Supersede.supersedeRewrite]
      split
      · next hid => exact .superseded rfl hp hid
      · exact .same
  | sweepWrite i resolver now => exact hrevive _ rfl
  | revive jobId note now => exact hrevive _ rfl
  | codingRead args => exact .same
  | codingInsert i jobId now => exact .same
  | sweepRead kind enabled n => exact .same
  | supersedeRead sessionId keep => exact .same

/-! ## What all changes keep -/

/-- The columns that say what a job is about are written once. -/
theorem SystemChange.identity {s : System} {a : SystemAction} {r r' : Job}
    (h : SystemChange s a r r') :
    r'.jobId = r.jobId ∧ r'.sessionId = r.sessionId ∧ r'.jobType = r.jobType
      ∧ r'.payload = r.payload := by
  cases h with
  | fleet ha hch => cases hch <;> exact ⟨rfl, rfl, rfl, rfl⟩
  | _ => exact ⟨rfl, rfl, rfl, rfl⟩

theorem revives_state {jobId : String} {note : Dict Json} {now : Time} {r : Job}
    (h : Recovery.revives jobId note now r = true) :
    r.jobId = jobId ∧ r.state = .failedTerminal := by
  simp only [Recovery.revives, Bool.and_eq_true, beq_iff_eq] at h
  exact ⟨h.1.1, h.1.2⟩

/-- `Fleet.Inv` looks at the states only. -/
theorem fleetInv_of_map {f : Fleet} (hinv : f.Inv) {q : JobQueue} {g : Job → Job}
    (hget : ∀ k, q.get k = (f.queue.get k).map g)
    (hstates : ∀ r, r.state ∈ Fleet.workerStates → (g r).state ∈ Fleet.workerStates)
    (hwait : ∀ r, r.state ≠ .waitingForRole → (g r).state ≠ .waitingForRole) :
    Fleet.Inv { f with queue := q } := by
  have hwoken : ∀ k, Fleet.Woken f.queue k → Fleet.Woken q k := by
    rintro k ⟨r, hr, hst⟩
    exact ⟨g r, by rw [hget, hr]; rfl, hwait r hst⟩
  refine ⟨?_, fun k hk => hwoken k (hinv.picked k hk), fun c hc => ?_⟩
  · intro k r' h
    rw [hget] at h
    obtain ⟨r, hr, rfl⟩ := Option.map_eq_some_iff.mp h
    exact hstates r (hinv.states k r hr)
  · obtain ⟨hcall, hw⟩ := hinv.requeues c hc
    exact ⟨hcall, hwoken _ hw⟩

theorem sweepRequeue_queue (s : System) (i : Nat) (resolver : String → Option String)
    (now : Time) : (s.sweepRequeue i resolver now).queue = s.queue := by
  unfold sweepRequeue
  cases s.sweeps[i]? with
  | none => rfl
  | some p =>
    obtain ⟨kind, row⟩ := p
    simp only
    split
    · simp only [Fleet.step]
      split <;> rfl
    · rfl

theorem fleetInv_sweepRequeue {s : System} (hinv : s.fleet.Inv) (i : Nat)
    (resolver : String → Option String) (now : Time) : (s.sweepRequeue i resolver now).Inv := by
  unfold sweepRequeue
  cases s.sweeps[i]? with
  | none => exact hinv
  | some p =>
    obtain ⟨kind, row⟩ := p
    simp only
    split
    · exact hinv.step _
    · exact hinv

theorem reviveRewrite_state (jobId : String) (note : Dict Json) (now : Time) (r : Job) :
    (Recovery.reviveRewrite jobId note now r).state = r.state
      ∨ (Recovery.reviveRewrite jobId note now r).state = .queued := by
  unfold Recovery.reviveRewrite
  split
  · exact .inr rfl
  · exact .inl rfl

theorem fleetInv_revive {s : System} {f : Fleet} (hinv : f.Inv) (hq : f.queue = s.queue)
    (a : SystemAction) : Fleet.Inv { f with queue := s.queueAfterRevive a } := by
  refine fleetInv_of_map hinv (fun k => hq ▸ get_queueAfterRevive s a k) ?_ ?_
  · intro r hst
    cases s.revival? a with
    | none => exact hst
    | some p =>
      rcases reviveRewrite_state p.1 p.2.1 p.2.2 r with h | h
      · simpa only [h] using hst
      · simp only [h]; decide
  · intro r hst
    cases s.revival? a with
    | none => exact hst
    | some p =>
      rcases reviveRewrite_state p.1 p.2.1 p.2.2 r with h | h
      · simpa only [h] using hst
      · simp only [h]; decide

/-- **Every step but a foreign `transition` keeps the invariant of the fleet.** -/
theorem fleetInv_step {s : System} (hinv : s.fleet.Inv) {a : SystemAction}
    (ha : ∀ c, a ≠ .transition c) : (s.step a).fleet.Inv := by
  cases a with
  | fleet b => exact hinv.step b
  | transition c => exact absurd rfl (ha c)
  | codingRead args =>
    simp only [step]
    split <;> exact hinv
  | codingInsert i jobId now =>
    simp only [step]
    split
    · exact hinv
    · next ins hi => exact hinv.step (.enqueue (ins.insert jobId now))
  | sweepRead kind enabled n => exact hinv
  | sweepWrite i resolver now =>
    exact fleetInv_revive (fleetInv_sweepRequeue hinv i resolver now)
      (sweepRequeue_queue s i resolver now) _
  | revive jobId note now => exact fleetInv_revive hinv rfl _
  | supersedeRead sessionId keep => exact hinv
  | supersedeWrite i supersededAt =>
    simp only [step]
    split
    · exact hinv
    · next p hp =>
      refine fleetInv_of_map hinv (g := Supersede.supersedeRewrite p.ids p.keepJobId supersededAt)
        (fun k => get_mapJobs _ _ _ _) ?_ ?_
      · intro r hst
        unfold Supersede.supersedeRewrite
        split
        · simp [Supersede.supersede, Fleet.workerStates]
        · exact hst
      · intro r hst
        unfold Supersede.supersedeRewrite
        split
        · simp [Supersede.supersede]
        · exact hst

end System

end ForgeKit
