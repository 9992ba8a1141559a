import ForgeKit.JobQueue.StoreSpec
import ForgeKit.Lib.FirstMatch

/-!
# Producers that look before they insert

The `enqueue` of a worker asks its `find_active` for an in-flight row and inserts one when there
is none. The workers differ in the key that `find_active` requires, in the rows that it accepts and
in the row that they insert.

`Producer.enqueue_again_iff` — a second call with nothing in between returns the row of the first one
exactly when the first call found it, or when the inserted row answers the lookup.
-/

namespace ForgeKit

open JobQueue

/-- One `enqueue` call: the lookup, and the insert that it makes when nothing was found. -/
structure Producer where
  sessionId : String
  /-- The `states` of `list_for_session`; none of them stands for all. -/
  states : List JobState
  /-- The rest of the key is not empty; otherwise `find_active` returns at once. -/
  keyed : Bool
  /-- The row that `find_active` looks for; an error is what the comparison raises. -/
  answers : Job → Except QueueError Bool
  insert : String → Time → JobQueue.EnqueueArgs
  insert_jobId : ∀ jobId now, (insert jobId now).jobId = jobId
  insert_session : ∀ jobId now, (insert jobId now).sessionId = sessionId
  /-- The new row stands in a state that the lookup lists. -/
  insert_listed : ∀ jobId now,
    states.isEmpty = true ∨ states.contains (insert jobId now).job.state = true

namespace Producer

/-- `find_active`. -/
def findActive (p : Producer) (q : JobQueue) : Except QueueError (Option Job) :=
  if p.sessionId = "" || !p.keyed then .ok none
  else (q.listForSession p.sessionId p.states).findM? p.answers

/-- `enqueue`: `(job, created)` and the tables. -/
def enqueue (p : Producer) (q : JobQueue) (jobId : String) (now : Time) :
    Except QueueError ((Job × Bool) × JobQueue) :=
  match p.findActive q with
  | .error e => .error e
  | .ok (some existing) => .ok ((existing, false), q)
  | .ok none =>
    match q.enqueue (p.insert jobId now) with
    | .error e => .error e
    | .ok (job, q') => .ok ((job, true), q')

variable {p : Producer} {q q' : JobQueue} {jobId : String} {now : Time} {job : Job}
  {created : Bool}

/-! ## The lookup -/

theorem findActive_of_unkeyed (q : JobQueue) (h : p.sessionId = "" ∨ p.keyed = false) :
    p.findActive q = .ok none := by
  rw [findActive, if_pos (by simpa using h)]

theorem findActive_of_keyed (q : JobQueue) (hsession : p.sessionId ≠ "") (hkeyed : p.keyed = true) :
    p.findActive q = (q.listForSession p.sessionId p.states).findM? p.answers := by
  rw [findActive, if_neg (by simp [hsession, hkeyed])]

theorem keyed_of_findActive (h : p.findActive q = .ok (some job)) :
    p.sessionId ≠ "" ∧ p.keyed = true := by
  by_contra hnot
  rw [not_and_or, not_not, Bool.not_eq_true] at hnot
  rw [findActive_of_unkeyed q hnot] at h
  cases h

/-- A comparison that never raises makes the lookup a plain search. -/
theorem findActive_of_total {f : Job → Bool} (q : JobQueue) (hans : p.answers = fun r => .ok (f r))
    (hsession : p.sessionId ≠ "") (hkeyed : p.keyed = true) :
    p.findActive q = .ok ((q.listForSession p.sessionId p.states).find? f) := by
  rw [findActive_of_keyed q hsession hkeyed, hans]
  exact List.findM?_pure (m := Except QueueError) f _

/-! ## What an accepted call did -/

/-- The call found a row and left the tables, or found none and inserted one. -/
theorem enqueue_ok (h : p.enqueue q jobId now = .ok ((job, created), q')) :
    (p.findActive q = .ok (some job) ∧ created = false ∧ q' = q)
      ∨ (p.findActive q = .ok none ∧ q.enqueue (p.insert jobId now) = .ok (job, q')
        ∧ created = true) := by
  unfold enqueue at h
  split at h
  · cases h
  · next existing hfound =>
    cases h
    exact .inl ⟨hfound, rfl, rfl⟩
  · next hnone =>
    split at h
    · cases h
    · next inserted q₁ hins =>
      cases h
      exact .inr ⟨hnone, hins, rfl⟩

/-- A call that finds a row returns it. -/
theorem enqueue_of_found (h : p.findActive q = .ok (some job)) :
    p.enqueue q jobId now = .ok ((job, false), q) := by
  rw [enqueue, h]

/-- A call that returns `created = False` found the row. -/
theorem found_of_enqueue (h : p.enqueue q jobId now = .ok ((job, false), q')) :
    p.findActive q = .ok (some job) ∧ q' = q := by
  rcases enqueue_ok h with ⟨hfound, -, rfl⟩ | ⟨-, -, hcreated⟩
  · exact ⟨hfound, rfl⟩
  · cases hcreated

/-! ## The rows the lookup lists -/

theorem mem_listForSession {sessionId : String} {states : List JobState} {r : Job} :
    r ∈ q.listForSession sessionId states
      ↔ r ∈ q.jobs.rows ∧ r.sessionId = sessionId
        ∧ (states.isEmpty = true ∨ states.contains r.state = true) := by
  simp only [JobQueue.listForSession, List.mem_insertionSort, List.mem_filter, Bool.and_eq_true,
    beq_iff_eq, Bool.or_eq_true]

theorem nodup_rows (q : JobQueue) : q.jobs.rows.Nodup := q.jobs.nodup.of_map

theorem nodup_listForSession (q : JobQueue) (sessionId : String) (states : List JobState) :
    (q.listForSession sessionId states).Nodup :=
  (List.perm_insertionSort _ _).nodup_iff.mpr ((nodup_rows q).filter _)

/-- An accepted insert appends its row. -/
theorem rows_of_enqueue {a : JobQueue.EnqueueArgs} (h : q.enqueue a = .ok (job, q')) :
    job = a.job ∧ q.get a.jobId = none ∧ q'.jobs.rows = q.jobs.rows ++ [a.job] := by
  obtain ⟨hjob, -, -, -, hfree, -⟩ := JobQueue.enqueue_ok h
  refine ⟨hjob, hfree, ?_⟩
  unfold JobQueue.enqueue at h
  repeat' split at h
  all_goals cases h
  rfl

/-- The queue refuses nothing else about an insert without parents. -/
theorem enqueue_of_free {a : JobQueue.EnqueueArgs} (hsession : a.sessionId ≠ "")
    (htype : a.jobType ≠ "") (hattempts : 1 ≤ a.maxAttempts) (hfree : q.get a.jobId = none)
    (hparents : a.afterJobs = []) : ∃ q', q.enqueue a = .ok (a.job, q') := by
  have hfree' : q.jobs.find? a.job.jobId = none := hfree
  have hnone : ∀ p ∈ a.parents, ((q.jobs.insert a.job hfree').find? p).isSome := by
    simp [JobQueue.EnqueueArgs.parents, hparents]
  rw [JobQueue.enqueue, if_neg hsession, if_neg htype, if_neg (by omega), dif_pos hfree',
    dif_pos hnone]
  exact ⟨_, rfl⟩

/-- The rows come by creation time. -/
theorem listForSession_sorted (q : JobQueue) (sessionId : String) (states : List JobState) :
    (q.listForSession sessionId states).Pairwise fun r r' => r.createdAt ≤ r'.createdAt := by
  have : Std.Total fun r r' : Job => r.createdAt ≤ r'.createdAt :=
    ⟨fun r r' => le_total r.createdAt r'.createdAt⟩
  have : IsTrans Job fun r r' : Job => r.createdAt ≤ r'.createdAt := ⟨fun _ _ _ => le_trans⟩
  exact List.pairwise_insertionSort _ _

/-- Among the rows of one time the one inserted last stands last. -/
theorem before_inserted {a : JobQueue.EnqueueArgs} {sessionId : String} {states : List JobState}
    (h : q.enqueue a = .ok (job, q')) {r : Job} (hr : r ∈ q.listForSession sessionId states)
    (hjob : job ∈ q'.listForSession sessionId states) (hle : r.createdAt ≤ job.createdAt) :
    [r, job].Sublist (q'.listForSession sessionId states) := by
  obtain ⟨rfl, -, hrows⟩ := rows_of_enqueue h
  unfold JobQueue.listForSession at hr hjob ⊢
  refine List.pair_sublist_insertionSort hle ?_
  rw [List.mem_insertionSort, List.mem_filter] at hr hjob
  rw [hrows, List.filter_append]
  refine (List.singleton_sublist.mpr (List.mem_filter.mpr hr)).append ?_
  exact List.singleton_sublist.mpr (List.mem_filter.mpr ⟨List.mem_singleton_self _, hjob.2⟩)

/-- The lookup of the call lists the row that the call inserted. -/
theorem mem_listForSession_inserted (h : q.enqueue (p.insert jobId now) = .ok (job, q')) :
    job ∈ q'.listForSession p.sessionId p.states := by
  obtain ⟨rfl, -, hrows⟩ := rows_of_enqueue h
  refine mem_listForSession.mpr ⟨by simp [hrows], p.insert_session jobId now, ?_⟩
  exact p.insert_listed jobId now

/-- Every other listed row was listed before. -/
theorem mem_listForSession_of_enqueue {a : JobQueue.EnqueueArgs} {sessionId : String}
    {states : List JobState} (h : q.enqueue a = .ok (job, q')) {r : Job}
    (hr : r ∈ q'.listForSession sessionId states) (hne : r ≠ job) :
    r ∈ q.listForSession sessionId states := by
  obtain ⟨rfl, -, hrows⟩ := rows_of_enqueue h
  obtain ⟨hmem, hkey⟩ := mem_listForSession.mp hr
  rw [hrows, List.mem_append, List.mem_singleton] at hmem
  exact mem_listForSession.mpr ⟨hmem.resolve_right hne, hkey⟩

/-! ## The same call again -/

/-- The key is complete, and a listed row answers the request or the new row does. -/
def Settles (p : Producer) (q : JobQueue) (jobId : String) (now : Time) : Prop :=
  p.keyed = true
    ∧ ((∃ r, p.findActive q = .ok (some r))
      ∨ p.answers (p.insert jobId now).job = .ok true)

/-- After an insert the lookup sees the new row alone. -/
theorem findActive_inserted (hnone : p.findActive q = .ok none)
    (h : q.enqueue (p.insert jobId now) = .ok (job, q')) (hkeyed : p.keyed = true) :
    p.findActive q' = [job].findM? p.answers := by
  have hs : p.sessionId ≠ "" := by
    have hsess := (JobQueue.enqueue_ok h).2.2.1
    rwa [p.insert_session] at hsess
  rw [findActive_of_keyed _ hs hkeyed] at hnone ⊢
  refine FirstMatch.findM?_of_single (mem_listForSession_inserted h) fun r hr hne => ?_
  exact FirstMatch.findM?_eq_none_iff.mp hnone r (mem_listForSession_of_enqueue h hr hne)

/-- **A second call returns the row of the first one when the lookup settles the request.** -/
theorem enqueue_again_iff (h : p.enqueue q jobId now = .ok ((job, created), q')) (jobId' : String)
    (now' : Time) :
    p.enqueue q' jobId' now' = .ok ((job, false), q') ↔ p.Settles q jobId now := by
  rcases enqueue_ok h with ⟨hfound, -, rfl⟩ | ⟨hnone, hins, -⟩
  · exact iff_of_true (enqueue_of_found hfound)
      ⟨(keyed_of_findActive hfound).2, .inl ⟨job, hfound⟩⟩
  · obtain ⟨rfl, -, -⟩ := rows_of_enqueue hins
    constructor
    · intro hagain
      obtain ⟨hfound, -⟩ := found_of_enqueue hagain
      have hkeyed := (keyed_of_findActive hfound).2
      rw [findActive_inserted hnone hins hkeyed, FirstMatch.findM?_singleton] at hfound
      exact ⟨hkeyed, .inr hfound.2⟩
    · rintro ⟨hkeyed, ⟨r, hr⟩ | hans⟩
      · rw [hnone] at hr; cases hr
      · refine enqueue_of_found ?_
        rw [findActive_inserted hnone hins hkeyed, FirstMatch.findM?_singleton]
        exact ⟨rfl, hans⟩

end Producer

/-! ## `RoleTakeWorker` -/

/-- `JOB_TYPE_ROLE_TAKE`. -/
def jobTypeRoleTake : String := "role_take"

namespace RoleTakeWorker

/-- `_ACTIVE_STATES`. -/
def activeStates : List JobState :=
  [.queued, .assigned, .inProgress, .waitingForRole, .researching, .pendingApproval,
    .readyForObsidian]

/-- The value is the text `kind`. -/
def isKind (kind : String) : Json → Bool
  | .str s => s == kind
  | _ => false

/-- The row that `find_active` looks for. -/
def isActiveFor (role kind : String) (r : Job) : Bool :=
  r.jobType == jobTypeRoleTake && r.role == some role && isKind kind (r.payload.getJson "kind")

/-- The arguments of `enqueue`, without the clock. -/
structure EnqueueArgs where
  sessionId : String
  role : String
  kind : String
  payload : Dict Json := []
  priority : Int := 0
  maxAttempts : Int := 3

/-- The insert that `enqueue` makes; a `kind` in the payload stays. -/
def EnqueueArgs.insert (a : EnqueueArgs) (jobId : String) (now : Time) : JobQueue.EnqueueArgs where
  jobId := jobId
  sessionId := a.sessionId
  jobType := jobTypeRoleTake
  role := some a.role
  payload := a.payload.setDefault "kind" (.str a.kind)
  priority := a.priority
  maxAttempts := a.maxAttempts
  now := now

/-- The call as a producer; the guard of `find_active` also wants a role and a kind. -/
def producer (a : EnqueueArgs) : Producer where
  sessionId := a.sessionId
  states := activeStates
  keyed := a.role != "" && a.kind != ""
  answers r := .ok (isActiveFor a.role a.kind r)
  insert := a.insert
  insert_jobId _ _ := rfl
  insert_session _ _ := rfl
  insert_listed _ _ := .inr rfl

/-- `enqueue`. -/
def enqueue (q : JobQueue) (a : EnqueueArgs) (jobId : String) (now : Time) :
    Except QueueError ((Job × Bool) × JobQueue) := (producer a).enqueue q jobId now

theorem isKind_iff {kind : String} {v : Json} : isKind kind v = true ↔ v = .str kind := by
  cases v <;> simp [isKind]

/-- The new row answers its own request unless the payload names another kind. -/
theorem isActiveFor_insert (a : EnqueueArgs) (jobId : String) (now : Time) :
    isActiveFor a.role a.kind (a.insert jobId now).job = true
      ↔ ∀ kind, a.payload.get? "kind" = some kind → kind = .str a.kind := by
  have hjob : isActiveFor a.role a.kind (a.insert jobId now).job
      = isKind a.kind ((a.payload.setDefault "kind" (.str a.kind)).getJson "kind") := by
    simp [isActiveFor, EnqueueArgs.insert, JobQueue.EnqueueArgs.job]
  rw [hjob, isKind_iff, Dict.setDefault, Dict.getJson]
  cases hkind : a.payload.get? "kind" with
  | none => simp
  | some kind => simp [hkind]

end RoleTakeWorker

/-! ## `ResearchWorker` -/

/-- `JOB_TYPE_RESEARCH_COLLECT`. -/
def jobTypeResearchCollect : String := "research_collect"

namespace ResearchWorker

/-- `_ACTIVE_STATES`. -/
def activeStates : List JobState :=
  [.queued, .assigned, .inProgress, .waitingForRole, .researching, .pendingApproval,
    .readyForObsidian]

/-- The arguments of `enqueue`, without the clock. -/
structure EnqueueArgs where
  sessionId : String
  payload : Dict Json := []
  priority : Int := 0
  maxAttempts : Int := 3

/-- The insert that `enqueue` makes when the session has no collect in flight. -/
def EnqueueArgs.insert (a : EnqueueArgs) (jobId : String) (now : Time) : JobQueue.EnqueueArgs where
  jobId := jobId
  sessionId := a.sessionId
  jobType := jobTypeResearchCollect
  payload := a.payload
  priority := a.priority
  maxAttempts := a.maxAttempts
  now := now

/-- The call as a producer; the session is the whole key. -/
def producer (a : EnqueueArgs) : Producer where
  sessionId := a.sessionId
  states := activeStates
  keyed := true
  answers r := .ok (r.jobType == jobTypeResearchCollect)
  insert := a.insert
  insert_jobId _ _ := rfl
  insert_session _ _ := rfl
  insert_listed _ _ := .inr rfl

/-- `enqueue`. -/
def enqueue (q : JobQueue) (a : EnqueueArgs) (jobId : String) (now : Time) :
    Except QueueError ((Job × Bool) × JobQueue) := (producer a).enqueue q jobId now

end ResearchWorker

end ForgeKit
