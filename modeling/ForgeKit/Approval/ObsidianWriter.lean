import ForgeKit.JobQueue.StoreSpec

/-!
# The producer side of `ObsidianWriterWorker`

An `obsidian_write` job carries the approval that it rests on. Producers go through `enqueue`,
which returns an in-flight job for the same session, kind, title and thread instead of inserting
a second one.
-/

namespace ForgeKit

/-- `JOB_TYPE_OBSIDIAN_WRITE`. -/
def jobTypeObsidianWrite : String := "obsidian_write"

/-- `NOTE_KIND_KNOWLEDGE`. -/
def noteKindKnowledge : String := "knowledge"

/-- The payload of an `obsidian_write` row. -/
structure ObsidianWriteRequest where
  sessionId : String
  noteKind : String
  title : String
  sourceThreadId : Option Int := none
  sourceThreadUrl : Option String := none
  approvalId : Option String := none
  approvedBy : Option String := none
  approvedAt : Option String := none
  project : Option String := none
  layout : Option String := none
  vaultPath : Option String := none
  overwrite : Bool := false
  dryRun : Bool := false
  metadata : Dict Json := []

/-- `None` or a text. -/
def optText (value : Option String) : Json := (value.map Json.str).getD .null

/-- `None` or a number. -/
def optInt (value : Option Int) : Json := (value.map Json.int).getD .null

/-- `to_payload`. -/
def ObsidianWriteRequest.toPayload (r : ObsidianWriteRequest) : Dict Json :=
  [("session_id", .str r.sessionId),
   ("note_kind", .str r.noteKind),
   ("title", .str r.title),
   ("source_thread_id", optInt r.sourceThreadId),
   ("source_thread_url", optText r.sourceThreadUrl),
   ("approval_id", optText r.approvalId),
   ("approved_by", optText r.approvedBy),
   ("approved_at", optText r.approvedAt),
   ("project", optText r.project),
   ("layout", optText r.layout),
   ("vault_path", optText r.vaultPath),
   ("overwrite", .bool r.overwrite),
   ("dry_run", .bool r.dryRun),
   ("metadata", .obj r.metadata)]

namespace ObsidianWriterWorker

/-- `_ACTIVE_STATES`; a row that waits for a retry is not among them. -/
def activeStates : List JobState :=
  [.queued, .assigned, .inProgress, .waitingForRole, .researching, .pendingApproval,
    .readyForObsidian]

/-- The row that `find_active` looks for. A missing thread on either side matches every thread. -/
def isActiveFor (noteKind : String) (sourceThreadId : Option Int) (title : String) (r : Job) :
    Bool :=
  r.jobType == jobTypeObsidianWrite
    && r.payload.strOr "note_kind" "" == noteKind
    && r.payload.strOr "title" "" == title
    && (sourceThreadId.all fun thread =>
      (r.payload.getJson "source_thread_id").toInt?.all fun existing => existing == thread)

/-- `find_active`. -/
def findActive (q : JobQueue) (sessionId noteKind : String) (sourceThreadId : Option Int)
    (title : String) : Option Job :=
  if sessionId = "" || noteKind = "" then none
  else (q.listForSession sessionId activeStates).find? (isActiveFor noteKind sourceThreadId title)

/-- The insert that `enqueue` makes when it found no active row. -/
def insert (request : ObsidianWriteRequest) (jobId : String) (now : Time)
    (priority : Int := 0) (maxAttempts : Int := 3) : JobQueue.EnqueueArgs where
  jobId := jobId
  sessionId := request.sessionId
  jobType := jobTypeObsidianWrite
  payload := request.toPayload
  priority := priority
  maxAttempts := maxAttempts
  now := now

/-- `enqueue`: `(job, created)` and the tables. -/
def enqueue (q : JobQueue) (request : ObsidianWriteRequest) (jobId : String) (now : Time)
    (priority : Int := 0) (maxAttempts : Int := 3) : Except QueueError ((Job × Bool) × JobQueue) :=
  match findActive q request.sessionId request.noteKind request.sourceThreadId request.title with
  | some existing => .ok ((existing, false), q)
  | none => do
    let (job, q') ← q.enqueue (insert request jobId now priority maxAttempts)
    .ok ((job, true), q')

/-! ## What the producer does to the rows -/

/-- `enqueue` is the `enqueue` of the queue when no active row was found, and nothing otherwise. -/
theorem commit_enqueue (q : JobQueue) (request : ObsidianWriteRequest) (jobId : String)
    (now : Time) :
    q.commit (enqueue q request jobId now)
      = if (findActive q request.sessionId request.noteKind request.sourceThreadId
            request.title).isSome then q
        else q.commit (q.enqueue (insert request jobId now)) := by
  unfold enqueue
  cases findActive q request.sessionId request.noteKind request.sourceThreadId request.title with
  | some existing => rfl
  | none =>
    simp only [bind, Except.bind, Option.isSome_none, Bool.false_eq_true, if_false]
    cases q.enqueue (insert request jobId now) <;> rfl

/-- `find_active` sees every row in one of its states that matches. -/
theorem findActive_none {q : JobQueue} {sessionId noteKind title : String} {thread : Option Int}
    (hs : sessionId ≠ "") (hkind : noteKind ≠ "")
    (h : findActive q sessionId noteKind thread title = none) {r : Job} (hr : r ∈ q.jobs.rows)
    (hsession : r.sessionId = sessionId) (hmatch : isActiveFor noteKind thread title r = true) :
    r.state ∉ activeStates := by
  intro hst
  unfold findActive at h
  rw [if_neg (by simp [hs, hkind])] at h
  have hnone := List.find?_eq_none.mp h r
  refine hnone ?_ hmatch
  simp [JobQueue.listForSession, List.mem_insertionSort, hr, hsession, hst]

/-- Two requests that agree on what `find_active` compares are duplicates of each other. -/
theorem isActiveFor_of_payload {request : ObsidianWriteRequest} {r : Job}
    (htype : r.jobType = jobTypeObsidianWrite) (hpayload : r.payload = request.toPayload) :
    isActiveFor request.noteKind request.sourceThreadId request.title r = true := by
  have hkind : r.payload.strOr "note_kind" "" = request.noteKind := by
    rw [hpayload]; exact Dict.strOr_str_self rfl
  have htitle : r.payload.strOr "title" "" = request.title := by
    rw [hpayload]; exact Dict.strOr_str_self rfl
  have hthread : r.payload.getJson "source_thread_id" = optInt request.sourceThreadId := by
    rw [hpayload]; rfl
  unfold isActiveFor
  rw [hkind, htitle, hthread, htype]
  cases request.sourceThreadId with
  | none => simp
  | some thread => simp [optInt, Json.toInt?]

end ObsidianWriterWorker

end ForgeKit
