import ForgeKit.Approval.ObsidianWriter
import ForgeKit.JobQueue.RawWrites

/-!
# Routing a reply to its approval card (`approval_reply.py`)

`handle_approval_reply` classifies the text of a reply, finds the card it belongs to among the
saved `approval_post` rows, and enqueues an `obsidian_write` job on an approval. A rejection is
written to the session for the diagnostics; nothing is written on the card.

A `none` for an outcome is an exception of the source: an id in a payload that is not a number,
or a payload that is not a mapping where one is needed.
-/

namespace ForgeKit

namespace ApprovalReply

/-! ## Intent -/

/-- `ApprovalIntent`. -/
inductive ApprovalIntent where
  | approve
  | reject
  | hold
  | unclear
deriving DecidableEq, Repr

/-- `_APPROVE_PHRASES`. -/
def approvePhrases : List String :=
  ["승인", "이대로 진행", "이대로진행", "이대로 저장", "이대로저장", "저장 승인", "저장승인",
   "obsidian 저장 승인", "옵시디언 저장 승인", "vault 저장 승인", "approve", "approved", "ok", "okay",
   "go", "진행", "save approved", "approve save"]

/-- `_REJECT_PHRASES`. -/
def rejectPhrases : List String :=
  ["반려", "거절", "거부", "저장 반려", "저장하지 마", "저장하지마", "저장 안 해도 돼", "저장 안할게",
   "reject", "rejected", "no go", "do not save", "don't save"]

/-- `_HOLD_PHRASES`. -/
def holdPhrases : List String :=
  ["보류", "잠깐 보류", "잠시 보류", "일단 보류", "wait", "hold", "hold off", "later"]

/-- `re.sub(r"\s+", " ", text)`; `inSpace` says whether the last character was a space. -/
def collapseSpaces (inSpace : Bool) : List Char → List Char
  | [] => []
  | c :: cs =>
    if PyText.isSpace c then
      if inSpace then collapseSpaces true cs else ' ' :: collapseSpaces true cs
    else c :: collapseSpaces false cs

/-- `_normalize`. -/
def normalize (text : String) : String :=
  PyText.strip (String.ofList (collapseSpaces false (PyText.lower text).toList))

/-- `parse_approval_intent`. -/
def parseApprovalIntent (text : String) : ApprovalIntent :=
  let norm := normalize text
  if norm = "" then .unclear
  else if rejectPhrases.any (PyText.contains norm) then .reject
  else if holdPhrases.any (PyText.contains norm) then .hold
  else if approvePhrases.contains norm then .approve
  -- a long reply that only mentions a phrase stays unclear
  else if approvePhrases.any (PyText.contains norm) && norm.length ≤ 40 then .approve
  else .unclear

/-! ## The card of a reply -/

/-- `APPROVAL_KIND_OBSIDIAN_WRITE`. -/
def approvalKindObsidianWrite : String := "obsidian_write"

/-- The jobs whose value is a number equal to `id`; `none` when `int` raises on one of them. -/
def filterByInt (value : Job → Json) (id : Int) : List Job → Option (List Job)
  | [] => some []
  | job :: jobs =>
    match value job with
    | .null => filterByInt value id jobs
    | v => do
      let n ← v.toInt?
      let rest ← filterByInt value id jobs
      some (if n = id then job :: rest else rest)

/-- The first such job; the values after it are not read. -/
def findByInt (value : Job → Json) (id : Int) : List Job → Option (Option Job)
  | [] => some none
  | job :: jobs =>
    match value job with
    | .null => findByInt value id jobs
    | v => do
      let n ← v.toInt?
      if n = id then some (some job) else findByInt value id jobs

/-- `_most_recent`: the first of the newest jobs. -/
def mostRecent : List Job → Option Job
  | [] => none
  | job :: jobs =>
    some (jobs.foldl (fun best j => if best.createdAt < j.createdAt then j else best) job)

/-- The saved cards of a session, of one kind when a kind is asked for. -/
def candidates (q : JobQueue) (sessionId : String) (approvalKind : Option String) : List Job :=
  (q.listForSession sessionId [.saved]).filter fun job =>
    job.jobType == Supersede.jobTypeApprovalPost
      && approvalKind.all fun kind => (job.payload.getJson "approval_kind").eqStr kind

/-- `find_replyable_approval`: the posted message, the source message, the thread, the newest. -/
def findReplyableApproval (q : JobQueue) (sessionId : String) (approvalKind : Option String)
    (sourceMessageId sourceThreadId repliedMessageId : Option Int) : Option (Option Job) :=
  if sessionId = "" then some none
  else
    let cards := candidates q sessionId approvalKind
    do
      let posted ← repliedMessageId.elim (some none) fun id =>
        findByInt (fun job => job.result.getJson "posted_message_id") id cards
      if posted.isSome then return posted
      let quoted ← sourceMessageId.elim (some none) fun id =>
        findByInt (fun job => job.payload.getJson "source_message_id") id cards
      if quoted.isSome then return quoted
      let inThread ← sourceThreadId.elim (some []) fun id =>
        filterByInt (fun job => job.payload.getJson "source_thread_id") id cards
      return (mostRecent inThread).or (mostRecent cards)

theorem mem_of_findByInt {value : Job → Json} {id : Int} {jobs : List Job} {job : Job}
    (h : findByInt value id jobs = some (some job)) : job ∈ jobs := by
  induction jobs with
  | nil => cases h
  | cons j jobs ih =>
    rw [findByInt] at h
    split at h
    · exact List.mem_cons_of_mem _ (ih h)
    · obtain ⟨n, -, h⟩ := Option.bind_eq_some_iff.mp h
      split at h
      · cases h
        exact List.mem_cons_self
      · exact List.mem_cons_of_mem _ (ih h)

/-- A job with this number is found, or one before it. -/
theorem findByInt_of_mem {value : Job → Json} {id : Int} {jobs : List Job} {found : Option Job}
    {job : Job} (h : findByInt value id jobs = some found) (hmem : job ∈ jobs)
    (hvalue : (value job).toInt? = some id) :
    ∃ first, found = some first ∧ (value first).toInt? = some id := by
  induction jobs with
  | nil => cases hmem
  | cons j jobs ih =>
    have hrest : j ≠ job → job ∈ jobs := fun hne =>
      (List.mem_cons.mp hmem).resolve_left fun heq => hne heq.symm
    rw [findByInt] at h
    split at h
    · next hnull =>
      refine ih h (hrest ?_)
      rintro rfl
      rw [hnull] at hvalue
      cases hvalue
    · obtain ⟨n, hn, h⟩ := Option.bind_eq_some_iff.mp h
      split at h
      · next heq =>
        cases h
        exact ⟨j, rfl, heq ▸ hn⟩
      · next hne =>
        refine ih h (hrest ?_)
        rintro rfl
        exact hne (Option.some.inj (hn.symm.trans hvalue))

theorem filterByInt_subset {value : Job → Json} {id : Int} {jobs found : List Job}
    (h : filterByInt value id jobs = some found) : found ⊆ jobs := by
  induction jobs generalizing found with
  | nil => cases h; exact fun _ h => h
  | cons j jobs ih =>
    rw [filterByInt] at h
    split at h
    · exact List.subset_cons_of_subset _ (ih h)
    · obtain ⟨n, -, h⟩ := Option.bind_eq_some_iff.mp h
      obtain ⟨rest, hrest, h⟩ := Option.bind_eq_some_iff.mp h
      cases h
      split
      · exact List.cons_subset_cons _ (ih hrest)
      · exact List.subset_cons_of_subset _ (ih hrest)

theorem mem_of_mostRecent {jobs : List Job} {job : Job} (h : mostRecent jobs = some job) :
    job ∈ jobs := by
  have hfold : ∀ (js : List Job) (best : Job),
      js.foldl (fun best j => if best.createdAt < j.createdAt then j else best) best
        ∈ best :: js := by
    intro js
    induction js with
    | nil => intro best; exact List.mem_cons_self
    | cons j js ih =>
      intro best
      rw [List.foldl_cons]
      split
      · exact List.mem_cons_of_mem _ (ih j)
      · rcases List.mem_cons.mp (ih best) with he | hmem
        · rw [he]; exact List.mem_cons_self
        · exact List.mem_cons_of_mem _ (List.mem_cons_of_mem _ hmem)
  cases jobs with
  | nil => cases h
  | cons j js =>
    cases h
    exact hfold js j

/-- A reply is matched to a saved card of its session. -/
theorem findReplyableApproval_mem {q : JobQueue} {sessionId : String}
    {approvalKind : Option String} {sourceMessageId sourceThreadId repliedMessageId : Option Int}
    {card : Job} (h : findReplyableApproval q sessionId approvalKind sourceMessageId
      sourceThreadId repliedMessageId = some (some card)) :
    card ∈ candidates q sessionId approvalKind := by
  have hfound : ∀ (value : Job → Json) (id? : Option Int) (found : Option Job),
      (id?.elim (some none) fun id => findByInt value id (candidates q sessionId approvalKind))
        = some found → ∀ job, found = some job → job ∈ candidates q sessionId approvalKind := by
    rintro value (_ | id) found hf job rfl
    · cases hf
    · exact mem_of_findByInt hf
  unfold findReplyableApproval at h
  split at h
  · cases h
  · obtain ⟨posted, hposted, h⟩ := Option.bind_eq_some_iff.mp h
    split at h
    · exact hfound _ _ _ hposted card (Option.some.inj h)
    · obtain ⟨quoted, hquoted, h⟩ := Option.bind_eq_some_iff.mp h
      split at h
      · exact hfound _ _ _ hquoted card (Option.some.inj h)
      · obtain ⟨inThread, hthread, h⟩ := Option.bind_eq_some_iff.mp h
        rcases Option.or_eq_some_iff.mp (Option.some.inj h) with hnewest | ⟨-, hnewest⟩
        · cases sourceThreadId with
          | none => cases hthread; cases hnewest
          | some id => exact filterByInt_subset hthread (mem_of_mostRecent hnewest)
        · exact mem_of_mostRecent hnewest

theorem mem_candidates {q : JobQueue} {sessionId : String} {approvalKind : Option String}
    {card : Job} (h : card ∈ candidates q sessionId approvalKind) :
    q.get card.jobId = some card ∧ card.state = .saved
      ∧ card.jobType = Supersede.jobTypeApprovalPost := by
  simp only [candidates, JobQueue.listForSession, List.mem_filter, List.mem_insertionSort,
    Bool.and_eq_true, beq_iff_eq] at h
  obtain ⟨⟨hrow, -, hst⟩, htype, -⟩ := h
  exact ⟨JobQueue.get_of_mem hrow, by simpa using hst, htype⟩

/-! ## From the card to the write -/

/-- `ApprovalRequest`. -/
structure ApprovalRequest where
  sessionId : String
  approvalKind : String
  title : String
  summary : String
  requestedAction : String
  createdBy : String
  sourceChannelId : Option Int
  sourceThreadId : Option Int
  sourceMessageId : Option Int
  extra : Dict Json

/-- `from_payload`; `none` when `extra` is neither empty nor a mapping. -/
def ApprovalRequest.fromPayload (payload : Dict Json) : Option ApprovalRequest :=
  let extra := payload.getJson "extra"
  (if extra.truthy then extra.obj? else some []).map fun extra =>
    { sessionId := payload.strOr "session_id" ""
      approvalKind := payload.strOr "approval_kind" ""
      title := payload.strOr "title" ""
      summary := payload.strOr "summary" ""
      requestedAction := payload.strOr "requested_action" ""
      createdBy := payload.strOr "created_by" ""
      sourceChannelId := (payload.getJson "source_channel_id").toInt?
      sourceThreadId := (payload.getJson "source_thread_id").toInt?
      sourceMessageId := (payload.getJson "source_message_id").toInt?
      extra }

/-- The keys of `extra` that are copied to the metadata when they are not `None`. -/
def hydrationKeys : List String :=
  ["topic_key", "canonical_title", "source_thread_url", "source_thread_title", "thread_snapshot",
   "extracted_links", "selected_roles", "research_pack_title", "ledger_revision", "origin",
   "requested_by", "requested_at"]

/-- The metadata of the write. -/
def writeMetadata (request : ApprovalRequest) (approvalId : String) : Dict Json :=
  hydrationKeys.foldl
    (fun metadata key => match request.extra.getJson key with
      | .null => metadata
      | value => Dict.set metadata key value)
    [("decision_id", request.extra.getJson "decision_id"),
     ("policy_level", request.extra.getJson "policy_level"),
     ("approval_kind", .str request.approvalKind),
     ("approval_job_id", .str approvalId)]

/-- `value.strip()` of a text that is not blank. -/
def strippedText? (value : Json) : Option String :=
  match value with
  | .str s => if PyText.strip s = "" then none else some (PyText.strip s)
  | _ => none

/-- `approval_to_obsidian_write_request`; `none` is the `ValueError` for another kind. -/
def approvalToObsidianWriteRequest (request : ApprovalRequest) (approvalId approvedBy : String)
    (approvedAt : Option String) (utcNow : String) : Option ObsidianWriteRequest :=
  if request.approvalKind ≠ approvalKindObsidianWrite then none
  else
    let at_ := PyText.strip (approvedAt.getD "")
    some
      { sessionId := request.sessionId
        noteKind := noteKindKnowledge
        title := (strippedText? (request.extra.getJson "canonical_title")).getD request.title
        sourceThreadId := request.sourceThreadId
        sourceThreadUrl := strippedText? (request.extra.getJson "source_thread_url")
        approvalId := some approvalId
        approvedBy := some approvedBy
        approvedAt := some (if at_ = "" then utcNow else at_)
        metadata := writeMetadata request approvalId }

/-! ## `handle_approval_reply` -/

/-- The arguments of `handle_approval_reply`, with the clocks and the id of a new job. -/
structure ReplyArgs where
  text : String
  sessionId : String
  approvedBy : String
  sourceMessageId : Option Int := none
  sourceThreadId : Option Int := none
  approvalKind : Option String := some approvalKindObsidianWrite
  approvedAt : Option String := none
  /-- An injected `persist_rejection_fn`, and whether it returns. -/
  persistRejectionFn : Option Bool := none
  utcNow : String
  jobId : String
  now : Time

/-- `ApprovalReplyOutcome`. -/
structure ApprovalReplyOutcome where
  intent : ApprovalIntent
  approvalJobId : Option String := none
  writeJobId : Option String := none
  skippedReason : Option String := none
  rejectionRecorded : Bool := false
  audit : Dict Json := []

/-- `approved_at or _utc_now_iso()`. -/
def ReplyArgs.rejectedAt (a : ReplyArgs) : String :=
  if a.approvedAt.getD "" = "" then a.utcNow else a.approvedAt.getD ""

/-- The record of a rejection. -/
def rejectionRecord (card : Job) (a : ReplyArgs) : Dict Json :=
  [("approval_job_id", .str card.jobId),
   ("approval_kind", card.payload.getJson "approval_kind"),
   ("rejected_by", .str a.approvedBy),
   ("rejected_at", .str a.rejectedAt),
   ("source_message_id", optInt a.sourceMessageId),
   ("reason", .str (String.ofList (a.text.toList.take 500)))]

/--
`_default_persist_rejection`, on the `extra` of the stored sessions. The last 64 records are
kept; a session that is not stored is skipped. `none` when the records cannot be iterated.
-/
def defaultPersistRejection (extras : Dict (Dict Json)) (card : Job) (a : ReplyArgs) :
    Option (Dict (Dict Json)) :=
  match extras.get? card.sessionId with
  | none => some extras
  | some extra =>
    (extra.getJson "approval_rejections").items?.map fun records =>
      let bucket := records ++ [.obj (rejectionRecord card a)]
      extras.set card.sessionId
        (extra.set "approval_rejections" (.arr (bucket.drop (bucket.length - 64))))

/-- The REJECT branch. The audit reads `decision_id` after the rejection is persisted. -/
def handleReject (extras : Dict (Dict Json)) (card : Job) (a : ReplyArgs) :
    Option ApprovalReplyOutcome × Dict (Dict Json) :=
  let persisted := match a.persistRejectionFn with
    | none => defaultPersistRejection extras card a
    | some true => some extras
    | some false => none
  let outcome := ((card.payload.get? "extra").getD (.obj [])).obj?.map fun extra =>
    { intent := .reject
      approvalJobId := some card.jobId
      rejectionRecorded := persisted.isSome
      audit :=
        [("rejected_by", .str a.approvedBy),
         ("rejected_at", .str a.rejectedAt),
         ("source_message_id", optInt a.sourceMessageId),
         ("decision_id", extra.getJson "decision_id")] }
  (outcome, persisted.getD extras)

/-- The APPROVE branch: convert and enqueue. -/
def handleApprove (q : JobQueue) (card : Job) (a : ReplyArgs) :
    Option ApprovalReplyOutcome × JobQueue :=
  match ApprovalRequest.fromPayload card.payload with
  | none => (none, q)
  | some request =>
    if request.approvalKind ≠ approvalKindObsidianWrite then
      (some { intent := .approve, approvalJobId := some card.jobId,
              skippedReason := some "approval_kind_not_handled" }, q)
    else
      match approvalToObsidianWriteRequest request card.jobId a.approvedBy a.approvedAt
          a.utcNow with
      | none => (none, q)
      | some write =>
        match ObsidianWriterWorker.enqueue q write a.jobId a.now with
        | .error _ => (none, q)
        | .ok ((job, created), q') =>
          (some
            { intent := .approve
              approvalJobId := some card.jobId
              writeJobId := some job.jobId
              skippedReason := if created then none else some "duplicate_obsidian_write"
              audit :=
                [("approved_by", .str a.approvedBy),
                 ("approved_at", optText write.approvedAt),
                 ("source_message_id", optInt a.sourceMessageId),
                 ("decision_id", request.extra.getJson "decision_id")] }, q')

/-- `handle_approval_reply`: the outcome, the tables, and the `extra` of the stored sessions. -/
def handleApprovalReply (q : JobQueue) (extras : Dict (Dict Json)) (a : ReplyArgs) :
    Option ApprovalReplyOutcome × JobQueue × Dict (Dict Json) :=
  let intent := parseApprovalIntent a.text
  if intent = .hold ∨ intent = .unclear then
    (some { intent, skippedReason := some "intent_not_actionable" }, q, extras)
  else
    match findReplyableApproval q a.sessionId a.approvalKind a.sourceMessageId a.sourceThreadId
        none with
    | none => (none, q, extras)
    | some none => (some { intent, skippedReason := some "no_matching_approval" }, q, extras)
    | some (some card) =>
      if intent = .reject then
        ((handleReject extras card a).1, q, (handleReject extras card a).2)
      else ((handleApprove q card a).1, (handleApprove q card a).2, extras)

/-! ## What a reply does to the tables -/

/-- The write request that an approval of this card comes to. -/
def writeRequest? (card : Job) (a : ReplyArgs) : Option ObsidianWriteRequest :=
  (ApprovalRequest.fromPayload card.payload).bind fun request =>
    approvalToObsidianWriteRequest request card.jobId a.approvedBy a.approvedAt a.utcNow

theorem writeRequest?_spec {card : Job} {a : ReplyArgs} {write : ObsidianWriteRequest}
    (h : writeRequest? card a = some write) :
    write.approvalId = some card.jobId ∧ write.noteKind = noteKindKnowledge := by
  obtain ⟨request, -, h⟩ := Option.bind_eq_some_iff.mp h
  unfold approvalToObsidianWriteRequest at h
  split at h
  · cases h
  · cases h
    exact ⟨rfl, rfl⟩

theorem handleApprove_queue (q : JobQueue) (card : Job) (a : ReplyArgs) :
    (handleApprove q card a).2 = match writeRequest? card a with
      | none => q
      | some write => q.commit (ObsidianWriterWorker.enqueue q write a.jobId a.now) := by
  unfold handleApprove writeRequest?
  cases ApprovalRequest.fromPayload card.payload with
  | none => rfl
  | some request =>
    by_cases hkind : request.approvalKind = approvalKindObsidianWrite
    · simp only [hkind, ne_eq, not_true_eq_false, if_false, approvalToObsidianWriteRequest,
        Option.bind_some]
      split <;> simp_all
    · simp [hkind, approvalToObsidianWriteRequest]

/-- **A reply inserts a row only when it approves a card that has no write in flight.** -/
theorem handleApprovalReply_queue (q : JobQueue) (extras : Dict (Dict Json)) (a : ReplyArgs) :
    (handleApprovalReply q extras a).2.1 = q
      ∨ ∃ card write, parseApprovalIntent a.text = .approve
        ∧ findReplyableApproval q a.sessionId a.approvalKind a.sourceMessageId a.sourceThreadId
          none = some (some card)
        ∧ writeRequest? card a = some write
        ∧ ObsidianWriterWorker.findActive q write.sessionId write.noteKind write.sourceThreadId
          write.title = none
        ∧ (handleApprovalReply q extras a).2.1
          = q.commit (q.enqueue (ObsidianWriterWorker.insert write a.jobId a.now)) := by
  unfold handleApprovalReply
  cases hintent : parseApprovalIntent a.text with
  | hold => exact .inl rfl
  | unclear => exact .inl rfl
  | reject =>
    refine .inl ?_
    simp only [reduceCtorEq, or_self, if_false, if_true]
    split <;> rfl
  | approve =>
    simp only [reduceCtorEq, or_self, if_false]
    cases hcard : findReplyableApproval q a.sessionId a.approvalKind a.sourceMessageId
        a.sourceThreadId none with
    | none => exact .inl rfl
    | some found =>
      cases found with
      | none => exact .inl rfl
      | some card =>
        simp only [handleApprove_queue]
        cases hwrite : writeRequest? card a with
        | none => exact .inl rfl
        | some write =>
          simp only [ObsidianWriterWorker.commit_enqueue]
          cases hactive : ObsidianWriterWorker.findActive q write.sessionId write.noteKind
              write.sourceThreadId write.title with
          | some existing => exact .inl rfl
          | none => exact .inr ⟨card, write, trivial, rfl, hwrite, hactive, rfl⟩

end ApprovalReply

end ForgeKit
