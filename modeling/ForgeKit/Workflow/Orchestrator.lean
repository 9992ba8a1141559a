import ForgeKit.Workflow.Dispatch
import ForgeKit.Workflow.ReviewLoop

/-!
# The orchestrator of a session (`workflow.py`)

A request is taken in, approved or rejected, worked on, completed, and reopened by the feedback of a
review. Every call loads the session, changes it and saves it whole.

* `Change.apply` — what a call makes of the session that it loaded
* `perform`, `intake`, `respondToReview` — the calls
-/

namespace ForgeKit.Workflow

open Py (Text CodePoint lit)
open IsoTime (DateTime)
open JsonText
open Storage
open Release (strInt)

/-- What the orchestrator is set up with and what it calls elsewhere. -/
structure Env where
  py : Readers
  /-- The ids of the runners in the pool. -/
  pool : List Text
  /-- The class `\w`. -/
  isWord : CodePoint → Bool
  /-- `build_coding_job_from_proposal(proposal_from_dict(payload), status="ready",
  approved_at=_coerce_utc(now)).to_dict()`; `none` is an exception. -/
  buildJob : JsonDict → DateTime → Option JsonDict

/-! ## Links -/

/-- A letter, whatever its case. -/
def letter (c : Char) (x : CodePoint) : Bool := x = Py.ofChar c || x = Py.ofChar c.toUpper

/-- `text` after one code point of each kind. -/
def dropEach : List (CodePoint → Bool) → Text → Option Text
  | [], t => some t
  | _ :: _, [] => none
  | p :: ps, c :: t => if p c then dropEach ps t else none

/-- The text after `https?://`. -/
def afterScheme (t : Text) : Option Text := do
  let rest ← dropEach (['h', 't', 't', 'p'].map letter) t
  let rest := match rest with
    -- `ſ` is the long form of `s`
    | c :: more => if letter 's' c || c.val = 0x17F then more else rest
    | [] => rest
  dropEach ([':', '/', '/'].map fun c x => x = Py.ofChar c) rest

/-- The class of `_URL_PATTERN`. -/
def isUrlChar (isWord : CodePoint → Bool) (c : CodePoint) : Bool :=
  isWord c || (lit "-./?=&%#:+,@!~*'();$").contains c

/-- `_URL_PATTERN`, at the start of a text. -/
def matchUrl (isWord : CodePoint → Bool) (t : Text) : Option Text := do
  let rest ← afterScheme t
  let tail := rest.takeWhile (isUrlChar isWord)
  if tail = [] then none else some (t.take (t.length - rest.length + tail.length))

/-- `_URL_PATTERN.findall(text)`, after the next `skip` code points. -/
def findUrls (isWord : CodePoint → Bool) : ℕ → Text → List Text
  | _, [] => []
  | skip + 1, _ :: t => findUrls isWord skip t
  | 0, c :: t =>
    match matchUrl isWord (c :: t) with
    | some url => url :: findUrls isWord (url.length - 1) t
    | none => findUrls isWord 0 t

/-- `url.rstrip(".,);")`. -/
def trimUrl (url : Text) : Text := url.rdropWhile fun c => (lit ".,);").contains c

/-- `extract_urls`. -/
def extractUrls (isWord : CodePoint → Bool) (text : Text) : List Text :=
  uniquePreserve (((findUrls isWord 0 text).map trimUrl).filter (· ≠ []))

/-- `_merge_user_links`. -/
def mergeUserLinks (promptLinks extra : List Text) : List Text :=
  uniquePreserve (((promptLinks ++ extra).map fun url => trimUrl (Py.strip url)).filter (· ≠ []))

/-! ## Messages -/

/-- `t or default`. -/
def orText (t : Option Text) (default : Text) : Text :=
  match t with
  | some t => if t = [] then default else t
  | none => default

/-- `format_intake_message`. -/
def formatIntakeMessage (s : WorkflowSession) (plan : DispatchPlan) : Text :=
  Py.joinLines <|
    [lit "**[engineering-agent] 새 작업 접수**",
      lit "세션 ID: " ++ inCode s.sessionId,
      lit "분류: " ++ plan.taskType.value,
      lit "참여 후보: " ++ joinComma plan.roleSequence]
    ++ (plan.executor.toList.map fun e => lit "실행 후보: " ++ e.role ++ lit " ("
      ++ orText e.runnerId (lit "<no runner>") ++ lit ", score=" ++ strInt e.score ++ lit ")")
    ++ section? plan.advisors [lit "검토 후보: " ++ joinComma (plan.advisors.map fun a =>
      a.role ++ lit "/" ++ orText a.runnerId (lit "?"))]
    ++ [[], lit "**참고 레퍼런스 (제안)**"]
    ++ section? s.referencesUser
      (lit "- 사용자 제공 (1순위):" :: s.referencesUser.map (lit "  - " ++ ·))
    ++ section? s.referencesSuggested
      (lit "- task_type 추천 카테고리:" :: s.referencesSuggested.map (lit "  - " ++ ·))
    ++ (if s.referencesUser.isEmpty && s.referencesSuggested.isEmpty then
        [lit "- (이 task_type에는 시각 reference를 강제하지 않습니다)"] else [])
    ++ [[]]
    ++ if s.writeRequested && orText s.writeBlockedReason [] ≠ [] then
        [lit "**승인 필요**", lit "- " ++ orText s.writeBlockedReason [],
          lit "- 진행하려면 `yule engineer approve --session " ++ s.sessionId
            ++ lit "` 또는 Discord에서 ✅로 승인해주세요."]
      else [lit "승인 없이 진행 가능 (write 작업 없음 또는 사전 승인됨)."]

/-! ## What a call makes of a session -/

/-- `raise WorkflowError(…)`. -/
def refuse {α : Type} (message : List Text) : Except Raised α := .error (.workflowError message.flatten)

/-- The existing coding job is ready. -/
def hasReadyJob (py : Readers) (extra : JsonDict) : Bool :=
  match (extra.get? (lit "coding_job")).bind Document.dict? with
  | some job =>
    Py.lower (Py.strip (strOr py.toConversions job.members (lit "status") [])) = lit "ready"
  | none => false

/-- `_promote_coding_proposal_to_ready_job`. -/
def promoteCodingProposalToReadyJob (env : Env) (s : WorkflowSession) (now : DateTime) :
    WorkflowSession :=
  match (s.extra.get? (lit "coding_proposal")).bind Document.dict? with
  | none => s
  | some payload =>
    if payload.members.isEmpty then s
    else if hasReadyJob env.py s.extra then s
    else
      match env.buildJob payload now with
      | none => s
      | some job => { s with extra := s.extra.set (lit "coding_job") job.document }

section

variable (env : Env) (sessionId : Text) (s : WorkflowSession)

/-- `approve`; `now` is read once more before the save. -/
def approve (now : DateTime) : Except Raised WorkflowSession :=
  if s.state ≠ .intake then
    refuse [lit "session ", sessionId, lit " is in state ", s.state.value, lit "; cannot approve"]
  else
    .ok (promoteCodingProposalToReadyJob env
      { s with state := .approved, writeBlockedReason := none } now)

/-- `reject`. -/
def reject (reason : Text) : Except Raised WorkflowSession :=
  if s.state = .completed ∨ s.state = .rejected then
    refuse [lit "session ", sessionId, lit " is already ", s.state.value]
  else
    .ok { s with
      state := .rejected
      rejectionReason := some (if reason = [] then lit "rejected" else reason) }

/-- `progress`. -/
def progress (note : Text) : Except Raised WorkflowSession :=
  if s.state = .intake then
    refuse [lit "session ", sessionId, lit " not yet approved; intake must be approved first"]
  else if s.state = .completed ∨ s.state = .rejected then
    refuse [lit "session ", sessionId, lit " already ", s.state.value, lit "; progress is closed"]
  else
    .ok { s with
      state := .inProgress
      progressNotes := s.progressNotes ++ [(stripped? note).getD (lit "(empty note)")] }

/-- `complete`. -/
def complete (summary : Text) (referencesUsed : List JsonDict) : Except Raised WorkflowSession :=
  if s.state = .completed ∨ s.state = .rejected then
    refuse [lit "session ", sessionId, lit " already ", s.state.value]
  else if s.state = .intake then
    refuse [lit "session ", sessionId, lit " not yet approved; cannot complete from intake"]
  else .ok { s with state := .completed, summary := stripped? summary, referencesUsed }

/-- `record_review_feedback`. -/
def recordReviewFeedback (feedback : ReviewFeedback) : Except Raised WorkflowSession :=
  if s.state = .rejected then
    refuse [lit "session ", sessionId, lit " is rejected; review feedback is not accepted"]
  else
    .ok { s with
      state := if s.state = .completed then .inProgress else s.state
      reviewCycle := s.reviewCycle + 1
      reviewFeedbacks := s.reviewFeedbacks ++ [feedbackRecord feedback (routeReviewFeedback feedback)]
      -- `feedback.target_thread_id or session.thread_id`
      threadId := if feedback.targetThreadId = some 0 then s.threadId
        else feedback.targetThreadId.or s.threadId }

/-- `record.get("feedback_id") == feedback_id`. -/
def hasFeedbackId (feedbackId : Text) (record : JsonDict) : Bool :=
  match get record.members (lit "feedback_id") with
  | .str t => t = feedbackId
  | _ => false

/-- The message of `respond_to_review`. -/
def replyMessage (feedbackId : Text) (reply : ReviewReply) : Except Raised Text :=
  if s.state = .rejected then
    refuse [lit "session ", sessionId, lit " is rejected; review reply is not allowed"]
  else
    match s.reviewFeedbacks.find? (hasFeedbackId feedbackId) with
    | none => refuse [lit "feedback ", feedbackId, lit " not found in session ", sessionId]
    | some record => do
      let feedback ← (feedbackFromRecord env.py record).elim (.error .payload) .ok
      let routing ← (routingFromRecord env.py record feedback).elim (.error .payload) .ok
      .ok (formatReviewReplyMessage env.py feedback routing s.sessionId s.reviewCycle reply)

/-- The note of a reply. -/
def replyNote (reply : ReviewReply) : Text :=
  let count := fun {α : Type} (l : List α) => strInt l.length
  [lit "review cycle ", strInt s.reviewCycle, lit " 회신: 적용 ", count reply.applied,
    lit "건, 제안 ", count reply.proposed, lit "건, 남음 ", count reply.remaining, lit "건"].flatten

/-- The session after a reply. -/
def WorkflowSession.replied (reply : ReviewReply) : WorkflowSession :=
  { s with
    progressNotes := s.progressNotes ++ [replyNote s reply]
    referencesUsed := s.referencesUsed ++ reply.referencesUsed }

/-- What a call does between its load and its save. -/
inductive Change where
  | approve (now : DateTime)
  | reject (reason : Text)
  | progress (note : Text)
  | complete (summary : Text) (referencesUsed : List JsonDict)
  | recordReviewFeedback (feedback : ReviewFeedback)
  | respondToReview (feedbackId : Text) (reply : ReviewReply)
  /-- The writers elsewhere: `extra` is replaced, or the thread. -/
  | annotate (extra : JsonDict) (threadId : Option Int)
  /-- `_on_done` of the merge continuation. -/
  | done

/-- The session that a call saves. -/
def Change.apply : Change → Except Raised WorkflowSession
  | approve now => Workflow.approve env sessionId s now
  | reject reason => Workflow.reject sessionId s reason
  | progress note => Workflow.progress sessionId s note
  | complete summary referencesUsed => Workflow.complete sessionId s summary referencesUsed
  | recordReviewFeedback feedback => Workflow.recordReviewFeedback sessionId s feedback
  | respondToReview feedbackId reply => do
    let _ ← replyMessage env sessionId s feedbackId reply
    .ok (s.replied reply)
  | annotate extra threadId => .ok { s with extra, threadId }
  | done => .ok { s with state := .completed }

end

/-! ## The calls -/

section

variable (env : Env) (cache : Cache)

/-- `_require_session`. -/
def requireSession (sessionId : Text) (time : ℚ) : Except Raised WorkflowSession := do
  match ← loadSession env.py cache sessionId time with
  | some s => .ok s
  | none => refuse [lit "session ", sessionId, lit " not found"]

/-- A call that loads a session, changes it and saves it. -/
def perform (sessionId : Text) (change : Change) (clock : Clock) :
    Except Raised (Cache × WorkflowSession) := do
  let s ← requireSession env cache sessionId clock.time
  let changed ← change.apply env sessionId s
  updateSession cache changed clock

/-- What `intake` is given, and the id that it draws. -/
structure IntakeRequest where
  sessionId : Text
  prompt : Text
  taskType : Option TaskType := none
  writeRequested : Bool := false
  channelId : Option Int := none
  userId : Option Int := none
  threadId : Option Int := none
  extraUserLinks : List Text := []

/-- The plan of a request. -/
def IntakeRequest.plan (request : IntakeRequest) : DispatchPlan :=
  dispatch env.pool
    { prompt := request.prompt, taskType := request.taskType
      writeRequested := request.writeRequested, userApproved := false }

/-- The session of a request. -/
def IntakeRequest.session (request : IntakeRequest) (now : DateTime) : WorkflowSession :=
  let plan := request.plan env
  { sessionId := request.sessionId
    prompt := request.prompt
    taskType := plan.taskType.value
    state := .intake
    createdAt := now
    updatedAt := now
    roleSequence := plan.roleSequence
    executorRole := plan.executor.map RoleAssignment.role
    executorRunner := plan.executor.bind RoleAssignment.runnerId
    referencesUser := mergeUserLinks (extractUrls env.isWord request.prompt) request.extraUserLinks
    referencesSuggested := plan.referenceSources
    channelId := request.channelId
    userId := request.userId
    threadId := request.threadId
    writeRequested := request.writeRequested
    writeBlockedReason := plan.writeBlockReason }

/-- `intake`. -/
def intake (request : IntakeRequest) (clock : Clock) :
    Except Raised (Cache × WorkflowSession × Text) := do
  if Py.strip request.prompt = [] then refuse [lit "prompt must not be empty"]
  else
    let s := request.session env clock.now
    let cache ← saveSession cache s clock
    .ok (cache, s, formatIntakeMessage s (request.plan env))

/-- `respond_to_review`, with its message. -/
def respondToReview (sessionId feedbackId : Text) (reply : ReviewReply) (clock : Clock) :
    Except Raised (Cache × WorkflowSession × Text) := do
  let s ← requireSession env cache sessionId clock.time
  let message ← replyMessage env sessionId s feedbackId reply
  let (cache, updated) ← updateSession cache (s.replied reply) clock
  .ok (cache, updated, message)

end

end ForgeKit.Workflow
