import ForgeKit.Approval.OperatorAction
import ForgeKit.Approval.PrMergeReply
import ForgeKit.Approval.WorkOrder

/-!
# Messages in the approval channel (`reply_router.py`, `operator_action_reply.py`)

`route_approval_channel_message` hands a message to the first of four handlers that finds a card:
operator cards, merge cards, cards for code, cards for notes. Each handler finds its card by a rule
of its own. The texts that are sent back to the channel are left out.

* `route` — the order of the handlers; `Effect` — what a message makes happen

A `none` for a result is an exception of the source.
-/

namespace ForgeKit

namespace ReplyRouter

open ApprovalReply OperatorAction PrMergeReply WorkOrder

/-! ## Messages and sessions -/

/-- The author of a message. -/
structure Author where
  bot : Bool := false
  globalName : Option String := none
  name : Option String := none
  displayName : Option String := none
  id : Option Int := none

/-- The channel of a message; `privateName` is `_name`. -/
structure Channel where
  id : Option Int := none
  name : Option String := none
  privateName : Option String := none

/-- A message of Discord; `reference` is the id of the message it quotes. -/
structure Message where
  author : Option Author := none
  channel : Option Channel := none
  content : String
  id : Option Int := none
  reference : Option Int := none

/-- A session as the lister gives it. -/
structure ListedSession where
  sessionId : String
  threadId : Option Int := none
  extra : Dict Json := []
  updatedAt : String := ""

/-- A text that is not `None` and not empty. -/
def nonempty (text : Option String) : Option String := text.filter (· ≠ "")

/-- `is_approval_channel_message`. -/
def isApprovalChannelMessage (m : Message) (channelId : Option Int) (channelName : Option String) :
    Bool :=
  m.channel.any fun channel =>
    (channelId.isSome && channel.id == channelId)
      || (channelName.any fun name =>
        PyText.strip name != ""
          && PyText.contains (((nonempty channel.name).or (nonempty channel.privateName)).getD "")
            (PyText.strip name))

/-- `_safe_str` of a text. -/
def safeStr (text : String) : Option String :=
  if PyText.strip text = "" then none else some (PyText.strip text)

/-- The session with the greatest `updated_at`, the first of them. -/
def mostRecentSession : List ListedSession → Option ListedSession
  | [] => none
  | s :: ss =>
    let key := fun s : ListedSession => (safeStr s.updatedAt).getD ""
    some (ss.foldl (fun best s => if key best < key s then s else best) s)

/-- The first session that belongs to the channel and has an id. -/
def sessionOfChannel (channelId : Int) (thread : ListedSession → Option Int)
    (sessions : List ListedSession) : Option String :=
  sessions.findSome? fun s => if thread s = some channelId then safeStr s.sessionId else none

/-- `_resolve_session_for_reply`. -/
def resolveSessionForReply (m : Message) (lister : Option (List ListedSession)) : Option String :=
  lister.bind fun sessions =>
    let inChannel := (m.channel.bind Channel.id).bind fun channelId =>
      (sessionOfChannel channelId ListedSession.threadId sessions).or
        (sessionOfChannel channelId (fun s => (s.extra.getJson "research_forum_thread_id").toInt?)
          sessions)
    inChannel.or ((mostRecentSession sessions).bind fun s => safeStr s.sessionId)

/-- `_author_handle`. -/
def authorHandle (m : Message) : String :=
  match m.author with
  | none => "unknown"
  | some author =>
    match ((nonempty author.globalName).or (nonempty author.name)).or (nonempty author.displayName),
      author.id with
    | some name, some id => name ++ " (" ++ toString id ++ ")"
    | some name, none => name
    | none, some id => "user:" ++ toString id
    | none, none => "unknown"

/-! ## Operator cards -/

/-- `OPERATOR_ACTION_KINDS`. -/
def operatorActionKinds : List String :=
  ["info_request", "access_request", "secret_request", "decision_request"]

/-- The saved operator cards of a session. -/
def operatorCards (q : JobQueue) (sessionId : String) : List Job :=
  (q.listForSession sessionId [.saved]).filter fun job =>
    job.jobType == Supersede.jobTypeApprovalPost
      && operatorActionKinds.any fun kind => (job.payload.getJson "approval_kind").eqStr kind

/-- `find_pending_operator_action_for_reply`: the source message, the thread, the newest. -/
def findPendingOperatorAction (q : JobQueue) (sessionId : String)
    (sourceMessageId sourceThreadId : Option Int) : Option (Option Job) :=
  if sessionId = "" then some none
  else
    let cards := operatorCards q sessionId
    do
      let quoted ← sourceMessageId.elim (some none) fun id =>
        findByInt (fun job => job.payload.getJson "source_message_id") id cards
      if quoted.isSome then return quoted
      let inThread ← sourceThreadId.elim (some []) fun id =>
        filterByInt (fun job => job.payload.getJson "source_thread_id") id cards
      return (mostRecent inThread).or (mostRecent cards)

/-- What the router reads and writes: the queue, and the `extra` of the stored sessions. -/
structure Desk where
  queue : JobQueue
  extras : Dict (Dict Json)

/-- What a message makes happen outside the router. -/
inductive Effect where
  | mergeExecutor (sessionId : String) (dispatch : PRMergeReplyDispatch)
  | workOrder (order : GitHubWorkOrder)
  | obsidianWrite (write : ObsidianWriteRequest)
  /-- An answer is stamped on the session of an operator card. -/
  | answerStamp (sessionId approvalJobId kind : String) (reply : OperatorActionReply)

namespace Effect

/-- The session an effect is for. -/
def session : Effect → String
  | mergeExecutor sessionId _ => sessionId
  | workOrder order => order.sessionId
  | obsidianWrite write => write.sessionId
  | answerStamp sessionId _ _ _ => sessionId

/-- The approval an effect rests on. -/
def approval : Effect → Option String
  | mergeExecutor _ dispatch => some dispatch.approvalJobId
  | workOrder order => some order.approvalId
  | obsidianWrite write => write.approvalId
  | answerStamp _ approvalJobId _ _ => some approvalJobId

/-- The kind of card that has such an effect. -/
def kind : Effect → String
  | mergeExecutor _ _ => approvalKindPrMerge
  | workOrder _ => approvalKindEngineeringWrite
  | obsidianWrite _ => approvalKindObsidianWrite
  | answerStamp _ _ kind _ => kind

end Effect

/-- One message, with what the router reads besides the desk. -/
structure Call where
  message : Message
  sessionLister : Option (List ListedSession)
  nowIso : Option String := none
  /-- `update_session` goes through. -/
  updates : Bool := true
  utcNow : String
  jobId : String
  now : Time

/-- What is wired into the router. -/
structure Wiring where
  approvalChannelId : Option Int
  approvalChannelName : Option String := none
  merge : MergeWiring
  /-- The class `\w` of the regular expressions. -/
  isWord : Char → Bool

namespace Call

/-- `source_thread_id`: the channel of the message. -/
def threadId (call : Call) : Option Int := call.message.channel.bind Channel.id

def text (call : Call) : String := PyText.strip call.message.content

def sessionId (call : Call) : Option String :=
  resolveSessionForReply call.message call.sessionLister

/-- `answered_at`, or the time of day. -/
def answeredAt (call : Call) : String :=
  let at_ := PyText.strip (call.nowIso.getD "")
  if at_ = "" then call.utcNow else at_

end Call

/-- `OperatorActionReplyOutcome`. -/
structure OperatorActionReplyOutcome where
  handled : Bool
  requestType : Option OperatorActionType := none
  approvalJobId : Option String := none
  request : Option OperatorActionRequest := none
  reply : Option OperatorActionReply := none
  newState : Option OperatorSessionState := none
  audit : Dict Json := []
  skippedReason : Option String := none

/-- `ApprovalReplyRouteResult`, without the text that was sent. -/
structure RouteResult where
  handled : Bool
  outcome : Option ApprovalReplyOutcome := none
  skippedReason : Option String := none
  operatorOutcome : Option OperatorActionReplyOutcome := none

/-- What the router returns, the effect of the message, and the desk after it. -/
abbrev Routed := Option RouteResult × Option Effect × Desk

variable (wiring : Wiring)

/-- The `extra` with the answer stamped on it; `none` when the stamp raises. -/
def stampedExtra (call : Call) (extra : Dict Json) (request : OperatorActionRequest) :
    Option (Dict Json) :=
  stampAnsweredRequest extra
    (parseOperatorActionReply wiring.isWord request.requestType call.text)
    (authorHandle call.message) call.answeredAt

/-- `handle_operator_action_reply` on the card that was found. -/
def answerCard (desk : Desk) (call : Call) (sessionId : String) (card : Job) : Routed :=
  match operatorActionRequestFromApprovalPayload card.payload with
  | none =>
    (some { handled := true, skippedReason := some "missing_operator_action_payload"
            operatorOutcome := some
              { handled := false, approvalJobId := some card.jobId
                skippedReason := some "missing_operator_action_payload" } }, none, desk)
  | some request =>
    let reply := parseOperatorActionReply wiring.isWord request.requestType call.text
    let outcome : OperatorActionReplyOutcome :=
      { handled := true, requestType := some request.requestType
        approvalJobId := some card.jobId, request := some request, reply := some reply
        audit := [("answered_by", .str (authorHandle call.message)),
          ("answered_at", .str call.answeredAt), ("source_message_id", optInt call.message.id),
          ("source_thread_id", optInt call.threadId),
          ("request_type", .str request.requestType.value), ("is_complete", .bool reply.isComplete),
          ("rejected_reason", optText reply.rejectedReason)] }
    match desk.extras.get? sessionId with
    | none => (some { handled := true, operatorOutcome := some outcome }, none, desk)
    | some extra =>
      match stampedExtra wiring call extra request with
      | none => (none, none, desk)
      | some extra' =>
        let outcome := { outcome with
          newState := match extra'.getJson operatorStateKey with
            | .str state => OperatorSessionState.ofValue? state
            | _ => none }
        -- a failed update is swallowed
        if call.updates then
          (some { handled := true, operatorOutcome := some outcome },
            some (.answerStamp sessionId card.jobId (card.payload.strOr "approval_kind" "") reply),
            { desk with extras := desk.extras.set sessionId extra' })
        else (some { handled := true, operatorOutcome := some outcome }, none, desk)

/-! ## Merge cards -/

/--
The session whose merge card the reply goes to, and whether the quoted message named it; the inner
`none` is no card.
-/
def mergeSession (q : JobQueue) (call : Call) (sessionId : String) :
    Option (Option (String × Bool)) := do
  let quoted ← call.message.reference.elim (some none) fun id =>
    findApprovalByPostedMessageId q id (some approvalKindPrMerge)
  match quoted with
  | some card =>
    let cardSession := card.payload.strOr "session_id" ""
    return some (if cardSession = "" then sessionId else cardSession, true)
  | none =>
    let found ← findReplyableApproval q sessionId (some approvalKindPrMerge) call.message.id
      call.threadId none
    return found.map fun _ => (sessionId, false)

/-- The guard against a reply that could be meant for several merge cards. -/
def isAmbiguous (q : JobQueue) (call : Call) (matchedViaReply : Bool) : Bool :=
  !matchedViaReply && call.message.reference.isNone
    && 2 ≤ (findOpenApprovalCardsByKind q approvalKindPrMerge).length

/-- The arguments that `handle_pr_merge_approval_reply` is called with. -/
def mergeArgs (call : Call) (sessionId : String) : PrMergeReplyArgs where
  text := call.text
  sessionId := sessionId
  approvedBy := authorHandle call.message
  sourceMessageId := call.message.id
  sourceThreadId := call.threadId
  approvedAt := call.nowIso.getD ""

/-- `_try_handle_pr_merge_reply` in the session that was found. -/
def replyToMerge (desk : Desk) (call : Call) (sessionId : String) (matchedViaReply : Bool) : Routed :=
  if isAmbiguous desk.queue call matchedViaReply then
    (some { handled := true, skippedReason := some "pr_merge_card_ambiguous" }, none, desk)
  else
    let (result, dispatch) :=
      handlePrMergeApprovalReply wiring.merge desk.queue (mergeArgs call sessionId)
    (result.map fun result => { handled := true, skippedReason := result.skippedReason },
      dispatch.map (Effect.mergeExecutor sessionId), desk)

/-! ## Cards for code and for notes -/

/-- `_try_handle_engineering_write_reply` on the card that was found. -/
def replyToCode (desk : Desk) (call : Call) (card : Job) : Routed :=
  match ApprovalRequest.fromPayload card.payload with
  | none => (none, none, desk)
  | some request =>
    if parseApprovalIntent call.text = .reject then
      (some { handled := true, skippedReason := some "engineering_write_rejected" }, none, desk)
    else
      match handleGithubWorkApprovalReply desk.queue request card.jobId (authorHandle call.message)
          call.nowIso none call.utcNow call.jobId call.now with
      | .error _ => (none, none, desk)
      | .ok (outcome, q') =>
        (some { handled := true, skippedReason := outcome.skippedReason },
          if outcome.skippedReason.isSome then none else outcome.workOrder.map Effect.workOrder,
          { desk with queue := q' })

/-- The arguments that `handle_approval_reply` is called with. -/
def noteArgs (call : Call) (sessionId : String) : ReplyArgs where
  text := call.text
  sessionId := sessionId
  approvedBy := authorHandle call.message
  sourceMessageId := call.message.id
  sourceThreadId := call.threadId
  approvedAt := call.nowIso
  utcNow := call.utcNow
  jobId := call.jobId
  now := call.now

/-- The card for a note that a reply in the session is matched to. -/
def noteCard (q : JobQueue) (call : Call) (sessionId : String) : Option (Option Job) :=
  findReplyableApproval q sessionId (some approvalKindObsidianWrite) call.message.id call.threadId none

/-- The write that a reply enqueues. -/
def noteWrite (q : JobQueue) (call : Call) (sessionId : String) (outcome : ApprovalReplyOutcome) :
    Option ObsidianWriteRequest :=
  if outcome.writeJobId.isSome && outcome.skippedReason.isNone then
    (noteCard q call sessionId).join.bind fun card => writeRequest? card (noteArgs call sessionId)
  else none

/-- The last branch: `handle_approval_reply`. -/
def replyToNote (desk : Desk) (call : Call) (sessionId : String) : Routed :=
  let (outcome, q', extras') := handleApprovalReply desk.queue desk.extras (noteArgs call sessionId)
  (outcome.map fun outcome =>
      { handled := true, outcome := some outcome, skippedReason := outcome.skippedReason },
    (outcome.bind (noteWrite desk.queue call sessionId)).map Effect.obsidianWrite,
    ⟨q', extras'⟩)

/-! ## The router -/

/-- The card for code that a reply in the session is matched to: the only rule with the quoted id. -/
def codeCard (q : JobQueue) (call : Call) (sessionId : String) : Option (Option Job) :=
  findReplyableApproval q sessionId (some approvalKindEngineeringWrite) call.message.id call.threadId
    call.message.reference

/-- The three handlers of an approval, in a session without operator cards. -/
def routeApproval (desk : Desk) (call : Call) (sessionId : String) : Routed :=
  match mergeSession desk.queue call sessionId with
  | none => (none, none, desk)
  | some (some (session, viaReply)) => replyToMerge wiring desk call session viaReply
  | some none =>
    match codeCard desk.queue call sessionId with
    | none => (none, none, desk)
    | some (some card) => replyToCode desk call card
    | some none => replyToNote desk call sessionId

/-- The operator card that takes the reply, before anything else is looked at. -/
def operatorCard (q : JobQueue) (call : Call) : Option (Option Job) :=
  call.sessionId.elim (some none) fun sessionId =>
    findPendingOperatorAction q sessionId call.message.id call.threadId

/-- The message is a reply: not from a bot, in the approval channel, and not blank. -/
def isReply (call : Call) : Bool :=
  !call.message.author.any Author.bot
    && isApprovalChannelMessage call.message wiring.approvalChannelId wiring.approvalChannelName
    && call.text != ""

/-- `route_approval_channel_message`. -/
def route (desk : Desk) (call : Call) : Routed :=
  if call.message.author.any Author.bot then (some { handled := false }, none, desk)
  else if !isApprovalChannelMessage call.message wiring.approvalChannelId
      wiring.approvalChannelName then
    (some { handled := false }, none, desk)
  else if call.text = "" then
    (some { handled := true, skippedReason := some "empty_message" }, none, desk)
  else
    match operatorCard desk.queue call with
    | none => (none, none, desk)
    | some (some card) => answerCard wiring desk call (call.sessionId.getD "") card
    | some none =>
      let intent := parseApprovalIntent call.text
      if intent = .hold ∨ intent = .unclear then
        (some { handled := true, skippedReason := some "intent_not_actionable" }, none, desk)
      else
        match call.sessionId with
        | none =>
          (some { handled := true, skippedReason := some "no_session_for_reply" }, none, desk)
        | some sessionId => routeApproval wiring desk call sessionId

end ReplyRouter

end ForgeKit
