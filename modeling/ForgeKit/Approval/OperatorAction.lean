import ForgeKit.Approval.Reply

/-!
# Requests to the operator (`operator_action.py`)

What an operator card asks for, how a reply to it is read, and the two stamps on the `extra` of the
session: a request that is pending, and a request that was answered.

A `none` is an exception of the source: a list of the session that cannot be iterated, or a request
that cannot be restored.
-/

namespace ForgeKit

namespace OperatorAction

/-- `OperatorActionType`. -/
inductive OperatorActionType where
  | approvalRequired
  | infoRequired
  | accessRequired
  | secretRequired
  | decisionRequired
deriving DecidableEq, Repr

def OperatorActionType.value : OperatorActionType → String
  | approvalRequired => "approval_required"
  | infoRequired => "info_required"
  | accessRequired => "access_required"
  | secretRequired => "secret_required"
  | decisionRequired => "decision_required"

def allTypes : List OperatorActionType :=
  [.approvalRequired, .infoRequired, .accessRequired, .secretRequired, .decisionRequired]

/-- `OperatorActionType(text)`; `none` is the `ValueError`. -/
def OperatorActionType.ofValue? (text : String) : Option OperatorActionType :=
  allTypes.find? fun type => type.value == text

/-- `OperatorSessionState`. -/
inductive OperatorSessionState where
  | running
  | waitingApproval
  | waitingUserInput
  | waitingAccess
  | waitingSecret
  | blockedExternal
deriving DecidableEq, Repr

def OperatorSessionState.value : OperatorSessionState → String
  | running => "running"
  | waitingApproval => "waiting_approval"
  | waitingUserInput => "waiting_user_input"
  | waitingAccess => "waiting_access"
  | waitingSecret => "waiting_secret"
  | blockedExternal => "blocked_external"

/-- `OperatorSessionState(text)`; `none` is the `ValueError`. -/
def OperatorSessionState.ofValue? (text : String) : Option OperatorSessionState :=
  [running, waitingApproval, waitingUserInput, waitingAccess, waitingSecret, blockedExternal].find?
    fun state => state.value == text

/-- `session_state_for_request_type`. -/
def sessionStateForRequestType : OperatorActionType → OperatorSessionState
  | .approvalRequired => .waitingApproval
  | .infoRequired => .waitingUserInput
  | .accessRequired => .waitingAccess
  | .secretRequired => .waitingSecret
  | .decisionRequired => .waitingUserInput

/-! ## Requests -/

/-- `OperatorActionRequest`. -/
structure OperatorActionRequest where
  requestType : OperatorActionType
  sessionId : String
  title : String
  stage : String
  whyBlocked : String
  expectedAnswer : String
  answerExamples : List String := []
  nextAction : String := ""
  timeoutHint : String := ""
  requestedBy : String := "engineering-agent"
  extra : Dict Json := []

/-- `from_extra_payload`. An unknown type is read as `APPROVAL_REQUIRED`. -/
def OperatorActionRequest.fromExtraPayload (payload : Dict Json) : Option OperatorActionRequest := do
  let rawType := PyText.strip (payload.strOr "request_type" "")
  let examples ← (payload.getJson "answer_examples").items?
  let extra := payload.getJson "extra"
  let extra ← if extra.truthy then extra.obj? else some []
  some
    { requestType := (OperatorActionType.ofValue? rawType).getD .approvalRequired
      sessionId := payload.strOr "session_id" ""
      title := payload.strOr "title" ""
      stage := payload.strOr "stage" ""
      whyBlocked := payload.strOr "why_blocked" ""
      expectedAnswer := payload.strOr "expected_answer" ""
      answerExamples := examples.map Json.toStr
      nextAction := payload.strOr "next_action" ""
      timeoutHint := payload.strOr "timeout_hint" ""
      requestedBy := payload.strOr "requested_by" "engineering-agent"
      extra }

/-- `operator_action_request_from_approval_payload`; its exceptions are caught. -/
def operatorActionRequestFromApprovalPayload (payload : Dict Json) : Option OperatorActionRequest :=
  match payload.getJson "extra" with
  | .obj extra =>
    match Dict.getJson extra "operator_action" with
    | .obj request => OperatorActionRequest.fromExtraPayload request
    | _ => none
  | _ => none

/-! ## Replies -/

/-- `OperatorActionReply`. -/
structure OperatorActionReply where
  requestType : OperatorActionType
  answers : Dict String
  isComplete : Bool
  rejectedReason : Option String := none
  rawText : String := ""

/-- `_REQUIRED_KEYS_BY_TYPE`: one of the groups has to be answered in full. -/
def requiredKeysByType : OperatorActionType → List (List String)
  | .infoRequired =>
    [["host"], ["hostname"], ["ip"], ["domain"], ["endpoint"], ["project"], ["account"]]
  | .accessRequired => [["user", "auth"], ["ssh_user"], ["ssh_key"], ["access_method"]]
  | .secretRequired =>
    [["github_secret"], ["env_file"], ["vault_path"], ["secret_store"], ["cloud_secret"]]
  | .decisionRequired => [["decision"], ["choice"]]
  | .approvalRequired => [["intent"]]

/-- Where `str.splitlines` breaks a text. The empty line inside `\r\n` is skipped like any other. -/
def isLineBreak (c : Char) : Bool :=
  let n := c.toNat
  (0x0A ≤ n && n ≤ 0x0D) || (0x1C ≤ n && n ≤ 0x1E) || n == 0x85 || n == 0x2028 || n == 0x2029

def isKeyChar (c : Char) : Bool := c.isAlphanum || c == '_' || c == '.' || c == '-'

/-- `value.strip().strip("`").strip()`. -/
def cleanValue (value : String) : String :=
  let noTicks := ((PyText.strip value).toList.dropWhile (· == '\x60')).reverse.dropWhile (· == '\x60')
  PyText.strip (String.ofList noTicks.reverse)

/-- `_KV_LINE_RE.match`, with the key and the value as they are stored. -/
def keyValue? : List Char → Option (String × String)
  | [] => none
  | c :: cs =>
    if c.isAlpha || c == '_' then
      match (cs.dropWhile isKeyChar).dropWhile PyText.isSpace with
      | '=' :: value =>
        some (PyText.lower (String.ofList (c :: cs.takeWhile isKeyChar)),
          cleanValue (String.ofList value))
      | _ => none
    else none

/-- A line without its bullet. -/
def withoutBullet (line : String) : String :=
  if ["- ", "* ", "• "].any (PyText.startsWith line) then
    PyText.strip (String.ofList (line.toList.drop 2))
  else line

/-- What a line adds to the answers; the last value of a key stays. -/
def addLine (answers : Dict String) (line : List Char) : Dict String :=
  match keyValue? (withoutBullet (PyText.strip (String.ofList line))).toList with
  | some (key, value) => if value = "" then answers else answers.set key value
  | none => answers

/-- A character of a pattern under `re.IGNORECASE`. -/
def sameLetter (pattern c : Char) : Bool :=
  c.toLower == pattern || (pattern == 's' && c.toNat == 0x17F)

/-- The text begins with the word, blanks and `=`. -/
def assigns (word text : List Char) : Bool :=
  match word, text with
  | [], text => (text.dropWhile PyText.isSpace).head? == some '='
  | p :: ps, c :: cs => sameLetter p c && assigns ps cs
  | _ :: _, [] => false

/-- `_SECRET_VALUE_KEY_HINT_RE.search` after a character; `isWord` is the class `\w`. -/
def secretValueFrom (isWord : Char → Bool) (afterWord : Bool) : List Char → Bool
  | [] => false
  | c :: cs =>
    (!afterWord && ["secret_value", "raw_value", "value"].any fun word => assigns word.toList (c :: cs))
      || secretValueFrom isWord (isWord c) cs

/-- `parse_operator_action_reply`. -/
def parseOperatorActionReply (isWord : Char → Bool) (requestType : OperatorActionType)
    (text : String) : OperatorActionReply :=
  let raw := PyText.strip text
  if requestType = .secretRequired && secretValueFrom isWord false raw.toList then
    { requestType, answers := [], isComplete := false
      rejectedReason := some "secret_value_inline", rawText := raw }
  else
    let answers := (raw.toList.splitOnP isLineBreak).foldl addLine []
    if answers = [] then
      { requestType, answers := [], isComplete := false
        rejectedReason :=
          if requestType = .approvalRequired then none else some "no_key_value_pairs"
        rawText := raw }
    else
      let complete := (requiredKeysByType requestType).any fun group =>
        group.all fun key => (answers.get? key).isSome
      { requestType, answers, isComplete := complete
        rejectedReason := if complete then none else some "missing_required_keys"
        rawText := raw }

@[simp] theorem parseOperatorActionReply_requestType (isWord : Char → Bool)
    (requestType : OperatorActionType) (text : String) :
    (parseOperatorActionReply isWord requestType text).requestType = requestType := by
  unfold parseOperatorActionReply
  dsimp only
  split
  · rfl
  · split <;> rfl

/-! ## Stamps on a session -/

/-- `SESSION_EXTRA_OPERATOR_STATE_KEY`. -/
def operatorStateKey : String := "operator_state"

/-- `SESSION_EXTRA_PENDING_REQUESTS_KEY`. -/
def pendingRequestsKey : String := "operator_pending_requests"

/-- `SESSION_EXTRA_ANSWERED_KEY`. -/
def answeredKey : String := "operator_answered_requests"

/-- The entry of a request that is pending. -/
def pendingEntry (request : OperatorActionRequest) : Json :=
  .obj
    [("request_type", .str request.requestType.value), ("title", .str request.title),
     ("stage", .str request.stage), ("why_blocked", .str request.whyBlocked),
     ("expected_answer", .str request.expectedAnswer)]

/-- `xs[-n:]` of a list that has grown beyond `n`. -/
def lastOf (n : Nat) (xs : List Json) : List Json := xs.drop (xs.length - n)

/-- `stamp_pending_request`. -/
def stampPendingRequest (extra : Dict Json) (request : OperatorActionRequest) : Option (Dict Json) :=
  (extra.getJson pendingRequestsKey).items?.map fun pending =>
    (extra.set pendingRequestsKey (.arr (lastOf 32 (pending ++ [pendingEntry request])))).set
      operatorStateKey (.str (sessionStateForRequestType request.requestType).value)

/-- The entry of an answer. -/
def answeredEntry (reply : OperatorActionReply) (answeredBy answeredAt : String) : Json :=
  .obj
    [("request_type", .str reply.requestType.value),
     ("answers", .obj (reply.answers.map fun e => (e.1, .str e.2))),
     ("answered_by", .str answeredBy), ("answered_at", .str answeredAt),
     ("rejected_reason", optText reply.rejectedReason), ("is_complete", .bool reply.isComplete)]

/-- `isinstance(entry, dict) and entry.get("request_type") == type.value`. -/
def asksFor (type : OperatorActionType) (entry : Json) : Bool :=
  match entry with
  | .obj d => (Dict.getJson d "request_type").eqStr type.value
  | _ => false

/-- The state that the oldest pending request puts the session in. -/
def waitingState : List Json → OperatorSessionState
  | [] => .running
  | .obj d :: _ =>
    sessionStateForRequestType
      ((OperatorActionType.ofValue? (Dict.getJson d "request_type").toStr).getD .approvalRequired)
  | _ :: _ => sessionStateForRequestType .approvalRequired

/-- `stamp_answered_request`. -/
def stampAnsweredRequest (extra : Dict Json) (reply : OperatorActionReply)
    (answeredBy answeredAt : String) : Option (Dict Json) := do
  let answered ← (extra.getJson answeredKey).items?
  let extra := extra.set answeredKey
    (.arr (lastOf 64 (answered ++ [answeredEntry reply answeredBy answeredAt])))
  if reply.isComplete then
    let pending ← (extra.getJson pendingRequestsKey).items?
    -- one request of the type is removed, the oldest one
    let pending := pending.eraseP (asksFor reply.requestType)
    some ((extra.set pendingRequestsKey (.arr pending)).set operatorStateKey
      (.str (waitingState pending).value))
  else some extra

end OperatorAction

end ForgeKit
