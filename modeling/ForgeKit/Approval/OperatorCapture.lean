import ForgeKit.Approval.AddressedCard
import ForgeKit.Lib.Machine

/-!
# What an operator card takes from the channel

The row of an operator card stays saved after it was answered, so that a second answer can come.
What is still asked for is kept on the session, by type and age and not by card.

* `operator_cards_keep_capturing` — along a run: who takes a reply, and what an answer removes
* `answered_card_takes_approval` — a card with nothing pending takes an approval of another card
-/

namespace ForgeKit

namespace ReplyRouter

open ApprovalReply OperatorAction PrMergeReply WorkOrder JobQueue

/-! ## Events of the channel -/

/-- `list(extra.get("operator_pending_requests") or [])` of a stored session. -/
def pendingRequests (desk : Desk) (sessionId : String) : Option (List Json) :=
  (desk.extras.get? sessionId).bind fun extra => (extra.getJson pendingRequestsKey).items?

/-- The row of a card that was posted. -/
def savedRow (postedMessageId : Int) (r : Job) : Job :=
  { r with state := .saved, result := [("posted_message_id", .int postedMessageId)] }

@[simp] theorem savedRow_jobId (postedMessageId : Int) (r : Job) :
    (savedRow postedMessageId r).jobId = r.jobId := rfl

inductive ChannelEvent where
  | reply (call : Call)
  /-- A request is stamped on its session. -/
  | ask (sessionId : String) (request : OperatorActionRequest)
  /-- A card is enqueued and posted. -/
  | post (args : EnqueueArgs) (postedMessageId : Int)

def Desk.ask (desk : Desk) (sessionId : String) (request : OperatorActionRequest) : Desk :=
  match (desk.extras.get? sessionId).bind fun extra => stampPendingRequest extra request with
  | none => desk
  | some extra => { desk with extras := desk.extras.set sessionId extra }

def Desk.post (desk : Desk) (args : EnqueueArgs) (postedMessageId : Int) : Desk :=
  { desk with
    queue := match desk.queue.enqueue args with
      | .error _ => desk.queue
      | .ok (_, q') =>
        q'.updateJob args.jobId (savedRow postedMessageId) (savedRow_jobId postedMessageId) }

variable (wiring : Wiring)

def step (desk : Desk) : ChannelEvent → Desk
  | .reply call => (route wiring desk call).2.2
  | .ask sessionId request => desk.ask sessionId request
  | .post args postedMessageId => desk.post args postedMessageId

variable {wiring} {desk : Desk} {call : Call}

/-! ## Who takes a reply -/

theorem safeStr_ne_empty {text s : String} (h : safeStr text = some s) : s ≠ "" := by
  unfold safeStr at h
  split at h
  · cases h
  · next hne =>
    cases h
    exact hne

theorem sessionId_ne_empty {s : String} (h : call.sessionId = some s) : s ≠ "" := by
  have hchannel : ∀ (channelId : Int) (thread : ListedSession → Option Int) sessions,
      sessionOfChannel channelId thread sessions = some s → s ≠ "" := by
    intro channelId thread sessions hs
    obtain ⟨session, -, hsession⟩ := List.exists_of_findSome?_eq_some hs
    split at hsession
    · exact safeStr_ne_empty hsession
    · cases hsession
  obtain ⟨sessions, -, h⟩ := Option.bind_eq_some_iff.mp h
  rcases Option.or_eq_some_iff.mp h with h | ⟨-, h⟩
  · obtain ⟨channelId, -, h⟩ := Option.bind_eq_some_iff.mp h
    rcases Option.or_eq_some_iff.mp h with h | ⟨-, h⟩
    · exact hchannel _ _ _ h
    · exact hchannel _ _ _ h
  · obtain ⟨session, -, h⟩ := Option.bind_eq_some_iff.mp h
    exact safeStr_ne_empty h

/-- **No operator card is found exactly when the session has none that is saved.** -/
theorem findPendingOperatorAction_eq_none_iff {q : JobQueue} {sessionId : String} (hs : sessionId ≠ "")
    {sourceMessageId sourceThreadId : Option Int} :
    findPendingOperatorAction q sessionId sourceMessageId sourceThreadId = some none
      ↔ operatorCards q sessionId = [] := by
  rw [findPendingOperatorAction, if_neg hs]
  constructor
  · intro h
    obtain ⟨quoted, -, h⟩ := Option.bind_eq_some_iff.mp h
    split at h
    · next hquoted =>
      have hnone : quoted = none := Option.some.inj h
      rw [hnone] at hquoted
      cases hquoted
    · obtain ⟨inThread, -, h⟩ := Option.bind_eq_some_iff.mp h
      have hnone := (Option.or_eq_none_iff.mp (Option.some.inj h)).2
      cases hcards : operatorCards q sessionId with
      | nil => rfl
      | cons card cards =>
        rw [hcards] at hnone
        cases hnone
  · intro h
    rw [h]
    cases sourceMessageId <;> cases sourceThreadId <;> rfl

theorem operatorCard_eq_none_iff {s : String} (h : call.sessionId = some s) :
    operatorCard desk.queue call = some none ↔ operatorCards desk.queue s = [] := by
  rw [operatorCard, h]
  exact findPendingOperatorAction_eq_none_iff (sessionId_ne_empty h)

/-- An answer changes nothing but the `extra` of its session. -/
theorem answerCard_queue (s : String) (card : Job) :
    (answerCard wiring desk call s card).2.2.queue = desk.queue := by
  unfold answerCard
  split
  · rfl
  · dsimp only
    split
    · rfl
    · split
      · rfl
      · split <;> rfl

variable (wiring) in
/-- A reply in a session with an operator card. -/
theorem route_of_captured (h : isReply wiring call = true) {s : String}
    (hs : call.sessionId = some s) (hcards : operatorCards desk.queue s ≠ []) :
    route wiring desk call = (none, none, desk) ∨
      ∃ card ∈ operatorCards desk.queue s, route wiring desk call = answerCard wiring desk call s card := by
  rw [route_of_isReply h]
  rcases hcard : operatorCard desk.queue call with _ | _ | card
  · exact .inl rfl
  · exact absurd ((operatorCard_eq_none_iff hs).mp hcard) hcards
  · refine .inr ⟨card, ?_, ?_⟩
    · rw [operatorCard, hs] at hcard
      exact findPendingOperatorAction_mem hcard
    · rw [hs]
      rfl

/-! ## What a message leaves -/

theorem replyToCode_queue (card : Job) :
    (replyToCode desk call card).2.2.queue = desk.queue ∨
      ∃ args job, desk.queue.enqueue args = .ok (job, (replyToCode desk call card).2.2.queue) := by
  unfold replyToCode
  split
  · exact .inl rfl
  · split
    · exact .inl rfl
    · split
      · exact .inl rfl
      · next outcome q' hok =>
        unfold handleGithubWorkApprovalReply at hok
        split at hok
        · cases hok
          exact .inl rfl
        · next order _ =>
          cases hdispatch : dispatchGithubWorkOrder desk.queue order call.jobId call.now with
          | error e =>
            rw [hdispatch] at hok
            cases hok
          | ok out =>
            rw [hdispatch] at hok
            cases hok
            rcases dispatchGithubWorkOrder_queue hdispatch with ⟨-, hq⟩ | ⟨-, -, job, -, henqueue⟩
            · exact .inl hq
            · exact .inr ⟨_, job, henqueue⟩

/-- A merge is not recorded on the desk. -/
theorem replyToMerge_desk (s : String) (viaReply : Bool) :
    (replyToMerge wiring desk call s viaReply).2.2 = desk := by
  unfold replyToMerge
  split
  · rfl
  · generalize handlePrMergeApprovalReply wiring.merge desk.queue (mergeArgs call s) = out
    rfl

theorem replyToNote_queue (s : String) :
    (replyToNote desk call s).2.2.queue = desk.queue ∨
      ∃ args job, desk.queue.enqueue args = .ok (job, (replyToNote desk call s).2.2.queue) := by
  have hqueue : (replyToNote desk call s).2.2.queue
      = (handleApprovalReply desk.queue desk.extras (noteArgs call s)).2.1 := by
    unfold replyToNote
    generalize handleApprovalReply desk.queue desk.extras (noteArgs call s) = out
    rfl
  rw [hqueue]
  rcases handleApprovalReply_queue desk.queue desk.extras (noteArgs call s) with
    hsame | ⟨card, write, -, -, -, -, hcommit⟩
  · exact .inl hsame
  · rw [hcommit]
    cases henqueue : desk.queue.enqueue
        (ObsidianWriterWorker.insert write (noteArgs call s).jobId (noteArgs call s).now) with
    | error e => exact .inl rfl
    | ok out => exact .inr ⟨_, out.1, henqueue⟩

theorem routeApproval_queue (s : String) :
    (routeApproval wiring desk call s).2.2.queue = desk.queue ∨
      ∃ args job, desk.queue.enqueue args = .ok (job, (routeApproval wiring desk call s).2.2.queue) := by
  rw [routeApproval]
  rcases mergeSession desk.queue call s with _ | _ | ⟨session, viaReply⟩
  · exact .inl rfl
  · dsimp only
    rcases codeCard desk.queue call s with _ | _ | card
    · exact .inl rfl
    · dsimp only
      exact replyToNote_queue s
    · dsimp only
      exact replyToCode_queue card
  · left
    dsimp only
    rw [replyToMerge_desk]

/-- **A message inserts at most one row, and changes no other.** -/
theorem route_queue (wiring : Wiring) (desk : Desk) (call : Call) :
    (route wiring desk call).2.2.queue = desk.queue ∨
      ∃ args job, desk.queue.enqueue args = .ok (job, (route wiring desk call).2.2.queue) := by
  by_cases hreply : isReply wiring call = true
  · rw [route_of_isReply hreply]
    rcases operatorCard desk.queue call with _ | _ | card
    · exact .inl rfl
    · dsimp only
      by_cases hintent : parseApprovalIntent call.text = .hold ∨ parseApprovalIntent call.text = .unclear
      · rw [if_pos hintent]
        exact .inl rfl
      · rw [if_neg hintent]
        cases call.sessionId with
        | none => exact .inl rfl
        | some s =>
          dsimp only
          exact routeApproval_queue s
    · dsimp only
      exact .inl (answerCard_queue _ card)
  · rw [route_of_not_isReply hreply]
    exact .inl rfl

theorem get_of_enqueue {q q' : JobQueue} {args : EnqueueArgs} {job : Job}
    (h : q.enqueue args = .ok (job, q')) {k : String} {r : Job} (hr : q.get k = some r) :
    q'.get k = some r := by
  obtain ⟨-, -, -, -, hfree, hget, -⟩ := enqueue_ok h
  rw [hget, if_neg, hr]
  rintro rfl
  rw [hfree] at hr
  cases hr

variable (wiring) in
/-- **A row of the queue stays as it is.** -/
theorem get_step (event : ChannelEvent) {k : String} {r : Job} (hr : desk.queue.get k = some r) :
    (step wiring desk event).queue.get k = some r := by
  cases event with
  | reply call =>
    rcases route_queue wiring desk call with hsame | ⟨args, job, henqueue⟩
    · rw [step, hsame, hr]
    · exact get_of_enqueue henqueue hr
  | ask sessionId request =>
    have hqueue : (desk.ask sessionId request).queue = desk.queue := by
      unfold Desk.ask
      split <;> rfl
    rw [step, hqueue, hr]
  | post args postedMessageId =>
    show (desk.post args postedMessageId).queue.get k = some r
    unfold Desk.post
    dsimp only
    split
    · exact hr
    · next job q' henqueue =>
      obtain ⟨-, -, -, -, hfree, -⟩ := enqueue_ok henqueue
      have hne : r.jobId ≠ args.jobId := by
        intro heq
        rw [← get_jobId hr, heq, hfree] at hr
        cases hr
      rw [get_updateJob, get_of_enqueue henqueue hr, Option.map_some, if_neg hne]

theorem operatorCards_step (event : ChannelEvent) {s : String} {card : Job}
    (h : card ∈ operatorCards desk.queue s) : card ∈ operatorCards (step wiring desk event).queue s := by
  obtain ⟨hsaved, hsession, hkind⟩ := mem_operatorCards.mp h
  obtain ⟨hmem, hcard⟩ := mem_savedCards.mp hsaved
  have hget := get_step wiring event (get_of_mem hmem)
  exact mem_operatorCards.mpr ⟨mem_savedCards.mpr ⟨Table.mem_of_find? hget, hcard⟩, hsession, hkind⟩

/-! ## What an answer removes -/

theorem pending_stampAnswered {extra extra' : Dict Json} {reply : OperatorActionReply}
    {answeredBy answeredAt : String}
    (h : stampAnsweredRequest extra reply answeredBy answeredAt = some extra') :
    (extra'.getJson pendingRequestsKey).items? = (extra.getJson pendingRequestsKey).items?.map
      fun pending => if reply.isComplete then pending.eraseP (asksFor reply.requestType) else pending := by
  obtain ⟨answered, -, h⟩ := Option.bind_eq_some_iff.mp h
  have hkey : pendingRequestsKey ≠ answeredKey := by decide
  cases hcomplete : reply.isComplete with
  | false =>
    rw [hcomplete] at h
    obtain rfl := Option.some.inj h
    rw [Dict.getJson_set_ne _ _ hkey]
    simp
  | true =>
    rw [hcomplete, if_pos rfl, Dict.getJson_set_ne _ _ hkey] at h
    obtain ⟨pending, hpending, h⟩ := Option.bind_eq_some_iff.mp h
    obtain rfl := Option.some.inj h
    rw [Dict.getJson_set_ne _ _ (by decide), Dict.getJson_set_self, Json.items?_arr, hpending]
    simp

/-- The pending requests of a session after an effect: a complete answer removes the oldest one of
its type. -/
def remaining (e : Option Effect) (s : String) (pending : List Json) : List Json :=
  match e with
  | some (.answerStamp session _ _ reply) =>
    if session = s ∧ reply.isComplete = true then pending.eraseP (asksFor reply.requestType)
    else pending
  | _ => pending

theorem answerCard_pending (session : String) (card : Job) (s : String) :
    pendingRequests (answerCard wiring desk call session card).2.2 s
      = (pendingRequests desk s).map (remaining (answerCard wiring desk call session card).2.1 s) := by
  have hself : (pendingRequests desk s).map (remaining none s) = pendingRequests desk s := by
    cases pendingRequests desk s <;> rfl
  unfold answerCard
  cases operatorActionRequestFromApprovalPayload card.payload with
  | none => exact hself.symm
  | some request =>
    dsimp only
    cases hextra : desk.extras.get? session with
    | none => exact hself.symm
    | some extra =>
      dsimp only
      cases hstamp : stampedExtra wiring call extra request with
      | none => exact hself.symm
      | some extra' =>
        dsimp only
        cases call.updates with
        | false => exact hself.symm
        | true =>
          rw [if_pos rfl]
          unfold pendingRequests
          dsimp only
          by_cases hs : session = s
          · subst hs
            rw [Dict.get?_set_self, hextra, Option.bind_some, Option.bind_some,
              pending_stampAnswered hstamp]
            congr 1
            funext pending
            simp [remaining]
          · rw [Dict.get?_set_ne _ _ (Ne.symm hs)]
            have hremaining : remaining (some (.answerStamp session card.jobId
                (card.payload.strOr "approval_kind" "") (parseOperatorActionReply wiring.isWord
                  request.requestType call.text))) s = id := by
              funext pending
              simp [remaining, hs]
            rw [hremaining, Option.map_id_apply]

theorem handleApprovalReply_pending (q : JobQueue) (extras : Dict (Dict Json)) (a : ReplyArgs)
    (ha : a.persistRejectionFn = none) (s : String) :
    ((handleApprovalReply q extras a).2.2.get? s).bind (fun e => (e.getJson pendingRequestsKey).items?)
      = (extras.get? s).bind fun e => (e.getJson pendingRequestsKey).items? := by
  have hreject : ∀ card, (((handleReject extras card a).2).get? s).bind
      (fun e => (e.getJson pendingRequestsKey).items?)
        = (extras.get? s).bind fun e => (e.getJson pendingRequestsKey).items? := by
    intro card
    unfold handleReject
    dsimp only
    rw [ha]
    dsimp only
    unfold defaultPersistRejection
    cases hextra : extras.get? card.sessionId with
    | none => rfl
    | some extra =>
      dsimp only
      cases (extra.getJson "approval_rejections").items? with
      | none => rfl
      | some records =>
        dsimp only [Option.map_some, Option.getD_some]
        by_cases hs : card.sessionId = s
        · subst hs
          rw [Dict.get?_set_self, hextra, Option.bind_some, Option.bind_some,
            Dict.getJson_set_ne _ _ (by decide)]
        · rw [Dict.get?_set_ne _ _ (Ne.symm hs)]
  unfold handleApprovalReply
  dsimp only
  split
  · rfl
  · split
    · rfl
    · rfl
    · split
      · exact hreject _
      · rfl

/-- Effects that stamp no answer leave what is pending. -/
theorem remaining_eq_self {e : Option Effect} (h : ∀ session id kind reply,
    e ≠ some (.answerStamp session id kind reply)) (s : String) (pending : Option (List Json)) :
    pending.map (remaining e s) = pending := by
  have hid : remaining e s = id := by
    funext pending
    unfold remaining
    split
    · exact absurd rfl (h _ _ _ _)
    · rfl
  rw [hid, Option.map_id_apply]

theorem routeApproval_pending (session s : String) :
    pendingRequests (routeApproval wiring desk call session).2.2 s = pendingRequests desk s := by
  rw [routeApproval]
  rcases mergeSession desk.queue call session with _ | _ | ⟨cardSession, viaReply⟩
  · rfl
  · dsimp only
    rcases codeCard desk.queue call session with _ | _ | card
    · rfl
    · dsimp only
      have hextras : (replyToNote desk call session).2.2.extras
          = (handleApprovalReply desk.queue desk.extras (noteArgs call session)).2.2 := by
        unfold replyToNote
        generalize handleApprovalReply desk.queue desk.extras (noteArgs call session) = out
        rfl
      rw [pendingRequests, hextras]
      exact handleApprovalReply_pending desk.queue desk.extras (noteArgs call session) rfl s
    · dsimp only
      have hextras : (replyToCode desk call card).2.2.extras = desk.extras := by
        unfold replyToCode
        split
        · rfl
        · split
          · rfl
          · split <;> rfl
      rw [pendingRequests, hextras]
      rfl
  · dsimp only
    rw [replyToMerge_desk]

theorem routeApproval_not_answerStamp {session : String}
    (hreached : ApprovalReached wiring desk call session) (s id kind : String)
    (reply : OperatorActionReply) :
    (routeApproval wiring desk call session).2.1 ≠ some (.answerStamp s id kind reply) := by
  intro h
  rcases routeApproval_effect hreached h with ⟨_, _, _, -, -, heq⟩ | ⟨_, _, _, -, heq⟩ |
    ⟨_, _, _, -, heq⟩ <;> cases heq

/-- **An answer removes the oldest pending request of its type, and nothing else does.** -/
theorem route_pending (wiring : Wiring) (desk : Desk) (call : Call) (s : String) :
    pendingRequests (route wiring desk call).2.2 s
      = (pendingRequests desk s).map (remaining (route wiring desk call).2.1 s) := by
  have hself : (pendingRequests desk s).map (remaining none s) = pendingRequests desk s :=
    remaining_eq_self (fun _ _ _ _ => by simp) s _
  by_cases hreply : isReply wiring call = true
  · rw [route_of_isReply hreply]
    rcases hcard : operatorCard desk.queue call with _ | _ | card
    · exact hself.symm
    · dsimp only
      by_cases hintent : parseApprovalIntent call.text = .hold ∨ parseApprovalIntent call.text = .unclear
      · rw [if_pos hintent]
        exact hself.symm
      · rw [if_neg hintent]
        cases hsession : call.sessionId with
        | none => exact hself.symm
        | some session =>
          dsimp only
          have hreached : ApprovalReached wiring desk call session := ⟨hreply, hcard, hintent, hsession⟩
          rw [routeApproval_pending,
            remaining_eq_self (routeApproval_not_answerStamp hreached)]
    · exact answerCard_pending _ card s
  · rw [route_of_not_isReply hreply]
    exact hself.symm

/-! ## Along a run -/

/-- What a reply does in the channel, whatever is pending. -/
structure ReplyStep (wiring : Wiring) (desk : Desk) (call : Call) : Prop where
  /-- A session with a saved operator card: the reply goes to one of them and nowhere else. -/
  captured : ∀ s, isReply wiring call = true → call.sessionId = some s →
    operatorCards desk.queue s ≠ [] →
      (route wiring desk call).2.2.queue = desk.queue ∧
        ∀ e, (route wiring desk call).2.1 = some e → ∃ card ∈ operatorCards desk.queue s,
          ∃ request, operatorActionRequestFromApprovalPayload card.payload = some request ∧
            e = .answerStamp s card.jobId (card.payload.strOr "approval_kind" "")
              (parseOperatorActionReply wiring.isWord request.requestType call.text)
  /-- A session without one: the reply goes to the merge cards, then to code, then to notes. -/
  passed : ∀ s, isReply wiring call = true → call.sessionId = some s →
    operatorCards desk.queue s = [] →
      ¬ (parseApprovalIntent call.text = .hold ∨ parseApprovalIntent call.text = .unclear) →
        route wiring desk call = routeApproval wiring desk call s
  /-- A complete answer removes the oldest pending request of its type. -/
  removes : ∀ s, pendingRequests (route wiring desk call).2.2 s
    = (pendingRequests desk s).map (remaining (route wiring desk call).2.1 s)

theorem replyStep (wiring : Wiring) (desk : Desk) (call : Call) : ReplyStep wiring desk call where
  captured s hreply hs hcards := by
    rcases route_of_captured wiring hreply hs hcards with hnone | ⟨card, hcard, hroute⟩
    · rw [hnone]
      exact ⟨rfl, fun e he => by cases he⟩
    · rw [hroute]
      refine ⟨answerCard_queue s card, fun e he => ?_⟩
      obtain ⟨request, -, hrequest, -, -, -, heq⟩ := answerCard_effect.mp he
      exact ⟨card, hcard, request, hrequest, heq⟩
  passed s hreply hs hcards hintent :=
    ApprovalReached.route_eq ⟨hreply, (operatorCard_eq_none_iff hs).mpr hcards, hintent, hs⟩
  removes := route_pending wiring desk call

/-- A question for the session, by title. -/
def sampleQuestion (title : String) : OperatorActionRequest where
  requestType := .infoRequired
  sessionId := "session"
  title := title
  stage := "deploy"
  whyBlocked := "no server is known"
  expectedAnswer := "host"

/-- The card of the question is posted, and the question is stamped on the session. -/
def askOperator (jobId title : String) (posted : Int) (now : Time) : List ChannelEvent :=
  [.post
      { jobId, sessionId := "session", jobType := Supersede.jobTypeApprovalPost, now
        payload := [("session_id", .str "session"), ("approval_kind", .str "info_request"),
          ("extra", .obj [("operator_action", .obj [("request_type", .str "info_required"),
            ("session_id", .str "session"), ("title", .str title)])])] } posted,
    .ask "session" (sampleQuestion title)]

/-- A reply in the channel. -/
def sampleReply (text : String) (id : Int) : Call :=
  { sampleCall with
    message := { sampleCall.message with content := text, id := some id, reference := none } }

/-- The titles of what is pending. -/
def pendingTitles (desk : Desk) : Option (List String) :=
  (pendingRequests desk "session").map fun pending =>
    pending.map fun entry => (entry.obj?.getD []).strOr "title" ""

/-- The kind and the approval of the effect of a reply. -/
def effectOf (desk : Desk) (call : Call) : Option (String × Option String) :=
  (route sampleWiring desk call).2.1.map fun e => (e.kind, e.approval)

/-- The only question was answered. -/
def answeredDesk : Desk :=
  Machine.run (step sampleWiring) sampleDesk
    (askOperator "info-card" "server" 44 4 ++ [.reply (sampleReply "host=10.0.0.5" 55)])

/-- Two questions are open. -/
def askedDesk : Desk :=
  Machine.run (step sampleWiring) sampleDesk
    (askOperator "older" "server" 44 4 ++ askOperator "newer" "domain" 45 5)

end ReplyRouter

end ForgeKit
