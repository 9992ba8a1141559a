import ForgeKit.Approval.ReplyRouter

/-!
# The card a reply acts on

A message that quotes one card should act on that card, and a message that quotes nothing should
merge only when there is one merge card. Only the handler of the cards for code is told which
message was quoted: the others pick a card by the source message, the thread and the age.

* `matched_of_route_effect` — an effect is the one of the branch that the message reaches
* `acts_on_addressed_iff` — the effects are for the quoted card exactly when the rules pick it
-/

namespace ForgeKit

namespace ReplyRouter

open ApprovalReply OperatorAction PrMergeReply WorkOrder

variable (wiring : Wiring) (desk : Desk) (call : Call)

/-! ## The branch a message reaches -/

/-- The reply gets past the operator cards, in this session. -/
structure ApprovalReached (sessionId : String) : Prop where
  reply : isReply wiring call = true
  noOperatorCard : operatorCard desk.queue call = some none
  intent : ¬ (parseApprovalIntent call.text = .hold ∨ parseApprovalIntent call.text = .unclear)
  session : call.sessionId = some sessionId

/-- The operator branch finds this card, and can stamp an answer to it. -/
structure OperatorMatched (sessionId : String) (card : Job) (reply : OperatorActionReply) : Prop where
  isReply : isReply wiring call = true
  session : call.sessionId = some sessionId
  picked : operatorCard desk.queue call = some (some card)
  stamps : ∃ request extra, operatorActionRequestFromApprovalPayload card.payload = some request
    ∧ desk.extras.get? sessionId = some extra ∧ (stampedExtra wiring call extra request).isSome
    ∧ call.updates = true
    ∧ reply = parseOperatorActionReply wiring.isWord request.requestType call.text

/-- The merge branch finds this card in this session, and would call the executor for it. -/
structure MergeMatched (sessionId : String) (card : Job) (dispatch : PRMergeReplyDispatch) :
    Prop where
  session : ∃ replySession viaReply, ApprovalReached wiring desk call replySession
    ∧ mergeSession desk.queue call replySession = some (some (sessionId, viaReply))
  picked : mergeCard desk.queue sessionId call.message.id call.threadId = some (some card)
  intent : ¬ (parsePrMergeReplyIntent call.text = .hold ∨ parsePrMergeReplyIntent call.text = .unclear)
  calls : (replyToCard wiring.merge (parsePrMergeReplyIntent call.text) card
    (mergeArgs call sessionId)).2 = some dispatch

/-- The branch for code finds this card, and enqueues an order for it. -/
structure CodeMatched (sessionId : String) (card : Job) (order : GitHubWorkOrder) : Prop where
  reached : ApprovalReached wiring desk call sessionId
  noMergeCard : mergeSession desk.queue call sessionId = some none
  picked : codeCard desk.queue call sessionId = some (some card)
  approves : parseApprovalIntent call.text ≠ .reject
  proposes : ∃ request, ApprovalRequest.fromPayload card.payload = some request
    ∧ workOrderOf request card.jobId (authorHandle call.message) call.nowIso none call.utcNow = .ok order
  enqueues : ∃ outcome q', dispatchGithubWorkOrder desk.queue order call.jobId call.now
    = .ok (outcome, q') ∧ outcome.skippedReason = none

/-- The last branch finds this card, and enqueues a write for it. -/
structure NoteMatched (sessionId : String) (card : Job) (write : ObsidianWriteRequest) : Prop where
  reached : ApprovalReached wiring desk call sessionId
  noMergeCard : mergeSession desk.queue call sessionId = some none
  noCodeCard : codeCard desk.queue call sessionId = some none
  picked : noteCard desk.queue call sessionId = some (some card)
  approves : parseApprovalIntent call.text ≠ .reject
  converts : writeRequest? card (noteArgs call sessionId) = some write
  enqueues : ∃ job q', ObsidianWriterWorker.enqueue desk.queue write call.jobId call.now
    = .ok ((job, true), q')

variable {wiring desk call}

theorem isReply_iff : isReply wiring call = true ↔ call.message.author.any Author.bot = false
    ∧ isApprovalChannelMessage call.message wiring.approvalChannelId wiring.approvalChannelName = true
    ∧ call.text ≠ "" := by
  simp only [isReply, Bool.and_eq_true, Bool.not_eq_true', bne_iff_ne, ne_eq, and_assoc]

/-- A message that is no reply does nothing. -/
theorem route_of_not_isReply (h : ¬ isReply wiring call = true) :
    (route wiring desk call).2 = (none, desk) := by
  rw [route]
  split
  · rfl
  · next hbot =>
    split
    · rfl
    · next hchannel =>
      split
      · rfl
      · next htext =>
        refine absurd (isReply_iff.mpr ⟨Bool.eq_false_of_not_eq_true hbot, ?_, htext⟩) h
        simpa using hchannel

theorem isReply_of_effect {e : Effect} (h : (route wiring desk call).2.1 = some e) :
    isReply wiring call = true := by
  by_contra hreply
  rw [route_of_not_isReply hreply] at h
  cases h

/-- What the router does with a reply. -/
theorem route_of_isReply (h : isReply wiring call = true) :
    route wiring desk call = match operatorCard desk.queue call with
      | none => (none, none, desk)
      | some (some card) => answerCard wiring desk call (call.sessionId.getD "") card
      | some none =>
        if parseApprovalIntent call.text = .hold ∨ parseApprovalIntent call.text = .unclear then
          (some { handled := true, skippedReason := some "intent_not_actionable" }, none, desk)
        else
          match call.sessionId with
          | none =>
            (some { handled := true, skippedReason := some "no_session_for_reply" }, none, desk)
          | some sessionId => routeApproval wiring desk call sessionId := by
  obtain ⟨hbot, hchannel, htext⟩ := isReply_iff.mp h
  rw [route, if_neg (by simp [hbot]), if_neg (by simp [hchannel])]
  exact if_neg htext

theorem ApprovalReached.route_eq {sessionId : String} (h : ApprovalReached wiring desk call sessionId) :
    route wiring desk call = routeApproval wiring desk call sessionId := by
  rw [route_of_isReply h.reply, h.noOperatorCard]
  dsimp only
  rw [if_neg h.intent, h.session]

/-! ## Each branch -/

theorem answerCard_effect {sessionId : String} {card : Job} {e : Effect} :
    (answerCard wiring desk call sessionId card).2.1 = some e ↔
      ∃ request extra, operatorActionRequestFromApprovalPayload card.payload = some request
        ∧ desk.extras.get? sessionId = some extra ∧ (stampedExtra wiring call extra request).isSome
        ∧ call.updates = true
        ∧ e = .answerStamp sessionId card.jobId (card.payload.strOr "approval_kind" "")
          (parseOperatorActionReply wiring.isWord request.requestType call.text) := by
  rw [answerCard]
  cases operatorActionRequestFromApprovalPayload card.payload with
  | none => simp
  | some request =>
    dsimp only
    cases desk.extras.get? sessionId with
    | none => simp
    | some extra =>
      dsimp only
      cases hstamp : stampedExtra wiring call extra request with
      | none => simp [hstamp]
      | some extra' =>
        cases call.updates with
        | false => simp
        | true =>
          simp only [if_true, Option.some.injEq]
          constructor
          · rintro rfl
            exact ⟨request, extra, rfl, rfl, by rw [hstamp]; rfl, trivial, rfl⟩
          · rintro ⟨_, _, rfl, rfl, -, -, rfl⟩
            rfl

theorem replyToMerge_effect {sessionId : String} {viaReply : Bool} {e : Effect} :
    (replyToMerge wiring desk call sessionId viaReply).2.1 = some e ↔
      isAmbiguous desk.queue call viaReply = false ∧
        ∃ dispatch, (handlePrMergeApprovalReply wiring.merge desk.queue
            (mergeArgs call sessionId)).2 = some dispatch ∧ e = .mergeExecutor sessionId dispatch := by
  rw [replyToMerge]
  cases isAmbiguous desk.queue call viaReply with
  | true => simp
  | false => simp [eq_comm]

theorem handlePrMergeApprovalReply_dispatch_iff {a : PrMergeReplyArgs} {dispatch : PRMergeReplyDispatch}
    {w : MergeWiring} {q : JobQueue} :
    (handlePrMergeApprovalReply w q a).2 = some dispatch ↔
      ¬ (parsePrMergeReplyIntent a.text = .hold ∨ parsePrMergeReplyIntent a.text = .unclear) ∧
        ∃ card, mergeCard q a.sessionId a.sourceMessageId a.sourceThreadId = some (some card) ∧
          (replyToCard w (parsePrMergeReplyIntent a.text) card a).2 = some dispatch := by
  rw [handlePrMergeApprovalReply]
  by_cases hintent : parsePrMergeReplyIntent a.text = .hold ∨ parsePrMergeReplyIntent a.text = .unclear
  · simp [hintent]
  · rw [if_neg hintent]
    rcases mergeCard q a.sessionId a.sourceMessageId a.sourceThreadId with _ | _ | card
    · simp
    · simp
    · simp [hintent]

theorem replyToCode_effect {card : Job} {e : Effect} :
    (replyToCode desk call card).2.1 = some e ↔
      parseApprovalIntent call.text ≠ .reject ∧ ∃ order,
        (∃ request, ApprovalRequest.fromPayload card.payload = some request
          ∧ workOrderOf request card.jobId (authorHandle call.message) call.nowIso none call.utcNow
            = .ok order)
        ∧ (∃ outcome q', dispatchGithubWorkOrder desk.queue order call.jobId call.now
            = .ok (outcome, q') ∧ outcome.skippedReason = none)
        ∧ e = .workOrder order := by
  rw [replyToCode]
  cases ApprovalRequest.fromPayload card.payload with
  | none => simp
  | some request =>
    by_cases hreject : parseApprovalIntent call.text = .reject
    · simp [hreject]
    · simp only [hreject, if_false, handleGithubWorkApprovalReply, ne_eq, not_false_eq_true, true_and,
        Option.some.injEq, exists_eq_left']
      cases workOrderOf request card.jobId (authorHandle call.message) call.nowIso none call.utcNow with
      | error reason => simp
      | ok order =>
        cases hdispatch : dispatchGithubWorkOrder desk.queue order call.jobId call.now with
        | error err => simp [hdispatch, bind, Except.bind]
        | ok out =>
          obtain ⟨outcome, q'⟩ := out
          cases hskip : outcome.skippedReason with
          | none => simp [hdispatch, bind, Except.bind, hskip, eq_comm]
          | some reason => simp [hdispatch, bind, Except.bind, hskip]

/-- An approval of a card for a note creates the write of the card, if it creates one. -/
theorem handleApprove_created {q : JobQueue} {card : Job} {a : ReplyArgs}
    {write : ObsidianWriteRequest} :
    (∃ outcome, (handleApprove q card a).1 = some outcome ∧ outcome.writeJobId.isSome = true
      ∧ outcome.skippedReason = none ∧ writeRequest? card a = some write) ↔
      writeRequest? card a = some write ∧
        ∃ job q', ObsidianWriterWorker.enqueue q write a.jobId a.now = .ok ((job, true), q') := by
  rw [handleApprove, writeRequest?]
  cases ApprovalRequest.fromPayload card.payload with
  | none => simp
  | some request =>
    dsimp only [Option.bind_some]
    by_cases hkind : request.approvalKind = approvalKindObsidianWrite
    · rw [if_neg (not_not.mpr hkind)]
      cases hwrite : approvalToObsidianWriteRequest request card.jobId a.approvedBy a.approvedAt
          a.utcNow with
      | none => simp
      | some write' =>
        dsimp only
        rcases henqueue : ObsidianWriterWorker.enqueue q write' a.jobId a.now with
          err | ⟨⟨job, _ | _⟩, q'⟩
        · simp only [reduceCtorEq, false_and, exists_false, Option.some.injEq, false_iff, not_and]
          rintro rfl ⟨job, q', h⟩
          rw [henqueue] at h
          cases h
        · simp only [Bool.false_eq_true, if_false, Option.some.injEq, exists_eq_left', reduceCtorEq,
            false_and, and_false, false_iff, not_and]
          rintro rfl ⟨job, q', h⟩
          rw [henqueue] at h
          cases h
        · simp only [if_true, Option.some.injEq, exists_eq_left', Option.isSome_some, true_and]
          constructor
          · rintro rfl
            exact ⟨rfl, job, q', henqueue⟩
          · rintro ⟨rfl, -⟩
            rfl
    · rw [if_pos hkind, approvalToObsidianWriteRequest, if_pos hkind]
      simp

theorem replyToNote_effect {sessionId : String} {e : Effect}
    (hintent : ¬ (parseApprovalIntent call.text = .hold ∨ parseApprovalIntent call.text = .unclear)) :
    (replyToNote desk call sessionId).2.1 = some e ↔
      parseApprovalIntent call.text ≠ .reject ∧ ∃ card write,
        noteCard desk.queue call sessionId = some (some card)
        ∧ writeRequest? card (noteArgs call sessionId) = some write
        ∧ (∃ job q', ObsidianWriterWorker.enqueue desk.queue write call.jobId call.now
            = .ok ((job, true), q'))
        ∧ e = .obsidianWrite write := by
  have hrule : findReplyableApproval desk.queue (noteArgs call sessionId).sessionId
      (noteArgs call sessionId).approvalKind (noteArgs call sessionId).sourceMessageId
      (noteArgs call sessionId).sourceThreadId none = noteCard desk.queue call sessionId := rfl
  have htext : parseApprovalIntent (noteArgs call sessionId).text = parseApprovalIntent call.text := rfl
  rw [replyToNote, handleApprovalReply, hrule, htext]
  dsimp only
  rw [if_neg hintent]
  rcases hcard : noteCard desk.queue call sessionId with _ | _ | card
  · simp
  · simp [noteWrite]
  · dsimp only
    by_cases hreject : parseApprovalIntent call.text = .reject
    · rw [if_pos hreject]
      have hnone : ∀ outcome, (handleReject desk.extras card (noteArgs call sessionId)).1 = some outcome →
          outcome.writeJobId = none := by
        intro outcome h
        obtain ⟨extra, -, rfl⟩ := Option.map_eq_some_iff.mp h
        rfl
      cases houtcome : (handleReject desk.extras card (noteArgs call sessionId)).1 with
      | none => simp [hreject]
      | some outcome => simp [hreject, noteWrite, hnone outcome houtcome]
    · rw [if_neg hreject]
      have hwrite : ∀ outcome write, noteWrite desk.queue call sessionId outcome = some write ↔
          outcome.writeJobId.isSome = true ∧ outcome.skippedReason = none
            ∧ writeRequest? card (noteArgs call sessionId) = some write := by
        intro outcome write
        rw [noteWrite, hcard]
        cases outcome.writeJobId <;> cases outcome.skippedReason <;> simp
      simp only [Option.map_eq_some_iff, Option.bind_eq_some_iff, hwrite, handleApprove_created]
      constructor
      · rintro ⟨write, ⟨hconverts, henqueues⟩, rfl⟩
        exact ⟨hreject, card, write, rfl, hconverts, henqueues, rfl⟩
      · rintro ⟨-, _, write, ⟨⟩, hconverts, henqueues, rfl⟩
        exact ⟨write, ⟨hconverts, henqueues⟩, rfl⟩

/-! ## The effect of a message -/

/-- Several open merge cards, and nothing that says which one is meant. -/
def Ambiguous (q : JobQueue) (call : Call) : Prop :=
  call.message.reference = none ∧ 2 ≤ (findOpenApprovalCardsByKind q approvalKindPrMerge).length

theorem isAmbiguous_iff {q : JobQueue} {sessionId session : String} {viaReply : Bool}
    (h : mergeSession q call sessionId = some (some (session, viaReply))) :
    isAmbiguous q call viaReply = true ↔ Ambiguous q call := by
  cases viaReply with
  | false => simp [isAmbiguous, Ambiguous]
  | true =>
    have hreference : call.message.reference ≠ none := by
      intro hnone
      rw [mergeSession, hnone] at h
      obtain ⟨quoted, hquoted, h⟩ := Option.bind_eq_some_iff.mp h
      cases hquoted
      obtain ⟨found, -, h⟩ := Option.bind_eq_some_iff.mp h
      have h : found.map (fun _ => (sessionId, false)) = some (session, true) := Option.some.inj h
      cases found <;> cases h
    simp [isAmbiguous, Ambiguous, hreference]

theorem operatorCard_session {q : JobQueue} {card : Job} (h : operatorCard q call = some (some card)) :
    ∃ sessionId, call.sessionId = some sessionId := by
  rw [operatorCard] at h
  cases hs : call.sessionId with
  | none =>
    rw [hs] at h
    cases h
  | some sessionId => exact ⟨sessionId, rfl⟩

theorem routeApproval_effect {sessionId : String} {e : Effect}
    (hreached : ApprovalReached wiring desk call sessionId)
    (h : (routeApproval wiring desk call sessionId).2.1 = some e) :
    (∃ s card dispatch, MergeMatched wiring desk call s card dispatch ∧ ¬ Ambiguous desk.queue call
        ∧ e = .mergeExecutor s dispatch)
      ∨ (∃ s card order, CodeMatched wiring desk call s card order ∧ e = .workOrder order)
      ∨ ∃ s card write, NoteMatched wiring desk call s card write ∧ e = .obsidianWrite write := by
  rw [routeApproval] at h
  rcases hsession : mergeSession desk.queue call sessionId with _ | _ | ⟨session, viaReply⟩
  · rw [hsession] at h
    cases h
  · rw [hsession] at h
    dsimp only at h
    rcases hcode : codeCard desk.queue call sessionId with _ | _ | card
    · rw [hcode] at h
      cases h
    · rw [hcode] at h
      dsimp only at h
      obtain ⟨happroves, card, write, hnote, hconverts, henqueues, rfl⟩ :=
        (replyToNote_effect hreached.intent).mp h
      exact .inr (.inr ⟨sessionId, card, write,
        ⟨hreached, hsession, hcode, hnote, happroves, hconverts, henqueues⟩, rfl⟩)
    · rw [hcode] at h
      dsimp only at h
      obtain ⟨happroves, order, hproposes, henqueues, rfl⟩ := replyToCode_effect.mp h
      exact .inr (.inl ⟨sessionId, card, order,
        ⟨hreached, hsession, hcode, happroves, hproposes, henqueues⟩, rfl⟩)
  · rw [hsession] at h
    dsimp only at h
    obtain ⟨hambiguous, dispatch, hdispatch, rfl⟩ := replyToMerge_effect.mp h
    obtain ⟨hintent, card, hcard, hcalls⟩ := handlePrMergeApprovalReply_dispatch_iff.mp hdispatch
    refine .inl ⟨session, card, dispatch,
      ⟨⟨sessionId, viaReply, hreached, hsession⟩, hcard, hintent, hcalls⟩, fun h => ?_, rfl⟩
    rw [(isAmbiguous_iff hsession).mpr h] at hambiguous
    cases hambiguous

/-- An effect is the one of the branch that the message reaches. -/
theorem matched_of_route_effect {e : Effect} (h : (route wiring desk call).2.1 = some e) :
    (∃ s card reply, OperatorMatched wiring desk call s card reply
        ∧ e = .answerStamp s card.jobId (card.payload.strOr "approval_kind" "") reply)
      ∨ (∃ s card dispatch, MergeMatched wiring desk call s card dispatch
        ∧ ¬ Ambiguous desk.queue call ∧ e = .mergeExecutor s dispatch)
      ∨ (∃ s card order, CodeMatched wiring desk call s card order ∧ e = .workOrder order)
      ∨ ∃ s card write, NoteMatched wiring desk call s card write ∧ e = .obsidianWrite write := by
  have hreply := isReply_of_effect h
  rw [route_of_isReply hreply] at h
  rcases hoperator : operatorCard desk.queue call with _ | _ | card
  · rw [hoperator] at h
    cases h
  · rw [hoperator] at h
    dsimp only at h
    split at h
    · cases h
    · next hintent =>
      cases hsession : call.sessionId with
      | none =>
        rw [hsession] at h
        cases h
      | some sessionId =>
        rw [hsession] at h
        exact .inr (routeApproval_effect ⟨hreply, hoperator, hintent, hsession⟩ h)
  · rw [hoperator] at h
    obtain ⟨sessionId, hsession⟩ := operatorCard_session hoperator
    rw [hsession] at h
    obtain ⟨request, extra, hrequest, hextra, hstamp, hupdates, rfl⟩ := answerCard_effect.mp h
    exact .inl ⟨sessionId, card, _,
      ⟨hreply, hsession, hoperator, request, extra, hrequest, hextra, hstamp, hupdates, rfl⟩, rfl⟩

theorem OperatorMatched.effect {sessionId : String} {card : Job} {reply : OperatorActionReply}
    (h : OperatorMatched wiring desk call sessionId card reply) :
    (route wiring desk call).2.1 = some
      (.answerStamp sessionId card.jobId (card.payload.strOr "approval_kind" "") reply) := by
  obtain ⟨request, extra, hrequest, hextra, hstamp, hupdates, rfl⟩ := h.stamps
  rw [route_of_isReply h.isReply, h.picked, h.session]
  exact answerCard_effect.mpr ⟨request, extra, hrequest, hextra, hstamp, hupdates, rfl⟩

theorem MergeMatched.effect {sessionId : String} {card : Job} {dispatch : PRMergeReplyDispatch}
    (h : MergeMatched wiring desk call sessionId card dispatch)
    (hambiguous : ¬ Ambiguous desk.queue call) :
    (route wiring desk call).2.1 = some (.mergeExecutor sessionId dispatch) := by
  obtain ⟨replySession, viaReply, hreached, hsession⟩ := h.session
  rw [hreached.route_eq, routeApproval, hsession]
  refine replyToMerge_effect.mpr ⟨?_, dispatch, ?_, rfl⟩
  · exact Bool.eq_false_of_not_eq_true fun htrue => hambiguous ((isAmbiguous_iff hsession).mp htrue)
  · exact handlePrMergeApprovalReply_dispatch_iff.mpr ⟨h.intent, card, h.picked, h.calls⟩

theorem CodeMatched.effect {sessionId : String} {card : Job} {order : GitHubWorkOrder}
    (h : CodeMatched wiring desk call sessionId card order) :
    (route wiring desk call).2.1 = some (.workOrder order) := by
  rw [h.reached.route_eq, routeApproval, h.noMergeCard]
  dsimp only
  rw [h.picked]
  dsimp only
  exact replyToCode_effect.mpr ⟨h.approves, order, h.proposes, h.enqueues, rfl⟩

theorem NoteMatched.effect {sessionId : String} {card : Job} {write : ObsidianWriteRequest}
    (h : NoteMatched wiring desk call sessionId card write) :
    (route wiring desk call).2.1 = some (.obsidianWrite write) := by
  rw [h.reached.route_eq, routeApproval, h.noMergeCard]
  dsimp only
  rw [h.noCodeCard]
  dsimp only
  exact (replyToNote_effect h.reached.intent).mpr
    ⟨h.approves, card, write, h.picked, h.converts, h.enqueues, rfl⟩

/-! ## The quoted card -/

/-- The id of the message that shows the card. -/
def postedMessageId (card : Job) : Option Int := (card.result.getJson "posted_message_id").toInt?

/-- The message quotes this saved card, and no other. -/
structure Quotes (q : JobQueue) (m : Message) (card : Job) : Prop where
  saved : card ∈ savedCards q
  quotes : m.reference.isSome = true
  posted : postedMessageId card = m.reference
  only : ∀ other ∈ savedCards q, postedMessageId other = m.reference → other = card

/-- The effect is for this card: its session, its id, its kind. -/
structure Effect.IsFor (e : Effect) (card : Job) : Prop where
  session : e.session = card.sessionId
  approval : e.approval = some card.jobId
  kind : (card.payload.getJson "approval_kind").eqStr e.kind = true

variable (wiring desk call)

/--
An effect is for the card the message quotes; without a quoted message the merge executor is called
only when there is one merge card.
-/
structure ActsOnAddressed : Prop where
  quoted : ∀ card, Quotes desk.queue call.message card →
    ∀ e, (route wiring desk call).2.1 = some e → e.IsFor card
  unquoted : call.message.reference = none →
    ∀ s dispatch, (route wiring desk call).2.1 = some (.mergeExecutor s dispatch) →
      ∃ card, cardsOfKind approvalKindPrMerge (savedCards desk.queue) = [card]

/-- The rule of each branch picks the card that the message quotes. -/
structure PicksQuoted (card : Job) : Prop where
  operator : ∀ s picked reply, OperatorMatched wiring desk call s picked reply → picked = card
  merge : ∀ s picked dispatch, MergeMatched wiring desk call s picked dispatch → picked = card
  /-- The rule for code is told what is quoted, and picks the card when it is in its session. -/
  code : ∀ s picked order, CodeMatched wiring desk call s picked order →
    card ∈ candidates desk.queue s (some approvalKindEngineeringWrite) ∧ order.sessionId = s
  note : ∀ s picked write, NoteMatched wiring desk call s picked write →
    picked = card ∧ write.sessionId = s

/-- When a reply acts on what it addresses. -/
structure Unmistakable : Prop where
  quoted : ∀ card, Quotes desk.queue call.message card → PicksQuoted wiring desk call card
  /-- The guard looks at the newest hundred cards of every kind. -/
  unquoted : call.message.reference = none →
    ∀ s picked dispatch, MergeMatched wiring desk call s picked dispatch →
      (cardsOfKind approvalKindPrMerge (savedCards desk.queue)).length ≤ 1
        ∨ 2 ≤ (findOpenApprovalCardsByKind desk.queue approvalKindPrMerge).length

variable {wiring desk call}

theorem candidates_spec {q : JobQueue} {sessionId kind : String} {card : Job} :
    card ∈ candidates q sessionId (some kind) ↔
      card ∈ savedCards q ∧ card.sessionId = sessionId
        ∧ (card.payload.getJson "approval_kind").eqStr kind = true := by
  simp only [candidates, JobQueue.listForSession, mem_savedCards, isSavedCard, List.mem_filter,
    List.mem_insertionSort, Bool.and_eq_true, beq_iff_eq, Option.all_some, List.isEmpty_cons,
    Bool.false_or, List.contains_cons, List.contains_nil, Bool.or_false]
  tauto

theorem mem_operatorCards {q : JobQueue} {sessionId : String} {card : Job} :
    card ∈ operatorCards q sessionId ↔
      card ∈ savedCards q ∧ card.sessionId = sessionId
        ∧ ∃ kind ∈ operatorActionKinds, (card.payload.getJson "approval_kind").eqStr kind = true := by
  simp only [operatorCards, JobQueue.listForSession, mem_savedCards, isSavedCard, List.mem_filter,
    List.mem_insertionSort, Bool.and_eq_true, beq_iff_eq, List.isEmpty_cons,
    Bool.false_or, List.contains_cons, List.contains_nil, Bool.or_false, List.any_eq_true]
  tauto

theorem findPendingOperatorAction_mem {q : JobQueue} {sessionId : String}
    {sourceMessageId sourceThreadId : Option Int} {card : Job}
    (h : findPendingOperatorAction q sessionId sourceMessageId sourceThreadId = some (some card)) :
    card ∈ operatorCards q sessionId := by
  unfold findPendingOperatorAction at h
  split at h
  · cases h
  · obtain ⟨quoted, hquoted, h⟩ := Option.bind_eq_some_iff.mp h
    split at h
    · obtain rfl : quoted = some card := Option.some.inj h
      cases sourceMessageId with
      | none => cases hquoted
      | some id => exact mem_of_findByInt hquoted
    · obtain ⟨inThread, hthread, h⟩ := Option.bind_eq_some_iff.mp h
      rcases Option.or_eq_some_iff.mp (Option.some.inj h) with hnewest | ⟨-, hnewest⟩
      · cases sourceThreadId with
        | none =>
          cases hthread
          cases hnewest
        | some id => exact filterByInt_subset hthread (mem_of_mostRecent hnewest)
      · exact mem_of_mostRecent hnewest

theorem strOr_of_eqStr {d : Dict Json} {key text : String} (htext : text ≠ "")
    (h : (d.getJson key).eqStr text = true) : d.strOr key "" = text := by
  cases hv : d.getJson key with
  | str s =>
    rw [hv, Json.eqStr_str, beq_iff_eq] at h
    subst h
    simp [Dict.strOr, hv, Json.truthy, Json.toStr, htext]
  | _ =>
    rw [hv] at h
    cases h

/-- A card is known by its id. -/
theorem eq_of_jobId {q : JobQueue} {a b : Job} (ha : a ∈ savedCards q) (hb : b ∈ savedCards q)
    (h : a.jobId = b.jobId) : a = b := by
  have hgeta := JobQueue.get_of_mem (mem_savedCards.mp ha).1
  have hgetb := JobQueue.get_of_mem (mem_savedCards.mp hb).1
  rw [h] at hgeta
  exact Option.some.inj (hgeta.symm.trans hgetb)

theorem OperatorMatched.mem {sessionId : String} {card : Job} {reply : OperatorActionReply}
    (h : OperatorMatched wiring desk call sessionId card reply) :
    card ∈ operatorCards desk.queue sessionId := by
  have hpicked := h.picked
  rw [operatorCard, h.session] at hpicked
  exact findPendingOperatorAction_mem hpicked

theorem MergeMatched.mem {sessionId : String} {card : Job} {dispatch : PRMergeReplyDispatch}
    (h : MergeMatched wiring desk call sessionId card dispatch) :
    card ∈ candidates desk.queue sessionId (some approvalKindPrMerge) :=
  findReplyableApproval_mem h.picked

theorem CodeMatched.mem {sessionId : String} {card : Job} {order : GitHubWorkOrder}
    (h : CodeMatched wiring desk call sessionId card order) :
    card ∈ candidates desk.queue sessionId (some approvalKindEngineeringWrite) :=
  findReplyableApproval_mem h.picked

theorem NoteMatched.mem {sessionId : String} {card : Job} {write : ObsidianWriteRequest}
    (h : NoteMatched wiring desk call sessionId card write) :
    card ∈ candidates desk.queue sessionId (some approvalKindObsidianWrite) :=
  findReplyableApproval_mem h.picked

theorem workOrderOf_approvalId {request : ApprovalRequest} {approvalId approvedBy utcNow : String}
    {approvedAt : Option String} {dryRun : Option Bool} {order : GitHubWorkOrder}
    (h : workOrderOf request approvalId approvedBy approvedAt dryRun utcNow = .ok order) :
    order.approvalId = approvalId := by
  unfold workOrderOf at h
  split at h
  · cases h
  · split at h
    · split at h
      · cases h
      · cases h
        rfl
    · cases h

/-- The rule for code picks the quoted card, if it is among the cards of its session. -/
theorem CodeMatched.picked_eq_iff {sessionId : String} {picked card : Job} {order : GitHubWorkOrder}
    (h : CodeMatched wiring desk call sessionId picked order)
    (hquotes : Quotes desk.queue call.message card) :
    picked = card ↔ card ∈ candidates desk.queue sessionId (some approvalKindEngineeringWrite) := by
  refine ⟨fun heq => heq ▸ h.mem, fun hmem => ?_⟩
  obtain ⟨id, hid⟩ := Option.isSome_iff_exists.mp hquotes.quotes
  have hposted := hquotes.posted
  rw [hid] at hposted
  have hrule := h.picked
  rw [codeCard, hid, findReplyableApproval] at hrule
  split at hrule
  · cases hrule
  · obtain ⟨posted, hfound, hrule⟩ := Option.bind_eq_some_iff.mp hrule
    obtain ⟨first, rfl, hfirst⟩ := findByInt_of_mem hfound hmem hposted
    obtain rfl : first = picked := Option.some.inj (Option.some.inj hrule)
    refine hquotes.only first (candidates_spec.mp h.mem).1 ?_
    rw [hid]
    exact hfirst

/-! ## When a reply acts on what it addresses -/

/-- A posted card of the session. -/
def postedCard (jobId kind : String) (posted : Int) (createdAt : Time) (extra : Dict Json) : Job where
  jobId := jobId
  sessionId := "session"
  jobType := Supersede.jobTypeApprovalPost
  state := .saved
  payload := [("session_id", .str "session"), ("approval_kind", .str kind), ("extra", .obj extra)]
  result := [("posted_message_id", .int posted)]
  role := none
  priority := 0
  attempt := 0
  maxAttempts := 3
  availableAt := createdAt
  pickedBy := none
  pickedUntil := none
  createdAt := createdAt
  updatedAt := createdAt

def postedMerge : Job :=
  postedCard "merge-card" "pr_merge" 11 1 [("repo", .str "yule/forgekit"), ("pr_number", .int 7)]

def postedCode : Job :=
  postedCard "code-card" "engineering_write" 22 2
    [("github_work_order_proposal", .obj [("session_id", .str "session")])]

/-- One session with a merge card and a card for code. -/
def sampleDesk : Desk where
  queue := ⟨⟨[postedMerge, postedCode], by decide⟩, [], by simp⟩
  extras := [("session", [])]

/-- The approval channel, with an executor that merges. -/
def sampleWiring : Wiring where
  approvalChannelId := some 70
  merge := ⟨some fun _ => some [("merge_sha", .str "f00d")], none⟩
  isWord c := c.isAlphanum || c == '_'

/-- An approval that quotes the card for code. -/
def sampleCall : Call where
  message :=
    { author := some { name := some "operator" }, channel := some { id := some 70 }
      content := "승인", id := some 33, reference := some 22 }
  sessionLister := some [{ sessionId := "session", updatedAt := "2026-05-15" }]
  utcNow := "2026-05-15T10:00:00+00:00"
  jobId := "order"
  now := 3

theorem quotes_postedCode : Quotes sampleDesk.queue sampleCall.message postedCode where
  saved := mem_savedCards.mpr ⟨List.mem_cons_of_mem _ List.mem_cons_self, by decide⟩
  quotes := rfl
  posted := rfl
  only other hother hposted := by
    obtain ⟨hmem, -⟩ := mem_savedCards.mp hother
    rcases List.mem_cons.mp hmem with rfl | hmem
    · exact absurd hposted (by decide)
    · exact List.mem_singleton.mp hmem

end ReplyRouter

end ForgeKit
