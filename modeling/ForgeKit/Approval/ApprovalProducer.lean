import ForgeKit.Approval.Reply
import ForgeKit.JobQueue.Producers

/-!
# The producer side of `ApprovalWorker`

`find_active` compares `source_message_id` only when both sides carry one, so a request without a
message and a request for one message answer each other.

`distinct_cards_iff` — two requests that differ in the message get two cards when each of them has
a card of its own among those in flight, or when the missing message meets an older card first.
-/

namespace ForgeKit

open JobQueue

namespace ApprovalReply

/-- `to_payload`. -/
def ApprovalRequest.toPayload (r : ApprovalRequest) : Dict Json :=
  [("session_id", .str r.sessionId),
   ("approval_kind", .str r.approvalKind),
   ("title", .str r.title),
   ("summary", .str r.summary),
   ("requested_action", .str r.requestedAction),
   ("created_by", .str r.createdBy),
   ("source_channel_id", optInt r.sourceChannelId),
   ("source_thread_id", optInt r.sourceThreadId),
   ("source_message_id", optInt r.sourceMessageId),
   ("extra", .obj r.extra)]

end ApprovalReply

open ApprovalReply (ApprovalRequest)

namespace ApprovalWorker

/-- `_ACTIVE_STATES`. -/
def activeStates : List JobState :=
  [.queued, .assigned, .inProgress, .waitingForRole, .researching, .pendingApproval,
    .readyForObsidian]

/-- An `approval_post` row of the kind. -/
def isCardOf (approvalKind : String) (r : Job) : Bool :=
  r.jobType == Supersede.jobTypeApprovalPost && r.payload.strOr "approval_kind" "" == approvalKind

/-- The stored message and the request's do not differ; the error is that of
`int(existing_src)`. -/
def sameSource (sourceMessageId : Option Int) (existing : Json) : Except QueueError Bool :=
  match sourceMessageId, existing with
  | none, _ => .ok true
  | some _, .null => .ok true
  | some source, existing =>
    match existing.toInt? with
    | none => .error .attributeError
    | some n => .ok (n == source)

/-- The row that `find_active` looks for. -/
def isActiveFor (approvalKind : String) (sourceMessageId : Option Int) (r : Job) :
    Except QueueError Bool :=
  if isCardOf approvalKind r then
    sameSource sourceMessageId (r.payload.getJson "source_message_id")
  else .ok false

/-- The arguments of `enqueue`, without the clock. -/
structure EnqueueArgs where
  request : ApprovalRequest
  priority : Int := 0
  maxAttempts : Int := 3

/-- The insert that `enqueue` makes when it found no active row. -/
def EnqueueArgs.insert (a : EnqueueArgs) (jobId : String) (now : Time) : JobQueue.EnqueueArgs where
  jobId := jobId
  sessionId := a.request.sessionId
  jobType := Supersede.jobTypeApprovalPost
  payload := a.request.toPayload
  priority := a.priority
  maxAttempts := a.maxAttempts
  now := now

/-- The call as a producer; the guard of `find_active` also wants a kind. -/
def producer (a : EnqueueArgs) : Producer where
  sessionId := a.request.sessionId
  states := activeStates
  keyed := a.request.approvalKind != ""
  answers := isActiveFor a.request.approvalKind a.request.sourceMessageId
  insert := a.insert
  insert_jobId _ _ := rfl
  insert_session _ _ := rfl
  insert_listed _ _ := .inr rfl

/-- `find_active` for a request. -/
def findActive (q : JobQueue) (a : EnqueueArgs) : Except QueueError (Option Job) :=
  (producer a).findActive q

/-- `enqueue`. -/
def enqueue (q : JobQueue) (a : EnqueueArgs) (jobId : String) (now : Time) :
    Except QueueError ((Job × Bool) × JobQueue) := (producer a).enqueue q jobId now

/-! ## The inserted card -/

theorem isCardOf_insert (a : EnqueueArgs) (jobId : String) (now : Time) (approvalKind : String) :
    isCardOf approvalKind (a.insert jobId now).job = (a.request.approvalKind == approvalKind) := by
  have hkind : (a.insert jobId now).job.payload.strOr "approval_kind" "" = a.request.approvalKind :=
    Dict.strOr_str_self rfl
  rw [isCardOf, hkind]
  simp [EnqueueArgs.insert, JobQueue.EnqueueArgs.job]

/-- The inserted card answers a request of its kind unless both carry a message and they differ. -/
theorem isActiveFor_insert (a : EnqueueArgs) (jobId : String) (now : Time)
    (sourceMessageId : Option Int) :
    isActiveFor a.request.approvalKind sourceMessageId (a.insert jobId now).job
      = .ok (sourceMessageId.all fun source => a.request.sourceMessageId.all (· == source)) := by
  have hsource : (a.insert jobId now).job.payload.getJson "source_message_id"
      = optInt a.request.sourceMessageId := rfl
  rw [isActiveFor, isCardOf_insert, if_pos (by simp), hsource]
  cases sourceMessageId with
  | none => simp [sameSource]
  | some source => cases a.request.sourceMessageId <;> simp [sameSource, optInt, Json.toInt?]

theorem isActiveFor_self (a : EnqueueArgs) (jobId : String) (now : Time) :
    isActiveFor a.request.approvalKind a.request.sourceMessageId (a.insert jobId now).job
      = .ok true := by
  rw [isActiveFor_insert]
  cases a.request.sourceMessageId <;> simp

/-! ## Two requests of one kind -/

/-- A comparison that went through read the stored message. -/
theorem sameSource_isOk {source : Int} {existing : Json}
    (h : sameSource (some source) existing = .ok false) (sourceMessageId : Option Int) :
    ∃ b, sameSource sourceMessageId existing = .ok b := by
  cases sourceMessageId with
  | none => exact ⟨true, rfl⟩
  | some other =>
    by_cases hnull : existing = .null
    · rw [hnull] at h
      cases h
    · rw [sameSource] at h ⊢
      · cases hn : existing.toInt? with
        | none => rw [hn] at h; cases h
        | some n => exact ⟨n == other, rfl⟩
      all_goals simp [hnull]

/-- A row that one request refuses is readable to every request of the kind. -/
theorem isActiveFor_isOk {approvalKind : String} {source : Int} {r : Job}
    (h : isActiveFor approvalKind (some source) r = .ok false) (sourceMessageId : Option Int) :
    ∃ b, isActiveFor approvalKind sourceMessageId r = .ok b := by
  unfold isActiveFor at h ⊢
  by_cases hcard : isCardOf approvalKind r = true
  · rw [if_pos hcard] at h ⊢
    exact sameSource_isOk h sourceMessageId
  · exact ⟨false, if_neg hcard⟩

/-- Without a message every card of the kind answers. -/
theorem isActiveFor_none (approvalKind : String) (r : Job) :
    isActiveFor approvalKind none r = .ok (isCardOf approvalKind r) := by
  unfold isActiveFor
  split <;> simp_all [sameSource]

/-- A row that a request finds is a card of its kind. -/
theorem isCardOf_of_isActiveFor {approvalKind : String} {sourceMessageId : Option Int} {r : Job}
    (h : isActiveFor approvalKind sourceMessageId r = .ok true) :
    isCardOf approvalKind r = true := by
  unfold isActiveFor at h
  split at h
  · assumption
  · cases h

/-! ## Two requests that differ in the message -/

/-- One `enqueue` call with its clock and the id that a new row gets. -/
structure Post where
  args : EnqueueArgs
  jobId : String
  now : Time

/-- The queue accepts the new row of the call. -/
structure Post.Accepted (q : JobQueue) (p : Post) : Prop where
  session : p.args.request.sessionId ≠ ""
  attempts : 1 ≤ p.args.maxAttempts
  fresh : q.get p.jobId = none

/-- Both calls return, with two `approval_post` rows. -/
def DistinctCards (q : JobQueue) (first second : Post) : Prop :=
  ∃ card created q₁ card' created' q₂,
    enqueue q first.args first.jobId first.now = .ok ((card, created), q₁)
      ∧ enqueue q₁ second.args second.jobId second.now = .ok ((card', created'), q₂)
      ∧ card.jobId ≠ card'.jobId
      ∧ card.jobType = Supersede.jobTypeApprovalPost
      ∧ card'.jobType = Supersede.jobTypeApprovalPost

/-- The cards of the session that are in flight, by creation time. -/
def activeCards (q : JobQueue) (sessionId approvalKind : String) : List Job :=
  (q.listForSession sessionId activeStates).filter (isCardOf approvalKind)

/-- The state before the two calls keeps them apart: without a kind nothing is looked up; a card
found by the first call is not the one that the second one would find; and when the first call finds
none, both requests carry a message, or an older card of the kind answers the second one. -/
def KeepsApart (q : JobQueue) (first second : Post) : Prop :=
  first.args.request.approvalKind = ""
    ∨ (∃ card found, findActive q first.args = .ok (some card)
      ∧ findActive q second.args = .ok found ∧ found ≠ some card)
    ∨ (findActive q first.args = .ok none
      ∧ ((first.args.request.sourceMessageId ≠ none ∧ second.args.request.sourceMessageId ≠ none)
        ∨ (second.args.request.sourceMessageId = none
          ∧ ∃ card ∈ activeCards q first.args.request.sessionId first.args.request.approvalKind,
            card.createdAt ≤ first.now)))

variable {q q₁ : JobQueue} {first second : Post}

theorem findActive_eq {a : EnqueueArgs} (hsession : a.request.sessionId ≠ "")
    (hkind : a.request.approvalKind ≠ "") :
    findActive q a = (q.listForSession a.request.sessionId activeStates).findM?
      (isActiveFor a.request.approvalKind a.request.sourceMessageId) := by
  exact Producer.findActive_of_keyed (p := producer a) q hsession (by simp [producer, hkind])

/-- A card that was found is a row of the queue. -/
theorem findActive_some {a : EnqueueArgs} {card : Job} (h : findActive q a = .ok (some card)) :
    q.get card.jobId = some card ∧ isCardOf a.request.approvalKind card = true := by
  obtain ⟨hsession, hkeyed⟩ := Producer.keyed_of_findActive h
  rw [findActive, Producer.findActive_of_keyed q hsession hkeyed] at h
  obtain ⟨hmem, hans⟩ := FirstMatch.mem_of_findM? h
  exact ⟨get_of_mem (Producer.mem_listForSession.mp hmem).1, isCardOf_of_isActiveFor hans⟩

theorem jobType_of_isCardOf {approvalKind : String} {card : Job}
    (h : isCardOf approvalKind card = true) : card.jobType = Supersede.jobTypeApprovalPost := by
  simp only [isCardOf, Bool.and_eq_true, beq_iff_eq] at h
  exact h.1

/-- A call that finds no card inserts one. -/
theorem enqueue_of_none (hacc : first.Accepted q) (h : findActive q first.args = .ok none) :
    ∃ q₁, q.enqueue (first.args.insert first.jobId first.now)
        = .ok ((first.args.insert first.jobId first.now).job, q₁)
      ∧ enqueue q first.args first.jobId first.now
        = .ok (((first.args.insert first.jobId first.now).job, true), q₁) := by
  obtain ⟨q₁, hins⟩ := Producer.enqueue_of_free (a := first.args.insert first.jobId first.now)
    hacc.session (by simp [EnqueueArgs.insert, Supersede.jobTypeApprovalPost]) hacc.attempts
    hacc.fresh rfl
  refine ⟨q₁, hins, ?_⟩
  have hnone : (producer first.args).findActive q = .ok none := h
  have hins' : q.enqueue ((producer first.args).insert first.jobId first.now)
      = .ok ((first.args.insert first.jobId first.now).job, q₁) := hins
  rw [enqueue, Producer.enqueue, hnone]
  simp only [hins']

/-- After the first call the second one has to find something else than its card. -/
theorem distinct_iff_of_first {card : Job} {created : Bool} {approvalKind : String}
    (hfirst : enqueue q first.args first.jobId first.now = .ok ((card, created), q₁))
    (hcard : q₁.get card.jobId = some card) (hkind : isCardOf approvalKind card = true)
    (hacc : second.Accepted q₁) :
    DistinctCards q first second
      ↔ ∃ found, findActive q₁ second.args = .ok found ∧ found ≠ some card := by
  constructor
  · rintro ⟨card₁, created₁, q', card', created', q₂, h₁, h₂, hne, -, -⟩
    rw [hfirst] at h₁
    cases h₁
    rcases Producer.enqueue_ok h₂ with ⟨hfound, -, -⟩ | ⟨hnone, -, -⟩
    · refine ⟨some card', hfound, ?_⟩
      intro he
      cases he
      exact hne rfl
    · exact ⟨none, hnone, by simp⟩
  · rintro ⟨found, hfound, hne⟩
    cases found with
    | none =>
      obtain ⟨q₂, -, henq⟩ := enqueue_of_none hacc hfound
      refine ⟨card, created, q₁, _, true, q₂, hfirst, henq, ?_, jobType_of_isCardOf hkind, rfl⟩
      intro hid
      have hfree := hacc.fresh
      have hid' : card.jobId = second.jobId := hid
      rw [← hid', hcard] at hfree
      cases hfree
    | some card' =>
      obtain ⟨hget, hkind'⟩ := findActive_some hfound
      refine ⟨card, created, q₁, card', false, q₁, hfirst, Producer.enqueue_of_found hfound, ?_,
        jobType_of_isCardOf hkind, jobType_of_isCardOf hkind'⟩
      intro hid
      rw [← hid, hcard] at hget
      exact hne hget.symm

/-! ## The three outcomes of the first lookup -/

/-- The first call found a card: the second one has to find another card or none. -/
theorem distinct_iff_of_found {card : Job} (hacc : second.Accepted q)
    (hfound : findActive q first.args = .ok (some card)) :
    DistinctCards q first second
      ↔ ∃ found, findActive q second.args = .ok found ∧ found ≠ some card := by
  obtain ⟨hget, hkind⟩ := findActive_some hfound
  exact distinct_iff_of_first (Producer.enqueue_of_found hfound) hget hkind hacc

theorem accepted_of_enqueue {a : JobQueue.EnqueueArgs} {job : Job} (h : q.enqueue a = .ok (job, q₁))
    (hid : a.jobId ≠ second.jobId) (hacc : second.Accepted q) : second.Accepted q₁ := by
  refine ⟨hacc.session, hacc.attempts, ?_⟩
  rw [(JobQueue.enqueue_ok h).2.2.2.2.2.1, if_neg hid]
  exact hacc.fresh

/-- The second lookup lists the new card. -/
theorem inserted_listed
    (hsession : first.args.request.sessionId = second.args.request.sessionId)
    (hins : q.enqueue (first.args.insert first.jobId first.now)
      = .ok ((first.args.insert first.jobId first.now).job, q₁)) :
    (first.args.insert first.jobId first.now).job
      ∈ q₁.listForSession second.args.request.sessionId activeStates := by
  have hmem := Producer.mem_listForSession_inserted (p := producer first.args) hins
  rwa [← hsession]

section InsertedFirst

variable (hsession : first.args.request.sessionId = second.args.request.sessionId)
  (hkind : first.args.request.approvalKind = second.args.request.approvalKind)
  (hkeyed : second.args.request.approvalKind ≠ "") (hacc : second.Accepted q)
  (hnone : findActive q first.args = .ok none)
  (hins : q.enqueue (first.args.insert first.jobId first.now)
    = .ok ((first.args.insert first.jobId first.now).job, q₁))

include hsession hkind hkeyed hacc hnone

/-- The cards in flight before the first call, which answer none of its lookup. -/
theorem refused_of_none {card : Job}
    (hcard : card ∈ q.listForSession second.args.request.sessionId activeStates) :
    isActiveFor second.args.request.approvalKind first.args.request.sourceMessageId card
      = .ok false := by
  rw [findActive_eq (by rw [hsession]; exact hacc.session) (by rw [hkind]; exact hkeyed)] at hnone
  rw [← hkind]
  exact FirstMatch.findM?_eq_none_iff.mp hnone card (by rw [hsession]; exact hcard)

include hins

/-- A request with a message finds the new card when that one has none. -/
theorem findActive_of_general (hgeneral : first.args.request.sourceMessageId = none) :
    findActive q₁ second.args
      = .ok (some (first.args.insert first.jobId first.now).job) := by
  rw [findActive_eq hacc.session hkeyed]
  rw [FirstMatch.findM?_of_single (inserted_listed hsession hins) ?_,
    FirstMatch.findM?_singleton]
  · refine ⟨rfl, ?_⟩
    rw [← hkind, isActiveFor_insert, hgeneral]
    cases second.args.request.sourceMessageId <;> simp
  · intro card hcard hne
    have hrefused := refused_of_none hsession hkind hkeyed hacc hnone
      (Producer.mem_listForSession_of_enqueue hins hcard hne)
    rw [hgeneral, isActiveFor_none, Except.ok.injEq] at hrefused
    rw [isActiveFor, if_neg (by simp [hrefused])]

/-- Two different messages: the second lookup ends without the new card. -/
theorem findActive_of_messages {source source' : Int} (hne : source ≠ source')
    (hfirst : first.args.request.sourceMessageId = some source)
    (hsecond : second.args.request.sourceMessageId = some source') :
    ∃ found, findActive q₁ second.args = .ok found
      ∧ found ≠ some (first.args.insert first.jobId first.now).job := by
  have hnew : isActiveFor second.args.request.approvalKind second.args.request.sourceMessageId
      (first.args.insert first.jobId first.now).job = .ok false := by
    rw [← hkind, isActiveFor_insert, hfirst, hsecond]
    simp [hne]
  rw [findActive_eq hacc.session hkeyed]
  obtain ⟨found, hfound⟩ := FirstMatch.findM?_isOk
    (l := q₁.listForSession second.args.request.sessionId activeStates)
    (p := isActiveFor second.args.request.approvalKind second.args.request.sourceMessageId) (by
      intro card hcard
      by_cases he : card = (first.args.insert first.jobId first.now).job
      · exact ⟨false, by rw [he, hnew]⟩
      · have hrefused := refused_of_none hsession hkind hkeyed hacc hnone
          (Producer.mem_listForSession_of_enqueue hins hcard he)
        rw [hfirst] at hrefused
        exact isActiveFor_isOk hrefused _)
  refine ⟨found, hfound, ?_⟩
  intro he
  rw [he] at hfound
  have hans := (FirstMatch.mem_of_findM? hfound).2
  rw [hnew] at hans
  cases hans

omit hnone in
/-- A request without a message passes the new card by when an older card of the kind stands
before it. -/
theorem findActive_general_iff (hgeneral : second.args.request.sourceMessageId = none) :
    (∃ found, findActive q₁ second.args = .ok found
      ∧ found ≠ some (first.args.insert first.jobId first.now).job)
      ↔ ∃ card ∈ activeCards q second.args.request.sessionId second.args.request.approvalKind,
        card.createdAt ≤ first.now := by
  have hlisted := inserted_listed hsession hins
  have hcards : isActiveFor second.args.request.approvalKind none
      = fun r => .ok (isCardOf second.args.request.approvalKind r) :=
    funext (isActiveFor_none _)
  have hnew : isCardOf second.args.request.approvalKind
      (first.args.insert first.jobId first.now).job = true := by
    rw [isCardOf_insert, hkind, beq_self_eq_true]
  rw [findActive_eq hacc.session hkeyed, hgeneral, hcards]
  constructor
  · rintro ⟨found, hfound, hne⟩
    cases found with
    | none =>
      have hrefused := FirstMatch.findM?_eq_none_iff.mp hfound _ hlisted
      rw [hnew] at hrefused
      cases hrefused
    | some card =>
      have hcardNe : card ≠ (first.args.insert first.jobId first.now).job := by
        rintro rfl
        exact hne rfl
      obtain ⟨l₁, l₂, hl, hpre, hans⟩ := FirstMatch.findM?_eq_some_iff.mp hfound
      have hmem : card ∈ q₁.listForSession second.args.request.sessionId activeStates := by
        rw [hl]; simp
      -- the new card is a match too, so it stands behind the one found
      have hbehind : (first.args.insert first.jobId first.now).job ∈ l₂ := by
        rw [hl, List.mem_append, List.mem_cons] at hlisted
        rcases hlisted with h | h | h
        · have hrefused := hpre _ h
          rw [hnew] at hrefused
          cases hrefused
        · exact absurd h.symm hcardNe
        · exact h
      have hsorted := Producer.listForSession_sorted q₁ second.args.request.sessionId activeStates
      rw [hl] at hsorted
      have hle := List.rel_of_pairwise_cons (List.pairwise_append.mp hsorted).2.1 hbehind
      refine ⟨card, List.mem_filter.mpr ⟨?_, Except.ok.inj hans⟩, hle⟩
      exact Producer.mem_listForSession_of_enqueue hins hmem hcardNe
  · rintro ⟨card, hcard, hle⟩
    obtain ⟨hmem, hcardKind⟩ := List.mem_filter.mp hcard
    obtain ⟨found, hfound⟩ := FirstMatch.findM?_isOk
      (l := q₁.listForSession second.args.request.sessionId activeStates)
      (p := fun r => .ok (isCardOf second.args.request.approvalKind r) (ε := QueueError))
      fun r _ => ⟨_, rfl⟩
    refine ⟨found, hfound, ?_⟩
    rintro rfl
    exact FirstMatch.findM?_ne_of_before (Producer.nodup_listForSession _ _ _)
      (Producer.before_inserted hins hmem hlisted hle) (by rw [hcardKind]) hfound

end InsertedFirst

/-- The first call found none and inserted its card. -/
theorem distinct_iff_of_none (hsession : first.args.request.sessionId = second.args.request.sessionId)
    (hkind : first.args.request.approvalKind = second.args.request.approvalKind)
    (hsource : first.args.request.sourceMessageId ≠ second.args.request.sourceMessageId)
    (hkeyed : second.args.request.approvalKind ≠ "") (hfirst : first.Accepted q)
    (hsecond : second.Accepted q) (hid : first.jobId ≠ second.jobId)
    (hnone : findActive q first.args = .ok none) :
    DistinctCards q first second
      ↔ (first.args.request.sourceMessageId ≠ none ∧ second.args.request.sourceMessageId ≠ none)
        ∨ (second.args.request.sourceMessageId = none
          ∧ ∃ card ∈ activeCards q first.args.request.sessionId first.args.request.approvalKind,
            card.createdAt ≤ first.now) := by
  obtain ⟨q₁, hins, henq⟩ := enqueue_of_none hfirst hnone
  have hget : q₁.get first.jobId = some (first.args.insert first.jobId first.now).job := by
    have hinserted := (JobQueue.enqueue_ok hins).2.2.2.2.2.1 first.jobId
    rwa [if_pos (show (first.args.insert first.jobId first.now).jobId = first.jobId from rfl)]
      at hinserted
  rw [distinct_iff_of_first henq hget (by rw [isCardOf_insert]; exact beq_self_eq_true _)
    (accepted_of_enqueue hins hid hsecond), hsession, hkind]
  cases hfirstSource : first.args.request.sourceMessageId with
  | none =>
    have hsome : second.args.request.sourceMessageId ≠ none := by
      intro he
      exact hsource (hfirstSource.trans he.symm)
    have hfound := findActive_of_general hsession hkind hkeyed hsecond hnone hins hfirstSource
    refine iff_of_false ?_ (by simp [hsome])
    rintro ⟨found, hfound', hne⟩
    rw [hfound] at hfound'
    exact hne (Except.ok.inj hfound').symm
  | some source =>
    cases hsecondSource : second.args.request.sourceMessageId with
    | none =>
      rw [findActive_general_iff hsession hkind hkeyed hsecond hins hsecondSource]
      simp
    | some source' =>
      refine iff_of_true ?_ (by simp)
      refine findActive_of_messages hsession hkind hkeyed hsecond hnone hins ?_ hfirstSource
        hsecondSource
      rintro rfl
      exact hsource (hfirstSource.trans hsecondSource.symm)

/-- Without a kind neither call looks anything up. -/
theorem distinct_of_unkeyed (hkind : first.args.request.approvalKind = second.args.request.approvalKind)
    (hunkeyed : first.args.request.approvalKind = "") (hfirst : first.Accepted q)
    (hsecond : second.Accepted q) (hid : first.jobId ≠ second.jobId) :
    DistinctCards q first second := by
  have hnone : ∀ (q : JobQueue) (a : EnqueueArgs), a.request.approvalKind = "" →
      findActive q a = .ok none := by
    intro q a ha
    exact Producer.findActive_of_unkeyed q (.inr (by simp [producer, ha]))
  obtain ⟨q₁, hins, henq⟩ := enqueue_of_none hfirst (hnone q first.args hunkeyed)
  obtain ⟨q₂, -, henq'⟩ := enqueue_of_none (accepted_of_enqueue hins hid hsecond)
    (hnone q₁ second.args (hkind ▸ hunkeyed))
  exact ⟨_, _, q₁, _, _, q₂, henq, henq', hid, rfl, rfl⟩

/-- **Two requests that differ in the message get two cards exactly when the state keeps them
apart.** -/
theorem distinct_cards_iff (q : JobQueue) (first second : Post)
    (hsession : first.args.request.sessionId = second.args.request.sessionId)
    (hkind : first.args.request.approvalKind = second.args.request.approvalKind)
    (hsource : first.args.request.sourceMessageId ≠ second.args.request.sourceMessageId)
    (hfirst : first.Accepted q) (hsecond : second.Accepted q)
    (hid : first.jobId ≠ second.jobId) :
    DistinctCards q first second ↔ KeepsApart q first second := by
  by_cases hkeyed : first.args.request.approvalKind = ""
  · exact iff_of_true (distinct_of_unkeyed hkind hkeyed hfirst hsecond hid) (.inl hkeyed)
  rw [KeepsApart]
  rcases hfound : findActive q first.args with e | found
  · refine iff_of_false ?_ (by simp [hkeyed])
    rintro ⟨card, created, q₁, card', created', q₂, h₁, -⟩
    have herr : (producer first.args).findActive q = .error e := hfound
    rw [enqueue, Producer.enqueue, herr] at h₁
    cases h₁
  · cases found with
    | none =>
      rw [distinct_iff_of_none hsession hkind hsource (hkind ▸ hkeyed) hfirst hsecond hid hfound]
      simp [hkeyed]
    | some card =>
      rw [distinct_iff_of_found hsecond hfound]
      simp [hkeyed]

/-! ## One session -/

/-- A call for an Obsidian save on the session. -/
def samplePost (sourceMessageId : Option Int) (jobId : String) : Post where
  args :=
    { request :=
        { sessionId := "session", approvalKind := "obsidian_write", title := "note", summary := "",
          requestedAction := "", createdBy := "gateway", sourceChannelId := none,
          sourceThreadId := none, sourceMessageId, extra := [] } }
  jobId
  now := 0

theorem samplePost_accepted (sourceMessageId : Option Int) (jobId : String) :
    (samplePost sourceMessageId jobId).Accepted JobQueue.empty :=
  ⟨by simp [samplePost], by simp [samplePost], rfl⟩

/-- Two messages get two cards. -/
theorem messages_get_two_cards :
    DistinctCards JobQueue.empty (samplePost (some 5) "a") (samplePost (some 6) "b") :=
  (distinct_cards_iff JobQueue.empty (samplePost (some 5) "a") (samplePost (some 6) "b") rfl rfl
    (by decide) (samplePost_accepted _ _) (samplePost_accepted _ _) (by decide)).mpr
    (.inr (.inr ⟨rfl, .inl ⟨by decide, by decide⟩⟩))

/-- The card of a general request is returned for a request about one message. -/
theorem general_card_takes_message :
    ¬ ∀ (q : JobQueue) (first second : Post),
      first.args.request.sessionId = second.args.request.sessionId →
      first.args.request.approvalKind = second.args.request.approvalKind →
      first.args.request.sourceMessageId ≠ second.args.request.sourceMessageId →
      first.Accepted q → second.Accepted q → first.jobId ≠ second.jobId →
        DistinctCards q first second := by
  intro h
  have hdistinct := h JobQueue.empty (samplePost none "a") (samplePost (some 5) "b") rfl rfl
    (by decide) (samplePost_accepted _ _) (samplePost_accepted _ _) (by decide)
  have hnone : findActive JobQueue.empty (samplePost none "a").args = .ok none := rfl
  have hcases := (@distinct_iff_of_none JobQueue.empty (samplePost none "a")
    (samplePost (some 5) "b") rfl rfl (by decide) (by decide) (samplePost_accepted _ _)
    (samplePost_accepted _ _) (by decide) hnone).mp hdistinct
  simp [samplePost] at hcases

end ApprovalWorker

end ForgeKit
