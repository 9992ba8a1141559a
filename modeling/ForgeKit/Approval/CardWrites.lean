import ForgeKit.Approval.Reply
import ForgeKit.JobQueue.Fleet

/-!
# The writes of one approval card

Nothing on a card says that it was used or rejected. A reply that approves it goes to the
producer of the writer, and the only thing that can stop a second write is `find_active`, which
sees the write of an earlier reply as long as it is in flight.

* `CardInv` — the rows that carry a card's approval agree on all that `find_active` compares
* `created_only_by_approval` — what creates such a row, and what rules one out
-/

namespace ForgeKit

open JobQueue ApprovalReply

/-- The queue with its workers, and the `extra` of the stored sessions. -/
structure ApprovalDesk where
  fleet : Fleet
  extras : Dict (Dict Json)

/-- A reply, or a transaction of anybody else. -/
inductive DeskAction where
  | fleet (a : FleetAction)
  | reply (a : ReplyArgs)

namespace ApprovalDesk

/-- The tables. -/
def queue (s : ApprovalDesk) : JobQueue := s.fleet.queue

/-- One action. -/
def step (s : ApprovalDesk) : DeskAction → ApprovalDesk
  | .fleet a => { s with fleet := s.fleet.step a }
  | .reply a =>
    { fleet := { s.fleet with queue := (handleApprovalReply s.queue s.extras a).2.1 }
      extras := (handleApprovalReply s.queue s.extras a).2.2 }

/-- An `obsidian_write` row with this `approval_id`. -/
def carries (cardId : String) (r : Job) : Bool :=
  r.jobType == jobTypeObsidianWrite && (r.payload.getJson "approval_id").eqStr cardId

/-- Nobody but a reply enqueues a write for the card. -/
def Allowed (cardId : String) : DeskAction → Prop
  | .fleet (.enqueue args) => carries cardId args.job = false
  | _ => True

/-- A row that carries the card's approval is created by an approval only, with none in flight. -/
def CreatedByApproval (cardId : String) (s : ApprovalDesk) (a : DeskAction) : Prop :=
  ∀ k r', s.queue.get k = none → (s.step a).queue.get k = some r' → carries cardId r' = true →
    (∃ args card, a = .reply args ∧ parseApprovalIntent args.text = .approve
      ∧ findReplyableApproval s.queue args.sessionId args.approvalKind args.sourceMessageId
        args.sourceThreadId none = some (some card) ∧ card.jobId = cardId)
    ∧ ∀ j r, s.queue.get j = some r → carries cardId r = true →
      r.state ∉ ObsidianWriterWorker.activeStates

/-! ## The invariant -/

/-- The row is the write of an approval of this card. -/
def WriteOf (card : Job) (r : Job) : Prop :=
  ∃ a write, writeRequest? card a = some write ∧ r.jobType = jobTypeObsidianWrite
    ∧ r.sessionId = write.sessionId ∧ r.payload = write.toPayload

/-- Every row that carries the card's approval is the write of an approval of the card. -/
def CardInv (cardId : String) (s : ApprovalDesk) : Prop :=
  ∀ k r, s.queue.get k = some r → carries cardId r = true →
    ∃ card, s.queue.get cardId = some card ∧ WriteOf card r

/-- The write is made of the payload and the id of the card. -/
theorem writeRequest?_congr {card card' : Job} (hid : card'.jobId = card.jobId)
    (hpayload : card'.payload = card.payload) (a : ReplyArgs) :
    writeRequest? card' a = writeRequest? card a := by
  unfold writeRequest?
  rw [hid, hpayload]

/-- Two approvals of a card agree on everything that `find_active` compares. -/
theorem writeRequest?_agree {card card' : Job} (hpayload : card'.payload = card.payload)
    {a a' : ReplyArgs} {write write' : ObsidianWriteRequest} (h : writeRequest? card a = some write)
    (h' : writeRequest? card' a' = some write') :
    write'.sessionId = write.sessionId ∧ write'.noteKind = write.noteKind
      ∧ write'.sourceThreadId = write.sourceThreadId ∧ write'.title = write.title := by
  unfold writeRequest? at h h'
  rw [hpayload] at h'
  obtain ⟨request, hrequest, h⟩ := Option.bind_eq_some_iff.mp h
  rw [hrequest, Option.bind_some] at h'
  unfold approvalToObsidianWriteRequest at h h'
  split at h
  · cases h
  · next hkind =>
    rw [if_neg hkind] at h'
    cases h
    cases h'
    exact ⟨rfl, rfl, rfl, rfl⟩

/-- The row that an approval inserts carries the card it was matched to. -/
theorem carries_insert {card : Job} {a : ReplyArgs} {write : ObsidianWriteRequest}
    (h : writeRequest? card a = some write) {cardId jobId : String} {now : Time} :
    carries cardId (ObsidianWriterWorker.insert write jobId now).job = true
      ↔ card.jobId = cardId := by
  have hid : write.toPayload.getJson "approval_id" = .str card.jobId := by
    have hread : write.toPayload.getJson "approval_id" = optText write.approvalId := rfl
    rw [hread, (writeRequest?_spec h).1]
    rfl
  simp [carries, ObsidianWriterWorker.insert, EnqueueArgs.job, hid]

/-- The columns that these results read are written once. -/
theorem fleet_identity {f : Fleet} (b : FleetAction) (r : Job) :
    (f.rewrite b r).jobType = r.jobType ∧ (f.rewrite b r).sessionId = r.sessionId
      ∧ (f.rewrite b r).payload = r.payload := by
  have hch := Fleet.rowChange f b r
  generalize f.rewrite b r = r' at hch
  cases hch <;> exact ⟨rfl, rfl, rfl⟩

/-- What a reply does to the tables, row by row. -/
theorem get_step_reply (s : ApprovalDesk) (a : ReplyArgs) :
    (∀ k, (s.step (.reply a)).queue.get k = s.queue.get k)
      ∨ ∃ card write, parseApprovalIntent a.text = .approve
        ∧ findReplyableApproval s.queue a.sessionId a.approvalKind a.sourceMessageId
          a.sourceThreadId none = some (some card)
        ∧ writeRequest? card a = some write ∧ write.sessionId ≠ ""
        ∧ ObsidianWriterWorker.findActive s.queue write.sessionId write.noteKind
          write.sourceThreadId write.title = none
        ∧ s.queue.get a.jobId = none
        ∧ ∀ k, (s.step (.reply a)).queue.get k = if a.jobId = k then
            some (ObsidianWriterWorker.insert write a.jobId a.now).job else s.queue.get k := by
  have hqueue : (s.step (.reply a)).queue = (handleApprovalReply s.queue s.extras a).2.1 := by
    simp only [queue, step]
  rw [hqueue]
  rcases handleApprovalReply_queue s.queue s.extras a with hsame | ⟨card, write, hintent, hcard,
    hwrite, hactive, hq⟩
  · exact .inl fun k => by rw [hsame]
  · rw [hq]
    cases he : s.queue.enqueue (ObsidianWriterWorker.insert write a.jobId a.now) with
    | error e => exact .inl fun k => by rw [commit_error]
    | ok p =>
      obtain ⟨job, q'⟩ := p
      obtain ⟨-, -, hs, -, hfree, hget, -⟩ := enqueue_ok he
      exact .inr ⟨card, write, hintent, hcard, hwrite, hs, hactive, hfree, hget⟩

/-- **One action keeps the invariant.** -/
theorem cardInv_step {cardId : String} {s : ApprovalDesk} (hinv : CardInv cardId s)
    {a : DeskAction} (ha : Allowed cardId a) : CardInv cardId (s.step a) := by
  intro k r' hr' hcarries
  cases a with
  | fleet b =>
    rcases Fleet.get_step s.fleet b hr' with ⟨r, hr, rfl⟩ | ⟨args, rfl, -, -, rfl, -⟩
    · obtain ⟨htype, hsession, hpayload⟩ := fleet_identity (f := s.fleet) b r
      have hcarries' : carries cardId r = true := by
        rw [carries, htype, hpayload] at hcarries
        exact hcarries
      obtain ⟨card, hcard, args, write, hwrite, hty, hses, hpay⟩ := hinv k r hr hcarries'
      obtain ⟨-, -, hcardPayload⟩ := fleet_identity (f := s.fleet) b card
      have hafter := Fleet.get_step_of_some s.fleet b hcard
      refine ⟨_, hafter, args, write, ?_, ?_, ?_, ?_⟩
      · rw [writeRequest?_congr ((get_jobId hafter).trans (get_jobId hcard).symm) hcardPayload,
          hwrite]
      · rw [htype, hty]
      · rw [hsession, hses]
      · rw [hpayload, hpay]
    · exact absurd hcarries (by rw [ha]; decide)
  | reply args =>
    rcases get_step_reply s args with hsame | ⟨card, write, -, hcard, hwrite, -, -, hfree, hget⟩
    · rw [hsame] at hr'
      obtain ⟨card, hcard, hof⟩ := hinv k r' hr' hcarries
      exact ⟨card, by rw [hsame]; exact hcard, hof⟩
    · have hcardGet : s.queue.get card.jobId = some card :=
        (mem_candidates (findReplyableApproval_mem hcard)).1
      -- the card was there before the write, so it is still there
      have hkeep : ∀ j r, s.queue.get j = some r →
          (s.step (.reply args)).queue.get j = some r := by
        intro j r hj
        have hne : args.jobId ≠ j := fun he => by rw [← he, hfree] at hj; cases hj
        rw [hget, if_neg hne, hj]
      rw [hget] at hr'
      split at hr'
      · cases hr'
        have hid : card.jobId = cardId := (carries_insert hwrite).mp hcarries
        exact ⟨card, hkeep _ _ (hid ▸ hcardGet), args, write, hwrite, rfl, rfl, rfl⟩
      · obtain ⟨card', hcard', hof⟩ := hinv k r' hr' hcarries
        exact ⟨card', hkeep _ _ hcard', hof⟩

theorem createdByApproval_of_inv {cardId : String} {s : ApprovalDesk} (hinv : CardInv cardId s)
    {a : DeskAction} (ha : Allowed cardId a) : CreatedByApproval cardId s a := by
  intro k r' hnone hr' hcarries
  cases a with
  | fleet b =>
    rcases Fleet.get_step s.fleet b hr' with ⟨r, hr, -⟩ | ⟨args, rfl, -, -, rfl, -⟩
    · have hsome : s.queue.get k = some r := hr
      rw [hnone] at hsome
      cases hsome
    · exact absurd hcarries (by rw [ha]; decide)
  | reply args =>
    rcases get_step_reply s args with hsame | ⟨card, write, hintent, hcard, hwrite, hs, hactive,
      hfree, hget⟩
    · rw [hsame, hnone] at hr'
      cases hr'
    · rw [hget] at hr'
      split at hr'
      · cases hr'
        have hid : card.jobId = cardId := (carries_insert hwrite).mp hcarries
        refine ⟨⟨args, card, rfl, hintent, hcard, hid⟩, fun j r hr hr_carries => ?_⟩
        obtain ⟨card', hcard', args', write', hwrite', htype, hsession, hpayload⟩ :=
          hinv j r hr hr_carries
        have hsame : card' = card := by
          have hcardGet := (mem_candidates (findReplyableApproval_mem hcard)).1
          rw [hid] at hcardGet
          exact Option.some.inj (hcard'.symm.trans hcardGet)
        -- `find_active` would have returned this row
        obtain ⟨hses, hkind, hthread, htitle⟩ :=
          writeRequest?_agree (by rw [hsame]) hwrite hwrite'
        have hmatch := ObsidianWriterWorker.isActiveFor_of_payload htype hpayload
        rw [hkind, hthread, htitle] at hmatch
        have hknowledge : write.noteKind ≠ "" := by
          rw [(writeRequest?_spec hwrite).2]; decide
        exact ObsidianWriterWorker.findActive_none hs hknowledge hactive (Table.mem_of_find? hr)
          (hsession.trans hses) hmatch
      · rw [hnone] at hr'
        cases hr'

/-! ## Along a run -/

/--
**What creates a write for a card.**

From any queue without a write for the card, in any order of replies and of the work of others:
a row that carries the card's approval is created only by an APPROVE reply matched to the card,
and only while no row that carries it is in flight.
-/
theorem created_only_by_approval (cardId : String) (s : ApprovalDesk)
    (hs : ∀ r ∈ s.queue.jobs.rows, carries cardId r = false) (as : List DeskAction)
    (has : ∀ a ∈ as, Allowed cardId a) :
    Machine.EachStep step (CreatedByApproval cardId) s as :=
  Machine.eachStep_of_step (A := Allowed cardId) (I := CardInv cardId)
    (fun _ _ ha hinv => cardInv_step hinv ha)
    (fun _ _ ha hinv => createdByApproval_of_inv hinv ha)
    (fun _ r hr hcarries => absurd hcarries (by rw [hs r (Table.mem_of_find? hr)]; decide)) has

/-- A desk with one session and no jobs. -/
def freshDesk : ApprovalDesk := ⟨Fleet.empty, [("session", [])]⟩

/-- A card is posted. -/
def postCard : List DeskAction :=
  [.fleet (.enqueue { jobId := "card", sessionId := "session", jobType := "approval_post",
                      payload := [("session_id", .str "session"),
                                  ("approval_kind", .str "obsidian_write"),
                                  ("title", .str "decision record")], now := 0 }),
   .fleet (.pick .approval { workerId := "A", jobTypes := ["approval_post"], now := 1 }),
   .fleet (.start 0 1),
   .fleet (.finish 0 (.approvalSaved 7 []) 2)]

/-- Somebody answers. -/
def answer (text jobId : String) (now : Time) : DeskAction :=
  .reply { text, sessionId := "session", approvedBy := "operator", utcNow := "10:00", jobId, now }

theorem created_only_by_approval_card :
    Machine.EachStep step (CreatedByApproval "card") freshDesk
      (postCard ++ [answer "승인" "write-1" 3, answer "승인" "write-2" 4]) :=
  created_only_by_approval "card" freshDesk (by intro r hr; cases hr) _
    (by simp [postCard, answer, Allowed, carries, jobTypeObsidianWrite, EnqueueArgs.job])

/-- The card is approved and the note is saved; then the card is rejected. -/
def approvedThenRejected : List DeskAction :=
  postCard ++
    [answer "승인" "write-1" 3,
     .fleet (.pick .obsidianWriter { workerId := "B", jobTypes := ["obsidian_write"], now := 4 }),
     .fleet (.start 1 4),
     .fleet (.finish 1 (.obsidianSaved []) 5),
     answer "반려" "write-2" 6]

/-- One more approval creates a second write, after the rejection was recorded. -/
theorem second_write_after_reject :
    let before := Machine.run step freshDesk approvedThenRejected
    let after := before.step (answer "승인" "write-3" 7)
    ((before.extras.get? "session").map fun extra =>
        (extra.getJson "approval_rejections").truthy) = some true
      ∧ (before.queue.jobs.rows.filter (carries "card")).length = 1
      ∧ (after.queue.jobs.rows.filter (carries "card")).length = 2 := by
  decide +kernel

end ApprovalDesk

end ForgeKit
