import ForgeKit.Approval.ApprovalProducer
import ForgeKit.JobQueue.CodingExecutor

/-!
# The same request enqueued twice

The five workers with an `enqueue` of their own, as producers, and one call of any of them.

`reenqueue_iff` — the second call returns the row of the first one exactly when the key that the
worker looks up is complete and, for a role take that inserted its row, the payload does not name
another kind.
-/

namespace ForgeKit

open JobQueue

/-! ## The two workers with a lookup of their own -/

namespace ObsidianWriterWorker

/-- The call as a producer; the guard of `find_active` also wants a kind. -/
def producer (request : ObsidianWriteRequest) (priority maxAttempts : Int) : Producer where
  sessionId := request.sessionId
  states := activeStates
  keyed := request.noteKind != ""
  answers r := .ok (isActiveFor request.noteKind request.sourceThreadId request.title r)
  insert jobId now := insert request jobId now priority maxAttempts
  insert_jobId _ _ := rfl
  insert_session _ _ := rfl
  insert_listed _ _ := .inr rfl

theorem producer_findActive (q : JobQueue) (request : ObsidianWriteRequest)
    (priority maxAttempts : Int) :
    (producer request priority maxAttempts).findActive q
      = .ok (findActive q request.sessionId request.noteKind request.sourceThreadId
          request.title) := by
  by_cases hguard : request.sessionId = "" ∨ request.noteKind = ""
  · rw [findActive, if_pos (by simpa using hguard)]
    exact Producer.findActive_of_unkeyed q (by simpa [producer] using hguard)
  · obtain ⟨hsession, hkind⟩ := not_or.mp hguard
    rw [findActive, if_neg (by simp [hsession, hkind])]
    exact Producer.findActive_of_total q rfl hsession (by simp [producer, hkind])

/-- `enqueue` is the `enqueue` of that producer. -/
theorem enqueue_eq (q : JobQueue) (request : ObsidianWriteRequest) (jobId : String) (now : Time)
    (priority maxAttempts : Int) :
    enqueue q request jobId now priority maxAttempts
      = (producer request priority maxAttempts).enqueue q jobId now := by
  rw [enqueue, Producer.enqueue, producer_findActive]
  cases findActive q request.sessionId request.noteKind request.sourceThreadId request.title with
  | some existing => rfl
  | none =>
    have hins : (producer request priority maxAttempts).insert jobId now
        = insert request jobId now priority maxAttempts := rfl
    rw [hins]
    rcases q.enqueue (insert request jobId now priority maxAttempts) with e | ⟨job, q'⟩ <;> rfl

end ObsidianWriterWorker

namespace CodingExecutorWorker

/-- The call as a producer, once the role is known; the lookup lists every state and tests it row
by row. -/
def producer (a : EnqueueArgs) : Producer where
  sessionId := a.request.sessionId
  states := []
  keyed := a.request.executorRole != ""
  answers r := .ok (isActiveFor a.request.executorRole a.request.branchHint r)
  insert := a.insert
  insert_jobId _ _ := rfl
  insert_session _ _ := rfl
  insert_listed _ _ := .inl rfl

/-- `enqueue` is the `enqueue` of that producer behind its own check. -/
theorem enqueue_eq {q : JobQueue} {a : EnqueueArgs} (jobId : String) (now : Time)
    (hsession : a.request.sessionId ≠ "") (hrole : a.request.executorRole ≠ "") :
    enqueue q a jobId now = (producer a).enqueue q jobId now := by
  have hread : enqueueRead q a
      = .ok (findActive q a.request.sessionId a.request.executorRole a.request.branchHint) := by
    rw [enqueueRead, if_neg (by simp [hsession, hrole])]
  have hsearch : (producer a).findActive q
      = .ok (findActive q a.request.sessionId a.request.executorRole a.request.branchHint) := by
    rw [findActive, if_neg (by simp [hsession, hrole])]
    exact Producer.findActive_of_total q rfl hsession (by simp [producer, hrole])
  rw [enqueue, Producer.enqueue, hread, hsearch]
  simp only [bind, Except.bind]
  cases findActive q a.request.sessionId a.request.executorRole a.request.branchHint with
  | some existing => rfl
  | none =>
    have hins : (producer a).insert jobId now = a.insert jobId now := rfl
    rw [hins]
    rcases q.enqueue (a.insert jobId now) with e | ⟨job, q'⟩ <;> rfl

end CodingExecutorWorker

/-! ## One call of any worker -/

/-- One `enqueue` call, with every argument but the clock. -/
inductive EnqueueCall where
  | roleTake (a : RoleTakeWorker.EnqueueArgs)
  | research (a : ResearchWorker.EnqueueArgs)
  | approval (a : ApprovalWorker.EnqueueArgs)
  | obsidianWrite (request : ObsidianWriteRequest) (priority maxAttempts : Int)
  | codingExecute (a : CodingExecutorWorker.EnqueueArgs)

namespace EnqueueCall

/-- The call, with the id that a new row gets. -/
def enqueue (q : JobQueue) (jobId : String) (now : Time) :
    EnqueueCall → Except QueueError ((Job × Bool) × JobQueue)
  | .roleTake a => RoleTakeWorker.enqueue q a jobId now
  | .research a => ResearchWorker.enqueue q a jobId now
  | .approval a => ApprovalWorker.enqueue q a jobId now
  | .obsidianWrite request priority maxAttempts =>
    ObsidianWriterWorker.enqueue q request jobId now priority maxAttempts
  | .codingExecute a => CodingExecutorWorker.enqueue q a jobId now

/-- The call as a producer. -/
def producer : EnqueueCall → Producer
  | .roleTake a => RoleTakeWorker.producer a
  | .research a => ResearchWorker.producer a
  | .approval a => ApprovalWorker.producer a
  | .obsidianWrite request priority maxAttempts =>
    ObsidianWriterWorker.producer request priority maxAttempts
  | .codingExecute a => CodingExecutorWorker.producer a

/-- The checks that come before the lookup went through. -/
def Checked : EnqueueCall → Prop
  | .codingExecute a => a.request.sessionId ≠ "" ∧ a.request.executorRole ≠ ""
  | _ => True

/-- The session, the role and the kinds that the worker's lookup needs are given, and a role take
is answered by a row in flight or names no other kind in its payload. -/
def Keyed (q : JobQueue) : EnqueueCall → Prop
  | .roleTake a =>
    a.role ≠ "" ∧ a.kind ≠ ""
      ∧ ((∃ r ∈ q.listForSession a.sessionId RoleTakeWorker.activeStates,
          RoleTakeWorker.isActiveFor a.role a.kind r = true)
        ∨ ∀ kind, a.payload.get? "kind" = some kind → kind = .str a.kind)
  | .research _ => True
  | .approval a => a.request.approvalKind ≠ ""
  | .obsidianWrite request _ _ => request.noteKind ≠ ""
  | .codingExecute _ => True

theorem checked_of_enqueue {q q' : JobQueue} {call : EnqueueCall} {jobId : String} {now : Time}
    {result : Job × Bool} (h : call.enqueue q jobId now = .ok (result, q')) : call.Checked := by
  cases call with
  | codingExecute a =>
    by_contra hnot
    have herr : CodingExecutorWorker.enqueueRead q a
        = .error (.valueError "session_id + executor_role required") := by
      rw [Checked, not_and_or, not_not, not_not] at hnot
      rw [CodingExecutorWorker.enqueueRead, if_pos (by simpa using hnot)]
    rw [enqueue, CodingExecutorWorker.enqueue, herr] at h
    cases h
  | _ => trivial

/-- A checked call is the call of its producer. -/
theorem enqueue_eq {call : EnqueueCall} (hchecked : call.Checked) (q : JobQueue) (jobId : String)
    (now : Time) : call.enqueue q jobId now = call.producer.enqueue q jobId now := by
  cases call with
  | roleTake a => rfl
  | research a => rfl
  | approval a => rfl
  | obsidianWrite request priority maxAttempts =>
    exact ObsidianWriterWorker.enqueue_eq q request jobId now priority maxAttempts
  | codingExecute a => exact CodingExecutorWorker.enqueue_eq jobId now hchecked.1 hchecked.2

/-! ## What settles a request -/

theorem settles_of_answers {p : Producer} {q : JobQueue} {jobId : String} {now : Time}
    (hans : p.answers (p.insert jobId now).job = .ok true) :
    p.Settles q jobId now ↔ p.keyed = true :=
  ⟨fun h => h.1, fun hkeyed => ⟨hkeyed, .inr hans⟩⟩

theorem settles_roleTake {q : JobQueue} {a : RoleTakeWorker.EnqueueArgs} {jobId : String}
    {now : Time} (hsession : a.sessionId ≠ "") :
    (RoleTakeWorker.producer a).Settles q jobId now ↔ Keyed q (.roleTake a) := by
  have hkey : (RoleTakeWorker.producer a).keyed = true ↔ a.role ≠ "" ∧ a.kind ≠ "" := by
    simp [RoleTakeWorker.producer]
  rw [Producer.Settles, Keyed, hkey, and_assoc]
  refine and_congr_right fun hrole => and_congr_right fun hkind => or_congr ?_ ?_
  · rw [Producer.findActive_of_total q rfl hsession (hkey.mpr ⟨hrole, hkind⟩)]
    simp only [Except.ok.injEq]
    exact Option.isSome_iff_exists.symm.trans List.find?_isSome
  · rw [← RoleTakeWorker.isActiveFor_insert a jobId now]
    exact ⟨fun h => Except.ok.inj h, congrArg Except.ok⟩

/-- A call settles the request of its producer exactly when it is keyed. -/
theorem settles_iff {q : JobQueue} {call : EnqueueCall} (jobId : String) (now : Time)
    (hchecked : call.Checked) (hsession : call.producer.sessionId ≠ "") :
    call.producer.Settles q jobId now ↔ call.Keyed q := by
  cases call with
  | roleTake a => exact settles_roleTake hsession
  | research a => exact (settles_of_answers rfl).trans (iff_of_true rfl trivial)
  | approval a =>
    refine (settles_of_answers (ApprovalWorker.isActiveFor_self a jobId now)).trans ?_
    simp [producer, ApprovalWorker.producer, Keyed]
  | obsidianWrite request priority maxAttempts =>
    have hnew : ObsidianWriterWorker.isActiveFor request.noteKind request.sourceThreadId
        request.title (ObsidianWriterWorker.insert request jobId now priority maxAttempts).job
          = true := ObsidianWriterWorker.isActiveFor_of_payload rfl rfl
    refine (settles_of_answers (congrArg Except.ok hnew)).trans ?_
    simp [producer, ObsidianWriterWorker.producer, Keyed]
  | codingExecute a =>
    have hrole : (a.insert jobId now).job.payload.strOr "executor_role" ""
        = a.request.executorRole := Dict.strOr_str_self rfl
    have hbranch : (a.insert jobId now).job.payload.strOr "branch_hint" "" = a.request.branchHint :=
      Dict.strOr_str_self rfl
    have hnew : CodingExecutorWorker.isActiveFor a.request.executorRole a.request.branchHint
        (a.insert jobId now).job = true := by
      rw [CodingExecutorWorker.isActiveFor, hrole, hbranch]
      simp [CodingExecutorWorker.EnqueueArgs.insert, JobQueue.EnqueueArgs.job,
        CodingExecutorWorker.activeStates]
    refine (settles_of_answers (congrArg Except.ok hnew)).trans ?_
    simpa [producer, CodingExecutorWorker.producer, Keyed] using hchecked.2

/-- An accepted call has a session. -/
theorem session_of_enqueue {q q' : JobQueue} {p : Producer} {jobId : String} {now : Time}
    {job : Job} {created : Bool} (h : p.enqueue q jobId now = .ok ((job, created), q')) :
    p.sessionId ≠ "" := by
  rcases Producer.enqueue_ok h with ⟨hfound, -, -⟩ | ⟨-, hins, -⟩
  · exact (Producer.keyed_of_findActive hfound).1
  · have hsession := (JobQueue.enqueue_ok hins).2.2.1
    rwa [p.insert_session] at hsession

/-- **The same call again returns the row of the first one and inserts nothing exactly when the
call is keyed.** -/
theorem reenqueue_iff (q q' : JobQueue) (call : EnqueueCall) (jobId jobId' : String)
    (now now' : Time) (job : Job) (created : Bool)
    (h : call.enqueue q jobId now = .ok ((job, created), q')) :
    call.enqueue q' jobId' now' = .ok ((job, false), q') ↔ call.Keyed q := by
  have hchecked := checked_of_enqueue h
  rw [enqueue_eq hchecked] at h ⊢
  exact (Producer.enqueue_again_iff h jobId' now').trans
    (settles_iff jobId now hchecked (session_of_enqueue h))

/-! ## One role take -/

/-- A turn of the role on an open call. -/
def sampleTake (payload : Dict Json) : EnqueueCall :=
  .roleTake { sessionId := "session", role := "backend-engineer", kind := "open_call", payload }

/-- A payload without a kind of its own is found again. -/
theorem plain_take_is_found :
    ∃ job q', (sampleTake []).enqueue JobQueue.empty "a" 0 = .ok ((job, true), q')
      ∧ (sampleTake []).enqueue q' "b" 1 = .ok ((job, false), q') := by
  obtain ⟨job, q', h⟩ :
      ∃ job q', (sampleTake []).enqueue JobQueue.empty "a" 0 = .ok ((job, true), q') :=
    ⟨_, _, rfl⟩
  exact ⟨job, q', h, (reenqueue_iff JobQueue.empty q' (sampleTake []) "a" "b" 0 1 job true h).mpr
    ⟨by decide, by decide, .inr (by simp [Dict.get?])⟩⟩

/-- A payload that names another kind gets a row each time. -/
theorem renamed_take_is_repeated :
    ¬ ∀ (q q' : JobQueue) (call : EnqueueCall) (jobId jobId' : String) (now now' : Time) (job : Job)
      (created : Bool), call.enqueue q jobId now = .ok ((job, created), q') →
        call.enqueue q' jobId' now' = .ok ((job, false), q') := by
  intro h
  obtain ⟨job, created, q', henq⟩ :
      ∃ job created q', (sampleTake [("kind", .str "turn")]).enqueue JobQueue.empty "a" 0
        = .ok ((job, created), q') := ⟨_, _, _, rfl⟩
  have hagain := h JobQueue.empty q' (sampleTake [("kind", .str "turn")]) "a" "b" 0 1 job created
    henq
  rw [enqueue_eq (checked_of_enqueue henq)] at hagain
  rw [enqueue_eq (checked_of_enqueue henq)] at henq
  have hsettles := (Producer.enqueue_again_iff henq "b" 1).mp hagain
  have hkeyed := (settles_roleTake (by decide)).mp hsettles
  simp [Keyed, JobQueue.listForSession, JobQueue.empty, Table.empty, Dict.get?] at hkeyed

end EnqueueCall

end ForgeKit
