import ForgeKit.Lib.Machine
import ForgeKit.PrMerge.ContinuationWorker

/-!
# One card for each merge cycle

A session opens pull request after pull request. Each time its stage becomes `pr_merge_pending`,
a tick should have one approval card enqueued. What keeps the second tick from a second card is
the `approval_card_enqueued` event in the audit list, and no step takes an event off that list:

* `card_first` — the first tick on an uncarded session enqueues the card of its pull request
* `getsOneCard_iff` — so a pull request gets its one card exactly when the audit is still clean
-/

namespace ForgeKit

namespace PrMerge

/-- A session with the cards that were enqueued for it. -/
structure MergeSession where
  sessionId : String
  extra : Dict Json
  cards : List PRMergeProposal := []

/-- A pull request is opened, a tick with an enqueuer, a stage change, the next slice. -/
inductive CycleAction where
  | stamp (a : StampArgs)
  | tick (enqueuer : PRMergeProposal → Option String) (env : TickEnv)
  | advance (stage : Stage) (reason : String) (fields : Dict Json) (now : String)
  | nextSlice (now : String)

def CycleAction.isTick : CycleAction → Bool
  | .tick _ _ => true
  | _ => false

namespace MergeSession

/-- What a tick does to the session. -/
def afterTick (s : MergeSession) (r : TickResult) : MergeSession :=
  { s with extra := r.persisted.getD s.extra, cards := s.cards ++ r.card.toList }

/-- The session after a call that returned a new `extra`, or raised. -/
def persist (s : MergeSession) (extra : Option (Dict Json)) : MergeSession :=
  { s with extra := extra.getD s.extra }

/-- One action. -/
def step (s : MergeSession) : CycleAction → MergeSession
  | .stamp a => s.persist (stampPrMergeContinuation s.sessionId s.extra a)
  | .tick enqueuer env =>
    match advancePendingSession s.sessionId s.extra { env with approvalEnqueuer := some enqueuer }
    with
    | none => s
    | some r => s.afterTick r
  | .advance stage reason fields now => s.persist (advanceStage s.extra stage reason fields now)
  | .nextSlice now =>
    s.persist ((decideNextSlice s.extra now).bind fun d =>
      if d.extraUpdates.isEmpty then none else some d.extraUpdates)

/-- The audit holds the event of a card. -/
def Carded (s : MergeSession) : Prop :=
  (auditOf s.extra).map (fun audit => hasEvent audit cardEvent) = some true

/-- The stamp goes through: the stage becomes `pr_merge_pending`. -/
def Opens (s : MergeSession) (a : StampArgs) : Prop :=
  (stampPrMergeContinuation s.sessionId s.extra a).isSome = true

/-- The action leaves the stage of a pending session alone. -/
def KeepsStage (s : MergeSession) : CycleAction → Prop
  | .stamp a => ¬s.Opens a
  | .advance _ _ _ _ => False
  | .tick _ _ | .nextSlice _ => True

/-- Between the two states one card was enqueued, and it is about this pull request. -/
def GetsOneCard (a : StampArgs) (s s' : MergeSession) : Prop :=
  ∃ card, s'.cards = s.cards ++ [card] ∧ a.repoFullName = some card.repo
    ∧ a.prNumber = some card.prNumber ∧ a.prUrl = some card.prUrl

/-- The session is in `approval_required` mode and pending on the pull request of `a`. -/
structure Open (a : StampArgs) (s : MergeSession) : Prop where
  pending : PendingOn a s.extra
  mode : resolveWorkMode s.extra = .approvalRequired
  audit : ∃ audit, auditOf s.extra = some audit

/-! ## While a pull request is pending -/

@[simp] theorem persist_none (s : MergeSession) : s.persist none = s := rfl

/-- With a card there is nothing to do for a tick. -/
theorem step_tick_carded {s : MergeSession} (hmode : resolveWorkMode s.extra = .approvalRequired)
    (hcard : s.Carded) (enqueuer : PRMergeProposal → Option String) (env : TickEnv) :
    s.step (.tick enqueuer env) = s := by
  obtain ⟨audit, haudit, hevent⟩ := Option.map_eq_some_iff.mp hcard
  by_cases hpending : isPendingContinuation s.extra = true
  · simp [step, advancePendingSession, hpending, hmode,
      approvalTick_carded hpending hmode haudit hevent, afterTick]
  · simp [step, advancePendingSession, hpending, afterTick]

/-- **The first tick on a pending session enqueues the card of its pull request.** -/
theorem card_first {a : StampArgs} {s : MergeSession} (h : s.Open a) (hcard : ¬s.Carded)
    (enqueuer : PRMergeProposal → Option String) (env : TickEnv) :
    GetsOneCard a s (s.step (.tick enqueuer env)) ∧ (s.step (.tick enqueuer env)).Open a
      ∧ (s.step (.tick enqueuer env)).Carded := by
  obtain ⟨audit, haudit⟩ := h.audit
  have hevent : hasEvent audit cardEvent = false := by simpa [Carded, haudit] using hcard
  obtain ⟨card, entry, htick, hentry, hpr⟩ := approvalTick_uncarded s.sessionId
    { env with approvalEnqueuer := some enqueuer } h.pending h.mode haudit hevent rfl
  have hstep : s.step (.tick enqueuer env)
      = { s with
          extra := s.extra.set auditKey (.arr (audit ++ [.obj entry]))
          cards := s.cards ++ [card] } := by
    simp [step, advancePendingSession, h.pending.isPending, h.mode, htick, afterTick]
  have hother : ∀ key, key ≠ auditKey →
      (s.extra.set auditKey (.arr (audit ++ [.obj entry]))).getJson key = s.extra.getJson key :=
    fun key hkey => Dict.getJson_set_ne _ _ hkey
  obtain ⟨number, url, repo, hne, hargs, hn, hu, hr⟩ := h.pending.metadata
  rw [hstep]
  refine ⟨⟨card, rfl, hpr⟩, ⟨⟨?_, number, url, repo, hne, hargs, ?_, ?_, ?_⟩, ?_, ?_⟩, ?_⟩
  · rw [hother _ (by decide), h.pending.stage]
  · rw [hother _ (by decide), hn]
  · rw [hother _ (by decide), hu]
  · rw [hother _ (by decide), hr]
  · rw [← h.mode, resolveWorkMode, resolveWorkMode, hother _ (by decide)]
  · exact ⟨_, by simp [auditOf]; rfl⟩
  · simp [Carded, auditOf, hentry]

/-- Whatever else leaves the stage alone leaves a pending session alone. -/
theorem step_eq_self {a : StampArgs} {s : MergeSession} (h : s.Open a) {b : CycleAction}
    (hb : s.KeepsStage b) (htick : b.isTick = false) : s.step b = s := by
  cases b with
  | tick enqueuer env => cases htick
  | advance stage reason fields now => exact hb.elim
  | stamp a' =>
    have hnone : stampPrMergeContinuation s.sessionId s.extra a' = none := by
      simpa [KeepsStage, Opens] using hb
    simp [step, hnone]
  | nextSlice now =>
    have hskip : decideNextSlice s.extra now = some { action := .skippedNotMerged } := by
      have hstage : (s.extra.getJson stageKey).eqStr Stage.prMerged.value = false := by
        rw [h.pending.stage]; decide
      simp [decideNextSlice, hstage]
    simp [step, hskip]

/-- A carded session stays as it is until its stage changes. -/
theorem run_carded {a : StampArgs} {s : MergeSession} (h : s.Open a) (hcard : s.Carded)
    {seg : List CycleAction} (hseg : Machine.EachStep step KeepsStage s seg) :
    Machine.run step s seg = s := by
  induction seg with
  | nil => rfl
  | cons b seg ih =>
    have hstep : s.step b = s := by
      cases b with
      | tick enqueuer env => exact step_tick_carded h.mode hcard enqueuer env
      | _ => exact step_eq_self h hseg.1 rfl
    rw [Machine.run_cons, hstep]
    exact ih (hstep ▸ hseg.2)

/-- A session without a card gets one from the first tick, and no second one. -/
theorem run_uncarded {a : StampArgs} {s : MergeSession} (h : s.Open a) (hcard : ¬s.Carded)
    {seg : List CycleAction} (hseg : Machine.EachStep step KeepsStage s seg)
    (htick : ∃ b ∈ seg, b.isTick = true) : GetsOneCard a s (Machine.run step s seg) := by
  induction seg with
  | nil => simp at htick
  | cons b seg ih =>
    rw [Machine.run_cons]
    cases b with
    | tick enqueuer env =>
      obtain ⟨hone, hopen, hcarded⟩ := card_first h hcard enqueuer env
      -- from here on the session is carded, so the rest of the run does nothing
      rw [run_carded hopen hcarded hseg.2]
      exact hone
    | _ =>
      have hstep := step_eq_self h hseg.1 rfl
      rw [hstep]
      refine ih (hstep ▸ hseg.2) ?_
      simpa [CycleAction.isTick] using htick

/-! ## Over all cycles -/

/-- A step leaves `extra` as it is, or lets the audit grow. -/
theorem step_grows {s : MergeSession} (hmode : resolveWorkMode s.extra = .approvalRequired)
    (b : CycleAction) :
    (s.step b).extra = s.extra ∨ AuditGrows s.extra (s.step b).extra := by
  have hpersist : ∀ extra : Option (Dict Json),
      (∀ extra', extra = some extra' → AuditGrows s.extra extra') →
      (s.persist extra).extra = s.extra ∨ AuditGrows s.extra (s.persist extra).extra := by
    intro extra h
    cases extra with
    | none => exact .inl rfl
    | some extra' => exact .inr (h extra' rfl)
  cases b with
  | stamp a => exact hpersist _ fun extra' h => stampPrMergeContinuation_grows h
  | advance stage reason fields now => exact hpersist _ fun extra' h => advanceStage_grows h
  | nextSlice now =>
    refine hpersist _ fun extra' h => ?_
    obtain ⟨d, hd, h⟩ := Option.bind_eq_some_iff.mp h
    split at h
    · cases h
    · rename_i hne
      cases h
      exact decideNextSlice_grows hd (by simpa using hne)
  | tick enqueuer env =>
    simp only [step, advancePendingSession, hmode]
    split
    · exact .inl rfl
    · rename_i r htick
      split at htick
      · cases htick
        exact .inl rfl
      · cases hr : r.persisted with
        | none => exact .inl (by simp [afterTick, hr])
        | some extra' => exact .inr (by simpa [afterTick, hr] using approvalTick_grows htick hr)

theorem mode_step {s : MergeSession} (hmode : resolveWorkMode s.extra = .approvalRequired)
    (b : CycleAction) : resolveWorkMode (s.step b).extra = .approvalRequired := by
  rcases step_grows hmode b with h | h
  · rw [h, hmode]
  · rw [h.workMode, hmode]

theorem mode_run {s : MergeSession} (hmode : resolveWorkMode s.extra = .approvalRequired)
    (as : List CycleAction) :
    resolveWorkMode (Machine.run step s as).extra = .approvalRequired :=
  Machine.run_of_step (A := fun _ => True)
    (I := fun s : MergeSession => resolveWorkMode s.extra = .approvalRequired)
    (fun _ b _ h => mode_step h b) hmode fun _ _ => trivial

/-- A stamp that goes through opens its pull request and leaves the cards and their event. -/
theorem open_stamp {s : MergeSession} (hmode : resolveWorkMode s.extra = .approvalRequired)
    {a : StampArgs} (h : s.Opens a) :
    (s.step (.stamp a)).Open a ∧ ((s.step (.stamp a)).Carded ↔ s.Carded) := by
  obtain ⟨extra', hstamp⟩ := Option.isSome_iff_exists.mp h
  obtain ⟨hpending, -, audit, hbefore, hafter⟩ := stampPrMergeContinuation_spec hstamp
  have hextra : (s.step (.stamp a)).extra = extra' := by simp [step, persist, hstamp]
  refine ⟨⟨hextra ▸ hpending, mode_step hmode _, _, hextra ▸ hafter⟩, ?_⟩
  have hevent : (stampEntry (decidePostPrAction s.sessionId s.extra a) a).getJson "event" = .null :=
    rfl
  simp [Carded, hextra, hafter, hbefore, hevent, Json.eqStr]

/--
**When a pull request gets its one card.**

Take a session in `approval_required` mode, any run of stamps, ticks, stage changes and next
slices, a stamp that goes through, and what follows until the stage changes, with at least one
tick. The pull request gets exactly one card in that time exactly if no card event was in the
audit when it was stamped.
-/
theorem getsOneCard_iff (s : MergeSession) (hmode : resolveWorkMode s.extra = .approvalRequired)
    (before : List CycleAction) (a : StampArgs) (hopens : (Machine.run step s before).Opens a)
    (pending : List CycleAction)
    (hpending : Machine.EachStep step KeepsStage
      (Machine.run step s (before ++ [.stamp a])) pending)
    (htick : ∃ b ∈ pending, b.isTick = true) :
    GetsOneCard a (Machine.run step s (before ++ [.stamp a]))
        (Machine.run step s (before ++ [.stamp a] ++ pending))
      ↔ ¬(Machine.run step s before).Carded := by
  obtain ⟨hopen, hcarded⟩ := open_stamp (mode_run hmode before) hopens
  rw [Machine.run_concat] at hpending
  rw [Machine.run_append s (before ++ [CycleAction.stamp a]) pending, Machine.run_concat,
    ← hcarded]
  constructor
  · -- the event of an earlier pull request makes every tick skip this one
    rintro ⟨card, hcards, -⟩ hcard
    rw [run_carded hopen hcard hpending] at hcards
    simp at hcards
  · intro hcard
    exact run_uncarded hopen hcard hpending htick

/-- A session with one more slice to do. -/
def sliceSession : MergeSession :=
  { sessionId := "session"
    extra := [(codingBacklogKey, .arr [.obj [("summary", .str "second slice")]])] }

/-- The draft of pull request `number`. -/
def draftOpened (number : Int) : StampArgs :=
  { jobId := "job", repoFullName := some "owner/name", prNumber := some number
    prUrl := some "url", headSha := some "abc", now := "now" }

def cardTick : CycleAction := .tick (fun _ => some "card") { now := "now" }

/-- The first cycle: the card, the merge, and the next slice. -/
def firstCycle : List CycleAction :=
  [.stamp (draftOpened 7), cardTick, .advance .prMerged "approval_reply_merged" [] "now",
   .nextSlice "now"]

theorem getsOneCard_iff_firstPullRequest :
    GetsOneCard (draftOpened 7) (Machine.run step sliceSession ([] ++ [.stamp (draftOpened 7)]))
        (Machine.run step sliceSession ([] ++ [.stamp (draftOpened 7)] ++ [cardTick, cardTick]))
      ↔ ¬(Machine.run step sliceSession []).Carded :=
  getsOneCard_iff sliceSession (by decide +kernel) [] (draftOpened 7)
    (by unfold Opens; decide +kernel) [cardTick, cardTick] ⟨trivial, trivial, trivial⟩
    ⟨cardTick, by simp, rfl⟩

/-- The second pull request of a session is pending while ticks run, and gets no card. -/
theorem not_getsOneCard_secondPullRequest :
    (Machine.run step sliceSession firstCycle).Opens (draftOpened 8)
      ∧ ¬GetsOneCard (draftOpened 8)
        (Machine.run step sliceSession (firstCycle ++ [.stamp (draftOpened 8)]))
        (Machine.run step sliceSession
          (firstCycle ++ [.stamp (draftOpened 8)] ++ [cardTick, cardTick])) := by
  refine ⟨by unfold Opens; decide +kernel, ?_⟩
  rintro ⟨card, hcards, -⟩
  have hlength := congrArg List.length hcards
  have hbefore : (Machine.run step sliceSession
      (firstCycle ++ [.stamp (draftOpened 8)])).cards.length = 1 := by decide +kernel
  have hafter : (Machine.run step sliceSession
      (firstCycle ++ [.stamp (draftOpened 8)] ++ [cardTick, cardTick])).cards.length = 1 := by
    decide +kernel
  rw [List.length_append, hbefore, hafter] at hlength
  simp at hlength

end MergeSession

end PrMerge

end ForgeKit
