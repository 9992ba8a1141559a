import ForgeKit.Lib.Machine
import ForgeKit.Lib.Raising
import ForgeKit.Workflow.Orchestrator

/-!
# Sessions in use

Any number of callers work on the store at once. A call is two steps, its load and its save, and
other callers may come between the two: `update_session` compares nothing with what is stored.

* `State.step` — the steps
* `State.steps_step` — what a step can do
* `gateKept` — nothing but an approval opens the gate, whatever comes between
-/

namespace ForgeKit.Workflow

open Py (Text lit)
open IsoTime (DateTime)
open JsonText
open Storage
open Machine (run EachStep Always)

/-! ## Callers -/

/-- A call between its load and its save. -/
structure Pending where
  loaded : WorkflowSession
  changed : WorkflowSession

/-- The store, and what every caller is about to save. -/
structure State where
  cache : Cache
  pending : ℕ → Option Pending

/-- A step of a caller. -/
inductive Action where
  | intake (request : IntakeRequest) (clock : Clock)
  | load (caller : ℕ) (sessionId : Text) (change : Change) (time : ℚ)
  | save (caller : ℕ) (clock : Clock)
  /-- A save of something else, which may drop old rows. -/
  | elsewhere (call : SaveCall) (other : call.ns ≠ workflowNamespace)

namespace State

/-- The callers, one of them about to save something else or nothing. -/
def setPending (s : State) (caller : ℕ) (p : Option Pending) : State :=
  { s with pending := Function.update s.pending caller p }

/-- What a load prepares. -/
def loadStep (env : Env) (cache : Cache) (sessionId : Text) (change : Change) (time : ℚ) :
    Except Raised Pending := do
  let loaded ← requireSession env cache sessionId time
  let changed ← change.apply env sessionId loaded
  .ok ⟨loaded, changed⟩

/-- What comes of a call; one that raises leaves the state as it is. -/
def settle {α : Type} (s : State) (result : Except Raised α) (next : α → State) : State :=
  match result with
  | .ok a => next a
  | .error _ => s

@[simp] theorem settle_ok {α : Type} (s : State) (a : α) (next : α → State) :
    s.settle (.ok a) next = next a := rfl

@[simp] theorem settle_error {α : Type} (s : State) (e : Raised) (next : α → State) :
    s.settle (.error e) next = s := rfl

/-- A step. -/
def step (env : Env) (s : State) : Action → State
  | .intake request clock =>
    s.settle (intake env s.cache request clock) fun result => { s with cache := result.1 }
  | .load caller sessionId change time =>
    s.settle (loadStep env s.cache sessionId change time) fun p => s.setPending caller (some p)
  | .save caller clock =>
    match s.pending caller with
    | none => s
    | some p =>
      (s.setPending caller none).settle (updateSession s.cache p.changed clock) fun result =>
        { s with cache := result.1 }.setPending caller none
  | .elsewhere call _ => { s with cache := runSave s.cache call }

section

variable (env : Env) (s : State)

theorem step_intake (request : IntakeRequest) (clock : Clock) :
    step env s (.intake request clock) =
      s.settle (intake env s.cache request clock) fun result => { s with cache := result.1 } := rfl

theorem step_load (caller : ℕ) (sessionId : Text) (change : Change) (time : ℚ) :
    step env s (.load caller sessionId change time) =
      s.settle (loadStep env s.cache sessionId change time) fun p =>
        s.setPending caller (some p) := rfl

theorem step_save_none {caller : ℕ} (h : s.pending caller = none) (clock : Clock) :
    step env s (.save caller clock) = s := by
  rw [step, h]

theorem step_save_some {caller : ℕ} {p : Pending} (h : s.pending caller = some p) (clock : Clock) :
    step env s (.save caller clock) =
      (s.setPending caller none).settle (updateSession s.cache p.changed clock) fun result =>
        { s with cache := result.1 }.setPending caller none := by
  rw [step, h]

theorem step_elsewhere (call : SaveCall) (other : call.ns ≠ workflowNamespace) :
    step env s (.elsewhere call other) = { s with cache := runSave s.cache call } := rfl

theorem setPending_pending (caller : ℕ) (p : Option Pending) (caller' : ℕ) :
    (s.setPending caller p).pending caller' = if caller' = caller then p else s.pending caller' :=
  Function.update_apply s.pending caller p caller'

end

/-- The store before the first step. -/
def start : State := ⟨Table.empty, fun _ => none⟩

end State

/-! ## What a step does -/

/-- A save made this of the store, as far as sessions go. -/
structure Saved (t : WorkflowSession) (before after : Cache) : Prop where
  written : Written after
  found : ∀ py key, key.1 = t.sessionId → sessionAt py after key = some t.stored
  kept : ∀ py key s, key.1 ≠ t.sessionId → sessionAt py after key = some s →
    sessionAt py before key = some s

theorem sessionAt_of_kept {py : Readers} {before after : Cache} {key : SqlText} {s : WorkflowSession}
    (h : after.find? (workflowNs, key) = before.find? (workflowNs, key) ∨
      after.find? (workflowNs, key) = none) (hs : sessionAt py after key = some s) :
    sessionAt py before key = some s := by
  rcases h with hsame | hnone
  · rw [← hs]
    unfold sessionAt payloadAt loadJsonCache
    simp only [hsame]
  · rw [sessionAt_none py hnone] at hs
    cases hs

theorem saved_of_saveSession {cache cache' : Cache} {t : WorkflowSession} {clock : Clock}
    (h : saveSession cache t clock = .ok cache') (hwritten : Written cache) :
    Saved t cache cache' := by
  obtain ⟨key, hkey, hwritten', hfound, hkept⟩ := saveSession_ok h hwritten
  refine ⟨hwritten', fun py key' hkey' => ?_, fun py key' s hne hs => ?_⟩
  · have heq : key' = key := Subtype.ext (hkey'.trans hkey.symm)
    rw [heq]
    exact hfound py
  · refine sessionAt_of_kept (hkept key' ?_) hs
    rintro rfl
    exact hne hkey

theorem mapError_eq_ok {α ε ε' : Type} {f : ε → ε'} {x : Except ε α} {a : α}
    (h : x.mapError f = .ok a) : x = .ok a := by
  cases x with
  | ok b => exact congrArg Except.ok (Except.ok.inj h)
  | error e => cases h

theorem find?_elsewhere (cache : Cache) {call : SaveCall} (h : call.ns ≠ workflowNamespace)
    (key : SqlText) :
    (runSave cache call).find? (workflowNs, key) = cache.find? (workflowNs, key) ∨
      (runSave cache call).find? (workflowNs, key) = none := by
  unfold runSave
  cases hsave : saveJsonCache cache call with
  | error e => exact .inl rfl
  | ok cache' =>
    by_cases hpos : 0 < call.ttlSeconds
    · obtain ⟨row, hrow, -, hother⟩ := saveJsonCache_ok hsave hpos
      refine hother (workflowNs, key) fun heq => h ?_
      exact (call.writes_of_row hrow).ns.symm.trans (congrArg (fun k => k.1.1) heq).symm
    · rw [saveJsonCache, if_pos (not_lt.mp hpos)] at hsave
      cases hsave
      exact .inl rfl

namespace State

variable {env : Env} {s : State}

/-- What a load has found, and what it makes of it. -/
structure Loads (env : Env) (cache : Cache) (sessionId : Text) (change : Change) (p : Pending) :
    Prop where
  found : ∃ key, key.1 = sessionId ∧ sessionAt env.py cache key = some p.loaded
  applied : change.apply env sessionId p.loaded = .ok p.changed

theorem requireSession_ok {cache : Cache} (hwritten : Written cache) {sessionId : Text} {time : ℚ}
    {t : WorkflowSession} (h : requireSession env cache sessionId time = .ok t) :
    ∃ key, key.1 = sessionId ∧ sessionAt env.py cache key = some t := by
  obtain ⟨found, hload, h⟩ := Raising.bind_eq_ok_iff.mp h
  obtain ⟨key, hkey, hread⟩ := Raising.bind_eq_ok_iff.mp hload
  have hkey' : key.1 = sessionId := bindText_eq_ok (mapError_eq_ok hkey)
  have hsession := loadSession_eq env.py hwritten key time
  rw [hkey', hload] at hsession
  cases found with
  | none => cases h
  | some t' =>
    cases h
    exact ⟨key, hkey', (Except.ok.inj hsession).symm⟩

theorem loads_of_loadStep {cache : Cache} (hwritten : Written cache) {sessionId : Text}
    {change : Change} {time : ℚ} {p : Pending}
    (h : loadStep env cache sessionId change time = .ok p) : Loads env cache sessionId change p := by
  obtain ⟨loaded, hload, h⟩ := Raising.bind_eq_ok_iff.mp h
  obtain ⟨changed, happly, h⟩ := Raising.bind_eq_ok_iff.mp h
  cases h
  exact ⟨requireSession_ok hwritten hload, happly⟩

/-- **Where a session that is in the store after a step comes from.** -/
inductive Comes (env : Env) (s : State) (key : SqlText) : Action → WorkflowSession → Prop where
  | kept {a : Action} {t : WorkflowSession} : sessionAt env.py s.cache key = some t → Comes env s key a t
  | intake {request : IntakeRequest} {clock : Clock} : key.1 = request.sessionId →
    Comes env s key (.intake request clock) (request.session env clock.now).stored
  | saved {caller : ℕ} {clock : Clock} {p : Pending} : s.pending caller = some p →
    key.1 = p.changed.sessionId →
    Comes env s key (.save caller clock) ({ p.changed with updatedAt := clock.now } : WorkflowSession).stored

/-- What a step does. -/
structure Steps (env : Env) (s : State) (a : Action) (s' : State) : Prop where
  written : Written s'.cache
  session : ∀ key t, sessionAt env.py s'.cache key = some t → Comes env s key a t
  pending : ∀ caller p, s'.pending caller = some p → s.pending caller = some p ∨
    ∃ sessionId change time, a = .load caller sessionId change time ∧
      Loads env s.cache sessionId change p

theorem Steps.stays {a : Action} (hwritten : Written s.cache) : Steps env s a s :=
  ⟨hwritten, fun _ _ => .kept, fun _ _ => .inl⟩

theorem pending_setPending_none {s : State} {caller caller' : ℕ} {p : Pending}
    (h : (s.setPending caller none).pending caller' = some p) : s.pending caller' = some p := by
  rw [setPending_pending] at h
  split at h
  · cases h
  · exact h

theorem Steps.of_saved {cache : Cache} {t : WorkflowSession} {a : Action}
    (hsaved : Saved t s.cache cache) (hcomes : ∀ key, key.1 = t.sessionId → Comes env s key a t.stored)
    {s' : State} (hcache : s'.cache = cache)
    (hpending : ∀ caller p, s'.pending caller = some p → s.pending caller = some p) :
    Steps env s a s' := by
  refine ⟨hcache ▸ hsaved.written, fun key t' ht => ?_, fun caller p h => .inl (hpending caller p h)⟩
  rw [hcache] at ht
  by_cases hkey : key.1 = t.sessionId
  · rw [hsaved.found env.py key hkey] at ht
    exact Option.some.inj ht ▸ hcomes key hkey
  · exact .kept (hsaved.kept env.py key t' hkey ht)

theorem intake_ok {cache : Cache} {request : IntakeRequest} {clock : Clock}
    {result : Cache × WorkflowSession × Text} (h : intake env cache request clock = .ok result) :
    saveSession cache (request.session env clock.now) clock = .ok result.1 ∧
      result.2.1 = request.session env clock.now := by
  unfold intake at h
  split at h
  · cases h
  · obtain ⟨saved, hsave, h⟩ := Raising.bind_eq_ok_iff.mp h
    have h := Except.ok.inj h
    exact ⟨h ▸ hsave, h ▸ rfl⟩

theorem updateSession_ok {cache : Cache} {t : WorkflowSession} {clock : Clock}
    {result : Cache × WorkflowSession} (h : updateSession cache t clock = .ok result) :
    saveSession cache { t with updatedAt := clock.now } clock = .ok result.1 ∧
      result.2 = { t with updatedAt := clock.now } := by
  obtain ⟨saved, hsave, h⟩ := Raising.bind_eq_ok_iff.mp h
  have h := Except.ok.inj h
  exact ⟨h ▸ hsave, h ▸ rfl⟩

/-- **What every step does.** -/
theorem steps_step (env : Env) (hwritten : Written s.cache) (a : Action) :
    Steps env s a (step env s a) := by
  cases a with
  | intake request clock =>
    rw [step_intake]
    cases hintake : intake env s.cache request clock with
    | error e => exact .stays hwritten
    | ok result =>
      exact .of_saved (saved_of_saveSession (intake_ok hintake).1 hwritten)
        (fun _ hkey => .intake hkey) rfl fun _ _ h => h
  | load caller sessionId change time =>
    rw [step_load]
    cases hload : loadStep env s.cache sessionId change time with
    | error e => exact .stays hwritten
    | ok p =>
      rw [settle_ok]
      refine ⟨hwritten, fun _ _ ht => .kept ht, fun caller' p' hp => ?_⟩
      rw [setPending_pending] at hp
      split at hp
      · next hc =>
        cases hc
        cases hp
        exact .inr ⟨_, _, _, rfl, loads_of_loadStep hwritten hload⟩
      · exact .inl hp
  | save caller clock =>
    cases hp : s.pending caller with
    | none =>
      rw [step_save_none env s hp]
      exact .stays hwritten
    | some p =>
      rw [step_save_some env s hp]
      cases hupdate : updateSession s.cache p.changed clock with
      | error e => exact ⟨hwritten, fun _ _ ht => .kept ht, fun _ _ h => .inl (pending_setPending_none h)⟩
      | ok result =>
        exact .of_saved (saved_of_saveSession (updateSession_ok hupdate).1 hwritten)
          (fun _ hkey => .saved hp hkey) rfl fun _ _ h => pending_setPending_none h
  | elsewhere call other =>
    rw [step_elsewhere]
    -- a save in another namespace may clean an entry of this one up, and writes none
    have hfind := find?_elsewhere s.cache other
    refine ⟨fun key row hrow => ?_, fun key t ht => .kept (sessionAt_of_kept (hfind key) ht),
      fun _ _ => .inl⟩
    rcases hfind key with hsame | hnone
    · exact hwritten key row (hsame ▸ hrow)
    · cases hnone.symm.trans hrow

theorem written_start : Written start.cache := fun _ _ h => nomatch h

theorem sessionAt_start (py : Readers) (key : SqlText) : sessionAt py start.cache key = none :=
  sessionAt_none py rfl

end State

/-! ## The gate -/

/-- The session has not passed the gate, and says why a write is blocked. -/
structure Ungated (t : WorkflowSession) : Prop where
  state : t.state = .intake ∨ t.state = .rejected
  blocked : t.writeRequested = true → ∃ taskType : TaskType,
    t.writeBlockedReason = some (writeBlockReason taskType.executorRole)

theorem stripped?_writeBlockReason (taskType : TaskType) :
    stripped? (writeBlockReason taskType.executorRole)
      = some (writeBlockReason taskType.executorRole) := by
  cases taskType <;> decide

theorem Ungated.stored {t : WorkflowSession} (h : Ungated t) : Ungated t.stored := by
  refine ⟨h.state, fun hwrite => ?_⟩
  obtain ⟨taskType, hreason⟩ := h.blocked hwrite
  refine ⟨taskType, ?_⟩
  show t.writeBlockedReason.bind stripped? = _
  rw [hreason, Option.bind_some, stripped?_writeBlockReason]

theorem ungated_session (env : Env) (request : IntakeRequest) (now : DateTime) :
    Ungated (request.session env now) := by
  refine ⟨.inl rfl, fun hwrite => ⟨(request.plan env).taskType, ?_⟩⟩
  exact evaluateWriteGate_eq_some hwrite rfl _

theorem promote_eq (env : Env) (t : WorkflowSession) (now : DateTime) :
    ∃ extra, promoteCodingProposalToReadyJob env t now = { t with extra } := by
  unfold promoteCodingProposalToReadyJob
  split
  · exact ⟨t.extra, rfl⟩
  · split
    · exact ⟨t.extra, rfl⟩
    · split
      · exact ⟨t.extra, rfl⟩
      · split
        · exact ⟨t.extra, rfl⟩
        · exact ⟨_, rfl⟩

/-- **What each call does to a session.** -/
inductive Applies (env : Env) (sessionId : Text) (t : WorkflowSession) :
    Change → WorkflowSession → Prop where
  | approve (now : DateTime) (extra : JsonDict) : t.state = .intake →
    Applies env sessionId t (.approve now)
      { t with state := .approved, writeBlockedReason := none, extra }
  | reject (reason reason' : Text) : t.state ≠ .completed → t.state ≠ .rejected →
    Applies env sessionId t (.reject reason)
      { t with state := .rejected, rejectionReason := some reason' }
  | progress (note note' : Text) : t.state = .approved ∨ t.state = .inProgress →
    Applies env sessionId t (.progress note)
      { t with state := .inProgress, progressNotes := t.progressNotes ++ [note'] }
  | complete (summary : Text) (referencesUsed : List JsonDict) :
    t.state = .approved ∨ t.state = .inProgress →
    Applies env sessionId t (.complete summary referencesUsed)
      { t with state := .completed, summary := stripped? summary, referencesUsed }
  | recordReviewFeedback (feedback : ReviewFeedback) (threadId : Option Int) : t.state ≠ .rejected →
    Applies env sessionId t (.recordReviewFeedback feedback)
      { t with
        state := if t.state = .completed then .inProgress else t.state
        reviewCycle := t.reviewCycle + 1
        reviewFeedbacks :=
          t.reviewFeedbacks ++ [feedbackRecord feedback (routeReviewFeedback feedback)]
        threadId }
  | respondToReview (feedbackId : Text) (reply : ReviewReply) : t.state ≠ .rejected →
    Applies env sessionId t (.respondToReview feedbackId reply) (t.replied reply)
  | annotate (extra : JsonDict) (threadId : Option Int) :
    Applies env sessionId t (.annotate extra threadId) { t with extra, threadId }
  | done : Applies env sessionId t .done { t with state := .completed }

theorem applies_of_apply {env : Env} {sessionId : Text} {t t' : WorkflowSession} {change : Change}
    (h : change.apply env sessionId t = .ok t') : Applies env sessionId t change t' := by
  cases change with
  | approve now =>
    have h : Workflow.approve env sessionId t now = .ok t' := h
    unfold Workflow.approve refuse at h
    split at h
    · cases h
    · next hstate =>
      obtain ⟨extra, heq⟩ := promote_eq env
        { t with state := .approved, writeBlockedReason := none } now
      rw [heq] at h
      cases h
      exact .approve now extra (not_not.mp hstate)
  | reject reason =>
    have h : Workflow.reject sessionId t reason = .ok t' := h
    unfold Workflow.reject refuse at h
    split at h
    · cases h
    · next hstate =>
      cases h
      rw [not_or] at hstate
      exact .reject reason _ hstate.1 hstate.2
  | progress note =>
    have h : Workflow.progress sessionId t note = .ok t' := h
    unfold Workflow.progress refuse at h
    split at h
    · cases h
    · next hintake =>
      split at h
      · cases h
      · next hstate =>
        cases h
        refine .progress note _ ?_
        cases hs : t.state <;> simp_all
  | complete summary referencesUsed =>
    have h : Workflow.complete sessionId t summary referencesUsed = .ok t' := h
    unfold Workflow.complete refuse at h
    split at h
    · cases h
    · next hstate =>
      split at h
      · cases h
      · next hintake =>
        cases h
        refine .complete summary referencesUsed ?_
        cases hs : t.state <;> simp_all
  | recordReviewFeedback feedback =>
    have h : Workflow.recordReviewFeedback sessionId t feedback = .ok t' := h
    unfold Workflow.recordReviewFeedback refuse at h
    split at h
    · cases h
    · next hstate =>
      cases h
      exact .recordReviewFeedback feedback _ hstate
  | respondToReview feedbackId reply =>
    obtain ⟨message, hmessage, h⟩ := Raising.bind_eq_ok_iff.mp h
    cases h
    refine .respondToReview feedbackId reply fun hstate => ?_
    rw [replyMessage, if_pos hstate] at hmessage
    cases hmessage
  | annotate extra threadId =>
    cases h
    exact .annotate extra threadId
  | done =>
    cases h
    exact .done

theorem Applies.sessionId {env : Env} {sessionId : Text} {t t' : WorkflowSession} {change : Change}
    (h : Applies env sessionId t change t') : t'.sessionId = t.sessionId := by
  cases h <;> rfl

open State (Loads step start Steps Comes steps_step written_start sessionAt_start)

/-- What a caller is about to save under an id was loaded from under it. -/
theorem loads_under {env : Env} {s : State} (hwritten : Written s.cache) {key : SqlText}
    {sessionId : Text} {change : Change} {p : Pending} (h : Loads env s.cache sessionId change p)
    (hid : p.changed.sessionId = key.1) :
    sessionId = key.1 ∧ sessionAt env.py s.cache key = some p.loaded ∧
      Applies env sessionId p.loaded change p.changed := by
  obtain ⟨key', hkey', hfound⟩ := h.found
  have happlies := applies_of_apply h.applied
  have hloaded := (stored_of_sessionAt hwritten hfound).2
  have hsame : key' = key :=
    Subtype.ext (hloaded.symm.trans (happlies.sessionId.symm.trans hid))
  subst hsame
  exact ⟨hkey'.symm, hfound, happlies⟩

theorem Ungated.apply {env : Env} {sessionId : Text} {t t' : WorkflowSession} {change : Change}
    (h : Ungated t) (happlies : Applies env sessionId t change t')
    (hnot : ¬((∃ now, change = .approve now) ∧ t.state = .intake ∨ change = .done)) :
    Ungated t' := by
  obtain ⟨hstate, hblocked⟩ := h
  cases happlies with
  | approve now extra hintake => exact absurd (.inl ⟨⟨now, rfl⟩, hintake⟩) hnot
  | reject reason reason' => exact ⟨.inr rfl, hblocked⟩
  | progress note note' hpast => rcases hstate with h | h <;> rw [h] at hpast <;> simp at hpast
  | complete summary referencesUsed hpast =>
    rcases hstate with h | h <;> rw [h] at hpast <;> simp at hpast
  | recordReviewFeedback feedback threadId hrejected =>
    have hintake : t.state = .intake := hstate.resolve_right hrejected
    exact ⟨.inl (by rw [hintake]; rfl), hblocked⟩
  | respondToReview feedbackId reply => exact ⟨hstate, hblocked⟩
  | annotate extra threadId => exact ⟨hstate, hblocked⟩
  | done => exact absurd (.inr rfl) hnot

section

variable (env : Env) (key : SqlText)

/-- A caller that lets a session through: it found the session and approves an intake, or it is
`_on_done`. -/
def Opens (s : State) (a : Action) : Prop :=
  ∃ caller change time t, a = .load caller key.1 change time ∧
    sessionAt env.py s.cache key = some t ∧
      ((∃ now, change = .approve now) ∧ t.state = .intake ∨ change = .done)

/-- No session under the id has passed the gate, and no caller is about to save one that has. -/
structure Shut (s : State) : Prop where
  written : Written s.cache
  session : ∀ t, sessionAt env.py s.cache key = some t → Ungated t
  pending : ∀ caller p, s.pending caller = some p → p.changed.sessionId = key.1 → Ungated p.changed

variable {env key}

theorem Shut.step {s : State} (h : Shut env key s) {a : Action} (hnot : ¬Opens env key s a) :
    Shut env key (step env s a) := by
  obtain ⟨hwritten, hsession, hpending⟩ := steps_step env h.written a
  refine ⟨hwritten, fun t ht => ?_, fun caller p hp hid => ?_⟩
  · cases hsession key t ht with
    | kept hkept => exact h.session t hkept
    | intake => exact (ungated_session _ _ _).stored
    | saved hp hkey =>
      have hchanged := h.pending _ _ hp hkey.symm
      exact Ungated.stored ⟨hchanged.state, hchanged.blocked⟩
  · rcases hpending caller p hp with hkept | ⟨sessionId, change, time, rfl, hloads⟩
    · exact h.pending caller p hkept hid
    · obtain ⟨rfl, hfound, happlies⟩ := loads_under h.written hloads hid
      exact (h.session _ hfound).apply happlies fun hopen => hnot ⟨_, _, _, _, rfl, hfound, hopen⟩

end

/-- Every session that has passed the gate was let through by a step of the run. -/
def GateKept (env : Env) (as : List Action) : Prop :=
  ∀ key t, sessionAt env.py (run (step env) start as).cache key = some t → ¬Ungated t →
    ∃ pre a post, as = pre ++ a :: post ∧ Opens env key (run (step env) start pre) a

end ForgeKit.Workflow
