import ForgeKit.DecisionLane.Readiness

/-!
# Recorded readiness (`record_lane_artifacts`, `readiness_from_log`)

A call records some artifacts of a lane, each with the verdict of its validator; a handoff is
judged off the decision of the same call. The log keeps every verdict, the lane has the artifacts
that were recorded last.

* `hasValid_replay_iff` — which kinds a replay finds valid
* `replayAgrees_iff` — when the readiness that is replayed is the readiness of the artifacts
-/

namespace ForgeKit.DecisionLane

open Py (Text lit)
open JsonText (JsonDict Document docs)

/-! ## Recording -/

/-- An artifact as a call gives it; a handoff comes with the decision of its call. -/
inductive Artifact where
  | brief (b : PMBrief)
  | meeting (m : MeetingRecord)
  | decision (d : TechLeadDecision)
  | handoff (h : EngineerHandoff) (d : Option TechLeadDecision)

/-- The `valid` flag. -/
def Artifact.passes : Artifact → Bool
  | .brief b => validatePmBrief b == []
  | .meeting m => validateMeeting m == []
  | .decision d => goodDecision d
  | .handoff h d => d.any fun d => validateHandoff h d == []

def Artifact.kind : Artifact → Text
  | .brief _ => lit "brief"
  | .meeting _ => lit "meeting"
  | .decision _ => lit "decision"
  | .handoff _ _ => lit "handoff"

def Artifact.actor : Artifact → Text
  | .brief _ => lit "product-manager"
  | .meeting _ => lit "tech-lead"
  | .decision d => d.signoffBy
  | .handoff h _ => h.executorRole

def Artifact.summary : Artifact → Text
  | .brief b => lit "PM brief: " ++ b.topic
  | .meeting m => lit "meeting " ++ m.meetingId ++ lit " ("
      ++ JsonText.decimal m.participants.length ++ lit " 참석)"
  | .decision d => lit "decision " ++ d.decisionId ++ lit " (" ++ d.status ++ lit "/"
      ++ d.approvalLevel ++ lit ")"
  | .handoff h _ => lit "handoff " ++ h.handoffId ++ lit " → " ++ h.executorRole

def Artifact.ref : Artifact → Text
  | .brief b => b.topic
  | .meeting m => m.meetingId
  | .decision d => d.decisionId
  | .handoff h _ => h.handoffId

def Artifact.payload : Artifact → JsonDict
  | .brief b => b.toDict
  | .meeting m => m.toDict
  | .decision d => d.toDict
  | .handoff h _ => h.toDict

/-- An artifact that a call gives for a session. -/
structure LaneRecord where
  sessionId : Text
  artifact : Artifact
  atTime : Text

/-- What `_emit` records. -/
def LaneRecord.event (r : LaneRecord) : GovernanceEvent where
  sessionId := r.sessionId
  kind := r.artifact.kind
  actor := r.artifact.actor
  summary := r.artifact.summary
  valid := r.artifact.passes
  ref := r.artifact.ref
  payload := r.artifact.payload
  atTime := r.atTime

/-- The arguments of a call of `record_lane_artifacts`; the other artifacts are `None`. -/
structure LaneCall where
  sessionId : Text
  artifacts : LaneArtifacts
  atTime : Text := []

/-- The records of a call, in the order they are made. -/
def LaneCall.records (c : LaneCall) : List LaneRecord :=
  (c.artifacts.brief.toList.map Artifact.brief
    ++ c.artifacts.meeting.toList.map Artifact.meeting
    ++ c.artifacts.decision.toList.map Artifact.decision
    ++ c.artifacts.handoff.toList.map fun h => Artifact.handoff h c.artifacts.decision).map
      fun a => ⟨c.sessionId, a, c.atTime⟩

/-- The log files, and what was recorded in them. -/
structure LaneLog where
  files : LogFiles := noFiles
  recorded : List LaneRecord := []

/-- The records of a call up to the first that cannot be encoded, where the call raises. -/
def recordUntil (py : Builtins) (log : LaneLog) : List LaneRecord → LaneLog
  | [] => log
  | r :: rs =>
    match recordGovernanceEvent py log.files r.event with
    | .error _ => log
    | .ok files => recordUntil py { files, recorded := log.recorded ++ [r] } rs

/-- `record_lane_artifacts`. -/
def recordLaneArtifacts (py : Builtins) (log : LaneLog) (c : LaneCall) : LaneLog :=
  recordUntil py log c.records

/-- A sequence of calls. -/
def recordCalls (py : Builtins) (calls : List LaneCall) : LaneLog :=
  calls.foldl (recordLaneArtifacts py) {}

/-- The artifacts with one more of them. -/
def LaneArtifacts.put (a : LaneArtifacts) : Artifact → LaneArtifacts
  | .brief b => { a with brief := some b }
  | .meeting m => { a with meeting := some m }
  | .decision d => { a with decision := some d }
  | .handoff h _ => { a with handoff := some h }

/-- The artifact of each kind that was recorded last for a session. -/
def latest (sessionId : Text) (recorded : List LaneRecord) : LaneArtifacts :=
  (recorded.filter fun r => r.sessionId = sessionId).foldl (fun a r => a.put r.artifact) {}

/-! ## What the log keeps of a run -/

theorem recordAll_append {py : Builtins} {files files' : LogFiles} {evs evs' : List GovernanceEvent}
    (h : recordAll py files evs = .ok files') :
    recordAll py files (evs ++ evs') = recordAll py files' evs' := by
  induction evs generalizing files with
  | nil =>
    cases h
    rfl
  | cons ev evs ih =>
    rw [recordAll] at h
    rw [List.cons_append, recordAll]
    cases hrec : recordGovernanceEvent py files ev with
    | error e => rw [hrec] at h; cases h
    | ok files'' =>
      rw [hrec] at h
      exact ih h

/-- The files hold what was recorded. -/
def Kept (py : Builtins) (log : LaneLog) : Prop :=
  recordAll py noFiles (log.recorded.map LaneRecord.event) = .ok log.files

theorem kept_recordUntil {py : Builtins} {log : LaneLog} (h : Kept py log) (rs : List LaneRecord) :
    Kept py (recordUntil py log rs) := by
  induction rs generalizing log with
  | nil => exact h
  | cons r rs ih =>
    rw [recordUntil]
    cases hrec : recordGovernanceEvent py log.files r.event with
    | error e => exact h
    | ok files =>
      refine ih ?_
      show recordAll py noFiles ((log.recorded ++ [r]).map LaneRecord.event) = .ok files
      rw [List.map_append, recordAll_append h]
      show recordAll py log.files [r.event] = .ok files
      rw [recordAll, hrec]
      rfl

/-- **The files of a run hold what was recorded.** -/
theorem kept_recordCalls (py : Builtins) (calls : List LaneCall) :
    Kept py (recordCalls py calls) := by
  unfold recordCalls
  induction calls using List.reverseRecOn with
  | nil => rfl
  | append_singleton calls c ih =>
    rw [List.foldl_append]
    exact kept_recordUntil ih _

/-! ## What a replay finds -/

/-- The document is a valid event of the kind. -/
def isValidEvent (py : Builtins) (kind : Text) (v : Document) : Bool :=
  v.dict?.any fun d =>
    let e := GovernanceEvent.fromDict py d 0
    e.kind == kind && e.valid

theorem hasValid_of_foldlM {py : Builtins} {vs : List Document} {events read : List GovernanceEvent}
    (h : vs.foldlM (addDocument py) events = some read) (kind : Text) :
    hasValid read kind = (hasValid events kind || vs.any (isValidEvent py kind)) := by
  induction vs generalizing events with
  | nil =>
    cases h
    simp
  | cons v vs ih =>
    rw [List.foldlM_cons] at h
    obtain ⟨events', hstep, h⟩ := Option.bind_eq_some_iff.mp h
    obtain ⟨d, hd, rfl⟩ := Option.map_eq_some_iff.mp hstep
    have hv : isValidEvent py kind v
        = hasValid [GovernanceEvent.fromDict py d events.length] kind := by
      simp [isValidEvent, hd, hasValid, GovernanceEvent.fromDict]
    rw [ih h, List.any_cons, hv, hasValid, List.any_append, Bool.or_assoc]
    rfl

/-- A replay ends unless a piece of a line is a document that is no `dict`. -/
theorem foldlM_isSome_iff (py : Builtins) (vs : List Document) (events : List GovernanceEvent) :
    (∃ read, vs.foldlM (addDocument py) events = some read) ↔ ∀ v ∈ vs, v.dict?.isSome = true := by
  induction vs generalizing events with
  | nil => simp
  | cons v vs ih =>
    rw [List.foldlM_cons, List.forall_mem_cons]
    cases hd : v.dict? with
    | none => simp [addDocument, hd]
    | some d => simpa [addDocument, hd] using ih _

theorem isValidEvent_documentOf (py : Builtins) (kind : Text) (ev : GovernanceEvent) :
    isValidEvent py kind (documentOf ev) = (ev.kind == kind && ev.valid) := by
  have hdict : (documentOf ev).dict? = some ev.toDict := rfl
  rw [isValidEvent, hdict, Option.any_some, fromDict_toDict]

/-- The valid events of a kind are the intact ones. -/
theorem any_isValidEvent_iff (py : Builtins) {kind : Text} (hkind : kind ≠ [])
    (evs : List GovernanceEvent) :
    (evs.flatMap fun ev => docs ev.line).any (isValidEvent py kind) = true ↔
      ∃ ev ∈ evs, Intact ev ∧ ev.kind = kind ∧ ev.valid = true := by
  simp only [List.any_eq_true, List.mem_flatMap]
  constructor
  · rintro ⟨v, ⟨ev, hev, hv⟩, hvalid⟩
    by_cases hintact : Intact ev
    · rw [docs_of_intact hintact, List.mem_singleton] at hv
      subst hv
      rw [isValidEvent_documentOf, Bool.and_eq_true, beq_iff_eq] at hvalid
      exact ⟨ev, hev, hintact, hvalid⟩
    · obtain ⟨d, hd, hvalid⟩ := (Option.any_eq_true _ _).mp hvalid
      rw [Bool.and_eq_true, beq_iff_eq] at hvalid
      have hnone : textAt py d (lit "kind") = [] := textAt_of_not_intact py hintact hv hd (by decide)
      exact absurd (hvalid.1.symm.trans hnone) hkind
  · rintro ⟨ev, hev, hintact, hkind, hvalid⟩
    refine ⟨documentOf ev, ⟨ev, hev, ?_⟩, ?_⟩
    · rw [docs_of_intact hintact]
      exact List.mem_singleton_self _
    · rw [isValidEvent_documentOf, hkind, hvalid, beq_self_eq_true]
      rfl

/-! ## Agreement -/

variable (py : Builtins) (sessionId : Text)

/-- The record is in the file of the session. -/
def InFile (r : LaneRecord) : Prop := logName py r.sessionId = logName py sessionId

/-- An artifact of the kind passed when it was recorded, and its line is whole. -/
def OncePassed (recorded : List LaneRecord) (kind : Text) : Prop :=
  ∃ r ∈ recorded, InFile py sessionId r ∧ Intact r.event ∧ r.artifact.kind = kind ∧
    r.artifact.passes = true

instance (r : LaneRecord) : Decidable (InFile py sessionId r) :=
  inferInstanceAs (Decidable (logName py r.sessionId = logName py sessionId))

instance (recorded : List LaneRecord) (kind : Text) :
    Decidable (OncePassed py sessionId recorded kind) :=
  inferInstanceAs (Decidable (∃ r ∈ recorded, InFile py sessionId r ∧ Intact r.event ∧
    r.artifact.kind = kind ∧ r.artifact.passes = true))

/-- The artifacts pass, the handoff off the decision. -/
def AllPass (a : LaneArtifacts) : Prop :=
  (∃ b, a.brief = some b ∧ validatePmBrief b = []) ∧
    (∃ m, a.meeting = some m ∧ validateMeeting m = []) ∧
      ∃ d, a.decision = some d ∧ goodDecision d = true ∧
        ∃ h, a.handoff = some h ∧ validateHandoff h d = []

/-- Every piece of a line that is a JSON document is a `dict`. -/
def NoStrayDocument (recorded : List LaneRecord) : Prop :=
  ∀ r ∈ recorded, InFile py sessionId r → ∀ v ∈ docs r.event.line, v.dict?.isSome = true

/-- The readiness that is replayed is executable exactly when the one of the artifacts is. -/
def ReplayAgrees (log : LaneLog) : Prop :=
  ∃ events, replayGovernanceLog py log.files sessionId = some events ∧
    ((readinessFromLog events).executable = true ↔
      (assessLaneReadiness (latest sessionId log.recorded)).executable = true)

variable {py sessionId}

theorem replay_of_kept {log : LaneLog} (h : Kept py log) :
    replayGovernanceLog py log.files sessionId
      = ((inFile py (logName py sessionId) (log.recorded.map LaneRecord.event)).flatMap
          fun ev => docs ev.line).foldlM (addDocument py) [] := replay_eq_foldlM h sessionId

theorem mem_inFile_iff {recorded : List LaneRecord} {ev : GovernanceEvent} :
    ev ∈ inFile py (logName py sessionId) (recorded.map LaneRecord.event) ↔
      ∃ r ∈ recorded, InFile py sessionId r ∧ r.event = ev := by
  simp only [inFile, List.mem_filter, List.mem_map, decide_eq_true_eq]
  constructor
  · rintro ⟨⟨r, hr, rfl⟩, hfile⟩
    exact ⟨r, hr, hfile, rfl⟩
  · rintro ⟨r, hr, hfile, rfl⟩
    exact ⟨⟨r, hr, rfl⟩, hfile⟩

/-- **The kinds that a replay finds valid** are those that once passed. -/
theorem hasValid_replay_iff {log : LaneLog} (h : Kept py log) {events : List GovernanceEvent}
    (hreplay : replayGovernanceLog py log.files sessionId = some events) {kind : Text}
    (hkind : kind ≠ []) :
    hasValid events kind = true ↔ OncePassed py sessionId log.recorded kind := by
  rw [replay_of_kept h] at hreplay
  have hnil : hasValid [] kind = false := rfl
  rw [hasValid_of_foldlM hreplay, hnil, Bool.false_or, any_isValidEvent_iff py hkind]
  simp only [mem_inFile_iff]
  constructor
  · rintro ⟨ev, ⟨r, hr, hfile, rfl⟩, hintact, hkind, hvalid⟩
    exact ⟨r, hr, hfile, hintact, hkind, hvalid⟩
  · rintro ⟨r, hr, hfile, hintact, hkind, hvalid⟩
    exact ⟨r.event, ⟨r, hr, hfile, rfl⟩, hintact, hkind, hvalid⟩

theorem replay_isSome_iff {log : LaneLog} (h : Kept py log) :
    (∃ events, replayGovernanceLog py log.files sessionId = some events) ↔
      NoStrayDocument py sessionId log.recorded := by
  rw [replay_of_kept h, foldlM_isSome_iff]
  constructor
  · intro hall r hr hfile v hv
    exact hall v (List.mem_flatMap.mpr ⟨r.event, mem_inFile_iff.mpr ⟨r, hr, hfile, rfl⟩, hv⟩)
  · intro hstray v hv
    obtain ⟨ev, hev, hv⟩ := List.mem_flatMap.mp hv
    obtain ⟨r, hr, hfile, rfl⟩ := mem_inFile_iff.mp hev
    exact hstray r hr hfile v hv

variable (py sessionId)

/-- Once each kind has passed, the artifacts recorded last pass together. -/
def NothingWithdrawn (recorded : List LaneRecord) : Prop :=
  (∀ kind ∈ gatingKinds, OncePassed py sessionId recorded kind) → AllPass (latest sessionId recorded)

/--
When the artifacts recorded last pass together, each kind has passed on record, the handoff off
the decision of its own call.
-/
def NothingLate (recorded : List LaneRecord) : Prop :=
  AllPass (latest sessionId recorded) → ∀ kind ∈ gatingKinds, OncePassed py sessionId recorded kind

/--
**When the log agrees with the lane.** After any sequence of calls the replayed readiness is the
readiness of the artifacts recorded last exactly when the replay ends, nothing that passed was
withdrawn and nothing passes off record.
-/
theorem replayAgrees_iff (calls : List LaneCall) :
    ReplayAgrees py sessionId (recordCalls py calls) ↔
      NoStrayDocument py sessionId (recordCalls py calls).recorded ∧
        NothingWithdrawn py sessionId (recordCalls py calls).recorded ∧
          NothingLate py sessionId (recordCalls py calls).recorded := by
  have hkept := kept_recordCalls py calls
  generalize recordCalls py calls = log at hkept
  have hready : ∀ events, replayGovernanceLog py log.files sessionId = some events →
      ((readinessFromLog events).executable = true ↔
        ∀ kind ∈ gatingKinds, OncePassed py sessionId log.recorded kind) := by
    intro events hevents
    rw [readinessFromLog_executable_iff]
    refine forall₂_congr fun kind hkind => hasValid_replay_iff hkept hevents ?_
    rintro rfl
    exact absurd hkind (by decide)
  rw [← replay_isSome_iff hkept]
  constructor
  · rintro ⟨events, hevents, hagree⟩
    rw [hready events hevents, assess_executable_iff] at hagree
    exact ⟨⟨events, hevents⟩, hagree.mp, hagree.mpr⟩
  · rintro ⟨⟨events, hevents⟩, hwithdrawn, hlate⟩
    refine ⟨events, hevents, ?_⟩
    rw [hready events hevents, assess_executable_iff]
    exact ⟨hwithdrawn, hlate⟩

/-! ### A withdrawn decision -/

/-- The whole chain in one call, then the decision again, blocked. -/
def withdrawnCalls : List LaneCall :=
  [⟨lit "goal-1", ⟨some sampleBrief, some sampleMeeting, some sampleDecision, some sampleHandoff⟩, []⟩,
    ⟨lit "goal-1", { decision := some { sampleDecision with status := lit "blocked" } }, []⟩]

/-- What can be encoded is recorded. -/
theorem recorded_recordUntil {py : Builtins} {rs : List LaneRecord}
    (h : ∀ r ∈ rs, (Py.encode (r.event.line ++ [Py.newline])).isSome = true) (log : LaneLog) :
    (recordUntil py log rs).recorded = log.recorded ++ rs := by
  induction rs generalizing log with
  | nil => exact (List.append_nil _).symm
  | cons r rs ih =>
    obtain ⟨hr, hrs⟩ := List.forall_mem_cons.mp h
    obtain ⟨b, hb⟩ := Option.isSome_iff_exists.mp hr
    have hkind : r.event.kind ∈ eventKinds := by
      cases hart : r.artifact <;> simp [LaneRecord.event, hart, Artifact.kind, eventKinds]
    rw [recordUntil, recordGovernanceEvent, if_neg (not_not.mpr hkind), hb]
    show (recordUntil py ⟨_, log.recorded ++ [r]⟩ rs).recorded = _
    rw [ih hrs, List.append_assoc]
    rfl

/-- A line without surrogates can be encoded. -/
theorem encodable_of_all {r : LaneRecord}
    (h : (r.event.line.all fun c => !Py.isSurrogate c) = true) :
    (Py.encode (r.event.line ++ [Py.newline])).isSome = true := by
  rw [Py.encode_isSome_iff]
  intro c hc
  rcases List.mem_append.mp hc with hc | hc
  · simpa using List.all_eq_true.mp h c hc
  · rw [List.mem_singleton.mp hc]
    decide

theorem recorded_recordCalls {py : Builtins} {calls : List LaneCall}
    (h : ((calls.flatMap LaneCall.records).all fun r =>
      r.event.line.all fun c => !Py.isSurrogate c) = true) :
    (recordCalls py calls).recorded = calls.flatMap LaneCall.records := by
  have hencodable := fun r hr => encodable_of_all (List.all_eq_true.mp h r hr)
  clear h
  unfold recordCalls
  induction calls using List.reverseRecOn with
  | nil => rfl
  | append_singleton calls c ih =>
    rw [List.flatMap_append] at hencodable ⊢
    rw [List.foldl_append]
    have hc : ∀ r ∈ c.records, (Py.encode (r.event.line ++ [Py.newline])).isSome = true :=
      fun r hr => hencodable r (List.mem_append_right _ (by simpa using hr))
    show (recordUntil py _ c.records).recorded = _
    rw [recorded_recordUntil hc, ih fun r hr => hencodable r (List.mem_append_left _ hr)]
    simp

/-- **A withdrawn decision stays executable on replay.** -/
theorem withdrawn_decision_executes :
    ¬ ReplayAgrees asciiBuiltins (lit "goal-1") (recordCalls asciiBuiltins withdrawnCalls) := by
  have hkept := kept_recordCalls asciiBuiltins withdrawnCalls
  have hrecorded : (recordCalls asciiBuiltins withdrawnCalls).recorded
      = withdrawnCalls.flatMap LaneCall.records := recorded_recordCalls (by decide +kernel)
  generalize recordCalls asciiBuiltins withdrawnCalls = log at hkept hrecorded
  rintro ⟨events, hevents, hagree⟩
  have honce : ∀ kind ∈ gatingKinds,
      OncePassed asciiBuiltins (lit "goal-1") log.recorded kind := by
    rw [hrecorded]
    decide +kernel
  have hlive : (assessLaneReadiness (latest (lit "goal-1") log.recorded)).executable = false := by
    rw [hrecorded]
    decide +kernel
  have hready : (readinessFromLog events).executable = true := by
    rw [readinessFromLog_executable_iff]
    intro kind hkind
    refine (hasValid_replay_iff hkept hevents ?_).mpr (honce kind hkind)
    rintro rfl
    exact absurd hkind (by decide)
  rw [hagree.mp hready] at hlive
  cases hlive

end ForgeKit.DecisionLane
