import ForgeKit.Storage.LocalCache
import ForgeKit.Lib.IsoTime
import ForgeKit.Lib.Trim

/-!
# Workflow sessions (`workflow_state.py`)

A session is kept as JSON text in a row of the local cache, under its id. A load reads every field
back with a conversion of its own, and some of these change what was saved.

* `fromPayload_toPayload` — what a load makes of what a save wrote
* `stored_eq_iff` — which sessions are loaded back as they were
* `saveSession_ok` — what a save does to the store
* `loadSession_saveSession` — a session that is saved and loaded
-/

namespace ForgeKit.Workflow

open Py (Text lit)
open IsoTime (DateTime)
open JsonText
open Storage

/-! ## Sessions -/

/-- `WorkflowState`. -/
inductive WorkflowState where
  | intake
  | approved
  | inProgress
  | completed
  | rejected
deriving DecidableEq

namespace WorkflowState

/-- `WorkflowState.value`. -/
def value : WorkflowState → Text
  | intake => lit "intake"
  | approved => lit "approved"
  | inProgress => lit "in_progress"
  | completed => lit "completed"
  | rejected => lit "rejected"

/-- `WorkflowState(t)`. -/
def ofValue (t : Text) : Option WorkflowState :=
  [intake, approved, inProgress, completed, rejected].find? fun s => s.value = t

theorem ofValue_value (s : WorkflowState) : ofValue s.value = some s := by
  cases s <;> decide

end WorkflowState

/-- `WorkflowSession`. -/
structure WorkflowSession where
  sessionId : Text
  prompt : Text
  taskType : Text
  state : WorkflowState
  createdAt : DateTime
  updatedAt : DateTime
  roleSequence : List Text := []
  executorRole : Option Text := none
  executorRunner : Option Text := none
  referencesUser : List Text := []
  referencesSuggested : List Text := []
  referencesUsed : List JsonDict := []
  progressNotes : List Text := []
  summary : Option Text := none
  rejectionReason : Option Text := none
  channelId : Option Int := none
  userId : Option Int := none
  threadId : Option Int := none
  writeRequested : Bool := false
  writeBlockedReason : Option Text := none
  reviewCycle : Int := 0
  reviewFeedbacks : List JsonDict := []
  extra : JsonDict := JsonDict.empty

namespace WorkflowSession

/-- `_to_payload`. -/
def toPayload (s : WorkflowSession) : JsonDict where
  members :=
    [(lit "session_id", .str s.sessionId), (lit "prompt", .str s.prompt),
      (lit "task_type", .str s.taskType), (lit "state", .str s.state.value),
      (lit "created_at", .str s.createdAt.isoformat), (lit "updated_at", .str s.updatedAt.isoformat),
      (lit "role_sequence", ofTexts s.roleSequence), (lit "executor_role", ofText? s.executorRole),
      (lit "executor_runner", ofText? s.executorRunner),
      (lit "references_user", ofTexts s.referencesUser),
      (lit "references_suggested", ofTexts s.referencesSuggested),
      (lit "references_used", ofDicts s.referencesUsed),
      (lit "progress_notes", ofTexts s.progressNotes), (lit "summary", ofText? s.summary),
      (lit "rejection_reason", ofText? s.rejectionReason), (lit "channel_id", ofInt? s.channelId),
      (lit "user_id", ofInt? s.userId), (lit "thread_id", ofInt? s.threadId),
      (lit "write_requested", .bool s.writeRequested),
      (lit "write_blocked_reason", ofText? s.writeBlockedReason),
      (lit "review_cycle", ofInt s.reviewCycle), (lit "review_feedbacks", ofDicts s.reviewFeedbacks),
      (lit "extra", .obj s.extra.members)]
  valid := ⟨by simp only [List.map_cons, List.map_nil]; decide, trivial, trivial, trivial, trivial,
    trivial, trivial, valid_ofTexts _, valid_ofText? _, valid_ofText? _, valid_ofTexts _,
    valid_ofTexts _, valid_ofDicts _, valid_ofTexts _, valid_ofText? _, valid_ofText? _,
    valid_ofInt? _, valid_ofInt? _, valid_ofInt? _, trivial, valid_ofText? _, trivial,
    valid_ofDicts _, s.extra.valid, trivial⟩

end WorkflowSession

/-! ## Reading a payload -/

/-- What Python makes of the values that a save does not write. -/
structure Readers extends Conversions where
  isoDateTime : Text → Option DateTime

/-- `text or None`, of a stripped text. -/
def stripped? (t : Text) : Option Text := if Py.strip t = [] then none else some (Py.strip t)

section Reading

variable (py : Readers) (payload : JsonDict)

/-- `str(payload.get(k, default))`. -/
def strDefault (k default : Text) : Text := py.strOf (getOr payload.members k default)

/-- `datetime.fromisoformat(str(payload[k]))`. -/
def timeAt (k : Text) : Option DateTime :=
  (strAt py.toConversions payload.members k).bind (DateTime.fromisoformat py.isoDateTime)

/-- `_optional_str(payload.get(k))`. -/
def optionalStr (k : Text) : Option Text :=
  match get payload.members k with
  | .null => none
  | v => stripped? (py.strOf v)

/-- `_optional_int(payload.get(k))`. -/
def optionalInt (k : Text) : Option Int :=
  match get payload.members k with
  | .null => none
  | v => py.intOf v

/-- `payload.get(k, [])`, item by item. -/
def itemsAt (k : Text) : Option (List Document) :=
  match payload.get? k with
  | some v => v.items?
  | none => some []

/-- `payload.get(k) or ()`, item by item. -/
def itemsOr (k : Text) : Option (List Document) :=
  match payload.get? k with
  | some v => if py.truthy v.1 then v.items? else some []
  | none => some []

/-- `dict(item) if isinstance(item, dict) else {"title": str(item)}`. -/
def usedReference (item : Document) : JsonDict :=
  item.dict?.getD ⟨[(lit "title", .str (py.strOf item.1))], ⟨List.nodup_singleton _, trivial, trivial⟩⟩

/-- `int(payload.get(k) or 0)`. -/
def intOr0 (k : Text) : Option Int :=
  match get payload.members k with
  | .num n =>
    match n.toInt? with
    | some m => some m
    | none => if py.bool n then py.int (.num n) else some 0
  | v => if py.truthy v then py.intOf v else some 0

/-- `dict(payload.get(k) or {})`. -/
def dictOr (k : Text) : Option JsonDict :=
  match payload.get? k with
  | some v => if py.truthy v.1 then v.dict? else some JsonDict.empty
  | none => some JsonDict.empty

/-- `_from_payload`; `none` is an exception. -/
def fromPayload : Option WorkflowSession := do
  let sessionId ← strAt py.toConversions payload.members (lit "session_id")
  let state ← WorkflowState.ofValue (strDefault py payload (lit "state") (lit "intake"))
  let createdAt ← timeAt py payload (lit "created_at")
  let updatedAt ← timeAt py payload (lit "updated_at")
  let roleSequence ← textsAt py.toConversions payload.members (lit "role_sequence")
  let referencesUser ← textsAt py.toConversions payload.members (lit "references_user")
  let referencesSuggested ← textsAt py.toConversions payload.members (lit "references_suggested")
  let referencesUsed ← itemsAt payload (lit "references_used")
  let progressNotes ← textsAt py.toConversions payload.members (lit "progress_notes")
  let reviewCycle ← intOr0 py payload (lit "review_cycle")
  let reviewFeedbacks ← itemsOr py payload (lit "review_feedbacks")
  let extra ← dictOr py payload (lit "extra")
  some
    { sessionId
      prompt := strDefault py payload (lit "prompt") []
      taskType := strDefault py payload (lit "task_type") (lit "unknown")
      state
      createdAt
      updatedAt
      roleSequence
      executorRole := optionalStr py payload (lit "executor_role")
      executorRunner := optionalStr py payload (lit "executor_runner")
      referencesUser
      referencesSuggested
      referencesUsed := referencesUsed.map (usedReference py)
      progressNotes
      summary := optionalStr py payload (lit "summary")
      rejectionReason := optionalStr py payload (lit "rejection_reason")
      channelId := optionalInt py payload (lit "channel_id")
      userId := optionalInt py payload (lit "user_id")
      threadId := optionalInt py payload (lit "thread_id")
      writeRequested := ((payload.members.lookup (lit "write_requested")).map py.truthy).getD false
      writeBlockedReason := optionalStr py payload (lit "write_blocked_reason")
      reviewCycle
      reviewFeedbacks := reviewFeedbacks.map fun item => item.dict?.getD JsonDict.empty
      extra }

end Reading

/-- A session in the form in which it is loaded back. -/
def WorkflowSession.stored (s : WorkflowSession) : WorkflowSession :=
  { s with
    executorRole := s.executorRole.bind stripped?
    executorRunner := s.executorRunner.bind stripped?
    referencesUsed := s.referencesUsed.map JsonDict.sorted
    summary := s.summary.bind stripped?
    rejectionReason := s.rejectionReason.bind stripped?
    writeBlockedReason := s.writeBlockedReason.bind stripped?
    reviewFeedbacks := s.reviewFeedbacks.map JsonDict.sorted
    extra := s.extra.sorted }

section Sorted

variable (py : Readers) {d : JsonDict} {k : Text}

theorem strDefault_sorted {t : Text} (default : Text) (h : d.members.lookup k = some (.str t)) :
    strDefault py d.sorted k default = t := by
  rw [strDefault, getOr, lookup_sorted_of h]
  rfl

theorem timeAt_sorted {t : DateTime} (h : d.members.lookup k = some (.str t.isoformat)) :
    timeAt py d.sorted k = some t := by
  rw [timeAt, strAt_sorted py.toConversions h, Option.bind_some, DateTime.read_isoformat]

theorem optionalStr_sorted {o : Option Text} (h : d.members.lookup k = some (ofText? o)) :
    optionalStr py d.sorted k = o.bind stripped? := by
  rw [optionalStr, get_sorted h, sortKeys_ofText?]
  cases o <;> rfl

theorem optionalInt_sorted {o : Option Int} (h : d.members.lookup k = some (ofInt? o)) :
    optionalInt py d.sorted k = o := by
  rw [optionalInt, get_sorted h]
  cases o with
  | none => rfl
  | some n =>
    show (Number.ofInt n).toInt?.or _ = some n
    rw [toInt?_ofInt, Option.some_or]

theorem itemsAt_sorted {l : List JsonDict} (h : d.members.lookup k = some (ofDicts l)) :
    itemsAt d.sorted k = some ((l.map JsonDict.sorted).map JsonDict.document) := by
  obtain ⟨v, hget, hitems, -⟩ := items?_sorted_dicts h
  rw [itemsAt, hget]
  exact hitems

theorem itemsOr_sorted {l : List JsonDict} (h : d.members.lookup k = some (ofDicts l)) :
    itemsOr py d.sorted k = some ((l.map JsonDict.sorted).map JsonDict.document) := by
  obtain ⟨v, hget, hitems, hv⟩ := items?_sorted_dicts h
  rw [itemsOr, hget]
  show (if py.truthy v.1 then v.items? else some []) = _
  cases l with
  | nil =>
    rw [hv]
    rfl
  | cons e l =>
    rw [hv, if_pos (by rfl)]
    exact hitems

theorem intOr0_sorted {n : Int} (h : d.members.lookup k = some (ofInt n)) :
    intOr0 py d.sorted k = some n := by
  rw [intOr0, get_sorted h]
  show (match (Number.ofInt n).toInt? with
    | some m => some m
    | none => _) = some n
  rw [toInt?_ofInt]

theorem dictOr_sorted {e : JsonDict} (h : d.members.lookup k = some (.obj e.members)) :
    dictOr py d.sorted k = some e.sorted := by
  rw [dictOr, get?_sorted_of e.valid h]
  show (if py.truthy (.obj e.sorted.members) then some e.sorted else some JsonDict.empty) = _
  split
  · rfl
  · next hempty =>
    have hnil : e.sorted.members = [] := by simpa [Conversions.truthy] using hempty
    exact congrArg some (JsonDict.ext hnil.symm)

end Sorted

theorem map_usedReference (py : Readers) (ds : List JsonDict) :
    (ds.map JsonDict.document).map (usedReference py) = ds := by
  rw [List.map_map]
  exact List.map_id' ds

theorem map_dict?_document (ds : List JsonDict) :
    (ds.map JsonDict.document).map (fun item => item.dict?.getD JsonDict.empty) = ds := by
  rw [List.map_map]
  exact List.map_id' ds

/-- **What a load makes of what a save wrote.** -/
theorem fromPayload_toPayload (py : Readers) (s : WorkflowSession) :
    fromPayload py s.toPayload.sorted = some s.stored := by
  have hrequested : (s.toPayload.sorted.members.lookup (lit "write_requested")).map py.truthy
      = some s.writeRequested := boolAt_sorted (b := s.writeRequested) py.toConversions rfl
  -- one lemma for each field, in the order in which the load asks for them
  rw [fromPayload, strAt_sorted (t := s.sessionId) py.toConversions rfl,
    strDefault_sorted (t := s.state.value) py _ rfl, WorkflowState.ofValue_value,
    timeAt_sorted (t := s.createdAt) py rfl, timeAt_sorted (t := s.updatedAt) py rfl,
    textsAt_sorted (l := s.roleSequence) py.toConversions rfl,
    textsAt_sorted (l := s.referencesUser) py.toConversions rfl,
    textsAt_sorted (l := s.referencesSuggested) py.toConversions rfl,
    itemsAt_sorted (l := s.referencesUsed) rfl,
    textsAt_sorted (l := s.progressNotes) py.toConversions rfl,
    intOr0_sorted (n := s.reviewCycle) py rfl, itemsOr_sorted (l := s.reviewFeedbacks) py rfl,
    dictOr_sorted (e := s.extra) py rfl, hrequested,
    strDefault_sorted (t := s.prompt) py _ rfl, strDefault_sorted (t := s.taskType) py _ rfl,
    optionalStr_sorted (o := s.executorRole) py rfl, optionalStr_sorted (o := s.executorRunner) py rfl,
    optionalStr_sorted (o := s.summary) py rfl, optionalStr_sorted (o := s.rejectionReason) py rfl,
    optionalStr_sorted (o := s.writeBlockedReason) py rfl,
    optionalInt_sorted (o := s.channelId) py rfl, optionalInt_sorted (o := s.userId) py rfl,
    optionalInt_sorted (o := s.threadId) py rfl]
  simp only [Option.bind_eq_bind, Option.bind_some, Option.getD_some, map_usedReference,
    map_dict?_document]
  rfl

/-! ## The form in which a session is stored -/

theorem bind_stripped?_stripped? (o : Option Text) :
    (o.bind stripped?).bind stripped? = o.bind stripped? := by
  rw [Option.bind_assoc]
  refine Option.bind_congr fun t _ => ?_
  unfold stripped?
  split
  · rfl
  · next ht =>
    have hagain : Py.strip (Py.strip t) = Py.strip t := Trim.trim_trim t
    rw [Option.bind_some, hagain, if_neg ht]

theorem map_sorted_sorted (ds : List JsonDict) :
    (ds.map JsonDict.sorted).map JsonDict.sorted = ds.map JsonDict.sorted := by
  rw [List.map_map]
  exact List.map_congr_left fun d _ => d.sorted_sorted

/-- **Saving what was loaded changes nothing.** -/
theorem WorkflowSession.stored_stored (s : WorkflowSession) : s.stored.stored = s.stored := by
  simp only [stored, bind_stripped?_stripped?, map_sorted_sorted, JsonDict.sorted_sorted]

/-- A text that a load does not change. -/
def Trimmed (o : Option Text) : Prop := ∀ t, o = some t → Py.strip t = t ∧ t ≠ []

theorem bind_stripped?_eq_iff {o : Option Text} : o.bind stripped? = o ↔ Trimmed o := by
  cases o with
  | none => exact ⟨fun _ _ h => absurd h (by simp), fun _ => rfl⟩
  | some t =>
    rw [Option.bind_some, stripped?]
    constructor
    · intro h u hu
      cases hu
      split at h
      · cases h
      · next ht =>
        have hself : Py.strip t = t := Option.some.inj h
        exact ⟨hself, hself ▸ ht⟩
    · intro h
      obtain ⟨hself, hne⟩ := h t rfl
      rw [hself, if_neg hne]

/-- What a session needs to be loaded back as it was. -/
structure WorkflowSession.Settled (s : WorkflowSession) : Prop where
  executorRole : Trimmed s.executorRole
  executorRunner : Trimmed s.executorRunner
  summary : Trimmed s.summary
  rejectionReason : Trimmed s.rejectionReason
  writeBlockedReason : Trimmed s.writeBlockedReason
  referencesUsed : ∀ d ∈ s.referencesUsed, d.sorted = d
  reviewFeedbacks : ∀ d ∈ s.reviewFeedbacks, d.sorted = d
  extra : s.extra.sorted = s.extra

theorem map_sorted_eq_iff {ds : List JsonDict} :
    ds.map JsonDict.sorted = ds ↔ ∀ d ∈ ds, d.sorted = d := by
  conv_lhs => rhs; rw [← List.map_id ds]
  rw [List.map_inj_left]
  rfl

theorem WorkflowSession.stored_eq_iff (s : WorkflowSession) : s.stored = s ↔ s.Settled := by
  constructor
  · intro h
    have hfield : ∀ {α : Type} (f : WorkflowSession → α), f s.stored = f s := fun f => by rw [h]
    exact
      { executorRole := bind_stripped?_eq_iff.mp (hfield executorRole)
        executorRunner := bind_stripped?_eq_iff.mp (hfield executorRunner)
        summary := bind_stripped?_eq_iff.mp (hfield summary)
        rejectionReason := bind_stripped?_eq_iff.mp (hfield rejectionReason)
        writeBlockedReason := bind_stripped?_eq_iff.mp (hfield writeBlockedReason)
        referencesUsed := map_sorted_eq_iff.mp (hfield referencesUsed)
        reviewFeedbacks := map_sorted_eq_iff.mp (hfield reviewFeedbacks)
        extra := hfield WorkflowSession.extra }
  · intro h
    rw [stored, bind_stripped?_eq_iff.mpr h.executorRole, bind_stripped?_eq_iff.mpr h.executorRunner,
      bind_stripped?_eq_iff.mpr h.summary, bind_stripped?_eq_iff.mpr h.rejectionReason,
      bind_stripped?_eq_iff.mpr h.writeBlockedReason, map_sorted_eq_iff.mpr h.referencesUsed,
      map_sorted_eq_iff.mpr h.reviewFeedbacks, h.extra]

/-! ## The store -/

/-- What the calls on sessions raise. -/
inductive Raised where
  | workflowError (message : Text)
  | storage (e : Storage.Raised)
  /-- An exception of `_from_payload`, here or in `review_loop`. -/
  | payload

/-- `WORKFLOW_NAMESPACE`. -/
def workflowNamespace : Text := lit "engineering-agent-workflow"

/-- `WORKFLOW_NAMESPACE` as a parameter of a statement. -/
def workflowNs : SqlText := ⟨workflowNamespace, encodable_of_ascii (by decide)⟩

/-- The clocks of a call, and `_should_run_cleanup()`. -/
structure Clock where
  now : DateTime
  time : ℚ
  cleanup : Bool

/-- How `save_session` calls `save_json_cache`. -/
def WorkflowSession.saveCall (s : WorkflowSession) (clock : Clock) : SaveCall where
  ns := workflowNamespace
  cacheKey := s.sessionId
  provider := lit "engineering-agent-workflow"
  rangeStart := some s.createdAt.isoformat
  rangeEnd := some s.updatedAt.isoformat
  scopeHash := s.taskType
  ttlSeconds := 30 * 24 * 60 * 60
  payload := s.toPayload
  metadata := JsonDict.empty
  now := clock.time
  cleanup := clock.cleanup

theorem WorkflowSession.ttl_pos (s : WorkflowSession) (clock : Clock) :
    0 < (s.saveCall clock).ttlSeconds := by
  show (0 : Int) < 30 * 24 * 60 * 60
  norm_num

/-- `save_session`. -/
def saveSession (cache : Cache) (s : WorkflowSession) (clock : Clock) : Except Raised Cache :=
  (saveJsonCache cache (s.saveCall clock)).mapError .storage

/-- `update_session`. -/
def updateSession (cache : Cache) (s : WorkflowSession) (clock : Clock) :
    Except Raised (Cache × WorkflowSession) := do
  let updated := { s with updatedAt := clock.now }
  let cache ← saveSession cache updated clock
  .ok (cache, updated)

/-- The payload of the row under an id. -/
def payloadAt (cache : Cache) (key : SqlText) (time : ℚ) : Option JsonDict :=
  (loadJsonCache cache workflowNs key none true time).pmap
    (fun entry hvalid => ⟨entry.payload, hvalid⟩) fun _ h => valid_payload h

/-- `None` for a session that is not there, or `_from_payload(entry.payload)`. -/
def readPayload (py : Readers) : Option JsonDict → Except Raised (Option WorkflowSession)
  | none => .ok none
  | some payload =>
    match fromPayload py payload with
    | some s => .ok (some s)
    | none => .error .payload

/-- `load_session`. -/
def loadSession (py : Readers) (cache : Cache) (sessionId : Text) (time : ℚ) :
    Except Raised (Option WorkflowSession) := do
  let key ← (bindText sessionId).mapError .storage
  readPayload py (payloadAt cache key time)

/-! ## Loading what was saved -/

theorem loadJsonCache_payload {cache : Cache} {key : SqlText} {row : CacheRow} {d : JsonDict}
    (hfind : cache.find? (workflowNs, key) = some row) (hrow : row.payloadJson.1 = dumpsDict d)
    (time : ℚ) :
    ∃ entry, loadJsonCache cache workflowNs key none true time = some entry ∧
      entry.payload = d.sorted.members := by
  unfold loadJsonCache
  rw [hfind]
  simp only [Option.bind_eq_bind, Option.bind_some, Bool.not_true, Bool.and_false,
    Bool.false_eq_true, if_false]
  rw [hrow, deserializeJsonObject_dumpsDict]
  exact ⟨_, rfl, rfl⟩

theorem payloadAt_of_row {cache : Cache} {key : SqlText} {row : CacheRow} {d : JsonDict}
    (hfind : cache.find? (workflowNs, key) = some row) (hrow : row.payloadJson.1 = dumpsDict d)
    (time : ℚ) : payloadAt cache key time = some d.sorted := by
  obtain ⟨entry, hentry, hpayload⟩ := loadJsonCache_payload hfind hrow time
  refine Option.pmap_eq_some_iff.mpr ⟨entry, valid_payload hentry, hentry, ?_⟩
  exact JsonDict.ext hpayload.symm

theorem payloadAt_none {cache : Cache} {key : SqlText}
    (hfind : cache.find? (workflowNs, key) = none) (time : ℚ) : payloadAt cache key time = none := by
  refine Option.pmap_eq_none_iff.mpr ?_
  unfold loadJsonCache
  rw [hfind]
  rfl

/-- The row of a session. -/
structure RowOf (s : WorkflowSession) (key : SqlText) (row : CacheRow) : Prop where
  sessionId : s.sessionId = key.1
  payload : row.payloadJson.1 = dumpsDict s.toPayload

/-- Every row of the namespace was written by `save_session`. -/
def Written (cache : Cache) : Prop :=
  ∀ key row, cache.find? (workflowNs, key) = some row → ∃ s, RowOf s key row

/-- The session that a load of an id gives. -/
def sessionAt (py : Readers) (cache : Cache) (key : SqlText) : Option WorkflowSession :=
  (payloadAt cache key 0).bind (fromPayload py)

theorem sessionAt_of_row (py : Readers) {cache : Cache} {key : SqlText} {row : CacheRow}
    {s : WorkflowSession} (hfind : cache.find? (workflowNs, key) = some row)
    (hrow : RowOf s key row) : sessionAt py cache key = some s.stored := by
  rw [sessionAt, payloadAt_of_row hfind hrow.payload, Option.bind_some, fromPayload_toPayload]

theorem sessionAt_none (py : Readers) {cache : Cache} {key : SqlText}
    (hfind : cache.find? (workflowNs, key) = none) : sessionAt py cache key = none := by
  rw [sessionAt, payloadAt_none hfind, Option.bind_none]

/-- **A load finds what was written under the id**, and raises nothing. -/
theorem loadSession_eq (py : Readers) {cache : Cache} (h : Written cache) (key : SqlText) (time : ℚ) :
    loadSession py cache key.1 time = .ok (sessionAt py cache key) := by
  have hload : loadSession py cache key.1 time = readPayload py (payloadAt cache key time) := by
    rw [loadSession, bindText_of key.2]
    rfl
  rw [hload]
  cases hfind : cache.find? (workflowNs, key) with
  | none => rw [payloadAt_none hfind, sessionAt_none py hfind, readPayload]
  | some row =>
    obtain ⟨s, hrow⟩ := h key row hfind
    rw [payloadAt_of_row hfind hrow.payload, sessionAt_of_row py hfind hrow, readPayload,
      fromPayload_toPayload]

theorem stored_of_sessionAt {py : Readers} {cache : Cache} (h : Written cache) {key : SqlText}
    {s : WorkflowSession} (hs : sessionAt py cache key = some s) :
    s.stored = s ∧ s.sessionId = key.1 := by
  cases hfind : cache.find? (workflowNs, key) with
  | none =>
    rw [sessionAt_none py hfind] at hs
    cases hs
  | some row =>
    obtain ⟨t, hrow⟩ := h key row hfind
    rw [sessionAt_of_row py hfind hrow] at hs
    cases hs
    exact ⟨t.stored_stored, hrow.sessionId⟩

/-- **What a save does**: the session is loaded back in its stored form, and every other session is
as it was or is dropped. -/
theorem saveSession_ok {cache cache' : Cache} {s : WorkflowSession} {clock : Clock}
    (h : saveSession cache s clock = .ok cache') (hwritten : Written cache) :
    ∃ key : SqlText, key.1 = s.sessionId ∧ Written cache' ∧
      (∀ py, sessionAt py cache' key = some s.stored) ∧
      ∀ key' ≠ key, cache'.find? (workflowNs, key') = cache.find? (workflowNs, key') ∨
        cache'.find? (workflowNs, key') = none := by
  have hsave : saveJsonCache cache (s.saveCall clock) = .ok cache' := by
    unfold saveSession at h
    cases hsave : saveJsonCache cache (s.saveCall clock) with
    | ok saved =>
      rw [hsave] at h
      exact congrArg Except.ok (Except.ok.inj h)
    | error e =>
      rw [hsave] at h
      cases h
  obtain ⟨row, hrow, hfind, hother⟩ := saveJsonCache_ok hsave (s.ttl_pos clock)
  have hwrites := (s.saveCall clock).writes_of_row hrow
  have hkey : row.key = (workflowNs, row.key.2) := Prod.ext (Subtype.ext hwrites.ns) rfl
  have hrowOf : RowOf s row.key.2 row := ⟨hwrites.cacheKey.symm, hwrites.payload⟩
  rw [hkey] at hfind hother
  refine ⟨row.key.2, hwrites.cacheKey, ?_, fun py => sessionAt_of_row py hfind hrowOf, ?_⟩
  · intro key' row' hfind'
    by_cases hne : key' = row.key.2
    · subst hne
      cases hfind.symm.trans hfind'
      exact ⟨s, hrowOf⟩
    -- the entry of another session is as it was, or was cleaned up
    · rcases hother (workflowNs, key') fun h => hne (congrArg Prod.snd h) with hsame | hnone
      · exact hwritten key' row' (hsame ▸ hfind')
      · rw [hnone] at hfind'
        cases hfind'
  · intro key' hne
    exact hother (workflowNs, key') fun h => hne (congrArg Prod.snd h)

/--
**A session that can be written is loaded back in its stored form**, and as it was if and only if it
is settled.
-/
theorem loadSession_saveSession (py : Readers) {cache : Cache} (hwritten : Written cache)
    (s : WorkflowSession) (clock : Clock) (hstorable : (s.saveCall clock).Storable) (time : ℚ) :
    ∃ cache', saveSession cache s clock = .ok cache' ∧ Written cache' ∧
      loadSession py cache' s.sessionId time = .ok (some s.stored) ∧
      (loadSession py cache' s.sessionId time = .ok (some s) ↔ s.Settled) := by
  obtain ⟨cache', -, hsave, -, -⟩ := saveJsonCache_of_storable hstorable (s.ttl_pos clock) cache
  have hsave' : saveSession cache s clock = .ok cache' := by
    rw [saveSession, hsave]
    rfl
  obtain ⟨key, hkey, hwritten', hfound, -⟩ := saveSession_ok hsave' hwritten
  have hload : loadSession py cache' s.sessionId time = .ok (some s.stored) := by
    rw [← hkey, loadSession_eq py hwritten' key time, hfound py]
  refine ⟨cache', hsave', hwritten', hload, ?_⟩
  rw [hload, ← s.stored_eq_iff]
  exact ⟨fun h => Option.some.inj (Except.ok.inj h), fun h => by rw [h]⟩

/-- A morning of the year 2026. -/
def sampleTime : DateTime :=
  ⟨(IsoTime.Date.mk? 2026 5 15).get (by decide), 9, 0, 0, 0, none⟩

/-- A session of which only what a load needs is given. -/
def sampleSession : WorkflowSession where
  sessionId := lit "3163b5cf6c9b"
  prompt := lit "회원가입 화면"
  taskType := lit "frontend-feature"
  state := .intake
  createdAt := sampleTime
  updatedAt := sampleTime

def sampleClock : Clock := ⟨sampleTime, 0, true⟩

theorem storable_sampleSession : (sampleSession.saveCall sampleClock).Storable where
  ns := encodable_of_ascii (by decide)
  cacheKey := encodable_of_ascii (by decide)
  provider := encodable_of_ascii (by decide)
  rangeStart t ht := by
    cases ht
    exact DateTime.encodable_isoformat _
  rangeEnd t ht := by
    cases ht
    exact DateTime.encodable_isoformat _
  scopeHash := encodable_of_ascii (by decide)
  payload := encodable_dumpsDict (encodable_of_all (by decide +kernel))
  metadata := encodable_dumpsDict (encodable_of_all (by decide))

/-- No value needs a conversion here. -/
def sampleReaders : Readers := ⟨⟨fun _ => [], fun _ => none, fun _ => false⟩, fun _ => none⟩

theorem loadSession_saveSession_sample :
    ∃ cache', saveSession Table.empty sampleSession sampleClock = .ok cache' ∧ Written cache' ∧
      loadSession sampleReaders cache' sampleSession.sessionId 1 = .ok (some sampleSession.stored) ∧
      (loadSession sampleReaders cache' sampleSession.sessionId 1 = .ok (some sampleSession) ↔
        sampleSession.Settled) :=
  loadSession_saveSession sampleReaders (fun _ _ h => by cases h) sampleSession sampleClock
    storable_sampleSession 1

end ForgeKit.Workflow
