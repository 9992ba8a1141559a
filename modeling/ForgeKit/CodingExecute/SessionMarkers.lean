import ForgeKit.CodingExecute.SessionWriters

/-!
# What becomes of a session's markers

The session store and the copies that processes loaded. A save replaces the stored session by the
writer's copy, so it also writes back every key that the writer did not touch, as old as its load.

* `markers_kept_iff` — a run keeps every marker until a writer replaces it exactly when no save is
  stale
* `answered_request_is_lost` — the dispatcher's marker erases an answer that came during its scan
-/

namespace ForgeKit

namespace SessionMarkers

/-- The stored sessions, and the sessions that processes have loaded and not saved yet. -/
structure SessionStore where
  sessions : String → Option WorkflowSession
  loaded : String → String → Option WorkflowSession

/-- One transaction of a process with the store. -/
inductive SessionStep where
  /-- `load_session`. -/
  | loadSession (process sessionId : String)
  /-- `list_sessions`, with the sessions that are among the newest. -/
  | listSessions (process : String) (listed : List String)
  /-- `update_session` with what a writer made of the loaded session. -/
  | updateSession (process sessionId : String) (writer : SessionWriter)

variable (deps : Continuation.Deps)

/-- The stored value of a top-level key of `extra`. -/
def SessionStore.marker (s : SessionStore) (sessionId key : String) : Option Json :=
  (s.sessions sessionId).bind fun session => session.extra.get? key

/-- One step. A writer that finds no session, or raises, saves nothing. -/
def step (s : SessionStore) : SessionStep → SessionStore
  | .loadSession process sessionId =>
    { s with
      loaded := fun p k => if p = process ∧ k = sessionId then s.sessions k else s.loaded p k }
  | .listSessions process listed =>
    { s with loaded := fun p k => if p = process ∧ k ∈ listed then s.sessions k else s.loaded p k }
  | .updateSession process sessionId writer =>
    match s.loaded process sessionId with
    | none => s
    | some session =>
      match writer.newExtra deps session with
      | none => s
      | some extra =>
        { sessions := fun k =>
            if k = sessionId then some { session with extra := extra } else s.sessions k
          loaded := fun p k => if p = process ∧ k = sessionId then none else s.loaded p k }

/-- The step is a save whose writer means to replace the key. -/
def Replaces (s : SessionStore) (a : SessionStep) (sessionId key : String) : Prop :=
  match a with
  | .updateSession process k writer => k = sessionId ∧ ∃ session extra,
      s.loaded process k = some session ∧ writer.newExtra deps session = some extra ∧
        key ∈ writer.assignedKeys deps session
  | _ => False

/-- From any point of the run to any later one, a key that no writer replaces keeps its value. -/
def MarkersKept (s : SessionStore) (as : List SessionStep) : Prop :=
  ∀ pre mid, pre ++ mid <+: as → ∀ sessionId key value,
    (Machine.run (step deps) s pre).marker sessionId key = some value →
      Machine.EachStep (step deps) (fun u a => ¬Replaces deps u a sessionId key)
        (Machine.run (step deps) s pre) mid →
      (Machine.run (step deps) s (pre ++ mid)).marker sessionId key = some value

/-- The save writes no key back that is stored with another value and that it does not replace. -/
def SavesFresh (s : SessionStore) (a : SessionStep) : Prop :=
  match a with
  | .updateSession process sessionId writer => ∀ session extra,
      s.loaded process sessionId = some session → writer.newExtra deps session = some extra →
        ∀ key value, key ∉ writer.assignedKeys deps session →
          s.marker sessionId key = some value → session.extra.get? key = some value
  | _ => True

/-! ## The store as shared records -/

/-- The sessions as records of the keys of their `extra`. -/
def SessionStore.records (s : SessionStore) : SharedMaps.State String String String Json where
  shared k := (s.sessions k).map fun session key => session.extra.get? key
  copy p k := (s.loaded p k).map fun session key => session.extra.get? key

/-- A step as a step on records. -/
def recordAction (s : SessionStore) : SessionStep → SharedMaps.Action String String String Json
  | .loadSession process sessionId => .load process fun k => decide (k = sessionId)
  | .listSessions process listed => .load process fun k => decide (k ∈ listed)
  | .updateSession process sessionId writer =>
    match s.loaded process sessionId with
    | none => .skip
    | some session =>
      match writer.newExtra deps session with
      | none => .skip
      | some extra => .write process sessionId fun key =>
          if key ∈ writer.assignedKeys deps session then some (extra.get? key) else none

theorem field_records (s : SessionStore) (k key : String) :
    s.records.field k key = s.marker k key := by
  unfold SharedMaps.State.field SessionStore.records SessionStore.marker
  rw [Option.bind_map]
  rfl

theorem records_load (s : SessionStore) (process : String) (keep : String → Prop)
    [DecidablePred keep] :
    SessionStore.records
        { s with loaded := fun p k => if p = process ∧ keep k then s.sessions k else s.loaded p k }
      = SharedMaps.step s.records (.load process fun k => decide (keep k)) := by
  unfold SharedMaps.step SessionStore.records
  dsimp only
  congr 1
  funext p k
  by_cases h : p = process ∧ keep k
  · simp [h]
  · rw [if_neg h, if_neg (by simpa using h)]

theorem records_step (s : SessionStore) (a : SessionStep) :
    (step deps s a).records = SharedMaps.step s.records (recordAction deps s a) := by
  cases a with
  | loadSession process sessionId => exact records_load s process (· = sessionId)
  | listSessions process listed => exact records_load s process (· ∈ listed)
  | updateSession process sessionId writer =>
    unfold step recordAction
    dsimp only
    cases hl : s.loaded process sessionId with
    | none => rfl
    | some session =>
      dsimp only
      cases hw : writer.newExtra deps session with
      | none => rfl
      | some extra =>
        have hcopy : s.records.copy process sessionId
            = some fun key => session.extra.get? key := by simp [SessionStore.records, hl]
        simp only [SharedMaps.step, hcopy]
        unfold SessionStore.records
        dsimp only
        congr 1
        · funext k
          by_cases hk : k = sessionId
          · simp only [hk, if_true, Option.map_some, Option.some.injEq]
            funext key
            by_cases hkey : key ∈ writer.assignedKeys deps session
            · simp [hkey]
            · simpa [hkey] using SessionWriter.newExtra_get? hw hkey
          · simp [hk]
        · funext p k
          by_cases h : p = process ∧ k = sessionId
          · simp [h]
          · simp [h]

theorem assigns_iff (s : SessionStore) (a : SessionStep) (sessionId key : String) :
    (recordAction deps s a).Assigns sessionId key ↔ Replaces deps s a sessionId key := by
  cases a with
  | loadSession process k => exact Iff.rfl
  | listSessions process listed => exact Iff.rfl
  | updateSession process k writer =>
    unfold recordAction Replaces
    dsimp only
    cases hl : s.loaded process k with
    | none => simp [SharedMaps.Action.Assigns]
    | some session =>
      dsimp only
      cases hw : writer.newExtra deps session with
      | none => simp [SharedMaps.Action.Assigns, hw]
      | some extra => simp [SharedMaps.Action.Assigns, hw]

theorem fresh_iff (s : SessionStore) (a : SessionStep) :
    SharedMaps.Fresh s.records (recordAction deps s a) ↔ SavesFresh deps s a := by
  cases a with
  | loadSession process k => exact Iff.rfl
  | listSessions process listed => exact Iff.rfl
  | updateSession process k writer =>
    unfold recordAction SavesFresh
    dsimp only
    cases hl : s.loaded process k with
    | none => simp [SharedMaps.Fresh]
    | some session =>
      dsimp only
      cases hw : writer.newExtra deps session with
      | none =>
        refine iff_of_true trivial ?_
        intro loaded extra hloaded hextra
        obtain rfl := Option.some.inj hloaded
        rw [hw] at hextra
        cases hextra
      | some extra =>
        have hcopy : s.records.copy process k
            = some fun key => session.extra.get? key := by simp [SessionStore.records, hl]
        constructor
        · intro h loaded _ hloaded _ key value hkey hv
          obtain rfl := Option.some.inj hloaded
          exact h _ hcopy key value (if_neg hkey) (by rw [field_records, hv])
        · intro h fields hfields key value hassign hv
          rw [hcopy] at hfields
          obtain rfl := Option.some.inj hfields
          have hkey : key ∉ writer.assignedKeys deps session := by
            intro hmem
            dsimp only at hassign
            rw [if_pos hmem] at hassign
            cases hassign
          exact h session extra rfl hw key value hkey (by rw [← field_records, hv])

/--
**A run keeps every marker until a writer replaces it** exactly when no save is stale: every key
that a save does not itself replace was loaded with the value that is stored.
-/
theorem markers_kept_iff (s : SessionStore) (as : List SessionStep) :
    MarkersKept deps s as ↔ Machine.EachStep (step deps) (SavesFresh deps) s as := by
  have h := SharedMaps.kept_run_iff (s := s) (records_step deps) as
  simp only [fresh_iff] at h
  rw [← h]
  simp only [MarkersKept, SharedMaps.Kept, field_records, SharedMaps.Unassigned, assigns_iff,
    not_not]

/-! ## An answer during a scan -/

/-- A session whose coding job is ready. -/
def readySession : WorkflowSession where
  sessionId := "session-1"
  prompt := "fix the form"
  extra := [("coding_job", .obj [("status", .str "ready"), ("executor_role", .str "backend-engineer")])]

/-- The store with that session, loaded by nobody. -/
def readyStore : SessionStore where
  sessions k := if k = "session-1" then some readySession else none
  loaded _ _ := none

/-- The request that the dispatcher makes of the session. -/
def readyRequest : CodingExecuteRequest where
  sessionId := "session-1"
  executorRole := "backend-engineer"
  userRequest := "fix the form"
  generatedPrompt := "fix the form"
  writeScope := []
  forbiddenScope := []
  safetyRules := []

def quietDeps : Continuation.Deps where
  recommend _ _ := none
  buildJob _ := none

/-- The dispatcher lists the sessions, the gateway stores an answer, the dispatcher stores its mark. -/
def answerDuringScan : List SessionStep :=
  [.listSessions "dispatcher" ["session-1"], .loadSession "gateway" "session-1",
    .updateSession "gateway" "session-1" (.operatorReply
      { requestType := .accessRequired, answers := [("ssh_user", "deploy")], isComplete := true
        rawText := "ssh_user=deploy" } "operator" "t1"),
    .updateSession "dispatcher" "session-1" (.persistDispatchMarker "job-1" readyRequest "t2")]

/-- The answer was stored, and the dispatcher's save erased it. -/
theorem answered_request_is_lost : ¬MarkersKept quietDeps readyStore answerDuringScan := by
  intro h
  have hstored : ((Machine.run (step quietDeps) readyStore (answerDuringScan.take 3)).marker
      "session-1" "operator_answered_requests").isSome = true := by decide +kernel
  have hlost : ((Machine.run (step quietDeps) readyStore answerDuringScan).marker
      "session-1" "operator_answered_requests").isNone = true := by decide +kernel
  obtain ⟨value, hvalue⟩ := Option.isSome_iff_exists.mp hstored
  have hkept := h (answerDuringScan.take 3) (answerDuringScan.drop 3) (List.prefix_refl _)
    "session-1" "operator_answered_requests" value hvalue ⟨?_, trivial⟩
  · have hrun : answerDuringScan.take 3 ++ answerDuringScan.drop 3 = answerDuringScan := rfl
    rw [hrun] at hkept
    rw [hkept] at hlost
    cases hlost
  · rintro ⟨-, session, extra, -, -, hmem⟩
    revert hmem
    show "operator_answered_requests" ∉ ["coding_execute_dispatch", "github_work_order_progress"]
    decide

end SessionMarkers

end ForgeKit
