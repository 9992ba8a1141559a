import ForgeKit.DayPlan.Envelope
import ForgeKit.Storage.LocalCache

/-!
# The snapshot of a daily plan (`yule_planning/snapshots`)

An envelope is saved as JSON text in a row of the local cache and read back from it.

* `load_after_save` — the envelope is read back, but for empty texts that have a default
-/

namespace ForgeKit.DayPlan

open Py (Text lit)
open IsoTime (Date DateTime)
open JsonText
open Storage

/-! ## The snapshot -/

/-- `DAILY_PLAN_SNAPSHOT_NAMESPACE`. -/
def dailyPlanSnapshotNamespace : Text := lit "planning-daily-plan-snapshots"

/-- `DAILY_PLAN_SNAPSHOT_PROVIDER`. -/
def dailyPlanSnapshotProvider : Text := lit "planning-agent"

/-- `daily_plan_snapshot_cache_key`. -/
def dailyPlanSnapshotCacheKey (planDate : Date) : Text := planDate.isoformat

/-- `_snapshot_ttl_seconds`, with the value of `PLANNING_DAILY_SNAPSHOT_SECONDS`. -/
def snapshotTtlSeconds (py : Readers) (env : Text) : Except Raised Int :=
  if Py.strip env = [] then .ok (6 * 60 * 60)
  else
    match py.int (.str (Py.strip env)) with
    | some n => if n ≤ 0 then .error .valueError else .ok n
    | none => .error .valueError

/-- `_snapshot_ttl_seconds() if ttl_seconds is None else ttl_seconds`. -/
def resolveTtl (py : Readers) (env : Text) : Option Int → Except Raised Int
  | some n => .ok n
  | none => snapshotTtlSeconds py env

/-- `DailyPlanSnapshot`. -/
structure DailyPlanSnapshot where
  planDate : Date
  generatedAt : DateTime
  envelope : DailyPlanEnvelope
  isStale : Bool
  cacheKey : Text
  metadata : List (Text × Value)

/-- The `metadata` of a snapshot. -/
def snapshotMetadata (envelope : DailyPlanEnvelope) (generatedAt : DateTime) : JsonDict where
  members :=
    [(lit "plan_date", .str envelope.dailyPlan.planDate.isoformat),
      (lit "generated_at", .str generatedAt.isoformat),
      (lit "fixed_event_count", ofInt envelope.dailyPlan.summary.fixedEventCount),
      (lit "todo_count", ofInt envelope.dailyPlan.summary.todoCount),
      (lit "github_issue_count", ofInt envelope.dailyPlan.summary.githubIssueCount),
      (lit "recommended_task_count", ofInt envelope.dailyPlan.summary.recommendedTaskCount)]
  valid := ⟨by simp only [List.map_cons, List.map_nil]; decide, trivial, trivial, trivial, trivial,
    trivial, trivial, trivial⟩

/-- The `payload` of a snapshot. -/
def snapshotPayload (envelope : DailyPlanEnvelope) (generatedAt : DateTime) : JsonDict where
  members :=
    [(lit "plan_date", .str envelope.dailyPlan.planDate.isoformat),
      (lit "generated_at", .str generatedAt.isoformat),
      (lit "envelope", .obj envelope.toDict.members)]
  valid := ⟨by simp only [List.map_cons, List.map_nil]; decide, trivial, trivial,
    envelope.toDict.valid, trivial⟩

/-- How `save_daily_plan_snapshot` calls `save_json_cache`. -/
def snapshotCall (envelope : DailyPlanEnvelope) (generatedAt : DateTime) (ttlSeconds : Int)
    (now : ℚ) (cleanup : Bool) : SaveCall where
  ns := dailyPlanSnapshotNamespace
  cacheKey := dailyPlanSnapshotCacheKey envelope.dailyPlan.planDate
  provider := dailyPlanSnapshotProvider
  rangeStart := some envelope.dailyPlan.planDate.isoformat
  rangeEnd := some envelope.dailyPlan.planDate.isoformat
  scopeHash := envelope.dailyPlan.planDate.isoformat
  ttlSeconds := ttlSeconds
  payload := snapshotPayload envelope generatedAt
  metadata := snapshotMetadata envelope generatedAt
  now := now
  cleanup := cleanup

/-- What `save_daily_plan_snapshot` answers with. -/
def savedSnapshot (envelope : DailyPlanEnvelope) (generatedAt : DateTime) : DailyPlanSnapshot where
  planDate := envelope.dailyPlan.planDate
  generatedAt := generatedAt
  envelope := envelope
  isStale := false
  cacheKey := dailyPlanSnapshotCacheKey envelope.dailyPlan.planDate
  metadata := (snapshotMetadata envelope generatedAt).members

/-- `save_daily_plan_snapshot`, with the environment and the two clocks. -/
def saveDailyPlanSnapshot (py : Readers) (env : Text) (cache : Cache) (envelope : DailyPlanEnvelope)
    (generatedAt : Option DateTime) (ttlSeconds : Option Int) (clock : DateTime) (now : ℚ)
    (cleanup : Bool) : Except Raised (Cache × DailyPlanSnapshot) := do
  let generatedAt := generatedAt.getD clock
  let ttlSeconds ← resolveTtl py env ttlSeconds
  let cache ← saveJsonCache cache (snapshotCall envelope generatedAt ttlSeconds now cleanup)
  .ok (cache, savedSnapshot envelope generatedAt)

/-- What `load_daily_plan_snapshot` makes of the entry. -/
def readSnapshot (py : Readers) (planDate : Date) (entry : LocalCacheEntry) :
    Option DailyPlanSnapshot := do
  let generatedAtText := py.strOf (py.orElse (get entry.payload (lit "generated_at"))
    (py.orElse (get entry.metadata (lit "generated_at")) (.str [])))
  let envelopePayload ← dictAt entry.payload (lit "envelope")
  let generatedAt ← DateTime.fromisoformat py.isoDateTime generatedAtText
  let envelope ← DailyPlanEnvelope.fromDict py envelopePayload
  some ⟨planDate, generatedAt, envelope, entry.isStale, entry.cacheKey, entry.metadata⟩

/-- `DAILY_PLAN_SNAPSHOT_NAMESPACE` as a parameter of a statement. -/
def snapshotNs : SqlText := ⟨dailyPlanSnapshotNamespace, encodable_of_ascii (by decide)⟩

/-- The key of a date as a parameter of a statement. -/
def snapshotKey (planDate : Date) : SqlText :=
  ⟨dailyPlanSnapshotCacheKey planDate, IsoTime.encodable_isoformat planDate⟩

/-- `load_daily_plan_snapshot`, with the environment and the clock. -/
def loadDailyPlanSnapshot (py : Readers) (env : Text) (cache : Cache) (planDate : Date)
    (allowStale : Bool) (ttlSeconds : Option Int) (now : ℚ) :
    Except Raised (Option DailyPlanSnapshot) := do
  let ttlSeconds ← resolveTtl py env ttlSeconds
  .ok ((loadJsonCache cache snapshotNs (snapshotKey planDate) (some ttlSeconds) allowStale now).bind
    (readSnapshot py planDate))

/-! ## What a save writes -/

theorem encodable_metadata (envelope : DailyPlanEnvelope) (generatedAt : DateTime) :
    Encodable (dumpsDict (snapshotMetadata envelope generatedAt)) := by
  refine encodable_dumpsDict fun t ht => ?_
  have hdate := IsoTime.encodable_isoformat envelope.dailyPlan.planDate
  have htime := generatedAt.encodable_isoformat
  simp only [snapshotMetadata, Value.texts, memberTexts, ofInt, List.nil_append, List.cons_append,
    List.mem_cons, List.not_mem_nil, or_false] at ht
  rcases ht with rfl | rfl | rfl | rfl | rfl | rfl | rfl | rfl
  · exact encodable_of_ascii (by decide)
  · exact hdate
  · exact encodable_of_ascii (by decide)
  · exact htime
  all_goals exact encodable_of_ascii (by decide)

theorem encodable_payload {envelope : DailyPlanEnvelope}
    (h : ∀ t ∈ (Value.obj envelope.toDict.members).texts, Encodable t) (generatedAt : DateTime) :
    Encodable (dumpsDict (snapshotPayload envelope generatedAt)) := by
  refine encodable_dumpsDict fun t ht => ?_
  have hdate := IsoTime.encodable_isoformat envelope.dailyPlan.planDate
  have htime := generatedAt.encodable_isoformat
  have ht : t = lit "plan_date" ∨ t = envelope.dailyPlan.planDate.isoformat ∨
      t = lit "generated_at" ∨ t = generatedAt.isoformat ∨ t = lit "envelope" ∨
      t ∈ (Value.obj envelope.toDict.members).texts := by
    simpa [snapshotPayload, Value.texts, memberTexts] using ht
  rcases ht with rfl | rfl | rfl | rfl | rfl | ht
  · exact encodable_of_ascii (by decide)
  · exact hdate
  · exact encodable_of_ascii (by decide)
  · exact htime
  · exact encodable_of_ascii (by decide)
  · exact h t ht

theorem storable_snapshotCall {envelope : DailyPlanEnvelope}
    (h : ∀ t ∈ (Value.obj envelope.toDict.members).texts, Encodable t) (generatedAt : DateTime)
    (ttlSeconds : Int) (now : ℚ) (cleanup : Bool) :
    (snapshotCall envelope generatedAt ttlSeconds now cleanup).Storable where
  ns := snapshotNs.2
  cacheKey := IsoTime.encodable_isoformat _
  provider := encodable_of_ascii (t := dailyPlanSnapshotProvider) (by decide)
  rangeStart := by
    rintro t ⟨⟩
    exact IsoTime.encodable_isoformat _
  rangeEnd := by
    rintro t ⟨⟩
    exact IsoTime.encodable_isoformat _
  scopeHash := IsoTime.encodable_isoformat _
  payload := encodable_payload h generatedAt
  metadata := encodable_metadata envelope generatedAt

/-! ## What a load reads -/

/-- What a load makes of the row of a snapshot. -/
theorem readSnapshot_of_payload (py : Readers) {envelope : DailyPlanEnvelope}
    (h : envelope.inputs.Loaded) (generatedAt : DateTime) (planDate : Date) (cacheKey : Text)
    (metadata : List (Text × Value)) (isStale : Bool) :
    readSnapshot py planDate
      ⟨cacheKey, (snapshotPayload envelope generatedAt).sorted.members, metadata, isStale⟩
      = some ⟨planDate, generatedAt, envelope.defaulted, isStale, cacheKey, metadata⟩ := by
  have htime : generatedAt.isoformat ≠ [] := by
    unfold DateTime.isoformat Date.isoformat IsoTime.pad
    simp
  have htext : ∀ w, py.strOf (py.orElse (get (snapshotPayload envelope generatedAt).sorted.members
      (lit "generated_at")) w) = generatedAt.isoformat := by
    intro w
    rw [get_sorted (v := .str generatedAt.isoformat) rfl]
    show py.strOf (if decide (generatedAt.isoformat ≠ []) = true then _ else w) = _
    rw [if_pos (decide_eq_true htime)]
    rfl
  have hdict : dictAt (snapshotPayload envelope generatedAt).sorted.members (lit "envelope")
      = some envelope.toDict.sorted.members := dictAt_sorted (e := envelope.toDict) rfl
  unfold readSnapshot
  simp only [htext, hdict, DateTime.read_isoformat, DailyPlanEnvelope.fromDict_toDict py h,
    Option.bind_eq_bind, Option.bind_some]

theorem key_of_writes {envelope : DailyPlanEnvelope} {generatedAt : DateTime} {ttlSeconds : Int}
    {saved : ℚ} {cleanup : Bool} {row : CacheRow}
    (h : (snapshotCall envelope generatedAt ttlSeconds saved cleanup).Writes row) :
    row.key = (snapshotNs, snapshotKey envelope.dailyPlan.planDate) :=
  Prod.ext (Subtype.ext h.ns) (Subtype.ext h.cacheKey)

/-- What a load gives of the row of a snapshot: the envelope, but for empty texts that have a
default. -/
theorem load_of_writes (py : Readers) {envelope : DailyPlanEnvelope}
    (h : envelope.inputs.Loaded) {generatedAt : DateTime} {ttlSeconds : Int} {saved : ℚ}
    {cleanup : Bool} {row : CacheRow}
    (hrow : (snapshotCall envelope generatedAt ttlSeconds saved cleanup).Writes row) {cache : Cache}
    (hfind : cache.find? row.key = some row) {env : Text} {ttl : Option Int} {n : Int}
    (httl : resolveTtl py env ttl = .ok n) (allowStale : Bool) (now : ℚ)
    (hfresh : allowStale = true ∨ row.isStale now (some n) = false) :
    loadDailyPlanSnapshot py env cache envelope.dailyPlan.planDate allowStale ttl now
      = .ok (some
          { planDate := envelope.dailyPlan.planDate, generatedAt := generatedAt
            envelope := envelope.defaulted, isStale := row.isStale now (some n)
            cacheKey := dailyPlanSnapshotCacheKey envelope.dailyPlan.planDate
            metadata := (snapshotMetadata envelope generatedAt).sorted.members }) := by
  rw [key_of_writes hrow] at hfind
  rw [loadDailyPlanSnapshot, httl]
  show Except.ok ((loadJsonCache _ _ _ _ _ _).bind _) = _
  rw [loadJsonCache_of_writes hrow hfind hfresh, Option.bind_some]
  exact congrArg Except.ok (readSnapshot_of_payload py h _ _ _ _ _)

theorem saveDailyPlanSnapshot_eq (py : Readers) {env : Text} {ttl : Option Int} {ttlSeconds : Int}
    (httl : resolveTtl py env ttl = .ok ttlSeconds) (cache : Cache) (envelope : DailyPlanEnvelope)
    (generatedAt : Option DateTime) (clock : DateTime) (now : ℚ) (cleanup : Bool) :
    saveDailyPlanSnapshot py env cache envelope generatedAt ttl clock now cleanup
      = (saveJsonCache cache
          (snapshotCall envelope (generatedAt.getD clock) ttlSeconds now cleanup)).map
          fun cache' => (cache', savedSnapshot envelope (generatedAt.getD clock)) := by
  rw [saveDailyPlanSnapshot, httl]
  rfl

/-- **A load after a save** gives the envelope back, but for empty texts that have a default, when
every text has an encoding. Saves under other keys may come between, until a cleanup is due. -/
theorem load_after_save (py : Readers) {envelope : DailyPlanEnvelope}
    (hloaded : envelope.inputs.Loaded)
    (htexts : ∀ t ∈ (Value.obj envelope.toDict.members).texts, Encodable t) (cache : Cache)
    {env : Text} (generatedAt : Option DateTime) {ttl : Option Int} {ttlSeconds : Int}
    (httl : resolveTtl py env ttl = .ok ttlSeconds) (hpos : 0 < ttlSeconds) (clock : DateTime)
    (saved : ℚ) (cleanup : Bool) :
    ∃ cache' snapshot,
      saveDailyPlanSnapshot py env cache envelope generatedAt ttl clock saved cleanup
        = .ok (cache', snapshot) ∧
      ∀ calls : List SaveCall,
        (∀ call ∈ calls, call.Spares dailyPlanSnapshotNamespace
          (dailyPlanSnapshotCacheKey envelope.dailyPlan.planDate) (saved + ttlSeconds)) →
      ∀ (env' : Text) (ttl' : Option Int) (n : Int) (allowStale : Bool) (now : ℚ),
        resolveTtl py env' ttl' = .ok n →
        (allowStale = true ∨ now < saved + ttlSeconds ∧ (0 ≤ n → now < saved + n)) →
      ∃ loaded,
        loadDailyPlanSnapshot py env' (runAll cache' calls) envelope.dailyPlan.planDate allowStale
          ttl' now = .ok (some loaded) ∧
        loaded.envelope = envelope.defaulted ∧
        (envelope.dailyPlan.Named → loaded.envelope = envelope) := by
  obtain ⟨cache', row, hsave, hfind, hrow⟩ := saveJsonCache_of_storable
    (storable_snapshotCall htexts (generatedAt.getD clock) ttlSeconds saved cleanup) hpos cache
  refine ⟨cache', savedSnapshot envelope (generatedAt.getD clock), ?_, ?_⟩
  · rw [saveDailyPlanSnapshot_eq py httl, hsave]
    rfl
  · intro calls hcalls env' ttl' n allowStale now httl' hfresh
    have hfind : (runAll cache' calls).find? row.key = some row := by
      refine find?_runAll hfind fun call hcall => ?_
      rw [hrow.ns, hrow.cacheKey, hrow.expiresAt]
      exact hcalls call hcall
    have hfresh : allowStale = true ∨ row.isStale now (some n) = false := by
      refine hfresh.imp_right fun hfresh => isStale_eq_false ?_ ?_
      · rw [hrow.expiresAt]
        exact hfresh.1
      · rw [hrow.fetchedAt]
        exact hfresh.2
    refine ⟨_, load_of_writes py hloaded hrow hfind httl' _ _ hfresh, rfl, fun hnamed => ?_⟩
    show envelope.defaulted = envelope
    rw [DailyPlanEnvelope.defaulted, DailyPlan.defaulted_of_named hnamed]

/-! ## A plan of one day -/

/-- Readers that refuse what the snapshot does not hold. -/
def sampleReaders : Readers where
  str _ := []
  int _ := none
  bool _ := true
  isoDate _ := none
  isoDateTime _ := none
  fallbackItemUid _ _ := none

def sampleDate : Date := (Date.mk? 2026 5 1).get rfl

def sampleClock : DateTime := ⟨sampleDate, 9, 30, 0, 0, some (IsoTime.hoursEast 9)⟩

def sampleCheckpoint : PlanningCheckpoint where
  checkpointId := lit "checkpoint-1"
  remindAt := lit "2026-05-01T09:55:00+09:00"
  sourceEventUid := lit "uid-1"
  sourceEventTitle := lit "업무 수행"
  blockId := lit "block-1"
  blockTitle := lit "review"
  blockStart := lit "2026-05-01T09:00:00+09:00"
  blockEnd := lit "2026-05-01T10:00:00+09:00"
  prompt := lit "done?"

def sampleEnvelope : DailyPlanEnvelope where
  inputs :=
    { planDate := sampleDate, timezone := lit "Asia/Seoul"
      sourceStatuses := [⟨lit "github", lit "issues", true, 1, none⟩], warnings := []
      calendarEvents := [⟨lit "uid-1", lit "업무 수행", lit "2026-05-01T09:00:00+09:00",
        lit "2026-05-01T18:00:00+09:00", false, lit "work", lit "naver", [], none, none⟩]
      calendarTodos := [⟨lit "uid-2", lit "todo", none, none, false, false, lit "NEEDS-ACTION",
        false, none, some 5, none, lit "work", lit "naver", [], none, none⟩]
      githubIssues := [⟨7, lit "forgekit", lit "fix", lit "https://x", lit "yule", lit "personal",
        [lit "bug"], [], [], some (lit "2026-04-30T00:00:00Z")⟩]
      reminders := [⟨lit "r1", lit "water", [], none, none, 15, []⟩] }
  dailyPlan :=
    { planDate := sampleDate, timezone := lit "Asia/Seoul", sourceStatuses := [], warnings := []
      summary := ⟨1, 0, 1, 1, 1, 0, 60⟩, fixedSchedule := [], executionBlocks := []
      prioritizedTasks := [], suggestedTimeBlocks := [], morningBriefing := lit "good morning"
      timeBlockBriefings := [], checkpoints := [sampleCheckpoint], briefings := []
      codingAgentHandoff := [], discordBriefing := [], morningBriefingSource := lit "rules"
      discordBriefingSource := lit "rules" }

theorem loaded_sampleEnvelope : sampleEnvelope.inputs.Loaded where
  events := by decide
  todos := by decide
  issues := by
    intro issue hi
    obtain rfl := List.mem_singleton.mp hi
    refine ⟨by decide, by decide, ?_⟩
    rintro t ⟨⟩
    exact ⟨by decide, by decide⟩
  reminders := by
    intro item hi
    obtain rfl := List.mem_singleton.mp hi
    exact ⟨by decide, by decide, by decide⟩
  pulls := fun _ h => absurd h List.not_mem_nil

theorem resolveTtl_sample : resolveTtl sampleReaders [] (some 60) = .ok 60 := rfl

theorem load_after_save_sample :
    (∀ t ∈ (Value.obj sampleEnvelope.toDict.members).texts, Encodable t) ∧
    ∃ cache' snapshot loaded,
      saveDailyPlanSnapshot sampleReaders [] Table.empty sampleEnvelope none (some 60) sampleClock 0
        true = .ok (cache', snapshot) ∧
      loadDailyPlanSnapshot sampleReaders [] (runAll cache' []) sampleDate true none 90
        = .ok (some loaded) ∧
      loaded.envelope = sampleEnvelope := by
  have htexts : ∀ t ∈ (Value.obj sampleEnvelope.toDict.members).texts, Encodable t :=
    encodable_of_all (by decide +kernel)
  have hnamed : sampleEnvelope.dailyPlan.Named :=
    ⟨by decide, by decide, by decide, by decide⟩
  obtain ⟨cache', snapshot, hsave, hload⟩ := load_after_save sampleReaders loaded_sampleEnvelope
    htexts Table.empty none resolveTtl_sample (by decide) sampleClock 0 true
  obtain ⟨loaded, hloaded, -, heq⟩ := hload [] (by simp) [] none _ true 90 rfl (.inl rfl)
  exact ⟨htexts, cache', snapshot, loaded, hsave, hloaded, heq hnamed⟩

/-- The sample with a checkpoint of no kind. -/
def blankKindEnvelope : DailyPlanEnvelope :=
  { sampleEnvelope with
    dailyPlan := { sampleEnvelope.dailyPlan with
      checkpoints := [{ sampleCheckpoint with kind := [] }] } }

/-- The sample with half a surrogate pair in the title of its reminder. -/
def surrogateEnvelope : DailyPlanEnvelope :=
  { sampleEnvelope with
    inputs := { sampleEnvelope.inputs with
      reminders := [⟨lit "r1", [Fin.ofNat _ 0xD83D], [], none, none, 15, []⟩] } }

/-- **A kind that is empty comes back as another, and half a surrogate pair is not saved.** -/
theorem blankKind_surrogate :
    (blankKindEnvelope.inputs.Loaded ∧ ∃ cache' snapshot loaded,
      saveDailyPlanSnapshot sampleReaders [] Table.empty blankKindEnvelope none (some 60) sampleClock
        0 true = .ok (cache', snapshot) ∧
      loadDailyPlanSnapshot sampleReaders [] cache' sampleDate true none 30 = .ok (some loaded) ∧
      loaded.envelope ≠ blankKindEnvelope) ∧
    surrogateEnvelope.inputs.Loaded ∧
      ∃ e, saveDailyPlanSnapshot sampleReaders [] Table.empty surrogateEnvelope none (some 60)
        sampleClock 0 true = .error e := by
  constructor
  · have htexts : ∀ t ∈ (Value.obj blankKindEnvelope.toDict.members).texts, Encodable t :=
      encodable_of_all (by decide +kernel)
    obtain ⟨cache', row, hsave, hfind, hrow⟩ := saveJsonCache_of_storable
      (storable_snapshotCall htexts sampleClock 60 0 true) (by decide) Table.empty
    have hloaded : blankKindEnvelope.inputs.Loaded := loaded_sampleEnvelope
    have httl : resolveTtl sampleReaders [] none = .ok 21600 := rfl
    have hload := load_of_writes sampleReaders hloaded hrow hfind httl true 30 (.inl rfl)
    have hsaved := saveDailyPlanSnapshot_eq sampleReaders resolveTtl_sample Table.empty
      blankKindEnvelope none sampleClock 0 true
    rw [Option.getD_none, hsave] at hsaved
    have hdefaulted : blankKindEnvelope.defaulted ≠ blankKindEnvelope := by
      intro heq
      have hkinds := congrArg (fun e : DailyPlanEnvelope => e.dailyPlan.checkpoints.map
        PlanningCheckpoint.kind) heq
      exact absurd hkinds (by decide)
    exact ⟨hloaded, cache', _, _, hsaved, hload, hdefaulted⟩
  · have hloaded : surrogateEnvelope.inputs.Loaded :=
      { loaded_sampleEnvelope with
        reminders := by
          intro item hi
          obtain rfl := List.mem_singleton.mp hi
          exact ⟨by decide, by decide, by decide⟩ }
    have hpayload : ¬ Encodable (dumpsDict (snapshotPayload surrogateEnvelope sampleClock)) := by
      have hany : (dumpsDict (snapshotPayload surrogateEnvelope sampleClock)).any Py.isSurrogate
          = true := by
        decide +kernel
      obtain ⟨c, hc, hsurrogate⟩ := List.any_eq_true.mp hany
      intro h
      rw [h c hc] at hsurrogate
      cases hsurrogate
    have hsaved := saveDailyPlanSnapshot_eq sampleReaders resolveTtl_sample Table.empty
      surrogateEnvelope none sampleClock 0 true
    cases hrow : (snapshotCall surrogateEnvelope sampleClock 60 0 true).row with
    | ok row =>
      refine absurd ?_ hpayload
      have hwritten := (SaveCall.writes_of_row hrow).payload
      exact hwritten ▸ row.payloadJson.2
    | error e =>
      have hsave : saveJsonCache Table.empty (snapshotCall surrogateEnvelope sampleClock 60 0 true)
          = .error e := by
        rw [saveJsonCache, if_neg (by decide), hrow]
        rfl
      rw [Option.getD_none, hsave] at hsaved
      exact And.intro hloaded ⟨e, hsaved⟩

end ForgeKit.DayPlan
