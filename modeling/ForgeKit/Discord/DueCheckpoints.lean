import ForgeKit.DayPlan.Snapshot
import ForgeKit.DayPlan.TimeShift
import ForgeKit.Lib.KeyOrder
import ForgeKit.Lib.Raising

/-!
# Due checkpoints (`runtime/planning.py`, `bot/scheduling.py`)

A scan asks for the checkpoints of a window. When the checkpoints of the dates of the window were
prefetched into the local cache they are read from there, else from the snapshots of the daily plans,
for a window of whole minutes.

* `loadPrefetchedDueCheckpoints_eq`, `buildDueCheckpoints_eq` — what the two paths read
* `prefetched_eq_plain_iff` — when the two paths agree
-/

namespace ForgeKit.Discord

open Py (Text lit)
open IsoTime (Date DateTime)
open JsonText
open Storage
open DayPlan (PlanningCheckpoint DailyPlanSnapshot Readers momentOf toOrdinal nextDay maxOrdinal minute shift)
open KeyOrder (lexLe sortBy SameLatest)

/-! ## Checkpoints of a date -/

/-- What the functions raise. -/
inductive ScanError where
  | keyError
  | typeError
  | valueError
  | overflowError
  | unicodeEncodeError
deriving DecidableEq

/-- What `load_daily_plan_snapshot` gives for a date, stale or not; `from_dict` leaves no kind empty. -/
structure Snapshots where
  load : Date → Option DailyPlanSnapshot
  kind : ∀ d s, load d = some s → ∀ c ∈ s.envelope.dailyPlan.checkpoints, c.kind ≠ []

theorem strOr_ne_nil {py : Conversions} (hstr : ∀ v, py.str v ≠ []) (d : List (Text × Value)) (k : Text)
    {default : Text} (hdefault : default ≠ []) : strOr py d k default ≠ [] := by
  unfold strOr
  split
  · next htruthy =>
    cases hv : JsonText.get d k with
    | str t =>
      rw [hv] at htruthy
      exact of_decide_eq_true htruthy
    | _ => exact hstr _
  · exact hdefault

theorem exists_of_mem_mapM {α β : Type} {f : α → Option β} {l : List α} {l' : List β}
    (h : l.mapM f = some l') {b : β} (hb : b ∈ l') : ∃ a ∈ l, f a = some b := by
  induction l generalizing l' with
  | nil =>
    cases h
    cases hb
  | cons a l ih =>
    rw [List.mapM_cons] at h
    obtain ⟨b', ha, h⟩ := Option.bind_eq_some_iff.mp h
    obtain ⟨rest, hrest, h⟩ := Option.bind_eq_some_iff.mp h
    cases h
    rcases List.mem_cons.mp hb with rfl | hb
    · exact ⟨a, List.mem_cons_self, ha⟩
    · obtain ⟨a', ha', hfa⟩ := ih hrest hb
      exact ⟨a', List.mem_cons_of_mem _ ha', hfa⟩

theorem kind_of_fromDict {py : Conversions} (hstr : ∀ v, py.str v ≠ []) {d : List (Text × Value)}
    {c : PlanningCheckpoint} (h : PlanningCheckpoint.fromDict py d = some c) : c.kind ≠ [] := by
  simp only [PlanningCheckpoint.fromDict, Option.bind_eq_bind, Option.bind_eq_some_iff] at h
  obtain ⟨_, -, _, -, _, -, _, -, _, -, _, -, _, -, _, -, _, -, h⟩ := h
  cases h
  exact strOr_ne_nil hstr d _ (by decide)

theorem kind_of_readSnapshot {py : Readers} (hstr : ∀ v, py.str v ≠ []) {planDate : Date}
    {entry : LocalCacheEntry} {snapshot : DailyPlanSnapshot}
    (h : DayPlan.readSnapshot py planDate entry = some snapshot) :
    ∀ c ∈ snapshot.envelope.dailyPlan.checkpoints, c.kind ≠ [] := by
  simp only [DayPlan.readSnapshot, Option.bind_eq_bind, Option.bind_eq_some_iff] at h
  obtain ⟨_, -, _, -, envelope, henvelope, h⟩ := h
  cases h
  simp only [DayPlan.DailyPlanEnvelope.fromDict, Option.bind_eq_bind, Option.bind_eq_some_iff] at henvelope
  obtain ⟨_, -, plan, ⟨d, -, hplan⟩, h⟩ := henvelope
  cases h
  rw [DayPlan.DailyPlan.fromDict] at hplan
  obtain ⟨_, -, hplan⟩ := Option.bind_eq_some_iff.mp hplan
  obtain ⟨_, -, hplan⟩ := Option.bind_eq_some_iff.mp hplan
  obtain ⟨_, -, hplan⟩ := Option.bind_eq_some_iff.mp hplan
  obtain ⟨_, -, hplan⟩ := Option.bind_eq_some_iff.mp hplan
  obtain ⟨_, -, hplan⟩ := Option.bind_eq_some_iff.mp hplan
  obtain ⟨_, -, hplan⟩ := Option.bind_eq_some_iff.mp hplan
  obtain ⟨_, -, hplan⟩ := Option.bind_eq_some_iff.mp hplan
  obtain ⟨_, -, hplan⟩ := Option.bind_eq_some_iff.mp hplan
  obtain ⟨_, -, hplan⟩ := Option.bind_eq_some_iff.mp hplan
  obtain ⟨_, -, hplan⟩ := Option.bind_eq_some_iff.mp hplan
  obtain ⟨_, -, hplan⟩ := Option.bind_eq_some_iff.mp hplan
  obtain ⟨checkpoints, hread, hplan⟩ := Option.bind_eq_some_iff.mp hplan
  obtain ⟨_, -, hplan⟩ := Option.bind_eq_some_iff.mp hplan
  obtain ⟨_, -, hplan⟩ := Option.bind_eq_some_iff.mp hplan
  obtain ⟨_, -, hplan⟩ := Option.bind_eq_some_iff.mp hplan
  cases hplan
  simp only [dictsAt, Option.bind_eq_bind, Option.bind_eq_some_iff] at hread
  obtain ⟨raws, -, hread⟩ := hread
  intro c hc
  obtain ⟨raw, -, hraw⟩ := exists_of_mem_mapM hread hc
  exact kind_of_fromDict hstr hraw

/-- The snapshots in the local cache; `str` of what is not a text is not empty. -/
def Snapshots.ofCache (py : Readers) (hstr : ∀ v, py.str v ≠ []) (cache : Cache) (ttlSeconds : Int)
    (now : ℚ) : Snapshots where
  load planDate := (loadJsonCache cache DayPlan.snapshotNs (DayPlan.snapshotKey planDate)
    (some ttlSeconds) true now).bind (DayPlan.readSnapshot py planDate)
  kind planDate snapshot h := by
    obtain ⟨entry, -, h⟩ := Option.bind_eq_some_iff.mp h
    exact kind_of_readSnapshot hstr h

variable (py : Readers) (snapshots : Snapshots)

/-- `build_daily_checkpoints_for_date`. -/
def buildDailyCheckpointsForDate (planDate : Date) : List PlanningCheckpoint :=
  match snapshots.load planDate with
  | none => []
  | some snapshot => snapshot.envelope.dailyPlan.checkpoints

/-- `_iter_date_range`, from `current` on. -/
def iterDateRange (current endDate : Date) : Except ScanError (List Date) :=
  if endDate.Before current then .ok []
  else
    match _hnext : nextDay current with
    | none => .error .overflowError
    | some next => do
      let dates ← iterDateRange next endDate
      .ok (current :: dates)
termination_by toOrdinal endDate + 1 - toOrdinal current
decreasing_by
  have hle := mt DayPlan.before_iff.mpr ‹¬endDate.Before current›
  have hnext := DayPlan.toOrdinal_nextDay _hnext
  omega

/-! ## The window -/

/-- `a <= b`. -/
def timeLe (a b : DateTime) : Except ScanError Bool :=
  match (momentOf a).le (momentOf b) with
  | some b => .ok b
  | none => .error .typeError

/-- `window_start <= datetime.fromisoformat(checkpoint.remind_at) <= window_end`. -/
def isDue (windowStart windowEnd : DateTime) (checkpoint : PlanningCheckpoint) : Except ScanError Bool :=
  match DateTime.fromisoformat py.isoDateTime checkpoint.remindAt with
  | none => .error .valueError
  | some remindAt => do
    let started ← timeLe windowStart remindAt
    if started then timeLe remindAt windowEnd else .ok false

/-- Checkpoints under their ids, each in the place of the first one with its id. -/
abbrev Checkpoints := Table Text PlanningCheckpoint PlanningCheckpoint.checkpointId

/-- The body of the loop over the checkpoints of a date. -/
def keepDue (windowStart windowEnd : DateTime) (checkpoints : Checkpoints)
    (checkpoint : PlanningCheckpoint) : Except ScanError Checkpoints := do
  let due ← isDue py windowStart windowEnd checkpoint
  .ok (if due then checkpoints.upsert checkpoint else checkpoints)

/-- `sorted(checkpoints.values(), key=lambda checkpoint: checkpoint.remind_at)`. -/
def inOrder (checkpoints : Checkpoints) : List PlanningCheckpoint :=
  sortBy lexLe PlanningCheckpoint.remindAt checkpoints.rows

/-- The loop of `build_due_checkpoints` over the dates, from `planDate` on. -/
def dueFrom (windowStart windowEnd : DateTime) (planDate : Date) (checkpoints : Checkpoints) :
    Except ScanError Checkpoints :=
  if windowEnd.date.Before planDate then .ok checkpoints
  else do
    let checkpoints ← (buildDailyCheckpointsForDate snapshots planDate).foldlM
      (keepDue py windowStart windowEnd) checkpoints
    match _hnext : nextDay planDate with
    | none => .error .overflowError
    | some next => dueFrom windowStart windowEnd next checkpoints
termination_by toOrdinal windowEnd.date + 1 - toOrdinal planDate
decreasing_by
  have hle := mt DayPlan.before_iff.mpr ‹¬windowEnd.date.Before planDate›
  have hnext := DayPlan.toOrdinal_nextDay _hnext
  omega

/-- `t + timedelta(minutes=n)`. -/
def addMinutes (t : DateTime) (n : Int) : Except ScanError DateTime :=
  match shift t (n * minute) with
  | some u => .ok u
  | none => .error .overflowError

/-- `build_due_checkpoints`. -/
def buildDueCheckpoints (windowStart : DateTime) (windowMinutes : Int) :
    Except ScanError (List PlanningCheckpoint) :=
  if windowMinutes ≤ 0 then .ok []
  else do
    let windowEnd ← addMinutes windowStart windowMinutes
    let checkpoints ← dueFrom py snapshots windowStart windowEnd windowStart.date Table.empty
    .ok (inOrder checkpoints)

/-! ## Prefetched checkpoints -/

/-- `CHECKPOINT_SNAPSHOT_NAMESPACE`. -/
def checkpointSnapshotNamespace : Text := lit "planning-checkpoint-snapshots"

/-- `CHECKPOINT_SNAPSHOT_PROVIDER`. -/
def checkpointSnapshotProvider : Text := lit "discord-bot"

/-- `CHECKPOINT_SNAPSHOT_TTL_SECONDS`. -/
def checkpointSnapshotTtlSeconds : Int := 2 * 60 * 60

/-- `_checkpoint_snapshot_cache_key`. -/
def checkpointSnapshotCacheKey (planDate : Date) : Text := planDate.isoformat

def prefetchPayload (referenceTime : DateTime) (planDate : Date) : JsonDict where
  members :=
    [(lit "plan_date", .str planDate.isoformat),
      (lit "generated_at", .str referenceTime.isoformat),
      (lit "checkpoints",
        ofDicts ((buildDailyCheckpointsForDate snapshots planDate).map PlanningCheckpoint.toDict))]
  valid := ⟨by simp only [List.map_cons, List.map_nil]; decide, trivial, trivial, valid_ofDicts _,
    trivial⟩

def prefetchMetadata (prefetchMinutes : Int) (planDate : Date) : JsonDict where
  members :=
    [(lit "checkpoint_count", ofInt (buildDailyCheckpointsForDate snapshots planDate).length),
      (lit "prefetch_minutes", ofInt prefetchMinutes)]
  valid := ⟨by simp only [List.map_cons, List.map_nil]; decide, trivial, trivial, trivial⟩

/-- How `prefetch_checkpoint_snapshots` calls `save_json_cache`. -/
def prefetchCall (referenceTime : DateTime) (prefetchMinutes : Int) (planDate : Date) (now : ℚ)
    (cleanup : Bool) : SaveCall where
  ns := checkpointSnapshotNamespace
  cacheKey := checkpointSnapshotCacheKey planDate
  provider := checkpointSnapshotProvider
  rangeStart := some planDate.isoformat
  rangeEnd := some planDate.isoformat
  scopeHash := planDate.isoformat
  ttlSeconds := checkpointSnapshotTtlSeconds
  payload := prefetchPayload snapshots referenceTime planDate
  metadata := prefetchMetadata snapshots prefetchMinutes planDate
  now := now
  cleanup := cleanup

/-- `CHECKPOINT_SNAPSHOT_NAMESPACE` as a parameter of a statement. -/
def checkpointNs : SqlText := ⟨checkpointSnapshotNamespace, encodable_of_ascii (by decide)⟩

/-- The key of a date as a parameter of a statement. -/
def checkpointKey (planDate : Date) : SqlText :=
  ⟨checkpointSnapshotCacheKey planDate, IsoTime.encodable_isoformat planDate⟩

/-- The body of the loop over the payload: what is due, and whether all dates are available. -/
def readRaw (windowStart windowEnd : DateTime) (acc : Checkpoints × Bool) (raw : Value) :
    Except ScanError (Checkpoints × Bool) :=
  match raw.dict? with
  | none => .ok (acc.1, false)
  | some d =>
    match PlanningCheckpoint.fromDict py.toConversions d with
    | none => .error .keyError
    | some checkpoint => do
      let checkpoints ← keepDue py windowStart windowEnd acc.1 checkpoint
      .ok (checkpoints, acc.2)

/-- The body of the loop over the dates. -/
def readDate (cache : Cache) (now : ℚ) (windowStart windowEnd : DateTime) (acc : Checkpoints × Bool)
    (planDate : Date) : Except ScanError (Checkpoints × Bool) :=
  match loadJsonCache cache checkpointNs (checkpointKey planDate) none true now with
  | none => .ok (acc.1, false)
  | some entry =>
    match (entry.payload.lookup (lit "checkpoints")).getD (.arr []) with
    | .arr raws => raws.foldlM (readRaw py windowStart windowEnd) acc
    | _ => .ok (acc.1, false)

/-- `load_prefetched_due_checkpoints`. -/
def loadPrefetchedDueCheckpoints (cache : Cache) (now : ℚ) (windowStart windowEnd : DateTime) :
    Except ScanError (List PlanningCheckpoint × Bool) := do
  let dates ← iterDateRange windowStart.date windowEnd.date
  let acc ← dates.foldlM (readDate py cache now windowStart windowEnd) (Table.empty, true)
  .ok (inOrder acc.1, acc.2)

/-- `_checkpoint_window_minutes`, with the rounding of a float. -/
def checkpointWindowMinutes (round : ℚ → ℚ) (windowStart windowEnd : DateTime) : Except ScanError Int :=
  match (momentOf windowEnd).sub (momentOf windowStart) with
  | none => .error .typeError
  | some micros =>
    let totalSeconds := max 0 (round (micros / 1000000))
    .ok (max 1 (round (totalSeconds / 60)).ceil)

/-- The branch of `_resolve_due_checkpoints` without a complete cache. -/
def plainDueCheckpoints (round : ℚ → ℚ) (windowStart windowEnd : DateTime) :
    Except ScanError (List PlanningCheckpoint) := do
  let minutes ← checkpointWindowMinutes round windowStart windowEnd
  buildDueCheckpoints py snapshots windowStart minutes

/-- `_resolve_due_checkpoints`. -/
def resolveDueCheckpoints (round : ℚ → ℚ) (cache : Cache) (now : ℚ) (windowStart windowEnd : DateTime) :
    Except ScanError (List PlanningCheckpoint) := do
  let loaded ← loadPrefetchedDueCheckpoints py cache now windowStart windowEnd
  if loaded.2 then .ok loaded.1 else plainDueCheckpoints py snapshots round windowStart windowEnd

/-! ## The dates of a window -/

/-- Some days from `d` on, as far as the calendar goes. -/
def daysFrom : Nat → Date → List Date
  | 0, _ => []
  | n + 1, d =>
    d :: match nextDay d with
      | none => []
      | some next => daysFrom n next

/-- The dates of a window. -/
def windowDates (first last : Date) : List Date := daysFrom (toOrdinal last + 1 - toOrdinal first) first

/-- The checkpoints on the dates of a window. -/
def windowItems (first last : Date) : List PlanningCheckpoint :=
  (windowDates first last).flatMap (buildDailyCheckpointsForDate snapshots)

/-- The window goes to the last date of the calendar, and the step after it raises. -/
def EndsCalendar (first last : Date) : Prop := ¬last.Before first ∧ toOrdinal last = maxOrdinal

instance decidableEndsCalendar (first last : Date) : Decidable (EndsCalendar first last) :=
  inferInstanceAs (Decidable (_ ∧ _))

variable {snapshots} {py}

theorem prefix_daysFrom {n m : Nat} (h : n ≤ m) (d : Date) : daysFrom n d <+: daysFrom m d := by
  induction n generalizing m d with
  | zero => exact List.nil_prefix
  | succ n ih =>
    obtain ⟨m, rfl⟩ : ∃ k, m = k + 1 := ⟨m - 1, by omega⟩
    rw [daysFrom, daysFrom, List.prefix_cons_inj]
    split
    · exact List.prefix_rfl
    · exact ih (by omega) _

/-- The dates of a window, from the first one on. -/
theorem windowDates_cases (first last : Date) :
    (last.Before first ∧ windowDates first last = [])
      ∨ (¬last.Before first ∧ nextDay first = none ∧ windowDates first last = [first]
        ∧ toOrdinal last = maxOrdinal)
      ∨ ∃ next, ¬last.Before first ∧ nextDay first = some next
        ∧ windowDates first last = first :: windowDates next last
        ∧ (EndsCalendar first last ↔ EndsCalendar next last) := by
  by_cases hbefore : last.Before first
  · have hlt := DayPlan.before_iff.mp hbefore
    exact .inl ⟨hbefore, by rw [windowDates, show toOrdinal last + 1 - toOrdinal first = 0 by omega]; rfl⟩
  · have hle := mt DayPlan.before_iff.mpr hbefore
    obtain ⟨n, hn⟩ : ∃ n, toOrdinal last + 1 - toOrdinal first = n + 1 :=
      ⟨toOrdinal last - toOrdinal first, by omega⟩
    refine .inr ?_
    cases hnext : nextDay first with
    | none =>
      have hmax := DayPlan.eq_max_of_nextDay hnext
      have hlast := DayPlan.toOrdinal_le last
      refine .inl ⟨hbefore, rfl, ?_, by omega⟩
      rw [windowDates, hn, daysFrom, hnext]
    | some next =>
      have hstep := DayPlan.toOrdinal_nextDay hnext
      refine .inr ⟨next, hbefore, rfl, ?_, ?_⟩
      · rw [windowDates, hn, daysFrom, hnext, windowDates, show toOrdinal last + 1 - toOrdinal next = n by omega]
      · rw [EndsCalendar, EndsCalendar, DayPlan.before_iff, DayPlan.before_iff]
        have hnextle := DayPlan.toOrdinal_le next
        omega

theorem iterDateRange_eq (first last : Date) : iterDateRange first last
    = if EndsCalendar first last then .error .overflowError else .ok (windowDates first last) := by
  induction hn : toOrdinal last + 1 - toOrdinal first generalizing first with
  | zero =>
    have hbefore : last.Before first := DayPlan.before_iff.mpr (by omega)
    rw [iterDateRange, if_pos hbefore, if_neg fun h => h.1 hbefore, windowDates, hn, daysFrom]
  | succ n ih =>
    rw [iterDateRange]
    rcases windowDates_cases first last with ⟨hbefore, -⟩ | ⟨hbefore, hnext, -, hmax⟩
      | ⟨next, hbefore, hnext, hdates, hends⟩
    · exact absurd (DayPlan.before_iff.mp hbefore) (by omega)
    · rw [if_neg hbefore, if_pos ⟨hbefore, hmax⟩]
      split
      · rfl
      · next h => exact absurd (hnext.symm.trans h) (by simp)
    · have hstep := DayPlan.toOrdinal_nextDay hnext
      rw [if_neg hbefore]
      split
      · next h => exact absurd (hnext.symm.trans h) (by simp)
      · next next' h =>
        obtain rfl : next = next' := Option.some.inj (hnext.symm.trans h)
        rw [ih next (by omega), hdates]
        by_cases hend : EndsCalendar next last
        · rw [if_pos hend, if_pos (hends.mpr hend)]
          rfl
        · rw [if_neg hend, if_neg (mt hends.mp hend)]
          rfl

/-! ## What a path reads -/

/-- Both times have an offset, or neither has. -/
def SameKind (t u : DateTime) : Prop := (momentOf t).offset.isSome = (momentOf u).offset.isSome

instance decidableSameKind (t u : DateTime) : Decidable (SameKind t u) :=
  inferInstanceAs (Decidable (_ = _))

/-- What a checkpoint raises in a window that starts at `windowStart`. -/
def raises (py : Readers) (windowStart : DateTime) (checkpoint : PlanningCheckpoint) : Option ScanError :=
  match DateTime.fromisoformat py.isoDateTime checkpoint.remindAt with
  | none => some .valueError
  | some remindAt =>
    if SameKind windowStart remindAt then none else some .typeError

/-- The checkpoint is to be sent in the window. -/
def dueIn (py : Readers) (windowStart windowEnd : DateTime) (checkpoint : PlanningCheckpoint) : Bool :=
  match DateTime.fromisoformat py.isoDateTime checkpoint.remindAt with
  | none => false
  | some remindAt =>
    (momentOf windowStart).le (momentOf remindAt) = some true
      && (momentOf remindAt).le (momentOf windowEnd) = some true

variable {windowStart windowEnd : DateTime}

theorem exists_le_iff {t u : DateTime} : (∃ b, (momentOf t).le (momentOf u) = some b) ↔ SameKind t u := by
  unfold DayPlan.Moment.le DayPlan.Moment.sub SameKind
  cases (momentOf t).offset <;> cases (momentOf u).offset <;> simp

theorem isDue_eq (hkind : SameKind windowStart windowEnd) (checkpoint : PlanningCheckpoint) :
    isDue py windowStart windowEnd checkpoint
      = match raises py windowStart checkpoint with
        | some e => .error e
        | none => .ok (dueIn py windowStart windowEnd checkpoint) := by
  unfold isDue raises dueIn
  cases DateTime.fromisoformat py.isoDateTime checkpoint.remindAt with
  | none => rfl
  | some remindAt =>
    dsimp only
    by_cases hsame : SameKind windowStart remindAt
    · obtain ⟨b, hb⟩ := exists_le_iff.mpr hsame
      obtain ⟨b', hb'⟩ := exists_le_iff.mpr (hsame.symm.trans hkind)
      rw [if_pos hsame, timeLe, timeLe, hb, hb']
      cases b <;> cases b' <;> rfl
    · have hnone : (momentOf windowStart).le (momentOf remindAt) = none := by
        cases hle : (momentOf windowStart).le (momentOf remindAt) with
        | none => rfl
        | some b => exact absurd (exists_le_iff.mp ⟨b, hle⟩) hsame
      rw [if_neg hsame, timeLe, hnone]
      rfl

/-- **A loop over checkpoints** stops at the first one that raises, else it keeps what is due. -/
theorem foldlM_keepDue (hkind : SameKind windowStart windowEnd) (l : List PlanningCheckpoint)
    (checkpoints : Checkpoints) :
    l.foldlM (keepDue py windowStart windowEnd) checkpoints
      = match l.findSome? (raises py windowStart) with
        | some e => .error e
        | none => .ok ((l.filter (dueIn py windowStart windowEnd)).foldl Table.upsert checkpoints) := by
  induction l generalizing checkpoints with
  | nil => rfl
  | cons c l ih =>
    rw [List.foldlM_cons, keepDue, isDue_eq hkind, List.findSome?_cons]
    cases raises py windowStart c with
    | some e => rfl
    | none =>
      show l.foldlM _ _ = _
      rw [ih]
      cases hdue : dueIn py windowStart windowEnd c with
      | true => rw [List.filter_cons_of_pos hdue, List.foldl_cons, if_pos rfl]
      | false => rw [List.filter_cons_of_neg (by simp [hdue]), if_neg Bool.false_ne_true]

theorem dueFrom_eq (planDate : Date) (checkpoints : Checkpoints) :
    dueFrom py snapshots windowStart windowEnd planDate checkpoints = (do
      let checkpoints ← (windowItems snapshots planDate windowEnd.date).foldlM
        (keepDue py windowStart windowEnd) checkpoints
      if EndsCalendar planDate windowEnd.date then .error .overflowError else .ok checkpoints) := by
  induction hn : toOrdinal windowEnd.date + 1 - toOrdinal planDate generalizing planDate checkpoints with
  | zero =>
    have hbefore : windowEnd.date.Before planDate := DayPlan.before_iff.mpr (by omega)
    rw [dueFrom, if_pos hbefore, windowItems, windowDates, hn]
    show _ = if _ then _ else _
    rw [if_neg fun h : EndsCalendar planDate windowEnd.date => h.1 hbefore]
  | succ n ih =>
    rw [dueFrom]
    rcases windowDates_cases planDate windowEnd.date with ⟨hbefore, -⟩ | ⟨hbefore, hnext, hdates, hmax⟩
      | ⟨next, hbefore, hnext, hdates, hends⟩
    · exact absurd (DayPlan.before_iff.mp hbefore) (by omega)
    · have hend : EndsCalendar planDate windowEnd.date := ⟨hbefore, hmax⟩
      rw [if_neg hbefore, windowItems, hdates, List.flatMap_singleton]
      refine bind_congr fun checkpoints => ?_
      rw [if_pos hend]
      split
      · rfl
      · next h => exact absurd (hnext.symm.trans h) (by simp)
    · have hstep := DayPlan.toOrdinal_nextDay hnext
      rw [if_neg hbefore, windowItems, hdates, List.flatMap_cons, List.foldlM_append, bind_assoc]
      refine bind_congr fun checkpoints => ?_
      split
      · next h => exact absurd (hnext.symm.trans h) (by simp)
      · next next' h =>
        obtain rfl : next = next' := Option.some.inj (hnext.symm.trans h)
        rw [ih next checkpoints (by omega), windowItems]
        simp only [hends]

/-- The checkpoints of a window: what is raised, or the due ones in order. -/
def scanned (py : Readers) (windowStart windowEnd : DateTime) (l : List PlanningCheckpoint) :
    Except ScanError (List PlanningCheckpoint) :=
  match l.findSome? (raises py windowStart) with
  | some e => .error e
  | none =>
    .ok (inOrder (Table.ofRows PlanningCheckpoint.checkpointId
      (l.filter (dueIn py windowStart windowEnd))))

/-- **What the plain path reads.** -/
theorem buildDueCheckpoints_eq {minutes : Int} (hpos : 0 < minutes) {stop : DateTime}
    (hstop : shift windowStart (minutes * minute) = some stop) :
    buildDueCheckpoints py snapshots windowStart minutes = (do
      let due ← scanned py windowStart stop (windowItems snapshots windowStart.date stop.date)
      if EndsCalendar windowStart.date stop.date then .error .overflowError else .ok due) := by
  have hkind : SameKind windowStart stop := by
    rw [SameKind, DayPlan.momentOf_shift hstop]
  rw [buildDueCheckpoints, if_neg (not_le.mpr hpos), addMinutes, hstop]
  show dueFrom py snapshots windowStart stop windowStart.date Table.empty >>= _ = _
  rw [dueFrom_eq, foldlM_keepDue hkind, scanned]
  cases (windowItems snapshots windowStart.date stop.date).findSome? (raises py windowStart) with
  | some e => rfl
  | none =>
    show (if _ then _ else _) >>= _ = if _ then _ else _
    split <;> rfl

/-! ## What a prefetch leaves -/

/-- The entry of a date is the one that a prefetch saves from the snapshots. -/
def Prefetched (snapshots : Snapshots) (cache : Cache) (planDate : Date) : Prop :=
  ∃ referenceTime prefetchMinutes now cleanup row,
    (prefetchCall snapshots referenceTime prefetchMinutes planDate now cleanup).Writes row
      ∧ cache.find? (checkpointNs, checkpointKey planDate) = some row

theorem kind_of_mem {planDate : Date} {c : PlanningCheckpoint}
    (h : c ∈ buildDailyCheckpointsForDate snapshots planDate) : c.kind ≠ [] := by
  unfold buildDailyCheckpointsForDate at h
  split at h
  · cases h
  · next s hs => exact snapshots.kind _ s hs c h

theorem key_of_writes {referenceTime : DateTime} {prefetchMinutes : Int} {planDate : Date} {now : ℚ}
    {cleanup : Bool} {row : CacheRow}
    (h : (prefetchCall snapshots referenceTime prefetchMinutes planDate now cleanup).Writes row) :
    row.key = (checkpointNs, checkpointKey planDate) :=
  Prod.ext (Subtype.ext h.ns) (Subtype.ext h.cacheKey)

/-- **The entry of a date is read as its checkpoints.** -/
theorem readDate_eq {cache : Cache} {planDate : Date} (h : Prefetched snapshots cache planDate)
    (now : ℚ) (acc : Checkpoints × Bool) :
    readDate py cache now windowStart windowEnd acc planDate = (do
      let checkpoints ← (buildDailyCheckpointsForDate snapshots planDate).foldlM
        (keepDue py windowStart windowEnd) acc.1
      .ok (checkpoints, acc.2)) := by
  obtain ⟨referenceTime, prefetchMinutes, saved, cleanup, row, hrow, hfind⟩ := h
  have hpayload : (prefetchPayload snapshots referenceTime planDate).sorted.members.lookup
      (lit "checkpoints") = some (.arr ((buildDailyCheckpointsForDate snapshots planDate).map
        fun c => .obj c.toDict.sorted.members)) := by
    rw [lookup_sorted_of (v := ofDicts ((buildDailyCheckpointsForDate snapshots planDate).map
      PlanningCheckpoint.toDict)) rfl, sortKeys_ofDicts, ofDicts, List.map_map, List.map_map]
    rfl
  rw [readDate, loadJsonCache_of_writes hrow hfind (.inl rfl)]
  show (match ((prefetchPayload snapshots referenceTime planDate).sorted.members.lookup
    (lit "checkpoints")).getD (.arr []) with
    | .arr raws => raws.foldlM (readRaw py windowStart windowEnd) acc
    | _ => .ok (acc.1, false)) = _
  rw [hpayload]
  show List.foldlM _ acc (List.map _ _) = _
  have hkind : ∀ c ∈ buildDailyCheckpointsForDate snapshots planDate, c.kind ≠ [] :=
    fun c hc => kind_of_mem hc
  revert hkind
  generalize buildDailyCheckpointsForDate snapshots planDate = l
  intro hkind
  induction l generalizing acc with
  | nil => rfl
  | cons c l ih =>
    have hread : PlanningCheckpoint.fromDict py.toConversions c.toDict.sorted.members = some c := by
      rw [PlanningCheckpoint.fromDict_toDict, PlanningCheckpoint.defaulted, DayPlan.orDefault,
        if_neg (hkind c List.mem_cons_self)]
    rw [List.map_cons, List.foldlM_cons, List.foldlM_cons, readRaw]
    dsimp only [Value.dict?]
    rw [hread]
    dsimp only
    rw [bind_assoc, bind_assoc]
    refine bind_congr fun checkpoints => ?_
    exact ih (checkpoints, acc.2) fun c hc => hkind c (List.mem_cons_of_mem _ hc)

/-- **What the prefetched path reads.** -/
theorem loadPrefetchedDueCheckpoints_eq {cache : Cache} {dates : List Date}
    (hkind : SameKind windowStart windowEnd)
    (hdates : iterDateRange windowStart.date windowEnd.date = .ok dates)
    (hcache : ∀ d ∈ dates, Prefetched snapshots cache d) (now : ℚ) :
    loadPrefetchedDueCheckpoints py cache now windowStart windowEnd
      = (scanned py windowStart windowEnd (windowItems snapshots windowStart.date windowEnd.date)).map
        (·, true) := by
  have hloop : ∀ acc : Checkpoints × Bool,
      dates.foldlM (readDate py cache now windowStart windowEnd) acc = (do
      let checkpoints ← (dates.flatMap (buildDailyCheckpointsForDate snapshots)).foldlM
        (keepDue py windowStart windowEnd) acc.1
      .ok (checkpoints, acc.2)) := by
    clear hdates
    induction dates with
    | nil => exact fun _ => rfl
    | cons d dates ih =>
      intro acc
      rw [List.foldlM_cons, readDate_eq (hcache d List.mem_cons_self), List.flatMap_cons,
        List.foldlM_append, bind_assoc, bind_assoc]
      refine bind_congr fun checkpoints => ?_
      exact ih (fun d hd => hcache d (List.mem_cons_of_mem _ hd)) (checkpoints, acc.2)
  rw [loadPrefetchedDueCheckpoints, hdates]
  show dates.foldlM (readDate py cache now windowStart windowEnd) (Table.empty, true) >>= _ = _
  rw [hloop]
  rw [iterDateRange_eq] at hdates
  split at hdates
  · cases hdates
  · cases hdates
    show ((windowItems snapshots windowStart.date windowEnd.date).foldlM
      (keepDue py windowStart windowEnd) Table.empty >>= _) >>= _ = _
    rw [foldlM_keepDue hkind, scanned]
    cases (windowItems snapshots windowStart.date windowEnd.date).findSome? (raises py windowStart) with
    | some e => rfl
    | none => rfl

/-! ## When the paths agree -/

theorem raises_ne_overflow (c : PlanningCheckpoint) :
    raises py windowStart c ≠ some .overflowError := by
  unfold raises
  split
  · simp
  · split <;> simp

theorem inOrder_eq_iff (l l' : List PlanningCheckpoint) :
    inOrder (Table.ofRows PlanningCheckpoint.checkpointId l)
        = inOrder (Table.ofRows PlanningCheckpoint.checkpointId l') ↔
      SameLatest PlanningCheckpoint.checkpointId PlanningCheckpoint.remindAt l l' :=
  KeyOrder.sortBy_ofRows_eq_iff (fun _ _ _ => KeyOrder.lexLe_trans) KeyOrder.lexLe_total
    fun _ _ => KeyOrder.lexLe_antisymm

/-- Two paths that read the same checkpoints, and one of them some more. -/
theorem scanned_append_iff (windowEnd stop : DateTime) {common more more' : List PlanningCheckpoint}
    (hmore : more = [] ∨ more' = []) (ends : Prop) [Decidable ends] :
    scanned py windowStart windowEnd (common ++ more) = (do
        let due ← scanned py windowStart stop (common ++ more')
        if ends then .error .overflowError else .ok due) ↔
      (∃ c ∈ common, raises py windowStart c ≠ none) ∨
        (¬ends ∧ (∀ c ∈ common ++ more ++ more', raises py windowStart c = none) ∧
          SameLatest PlanningCheckpoint.checkpointId PlanningCheckpoint.remindAt
            ((common ++ more).filter (dueIn py windowStart windowEnd))
            ((common ++ more').filter (dueIn py windowStart stop))) := by
  unfold scanned
  rw [List.findSome?_append, List.findSome?_append]
  cases hcommon : common.findSome? (raises py windowStart) with
  | some e =>
    obtain ⟨c, hc, hraises⟩ := List.exists_of_findSome?_eq_some hcommon
    exact iff_of_true rfl (.inl ⟨c, hc, by simp [hraises]⟩)
  | none =>
    have hnone := List.findSome?_eq_none_iff.mp hcommon
    have hfirst : ¬∃ c ∈ common, raises py windowStart c ≠ none := fun ⟨c, hc, h⟩ => h (hnone c hc)
    rw [or_iff_right hfirst, Option.none_or, Option.none_or]
    cases hextra : more.findSome? (raises py windowStart) with
    | some e =>
      obtain ⟨c, hc, hraises⟩ := List.exists_of_findSome?_eq_some hextra
      have hno : ¬∀ c ∈ common ++ more ++ more', raises py windowStart c = none := fun hall => by
        have h := hall c (List.mem_append_left _ (List.mem_append_right _ hc))
        rw [hraises] at h
        cases h
      refine iff_of_false ?_ fun h => hno h.2.1
      have hempty : more' = [] := hmore.resolve_left fun h => by
        rw [h] at hc
        cases hc
      rw [hempty]
      show ¬Except.error e = if ends then _ else _
      split
      · rintro ⟨⟩
        exact raises_ne_overflow c hraises
      · simp
    | none =>
      cases hextra' : more'.findSome? (raises py windowStart) with
      | some e =>
        obtain ⟨c, hc, hraises⟩ := List.exists_of_findSome?_eq_some hextra'
        refine iff_of_false (by rintro ⟨⟩) fun h => ?_
        have h := h.2.1 c (List.mem_append_right _ hc)
        rw [hraises] at h
        cases h
      | none =>
        have hmem := List.findSome?_eq_none_iff.mp hextra
        have hmem' := List.findSome?_eq_none_iff.mp hextra'
        have hall : ∀ c ∈ common ++ more ++ more', raises py windowStart c = none := by
          intro c hc
          rcases List.mem_append.mp hc with hc | hc
          · exact (List.mem_append.mp hc).elim (hnone c) (hmem c)
          · exact hmem' c hc
        show Except.ok _ = (if ends then _ else _) ↔ _
        split
        · next hends => exact iff_of_false (by rintro ⟨⟩) fun h => h.1 hends
        · next hends =>
          rw [Except.ok.injEq, inOrder_eq_iff]
          exact ⟨fun h => ⟨hends, hall, h⟩, fun h => h.2.2⟩

/-- The window up to `stop` is read as the one up to `windowEnd`: a checkpoint on a date of both raises,
or none does, and for each id the same checkpoint is the last that is due, those with one text of
`remind_at` in the same order. -/
def ReadAlike (py : Readers) (snapshots : Snapshots) (windowStart windowEnd stop : DateTime) : Prop :=
  (∃ d ∈ windowDates windowStart.date windowEnd.date, d ∈ windowDates windowStart.date stop.date ∧
    ∃ c ∈ buildDailyCheckpointsForDate snapshots d, raises py windowStart c ≠ none) ∨
  (¬EndsCalendar windowStart.date stop.date ∧
    (∀ d, d ∈ windowDates windowStart.date windowEnd.date ∨ d ∈ windowDates windowStart.date stop.date →
      ∀ c ∈ buildDailyCheckpointsForDate snapshots d, raises py windowStart c = none) ∧
    SameLatest PlanningCheckpoint.checkpointId PlanningCheckpoint.remindAt
      ((windowItems snapshots windowStart.date windowEnd.date).filter (dueIn py windowStart windowEnd))
      ((windowItems snapshots windowStart.date stop.date).filter (dueIn py windowStart stop)))

theorem windowDates_prefix_or (first last last' : Date) :
    windowDates first last <+: windowDates first last' ∨ windowDates first last' <+: windowDates first last := by
  rcases le_total (toOrdinal last) (toOrdinal last') with h | h
  · exact .inl (prefix_daysFrom (by omega) first)
  · exact .inr (prefix_daysFrom (by omega) first)

/-- Two paths that read the same dates, and one of them some more. -/
theorem scanned_dates_iff (windowEnd stop : DateTime) {common more more' : List Date}
    (hmore : more = [] ∨ more' = []) (ends : Prop) [Decidable ends] :
    scanned py windowStart windowEnd
        ((common ++ more).flatMap (buildDailyCheckpointsForDate snapshots)) = (do
        let due ← scanned py windowStart stop
          ((common ++ more').flatMap (buildDailyCheckpointsForDate snapshots))
        if ends then .error .overflowError else .ok due) ↔
      (∃ d ∈ common, ∃ c ∈ buildDailyCheckpointsForDate snapshots d, raises py windowStart c ≠ none) ∨
        (¬ends ∧ (∀ d ∈ common ++ more ++ more', ∀ c ∈ buildDailyCheckpointsForDate snapshots d,
            raises py windowStart c = none) ∧
          SameLatest PlanningCheckpoint.checkpointId PlanningCheckpoint.remindAt
            (((common ++ more).flatMap (buildDailyCheckpointsForDate snapshots)).filter
              (dueIn py windowStart windowEnd))
            (((common ++ more').flatMap (buildDailyCheckpointsForDate snapshots)).filter
              (dueIn py windowStart stop))) := by
  have hitems : more.flatMap (buildDailyCheckpointsForDate snapshots) = []
      ∨ more'.flatMap (buildDailyCheckpointsForDate snapshots) = [] := by
    refine hmore.imp ?_ ?_ <;> rintro rfl <;> rfl
  rw [List.flatMap_append, List.flatMap_append, scanned_append_iff windowEnd stop hitems ends,
    ← List.flatMap_append, ← List.flatMap_append, ← List.flatMap_append]
  refine or_congr ?_ (and_congr_right fun _ => and_congr_left fun _ => ?_)
  · constructor
    · rintro ⟨c, hc, hraises⟩
      obtain ⟨d, hd, hc⟩ := List.mem_flatMap.mp hc
      exact ⟨d, hd, c, hc, hraises⟩
    · rintro ⟨d, hd, c, hc, hraises⟩
      exact ⟨c, List.mem_flatMap.mpr ⟨d, hd, hc⟩, hraises⟩
  · constructor
    · exact fun h d hd c hc => h c (List.mem_flatMap.mpr ⟨d, hd, hc⟩)
    · intro h c hc
      obtain ⟨d, hd, hc⟩ := List.mem_flatMap.mp hc
      exact h d hd c hc

theorem scanned_eq_iff_readAlike (stop : DateTime) :
    scanned py windowStart windowEnd (windowItems snapshots windowStart.date windowEnd.date) = (do
        let due ← scanned py windowStart stop (windowItems snapshots windowStart.date stop.date)
        if EndsCalendar windowStart.date stop.date then .error .overflowError else .ok due) ↔
      ReadAlike py snapshots windowStart windowEnd stop := by
  unfold ReadAlike windowItems
  rcases windowDates_prefix_or windowStart.date windowEnd.date stop.date with ⟨extra, h⟩ | ⟨extra, h⟩
  · have hiff := @scanned_dates_iff py snapshots windowStart windowEnd stop
      (windowDates windowStart.date windowEnd.date) [] extra (.inl rfl)
      (EndsCalendar windowStart.date stop.date) _
    rw [List.append_nil, h] at hiff
    rw [hiff, ← h]
    refine or_congr ⟨?_, ?_⟩ (and_congr_right fun _ => and_congr_left fun _ => ?_)
    · exact fun ⟨d, hd, hraises⟩ => ⟨d, hd, List.mem_append_left _ hd, hraises⟩
    · exact fun ⟨d, hd, _, hraises⟩ => ⟨d, hd, hraises⟩
    · refine forall_congr' fun d => imp_congr_left ?_
      rw [List.mem_append, or_self_left]
  · have hiff := @scanned_dates_iff py snapshots windowStart windowEnd stop
      (windowDates windowStart.date stop.date) extra [] (.inr rfl)
      (EndsCalendar windowStart.date stop.date) _
    rw [List.append_nil, List.append_nil, h] at hiff
    rw [hiff, ← h]
    refine or_congr ⟨?_, ?_⟩ (and_congr_right fun _ => and_congr_left fun _ => ?_)
    · exact fun ⟨d, hd, hraises⟩ => ⟨d, List.mem_append_left _ hd, hd, hraises⟩
    · exact fun ⟨d, _, hd, hraises⟩ => ⟨d, hd, hraises⟩
    · refine forall_congr' fun d => imp_congr_left ?_
      rw [List.mem_append, or_comm (b := d ∈ windowDates windowStart.date stop.date), or_self_left,
        or_comm]

theorem sameKind_of_lt (h : (momentOf windowStart).lt (momentOf windowEnd) = some true) :
    SameKind windowStart windowEnd := by
  rw [← exists_le_iff]
  unfold DayPlan.Moment.lt at h
  obtain ⟨micros, hsub, -⟩ := Option.map_eq_some_iff.mp h
  exact ⟨_, by rw [DayPlan.Moment.le, hsub]; rfl⟩

theorem exists_windowMinutes (round : ℚ → ℚ) (h : SameKind windowStart windowEnd) :
    ∃ minutes, checkpointWindowMinutes round windowStart windowEnd = .ok minutes ∧ 0 < minutes := by
  obtain ⟨b, hb⟩ := exists_le_iff.mpr h.symm
  obtain ⟨micros, hsub, -⟩ := Option.map_eq_some_iff.mp hb
  refine ⟨_, by rw [checkpointWindowMinutes, hsub], ?_⟩
  exact Int.lt_of_lt_of_le Int.zero_lt_one (le_max_left _ _)

/-- The windows are read alike when they end on one date and the same checkpoints are due in both. -/
theorem readAlike_of_due {stop : DateTime} (hdate : stop.date = windowEnd.date)
    (hends : ¬EndsCalendar windowStart.date windowEnd.date)
    (hdue : ∀ c ∈ windowItems snapshots windowStart.date windowEnd.date,
      dueIn py windowStart windowEnd c = dueIn py windowStart stop c) :
    ReadAlike py snapshots windowStart windowEnd stop := by
  unfold ReadAlike
  rw [hdate]
  by_cases h : ∃ d ∈ windowDates windowStart.date windowEnd.date,
      ∃ c ∈ buildDailyCheckpointsForDate snapshots d, raises py windowStart c ≠ none
  · obtain ⟨d, hd, hraises⟩ := h
    exact .inl ⟨d, hd, hd, hraises⟩
  · refine .inr ⟨hends, fun d hd c hc => ?_, ?_⟩
    · by_contra hraises
      exact h ⟨d, hd.elim id id, c, hc, hraises⟩
    · rw [List.filter_congr hdue]
      exact ⟨fun _ => Iff.rfl, fun _ _ _ _ _ => Iff.rfl⟩

/-- **When the two paths agree.** With the checkpoints of the dates of the window in the cache, the
prefetched path is taken, and it gives what the plain path gives exactly when the window of whole
minutes is read as the window itself. -/
theorem prefetched_eq_plain_iff (py : Readers) (snapshots : Snapshots) (round : ℚ → ℚ) {cache : Cache}
    {windowStart windowEnd : DateTime} {dates : List Date}
    (hlt : (momentOf windowStart).lt (momentOf windowEnd) = some true)
    (hdates : iterDateRange windowStart.date windowEnd.date = .ok dates)
    (hcache : ∀ d ∈ dates, Prefetched snapshots cache d) (now : ℚ) :
    resolveDueCheckpoints py snapshots round cache now windowStart windowEnd
        = (loadPrefetchedDueCheckpoints py cache now windowStart windowEnd).map Prod.fst ∧
      ((loadPrefetchedDueCheckpoints py cache now windowStart windowEnd).map Prod.fst
          = plainDueCheckpoints py snapshots round windowStart windowEnd ↔
        ∃ minutes stop, checkpointWindowMinutes round windowStart windowEnd = .ok minutes ∧
          shift windowStart (minutes * minute) = some stop ∧
            ReadAlike py snapshots windowStart windowEnd stop) := by
  have hkind := sameKind_of_lt hlt
  obtain ⟨minutes, hminutes, hpos⟩ := exists_windowMinutes round hkind
  have hload := @loadPrefetchedDueCheckpoints_eq py snapshots _ _ _ _ hkind hdates hcache now
  have hfirst : (loadPrefetchedDueCheckpoints py cache now windowStart windowEnd).map Prod.fst
      = scanned py windowStart windowEnd (windowItems snapshots windowStart.date windowEnd.date) := by
    rw [hload]
    cases scanned py windowStart windowEnd (windowItems snapshots windowStart.date windowEnd.date) with
    | error e => rfl
    | ok due => rfl
  constructor
  · rw [resolveDueCheckpoints, hload]
    cases scanned py windowStart windowEnd (windowItems snapshots windowStart.date windowEnd.date) with
    | error e => rfl
    | ok due => rfl
  · have hplain : plainDueCheckpoints py snapshots round windowStart windowEnd
        = buildDueCheckpoints py snapshots windowStart minutes := by
      rw [plainDueCheckpoints, hminutes]
      rfl
    rw [hfirst, hplain]
    cases hstop : shift windowStart (minutes * minute) with
    | none =>
      -- the end of the window of whole minutes is not in the calendar
      refine iff_of_false ?_ ?_
      · rw [buildDueCheckpoints, if_neg (not_le.mpr hpos), addMinutes, hstop, scanned]
        split
        · next e he =>
          rintro ⟨⟩
          obtain ⟨c, -, hraises⟩ := List.exists_of_findSome?_eq_some he
          exact raises_ne_overflow c hraises
        · rintro ⟨⟩
      · rintro ⟨minutes', stop, hminutes', hstop', -⟩
        rw [hminutes] at hminutes'
        cases hminutes'
        rw [hstop] at hstop'
        cases hstop'
    | some stop =>
      rw [buildDueCheckpoints_eq hpos hstop, scanned_eq_iff_readAlike]
      constructor
      · exact fun h => ⟨minutes, stop, hminutes, hstop, h⟩
      · rintro ⟨minutes', stop', hminutes', hstop', h⟩
        rw [hminutes] at hminutes'
        cases hminutes'
        rw [hstop] at hstop'
        cases hstop'
        exact h

/-! ## A checkpoint of one day -/

/-- The plan of one day, with its one checkpoint at 9:55. -/
def sampleSnapshots : Snapshots where
  load d := if d = DayPlan.sampleDate then
      some ⟨d, DayPlan.sampleClock, DayPlan.sampleEnvelope, false, [], []⟩
    else none
  kind d snapshot h := by
    split at h
    · cases h
      intro c hc
      obtain rfl := List.mem_singleton.mp hc
      decide
    · cases h

/-- Nine o'clock and some minutes and seconds. -/
def morning (minutes seconds : Fin 60) : DateTime :=
  ⟨DayPlan.sampleDate, 9, minutes, seconds, 0, some (IsoTime.hoursEast 9)⟩

theorem exists_prefetched :
    ∃ cache, ∀ d ∈ [DayPlan.sampleDate], Prefetched sampleSnapshots cache d := by
  have hstorable : (prefetchCall sampleSnapshots (morning 50 0) 5 DayPlan.sampleDate 0 true).Storable :=
    { ns := checkpointNs.2
      cacheKey := IsoTime.encodable_isoformat _
      provider := encodable_of_ascii (t := checkpointSnapshotProvider) (by decide)
      rangeStart := by
        rintro t ⟨⟩
        exact IsoTime.encodable_isoformat _
      rangeEnd := by
        rintro t ⟨⟩
        exact IsoTime.encodable_isoformat _
      scopeHash := IsoTime.encodable_isoformat _
      payload := encodable_dumpsDict (encodable_of_all (by decide))
      metadata := encodable_dumpsDict (encodable_of_all (by decide)) }
  obtain ⟨cache, row, -, hfind, hrow⟩ := saveJsonCache_of_storable hstorable (by decide) Table.empty
  refine ⟨cache, fun d hd => ?_⟩
  obtain rfl := List.mem_singleton.mp hd
  exact ⟨_, _, _, _, row, hrow, by rw [← key_of_writes hrow]; exact hfind⟩

theorem iterDateRange_morning (minutes seconds minutes' seconds' : Fin 60) :
    iterDateRange (morning minutes seconds).date (morning minutes' seconds').date
      = .ok [DayPlan.sampleDate] := by
  show iterDateRange DayPlan.sampleDate DayPlan.sampleDate = _
  rw [iterDateRange_eq]
  decide

theorem checkpointWindowMinutes_eq (micros minutes : Int)
    (hsub : (momentOf windowEnd).sub (momentOf windowStart) = some micros)
    (hlow : 60000000 * (minutes - 1) < micros) (hhigh : micros ≤ 60000000 * minutes)
    (hpos : 0 < minutes) : checkpointWindowMinutes id windowStart windowEnd = .ok minutes := by
  have hlow : (60000000 : ℚ) * (minutes - 1) < micros := by exact_mod_cast hlow
  have hhigh : (micros : ℚ) ≤ 60000000 * minutes := by exact_mod_cast hhigh
  have hone : (1 : ℚ) ≤ minutes := by exact_mod_cast hpos
  have hseconds : (0 : ℚ) ≤ micros / 1000000 := by
    refine div_nonneg ?_ (by norm_num)
    linarith
  have hceil : ((micros : ℚ) / 1000000 / 60).ceil = minutes := by
    refine Int.le_antisymm (Rat.ceil_le_iff.mpr ?_) (Int.le_of_sub_one_lt (Rat.lt_ceil_iff.mpr ?_))
    · rw [div_div, div_le_iff₀ (by norm_num)]
      linarith
    · rw [div_div, lt_div_iff₀ (by norm_num), Int.cast_sub, Int.cast_one]
      linarith
  rw [checkpointWindowMinutes, hsub]
  show Except.ok (max 1 (max 0 ((micros : ℚ) / 1000000) / 60).ceil) = _
  rw [max_eq_right hseconds, hceil, max_eq_right (by omega)]

/-- In a window of a whole minute the two paths give the same. -/
theorem wholeMinute_agrees : ∃ cache,
    (loadPrefetchedDueCheckpoints DayPlan.sampleReaders cache 0 (morning 54 0) (morning 55 0)).map
        Prod.fst
      = plainDueCheckpoints DayPlan.sampleReaders sampleSnapshots id (morning 54 0) (morning 55 0) := by
  obtain ⟨cache, hcache⟩ := exists_prefetched
  refine ⟨cache, (prefetched_eq_plain_iff DayPlan.sampleReaders sampleSnapshots id (by decide)
    (iterDateRange_morning 54 0 55 0) hcache 0).2.mpr ⟨1, morning 55 0, ?_, ?_, ?_⟩⟩
  · exact checkpointWindowMinutes_eq 60000000 1 (by decide) (by decide) (by decide) (by decide)
  · decide
  · exact readAlike_of_due rfl (by decide) fun _ _ => rfl

/-- **The plain path gives a checkpoint half a minute after the end of the window.** -/
theorem halfMinute_differs : ∃ cache,
    (∀ d ∈ [DayPlan.sampleDate], Prefetched sampleSnapshots cache d) ∧
      loadPrefetchedDueCheckpoints DayPlan.sampleReaders cache 0 (morning 54 0) (morning 54 30)
        = .ok ([], true) ∧
      plainDueCheckpoints DayPlan.sampleReaders sampleSnapshots id (morning 54 0) (morning 54 30)
        = .ok [DayPlan.sampleCheckpoint] := by
  obtain ⟨cache, hcache⟩ := exists_prefetched
  refine ⟨cache, hcache, ?_, ?_⟩
  · rw [loadPrefetchedDueCheckpoints_eq (by decide) (iterDateRange_morning 54 0 54 30) hcache]
    decide
  · have hminutes : checkpointWindowMinutes id (morning 54 0) (morning 54 30) = .ok 1 :=
      checkpointWindowMinutes_eq 30000000 1 (by decide) (by decide) (by decide) (by decide)
    have hstop : shift (morning 54 0) (1 * minute) = some (morning 55 0) := by decide
    have hitems : windowItems sampleSnapshots (morning 54 0).date (morning 55 0).date
        = [DayPlan.sampleCheckpoint] := rfl
    have hraises : raises DayPlan.sampleReaders (morning 54 0) DayPlan.sampleCheckpoint = none := by
      decide
    have hdue : dueIn DayPlan.sampleReaders (morning 54 0) (morning 55 0) DayPlan.sampleCheckpoint
        = true := by decide
    have hends : ¬EndsCalendar (morning 54 0).date (morning 55 0).date := by decide
    rw [plainDueCheckpoints, hminutes, Raising.bind_ok, buildDueCheckpoints_eq (by decide) hstop, hitems,
      scanned, List.findSome?_cons, hraises, List.findSome?_nil, List.filter_cons_of_pos hdue,
      List.filter_nil]
    dsimp only
    rw [Raising.bind_ok, if_neg hends]
    rfl

end ForgeKit.Discord
