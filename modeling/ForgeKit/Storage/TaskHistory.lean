import ForgeKit.DayPlan.TimeShift
import ForgeKit.Lib.Grouping
import ForgeKit.Lib.Raising
import ForgeKit.Storage.LocalCache
import Mathlib.Data.Rat.Floor

/-!
# The history of checkpoints (`yule_storage/task_history`)

Signals of how often a task was done, for one title by two aggregates and for many titles by two
grouped queries whose rows are merged into defaults.

* `computeUserPatternSignalsBatch_eq_ok_iff` — the batch returns what the titles return one by one
-/

namespace ForgeKit.Storage

open Py (Text lit)
open JsonText (Encodable)
open IsoTime (DateTime)
open KeyOrder (lexLe sortBy)
open Grouping

/-- What a query raises. -/
inductive QueryError where
  | unicodeEncodeError
  | overflowError
deriving DecidableEq

/-- What the queries read of a row of `task_completion_events`. -/
structure HistoryRow where
  planDate : SqlText
  sourceEventTitle : Option SqlText
  status : SqlText
  userId : Int
  blockMinutes : Option Int

/-- The file of the database with the rows of the table, if it exists. -/
abbrev HistoryDb := Option (List HistoryRow)

/-- The arguments that the queries share, with the clock. -/
structure Filters where
  userId : Option Int
  daysBack : Option Int
  referenceTime : Option DateTime
  now : DateTime

structure UserPatternSignals where
  sourceEventTitle : Text
  totalCount : Nat
  doneCount : Nat
  skippedCount : Nat
  typicalBlockMinutes : Option Int
deriving DecidableEq

/-! ## Parameters -/

def bindTitle (t : Text) : Except QueryError SqlText :=
  if h : Encodable t then .ok ⟨t, h⟩ else .error .unicodeEncodeError

/-- Binds a number to a parameter: SQLite has 64 bits. -/
def bindInt (n : Int) : Except QueryError Int :=
  if -2 ^ 63 ≤ n ∧ n < 2 ^ 63 then .ok n else .error .overflowError

def bindInt? : Option Int → Except QueryError (Option Int)
  | some n => (bindInt n).map some
  | none => .ok none

/-- `cutoff`, if the query has one. -/
def Filters.cutoff (f : Filters) : Except QueryError (Option Text) :=
  match f.daysBack with
  | some n =>
    if 0 < n then
      match DayPlan.addDays (f.referenceTime.getD f.now).date (-n) with
      | some date => .ok (some date.isoformat)
      | none => .error .overflowError
    else .ok none
  | none => .ok none

/-- `user_id = ? AND plan_date >= ?`, with the conditions that there are. -/
def sharedWhere (userId : Option Int) (cutoff : Option Text) (row : HistoryRow) : Bool :=
  (match userId with | some n => decide (row.userId = n) | none => true) &&
    (match cutoff with | some t => lexLe t row.planDate.1 | none => true)

/-! ## Aggregates -/

/-- `SUM(CASE WHEN status = ? THEN 1 ELSE 0 END)`; `NULL` without rows. -/
def sumCase (status : Text) (rows : List HistoryRow) : Option Nat :=
  if rows = [] then none else some (rows.countP fun row => row.status.1 = status)

/-- A row of the counts. -/
structure Counts where
  totalCount : Nat
  doneCount : Option Nat
  skippedCount : Option Nat

def countsOf (rows : List HistoryRow) : Counts where
  totalCount := rows.length
  doneCount := sumCase (lit "done") rows
  skippedCount := sumCase (lit "skipped") rows

/-- `status = 'done' AND block_minutes IS NOT NULL`. -/
def timedDone (row : HistoryRow) : Bool := row.status.1 = lit "done" && row.blockMinutes.isSome

/-- `AVG(block_minutes)`; `NULL` where no row has minutes. -/
def avgMinutes (rows : List HistoryRow) : Option ℚ :=
  let minutes := rows.filterMap HistoryRow.blockMinutes
  if minutes = [] then none else some ((minutes.foldl (· + ·) 0 : Int) / (minutes.length : Int))

/-- `round(q)`: a half goes to the even neighbour. -/
def roundHalfEven (q : ℚ) : Int :=
  let rest := q - q.floor
  if rest < 1 / 2 ∨ rest = 1 / 2 ∧ q.floor % 2 = 0 then q.floor else q.floor + 1

/-- `typical_block_minutes`. -/
def typicalBlockMinutes (typical : Option ℚ) : Option Int :=
  typical.map fun q => max 1 (roundHalfEven q)

/-! ## The functions -/

/-- `compute_user_pattern_signals`. -/
def computeUserPatternSignals (db : HistoryDb) (title : Text) (f : Filters) :
    Except QueryError UserPatternSignals :=
  match db with
  | none =>
    .ok
      { sourceEventTitle := title, totalCount := 0, doneCount := 0, skippedCount := 0
        typicalBlockMinutes := none }
  | some table => do
    let cutoff ← f.cutoff
    let boundTitle ← bindTitle title
    let userId ← bindInt? f.userId
    let rows := table.filter fun row =>
      row.sourceEventTitle = some boundTitle && sharedWhere userId cutoff row
    let counts := countsOf rows
    .ok
      { sourceEventTitle := title
        totalCount := counts.totalCount
        doneCount := counts.doneCount.getD 0
        skippedCount := counts.skippedCount.getD 0
        typicalBlockMinutes := typicalBlockMinutes (avgMinutes (rows.filter timedDone)) }

/-- `sorted({title for title in source_event_titles if title})`. -/
def distinctTitles (titles : List Text) : List Text :=
  sortBy lexLe id (titles.filter fun t => t ≠ []).dedup

/-- `compute_user_pattern_signals_batch`. -/
def computeUserPatternSignalsBatch (db : HistoryDb) (sourceEventTitles : List Text) (f : Filters) :
    Except QueryError (List (Text × UserPatternSignals)) :=
  let titles := distinctTitles sourceEventTitles
  if titles = [] then .ok []
  else
    match db with
    | none =>
      .ok (titles.map fun title =>
        (title,
          { sourceEventTitle := title, totalCount := 0, doneCount := 0, skippedCount := 0
            typicalBlockMinutes := none }))
    | some table => do
      let cutoff ← f.cutoff
      let boundTitles ← titles.mapM bindTitle
      let userId ← bindInt? f.userId
      let rows := table.filter fun row =>
        row.sourceEventTitle.any (fun t => boundTitles.any fun u => u = t) &&
          sharedWhere userId cutoff row
      let columnText := fun row : HistoryRow => row.sourceEventTitle.map Subtype.val
      let countsByTitle := merge
        (titles.map fun title =>
          (title, ({ totalCount := 0, doneCount := some 0, skippedCount := some 0 } : Counts)))
        (groupBy columnText countsOf rows)
      let typicalByTitle := merge (titles.map fun title => (title, none))
        (groupBy columnText avgMinutes (rows.filter timedDone))
      .ok (titles.filterMap fun title => do
        let counts ← get? countsByTitle title
        let typical ← get? typicalByTitle title
        some
          (title,
            { sourceEventTitle := title
              totalCount := counts.totalCount
              doneCount := counts.doneCount.getD 0
              skippedCount := counts.skippedCount.getD 0
              typicalBlockMinutes := typicalBlockMinutes typical }))

/-! ## Titles -/

theorem mem_distinctTitles {titles : List Text} {t : Text} :
    t ∈ distinctTitles titles ↔ t ∈ titles ∧ t ≠ [] := by
  rw [distinctTitles, KeyOrder.mem_sortBy, List.mem_dedup, List.mem_filter, decide_eq_true_iff]

theorem nodup_distinctTitles (titles : List Text) : (distinctTitles titles).Nodup :=
  (KeyOrder.perm_sortBy _ _ _).nodup_iff.mpr (List.nodup_dedup _)

theorem bindTitle_eq_ok_iff {t : Text} {u : SqlText} : bindTitle t = .ok u ↔ t = u.1 := by
  unfold bindTitle
  split
  · next h => exact ⟨fun heq => by cases heq; rfl, fun heq => congrArg Except.ok (Subtype.ext heq)⟩
  · next h => exact ⟨(nomatch ·), fun heq => absurd (heq ▸ u.2) h⟩

theorem mapM_bindTitle {titles : List Text} {bound : List SqlText} :
    titles.mapM bindTitle = .ok bound ↔ titles = bound.map Subtype.val := by
  induction titles generalizing bound with
  | nil =>
    cases bound with
    | nil => exact iff_of_true rfl rfl
    | cons u bound => exact iff_of_false (nomatch ·) (nomatch ·)
  | cons t titles ih =>
    rw [List.mapM_cons]
    simp only [Raising.bind_eq_ok_iff, bindTitle_eq_ok_iff, ih]
    constructor
    · rintro ⟨u, rfl, rest, rfl, heq⟩
      cases heq
      rfl
    · intro h
      cases bound with
      | nil => cases h
      | cons u bound =>
        obtain ⟨rfl, rfl⟩ := List.cons.inj h
        exact ⟨u, rfl, bound, rfl, rfl⟩

/-! ## Rows of one title -/

/-- The rows of a title that the filters let through. -/
def rowsOf (table : List HistoryRow) (userId : Option Int) (cutoff : Option Text) (title : Text) :
    List HistoryRow :=
  table.filter fun row =>
    row.sourceEventTitle.map Subtype.val = some title && sharedWhere userId cutoff row

/-- The signals of these rows. -/
def signalsOf (title : Text) (rows : List HistoryRow) : UserPatternSignals where
  sourceEventTitle := title
  totalCount := (countsOf rows).totalCount
  doneCount := (countsOf rows).doneCount.getD 0
  skippedCount := (countsOf rows).skippedCount.getD 0
  typicalBlockMinutes := typicalBlockMinutes (avgMinutes (rows.filter timedDone))

theorem map_val_eq_some {o : Option SqlText} {u : SqlText} :
    o.map Subtype.val = some u.1 ↔ o = some u := by
  cases o with
  | none => exact iff_of_false (nomatch ·) (nomatch ·)
  | some t => rw [Option.map_some, Option.some_inj, Option.some_inj, Subtype.ext_iff]

theorem rowsOf_val {table : List HistoryRow} {userId : Option Int} {cutoff : Option Text}
    {u : SqlText} :
    (table.filter fun row => row.sourceEventTitle = some u && sharedWhere userId cutoff row) =
      rowsOf table userId cutoff u.1 := by
  simp only [rowsOf, map_val_eq_some]

theorem computeUserPatternSignals_some {table : List HistoryRow} {f : Filters} {title : Text}
    {s : UserPatternSignals} :
    computeUserPatternSignals (some table) title f = .ok s ↔
      ∃ cutoff userId, f.cutoff = .ok cutoff ∧ bindInt? f.userId = .ok userId ∧
        Encodable title ∧ s = signalsOf title (rowsOf table userId cutoff title) := by
  simp only [computeUserPatternSignals, Raising.bind_eq_ok_iff, bindTitle_eq_ok_iff]
  constructor
  · rintro ⟨cutoff, hcutoff, u, rfl, userId, huser, h⟩
    rw [rowsOf_val] at h
    exact ⟨cutoff, userId, hcutoff, huser, u.2, (Except.ok.inj h).symm⟩
  · rintro ⟨cutoff, userId, hcutoff, huser, henc, rfl⟩
    refine ⟨cutoff, hcutoff, ⟨title, henc⟩, rfl, userId, huser, ?_⟩
    rw [rowsOf_val]
    rfl

/-! ## Groups -/

/-- Of the rows that the grouped queries take, those of a title are the title's. -/
theorem filter_rows {table : List HistoryRow} {userId : Option Int} {cutoff : Option Text}
    {bound : List SqlText} {u : SqlText} (hu : u ∈ bound) :
    ((table.filter fun row =>
        row.sourceEventTitle.any (fun t => bound.any fun u => u = t) &&
          sharedWhere userId cutoff row).filter
      fun row => row.sourceEventTitle.map Subtype.val = some u.1) =
      rowsOf table userId cutoff u.1 := by
  rw [List.filter_filter, rowsOf]
  congr 1
  funext row
  by_cases h : row.sourceEventTitle.map Subtype.val = some u.1
  · have hany : row.sourceEventTitle.any (fun t => bound.any fun u => u = t) = true := by
      rw [map_val_eq_some.mp h, Option.any_some, List.any_eq_true]
      exact ⟨u, hu, decide_eq_true rfl⟩
    rw [hany, Bool.true_and]
  · rw [decide_eq_false h, Bool.false_and, Bool.false_and]

/-- Counts of a group that may be missing. -/
theorem counts_of_group (rows : List HistoryRow) :
    let counts := (if rows = [] then none else some (countsOf rows)).getD
      { totalCount := 0, doneCount := some 0, skippedCount := some 0 }
    counts.totalCount = (countsOf rows).totalCount ∧
      counts.doneCount.getD 0 = (countsOf rows).doneCount.getD 0 ∧
      counts.skippedCount.getD 0 = (countsOf rows).skippedCount.getD 0 := by
  by_cases h : rows = []
  · subst h
    exact ⟨rfl, rfl, rfl⟩
  · rw [if_neg h]
    exact ⟨rfl, rfl, rfl⟩

theorem avg_of_group (rows : List HistoryRow) :
    (if rows = [] then none else some (avgMinutes rows)).getD none = avgMinutes rows := by
  by_cases h : rows = []
  · subst h
    rfl
  · rw [if_neg h]
    rfl

/-- A table of defaults, filled by a grouped query. -/
theorem get?_merge_groupBy {β : Type} {aggregate : List HistoryRow → β} {titles : List Text}
    {default : β} {rows : List HistoryRow} {title : Text} (h : title ∈ titles) :
    get? (merge (titles.map fun t => (t, default))
        (groupBy (fun row => row.sourceEventTitle.map Subtype.val) aggregate rows)) title =
      let own := rows.filter fun row => row.sourceEventTitle.map Subtype.val = some title
      some ((if own = [] then none else some (aggregate own)).getD default) := by
  rw [get?_merge nodup_keys_groupBy, get?_map fun _ => default, if_pos h, get?_groupBy]
  rfl

/-- **Merged into the defaults, the groups are what each title has by itself.** -/
theorem merged_eq (table : List HistoryRow) (userId : Option Int) (cutoff : Option Text)
    (bound : List SqlText) :
    let titles := bound.map Subtype.val
    let rows := table.filter fun row =>
      row.sourceEventTitle.any (fun t => bound.any fun u => u = t) && sharedWhere userId cutoff row
    let columnText := fun row : HistoryRow => row.sourceEventTitle.map Subtype.val
    let countsByTitle := merge
      (titles.map fun title =>
        (title, ({ totalCount := 0, doneCount := some 0, skippedCount := some 0 } : Counts)))
      (groupBy columnText countsOf rows)
    let typicalByTitle := merge (titles.map fun title => (title, none))
      (groupBy columnText avgMinutes (rows.filter timedDone))
    (titles.filterMap fun title => do
      let counts ← get? countsByTitle title
      let typical ← get? typicalByTitle title
      some
        (title,
          ({ sourceEventTitle := title
             totalCount := counts.totalCount
             doneCount := counts.doneCount.getD 0
             skippedCount := counts.skippedCount.getD 0
             typicalBlockMinutes := typicalBlockMinutes typical } : UserPatternSignals))) =
      titles.map fun title => (title, signalsOf title (rowsOf table userId cutoff title)) := by
  intro titles rows columnText countsByTitle typicalByTitle
  rw [← List.filterMap_eq_map]
  apply List.filterMap_congr
  intro title htitle
  obtain ⟨u, hu, rfl⟩ := List.mem_map.mp htitle
  have hrows : (rows.filter fun row => columnText row = some u.1) =
      rowsOf table userId cutoff u.1 := filter_rows hu
  have htimed : ((rows.filter timedDone).filter fun row => columnText row = some u.1) =
      (rowsOf table userId cutoff u.1).filter timedDone := by
    rw [← hrows, List.filter_comm]
  have hcounts := @get?_merge_groupBy _ countsOf titles
    { totalCount := 0, doneCount := some 0, skippedCount := some 0 } rows _ htitle
  have htypical := @get?_merge_groupBy _ avgMinutes titles none (rows.filter timedDone) _ htitle
  dsimp only at hcounts htypical
  rw [hrows] at hcounts
  rw [htimed, avg_of_group] at htypical
  obtain ⟨htotal, hdone, hskipped⟩ := counts_of_group (rowsOf table userId cutoff u.1)
  rw [hcounts, htypical, Option.bind_eq_bind, Option.bind_some, Option.bind_eq_bind,
    Option.bind_some, htotal, hdone, hskipped]
  rfl

theorem computeUserPatternSignalsBatch_some {table : List HistoryRow} {f : Filters}
    {titles : List Text} (hne : distinctTitles titles ≠ [])
    {signals : List (Text × UserPatternSignals)} :
    computeUserPatternSignalsBatch (some table) titles f = .ok signals ↔
      ∃ cutoff userId, f.cutoff = .ok cutoff ∧ bindInt? f.userId = .ok userId ∧
        (∀ t ∈ distinctTitles titles, Encodable t) ∧
        signals = (distinctTitles titles).map fun t =>
          (t, signalsOf t (rowsOf table userId cutoff t)) := by
  simp only [computeUserPatternSignalsBatch, if_neg hne, Raising.bind_eq_ok_iff, mapM_bindTitle]
  generalize distinctTitles titles = titles
  constructor
  · rintro ⟨cutoff, hcutoff, bound, rfl, userId, huser, h⟩
    rw [merged_eq] at h
    refine ⟨cutoff, userId, hcutoff, huser, ?_, (Except.ok.inj h).symm⟩
    intro t ht
    obtain ⟨u, -, rfl⟩ := List.mem_map.mp ht
    exact u.2
  · rintro ⟨cutoff, userId, hcutoff, huser, henc, rfl⟩
    have hbound : titles = (titles.attach.map fun t => (⟨t.1, henc t.1 t.2⟩ : SqlText)).map
        Subtype.val := by
      rw [List.map_map]
      exact (List.attach_map_subtype_val titles).symm
    refine ⟨cutoff, hcutoff, _, hbound, userId, huser, ?_⟩
    generalize titles.attach.map _ = bound at hbound
    subst hbound
    rw [merged_eq]

/-! ## The batch -/

/-- **The batch returns what the titles return one by one.** -/
theorem computeUserPatternSignalsBatch_eq_ok_iff {db : HistoryDb} {titles : List Text} {f : Filters}
    {signals : List (Text × UserPatternSignals)} :
    computeUserPatternSignalsBatch db titles f = .ok signals ↔
      signals.map Prod.fst = distinctTitles titles ∧
        ∀ e ∈ signals, computeUserPatternSignals db e.1 f = .ok e.2 := by
  -- values that are computed from their keys
  have hpairs : ∀ (g : Text → UserPatternSignals) (ts : List Text),
      (signals = ts.map fun t => (t, g t)) ↔
        signals.map Prod.fst = ts ∧ ∀ e ∈ signals, e.2 = g e.1 := by
    intro g ts
    constructor
    · rintro rfl
      exact ⟨by simp [Function.comp_def], by simp⟩
    · rintro ⟨rfl, h⟩
      rw [List.map_map]
      exact (List.map_id signals).symm.trans
        (List.map_congr_left fun e he => Prod.ext rfl (h e he))
  by_cases hne : distinctTitles titles = []
  · simp only [computeUserPatternSignalsBatch, hne, if_true, List.map_eq_nil_iff]
    constructor
    · intro h
      cases h
      exact ⟨rfl, by simp⟩
    · rintro ⟨rfl, -⟩
      rfl
  · cases db with
    | none =>
      rw [computeUserPatternSignalsBatch, if_neg hne, Except.ok.injEq, eq_comm, hpairs]
      simp only [computeUserPatternSignals, Except.ok.injEq, eq_comm]
    | some table =>
      rw [computeUserPatternSignalsBatch_some hne]
      simp only [computeUserPatternSignals_some, hpairs]
      constructor
      · rintro ⟨cutoff, userId, hcutoff, huser, henc, hkeys, hvalues⟩
        refine ⟨hkeys, fun e he => ⟨cutoff, userId, hcutoff, huser, henc e.1 ?_, hvalues e he⟩⟩
        rw [← hkeys]
        exact List.mem_map_of_mem he
      · rintro ⟨hkeys, hvalues⟩
        obtain ⟨t, ht⟩ := List.exists_mem_of_ne_nil _ hne
        rw [← hkeys] at ht
        obtain ⟨e, he, -⟩ := List.mem_map.mp ht
        obtain ⟨cutoff, userId, hcutoff, huser, -, -⟩ := hvalues e he
        refine ⟨cutoff, userId, hcutoff, huser, ?_, hkeys, ?_⟩
        · intro t ht
          rw [← hkeys] at ht
          obtain ⟨e, he, rfl⟩ := List.mem_map.mp ht
          obtain ⟨_, _, -, -, henc, -⟩ := hvalues e he
          exact henc
        · intro e he
          obtain ⟨cutoff', userId', hcutoff', huser', -, hvalue⟩ := hvalues e he
          cases hcutoff.symm.trans hcutoff'
          cases huser.symm.trans huser'
          exact hvalue

end ForgeKit.Storage
