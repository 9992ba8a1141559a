import ForgeKit.Lib.AppendedText
import ForgeKit.Lib.IsoTime
import ForgeKit.Lib.JsonRead
import ForgeKit.Lib.Raising
import Mathlib.Data.List.ReduceOption

/-!
# Daily token budgets (`usage/ledger.py`, `usage/provider_budget.py`, `chat/service.py`)

A provider is over its budget once the rows of the day add up to its limit. The rows are read from a
file of JSON lines. A line that is no JSON is skipped; one that is JSON but no object raises, and then
nothing counts as spent.

* `over_iff` — when a provider is over its budget, line by line
* `staysOver_iff` — when it stays over after lines were appended
-/

namespace ForgeKit.Provider.Budget

open Py (Text lit)
open JsonText
open IsoTime (Date)

/-- What is raised. -/
inductive LedgerError where
  | attributeError
  | unicodeDecodeError
  | overflowError
deriving DecidableEq

/-- What `int(v)` does. -/
inductive IntReading where
  | value (n : Int)
  /-- `TypeError` and `ValueError`. -/
  | refused
  | overflow
deriving DecidableEq

/-- What reading a row rests on and is not carried over: `str` of other kinds of values, `bool` of a
number, `int` of a text and of a float. -/
structure Readers extends Conversions where
  floatInt : Number → IntReading

/-- `int(v)`. -/
def Readers.intReading (py : Readers) : Value → IntReading
  | .num n =>
    match n.toInt? with
    | some k => .value k
    | none => py.floatInt n
  | .str t =>
    match py.int (.str t) with
    | some k => .value k
    | none => .refused
  | .bool b => .value (if b then 1 else 0)
  | _ => .refused

/-- A row of the ledger. -/
abbrev Row := List (Text × Value)

section

variable (py : Readers)

/-! ## The ledger -/

/-- The body of the loop in `read_events`; the text of a day is not empty. -/
def readLine (day line : Text) : Except LedgerError (Option Row) :=
  let line := Py.strip line
  if line = [] then .ok none
  else
    match loads line with
    | none => .ok none
    | some (.obj row) =>
      .ok (if Py.startsWith (py.strOf (getOr row (lit "ts") [])) day then some row else none)
    -- `row.get` of what is no dict
    | some _ => .error .attributeError

/-- `read_events`; there may be no file. -/
def readEvents (content : Option ByteArray) (day : Date) : Except LedgerError (List Row) :=
  match content with
  | none => .ok []
  | some bytes =>
    match Py.readText bytes with
    | none => .error .unicodeDecodeError
    | some text => do
      let rows ← (splitlines text).mapM (readLine py day.isoformat)
      .ok rows.reduceOption

/-! ## Spend -/

/-- The body of the loop in `provider_limits`. -/
def readLimit (member : Text × Value) : Except LedgerError (Option (Text × Int)) :=
  match py.intReading member.2 with
  | .value n => .ok (if 0 < n then some (member.1, n) else none)
  | .refused => .ok none
  | .overflow => .error .overflowError

/-- `provider_limits`. -/
def providerLimits (config : Row) : Except LedgerError (List (Text × Int)) :=
  let policy := py.orElse (get config (lit "budget_policy")) (.obj [])
  let raw := match policy with
    | .obj d => get d (lit "provider_daily_limits")
    | _ => .null
  match raw with
  | .obj d => do
    let limits ← d.mapM (readLimit py)
    .ok limits.reduceOption
  | _ => .ok []

/-- `int(r.get("total_tokens", 0) or 0)`. -/
def totalTokens (row : Row) : IntReading :=
  py.intReading (py.orElse ((row.lookup (lit "total_tokens")).getD (ofInt 0)) (ofInt 0))

/-- Whether the loop in `provider_spent` gets to the tokens of the row. -/
def countsFor (pid : Text) (row : Row) : Bool :=
  py.strOf (getOr row (lit "provider") []) = pid && !py.truthy (get row (lit "throttled"))

/-- The body of the loop in `provider_spent`. -/
def countRow (pid : Text) (total : Int) (row : Row) : Except LedgerError Int :=
  if countsFor py pid row then
    match totalTokens py row with
    | .value n => .ok (total + n)
    | .refused => .ok total
    | .overflow => .error .overflowError
  else .ok total

/-- `provider_spent`. -/
def providerSpent (rows : List Row) (pid : Text) : Except LedgerError Int :=
  rows.foldlM (countRow py pid) 0

/-- `limits.get(pid, 0)`. -/
def limitOf (limits : List (Text × Int)) (pid : Text) : Int := (limits.lookup pid).getD 0

/-- `is_over`. -/
def isOver (pid : Text) (limits : List (Text × Int)) (rows : List Row) : Except LedgerError Bool :=
  if 0 < limitOf limits pid then do
    let spent ← providerSpent py rows pid
    .ok (limitOf limits pid ≤ spent)
  else .ok false

/-- `over_budget_providers`. -/
def overBudgetProviders (config : Row) (rows : List Row) : Except LedgerError (List Text) := do
  let limits ← providerLimits py config
  Raising.filterOk (fun pid => isOver py pid limits rows) (limits.map Prod.fst)

/-- `SubmitService._over_budget_providers`. -/
def serviceOverBudgetProviders (config : Row) (content : Option ByteArray) (day : Date) :
    Except LedgerError (List Text) := do
  let limits ← providerLimits py config
  if limits = [] then .ok []
  else
    let rows := match readEvents py content day with
      | .ok rows => rows
      | .error _ => []
    overBudgetProviders py config rows

/-- The provider is among those over their budget. -/
def Over (config : Row) (content : Option ByteArray) (day : Date) (pid : Text) : Prop :=
  ∃ pids, serviceOverBudgetProviders py config content day = .ok pids ∧ pid ∈ pids

/-! ## Lines -/

/-- The line is a JSON value but no object. -/
def NotAnObject (line : Text) : Prop :=
  ∃ v, loads (Py.strip line) = some v ∧ ∀ d, v ≠ .obj d

/-- The row on the line, if it is one of the day. -/
def dayRow (day line : Text) : Option Row :=
  match loads (Py.strip line) with
  | some (.obj row) =>
    if Py.startsWith (py.strOf (getOr row (lit "ts") [])) day then some row else none
  | _ => none

/-- The tokens of the row cannot be added up. -/
def Overflows (pid : Text) (row : Row) : Prop :=
  countsFor py pid row = true ∧ totalTokens py row = .overflow

/-- What the row adds. -/
def spentBy (pid : Text) (row : Row) : Int :=
  if countsFor py pid row then
    match totalTokens py row with
    | .value n => n
    | _ => 0
  else 0

/-- What the rows add. -/
def rowsSpent (pid : Text) : List Row → Int
  | [] => 0
  | row :: rows => spentBy py pid row + rowsSpent pid rows

/-- What the lines add. -/
def linesSpent (day pid : Text) (lines : List Text) : Int :=
  rowsSpent py pid (lines.filterMap (dayRow py day))

/-- A row of the day of one of the providers, whose tokens cannot be added up. -/
def OverflowLine (pids : List Text) (day line : Text) : Prop :=
  ∃ row, dayRow py day line = some row ∧ ∃ pid ∈ pids, Overflows py pid row

end

variable {py : Readers} {config : Row} {day : Date} {pid : Text}

/-! ## What is read -/

theorem readLine_eq_ok_iff {dayText line : Text} {o : Option Row} :
    readLine py dayText line = .ok o ↔ ¬NotAnObject line ∧ dayRow py dayText line = o := by
  unfold readLine dayRow NotAnObject
  have hempty : loads [] = none := rfl
  by_cases hline : Py.strip line = []
  · simp [hline, hempty]
  · dsimp only
    rw [if_neg hline]
    cases hload : loads (Py.strip line) with
    | none => simp
    | some v => cases v <;> simp

theorem mapM_readLine_eq_ok_iff {dayText : Text} {lines : List Text} {rows : List (Option Row)} :
    lines.mapM (readLine py dayText) = .ok rows ↔
      (∀ line ∈ lines, ¬NotAnObject line) ∧ lines.map (dayRow py dayText) = rows := by
  induction lines generalizing rows with
  | nil => simp [pure, Except.pure]
  | cons line lines ih =>
    rw [List.mapM_cons]
    simp only [Raising.bind_eq_ok_iff, readLine_eq_ok_iff, ih, List.forall_mem_cons, List.map_cons]
    constructor
    · rintro ⟨row, ⟨hline, rfl⟩, rest, ⟨hlines, rfl⟩, h⟩
      exact ⟨⟨hline, hlines⟩, Except.ok.inj h⟩
    · rintro ⟨⟨hline, hlines⟩, rfl⟩
      exact ⟨_, ⟨hline, rfl⟩, _, ⟨hlines, rfl⟩, rfl⟩

theorem not_notAnObject_nil : ¬NotAnObject [] := fun ⟨_, h, _⟩ => nomatch h

theorem dayRow_nil (dayText : Text) : dayRow py dayText [] = none := rfl

/-- **What is read of a file**: there is no line that is JSON but no object. -/
theorem readEvents_eq_ok_iff {bytes : ByteArray} {rows : List Row} :
    readEvents py (some bytes) day = .ok rows ↔ ∃ text, Py.readText bytes = some text ∧
      (∀ line ∈ pieces text, ¬NotAnObject line) ∧
      rows = (pieces text).filterMap (dayRow py day.isoformat) := by
  unfold readEvents
  cases htext : Py.readText bytes with
  | none => simp [htext]
  | some text =>
    simp only [htext, Raising.bind_eq_ok_iff, mapM_readLine_eq_ok_iff]
    have hrows : ((splitlines text).map (dayRow py day.isoformat)).reduceOption =
        (pieces text).filterMap (dayRow py day.isoformat) := by
      rw [List.reduceOption, List.filterMap_map]
      exact filterMap_splitlines (dayRow_nil _) text
    constructor
    · rintro ⟨_, ⟨hobjects, rfl⟩, h⟩
      exact ⟨text, rfl, (forall_splitlines not_notAnObject_nil text).mp hobjects,
        (Except.ok.inj h).symm.trans hrows⟩
    · rintro ⟨_, h, hobjects, rfl⟩
      cases h
      exact ⟨_, ⟨(forall_splitlines not_notAnObject_nil text).mpr hobjects, rfl⟩,
        congrArg Except.ok hrows⟩

/-! ## What is spent -/

theorem countRow_eq_ok_iff {total n : Int} {row : Row} :
    countRow py pid total row = .ok n ↔
      ¬Overflows py pid row ∧ total + spentBy py pid row = n := by
  unfold countRow Overflows spentBy
  cases hcounts : countsFor py pid row with
  | false => simp
  | true => cases htokens : totalTokens py row <;> simp

theorem foldlM_countRow {rows : List Row} {total n : Int} :
    rows.foldlM (countRow py pid) total = .ok n ↔
      (∀ row ∈ rows, ¬Overflows py pid row) ∧ total + rowsSpent py pid rows = n := by
  induction rows generalizing total with
  | nil => simp [pure, Except.pure, rowsSpent]
  | cons row rows ih =>
    rw [List.foldlM_cons, Raising.bind_eq_ok_iff]
    simp only [ih, countRow_eq_ok_iff, List.forall_mem_cons, rowsSpent]
    constructor
    · rintro ⟨_, ⟨hrow, rfl⟩, hrows, rfl⟩
      exact ⟨⟨hrow, hrows⟩, (Int.add_assoc _ _ _).symm⟩
    · rintro ⟨⟨hrow, hrows⟩, rfl⟩
      exact ⟨_, ⟨hrow, rfl⟩, hrows, Int.add_assoc _ _ _⟩

/-- **Spend is the sum over the rows**, unless one of them overflows. -/
theorem providerSpent_eq_ok_iff {rows : List Row} {n : Int} :
    providerSpent py rows pid = .ok n ↔
      (∀ row ∈ rows, ¬Overflows py pid row) ∧ rowsSpent py pid rows = n := by
  rw [providerSpent, foldlM_countRow, Int.zero_add]

theorem rowsSpent_append (rows rows' : List Row) :
    rowsSpent py pid (rows ++ rows') = rowsSpent py pid rows + rowsSpent py pid rows' := by
  induction rows with
  | nil => simp [rowsSpent]
  | cons row rows ih => rw [List.cons_append, rowsSpent, rowsSpent, ih, Int.add_assoc]

theorem linesSpent_append (dayText : Text) (lines lines' : List Text) :
    linesSpent py dayText pid (lines ++ lines') =
      linesSpent py dayText pid lines + linesSpent py dayText pid lines' := by
  rw [linesSpent, List.filterMap_append, rowsSpent_append]
  rfl

/-! ## Limits -/

/-- Every limit that is kept is positive. -/
theorem limit_pos {limits : List (Text × Int)} (h : providerLimits py config = .ok limits)
    {entry : Text × Int} (hentry : entry ∈ limits) : 0 < entry.2 := by
  unfold providerLimits at h
  dsimp only at h
  split at h
  · obtain ⟨all, hall, h⟩ := Raising.bind_eq_ok_iff.mp h
    cases h
    rw [List.reduceOption_mem_iff, Raising.mem_mapM hall] at hentry
    obtain ⟨member, -, hmember⟩ := hentry
    unfold readLimit at hmember
    split at hmember
    · split at hmember
      · next hpos =>
        cases hmember
        exact hpos
      · cases hmember
    · cases hmember
    · cases hmember
  · cases h
    cases hentry

theorem limitOf_pos {limits : List (Text × Int)} (h : providerLimits py config = .ok limits)
    (hpid : pid ∈ limits.map Prod.fst) : 0 < limitOf limits pid := by
  have hfound : ∃ n, limits.lookup pid = some n := by
    rw [← Option.isSome_iff_exists, List.lookup_isSome_iff]
    obtain ⟨entry, hentry, rfl⟩ := List.mem_map.mp hpid
    exact ⟨entry, hentry, by simp⟩
  obtain ⟨n, hn⟩ := hfound
  rw [limitOf, hn, Option.getD_some]
  obtain ⟨l₁, l₂, heq, -⟩ := List.lookup_eq_some_iff.mp hn
  exact @limit_pos py config limits h (pid, n) (by simp [heq])

/-! ## Over the budget -/

theorem exists_isOver_iff {limits : List (Text × Int)} {rows : List Row}
    (hpos : 0 < limitOf limits pid) :
    (∃ spent, isOver py pid limits rows = .ok spent) ↔ ∀ row ∈ rows, ¬Overflows py pid row := by
  rw [isOver, if_pos hpos, Raising.exists_bind_iff]
  simp [providerSpent_eq_ok_iff]

theorem isOver_eq_true_iff {limits : List (Text × Int)} {rows : List Row}
    (hpos : 0 < limitOf limits pid) : isOver py pid limits rows = .ok true ↔
      (∀ row ∈ rows, ¬Overflows py pid row) ∧ limitOf limits pid ≤ rowsSpent py pid rows := by
  rw [isOver, if_pos hpos, Raising.bind_eq_ok_iff]
  simp [providerSpent_eq_ok_iff]

theorem exists_overBudgetProviders_iff {limits : List (Text × Int)}
    (hlimits : providerLimits py config = .ok limits) {rows : List Row} :
    (∃ pids, overBudgetProviders py config rows = .ok pids ∧ pid ∈ pids) ↔
      pid ∈ limits.map Prod.fst ∧
        (∀ q ∈ limits.map Prod.fst, ∀ row ∈ rows, ¬Overflows py q row) ∧
        limitOf limits pid ≤ rowsSpent py pid rows := by
  rw [overBudgetProviders, hlimits, Raising.bind_ok]
  have hall : (∀ q ∈ limits.map Prod.fst, ∃ spent, isOver py q limits rows = .ok spent) ↔
      ∀ q ∈ limits.map Prod.fst, ∀ row ∈ rows, ¬Overflows py q row :=
    forall₂_congr fun q hq => exists_isOver_iff (limitOf_pos hlimits hq)
  rw [← hall, ← Raising.exists_filterOk_iff]
  constructor
  · rintro ⟨pids, hpids, hpid⟩
    obtain ⟨hkey, hover⟩ := (Raising.mem_filterOk hpids).mp hpid
    exact ⟨hkey, ⟨pids, hpids⟩, ((isOver_eq_true_iff (limitOf_pos hlimits hkey)).mp hover).2⟩
  · rintro ⟨hkey, ⟨pids, hpids⟩, hle⟩
    have hrows := hall.mp (Raising.exists_filterOk_iff.mp ⟨pids, hpids⟩) pid hkey
    refine ⟨pids, hpids, (Raising.mem_filterOk hpids).mpr ⟨hkey, ?_⟩⟩
    exact (isOver_eq_true_iff (limitOf_pos hlimits hkey)).mpr ⟨hrows, hle⟩

/--
**When a provider is over its budget, line by line**: no line of the file is JSON but no object, none
overflows, and the lines add up to the limit.
-/
theorem over_iff {limits : List (Text × Int)} (hlimits : providerLimits py config = .ok limits)
    {bytes : ByteArray} :
    Over py config (some bytes) day pid ↔
      pid ∈ limits.map Prod.fst ∧ ∃ text, Py.readText bytes = some text ∧
        (∀ line ∈ pieces text, ¬NotAnObject line) ∧
        (∀ line ∈ pieces text, ¬OverflowLine py (limits.map Prod.fst) day.isoformat line) ∧
        limitOf limits pid ≤ linesSpent py day.isoformat pid (pieces text) := by
  unfold Over serviceOverBudgetProviders
  rw [hlimits]
  simp only [Raising.bind_ok]
  by_cases hempty : limits = []
  · subst hempty
    simp
  rw [if_neg hempty, exists_overBudgetProviders_iff hlimits]
  refine and_congr_right fun hkey => ?_
  have hoverflow : ∀ text, (∀ q ∈ limits.map Prod.fst,
      ∀ row ∈ (pieces text).filterMap (dayRow py day.isoformat), ¬Overflows py q row) ↔
        ∀ line ∈ pieces text, ¬OverflowLine py (limits.map Prod.fst) day.isoformat line := by
    intro text
    constructor
    · rintro h line hline ⟨row, hrow, q, hq, hover⟩
      exact h q hq row (List.mem_filterMap.mpr ⟨line, hline, hrow⟩) hover
    · intro h q hq row hrow hover
      obtain ⟨line, hline, hrow⟩ := List.mem_filterMap.mp hrow
      exact h line hline ⟨row, hrow, q, hq, hover⟩
  cases hread : readEvents py (some bytes) day with
  | ok rows =>
    obtain ⟨text, htext, hobjects, rfl⟩ := readEvents_eq_ok_iff.mp hread
    dsimp only
    rw [hoverflow, htext]
    constructor
    · exact fun h => ⟨text, rfl, hobjects, h⟩
    · rintro ⟨_, heq, -, h⟩
      cases heq
      exact h
  | error e =>
    -- what cannot be read counts as no spend
    have hpos := limitOf_pos hlimits hkey
    constructor
    · rintro ⟨-, hle⟩
      exact absurd hle (by simpa [rowsSpent] using hpos)
    · rintro ⟨text, htext, hobjects, -⟩
      rw [readEvents_eq_ok_iff.mpr ⟨text, htext, hobjects, rfl⟩] at hread
      cases hread

/-! ## Lines at the end of the ledger -/

/-- `provider_limits`, where it returns. -/
def limitsOf (py : Readers) (config : Row) : List (Text × Int) :=
  match providerLimits py config with
  | .ok limits => limits
  | .error _ => []

/-- The lines that `appended` makes; the first of them goes on with an unfinished line. -/
def newLines (content appended : ByteArray) : List Text :=
  match Py.readText content, Py.addedText content appended with
  | some text, some added => splitlines (unfinished text ++ added)
  | _, _ => []

/-- The line does not have negative tokens. -/
def NonNegative (py : Readers) (line : Text) : Prop :=
  ∀ row n, loads (Py.strip line) = some (.obj row) → totalTokens py row = .value n → 0 ≤ n

/-- What has to be true of the bytes that are appended. -/
structure Harmless (py : Readers) (config : Row) (content appended : ByteArray) (day : Date)
    (pid : Text) : Prop where
  decodes : (Py.decode appended).isSome = true
  objects : ∀ line ∈ newLines content appended, ¬NotAnObject line
  finite : ∀ line ∈ newLines content appended,
    ¬OverflowLine py ((limitsOf py config).map Prod.fst) day.isoformat line
  /-- What an unfinished line counted may be lost. -/
  kept : ∀ text, Py.readText content = some text → unfinished text ≠ [] →
    limitOf (limitsOf py config) pid ≤ linesSpent py day.isoformat pid (finished text) +
      linesSpent py day.isoformat pid (newLines content appended)

theorem linesSpent_splitlines (dayText t : Text) :
    linesSpent py dayText pid (splitlines t) = linesSpent py dayText pid (pieces t) := by
  rw [linesSpent, filterMap_splitlines (dayRow_nil _), linesSpent]

theorem NonNegative.spentBy_nonneg {dayText line : Text} {row : Row} (h : NonNegative py line)
    (hrow : dayRow py dayText line = some row) : 0 ≤ spentBy py pid row := by
  have hload : loads (Py.strip line) = some (.obj row) := by
    unfold dayRow at hrow
    split at hrow
    · split at hrow
      · cases hrow
        assumption
      · cases hrow
    · cases hrow
  unfold spentBy
  split
  · cases htokens : totalTokens py row with
    | value n => exact h row n hload htokens
    | refused => exact le_refl 0
    | overflow => exact le_refl 0
  · exact le_refl 0

theorem linesSpent_nonneg {dayText : Text} {lines : List Text}
    (h : ∀ line ∈ lines, NonNegative py line) : 0 ≤ linesSpent py dayText pid lines := by
  have hrows : ∀ rows : List Row, (∀ row ∈ rows, 0 ≤ spentBy py pid row) →
      0 ≤ rowsSpent py pid rows := by
    intro rows hrows
    induction rows with
    | nil => exact le_refl 0
    | cons row rows ih =>
      rw [List.forall_mem_cons] at hrows
      exact add_nonneg hrows.1 (ih hrows.2)
  refine hrows _ fun row hrow => ?_
  obtain ⟨line, hline, hday⟩ := List.mem_filterMap.mp hrow
  exact (h line hline).spentBy_nonneg hday

/-- Readers that do as Python does with integers and texts. -/
def plainReaders : Readers where
  str _ := []
  int _ := none
  bool n := n.toInt? ≠ some 0
  floatInt _ := .refused

def bytesOf (t : Text) : ByteArray := (Py.encode t).getD .empty

def geminiConfig : Row :=
  [(lit "budget_policy", .obj [(lit "provider_daily_limits", .obj [(lit "gemini", ofInt 50000)])])]

def geminiLine : Text :=
  lit "\x7b\"ts\": \"2026-04-22T09:00:00\", \"provider\": \"gemini\", \"total_tokens\": 50000\x7d"

def geminiLedger : Text := geminiLine ++ [Py.newline]

def april22 : Date := (Date.mk? 2026 4 22).get (by decide)

theorem decode_bytesOf {t : Text} (h : (Py.encode t).isSome = true) :
    Py.decode (bytesOf t) = some t := by
  obtain ⟨b, hb⟩ := Option.isSome_iff_exists.mp h
  rw [bytesOf, hb]
  exact Py.decode_encode hb

def geminiRow : Row :=
  [(lit "ts", .str (lit "2026-04-22T09:00:00")), (lit "provider", .str (lit "gemini")),
    (lit "total_tokens", ofInt 50000)]

set_option maxRecDepth 10000 in
theorem loads_geminiLine : loads (Py.strip geminiLine) = some (.obj geminiRow) := rfl

theorem dayRow_geminiLine :
    dayRow plainReaders april22.isoformat geminiLine = some geminiRow := by
  rw [dayRow, loads_geminiLine]
  rfl

theorem totalTokens_geminiRow : totalTokens plainReaders geminiRow = .value 50000 := rfl

theorem readText_geminiLedger : Py.readText (bytesOf geminiLedger) = some geminiLedger := by
  rw [Py.readText, decode_bytesOf (by decide)]
  decide

theorem providerLimits_geminiConfig :
    providerLimits plainReaders geminiConfig = .ok [(lit "gemini", 50000)] := rfl

/-- The row of the ledger reaches the limit. -/
theorem over_gemini :
    Over plainReaders geminiConfig (some (bytesOf geminiLedger)) april22 (lit "gemini") := by
  have hpieces : pieces geminiLedger = [geminiLine, []] := by decide
  rw [over_iff providerLimits_geminiConfig]
  refine ⟨List.mem_singleton_self _, geminiLedger, readText_geminiLedger, ?_, ?_, ?_⟩
  · rw [hpieces, List.forall_mem_cons, List.forall_mem_singleton]
    refine ⟨?_, not_notAnObject_nil⟩
    rintro ⟨v, hv, hne⟩
    exact hne _ (Option.some.inj (hv.symm.trans loads_geminiLine))
  · rw [hpieces, List.forall_mem_cons, List.forall_mem_singleton]
    refine ⟨?_, fun ⟨_, h, _⟩ => nomatch h⟩
    rintro ⟨row, hrow, q, -, -, htokens⟩
    cases dayRow_geminiLine.symm.trans hrow
    rw [totalTokens_geminiRow] at htokens
    cases htokens
  · have hrows : [geminiLine, []].filterMap (dayRow plainReaders april22.isoformat) = [geminiRow] := by
      rw [List.filterMap_cons_some dayRow_geminiLine]
      rfl
    rw [hpieces, linesSpent, hrows]
    decide

/-- What is appended to a finished ledger are its own lines. -/
theorem newLines_geminiLedger {t : Text} (ht : (Py.encode t).isSome = true) :
    newLines (bytesOf geminiLedger) (bytesOf t) = splitlines (Py.universalNewlines false t) := by
  have hunfinished : unfinished geminiLedger = [] := by decide
  rw [newLines, readText_geminiLedger, Py.addedText, decode_bytesOf (by decide), decode_bytesOf ht]
  show splitlines (unfinished geminiLedger ++ _) = _
  rw [hunfinished]
  rfl

end ForgeKit.Provider.Budget
