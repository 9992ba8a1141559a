import ForgeKit.Calendar.ItemStates
import ForgeKit.DayPlan.TimeShift

/-!
# Calendar items of a date range (`yule_storage/calendar_state`, `list_calendar_state_records`)

The query asks for items of which one of four columns lies in the range, as a text. Of an event that
starts before the range and ends after it no column does.

* `columnInRange_iff` — which columns lie in the range
* `missesNothing_iff` — the query misses nothing if and only if no event spans the range
-/

namespace ForgeKit.Calendar

open Py (Text lit)
open IsoTime (Date DateTime formatOffset pad)
open KeyOrder (lexLe sortBy)
open DayPlan (toOrdinal addDays midnightOf dayLength timeOfDay momentOf)

/-! ## The query -/

def dateMin : Date := ⟨1, 1, 1, by decide, by decide, by decide⟩

def dateMax : Date := ⟨9999, 12, 31, by decide, by decide, by decide⟩

/-- `_RANGE_END_SENTINEL`. -/
def rangeEndSentinel : Text := dateMax.isoformat ++ lit "T23:59:59.999999+00:00"

/-- `range_end_exclusive_iso`: the day after, unless the end is `date.max`. -/
def rangeEndExclusiveIso (resolvedEnd : Date) : Text :=
  match addDays resolvedEnd 1 with
  | some next => next.isoformat
  | none => rangeEndSentinel

/-- `column IS NOT NULL AND column >= ? AND column < ?`. -/
def columnInRange (rangeStart rangeEndExclusive : Text) : Option Text → Bool
  | some t => lexLe rangeStart t && !lexLe rangeEndExclusive t
  | none => false

/-- The clause on the dates. -/
def rangeClause (startDate endDate : Option Date) (item : ItemRecord) : Bool :=
  if startDate = none ∧ endDate = none then true
  else
    let rangeStart := (startDate.getD dateMin).isoformat
    let rangeEndExclusive := rangeEndExclusiveIso (endDate.getD dateMax)
    [item.startAt, item.endAt, item.dueAt, item.completedAt].any
      (columnInRange rangeStart rangeEndExclusive)

/-- `<=` of columns, `NULL` first. -/
def columnLe : Option Text → Option Text → Bool
  | none, _ => true
  | some _, none => false
  | some t, some u => lexLe t u

/-- `item_type, COALESCE(due_at, start_at, end_at), title`. -/
def orderKey (row : StateRow) : Text × Option Text × Text :=
  (row.record.itemType, row.record.dueAt.or (row.record.startAt.or row.record.endAt), row.record.title)

/-- `<=` of what `ORDER BY` asks for. -/
def orderLe (k k' : Text × Option Text × Text) : Bool :=
  if k.1 ≠ k'.1 then lexLe k.1 k'.1
  else if k.2.1 ≠ k'.2.1 then columnLe k.2.1 k'.2.1
  else lexLe k.2.2 k'.2.2

/-- `CalendarStateRecord`: the columns of a row, with its payload read. -/
structure CalendarStateRecord where
  row : StateRow
  payload : List (Text × JsonText.Value)

/-- `list_calendar_state_records`. -/
def listCalendarStateRecords (table : StateTable) (startDate endDate : Option Date)
    (includeCompleted : Bool) : List CalendarStateRecord :=
  let rows := table.rows.filter fun row =>
    rangeClause startDate endDate row.record && (includeCompleted || !row.record.completed)
  (sortBy orderLe orderKey rows).map fun row =>
    ⟨row, (Storage.deserializeJsonObject row.record.payloadJson).getD []⟩

/-! ## What the range asks for -/

/-- What a column holds: a date, or a time. -/
inductive Stamp where
  | day (d : Date)
  | time (t : DateTime)

namespace Stamp

def text : Stamp → Text
  | day d => d.isoformat
  | time t => t.isoformat

def date : Stamp → Date
  | day d => d
  | time t => t.date

/-- The clock of a stamp; of a date, its midnight. -/
def clock : Stamp → Int
  | day d => midnightOf d
  | time t => (momentOf t).clock

/-- The stamp has the offset, if it is a time. -/
def HasOffset (offset : Option {n : Int // n.natAbs < 86400000000}) : Stamp → Prop
  | day _ => True
  | time t => t.offset = offset

/-- The last moment of the calendar, with an offset. -/
def IsLast : Stamp → Prop
  | day _ => False
  | time t => t.date = dateMax ∧ t.hour = 23 ∧ t.minute = 59 ∧ t.second = 59
    ∧ t.microsecond = 999999 ∧ t.offset.isSome = true

end Stamp

/-- The day is one of the range. -/
def OnRange (startDate endDate d : Date) : Prop :=
  toOrdinal startDate ≤ toOrdinal d ∧ toOrdinal d ≤ toOrdinal endDate

/-- The interval from one stamp to another contains a moment of a day of the range. -/
def Touches (startDate endDate : Date) (s e : Stamp) : Prop :=
  ∃ moment, s.clock ≤ moment ∧ moment ≤ e.clock
    ∧ midnightOf startDate ≤ moment ∧ moment < midnightOf endDate + dayLength

/-- The row is among the records of the range. -/
def Listed (table : StateTable) (startDate endDate : Date) (row : StateRow) : Prop :=
  ∃ record ∈ listCalendarStateRecords table (some startDate) (some endDate) true, record.row = row

/-- The range query returns every event that touches the range, and every todo that is due or
completed on one of its days. -/
def MissesNothing (offset : Option {n : Int // n.natAbs < 86400000000}) (table : StateTable)
    (startDate endDate : Date) : Prop :=
  (∀ row ∈ table.rows, row.record.itemType = lit "event" →
    ∀ s e : Stamp, s.HasOffset offset → e.HasOffset offset →
      row.record.startAt = some s.text → row.record.endAt = some e.text →
        Touches startDate endDate s e → Listed table startDate endDate row)
    ∧ ∀ row ∈ table.rows, row.record.itemType = lit "todo" →
      ∀ s : Stamp, s.HasOffset offset →
        (row.record.dueAt = some s.text ∨ row.record.completedAt = some s.text) →
          OnRange startDate endDate s.date → Listed table startDate endDate row

/-- One of the columns lies in the range, as a text. -/
def AnyInRange (startDate endDate : Date) (columns : List (Option Text)) : Prop :=
  ∃ column ∈ columns,
    columnInRange startDate.isoformat (rangeEndExclusiveIso endDate) column = true

/-- No event starts before the range and ends after it, unless it is due or completed in the range;
and nothing falls on the last moment of the calendar. -/
structure NoneSpans (offset : Option {n : Int // n.natAbs < 86400000000}) (table : StateTable)
    (startDate endDate : Date) : Prop where
  events : ∀ row ∈ table.rows, row.record.itemType = lit "event" →
    ∀ s e : Stamp, s.HasOffset offset → e.HasOffset offset →
      row.record.startAt = some s.text → row.record.endAt = some e.text →
        (toOrdinal s.date < toOrdinal startDate ∧ toOrdinal endDate < toOrdinal e.date)
          ∨ (e.IsLast ∧ endDate = dateMax ∧ (toOrdinal s.date < toOrdinal startDate ∨ s.IsLast)) →
          AnyInRange startDate endDate [row.record.dueAt, row.record.completedAt]
  todos : ∀ row ∈ table.rows, row.record.itemType = lit "todo" →
    ∀ s : Stamp, s.HasOffset offset →
      (row.record.dueAt = some s.text ∨ row.record.completedAt = some s.text) →
        s.IsLast → endDate = dateMax →
          AnyInRange startDate endDate
            [row.record.startAt, row.record.endAt, row.record.dueAt, row.record.completedAt]

/-! ## Columns in the range -/

/-- What follows the date of a stamp. -/
def Stamp.rest : Stamp → Text
  | day _ => []
  | time t => Py.ofChar 'T' :: (t.clockText ++ t.offsetText)

theorem Stamp.text_eq (s : Stamp) : s.text = s.date.isoformat ++ s.rest := by
  cases s with
  | day d => exact (List.append_nil _).symm
  | time t => exact t.isoformat_eq

/-- Against a date, the day of a stamp decides. -/
theorem lexLe_date_text (d : Date) (s : Stamp) :
    lexLe d.isoformat s.text = true ↔ toOrdinal d ≤ toOrdinal s.date := by
  have happend := IsoTime.lexLe_date_append (d := d) (e := s.date) (s := []) (t := s.rest)
  rw [List.append_nil, ← s.text_eq, DayPlan.before_iff] at happend
  rw [happend, le_iff_lt_or_eq]
  exact or_congr_right ⟨fun h => h.1 ▸ rfl, fun h => ⟨DayPlan.toOrdinal_injective h, rfl⟩⟩

/-- The moment that the sentinel names. -/
def lastMoment : DateTime where
  date := dateMax
  hour := 23
  minute := 59
  second := 59
  microsecond := 999999
  offset := some (IsoTime.hoursEast 0)

theorem rangeEndSentinel_eq : rangeEndSentinel = lastMoment.isoformat := by decide

/-- Each offset comes after that of UTC, as a text. -/
theorem lexLe_utc_formatOffset (n : {n : Int // n.natAbs < 86400000000}) :
    lexLe (formatOffset 0) (formatOffset n.1) = true := by
  have hn := n.2
  unfold formatOffset
  by_cases hneg : n.1 < 0
  · rw [if_pos hneg]
    exact KeyOrder.lexLe_cons.mpr (.inl (by decide))
  · rw [if_neg hneg, if_neg (lt_irrefl 0), IsoTime.lexLe_cons_self,
      IsoTime.lexLe_pad_append (by decide) (by omega), IsoTime.lexLe_cons_self,
      IsoTime.lexLe_pad_append (by decide) (by omega)]
    have hnil : ∀ t : Text, lexLe [] t = true := fun _ => rfl
    have hzero : Int.natAbs 0 / 1000000 % 60 = 0 ∧ Int.natAbs 0 % 1000000 = 0 := by decide
    have hhours : Int.natAbs 0 / 3600000000 = 0 ∧ Int.natAbs 0 / 60000000 % 60 = 0 := by decide
    rw [if_pos hzero, hhours.1, hhours.2]
    simp only [hnil, and_true]
    omega

/-- No day comes after the last one. -/
theorem not_before_dateMax (d : Date) : ¬dateMax.Before d := by
  rw [DayPlan.before_iff]
  exact not_lt.mpr (DayPlan.toOrdinal_le d)

/-- The sentinel comes up to a stamp when that is the last moment. -/
theorem lexLe_sentinel_text (s : Stamp) : lexLe rangeEndSentinel s.text = true ↔ s.IsLast := by
  rw [rangeEndSentinel_eq, DateTime.isoformat_eq, s.text_eq, IsoTime.lexLe_date_append,
    or_iff_right (show ¬lastMoment.date.Before s.date from not_before_dateMax _)]
  cases s with
  | day d => exact iff_of_false (fun h => nomatch h.2) id
  | time t =>
    have hclock : ¬lastMoment.ClockBefore t := by
      have hhour := t.hour.isLt
      have hminute := t.minute.isLt
      have hsecond := t.second.isLt
      have hmicros := t.microsecond.isLt
      show ¬(23 < t.hour.val ∨ 23 = t.hour.val ∧ (59 < t.minute.val ∨ 59 = t.minute.val ∧
        (59 < t.second.val ∨ 59 = t.second.val ∧ 999999 < t.microsecond.val)))
      omega
    have hoffset : lexLe lastMoment.offsetText t.offsetText = true ↔ t.offset.isSome = true := by
      unfold DateTime.offsetText
      cases t.offset with
      | none => exact iff_of_false (by decide) Bool.false_ne_true
      | some n => exact iff_of_true (lexLe_utc_formatOffset n) rfl
    rw [Stamp.rest, IsoTime.lexLe_cons_self, IsoTime.lexLe_clock_append
      (IsoTime.beforePoint_offsetText _) (IsoTime.beforePoint_offsetText _), or_iff_right hclock, hoffset]
    constructor
    · rintro ⟨hdate, ⟨hhour, hminute, hsecond, hmicros⟩, hsome⟩
      exact ⟨hdate.symm, hhour.symm, hminute.symm, hsecond.symm, hmicros.symm, hsome⟩
    · rintro ⟨hdate, hhour, hminute, hsecond, hmicros, hsome⟩
      exact ⟨hdate.symm, ⟨hhour.symm, hminute.symm, hsecond.symm, hmicros.symm⟩, hsome⟩

/-- **A column lies in the range when its day does**, but for the last moment of the calendar. -/
theorem columnInRange_iff {startDate endDate : Date} {s : Stamp} :
    columnInRange startDate.isoformat (rangeEndExclusiveIso endDate) (some s.text) = true ↔
      OnRange startDate endDate s.date ∧ ¬(endDate = dateMax ∧ s.IsLast) := by
  have hlast : ∀ d : Date, toOrdinal d ≤ toOrdinal dateMax := DayPlan.toOrdinal_le
  rw [columnInRange, Bool.and_eq_true, lexLe_date_text, Bool.not_eq_true', OnRange, and_assoc]
  refine and_congr_right fun _ => ?_
  unfold rangeEndExclusiveIso
  rcases DayPlan.addDays_cases endDate 1 with ⟨next, hnext, hto⟩ | ⟨hnone, hmax⟩
  · have hne : endDate ≠ dateMax := by
      rintro rfl
      have hle := hlast next
      omega
    rw [hnext, ← Bool.not_eq_true, lexLe_date_text]
    simp only [hne, false_and, not_false_eq_true, and_true]
    omega
  · have hpos := DayPlan.one_le_toOrdinal endDate
    have heq : endDate = dateMax := by
      have hle := hlast endDate
      have hval : toOrdinal dateMax = DayPlan.maxOrdinal := by decide
      exact DayPlan.toOrdinal_injective (by omega)
    rw [hnone, ← Bool.not_eq_true, lexLe_sentinel_text]
    simp only [heq, true_and, hlast s.date]

/-! ## What the query misses -/

variable {offset : Option {n : Int // n.natAbs < 86400000000}} {table : StateTable}
  {startDate endDate : Date} {row : StateRow}

theorem anyInRange_cons {column : Option Text} {columns : List (Option Text)} :
    AnyInRange startDate endDate (column :: columns) ↔
      columnInRange startDate.isoformat (rangeEndExclusiveIso endDate) column = true
        ∨ AnyInRange startDate endDate columns := by
  simp [AnyInRange]

/-- A row is listed when one of its four columns lies in the range. -/
theorem listed_iff (hrow : row ∈ table.rows) : Listed table startDate endDate row ↔
    AnyInRange startDate endDate
      [row.record.startAt, row.record.endAt, row.record.dueAt, row.record.completedAt] := by
  have hclause : rangeClause (some startDate) (some endDate) row.record = true ↔
      AnyInRange startDate endDate
        [row.record.startAt, row.record.endAt, row.record.dueAt, row.record.completedAt] := by
    rw [rangeClause, if_neg (fun h => nomatch h.1), List.any_eq_true]
    rfl
  rw [← hclause]
  unfold Listed listCalendarStateRecords
  constructor
  · rintro ⟨record, hrecord, rfl⟩
    obtain ⟨row', hrow', rfl⟩ := List.mem_map.mp hrecord
    rw [KeyOrder.mem_sortBy, List.mem_filter, Bool.and_eq_true] at hrow'
    exact hrow'.2.1
  · intro h
    refine ⟨⟨row, _⟩, List.mem_map.mpr ⟨row, KeyOrder.mem_sortBy.mpr ?_, rfl⟩, rfl⟩
    exact List.mem_filter.mpr ⟨hrow, by rw [h]; rfl⟩

/-- A stamp lies on its day. -/
theorem Stamp.clock_mem (s : Stamp) :
    midnightOf s.date ≤ s.clock ∧ s.clock < midnightOf s.date + dayLength := by
  cases s with
  | day d => exact ⟨le_refl _, Int.lt_add_of_pos_right _ (by decide)⟩
  | time t =>
    have hday := DayPlan.timeOfDay_mem t
    show midnightOf t.date ≤ (momentOf t).clock ∧ (momentOf t).clock < midnightOf t.date + dayLength
    rw [DayPlan.clock_momentOf]
    omega

/-- The last moment is the end of the last day. -/
theorem Stamp.clock_of_isLast {s : Stamp} (h : s.IsLast) :
    s.date = dateMax ∧ s.clock = midnightOf dateMax + (dayLength - 1) := by
  cases s with
  | day d => cases h
  | time t =>
    obtain ⟨hdate, hhour, hminute, hsecond, hmicros, -⟩ := h
    refine ⟨hdate, ?_⟩
    show (momentOf t).clock = _
    rw [DayPlan.clock_momentOf, hdate, timeOfDay, hhour, hminute, hsecond, hmicros]
    rfl

theorem midnightOf_le_dateMax (d : Date) : midnightOf d ≤ midnightOf dateMax := by
  have hle : toOrdinal d ≤ toOrdinal dateMax := DayPlan.toOrdinal_le d
  rw [DayPlan.midnightOf_eq, DayPlan.midnightOf_eq, DayPlan.dayLength_eq]
  omega

theorem Stamp.le_of_isLast {e : Stamp} (h : e.IsLast) (s : Stamp) : s.clock ≤ e.clock := by
  have hmem := s.clock_mem
  have hmidnight := midnightOf_le_dateMax s.date
  rw [(clock_of_isLast h).2]
  omega

/-- Nothing comes after the last moment but what is the last moment too. -/
theorem Stamp.isLast_of_le {s e : Stamp} (hs : s.HasOffset offset) (he : e.HasOffset offset)
    (hlast : s.IsLast) (hle : s.clock ≤ e.clock) : e.IsLast := by
  have hclock : midnightOf dateMax + (dayLength - 1) ≤ e.clock :=
    (clock_of_isLast hlast).2.symm.le.trans hle
  have hmem := e.clock_mem
  have hmax : toOrdinal e.date ≤ toOrdinal dateMax := DayPlan.toOrdinal_le e.date
  rw [DayPlan.midnightOf_eq] at hclock hmem
  have hday : e.date = dateMax := by
    rw [DayPlan.dayLength_eq] at hclock hmem
    exact DayPlan.toOrdinal_injective (by omega)
  cases e with
  | day d =>
    change d = dateMax at hday
    change _ ≤ midnightOf d at hclock
    rw [hday, DayPlan.midnightOf_eq, DayPlan.dayLength_eq] at hclock
    omega
  | time u =>
    cases s with
    | day d => cases hlast
    | time t =>
      change u.date = dateMax at hday
      change _ ≤ (momentOf u).clock at hclock
      rw [DayPlan.clock_momentOf, hday, DayPlan.midnightOf_eq] at hclock
      have hlate : dayLength - 1 ≤ timeOfDay u := by omega
      rw [DayPlan.dayLength_eq, timeOfDay, show DayPlan.minute = 60000000 from rfl] at hlate
      have hhour := u.hour.isLt
      have hminute := u.minute.isLt
      have hsecond := u.second.isLt
      have hmicros := u.microsecond.isLt
      have hsome : u.offset.isSome = true := by
        rw [show u.offset = t.offset from Eq.trans he hs.symm]
        exact hlast.2.2.2.2.2
      have hparts : u.hour.val = 23 ∧ u.minute.val = 59 ∧ u.second.val = 59
          ∧ u.microsecond.val = 999999 := by omega
      exact ⟨hday, Fin.ext hparts.1, Fin.ext hparts.2.1, Fin.ext hparts.2.2.1,
        Fin.ext hparts.2.2.2, hsome⟩

/-- When an event touches the range and neither of its ends lies in it. -/
theorem missed_iff (hrange : toOrdinal startDate ≤ toOrdinal endDate) {s e : Stamp}
    (hs : s.HasOffset offset) (he : e.HasOffset offset) :
    (Touches startDate endDate s e
        ∧ ¬(OnRange startDate endDate s.date ∧ ¬(endDate = dateMax ∧ s.IsLast))
        ∧ ¬(OnRange startDate endDate e.date ∧ ¬(endDate = dateMax ∧ e.IsLast))) ↔
      (toOrdinal s.date < toOrdinal startDate ∧ toOrdinal endDate < toOrdinal e.date)
        ∨ (e.IsLast ∧ endDate = dateMax ∧ (toOrdinal s.date < toOrdinal startDate ∨ s.IsLast)) := by
  have hsmem := s.clock_mem
  have hemem := e.clock_mem
  simp only [DayPlan.midnightOf_eq, DayPlan.dayLength_eq] at hsmem hemem
  simp only [Touches, OnRange, DayPlan.midnightOf_eq, DayPlan.dayLength_eq]
  constructor
  · rintro ⟨⟨moment, hsm, hme, hlo, hhi⟩, hsout, heout⟩
    have hbefore : toOrdinal s.date < toOrdinal startDate ∨ (endDate = dateMax ∧ s.IsLast) := by
      by_contra hnot
      obtain ⟨hstart, hlast⟩ := not_or.mp hnot
      exact hsout ⟨⟨not_lt.mp hstart, by omega⟩, hlast⟩
    rcases hbefore with hbefore | ⟨hmax, hlast⟩
    · by_cases hlast : endDate = dateMax ∧ e.IsLast
      · exact .inr ⟨hlast.2, hlast.1, .inl hbefore⟩
      · refine .inl ⟨hbefore, not_le.mp fun hle => heout ⟨⟨by omega, hle⟩, hlast⟩⟩
    · exact .inr ⟨Stamp.isLast_of_le hs he hlast (hsm.trans hme), hmax, .inr hlast⟩
  · rintro (⟨hbefore, hafter⟩ | ⟨hlast, hmax, hstart⟩)
    · refine ⟨⟨toOrdinal startDate * 86400000000, by omega, by omega, le_refl _, by omega⟩, ?_, ?_⟩
      · exact fun h => absurd h.1.1 (not_le.mpr hbefore)
      · exact fun h => absurd h.1.2 (not_le.mpr hafter)
    · have hle := Stamp.le_of_isLast hlast s
      have hday : toOrdinal e.date = toOrdinal endDate := by
        rw [(Stamp.clock_of_isLast hlast).1, hmax]
      have hclock := (Stamp.clock_of_isLast hlast).2
      rw [DayPlan.midnightOf_eq, ← hmax, DayPlan.dayLength_eq] at hclock
      refine ⟨⟨e.clock, hle, le_refl _, by omega, by omega⟩, ?_, fun h => h.2 ⟨hmax, hlast⟩⟩
      rcases hstart with hbefore | hlast'
      · exact fun h => absurd h.1.1 (not_le.mpr hbefore)
      · exact fun h => h.2 ⟨hmax, hlast'⟩

/--
**The range query misses nothing if and only if no event spans the range.** An event that starts
before the range and ends after it has to be due or completed in it; otherwise only what falls on the
last moment of the calendar is missed.
-/
theorem missesNothing_iff (hrange : toOrdinal startDate ≤ toOrdinal endDate) :
    MissesNothing offset table startDate endDate ↔ NoneSpans offset table startDate endDate := by
  constructor
  · rintro ⟨hevents, htodos⟩
    refine ⟨fun row hrow htype s e hs he hstart hend hspans => ?_,
      fun row hrow htype s hs hstamp hlast hmax => ?_⟩
    · obtain ⟨htouches, hsout, heout⟩ := (missed_iff hrange hs he).mpr hspans
      have hlisted := (listed_iff hrow).mp (hevents row hrow htype s e hs he hstart hend htouches)
      rw [anyInRange_cons, anyInRange_cons, hstart, hend, columnInRange_iff, columnInRange_iff] at hlisted
      exact (hlisted.resolve_left hsout).resolve_left heout
    · have hday : OnRange startDate endDate s.date := by
        rw [OnRange, (Stamp.clock_of_isLast hlast).1, hmax]
        exact ⟨hmax ▸ hrange, le_refl _⟩
      exact (listed_iff hrow).mp (htodos row hrow htype s hs hstamp hday)
  · rintro ⟨hevents, htodos⟩
    refine ⟨fun row hrow htype s e hs he hstart hend htouches => (listed_iff hrow).mpr ?_,
      fun row hrow htype s hs hstamp hday => (listed_iff hrow).mpr ?_⟩
    · rw [anyInRange_cons, anyInRange_cons, hstart, hend, columnInRange_iff, columnInRange_iff]
      by_contra hnot
      obtain ⟨hsout, hnot⟩ := not_or.mp hnot
      obtain ⟨heout, hnot⟩ := not_or.mp hnot
      exact hnot (hevents row hrow htype s e hs he hstart hend
        ((missed_iff hrange hs he).mp ⟨htouches, hsout, heout⟩))
    · by_cases hlast : s.IsLast ∧ endDate = dateMax
      · exact htodos row hrow htype s hs hstamp hlast.1 hlast.2
      · have hin := columnInRange_iff.mpr ⟨hday, fun h => hlast ⟨h.2, h.1⟩⟩
        rw [anyInRange_cons, anyInRange_cons, anyInRange_cons, anyInRange_cons]
        rcases hstamp with hdue | hcompleted
        · exact .inr (.inr (.inl (hdue ▸ hin)))
        · exact .inr (.inr (.inr (.inl (hcompleted ▸ hin))))

/-- Ten in the morning in Seoul, on a day of April. -/
def aprilMorning (day : Fin 30) : DateTime where
  date := ⟨2026, 4, day + 1, by decide, by decide, by
    have hdays : IsoTime.daysInMonth 2026 4 = 30 := rfl
    rw [hdays]
    omega⟩
  hour := 10
  minute := 0
  second := 0
  microsecond := 0
  offset := some (IsoTime.hoursEast 9)

/-- A conference of five days. -/
def conference : StateRow where
  record :=
    { source := lit "naver-caldav", itemType := lit "event", itemKey := lit "key"
      externalUid := lit "uid", calendarName := lit "내 캘린더", title := lit "학회"
      startAt := some (aprilMorning 19).isoformat, endAt := some (aprilMorning 24).isoformat
      dueAt := none, allDay := false, status := lit "CONFIRMED", completed := false
      completedAt := none, priority := none, percentComplete := none, description := []
      lastModified := none, categoryColor := none, payloadJson := [], stateHash := [] }
  scopeHash := []
  firstSeenAt := 0
  lastSeenAt := 0
  lastChangedAt := 0

/-- The table with the conference. -/
def conferenceTable : StateTable := ⟨[conference], List.nodup_singleton _⟩

theorem not_missesNothing_conference :
    ¬MissesNothing (aprilMorning 0).offset conferenceTable (aprilMorning 21).date
      (aprilMorning 21).date := by
  rintro ⟨hevents, -⟩
  have htouches : Touches (aprilMorning 21).date (aprilMorning 21).date (.time (aprilMorning 19))
      (.time (aprilMorning 24)) :=
    ⟨midnightOf (aprilMorning 21).date, by decide, by decide, by decide, by decide⟩
  have hlisted := (listed_iff List.mem_cons_self).mp (hevents conference List.mem_cons_self rfl
    (.time (aprilMorning 19)) (.time (aprilMorning 24)) rfl rfl rfl rfl htouches)
  obtain ⟨column, hmem, hin⟩ := hlisted
  have hnone : [conference.record.startAt, conference.record.endAt, conference.record.dueAt,
      conference.record.completedAt].all (fun column => !columnInRange
        (aprilMorning 21).date.isoformat (rangeEndExclusiveIso (aprilMorning 21).date) column) = true := by
    decide
  have hout := List.all_eq_true.mp hnone column hmem
  rw [hin] at hout
  cases hout

theorem missesNothing_conference_iff :
    MissesNothing (aprilMorning 0).offset conferenceTable (aprilMorning 19).date
        (aprilMorning 21).date ↔
      NoneSpans (aprilMorning 0).offset conferenceTable (aprilMorning 19).date
        (aprilMorning 21).date :=
  missesNothing_iff (by decide)

end ForgeKit.Calendar
