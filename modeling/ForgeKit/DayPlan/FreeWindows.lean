import ForgeKit.DayPlan.FocusBlocks
import ForgeKit.DayPlan.Records
import ForgeKit.Lib.Gaps

/-!
# Free windows of a schedule (`yule_planning/schedule`, `_available_windows`)

The start and the end of a block are texts. What parses is compared as `datetime`s are: two aware
times by their instants, two naive ones by their clocks, and one of each raises.

* `sweepTimes_eq` — in one time zone the loop over times is `sweep` over their clocks
* `sweep_eq` — `sweep` finds the gaps between the clipped blocks, of those with enough minutes
* `availableWindows_eq_gaps` — the free windows are exactly the gaps
-/

namespace ForgeKit.DayPlan

open Py (Text lit)
open IsoTime (Date DateTime)

/-! ## Times -/

/-- A `datetime` as it is compared: its clock in microseconds, and its `utcoffset`, if it has one. -/
structure Moment where
  clock : Int
  offset : Option Int
deriving DecidableEq

/-- `a - b` in microseconds; `none` is the `TypeError` between an aware time and a naive one. -/
def Moment.sub (a b : Moment) : Option Int :=
  match a.offset, b.offset with
  | some p, some q => some ((a.clock - p) - (b.clock - q))
  | none, none => some (a.clock - b.clock)
  | _, _ => none

/-- `a < b`. -/
def Moment.lt (a b : Moment) : Option Bool := (a.sub b).map fun d => decide (d < 0)

/-- `a <= b`. -/
def Moment.le (a b : Moment) : Option Bool := (a.sub b).map fun d => decide (d ≤ 0)

/-- `max(a, b)`. -/
def Moment.max (a b : Moment) : Option Moment := (a.lt b).map fun less => if less then b else a

/-- `min(a, b)`. -/
def Moment.min (a b : Moment) : Option Moment := (b.lt a).map fun less => if less then b else a

/-- The days of the first months of a year. -/
def daysInMonths (year : Nat) : Nat → Nat
  | 0 => 0
  | month + 1 => daysInMonths year month + IsoTime.daysInMonth year (month + 1)

/-- `date.toordinal`. -/
def toOrdinal (d : Date) : Nat :=
  let years := d.year - 1
  years * 365 + years / 4 - years / 100 + years / 400 + daysInMonths d.year (d.month - 1) + d.day

/-- `00:00` of a date. -/
def midnightOf (d : Date) : Int := toOrdinal d * (24 * 60) * minute

/-- A `datetime` that was parsed. -/
def momentOf (t : DateTime) : Moment where
  clock := midnightOf t.date + (t.hour * 60 + t.minute : Nat) * minute
    + (t.second * 1000000 + t.microsecond : Nat)
  offset := t.offset.map (·.1)

/-- `datetime.combine(date, time, tzinfo=timezone)`, of a time in microseconds and a zone by its
offset. -/
def combine (d : Date) (time zone : Int) : Moment := ⟨midnightOf d + time, some zone⟩

/-! ## The windows -/

variable (other : Text → Option DateTime)

/-- `datetime.fromisoformat`; `other` reads the forms that `isoformat` does not write. -/
def parse (text : Text) : Option Moment := (DateTime.fromisoformat other text).map momentOf

/-- `_derive_schedule_timezone`, with the offset of `local_tz()`. -/
def deriveScheduleTimezone (localZone : Int) (fixedSchedule : List PlanningTimeBlock) : Int :=
  (fixedSchedule.findSome? fun block => (parse other block.start).bind (·.offset)).getD localZone

/-- The start and the end of a block, if both parse. -/
def timedBlock (block : PlanningTimeBlock) : Option (Moment × Moment) := do
  let blockStart ← parse other block.start
  let blockEnd ← parse other block.stop
  some (blockStart, blockEnd)

/-- `timed_blocks.sort(key=lambda item: item[0])`: all starts can be compared, or it raises. -/
def sortTimes (blocks : List (Moment × Moment)) : Option (List (Moment × Moment)) :=
  if blocks.Pairwise fun a b => (a.1.sub b.1).isSome = true then
    some (blocks.mergeSort fun a b => (a.1.sub b.1).any fun d => decide (d ≤ 0))
  else none

/-- The window between two times, when it comes after the cursor and has enough minutes. -/
def freeWindow (cursor stop : Moment) : Option (List (Moment × Moment)) :=
  (stop.sub cursor).map fun length =>
    if 0 < length ∧ minimumFocusBlockMinutes ≤ length / minute then [(cursor, stop)] else []

/-- The loop over the blocks in order, from the cursor on. -/
def sweepTimes (dayStart dayEnd : Moment) :
    List (Moment × Moment) → Moment → Option (List (Moment × Moment))
  | [], cursor => freeWindow cursor dayEnd
  | (blockStart, blockEnd) :: blocks, cursor => do
    let endsBefore ← blockEnd.le dayStart
    if endsBefore then sweepTimes dayStart dayEnd blocks cursor
    else
      let startsAfter ← dayEnd.le blockStart
      if startsAfter then sweepTimes dayStart dayEnd blocks cursor
      else
        let clippedStart ← blockStart.max dayStart
        let clippedEnd ← blockEnd.min dayEnd
        let window ← freeWindow cursor clippedStart
        let moves ← cursor.lt clippedEnd
        let windows ← sweepTimes dayStart dayEnd blocks (if moves then clippedEnd else cursor)
        some (window ++ windows)

namespace Schedule

/-- `_available_windows`, of blocks as the plan has them. -/
def availableWindows (localZone : Int) (planDate : Date) (fixedSchedule : List PlanningTimeBlock)
    (dayStartTime : Int) : Option (List (Moment × Moment)) := do
  let zone := deriveScheduleTimezone other localZone fixedSchedule
  let dayStart := combine planDate dayStartTime zone
  let dayEnd := combine planDate planningDayEnd zone
  let timedBlocks ← sortTimes (fixedSchedule.filterMap (timedBlock other))
  sweepTimes dayStart dayEnd timedBlocks dayStart

end Schedule

/-! ## One time zone -/

/-- A clock in a time zone. -/
def inZone (zone clock : Int) : Moment := ⟨clock, some zone⟩

/-- The start and the end of a span in a time zone. -/
def timesIn (zone : Int) (s : Span) : Moment × Moment := (inZone zone s.start, inZone zone s.stop)

@[simp] theorem sub_inZone (zone a b : Int) : (inZone zone a).sub (inZone zone b) = some (a - b) := by
  show some ((a - zone) - (b - zone)) = some (a - b)
  rw [sub_sub_sub_cancel_right]

@[simp] theorem lt_inZone (zone a b : Int) :
    (inZone zone a).lt (inZone zone b) = some (decide (a < b)) := by
  simp [Moment.lt]

@[simp] theorem le_inZone (zone a b : Int) :
    (inZone zone a).le (inZone zone b) = some (decide (a ≤ b)) := by
  simp [Moment.le]

@[simp] theorem max_inZone (zone a b : Int) :
    (inZone zone a).max (inZone zone b) = some (inZone zone (max a b)) := by
  simp only [Moment.max, lt_inZone, Option.map_some, decide_eq_true_eq, Option.some.injEq]
  split
  · next h => rw [max_eq_right h.le]
  · next h => rw [max_eq_left (not_lt.mp h)]

@[simp] theorem min_inZone (zone a b : Int) :
    (inZone zone a).min (inZone zone b) = some (inZone zone (min a b)) := by
  simp only [Moment.min, lt_inZone, Option.map_some, decide_eq_true_eq, Option.some.injEq]
  split
  · next h => rw [min_eq_right h.le]
  · next h => rw [min_eq_left (not_lt.mp h)]

theorem freeWindow_inZone (zone cursor stop : Int) :
    freeWindow (inZone zone cursor) (inZone zone stop) =
      some ((if cursor < stop ∧ minimumFocusBlockMinutes ≤ minutes ⟨cursor, stop⟩ then
        [⟨cursor, stop⟩] else []).map (timesIn zone)) := by
  rw [freeWindow, sub_inZone, Option.map_some]
  show some (if 0 < stop - cursor ∧ minimumFocusBlockMinutes ≤ minutes ⟨cursor, stop⟩ then
    [timesIn zone ⟨cursor, stop⟩] else []) = _
  simp only [sub_pos]
  split <;> rfl

/-- **In one time zone the loop over times is the loop over their clocks.** -/
theorem sweepTimes_eq (zone dayStart dayEnd : Int) (spans : List Span) (cursor : Int) :
    sweepTimes (inZone zone dayStart) (inZone zone dayEnd) (spans.map (timesIn zone))
        (inZone zone cursor) =
      some ((sweep dayStart dayEnd spans cursor).map (timesIn zone)) := by
  induction spans generalizing cursor with
  | nil => exact freeWindow_inZone zone cursor dayEnd
  | cons b bs ih =>
    rw [List.map_cons, timesIn, sweepTimes, sweep]
    simp only [le_inZone, Option.bind_eq_bind, Option.bind_some, decide_eq_true_eq]
    by_cases hbefore : b.stop ≤ dayStart
    · rw [if_pos hbefore, if_pos (.inl hbefore), ih]
    · by_cases hafter : dayEnd ≤ b.start
      · rw [if_neg hbefore, if_pos hafter, if_pos (.inr hafter), ih]
      · rw [if_neg hbefore, if_neg hafter, if_neg (not_or.mpr ⟨hbefore, hafter⟩)]
        have hcursor : (if cursor < min b.stop dayEnd then inZone zone (min b.stop dayEnd)
            else inZone zone cursor) =
            inZone zone (if cursor < min b.stop dayEnd then min b.stop dayEnd else cursor) := by
          split <;> rfl
        simp only [max_inZone, min_inZone, lt_inZone, freeWindow_inZone, Option.bind_some,
          decide_eq_true_eq, hcursor, ih, List.map_append]

/-! ## The sweep finds the gaps -/

/-- A span as a pair of its ends. -/
def ends (s : Span) : Int × Int := (s.start, s.stop)

/-- The blocks, clipped to the day. -/
def clipped (dayStart dayEnd : Int) (spans : List Span) : List (Int × Int) :=
  (spans.map ends).filterMap (Gaps.clip dayStart dayEnd)

/-- **The sweep finds the gaps between the clipped blocks** that have enough minutes. -/
theorem sweep_eq (dayStart dayEnd : Int) (spans : List Span) (cursor : Int) :
    (sweep dayStart dayEnd spans cursor).map ends =
      (Gaps.gaps dayEnd (clipped dayStart dayEnd spans) cursor).filter fun w =>
        decide (minimumFocusBlockMinutes ≤ (w.2 - w.1) / minute) := by
  have hwindow : ∀ cursor stop : Int,
      (if cursor < stop ∧ minimumFocusBlockMinutes ≤ minutes ⟨cursor, stop⟩ then
          [(⟨cursor, stop⟩ : Span)] else []).map ends =
        (if cursor < stop then [(cursor, stop)] else []).filter fun w =>
          decide (minimumFocusBlockMinutes ≤ (w.2 - w.1) / minute) := by
    intro cursor stop
    by_cases hlt : cursor < stop
    · by_cases hlong : minimumFocusBlockMinutes ≤ (stop - cursor) / minute
      · simp [hlt, hlong, minutes, ends]
      · simp [hlt, hlong, minutes]
    · simp [hlt]
  induction spans generalizing cursor with
  | nil => exact hwindow cursor dayEnd
  | cons b bs ih =>
    have hclipped : clipped dayStart dayEnd (b :: bs) =
        (Gaps.clip dayStart dayEnd (ends b)).toList ++ clipped dayStart dayEnd bs := by
      unfold clipped
      rw [List.map_cons, List.filterMap_cons]
      cases Gaps.clip dayStart dayEnd (ends b) <;> rfl
    rw [sweep, hclipped]
    by_cases hout : b.stop ≤ dayStart ∨ dayEnd ≤ b.start
    · have hclip : Gaps.clip dayStart dayEnd (ends b) = none := if_pos hout
      rw [if_pos hout, hclip, ih]
      rfl
    · have hclip : Gaps.clip dayStart dayEnd (ends b)
          = some (max b.start dayStart, min b.stop dayEnd) := if_neg hout
      rw [if_neg hout, hclip]
      have hcursor : (if cursor < min b.stop dayEnd then min b.stop dayEnd else cursor)
          = max cursor (min b.stop dayEnd) := (max_def_lt _ _).symm
      show List.map ends (_ ++ _) = List.filter _ ((if cursor < max b.start dayStart then
        [(cursor, max b.start dayStart)] else []) ++ Gaps.gaps dayEnd _ (max cursor (min b.stop dayEnd)))
      rw [List.map_append, List.filter_append, hwindow, ih, hcursor]
      rfl

variable {dayStart dayEnd : Int} {spans : List Span}

/-- A day that ends before it starts has no gap. -/
theorem not_isGap_of_le {blocks : List (Int × Int)} {w : Int × Int} (h : dayEnd ≤ dayStart) :
    ¬Gaps.IsGap dayStart dayEnd blocks w := by
  rintro ⟨hfree, -⟩
  have hlt := hfree.lt
  have hlo := hfree.lo_le
  have hhi := hfree.le_hi
  omega

/-- **The sweep of a day finds exactly the gaps that have enough minutes.** -/
theorem mem_sweep_iff (hsorted : spans.Pairwise fun a b => a.start ≤ b.start)
    (hlt : ∀ b ∈ spans, b.start < b.stop) {w : Span} :
    w ∈ sweep dayStart dayEnd spans dayStart ↔
      Gaps.IsGap dayStart dayEnd (spans.map ends) (ends w)
        ∧ minimumFocusBlockMinutes ≤ minutes w := by
  have hblocks : ∀ b ∈ spans.map ends, b.1 < b.2 := List.forall_mem_map.mpr hlt
  by_cases hday : dayStart < dayEnd
  · have hmem : w ∈ sweep dayStart dayEnd spans dayStart ↔
        ends w ∈ (sweep dayStart dayEnd spans dayStart).map ends := by
      refine ⟨List.mem_map_of_mem, fun h => ?_⟩
      obtain ⟨v, hv, hends⟩ := List.mem_map.mp h
      obtain ⟨hstart, hstop⟩ := Prod.mk.inj hends
      rwa [show v = w from by cases v; cases w; exact congrArg₂ Span.mk hstart hstop] at hv
    have hclipped : ∀ b ∈ clipped dayStart dayEnd spans, b.1 < b.2 ∧ b.2 ≤ dayEnd := by
      intro c hc
      obtain ⟨b, hb, hc⟩ := List.mem_filterMap.mp hc
      exact Gaps.clip_spec hday (hblocks b hb) hc
    have hpairs : (clipped dayStart dayEnd spans).Pairwise fun b c => b.1 ≤ c.1 :=
      Gaps.pairwise_clip (List.pairwise_map.mpr hsorted)
    rw [hmem, sweep_eq, List.mem_filter, decide_eq_true_eq, Gaps.mem_gaps_iff hpairs hclipped,
      clipped, Gaps.isGap_clip hblocks]
    rfl
  · refine iff_of_false (fun hw => ?_) fun h => not_isGap_of_le (not_lt.mp hday) h.1
    obtain ⟨hlo, hww, hhi⟩ := mem_sweep hw
    have hstop := hhi (le_refl _)
    omega

theorem pairwise_lt_sweep (hlt : ∀ b ∈ spans, b.start < b.stop) :
    (sweep dayStart dayEnd spans dayStart).Pairwise fun v w => v.stop < w.start := by
  by_cases hday : dayStart < dayEnd
  · have hclipped : ∀ b ∈ clipped dayStart dayEnd spans, b.1 < b.2 := by
      intro c hc
      obtain ⟨b, hb, hc⟩ := List.mem_filterMap.mp hc
      obtain ⟨s, hs, rfl⟩ := List.mem_map.mp hb
      exact (Gaps.clip_spec hday (hlt s hs) hc).1
    have hpairs : ((sweep dayStart dayEnd spans dayStart).map ends).Pairwise
        fun v w => v.2 < w.1 := by
      rw [sweep_eq]
      exact (Gaps.pairwise_gaps hclipped).filter _
    exact List.pairwise_map.mp hpairs
  · have hnil : sweep dayStart dayEnd spans dayStart = [] := by
      refine List.eq_nil_iff_forall_not_mem.mpr fun w hw => ?_
      obtain ⟨hlo, hww, hhi⟩ := mem_sweep hw
      have hstop := hhi (le_refl _)
      omega
    rw [hnil]
    exact .nil

/-! ## The free windows are the gaps -/

/-- The span of a block whose start and end parse, by their clocks. -/
def blockSpan (block : PlanningTimeBlock) : Option Span :=
  (timedBlock other block).map fun times => ⟨times.1.clock, times.2.clock⟩

/-- The block parses in a time zone, and starts before it ends. -/
def TimedIn (zone : Int) (block : PlanningTimeBlock) : Prop :=
  ∃ s : Span, timedBlock other block = some (timesIn zone s) ∧ s.start < s.stop

variable {other} {zone : Int} {fixedSchedule : List PlanningTimeBlock}

theorem timedBlocks_eq (h : ∀ block ∈ fixedSchedule, TimedIn other zone block) :
    fixedSchedule.filterMap (timedBlock other) =
      (fixedSchedule.filterMap (blockSpan other)).map (timesIn zone) := by
  induction fixedSchedule with
  | nil => rfl
  | cons block blocks ih =>
    obtain ⟨⟨s, hs, -⟩, hrest⟩ := List.forall_mem_cons.mp h
    have hspan : blockSpan other block = some s := by
      rw [blockSpan, hs]
      rfl
    rw [List.filterMap_cons_some hs, List.filterMap_cons_some hspan, List.map_cons, ih hrest]

theorem blockSpans_lt (h : ∀ block ∈ fixedSchedule, TimedIn other zone block) :
    ∀ s ∈ fixedSchedule.filterMap (blockSpan other), s.start < s.stop := by
  intro s hs
  obtain ⟨block, hblock, hs⟩ := List.mem_filterMap.mp hs
  obtain ⟨s', hs', hlt⟩ := h block hblock
  rw [blockSpan, hs'] at hs
  cases hs
  exact hlt

theorem deriveScheduleTimezone_eq (localZone : Int) (hne : fixedSchedule ≠ [])
    (h : ∀ block ∈ fixedSchedule, TimedIn other zone block) :
    deriveScheduleTimezone other localZone fixedSchedule = zone := by
  cases fixedSchedule with
  | nil => exact absurd rfl hne
  | cons block blocks =>
    obtain ⟨s, hs, -⟩ := h block List.mem_cons_self
    have hstart : (parse other block.start).bind (·.offset) = some zone := by
      unfold timedBlock at hs
      cases hparse : parse other block.start with
      | none =>
        rw [hparse] at hs
        cases hs
      | some t =>
        cases hparse' : parse other block.stop with
        | none =>
          rw [hparse, hparse'] at hs
          cases hs
        | some u =>
          rw [hparse, hparse'] at hs
          cases hs
          rfl
    rw [deriveScheduleTimezone, List.findSome?_cons, hstart]
    rfl

theorem sortTimes_eq (zone : Int) (spans : List Span) :
    sortTimes (spans.map (timesIn zone)) = some ((inOrder spans).map (timesIn zone)) := by
  have hcomparable : (spans.map (timesIn zone)).Pairwise
      fun a b => (a.1.sub b.1).isSome = true := by
    refine List.pairwise_map.mpr (List.pairwise_of_forall fun a b => ?_)
    simp [timesIn]
  rw [sortTimes, if_pos hcomparable, inOrder]
  refine congrArg some (List.map_mergeSort fun a _ b _ => ?_).symm
  simp [timesIn]

/--
**The free windows are exactly the gaps.** For blocks that parse in one time zone and start before
they end, the windows come in order and apart, and they are the largest intervals from the start of
the day to 23:00 that meet no block, of those with thirty whole minutes.
-/
theorem availableWindows_eq_gaps (localZone : Int) (planDate : Date) (dayStartTime : Int)
    (h : ∀ block ∈ fixedSchedule, TimedIn other zone block) :
    ∃ (tz : Int) (windows : List Span), (fixedSchedule ≠ [] → tz = zone)
      ∧ Schedule.availableWindows other localZone planDate fixedSchedule dayStartTime
        = some (windows.map (timesIn tz))
      ∧ (windows.Pairwise fun v w => v.stop < w.start)
      ∧ ∀ w, w ∈ windows ↔
        Gaps.IsGap (midnightOf planDate + dayStartTime) (midnightOf planDate + planningDayEnd)
            ((fixedSchedule.filterMap (blockSpan other)).map ends) (ends w)
          ∧ minimumFocusBlockMinutes ≤ minutes w := by
  have hlt : ∀ b ∈ inOrder (fixedSchedule.filterMap (blockSpan other)), b.start < b.stop :=
    fun b hb => blockSpans_lt h b ((inOrder_perm _).mem_iff.mp hb)
  refine ⟨deriveScheduleTimezone other localZone fixedSchedule,
    sweep (midnightOf planDate + dayStartTime) (midnightOf planDate + planningDayEnd)
      (inOrder (fixedSchedule.filterMap (blockSpan other))) (midnightOf planDate + dayStartTime),
    fun hne => deriveScheduleTimezone_eq localZone hne h, ?_, pairwise_lt_sweep hlt, fun w => ?_⟩
  · -- without blocks the zone of the day is the local one
    have hsort : sortTimes (fixedSchedule.filterMap (timedBlock other)) =
        some ((inOrder (fixedSchedule.filterMap (blockSpan other))).map
          (timesIn (deriveScheduleTimezone other localZone fixedSchedule))) := by
      by_cases hne : fixedSchedule = []
      · subst hne
        exact sortTimes_eq _ []
      · rw [deriveScheduleTimezone_eq localZone hne h, timedBlocks_eq h, sortTimes_eq]
    unfold Schedule.availableWindows
    simp only [hsort, Option.bind_eq_bind, Option.bind_some]
    exact sweepTimes_eq _ _ _ _ _
  · rw [mem_sweep_iff (pairwise_inOrder _) hlt]
    refine and_congr_left fun _ => ?_
    rw [Gaps.isGap_of_perm ((inOrder_perm _).map ends)]

/-- A block of a working morning, by its clock in Seoul. -/
def morningBlock (start stop : String) : PlanningTimeBlock where
  start := lit "2026-05-04T" ++ lit start ++ lit ":00+09:00"
  stop := lit "2026-05-04T" ++ lit stop ++ lit ":00+09:00"
  blockType := lit "fixed_event"
  title := lit "회의"
  taskId := none
  locked := true

/-- A block over the start of the day, and one inside of another, not in order. -/
def morningSchedule : List PlanningTimeBlock :=
  [morningBlock "10:00" "12:00", morningBlock "11:00" "11:30", morningBlock "05:00" "06:20"]

theorem morningSchedule_gaps :
    ∃ (tz : Int) (windows : List Span), (morningSchedule ≠ [] → tz = 9 * 60 * minute)
      ∧ Schedule.availableWindows (fun _ => none) 0 ⟨2026, 5, 4, by decide, by decide, by decide⟩
        morningSchedule (6 * 60 * minute) = some (windows.map (timesIn tz))
      ∧ (windows.Pairwise fun v w => v.stop < w.start)
      ∧ ∀ w, w ∈ windows ↔
        Gaps.IsGap (midnightOf ⟨2026, 5, 4, by decide, by decide, by decide⟩ + 6 * 60 * minute)
            (midnightOf ⟨2026, 5, 4, by decide, by decide, by decide⟩ + planningDayEnd)
            ((morningSchedule.filterMap (blockSpan fun _ => none)).map ends) (ends w)
          ∧ minimumFocusBlockMinutes ≤ minutes w := by
  refine availableWindows_eq_gaps 0 _ _ fun block hblock => ?_
  have htimed : ∀ block ∈ morningSchedule, ∃ s ∈ [(⟨600, 720⟩ : Span), ⟨660, 690⟩, ⟨300, 380⟩],
      timedBlock (fun _ => none) block = some (timesIn (9 * 60 * minute)
        ⟨(739740 * (24 * 60) + s.start) * minute, (739740 * (24 * 60) + s.stop) * minute⟩) := by
    decide
  obtain ⟨s, hs, htimes⟩ := htimed block hblock
  refine ⟨_, htimes, ?_⟩
  have hlt : ∀ s ∈ [(⟨600, 720⟩ : Span), ⟨660, 690⟩, ⟨300, 380⟩], s.start < s.stop := by decide
  exact Int.mul_lt_mul_of_pos_right (Int.add_lt_add_left (hlt s hs) _) (by decide)

end ForgeKit.DayPlan
