import ForgeKit.Lib.PyStr
import ForgeKit.Lib.Spans

/-!
# Focus blocks (`yule_planning/schedule`)

The tasks of a day are put into windows, first fit. The free windows are what the fixed schedule
and lunch leave of the day; company tasks go into the work events instead. Times are microseconds
in the one time zone of the schedule.

* `mem_availableWindows`, `pairwise_availableWindows` — the free windows
* `carves_assignAll` — first fit carves the blocks off the windows
* `focusBlocks_sound` — which blocks and events do not overlap
-/

namespace ForgeKit.DayPlan

open Py (Text lit)

def minute : Int := 60 * 1000000

/-- `int((end - start).total_seconds() // 60)`. -/
def minutes (w : Span) : Int := (w.stop - w.start) / minute

/-- `PLANNING_DAY_END`. -/
def planningDayEnd : Int := 23 * 60 * minute

/-- `MINIMUM_FOCUS_BLOCK_MINUTES`. -/
def minimumFocusBlockMinutes : Int := 30

/-- `MAXIMUM_FOCUS_BLOCK_MINUTES`. -/
def maximumFocusBlockMinutes : Int := 120

/-- `PlanningTimeBlock`: a span of time, and what it is for. -/
structure TimeBlock where
  span : Span
  blockType : Text
  title : Text
  taskId : Text
  locked : Bool
  lt : span.start < span.stop
deriving DecidableEq

/-- What the plan reads of a `PlanningTaskCandidate`. -/
structure TaskCandidate where
  taskId : Text
  title : Text
  estimatedMinutes : Int
  categoryLabel : Option Text := none
  flexible : Bool := false
deriving DecidableEq

/-! ## Free windows -/

/-- The loop of `_available_windows` over the blocks in order, from the cursor on. -/
def sweep (dayStart dayEnd : Int) : List Span → Int → List Span
  | [], cursor =>
    if cursor < dayEnd ∧ minimumFocusBlockMinutes ≤ minutes ⟨cursor, dayEnd⟩ then [⟨cursor, dayEnd⟩]
    else []
  | b :: bs, cursor =>
    if b.stop ≤ dayStart ∨ dayEnd ≤ b.start then sweep dayStart dayEnd bs cursor
    else
      let clippedStart := max b.start dayStart
      let clippedEnd := min b.stop dayEnd
      (if cursor < clippedStart ∧ minimumFocusBlockMinutes ≤ minutes ⟨cursor, clippedStart⟩ then
          [⟨cursor, clippedStart⟩]
        else []) ++ sweep dayStart dayEnd bs (if cursor < clippedEnd then clippedEnd else cursor)

/-- Spans in order of their start, as `sort` leaves them. -/
def inOrder (spans : List Span) : List Span := spans.mergeSort fun a b => decide (a.start ≤ b.start)

/-- `_available_windows`, of a day that begins at `midnight`. -/
def availableWindows (midnight : Int) (fixedSchedule : List TimeBlock) (dayStartTime : Int) :
    List Span :=
  sweep (midnight + dayStartTime) (midnight + planningDayEnd)
    (inOrder (fixedSchedule.map (·.span))) (midnight + dayStartTime)

theorem pairwise_inOrder (spans : List Span) :
    (inOrder spans).Pairwise fun a b => a.start ≤ b.start := by
  have hsorted : (inOrder spans).Pairwise fun a b => decide (a.start ≤ b.start) = true :=
    List.pairwise_mergeSort (fun a b c => by simpa using le_trans)
      (fun a b => by simpa using le_total a.start b.start) spans
  exact hsorted.imp fun h => of_decide_eq_true h

theorem inOrder_perm (spans : List Span) : (inOrder spans).Perm spans := List.mergeSort_perm _ _

/-- What the sweep finds starts at the cursor or later, and ends by the end of the day. -/
theorem mem_sweep {dayStart dayEnd cursor : Int} {bs : List Span} {w : Span}
    (hw : w ∈ sweep dayStart dayEnd bs cursor) :
    cursor ≤ w.start ∧ w.start < w.stop ∧ (dayStart ≤ cursor → w.stop ≤ dayEnd) := by
  induction bs generalizing cursor with
  | nil =>
    rw [sweep] at hw
    split at hw
    · next h =>
      rw [List.mem_singleton] at hw
      subst hw
      exact ⟨le_refl _, h.1, fun _ => le_refl _⟩
    · cases hw
  | cons b bs ih =>
    rw [sweep] at hw
    split at hw
    · exact ih hw
    · next hin =>
      rcases List.mem_append.mp hw with hw | hw
      · split at hw
        · next h =>
          rw [List.mem_singleton] at hw
          subst hw
          refine ⟨le_refl _, h.1, fun hcursor => ?_⟩
          show max b.start dayStart ≤ dayEnd
          omega
        · cases hw
      · obtain ⟨hlo, hlt, hhi⟩ := ih hw
        refine ⟨?_, hlt, fun hcursor => hhi ?_⟩
        · split at hlo <;> omega
        · split <;> omega

/-- **What the sweep finds is free.** -/
theorem sweep_free {dayStart dayEnd cursor : Int} {bs : List Span} (hcursor : dayStart ≤ cursor)
    (hsorted : bs.Pairwise fun a b => a.start ≤ b.start) (hlt : ∀ b ∈ bs, b.start < b.stop)
    {w : Span} (hw : w ∈ sweep dayStart dayEnd bs cursor) : ∀ b ∈ bs, ¬w.Overlaps b := by
  induction bs generalizing cursor with
  | nil => exact fun _ hb => absurd hb List.not_mem_nil
  | cons b bs ih =>
    obtain ⟨hb, hbs⟩ := List.pairwise_cons.mp hsorted
    have hlt' := (List.forall_mem_cons.mp hlt).2
    obtain ⟨hlo, hww, hhi⟩ := mem_sweep hw
    have hend := hhi hcursor
    rw [sweep] at hw
    split at hw
    · next hout =>
      refine List.forall_mem_cons.mpr ⟨?_, ih hcursor hbs hlt' hw⟩
      unfold Span.Overlaps
      omega
    · next hin =>
      rcases List.mem_append.mp hw with hw | hw
      · split at hw
        · next h =>
          rw [List.mem_singleton] at hw
          subst hw
          have hstart : max b.start dayStart = b.start := by omega
          refine List.forall_mem_cons.mpr ⟨Span.not_overlaps_of_le ?_, fun b' hb' => ?_⟩
          · exact hstart.le
          · refine Span.not_overlaps_of_le ?_
            show max b.start dayStart ≤ b'.start
            rw [hstart]
            exact hb b' hb'
        · cases hw
      · have hcursor' : dayStart ≤ if cursor < min b.stop dayEnd then min b.stop dayEnd else cursor := by
          split <;> omega
        refine List.forall_mem_cons.mpr ⟨?_, ih hcursor' hbs hlt' hw⟩
        have hafter := (mem_sweep hw).1
        unfold Span.Overlaps
        split at hafter <;> omega

/-- The sweep finds its windows one after the other. -/
theorem pairwise_sweep {dayStart dayEnd cursor : Int} {bs : List Span} (hcursor : dayStart ≤ cursor)
    (hlt : ∀ b ∈ bs, b.start < b.stop) :
    (sweep dayStart dayEnd bs cursor).Pairwise fun a b => ¬a.Overlaps b := by
  induction bs generalizing cursor with
  | nil =>
    rw [sweep]
    split
    · exact List.pairwise_singleton _ _
    · exact .nil
  | cons b bs ih =>
    obtain ⟨hb, hbs⟩ := List.forall_mem_cons.mp hlt
    by_cases hout : b.stop ≤ dayStart ∨ dayEnd ≤ b.start
    · rw [sweep, if_pos hout]
      exact ih hcursor hbs
    · rw [sweep, if_neg hout]
      refine List.pairwise_append.mpr ⟨?_, ih ?_ hbs, fun v hv w hw => Span.not_overlaps_of_le ?_⟩
      · split
        · exact List.pairwise_singleton _ _
        · exact .nil
      · split <;> omega
      · have hafter := (mem_sweep hw).1
        split at hv
        · next h =>
          rw [List.mem_singleton] at hv
          subst hv
          show max b.start dayStart ≤ w.start
          split at hafter <;> omega
        · cases hv

variable {midnight dayStartTime : Int} {fixedSchedule : List TimeBlock}

theorem lt_inOrder : ∀ b ∈ inOrder (fixedSchedule.map (·.span)), b.start < b.stop := by
  intro b hb
  obtain ⟨block, -, rfl⟩ := List.mem_map.mp ((inOrder_perm _).mem_iff.mp hb)
  exact block.lt

/-- **A free window** overlaps no block of the schedule. -/
theorem mem_availableWindows {w : Span}
    (hw : w ∈ availableWindows midnight fixedSchedule dayStartTime) :
    w.start < w.stop ∧ ∀ block ∈ fixedSchedule, ¬w.Overlaps block.span := by
  refine ⟨(mem_sweep hw).2.1, fun block hblock => ?_⟩
  refine sweep_free (le_refl _) (pairwise_inOrder _) lt_inOrder hw _ ?_
  exact (inOrder_perm _).mem_iff.mpr (List.mem_map_of_mem hblock)

/-- **Free windows** do not overlap. -/
theorem pairwise_availableWindows :
    (availableWindows midnight fixedSchedule dayStartTime).Pairwise fun a b => ¬a.Overlaps b :=
  pairwise_sweep (le_refl _) lt_inOrder

/-! ## First fit -/

/-- The minutes of a window that a task takes. -/
def blockMinutes (task : TaskCandidate) (w : Span) : Int :=
  min (minutes w)
    (min (max minimumFocusBlockMinutes task.estimatedMinutes) maximumFocusBlockMinutes)

theorem blockMinutes_pos (task : TaskCandidate) {w : Span}
    (h : ¬minutes w < minimumFocusBlockMinutes) : 0 < blockMinutes task w := by
  unfold blockMinutes
  rw [Int.not_lt] at h
  have hmin : minimumFocusBlockMinutes = 30 := rfl
  have hmax : maximumFocusBlockMinutes = 120 := rfl
  omega

/-- The block of a task at the start of a window. -/
def focusBlock (task : TaskCandidate) (w : Span) (h : ¬minutes w < minimumFocusBlockMinutes) :
    TimeBlock where
  span := ⟨w.start, w.start + blockMinutes task w * minute⟩
  blockType := lit "focus"
  title := task.title
  taskId := task.taskId
  locked := false
  lt := by
    have hpos := blockMinutes_pos task h
    have hminute : minute = 60000000 := rfl
    show w.start < w.start + blockMinutes task w * minute
    rw [hminute]
    omega

/-- `_assign_task_block`: the block, and the windows after it. -/
def assignTaskBlock (task : TaskCandidate) : List Span → Option TimeBlock × List Span
  | [] => (none, [])
  | w :: ws =>
    if h : minutes w < minimumFocusBlockMinutes then
      ((assignTaskBlock task ws).1, w :: (assignTaskBlock task ws).2)
    else
      (some (focusBlock task w h), ⟨(focusBlock task w h).span.stop, w.stop⟩ :: ws)

/-- The loop over the tasks. -/
def assignAll : List TaskCandidate → List Span → List TimeBlock
  | [], _ => []
  | task :: tasks, ws =>
    (assignTaskBlock task ws).1.toList ++ assignAll tasks (assignTaskBlock task ws).2

/-- A block lies in its window, and before what is left of it. -/
theorem carve_focusBlock {task : TaskCandidate} {w : Span} {ws : List Span}
    (h : ¬minutes w < minimumFocusBlockMinutes) :
    Span.Carve (w :: ws) (focusBlock task w h).span
      (⟨(focusBlock task w h).span.stop, w.stop⟩ :: ws) := by
  have hpos := blockMinutes_pos task h
  have hle : blockMinutes task w ≤ minutes w := min_le_left _ _
  have hfloor : minutes w * minute ≤ w.stop - w.start := Int.ediv_mul_le _ (by decide)
  have hminute : minute = 60000000 := rfl
  have hstop : (focusBlock task w h).span.stop = w.start + blockMinutes task w * minute := rfl
  have hfits : (focusBlock task w h).span.stop ≤ w.stop := by
    rw [hminute] at hfloor hstop
    omega
  refine .here ⟨le_refl _, hfits⟩ ⟨?_, le_refl _⟩ (Span.not_overlaps_of_le (le_refl _))
  exact (focusBlock task w h).lt.le

theorem carve_assignTaskBlock (task : TaskCandidate) (ws : List Span) :
    (∃ block, (assignTaskBlock task ws).1 = some block ∧
      Span.Carve ws block.span (assignTaskBlock task ws).2) ∨
    ((assignTaskBlock task ws).1 = none ∧ (assignTaskBlock task ws).2 = ws) := by
  induction ws with
  | nil => exact .inr ⟨rfl, rfl⟩
  | cons w ws ih =>
    rw [assignTaskBlock]
    split
    · rcases ih with ⟨block, hblock, hcarve⟩ | ⟨hnone, hsame⟩
      · exact .inl ⟨block, hblock, .there hcarve⟩
      · exact .inr ⟨hnone, congrArg (w :: ·) hsame⟩
    · next h => exact .inl ⟨_, rfl, carve_focusBlock h⟩

/-- **First fit carves the blocks off the windows.** -/
theorem carves_assignAll (tasks : List TaskCandidate) (ws : List Span) :
    ∃ ws', Span.Carves ws ((assignAll tasks ws).map (·.span)) ws' := by
  induction tasks generalizing ws with
  | nil => exact ⟨ws, .nil ws⟩
  | cons task tasks ih =>
    obtain ⟨ws', hws'⟩ := ih (assignTaskBlock task ws).2
    refine ⟨ws', ?_⟩
    rcases carve_assignTaskBlock task ws with ⟨block, hblock, hcarve⟩ | ⟨hnone, hsame⟩
    · rw [assignAll, hblock]
      exact .cons hcarve hws'
    · rw [assignAll, hnone]
      rw [hsame] at hws'
      rw [hsame]
      exact hws'

/-- The block overlaps none of the others. -/
def ClearOf (b : TimeBlock) (blocks : List TimeBlock) : Prop :=
  ∀ e ∈ blocks, ¬b.span.Overlaps e.span

theorem exists_within_assignAll {tasks : List TaskCandidate} {ws : List Span} {b : TimeBlock}
    (hb : b ∈ assignAll tasks ws) : ∃ w ∈ ws, b.span.Within w := by
  obtain ⟨ws', hcarves⟩ := carves_assignAll tasks ws
  obtain ⟨i, w, hw, hwithin⟩ := hcarves.exists_within (List.mem_map_of_mem hb)
  exact ⟨w, List.mem_of_getElem? hw, hwithin⟩

theorem pairwise_assignAll {tasks : List TaskCandidate} {ws : List Span}
    (hws : ws.Pairwise fun a b => ¬a.Overlaps b) :
    (assignAll tasks ws).Pairwise fun b c => ¬b.span.Overlaps c.span := by
  obtain ⟨ws', hcarves⟩ := carves_assignAll tasks ws
  exact List.pairwise_map.mp (hcarves.pairwise_not_overlaps hws)

/-- **A block in a free window** overlaps no block of the schedule. -/
theorem clearOf_of_free {tasks : List TaskCandidate} {b : TimeBlock}
    (hb : b ∈ assignAll tasks (availableWindows midnight fixedSchedule dayStartTime)) :
    ClearOf b fixedSchedule := by
  obtain ⟨w, hw, hwithin⟩ := exists_within_assignAll hb
  intro e he hoverlap
  exact (mem_availableWindows hw).2 e he (hoverlap.mono hwithin (Span.Within.refl _))

/-- **Windows that do not overlap** have no more minutes than they cover. -/
theorem minutes_le_covered {ws : List Span} (h : ws.Pairwise fun a b => ¬a.Overlaps b) :
    (ws.map minutes).sum * minute ≤ (Span.covered ws).card := by
  rw [Span.card_covered h]
  clear h
  induction ws with
  | nil => exact le_of_eq (Int.zero_mul _)
  | cons w ws ih =>
    have hfloor : minutes w * minute ≤ w.stop - w.start := Int.ediv_mul_le _ (by decide)
    have hlength : w.stop - w.start ≤ max 0 (w.stop - w.start) := le_max_right _ _
    rw [List.map_cons, List.map_cons, List.sum_cons, List.sum_cons, Int.add_mul]
    omega

/-! ## The plan -/

/-- What `build_focus_blocks` is given, beside the mode. -/
structure DayInputs where
  midnight : Int
  fixedSchedule : List TimeBlock
  tasks : List TaskCandidate
  focusStartTime : Int := 6 * 60 * minute
  lunchStartTime : Option Int := none
  lunchDurationMinutes : Int := 0
deriving DecidableEq

/-- `"업무 수행" in block.title`. -/
def isWorkEvent (block : TimeBlock) : Bool := Py.contains block.title (lit "업무 수행")

/-- `task.category_label == "회사 업무"`. -/
def isCompanyTask (task : TaskCandidate) : Bool := task.categoryLabel == some (lit "회사 업무")

/-- A positive number of minutes moves an instant on. -/
theorem lt_add_minutes (t : Int) {n : Int} (h : ¬n ≤ 0) : t < t + n * minute := by
  have hminute : minute = 60000000 := rfl
  rw [hminute]
  omega

namespace DayInputs

variable (inputs : DayInputs)

/-- `_build_lunch_block`. -/
def lunchBlock : Option TimeBlock :=
  match inputs.lunchStartTime with
  | none => none
  | some start =>
    if h : inputs.lunchDurationMinutes ≤ 0 then none
    else some
      { span := ⟨inputs.midnight + start,
          inputs.midnight + start + inputs.lunchDurationMinutes * minute⟩
        blockType := lit "fixed_event"
        title := lit "점심 산책"
        taskId := lit "planning-lunch-window"
        locked := true
        lt := lt_add_minutes _ h }

def schedulableTasks : List TaskCandidate := inputs.tasks.filter (!·.flexible)

/-- The windows of the free mode, in which work events do not count. -/
def freeModeWindows : List Span :=
  availableWindows inputs.midnight
    (inputs.fixedSchedule.filter (!isWorkEvent ·) ++ inputs.lunchBlock.toList) inputs.focusStartTime

/-- The windows of the work events. -/
def workWindows : List Span :=
  inOrder ((inputs.fixedSchedule.filter isWorkEvent).map (·.span))

/-- The windows outside of the fixed schedule and of lunch. -/
def nonWorkWindows : List Span :=
  availableWindows inputs.midnight (inputs.fixedSchedule ++ inputs.lunchBlock.toList)
    inputs.focusStartTime

/-- The windows that a mode uses. -/
def windows (workModeEnabled : Bool) : List Span :=
  if workModeEnabled then inputs.workWindows ++ inputs.nonWorkWindows else inputs.freeModeWindows

def freeModeBlocks : List TimeBlock :=
  assignAll (inputs.schedulableTasks.take 6) inputs.freeModeWindows

def workFocusBlocks : List TimeBlock :=
  assignAll ((inputs.schedulableTasks.filter isCompanyTask).take 6) inputs.workWindows

def otherFocusBlocks : List TimeBlock :=
  assignAll ((inputs.schedulableTasks.filter (!isCompanyTask ·)).take 6) inputs.nonWorkWindows

/-- `build_focus_blocks`: the blocks, and `available_focus_minutes`. -/
def buildFocusBlocks (workModeEnabled : Bool) : List TimeBlock × Int :=
  (if workModeEnabled then
      (inputs.workFocusBlocks ++ inputs.otherFocusBlocks).mergeSort
        fun a b => decide (a.span.start ≤ b.span.start)
    else inputs.freeModeBlocks,
    ((inputs.windows workModeEnabled).map minutes).sum)

/-! ### What is not booked twice -/

/-- No block overlaps another one, lunch, or a fixed event other than the work event that a company
task was put into; and the minutes are those of the windows, counted once. -/
structure NeverDoubleBooked (workModeEnabled : Bool) : Prop where
  disjoint : (inputs.buildFocusBlocks workModeEnabled).1.Pairwise
    fun b c => ¬b.span.Overlaps c.span
  lunch : ∀ b ∈ (inputs.buildFocusBlocks workModeEnabled).1, ClearOf b inputs.lunchBlock.toList
  fixed : ∀ b ∈ (inputs.buildFocusBlocks workModeEnabled).1, ClearOf b inputs.fixedSchedule ∨
    workModeEnabled = true ∧ b ∈ inputs.workFocusBlocks ∧ ∃ e rest,
      (e :: rest).Perm inputs.fixedSchedule ∧ isWorkEvent e = true ∧ b.span.Within e.span ∧
        ClearOf b rest
  minutes : (inputs.buildFocusBlocks workModeEnabled).2 * minute
    ≤ (Span.covered (inputs.windows workModeEnabled)).card

/-- In the free mode nothing but a work event is booked twice. -/
structure FreeModeSound : Prop where
  disjoint : (inputs.buildFocusBlocks false).1.Pairwise fun b c => ¬b.span.Overlaps c.span
  lunch : ∀ b ∈ (inputs.buildFocusBlocks false).1, ClearOf b inputs.lunchBlock.toList
  fixed : ∀ b ∈ (inputs.buildFocusBlocks false).1,
    ClearOf b (inputs.fixedSchedule.filter (!isWorkEvent ·))
  minutes : (inputs.buildFocusBlocks false).2 * minute
    ≤ (Span.covered (inputs.windows false)).card

/-- No work event overlaps lunch or another fixed event. -/
def WorkEventsClear : Prop :=
  (inputs.fixedSchedule.Pairwise fun a b =>
      isWorkEvent a = true ∨ isWorkEvent b = true → ¬a.span.Overlaps b.span) ∧
    ∀ e ∈ inputs.fixedSchedule, isWorkEvent e = true → ClearOf e inputs.lunchBlock.toList

/-- In work mode only a company task may be booked twice, within a work event that overlaps
something else. -/
structure WorkModeSound : Prop where
  blocks : (inputs.buildFocusBlocks true).1.Perm (inputs.workFocusBlocks ++ inputs.otherFocusBlocks)
  others : ∀ b ∈ inputs.otherFocusBlocks, ClearOf b inputs.fixedSchedule ∧
    ClearOf b inputs.lunchBlock.toList ∧ ClearOf b inputs.workFocusBlocks
  othersDisjoint : inputs.otherFocusBlocks.Pairwise fun b c => ¬b.span.Overlaps c.span
  company : ∀ b ∈ inputs.workFocusBlocks, ∃ e ∈ inputs.fixedSchedule, isWorkEvent e = true ∧
    b.span.Within e.span
  companyApart : inputs.workFocusBlocks.Pairwise fun b c =>
    Span.Apart inputs.workWindows b.span c.span
  disjoint : inputs.workWindows.Pairwise (fun a b => ¬a.Overlaps b) →
    (inputs.buildFocusBlocks true).1.Pairwise fun b c => ¬b.span.Overlaps c.span
  lunch : (∀ e ∈ inputs.fixedSchedule, isWorkEvent e = true → ClearOf e inputs.lunchBlock.toList) →
    ∀ b ∈ (inputs.buildFocusBlocks true).1, ClearOf b inputs.lunchBlock.toList
  minutes : inputs.workWindows.Pairwise (fun a b => ¬a.Overlaps b) →
    (inputs.buildFocusBlocks true).2 * minute ≤ (Span.covered (inputs.windows true)).card
  whole : inputs.WorkEventsClear → inputs.NeverDoubleBooked true

theorem freeModeSound : inputs.FreeModeSound where
  disjoint := pairwise_assignAll pairwise_availableWindows
  lunch := fun _ hb e he => clearOf_of_free hb e (List.mem_append_right _ he)
  fixed := fun _ hb e he => clearOf_of_free hb e (List.mem_append_left _ he)
  minutes := minutes_le_covered pairwise_availableWindows

theorem mem_workWindows {w : Span} (hw : w ∈ inputs.workWindows) :
    ∃ e ∈ inputs.fixedSchedule, isWorkEvent e = true ∧ e.span = w := by
  obtain ⟨e, he, rfl⟩ := List.mem_map.mp ((inOrder_perm _).mem_iff.mp hw)
  obtain ⟨he, hwork⟩ := List.mem_filter.mp he
  exact ⟨e, he, hwork, rfl⟩

theorem company_within {b : TimeBlock} (hb : b ∈ inputs.workFocusBlocks) :
    ∃ e ∈ inputs.fixedSchedule, isWorkEvent e = true ∧ b.span.Within e.span := by
  obtain ⟨w, hw, hwithin⟩ := exists_within_assignAll hb
  obtain ⟨e, he, hwork, rfl⟩ := inputs.mem_workWindows hw
  exact ⟨e, he, hwork, hwithin⟩

theorem others_clear {b : TimeBlock} (hb : b ∈ inputs.otherFocusBlocks) :
    ClearOf b inputs.fixedSchedule ∧ ClearOf b inputs.lunchBlock.toList ∧
      ClearOf b inputs.workFocusBlocks := by
  have hclear := clearOf_of_free hb
  have hfixed : ClearOf b inputs.fixedSchedule := fun e he =>
    hclear e (List.mem_append_left _ he)
  refine ⟨hfixed, fun e he => hclear e (List.mem_append_right _ he), fun c hc hoverlap => ?_⟩
  obtain ⟨e, he, -, hwithin⟩ := inputs.company_within hc
  exact hfixed e he (hoverlap.mono (Span.Within.refl _) hwithin)

variable {inputs}

/-- Work events that are clear of the others are windows that do not overlap. -/
theorem WorkEventsClear.pairwise_workWindows (h : inputs.WorkEventsClear) :
    inputs.workWindows.Pairwise fun a b => ¬a.Overlaps b := by
  have hwork : (inputs.fixedSchedule.filter isWorkEvent).Pairwise
      fun a b => ¬a.span.Overlaps b.span :=
    (h.1.filter isWorkEvent).imp_of_mem fun ha _ hab => hab (.inl (List.mem_filter.mp ha).2)
  refine ((inOrder_perm _).pairwise_iff fun hab hba => hab hba.symm).mpr ?_
  exact List.pairwise_map.mpr hwork

/-- A company block in a work event that is clear of the others overlaps no other event. -/
theorem WorkEventsClear.company_fixed (h : inputs.WorkEventsClear) {b e : TimeBlock}
    (he : e ∈ inputs.fixedSchedule) (hwork : isWorkEvent e = true) (hwithin : b.span.Within e.span) :
    ∃ rest, (e :: rest).Perm inputs.fixedSchedule ∧ ClearOf b rest := by
  obtain ⟨before, after, hsplit⟩ := List.append_of_mem he
  have hperm : (e :: (before ++ after)).Perm inputs.fixedSchedule := by
    rw [hsplit]
    exact List.perm_middle.symm
  refine ⟨before ++ after, hperm, fun f hf hoverlap => ?_⟩
  have hpairwise := (hperm.pairwise_iff
    (fun hab hor hba => hab hor.symm hba.symm)).mpr h.1
  exact (List.pairwise_cons.mp hpairwise).1 f hf (.inl hwork)
    (hoverlap.mono hwithin (Span.Within.refl _))

theorem perm_buildFocusBlocks : (inputs.buildFocusBlocks true).1.Perm
    (inputs.workFocusBlocks ++ inputs.otherFocusBlocks) := List.mergeSort_perm _ _

theorem mem_buildFocusBlocks {b : TimeBlock} (hb : b ∈ (inputs.buildFocusBlocks true).1) :
    b ∈ inputs.workFocusBlocks ∨ b ∈ inputs.otherFocusBlocks :=
  List.mem_append.mp (perm_buildFocusBlocks.mem_iff.mp hb)

theorem disjoint_buildFocusBlocks (h : inputs.workWindows.Pairwise fun a b => ¬a.Overlaps b) :
    (inputs.buildFocusBlocks true).1.Pairwise fun b c => ¬b.span.Overlaps c.span := by
  refine (perm_buildFocusBlocks.pairwise_iff fun hab hba => hab hba.symm).mpr
    (List.pairwise_append.mpr ⟨pairwise_assignAll h, pairwise_assignAll pairwise_availableWindows,
      fun b hb c hc hoverlap => ?_⟩)
  exact (inputs.others_clear hc).2.2 b hb hoverlap.symm

theorem lunch_buildFocusBlocks
    (h : ∀ e ∈ inputs.fixedSchedule, isWorkEvent e = true → ClearOf e inputs.lunchBlock.toList) :
    ∀ b ∈ (inputs.buildFocusBlocks true).1, ClearOf b inputs.lunchBlock.toList := by
  intro b hb
  rcases mem_buildFocusBlocks hb with hb | hb
  · obtain ⟨e, he, hwork, hwithin⟩ := inputs.company_within hb
    intro l hl hoverlap
    exact h e he hwork l hl (hoverlap.mono hwithin (Span.Within.refl _))
  · exact (inputs.others_clear hb).2.1

theorem minutes_buildFocusBlocks (h : inputs.workWindows.Pairwise fun a b => ¬a.Overlaps b) :
    (inputs.buildFocusBlocks true).2 * minute ≤ (Span.covered (inputs.windows true)).card := by
  refine minutes_le_covered (List.pairwise_append.mpr ⟨h, pairwise_availableWindows,
    fun v hv w hw hoverlap => ?_⟩)
  obtain ⟨e, he, -, rfl⟩ := inputs.mem_workWindows hv
  exact (mem_availableWindows hw).2 e (List.mem_append_left _ he) hoverlap.symm

theorem WorkEventsClear.neverDoubleBooked (h : inputs.WorkEventsClear) :
    inputs.NeverDoubleBooked true where
  disjoint := disjoint_buildFocusBlocks h.pairwise_workWindows
  lunch := lunch_buildFocusBlocks h.2
  fixed := by
    intro b hb
    rcases mem_buildFocusBlocks hb with hb | hb
    · obtain ⟨e, he, hwork, hwithin⟩ := inputs.company_within hb
      obtain ⟨rest, hperm, hrest⟩ := h.company_fixed he hwork hwithin
      exact .inr ⟨rfl, hb, e, rest, hperm, hwork, hwithin, hrest⟩
    · exact .inl (inputs.others_clear hb).1
  minutes := minutes_buildFocusBlocks h.pairwise_workWindows

variable (inputs)

theorem workModeSound : inputs.WorkModeSound where
  blocks := perm_buildFocusBlocks
  others := fun _ hb => inputs.others_clear hb
  othersDisjoint := pairwise_assignAll pairwise_availableWindows
  company := fun _ hb => inputs.company_within hb
  companyApart := by
    obtain ⟨ws', hcarves⟩ := carves_assignAll
      ((inputs.schedulableTasks.filter isCompanyTask).take 6) inputs.workWindows
    exact List.pairwise_map.mp hcarves.pairwise
  disjoint := disjoint_buildFocusBlocks
  lunch := lunch_buildFocusBlocks
  minutes := minutes_buildFocusBlocks
  whole := WorkEventsClear.neverDoubleBooked

/-- **What the day plan does not book twice**, in the free mode and in work mode. -/
theorem focusBlocks_sound : inputs.FreeModeSound ∧ inputs.WorkModeSound :=
  ⟨inputs.freeModeSound, inputs.workModeSound⟩

/-- A day with one work event, from nine to six, and one task. -/
def workDay : DayInputs where
  midnight := 0
  fixedSchedule :=
    [⟨⟨9 * 60 * minute, 18 * 60 * minute⟩, lit "fixed_event", lit "업무 수행", lit "e1", true,
      by decide⟩]
  tasks := [⟨lit "t1", lit "t", 60, none, false⟩]
  focusStartTime := 9 * 60 * minute

/-- **The free mode puts a task over a work event.** -/
theorem workDay_doubleBooked : ¬workDay.NeverDoubleBooked false := by
  intro h
  have hblock : ∃ b ∈ (workDay.buildFocusBlocks false).1, ∃ e ∈ workDay.fixedSchedule,
      b.span.Overlaps e.span := by decide +kernel
  obtain ⟨b, hb, e, he, hoverlap⟩ := hblock
  rcases h.fixed b hb with hclear | ⟨hmode, -⟩
  · exact hclear e he hoverlap
  · cases hmode

end DayInputs

end ForgeKit.DayPlan
