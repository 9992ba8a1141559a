import ForgeKit.Lib.ScanWindows
import Mathlib.Data.List.Sort
import Mathlib.Tactic.Linarith
import ForgeKit.Lib.Machine

/-!
# The preparation loop (`_legacy.py`, `day_profile.py`, `scheduling.py`)

A day is a number, a wall clock counts microseconds from the start of day 0, and an instant is what
two aware datetimes are compared by. The profile's times are read in the zone of `local_tz`, and the
date of a scan is the date of the system's clock: the two may be different zones.

Each scan asks for the steps between the last scan and now, runs them, and remembers those that went
well. The scan looks at the plan dates from the date of the last scan to the date of now, while a
step of a plan date may fall on the day before.

* `countP_collect` — what one scan returns of a step
* `returned_iff` — a step is returned exactly once exactly when the scan in whose window it falls
  looks at its plan date
-/

namespace ForgeKit

namespace Schedule

/-- The two clocks. -/
structure Zones where
  /-- The instant of a wall-clock time of `local_tz`. -/
  instant : ℤ → ℤ
  /-- `now.date()`, for an instant read with `datetime.now().astimezone()`. -/
  dateOf : ℤ → ℤ

def microsPerDay : ℤ := 86400000000

def microsPerMinute : ℤ := 60000000

/-- The times of `DayProfile` that the schedules read, in microseconds from midnight. -/
structure DayProfile where
  wakeTime : ℤ
  workStartTime : ℤ
  lunchStartTime : ℤ
  workEndTime : ℤ

inductive BriefingType where
  | morning
  | workStart
  | lunch
  | evening
deriving DecidableEq, Repr

/-- `DayProfileBriefingSlot`, without the title. -/
structure BriefingSlot where
  briefingType : BriefingType
  /-- `send_at`, on the wall clock. -/
  sendAt : ℤ
deriving DecidableEq, Repr

/-- `datetime.combine`. -/
def combine (planDate time : ℤ) : ℤ := planDate * microsPerDay + time

namespace DayProfile

/-- The time of a briefing. -/
def timeOf (profile : DayProfile) : BriefingType → ℤ
  | .morning => profile.wakeTime
  | .workStart => profile.workStartTime
  | .lunch => profile.lunchStartTime
  | .evening => profile.workEndTime

/-- `briefing_schedule`. -/
def briefingSchedule (profile : DayProfile) (planDate : ℤ) : List BriefingSlot :=
  [BriefingType.morning, .workStart, .lunch, .evening].map fun briefingType =>
    ⟨briefingType, combine planDate (profile.timeOf briefingType)⟩

end DayProfile

/-! ## Preparation steps -/

inductive PreparationStep where
  | calendarSync
  | githubSync
  | planningSnapshot
deriving DecidableEq, Repr

/-- `DAILY_PREPARATION_…_OFFSET_MINUTES`. -/
def PreparationStep.offsetMinutes : PreparationStep → ℤ
  | .calendarSync => 10
  | .githubSync => 5
  | .planningSnapshot => 2

/-- The wall-clock time of a step. -/
def scheduledAt (profile : DayProfile) (planDate : ℤ) (step : PreparationStep) : ℤ :=
  combine planDate profile.wakeTime - step.offsetMinutes * microsPerMinute

/-- `_daily_preparation_schedule_for`. -/
def dailyPreparationScheduleFor (profile : DayProfile) (planDate : ℤ) : List (PreparationStep × ℤ) :=
  [PreparationStep.calendarSync, .githubSync, .planningSnapshot].map fun step =>
    (step, scheduledAt profile planDate step)

/-- A step that is due, with its plan date and its time. -/
structure DueStep where
  step : PreparationStep
  planDate : ℤ
  scheduledAt : ℤ
deriving DecidableEq, Repr

/-- The steps of one date that are due. -/
def dueStepsOf (zones : Zones) (profile : DayProfile) (lastScan scanTime : ℤ)
    (completed : List (ℤ × PreparationStep)) (planDate : ℤ) : List DueStep :=
  (dailyPreparationScheduleFor profile planDate).filterMap fun (step, scheduledAt) =>
    if (planDate, step) ∈ completed then none
    else if lastScan < zones.instant scheduledAt ∧ zones.instant scheduledAt ≤ scanTime then
      some ⟨step, planDate, scheduledAt⟩
    else none

/-- `_collect_due_daily_preparation_steps`. -/
def collectDueDailyPreparationSteps (zones : Zones) (profile : DayProfile) (lastScan scanTime : ℤ)
    (completed : List (ℤ × PreparationStep)) : List DueStep :=
  if scanTime ≤ lastScan then []
  else
    ((ScanWindows.daysBetween (zones.dateOf lastScan) (zones.dateOf scanTime)).flatMap
      (dueStepsOf zones profile lastScan scanTime completed)).insertionSort
      fun a b => a.scheduledAt ≤ b.scheduledAt

/-! ## Briefing slots -/

/-- A slot that is due, with its plan date. -/
structure DueSlot where
  slot : BriefingSlot
  planDate : ℤ
deriving DecidableEq, Repr

/-- `_collect_due_briefing_slots`. -/
def collectDueBriefingSlots (zones : Zones) (profile : DayProfile) (lastScan scanTime : ℤ) :
    List DueSlot :=
  if scanTime ≤ lastScan then []
  else
    ((ScanWindows.daysBetween (zones.dateOf lastScan) (zones.dateOf scanTime)).flatMap fun planDate =>
      ((profile.briefingSchedule planDate).filter fun slot =>
        lastScan < zones.instant slot.sendAt ∧ zones.instant slot.sendAt ≤ scanTime).map
        fun slot => ⟨slot, planDate⟩).insertionSort
      fun a b => a.slot.sendAt ≤ b.slot.sendAt

end Schedule

end ForgeKit

namespace ForgeKit

namespace Schedule

/-! ## The loop -/

/-- A scan, with what becomes of the steps it returns. -/
structure PreparationScan where
  time : ℤ
  succeeds : PreparationStep → ℤ → Bool

/-- What `_run_daily_preparation_loop` keeps, and a record of what the scans returned. -/
structure PreparationLoop where
  lastScan : ℤ
  completed : List (ℤ × PreparationStep)
  returned : List DueStep

namespace PreparationLoop

def start (now : ℤ) : PreparationLoop := ⟨now, [], []⟩

/-- `_cleanup_completed_preparation_steps`. -/
def cleanup (completed : List (ℤ × PreparationStep)) (today : ℤ) : List (ℤ × PreparationStep) :=
  completed.filter fun key => !decide (key.1 < today)

/-- One turn of the loop. -/
def scan (zones : Zones) (profile : DayProfile) (s : PreparationLoop) (scan : PreparationScan) :
    PreparationLoop :=
  let due := collectDueDailyPreparationSteps zones profile s.lastScan scan.time s.completed
  let succeeded := due.filter fun d => scan.succeeds d.step d.planDate
  { lastScan := scan.time
    completed := cleanup (s.completed ++ succeeded.map fun d => (d.planDate, d.step))
      (zones.dateOf scan.time)
    returned := s.returned ++ due }

end PreparationLoop

/-! ## One scan -/

/-- The step of a plan date. -/
def isStep (step : PreparationStep) (planDate : ℤ) (d : DueStep) : Bool :=
  d.step = step && d.planDate = planDate

/-- A window in which a scan returns the step. -/
def Returns (zones : Zones) (profile : DayProfile) (step : PreparationStep) (planDate : ℤ)
    (w : ℤ × ℤ) : Prop :=
  ScanWindows.InWindow w (zones.instant (scheduledAt profile planDate step))
    ∧ zones.dateOf w.1 ≤ planDate ∧ planDate ≤ zones.dateOf w.2

instance (zones : Zones) (profile : DayProfile) (step : PreparationStep) (planDate : ℤ) (w : ℤ × ℤ) :
    Decidable (Returns zones profile step planDate w) := inferInstanceAs (Decidable (_ ∧ _))

variable {zones : Zones} {profile : DayProfile} {completed : List (ℤ × PreparationStep)}

theorem mem_dueStepsOf {lastScan scanTime planDate : ℤ} {d : DueStep} :
    d ∈ dueStepsOf zones profile lastScan scanTime completed planDate
      ↔ d.planDate = planDate ∧ d.scheduledAt = scheduledAt profile planDate d.step
        ∧ (planDate, d.step) ∉ completed
        ∧ ScanWindows.InWindow (lastScan, scanTime) (zones.instant d.scheduledAt) := by
  unfold dueStepsOf dailyPreparationScheduleFor
  rw [List.filterMap_map, List.mem_filterMap]
  constructor
  · rintro ⟨step, -, hstep⟩
    dsimp only [Function.comp_apply] at hstep
    split at hstep
    · cases hstep
    · next hnot =>
      split at hstep
      · next hin =>
        obtain rfl := Option.some.inj hstep
        exact ⟨rfl, rfl, hnot, hin⟩
      · cases hstep
  · rintro ⟨rfl, hat, hnot, hin⟩
    refine ⟨d.step, by cases d.step <;> simp, ?_⟩
    dsimp only [Function.comp_apply]
    rw [if_neg hnot, if_pos (hat ▸ hin), ← hat]

theorem nodup_dueStepsOf (lastScan scanTime planDate : ℤ) :
    (dueStepsOf zones profile lastScan scanTime completed planDate).Nodup := by
  unfold dueStepsOf dailyPreparationScheduleFor
  rw [List.filterMap_map]
  refine List.Nodup.filterMap (fun step step' d hd hd' => ?_) (by decide)
  have hstep : ∀ step, some d ∈ [if (planDate, step) ∈ completed then none
      else if lastScan < zones.instant (scheduledAt profile planDate step)
          ∧ zones.instant (scheduledAt profile planDate step) ≤ scanTime then
        some (⟨step, planDate, scheduledAt profile planDate step⟩ : DueStep)
      else none] → d.step = step := by
    intro step h
    have h := List.mem_singleton.mp h
    split at h
    · cases h
    · split at h
      · rw [Option.some.inj h]
      · cases h
  rw [← hstep step (by simpa using hd.symm), ← hstep step' (by simpa using hd'.symm)]

/-- A scan that is later than the last one returns the steps of its dates that lie in its window and
were not completed. -/
theorem mem_collect {lastScan scanTime : ℤ} (h : lastScan < scanTime) {d : DueStep} :
    d ∈ collectDueDailyPreparationSteps zones profile lastScan scanTime completed
      ↔ d.scheduledAt = scheduledAt profile d.planDate d.step ∧ (d.planDate, d.step) ∉ completed
        ∧ Returns zones profile d.step d.planDate (lastScan, scanTime) := by
  unfold collectDueDailyPreparationSteps Returns
  rw [if_neg (not_le.mpr h), List.mem_insertionSort, List.mem_flatMap]
  simp only [mem_dueStepsOf, ScanWindows.mem_daysBetween]
  constructor
  · rintro ⟨date, hdate, rfl, hat, hnot, hin⟩
    exact ⟨hat, hnot, hat ▸ hin, hdate⟩
  · rintro ⟨hat, hnot, hin, hdate⟩
    exact ⟨d.planDate, hdate, rfl, hat, hnot, hat.symm ▸ hin⟩

theorem nodup_collect (lastScan scanTime : ℤ) :
    (collectDueDailyPreparationSteps zones profile lastScan scanTime completed).Nodup := by
  unfold collectDueDailyPreparationSteps
  split
  · exact List.nodup_nil
  · refine (List.perm_insertionSort _ _).nodup_iff.mpr ?_
    refine List.nodup_flatMap.mpr ⟨fun date _ => nodup_dueStepsOf _ _ date, ?_⟩
    refine (ScanWindows.nodup_daysBetween _ _).imp fun {date date'} hne d hd hd' => ?_
    exact hne ((mem_dueStepsOf.mp hd).1.symm.trans (mem_dueStepsOf.mp hd').1)

/-- **What one scan returns of a step.** -/
theorem countP_collect {lastScan scanTime : ℤ} (h : lastScan < scanTime) {step : PreparationStep}
    {planDate : ℤ} (hnot : (planDate, step) ∉ completed) :
    (collectDueDailyPreparationSteps zones profile lastScan scanTime completed).countP
        (isStep step planDate)
      = if Returns zones profile step planDate (lastScan, scanTime) then 1 else 0 := by
  have hcount : (collectDueDailyPreparationSteps zones profile lastScan scanTime completed).countP
      (isStep step planDate)
      = (collectDueDailyPreparationSteps zones profile lastScan scanTime completed).count
        ⟨step, planDate, scheduledAt profile planDate step⟩ := by
    refine List.countP_congr fun d hd => ?_
    have hat := ((mem_collect h).mp hd).1
    simp only [isStep, Bool.and_eq_true, decide_eq_true_eq, beq_iff_eq]
    constructor
    · rintro ⟨rfl, rfl⟩
      rw [← hat]
    · rintro rfl
      exact ⟨rfl, rfl⟩
  rw [hcount, (nodup_collect lastScan scanTime).count]
  refine if_congr ?_ rfl rfl
  rw [mem_collect h]
  exact ⟨fun hmem => hmem.2.2, fun hin => ⟨rfl, hnot, hin⟩⟩

/-! ## Every run -/

/-- What the loop remembers was due before the last scan. -/
def Past (zones : Zones) (profile : DayProfile) (s : PreparationLoop) : Prop :=
  ∀ key ∈ s.completed, zones.instant (scheduledAt profile key.1 key.2) ≤ s.lastScan

variable {s : PreparationLoop}

/-- A scan leaves what it remembers in the past. -/
theorem past_scan (h : Past zones profile s) {scan : PreparationScan} (hlater : s.lastScan < scan.time) :
    Past zones profile (s.scan zones profile scan) := by
  intro key hkey
  have hkey := (List.mem_filter.mp hkey).1
  rcases List.mem_append.mp hkey with hkey | hkey
  · exact (h key hkey).trans hlater.le
  · obtain ⟨d, hd, rfl⟩ := List.mem_map.mp hkey
    have hdue := (mem_collect hlater).mp (List.mem_filter.mp hd).1
    exact hdue.2.2.1.2

/-- What the scans of a run return of a step that lies ahead. -/
theorem countP_returned (zones : Zones) (profile : DayProfile) (scans : List PreparationScan)
    (horder : (s.lastScan :: scans.map PreparationScan.time).Pairwise (· < ·))
    (hpast : Past zones profile s) (step : PreparationStep) (planDate : ℤ) :
    (Machine.run (PreparationLoop.scan zones profile) s scans).returned.countP (isStep step planDate)
      = s.returned.countP (isStep step planDate)
        + ((ScanWindows.windows s.lastScan (scans.map PreparationScan.time)).map fun w =>
          if Returns zones profile step planDate w then 1 else 0).sum := by
  induction scans generalizing s with
  | nil => simp
  | cons scan scans ih =>
    obtain ⟨hfirst, hrest⟩ := List.pairwise_cons.mp horder
    have hlater : s.lastScan < scan.time := hfirst _ List.mem_cons_self
    have hcount : (collectDueDailyPreparationSteps zones profile s.lastScan scan.time
        s.completed).countP (isStep step planDate)
        = if Returns zones profile step planDate (s.lastScan, scan.time) then 1 else 0 := by
      by_cases hdone : (planDate, step) ∈ s.completed
      · -- what was completed is not in the window
        have hle := hpast _ hdone
        rw [if_neg fun hin => absurd hin.1.1 (not_lt.mpr hle), List.countP_eq_zero]
        intro d hd hstep
        have hmem := (mem_collect hlater).mp hd
        simp only [isStep, Bool.and_eq_true, decide_eq_true_eq] at hstep
        obtain ⟨rfl, rfl⟩ := hstep
        exact hmem.2.1 hdone
      · exact countP_collect hlater hdone
    rw [Machine.run_cons, ih (s := s.scan zones profile scan) hrest (past_scan hpast hlater)]
    show (s.returned ++ _).countP _ + _ = _
    rw [List.countP_append, hcount, List.map_cons, ScanWindows.windows_cons, List.map_cons,
      List.sum_cons, Nat.add_assoc]
    rfl

/-- Some scan of a run looks at the plan date of a step in the window that the step falls in. -/
def Caught (zones : Zones) (profile : DayProfile) (first : ℤ) (times : List ℤ)
    (step : PreparationStep) (planDate : ℤ) : Prop :=
  ∃ w ∈ ScanWindows.windows first times, Returns zones profile step planDate w

/--
**A preparation step is returned exactly once** of a run of scans, in whatever way the steps turn
out, exactly when the scan in whose window it falls looks at its plan date.
-/
theorem returned_iff (zones : Zones) (profile : DayProfile) (first : ℤ) (scans : List PreparationScan)
    (horder : (first :: scans.map PreparationScan.time).Pairwise (· < ·))
    (step : PreparationStep) (planDate : ℤ)
    (hfirst : first < zones.instant (scheduledAt profile planDate step))
    (hlast : zones.instant (scheduledAt profile planDate step)
      ≤ ScanWindows.last first (scans.map PreparationScan.time)) :
    (Machine.run (PreparationLoop.scan zones profile) (.start first) scans).returned.countP
        (isStep step planDate) = 1
      ↔ Caught zones profile first (scans.map PreparationScan.time) step planDate := by
  have hcount := countP_returned (s := .start first) zones profile scans horder
    (fun key hkey => by cases hkey) step planDate
  obtain ⟨w, hw, hin⟩ := ScanWindows.exists_window hfirst hlast
  have hoff : ∀ w ∈ ScanWindows.windows first (scans.map PreparationScan.time),
      ¬ScanWindows.InWindow w (zones.instant (scheduledAt profile planDate step)) →
        (if Returns zones profile step planDate w then 1 else 0) = 0 :=
    fun w _ hnot => if_neg fun hret => hnot hret.1
  have hsum := ScanWindows.sum_windows horder hoff hw hin
  rw [hcount]
  show 0 + _ = 1 ↔ _
  rw [Nat.zero_add]
  show (List.map _ (ScanWindows.windows first _)).sum = 1 ↔ _
  constructor
  · intro hone
    rw [hsum] at hone
    by_contra hnot
    have hno : ¬Returns zones profile step planDate w := fun hret => hnot ⟨w, hw, hret⟩
    rw [if_neg hno] at hone
    cases hone
  · rintro ⟨w', hw', hret⟩
    rw [ScanWindows.sum_windows horder hoff hw' hret.1, if_pos hret]

/-! ## One time zone -/

/-- The profile's zone and the system's zone are one, at a fixed distance from UTC. -/
def oneZone (offset : ℤ) : Zones where
  instant wall := wall - offset
  dateOf t := (t + offset) / microsPerDay

/-! ## A profile that wakes at five past midnight -/

def minutes (n : ℤ) : ℤ := n * microsPerMinute

def earlyProfile : DayProfile := ⟨minutes 5, minutes 540, minutes 780, minutes 1080⟩

/-- A scan at a minute of day 0 or after, whose steps go well. -/
def scanAt (minute : ℤ) : PreparationScan := ⟨minutes minute, fun _ _ => true⟩

/-- The snapshot of day 1 is prepared at three past midnight of that day. -/
theorem snapshot_is_returned_once :
    (Machine.run (PreparationLoop.scan (oneZone 0) earlyProfile) (.start (minutes 1434))
      ([1435, 1440, 1443].map scanAt)).returned.countP (isStep .planningSnapshot 1) = 1 :=
  (returned_iff (oneZone 0) earlyProfile (minutes 1434) ([1435, 1440, 1443].map scanAt) (by decide)
    .planningSnapshot 1 (by decide) (by decide)).mpr
    ⟨(minutes 1440, minutes 1443), by decide, by decide⟩

/-- **The calendar sync of day 1, due at 23:55 on day 0, is returned by no scan.** -/
theorem calendar_sync_is_missed :
    minutes 1434 < (oneZone 0).instant (scheduledAt earlyProfile 1 .calendarSync)
      ∧ (oneZone 0).instant (scheduledAt earlyProfile 1 .calendarSync) ≤ minutes 1443
      ∧ (Machine.run (PreparationLoop.scan (oneZone 0) earlyProfile) (.start (minutes 1434))
        ([1435, 1440, 1443].map scanAt)).returned.countP (isStep .calendarSync 1) = 0 := by
  decide

end Schedule

end ForgeKit
