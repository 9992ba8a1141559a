import ForgeKit.DayPlan.FreeWindows
import ForgeKit.Lib.IsoOrder

/-!
# Times some minutes apart

`datetime + timedelta`: a date some days away, with what is left of the day. Outside of the calendar
it raises.

* `exists_addDays_iff`, `exists_shift_iff` — the days and the times that can be reached
* `momentOf_shift` — the clock that is reached
-/

namespace ForgeKit.DayPlan

open IsoTime (Date DateTime daysInMonth isLeap)

/-- `date.max.toordinal()`. -/
def maxOrdinal : Nat := 3652059

/-! ## Days -/

/-- The day after, unless the calendar ends. -/
def nextDay (d : Date) : Option Date :=
  (Date.mk? d.year d.month (d.day + 1)).or
    ((Date.mk? d.year (d.month + 1) 1).or (Date.mk? (d.year + 1) 1 1))

/-- The day before, unless the calendar starts. -/
def prevDay (d : Date) : Option Date :=
  (Date.mk? d.year d.month (d.day - 1)).or
    ((Date.mk? d.year (d.month - 1) (daysInMonth d.year (d.month - 1))).or
      (Date.mk? (d.year - 1) 12 31))

/-- Some steps, unless one of them fails. -/
def steps (step : Date → Option Date) : Nat → Date → Option Date
  | 0, d => some d
  | n + 1, d => (step d).bind (steps step n)

/-- `d + timedelta(days=n)`. -/
def addDays (d : Date) : Int → Option Date
  | .ofNat n => steps nextDay n d
  | .negSucc n => steps prevDay (n + 1) d

/-! ## Times -/

/-- The microseconds of a day. -/
def dayLength : Int := 24 * 60 * minute

/-- The microseconds since midnight. -/
def timeOfDay (t : DateTime) : Int :=
  (t.hour * 60 + t.minute : Nat) * minute + (t.second * 1000000 + t.microsecond : Nat)

/-- `t + timedelta(microseconds=n)`. -/
def shift (t : DateTime) (n : Int) : Option DateTime :=
  let total := timeOfDay t + n
  let rest := (total % dayLength).toNat
  (addDays t.date (total / dayLength)).map fun date =>
    { date := date
      hour := Fin.ofNat 24 (rest / 3600000000)
      minute := Fin.ofNat 60 (rest / 60000000)
      second := Fin.ofNat 60 (rest / 1000000)
      microsecond := Fin.ofNat 1000000 rest
      offset := t.offset }

/-! ## The days that are reached -/

theorem exists_of_mk? {year month day : Nat} {e : Date} (h : Date.mk? year month day = some e) :
    e.year = year ∧ e.month = month ∧ e.day = day := by
  unfold Date.mk? at h
  split at h
  · cases h
    exact ⟨rfl, rfl, rfl⟩
  · cases h

theorem mk?_eq_none_iff {year month day : Nat} : Date.mk? year month day = none ↔
    ¬((1 ≤ year ∧ year ≤ 9999) ∧ (1 ≤ month ∧ month ≤ 12) ∧
      1 ≤ day ∧ day ≤ daysInMonth year month) := by
  unfold Date.mk?
  split <;> simp [*]

/-- The days before a year. -/
def yearStart (year : Nat) : Nat :=
  (year - 1) * 365 + (year - 1) / 4 - (year - 1) / 100 + (year - 1) / 400

theorem toOrdinal_eq (d : Date) :
    toOrdinal d = yearStart d.year + daysInMonths d.year (d.month - 1) + d.day := rfl

theorem daysInMonths_pred {year month : Nat} (h : 1 ≤ month) :
    daysInMonths year month = daysInMonths year (month - 1) + daysInMonth year month := by
  obtain ⟨m, rfl⟩ := Nat.exists_eq_add_of_le' h
  rfl

theorem one_le_daysInMonth (year month : Nat) : 1 ≤ daysInMonth year month := by
  unfold daysInMonth
  repeat' split
  all_goals decide

theorem daysInMonths_twelve (year : Nat) :
    daysInMonths year 12 = if isLeap year = true then 366 else 365 := by
  have hfebruary : daysInMonth year 2 = if isLeap year = true then 29 else 28 := rfl
  have hmonths : daysInMonths year 12 = 0 + 31 + daysInMonth year 2 + 31 + 30 + 31 + 30 + 31 + 31
      + 30 + 31 + 30 + 31 := rfl
  rw [hmonths, hfebruary]
  split <;> rfl

theorem isLeap_iff {year : Nat} :
    isLeap year = true ↔ year % 4 = 0 ∧ (year % 100 ≠ 0 ∨ year % 400 = 0) := by
  simp [isLeap]

/-- A year is as long as its months. -/
theorem yearStart_succ {year : Nat} (h : 1 ≤ year) :
    yearStart (year + 1) = yearStart year + daysInMonths year 12 := by
  obtain ⟨y, rfl⟩ := Nat.exists_eq_add_of_le' h
  rw [daysInMonths_twelve, yearStart, yearStart, Nat.add_sub_cancel, Nat.add_sub_cancel,
    Nat.succ_div, Nat.succ_div, Nat.succ_div]
  have hle : y / 100 ≤ y / 4 := Nat.div_le_div_left (by decide) (by decide)
  generalize y / 4 = fours, y / 100 = hundreds, y / 400 = fourHundreds at hle ⊢
  have hleap := @isLeap_iff (y + 1)
  by_cases hfour : 4 ∣ y + 1
  · by_cases hhundred : 100 ∣ y + 1
    · by_cases hfourHundred : 400 ∣ y + 1
      · rw [if_pos hfour, if_pos hhundred, if_pos hfourHundred, if_pos (hleap.mpr (by omega))]
        omega
      · rw [if_pos hfour, if_pos hhundred, if_neg hfourHundred, if_neg (mt hleap.mp (by omega))]
        omega
    · rw [if_pos hfour, if_neg hhundred, if_neg (by omega), if_pos (hleap.mpr (by omega))]
      omega
  · rw [if_neg hfour, if_neg (by omega), if_neg (by omega), if_neg (mt hleap.mp (by omega))]
    omega

theorem day_eq_of_mk?_none {d : Date} (h : Date.mk? d.year d.month (d.day + 1) = none) :
    d.day = daysInMonth d.year d.month := by
  have hnot := mk?_eq_none_iff.mp h
  have hday := d.day_mem
  by_contra hne
  exact hnot ⟨d.year_mem, d.month_mem, by omega, by omega⟩

theorem month_eq_of_mk?_none {d : Date} (h : Date.mk? d.year (d.month + 1) 1 = none) :
    d.month = 12 := by
  have hnot := mk?_eq_none_iff.mp h
  have hmonth := d.month_mem
  by_contra hne
  exact hnot ⟨d.year_mem, ⟨by omega, by omega⟩, le_refl 1, one_le_daysInMonth _ _⟩

theorem toOrdinal_nextDay {d e : Date} (h : nextDay d = some e) : toOrdinal e = toOrdinal d + 1 := by
  unfold nextDay at h
  rw [toOrdinal_eq, toOrdinal_eq]
  cases hday : Date.mk? d.year d.month (d.day + 1) with
  | some e' =>
    rw [hday, Option.some_or, Option.some.injEq] at h
    subst h
    obtain ⟨hyear, hmonth, hday⟩ := exists_of_mk? hday
    rw [hyear, hmonth, hday, Nat.add_assoc _ d.day]
  | none =>
    have hlast := day_eq_of_mk?_none hday
    have hpred := @daysInMonths_pred d.year _ d.month_mem.1
    rw [hday, Option.none_or] at h
    cases hmonth : Date.mk? d.year (d.month + 1) 1 with
    | some e' =>
      rw [hmonth, Option.some_or, Option.some.injEq] at h
      subst h
      obtain ⟨hyear, hmonth, hday⟩ := exists_of_mk? hmonth
      rw [hyear, hmonth, hday, Nat.add_sub_cancel]
      omega
    | none =>
      have htwelve := month_eq_of_mk?_none hmonth
      rw [hmonth, Option.none_or] at h
      obtain ⟨hyear, hmonth, hday⟩ := exists_of_mk? h
      have hsucc := yearStart_succ d.year_mem.1
      rw [htwelve] at hpred hlast
      rw [hyear, hmonth, hday, hsucc, hlast, htwelve]
      show _ + 0 + 1 = _
      omega

theorem eq_max_of_nextDay {d : Date} (h : nextDay d = none) : toOrdinal d = maxOrdinal := by
  unfold nextDay at h
  rw [Option.or_eq_none_iff, Option.or_eq_none_iff] at h
  obtain ⟨hday, hmonth, hyear⟩ := h
  have hlast := day_eq_of_mk?_none hday
  have htwelve := month_eq_of_mk?_none hmonth
  have hyears : d.year = 9999 := by
    have hnot := mk?_eq_none_iff.mp hyear
    have hmem := d.year_mem
    by_contra hne
    exact hnot ⟨⟨by omega, by omega⟩, by decide, le_refl 1, one_le_daysInMonth _ _⟩
  rw [toOrdinal_eq, hlast, htwelve, hyears]
  rfl

theorem day_eq_of_mk?_none' {d : Date} (h : Date.mk? d.year d.month (d.day - 1) = none) :
    d.day = 1 := by
  have hnot := mk?_eq_none_iff.mp h
  have hday := d.day_mem
  by_contra hne
  exact hnot ⟨d.year_mem, d.month_mem, by omega, by omega⟩

theorem month_eq_of_mk?_none' {d : Date}
    (h : Date.mk? d.year (d.month - 1) (daysInMonth d.year (d.month - 1)) = none) : d.month = 1 := by
  have hnot := mk?_eq_none_iff.mp h
  have hmonth := d.month_mem
  by_contra hne
  exact hnot ⟨d.year_mem, ⟨by omega, by omega⟩, one_le_daysInMonth _ _, le_refl _⟩

theorem toOrdinal_prevDay {d e : Date} (h : prevDay d = some e) : toOrdinal d = toOrdinal e + 1 := by
  unfold prevDay at h
  rw [toOrdinal_eq, toOrdinal_eq]
  cases hday : Date.mk? d.year d.month (d.day - 1) with
  | some e' =>
    rw [hday, Option.some_or, Option.some.injEq] at h
    subst h
    have hpos := d.day_mem.1
    have hfirst := (@mk?_eq_none_iff d.year d.month (d.day - 1)).not.mp
      (by rw [hday]; exact Option.some_ne_none _)
    obtain ⟨hyear, hmonth, hday⟩ := exists_of_mk? hday
    rw [hyear, hmonth, hday]
    omega
  | none =>
    have hone := day_eq_of_mk?_none' hday
    rw [hday, Option.none_or] at h
    cases hmonth : Date.mk? d.year (d.month - 1) (daysInMonth d.year (d.month - 1)) with
    | some e' =>
      rw [hmonth, Option.some_or, Option.some.injEq] at h
      subst h
      have hmem := e'.month_mem.1
      obtain ⟨hyear, hmonth, hday⟩ := exists_of_mk? hmonth
      rw [hmonth] at hmem
      have hpred := @daysInMonths_pred d.year _ hmem
      rw [hyear, hmonth, hday, hone]
      omega
    | none =>
      have hfirst := month_eq_of_mk?_none' hmonth
      rw [hmonth, Option.none_or] at h
      have hmem := e.year_mem.1
      obtain ⟨hyear, hmonth, hday⟩ := exists_of_mk? h
      rw [hyear] at hmem
      have hsucc := yearStart_succ hmem
      rw [Nat.sub_add_cancel (by omega)] at hsucc
      have hpred := @daysInMonths_pred (d.year - 1) 12 (by decide)
      rw [hyear, hmonth, hday, hone, hfirst, hsucc, hpred]
      show _ + 0 + 1 = _
      rw [show daysInMonth (d.year - 1) 12 = 31 from rfl]
      omega

theorem eq_one_of_prevDay {d : Date} (h : prevDay d = none) : toOrdinal d = 1 := by
  unfold prevDay at h
  rw [Option.or_eq_none_iff, Option.or_eq_none_iff] at h
  obtain ⟨hday, hmonth, hyear⟩ := h
  have hone := day_eq_of_mk?_none' hday
  have hfirst := month_eq_of_mk?_none' hmonth
  have hyears : d.year = 1 := by
    have hnot := mk?_eq_none_iff.mp hyear
    have hmem := d.year_mem
    by_contra hne
    exact hnot ⟨⟨by omega, by omega⟩, by decide, by decide, le_refl 31⟩
  rw [toOrdinal_eq, hone, hfirst, hyears]
  rfl

theorem one_le_toOrdinal (d : Date) : 1 ≤ toOrdinal d := by
  rw [toOrdinal_eq]
  have hday := d.day_mem.1
  omega

theorem daysInMonths_mono (year : Nat) {m n : Nat} (h : m ≤ n) :
    daysInMonths year m ≤ daysInMonths year n := by
  induction h with
  | refl => exact le_refl _
  | step _ ih => exact ih.trans (Nat.le_add_right _ _)

theorem toOrdinal_le (d : Date) : toOrdinal d ≤ maxOrdinal := by
  rw [toOrdinal_eq, maxOrdinal]
  have hpred := @daysInMonths_pred d.year _ d.month_mem.1
  have hmono := daysInMonths_mono d.year d.month_mem.2
  have hday := d.day_mem.2
  have hyear := d.year_mem
  rw [daysInMonths_twelve] at hmono
  unfold yearStart
  by_cases hlast : d.year = 9999
  · have hleap : isLeap 9999 = false := rfl
    rw [hlast] at hmono hpred hday ⊢
    rw [hleap, if_neg Bool.false_ne_true] at hmono
    omega
  · split at hmono <;> omega

/-! ## Days in order -/

theorem yearStart_mono {y y' : Nat} (hy : 1 ≤ y) (h : y ≤ y') : yearStart y ≤ yearStart y' := by
  induction h with
  | refl => exact le_refl _
  | step hle ih => exact ih.trans (by rw [yearStart_succ (hy.trans hle)]; exact Nat.le_add_right _ _)

/-- A day lies within its month, and its month within its year. -/
theorem toOrdinal_bounds (d : Date) :
    yearStart d.year + daysInMonths d.year (d.month - 1) < toOrdinal d
      ∧ toOrdinal d ≤ yearStart d.year + daysInMonths d.year d.month
      ∧ toOrdinal d ≤ yearStart (d.year + 1) := by
  have hpred := @daysInMonths_pred d.year _ d.month_mem.1
  have hmono := daysInMonths_mono d.year d.month_mem.2
  have hday := d.day_mem
  rw [yearStart_succ d.year_mem.1, toOrdinal_eq]
  omega

theorem toOrdinal_lt_of_before {d e : Date} (h : d.Before e) : toOrdinal d < toOrdinal e := by
  have hd := toOrdinal_bounds d
  have he := toOrdinal_bounds e
  rcases h with hyear | ⟨hyear, hmonth | ⟨hmonth, hday⟩⟩
  · have hmono := yearStart_mono (Nat.le_add_left 1 d.year) (Nat.succ_le_of_lt hyear)
    omega
  · have hmono := daysInMonths_mono e.year (Nat.le_sub_one_of_lt hmonth)
    rw [hyear] at hd
    omega
  · rw [toOrdinal_eq, toOrdinal_eq, hyear, hmonth]
    omega

/-- **Days are in the order of their numbers.** -/
theorem before_iff {d e : Date} : d.Before e ↔ toOrdinal d < toOrdinal e := by
  refine ⟨toOrdinal_lt_of_before, fun h => ?_⟩
  have htrichotomy : d.Before e ∨ d = e ∨ e.Before d := by
    rw [Date.Before, Date.Before, IsoTime.Date.ext_iff']
    omega
  rcases htrichotomy with hbefore | rfl | hafter
  · exact hbefore
  · exact absurd h (lt_irrefl _)
  · exact absurd h (toOrdinal_lt_of_before hafter).asymm

theorem toOrdinal_injective {d e : Date} (h : toOrdinal d = toOrdinal e) : d = e := by
  have htrichotomy : d.Before e ∨ d = e ∨ e.Before d := by
    rw [Date.Before, Date.Before, IsoTime.Date.ext_iff']
    omega
  rcases htrichotomy with hbefore | heq | hafter
  · exact absurd h (toOrdinal_lt_of_before hbefore).ne
  · exact heq
  · exact absurd h (toOrdinal_lt_of_before hafter).ne'

theorem steps_nextDay {n : Nat} {d : Date} :
    (∃ e, steps nextDay n d = some e ∧ toOrdinal e = toOrdinal d + n)
      ∨ steps nextDay n d = none ∧ maxOrdinal < toOrdinal d + n := by
  induction n generalizing d with
  | zero => exact .inl ⟨d, rfl, rfl⟩
  | succ n ih =>
    rw [steps]
    cases h : nextDay d with
    | none =>
      have hmax := eq_max_of_nextDay h
      exact .inr ⟨rfl, by omega⟩
    | some e =>
      have hnext := toOrdinal_nextDay h
      rcases ih (d := e) with ⟨e', he', hto⟩ | ⟨hnone, hlt⟩
      · exact .inl ⟨e', he', by omega⟩
      · exact .inr ⟨hnone, by omega⟩

theorem steps_prevDay {n : Nat} {d : Date} :
    (∃ e, steps prevDay n d = some e ∧ toOrdinal d = toOrdinal e + n)
      ∨ steps prevDay n d = none ∧ toOrdinal d ≤ n := by
  induction n generalizing d with
  | zero => exact .inl ⟨d, rfl, rfl⟩
  | succ n ih =>
    rw [steps]
    cases h : prevDay d with
    | none =>
      have hone := eq_one_of_prevDay h
      exact .inr ⟨rfl, by omega⟩
    | some e =>
      have hprev := toOrdinal_prevDay h
      rcases ih (d := e) with ⟨e', he', hto⟩ | ⟨hnone, hle⟩
      · exact .inl ⟨e', he', by omega⟩
      · exact .inr ⟨hnone, by omega⟩

/-- A day of the calendar is reached, and no other. -/
theorem addDays_cases (d : Date) (n : Int) :
    (∃ e, addDays d n = some e ∧ (toOrdinal e : Int) = toOrdinal d + n)
      ∨ addDays d n = none ∧ ¬(1 ≤ toOrdinal d + n ∧ toOrdinal d + n ≤ maxOrdinal) := by
  cases n with
  | ofNat n =>
    rw [addDays, Int.ofNat_eq_natCast]
    rcases steps_nextDay (n := n) (d := d) with ⟨e, he, hto⟩ | ⟨hnone, hlt⟩
    · exact .inl ⟨e, he, by omega⟩
    · exact .inr ⟨hnone, by omega⟩
  | negSucc n =>
    rw [addDays, Int.negSucc_eq]
    rcases steps_prevDay (n := n + 1) (d := d) with ⟨e, he, hto⟩ | ⟨hnone, hle⟩
    · exact .inl ⟨e, he, by omega⟩
    · exact .inr ⟨hnone, by omega⟩

theorem toOrdinal_addDays {d e : Date} {n : Int} (h : addDays d n = some e) :
    (toOrdinal e : Int) = toOrdinal d + n := by
  rcases addDays_cases d n with ⟨e', he', hto⟩ | ⟨hnone, -⟩
  · rw [he'] at h
    cases h
    exact hto
  · rw [hnone] at h
    cases h

/-- **A day is reached where the calendar has it.** -/
theorem exists_addDays_iff {d : Date} {n : Int} :
    (∃ e, addDays d n = some e) ↔ 1 ≤ toOrdinal d + n ∧ toOrdinal d + n ≤ maxOrdinal := by
  rcases addDays_cases d n with ⟨e, he, hto⟩ | ⟨hnone, hnot⟩
  · refine iff_of_true ⟨e, he⟩ ?_
    have hpos := one_le_toOrdinal e
    have hle := toOrdinal_le e
    omega
  · refine iff_of_false ?_ hnot
    rintro ⟨e, he⟩
    rw [hnone] at he
    cases he

/-! ## The times that are reached -/

theorem dayLength_eq : dayLength = 86400000000 := rfl

theorem midnightOf_eq (d : Date) : midnightOf d = toOrdinal d * dayLength := by
  rw [midnightOf, dayLength, minute]
  ring

theorem clock_momentOf (t : DateTime) : (momentOf t).clock = midnightOf t.date + timeOfDay t := by
  show _ + _ + _ = _
  rw [timeOfDay, Int.add_assoc]

/-- The clock of a time some microseconds away. -/
theorem momentOf_shift {t u : DateTime} {n : Int} (h : shift t n = some u) :
    momentOf u = ⟨(momentOf t).clock + n, (momentOf t).offset⟩ := by
  obtain ⟨date, hdate, rfl⟩ := Option.map_eq_some_iff.mp h
  have hto := toOrdinal_addDays hdate
  have hclock : ∀ rest : Nat, (rest : Int) < dayLength →
      timeOfDay
        { date := date, hour := Fin.ofNat 24 (rest / 3600000000), minute := Fin.ofNat 60 (rest / 60000000)
          second := Fin.ofNat 60 (rest / 1000000), microsecond := Fin.ofNat 1000000 rest
          offset := t.offset } = rest := by
    intro rest hlt
    rw [dayLength_eq] at hlt
    show ((rest / 3600000000 % 24 * 60 + rest / 60000000 % 60 : Nat) : Int) * 60000000
      + (rest / 1000000 % 60 * 1000000 + rest % 1000000 : Nat) = rest
    omega
  have hmod := Int.emod_nonneg (timeOfDay t + n) (b := dayLength) (by decide)
  have hlt := Int.emod_lt_of_pos (timeOfDay t + n) (b := dayLength) (by decide)
  have htotal := Int.mul_ediv_add_emod (timeOfDay t + n) dayLength
  refine congrArg₂ Moment.mk ((clock_momentOf _).trans ?_) rfl
  rw [hclock _ (by omega), clock_momentOf, Int.toNat_of_nonneg hmod,
    midnightOf_eq, midnightOf_eq, hto]
  rw [dayLength_eq] at htotal ⊢
  omega

theorem offset_shift {t u : DateTime} {n : Int} (h : shift t n = some u) : u.offset = t.offset := by
  obtain ⟨date, -, rfl⟩ := Option.map_eq_some_iff.mp h
  rfl

/-- The clock of a time is on a day of the calendar. -/
theorem clock_mem (t : DateTime) :
    dayLength ≤ (momentOf t).clock ∧ (momentOf t).clock < (maxOrdinal + 1) * dayLength := by
  have hpos := one_le_toOrdinal t.date
  have hle := toOrdinal_le t.date
  have hhour := t.hour.isLt
  have hminute := t.minute.isLt
  have hsecond := t.second.isLt
  have hmicros := t.microsecond.isLt
  rw [clock_momentOf, midnightOf_eq, timeOfDay, dayLength_eq, show minute = 60000000 from rfl]
  rw [maxOrdinal] at hle ⊢
  omega

/-- **A time is reached where the calendar has its day.** -/
theorem exists_shift_iff {t : DateTime} {n : Int} :
    (∃ u, shift t n = some u) ↔
      dayLength ≤ (momentOf t).clock + n ∧ (momentOf t).clock + n < (maxOrdinal + 1) * dayLength := by
  have hmap : (∃ u, shift t n = some u) ↔
      ∃ e, addDays t.date ((timeOfDay t + n) / dayLength) = some e := by
    simp only [shift, Option.map_eq_some_iff]
    exact ⟨fun ⟨_, e, he, _⟩ => ⟨e, he⟩, fun ⟨e, he⟩ => ⟨_, e, he, rfl⟩⟩
  rw [hmap, exists_addDays_iff, clock_momentOf, midnightOf_eq, dayLength_eq, maxOrdinal]
  omega

/-! ## Times in order -/

theorem timeOfDay_mem (t : DateTime) : 0 ≤ timeOfDay t ∧ timeOfDay t < dayLength := by
  have hhour := t.hour.isLt
  have hminute := t.minute.isLt
  have hsecond := t.second.isLt
  have hmicros := t.microsecond.isLt
  rw [timeOfDay, dayLength_eq, show minute = 60000000 from rfl]
  omega

end ForgeKit.DayPlan
