import ForgeKit.DayPlan.DescriptionLines
import ForgeKit.DayPlan.TimeShift
import ForgeKit.Lib.KeyOrder
import ForgeKit.Lib.Raising
import Mathlib.Data.List.MinMax

/-!
# Execution blocks (`yule_planning/schedule`, `build_execution_blocks`)

What a description names is resolved against the window of its event. Nothing is caught after the
start and the end of the event are parsed: a minute from 60 on, a naive end of an aware start, a day
outside of the calendar and a text without an encoding all raise.

* `exists_buildExecutionBlocks_iff` — when the blocks are returned
* `mem_buildExecutionBlocks`, `readFrom_of_lineBlock` — which blocks these are
* `not_readAsWritten` — a line `HH:MM ~ HH:MM : title` never comes to the block that it says
* `buildExecutionBlocks_harmless_iff` — the blocks are returned unless a line does harm
-/

namespace ForgeKit.DayPlan

open Py (Text lit strip)
open IsoTime (DateTime)
open JsonText (Encodable Token)
open KeyOrder (lexLe sortBy)
open Raising

/-- What the functions raise. -/
inductive PlanError where
  | valueError
  | typeError
  | overflowError
  | unicodeEncodeError
deriving DecidableEq

/-! ## Times that are compared -/

/-- `t + timedelta(…)`, of microseconds. -/
def shiftTime (t : DateTime) (n : Int) : Except PlanError DateTime :=
  match shift t n with
  | some u => .ok u
  | none => .error .overflowError

/-- What a comparison gives; an aware time and a naive one raise. -/
def compared : Option Bool → Except PlanError Bool
  | some b => .ok b
  | none => .error .typeError

/-- `a <= b`. -/
def timeLe (a b : DateTime) : Except PlanError Bool := compared ((momentOf a).le (momentOf b))

/-- `a < b`. -/
def timeLt (a b : DateTime) : Except PlanError Bool := compared ((momentOf a).lt (momentOf b))

/-- `timedelta(minutes=5)`. -/
def fiveMinutes : Int := 5 * minute

/-! ## The time of a token -/

/-- `candidate_hours`. -/
def candidateHours (token : TimeToken) : List Nat :=
  match token.meridian with
  | some .am => [if token.hour = 12 then 0 else token.hour]
  | some .pm => [if token.hour = 12 then token.hour else token.hour + 12]
  | none =>
    token.hour :: ((if token.hour < 12 then [token.hour + 12] else []) ++ [token.hour + 24])

/-- A candidate, from its hour. -/
def candidate (eventStart : DateTime) (minutes hour : Nat) : Except PlanError DateTime :=
  match addDays eventStart.date (hour / 24 : Nat) with
  | none => .error .overflowError
  | some date =>
    if h : minutes < 60 then
      .ok
        { date := date, hour := Fin.ofNat 24 hour, minute := ⟨minutes, h⟩, second := 0
          microsecond := 0, offset := eventStart.offset }
    else .error .valueError

def clockOf (t : DateTime) : Int := (momentOf t).clock

/-- `abs((candidate - event_start).total_seconds())`: both have the `tzinfo` of the event. -/
def distance (eventStart c : DateTime) : Nat := (clockOf c - clockOf eventStart).natAbs

/-- `event_start - timedelta(minutes=5) <= candidate <= event_end + timedelta(minutes=5)`. -/
def inWindow (eventStart eventEnd c : DateTime) : Except PlanError Bool := do
  let low ← shiftTime eventStart (-fiveMinutes)
  let starts ← timeLe low c
  if starts then
    let high ← shiftTime eventEnd fiveMinutes
    timeLe c high
  else .ok false

/-- `candidate <= event_end + timedelta(minutes=5)`. -/
def beforeEnd (eventEnd c : DateTime) : Except PlanError Bool := do
  let high ← shiftTime eventEnd fiveMinutes
  timeLe c high

/-- Clocks are compared as integers. -/
local instance clockOrder : Preorder Int := Int.instLinearOrder.toPreorder

variable (digits : OtherDigits)

/-- `_resolve_description_time`. -/
def resolveDescriptionTime (token : Text) (eventStart eventEnd : DateTime)
    (reference : Option DateTime) : Except PlanError (Option DateTime) :=
  match readToken digits token with
  | none => .ok none
  | some token => do
    let candidates ← (candidateHours token).mapM (candidate eventStart token.minute)
    match reference with
    | none =>
      let windowCandidates ← filterOk (inWindow eventStart eventEnd) candidates
      .ok ((windowCandidates.argmin (distance eventStart)).or
        (candidates.argmin (distance eventStart)))
    | some reference =>
      let afterReference ← filterOk (timeLt reference) candidates
      let windowCandidates ← filterOk (beforeEnd eventEnd) afterReference
      .ok ((windowCandidates.argmin clockOf).or (afterReference.argmin clockOf))

/-! ## The blocks -/

/-- `json.dumps(parts, ensure_ascii=False, separators=(",", ":"))`, of texts. -/
def dumpsCompact (parts : List Text) : Text :=
  lit "[" ++ ((lit ",").intercalate (parts.map fun t => (Token.str t).text) ++ lit "]")

/-- `sha256(…).hexdigest()`. -/
abbrev Digest := ByteArray → {t : Text // Encodable t}

/-- `build_fallback_item_uid`. -/
def buildFallbackItemUid (sha256 : Digest) (itemType : Text) (parts : List Text) :
    Except PlanError Text :=
  match Py.encode (dumpsCompact (itemType :: parts)) with
  | some normalized => .ok (sha256 normalized).1
  | none => .error .unicodeEncodeError

variable (sha256 : Digest)

/-- The block of a line, in the loop of `_parse_execution_blocks_from_description`. -/
def lineBlock (event : CalendarEvent) (eventStart eventEnd : DateTime) (line : Text) :
    Except PlanError (Option PlanningExecutionBlock) :=
  match descriptionBlockPattern (strip line) with
  | none => .ok none
  | some groups => do
    let title := strip groups.title
    let some blockStart ← resolveDescriptionTime digits (strip groups.start) eventStart eventEnd none
      | .ok none
    let some blockEnd ←
        resolveDescriptionTime digits (strip groups.stop) eventStart eventEnd (some blockStart)
      | .ok none
    let endsBefore ← timeLe blockEnd blockStart
    if endsBefore then .ok none
    else
      let blockId ← buildFallbackItemUid sha256 (lit "planning-block")
        [event.itemUid, blockStart.isoformat, blockEnd.isoformat, title]
      .ok (some
        { blockId := blockId, sourceEventUid := event.itemUid, sourceEventTitle := event.title
          start := blockStart.isoformat, stop := blockEnd.isoformat, title := title
          description := strip line })

/-- `blocks.sort(key=lambda block: block.start)`. -/
def sortBlocks (blocks : List PlanningExecutionBlock) : List PlanningExecutionBlock :=
  sortBy lexLe PlanningExecutionBlock.start blocks

/-- `_parse_execution_blocks_from_description`. -/
def parseExecutionBlocksFromDescription (event : CalendarEvent) (eventStart eventEnd : DateTime) :
    Except PlanError (List PlanningExecutionBlock) := do
  let blocks ← (splitlines event.description).mapM
    (lineBlock digits sha256 event eventStart eventEnd)
  .ok (sortBlocks (blocks.filterMap id))

variable (other : Text → Option DateTime)

/-- The window of an event that has a time and a description, if its start and its end parse. -/
def eventWindow (event : CalendarEvent) : Option (DateTime × DateTime) := do
  if event.allDay ∨ strip event.description = [] then none
  else
    let eventStart ← DateTime.fromisoformat other event.start
    let eventEnd ← DateTime.fromisoformat other event.stop
    some (eventStart, eventEnd)

/-- The blocks of an event, in the loop of `build_execution_blocks`. -/
def eventBlocks (event : CalendarEvent) : Except PlanError (List PlanningExecutionBlock) :=
  match eventWindow other event with
  | none => .ok []
  | some (eventStart, eventEnd) =>
    parseExecutionBlocksFromDescription digits sha256 event eventStart eventEnd

/-- `build_execution_blocks`. -/
def buildExecutionBlocks (events : List CalendarEvent) :
    Except PlanError (List PlanningExecutionBlock) := do
  let blocks ← events.mapM (eventBlocks digits sha256 other)
  .ok (sortBlocks blocks.flatten)

/-! ## What is compared -/

theorem compared_eq_ok {o : Option Bool} {b : Bool} : compared o = .ok b ↔ o = some b := by
  cases o <;> simp [compared]

/-- Two times that are both aware or both naive can be compared. -/
theorem exists_timeLe_iff {a b : DateTime} :
    (∃ r, timeLe a b = .ok r) ↔ a.offset.isSome = b.offset.isSome := by
  simp only [timeLe, compared_eq_ok, Moment.le, Moment.sub, momentOf, Option.map_eq_some_iff]
  cases a.offset <;> cases b.offset <;> simp

theorem timeLe_of_offset {a b : DateTime} (h : a.offset = b.offset) :
    timeLe a b = .ok (decide (clockOf a ≤ clockOf b)) := by
  have hsub : (momentOf a).sub (momentOf b) = some (clockOf a - clockOf b) := by
    simp only [Moment.sub, momentOf, clockOf, h]
    cases b.offset <;> simp
  rw [timeLe, Moment.le, hsub]
  simp [compared]

theorem timeLt_of_offset {a b : DateTime} (h : a.offset = b.offset) :
    timeLt a b = .ok (decide (clockOf a < clockOf b)) := by
  have hsub : (momentOf a).sub (momentOf b) = some (clockOf a - clockOf b) := by
    simp only [Moment.sub, momentOf, clockOf, h]
    cases b.offset <;> simp
  rw [timeLt, Moment.lt, hsub]
  simp [compared]

theorem shiftTime_eq_ok {t u : DateTime} {n : Int} : shiftTime t n = .ok u ↔ shift t n = some u := by
  unfold shiftTime
  cases shift t n <;> simp

theorem clockOf_shiftTime {t u : DateTime} {n : Int} (h : shiftTime t n = .ok u) :
    clockOf u = clockOf t + n :=
  congrArg Moment.clock (momentOf_shift (shiftTime_eq_ok.mp h))

theorem clockOf_mem (t : DateTime) :
    dayLength ≤ clockOf t ∧ clockOf t < (maxOrdinal + 1) * dayLength := clock_mem t

theorem exists_shiftTime_iff {t : DateTime} {n : Int} : (∃ u, shiftTime t n = .ok u) ↔
    dayLength ≤ clockOf t + n ∧ clockOf t + n < (maxOrdinal + 1) * dayLength := by
  simp only [shiftTime_eq_ok]
  exact exists_shift_iff

/-! ## When the candidates can be made and compared -/

/-- The clock of a candidate. -/
def namedClock (eventStart : DateTime) (token : TimeToken) (hour : Nat) : Int :=
  midnightOf eventStart.date + (hour * 60 + token.minute : Nat) * minute

/-- The candidates of a token can be made. -/
def TimesExist (eventStart : DateTime) (token : TimeToken) : Prop :=
  token.minute < 60 ∧
    ∀ hour ∈ candidateHours token, toOrdinal eventStart.date + hour / 24 ≤ maxOrdinal

/-- Five minutes after the end of the event can be compared with times in the zone of its start. -/
def EndComparable (eventStart eventEnd : DateTime) : Prop :=
  clockOf eventEnd + fiveMinutes < (maxOrdinal + 1) * dayLength
    ∧ eventStart.offset.isSome = eventEnd.offset.isSome

/-- What a start has to be for `_resolve_description_time` to return. -/
structure StartHarmless (eventStart eventEnd : DateTime) (token : TimeToken) : Prop where
  times : TimesExist eventStart token
  low : dayLength ≤ clockOf eventStart - fiveMinutes
  high : EndComparable eventStart eventEnd
    ∨ ∀ hour ∈ candidateHours token, namedClock eventStart token hour < clockOf eventStart - fiveMinutes

/-- What an end has to be for `_resolve_description_time` to return. -/
structure StopHarmless (eventStart eventEnd reference : DateTime) (token : TimeToken) : Prop where
  times : TimesExist eventStart token
  high : EndComparable eventStart eventEnd
    ∨ ∀ hour ∈ candidateHours token, namedClock eventStart token hour ≤ clockOf reference

section Resolve

variable {eventStart eventEnd reference c : DateTime} {token : TimeToken} {cs : List DateTime}

theorem candidate_eq_ok {minutes hour : Nat} (h : candidate eventStart minutes hour = .ok c) :
    clockOf c = midnightOf eventStart.date + (hour * 60 + minutes : Nat) * minute
      ∧ c.offset = eventStart.offset := by
  unfold candidate at h
  split at h
  · cases h
  · next date hdate =>
    split at h
    · next hminutes =>
      cases h
      refine ⟨?_, rfl⟩
      have hto := toOrdinal_addDays hdate
      show _ + ((hour % 24 * 60 + minutes : Nat) : Int) * minute + ((0 * 1000000 + 0 : Nat) : Int) = _
      rw [midnightOf_eq, midnightOf_eq, hto, dayLength_eq, show minute = 60000000 from rfl]
      omega
    · cases h

theorem exists_candidate_iff {minutes hour : Nat} :
    (∃ c, candidate eventStart minutes hour = .ok c) ↔
      minutes < 60 ∧ toOrdinal eventStart.date + hour / 24 ≤ maxOrdinal := by
  have hdate := exists_addDays_iff (d := eventStart.date) (n := (hour / 24 : Nat))
  have hpos := one_le_toOrdinal eventStart.date
  unfold candidate
  cases hadd : addDays eventStart.date (hour / 24 : Nat) with
  | none =>
    rw [hadd] at hdate
    refine iff_of_false (fun ⟨_, h⟩ => nomatch h) fun ⟨_, hle⟩ => ?_
    obtain ⟨_, h⟩ := hdate.mpr ⟨by omega, by omega⟩
    cases h
  | some date =>
    have hle := (hdate.mp ⟨date, hadd⟩).2
    by_cases hminutes : minutes < 60
    · simp only [dif_pos hminutes]
      exact iff_of_true ⟨_, rfl⟩ ⟨hminutes, by omega⟩
    · simp only [dif_neg hminutes]
      exact iff_of_false (fun ⟨_, h⟩ => nomatch h) fun h => hminutes h.1

theorem candidateHours_ne_nil (token : TimeToken) : candidateHours token ≠ [] := by
  unfold candidateHours
  split <;> simp

theorem exists_candidates_iff :
    (∃ cs, (candidateHours token).mapM (candidate eventStart token.minute) = .ok cs) ↔
      TimesExist eventStart token := by
  rw [exists_mapM_iff]
  simp only [exists_candidate_iff]
  obtain ⟨hour, hhour⟩ := List.exists_mem_of_ne_nil _ (candidateHours_ne_nil token)
  exact ⟨fun h => ⟨(h hour hhour).1, fun hour hhour => (h hour hhour).2⟩,
    fun h hour hhour => ⟨h.1, h.2 hour hhour⟩⟩

/-- The candidates are the times that the token names, in the zone of the event. -/
theorem clockOf_candidates
    (h : (candidateHours token).mapM (candidate eventStart token.minute) = .ok cs) :
    (∀ c ∈ cs, c.offset = eventStart.offset)
      ∧ ∀ n, (∃ c ∈ cs, clockOf c = n) ↔ ∃ hour ∈ candidateHours token,
        namedClock eventStart token hour = n := by
  refine ⟨fun c hc => ?_, fun n => ⟨?_, ?_⟩⟩
  · obtain ⟨hour, -, hcandidate⟩ := (mem_mapM h).mp hc
    exact (candidate_eq_ok hcandidate).2
  · rintro ⟨c, hc, rfl⟩
    obtain ⟨hour, hhour, hcandidate⟩ := (mem_mapM h).mp hc
    exact ⟨hour, hhour, (candidate_eq_ok hcandidate).1.symm⟩
  · rintro ⟨hour, hhour, rfl⟩
    obtain ⟨c, hc⟩ := exists_mapM_iff.mp ⟨cs, h⟩ hour hhour
    exact ⟨c, (mem_mapM h).mpr ⟨hour, hhour, hc⟩, (candidate_eq_ok hc).1⟩

theorem fiveMinutes_eq : fiveMinutes = 300000000 := rfl

theorem exists_beforeEnd_iff (hoffset : c.offset = eventStart.offset) :
    (∃ b, beforeEnd eventEnd c = .ok b) ↔ EndComparable eventStart eventEnd := by
  have hmem := clockOf_mem eventEnd
  have hhigh := exists_shiftTime_iff (t := eventEnd) (n := fiveMinutes)
  rw [beforeEnd, exists_bind_iff]
  constructor
  · rintro ⟨high, hshift, hle⟩
    refine ⟨(hhigh.mp ⟨high, hshift⟩).2, ?_⟩
    rw [← hoffset, ← offset_shift (shiftTime_eq_ok.mp hshift)]
    exact exists_timeLe_iff.mp hle
  · rintro ⟨hfits, hzone⟩
    obtain ⟨high, hshift⟩ := hhigh.mpr ⟨hmem.1.trans (by have hpos := fiveMinutes_eq; omega), hfits⟩
    refine ⟨high, hshift, exists_timeLe_iff.mpr ?_⟩
    rw [hoffset, offset_shift (shiftTime_eq_ok.mp hshift)]
    exact hzone

theorem exists_inWindow_iff (hoffset : c.offset = eventStart.offset) :
    (∃ b, inWindow eventStart eventEnd c = .ok b) ↔
      dayLength ≤ clockOf eventStart - fiveMinutes
        ∧ (EndComparable eventStart eventEnd ∨ clockOf c < clockOf eventStart - fiveMinutes) := by
  have hmem := clockOf_mem eventStart
  have hlow := exists_shiftTime_iff (t := eventStart) (n := -fiveMinutes)
  rw [← sub_eq_add_neg] at hlow
  have hstarts : ∀ {low}, shiftTime eventStart (-fiveMinutes) = .ok low →
      timeLe low c = .ok (decide (clockOf eventStart - fiveMinutes ≤ clockOf c)) := by
    intro low hshift
    rw [timeLe_of_offset ((offset_shift (shiftTime_eq_ok.mp hshift)).trans hoffset.symm),
      clockOf_shiftTime hshift, ← sub_eq_add_neg]
  rw [inWindow, exists_bind_iff]
  constructor
  · rintro ⟨low, hshift, h⟩
    refine ⟨(hlow.mp ⟨low, hshift⟩).1, ?_⟩
    rw [hstarts hshift, bind_ok] at h
    by_cases hle : clockOf eventStart - fiveMinutes ≤ clockOf c
    · rw [decide_eq_true hle, if_pos rfl] at h
      exact .inl ((exists_beforeEnd_iff hoffset).mp h)
    · exact .inr (not_le.mp hle)
  · rintro ⟨hfits, h⟩
    obtain ⟨low, hshift⟩ := hlow.mpr
      ⟨hfits, lt_of_le_of_lt (by have hpos := fiveMinutes_eq; omega) hmem.2⟩
    refine ⟨low, hshift, ?_⟩
    rw [hstarts hshift, bind_ok]
    by_cases hle : clockOf eventStart - fiveMinutes ≤ clockOf c
    · rw [decide_eq_true hle, if_pos rfl]
      exact (exists_beforeEnd_iff hoffset).mpr (h.resolve_right (not_lt.mpr hle))
    · rw [decide_eq_false hle, if_neg Bool.false_ne_true]
      exact ⟨false, rfl⟩

/-- The first of the candidates that are left, or of all. -/
theorem argmin_or_mem {α β : Type} [LinearOrder β] {f : α → β} {kept all : List α}
    (hkept : ∀ c ∈ kept, c ∈ all) {c : α} (h : (kept.argmin f).or (all.argmin f) = some c) : c ∈ all := by
  rcases Option.or_eq_some_iff.mp h with h | ⟨-, h⟩
  · exact hkept c (List.argmin_mem h)
  · exact List.argmin_mem h

theorem argmin_or_eq_none_iff {α β : Type} [LinearOrder β] {f : α → β} {kept all : List α}
    (hkept : ∀ c ∈ kept, c ∈ all) : (kept.argmin f).or (all.argmin f) = none ↔ all = [] := by
  rw [Option.or_eq_none_iff, List.argmin_eq_none, List.argmin_eq_none]
  refine ⟨And.right, fun hall => ⟨List.eq_nil_iff_forall_not_mem.mpr fun c hc => ?_, hall⟩⟩
  rw [hall] at hkept
  exact List.not_mem_nil (hkept c hc)

variable {digits : OtherDigits} {text : Text} {r : Option DateTime}

/-- The start is resolved unless it is no time, and raises unless it is harmless. -/
theorem exists_resolve_none_iff :
    (∃ r, resolveDescriptionTime digits text eventStart eventEnd none = .ok r) ↔
      ∀ token, readToken digits text = some token → StartHarmless eventStart eventEnd token := by
  unfold resolveDescriptionTime
  cases readToken digits text with
  | none => exact iff_of_true ⟨none, rfl⟩ fun _ h => nomatch h
  | some token =>
    simp only [Option.some.injEq, forall_eq']
    rw [exists_bind_iff]
    constructor
    · rintro ⟨cs, hcs, h⟩
      obtain ⟨hoffsets, hclocks⟩ := clockOf_candidates hcs
      obtain ⟨kept, hkept, -⟩ := exists_bind_iff.mp h
      have hwindow : ∀ hour ∈ candidateHours token, dayLength ≤ clockOf eventStart - fiveMinutes
          ∧ (EndComparable eventStart eventEnd
            ∨ namedClock eventStart token hour < clockOf eventStart - fiveMinutes) := by
        intro hour hhour
        obtain ⟨c, hc, hclock⟩ := (hclocks _).mpr ⟨hour, hhour, rfl⟩
        rw [← hclock]
        exact (exists_inWindow_iff (hoffsets c hc)).mp (exists_filterOk_iff.mp ⟨kept, hkept⟩ c hc)
      obtain ⟨hour, hhour⟩ := List.exists_mem_of_ne_nil _ (candidateHours_ne_nil token)
      refine ⟨exists_candidates_iff.mp ⟨cs, hcs⟩, (hwindow hour hhour).1, ?_⟩
      exact or_iff_not_imp_left.mpr fun hend hour hhour =>
        (hwindow hour hhour).2.resolve_left hend
    · rintro ⟨htimes, hlow, hhigh⟩
      obtain ⟨cs, hcs⟩ := exists_candidates_iff.mpr htimes
      obtain ⟨hoffsets, hclocks⟩ := clockOf_candidates hcs
      obtain ⟨kept, hkept⟩ : ∃ kept, filterOk (inWindow eventStart eventEnd) cs = .ok kept := by
        refine exists_filterOk_iff.mpr fun c hc => (exists_inWindow_iff (hoffsets c hc)).mpr
          ⟨hlow, hhigh.imp_right fun h => ?_⟩
        obtain ⟨hour, hhour, hclock⟩ := (hclocks _).mp ⟨c, hc, rfl⟩
        rw [← hclock]
        exact h hour hhour
      exact ⟨cs, hcs, exists_bind_iff.mpr ⟨kept, hkept, _, rfl⟩⟩

/-- A start that is a time is resolved to one of its candidates. -/
theorem resolve_none {token : TimeToken} (htoken : readToken digits text = some token)
    (h : resolveDescriptionTime digits text eventStart eventEnd none = .ok r) :
    ∃ blockStart, r = some blockStart ∧ blockStart.offset = eventStart.offset := by
  rw [resolveDescriptionTime, htoken] at h
  obtain ⟨cs, hcs, h⟩ := bind_eq_ok_iff.mp h
  obtain ⟨kept, hkept, h⟩ := bind_eq_ok_iff.mp h
  have hsubset : ∀ c ∈ kept, c ∈ cs := fun c hc => ((mem_filterOk hkept).mp hc).1
  obtain ⟨hoffsets, hclocks⟩ := clockOf_candidates hcs
  cases r with
  | none =>
    have hnil := (argmin_or_eq_none_iff hsubset).mp (Except.ok.inj h)
    obtain ⟨hour, hhour⟩ := List.exists_mem_of_ne_nil _ (candidateHours_ne_nil token)
    obtain ⟨c, hc, -⟩ := (hclocks _).mpr ⟨hour, hhour, rfl⟩
    rw [hnil] at hc
    exact absurd hc List.not_mem_nil
  | some blockStart => exact ⟨blockStart, rfl, hoffsets _ (argmin_or_mem hsubset (Except.ok.inj h))⟩

theorem resolve_of_no_time {reference : Option DateTime} (htoken : readToken digits text = none) :
    resolveDescriptionTime digits text eventStart eventEnd reference = .ok none := by
  rw [resolveDescriptionTime, htoken]

/-- The candidates after the reference. -/
theorem filterOk_timeLt (hoffset : reference.offset = eventStart.offset)
    (hoffsets : ∀ c ∈ cs, c.offset = eventStart.offset) :
    ∃ after, filterOk (timeLt reference) cs = .ok after
      ∧ ∀ c, c ∈ after ↔ c ∈ cs ∧ clockOf reference < clockOf c := by
  have hlt : ∀ c ∈ cs, timeLt reference c = .ok (decide (clockOf reference < clockOf c)) :=
    fun c hc => timeLt_of_offset (hoffset.trans (hoffsets c hc).symm)
  obtain ⟨after, hafter⟩ := exists_filterOk_iff.mpr fun c hc => ⟨_, hlt c hc⟩
  refine ⟨after, hafter, fun c => ?_⟩
  rw [mem_filterOk hafter]
  refine and_congr_right fun hc => ?_
  rw [hlt c hc, Except.ok.injEq, decide_eq_true_eq]

/-- The end is resolved unless it is no time, and raises unless it is harmless. -/
theorem exists_resolve_some_iff (hoffset : reference.offset = eventStart.offset) :
    (∃ r, resolveDescriptionTime digits text eventStart eventEnd (some reference) = .ok r) ↔
      ∀ token, readToken digits text = some token →
        StopHarmless eventStart eventEnd reference token := by
  unfold resolveDescriptionTime
  cases readToken digits text with
  | none => exact iff_of_true ⟨none, rfl⟩ fun _ h => nomatch h
  | some token =>
    simp only [Option.some.injEq, forall_eq']
    rw [exists_bind_iff]
    constructor
    · rintro ⟨cs, hcs, h⟩
      obtain ⟨hoffsets, hclocks⟩ := clockOf_candidates hcs
      obtain ⟨after, hafter, hmem⟩ := filterOk_timeLt hoffset hoffsets
      rw [hafter, bind_ok] at h
      obtain ⟨kept, hkept, -⟩ := exists_bind_iff.mp h
      refine ⟨exists_candidates_iff.mp ⟨cs, hcs⟩, or_iff_not_imp_left.mpr fun hend hour hhour => ?_⟩
      -- a candidate after the start would have been compared with the end
      by_contra hlt
      obtain ⟨c, hc, hclock⟩ := (hclocks _).mpr ⟨hour, hhour, rfl⟩
      have hc' := (hmem c).mpr ⟨hc, by rw [hclock]; exact not_le.mp hlt⟩
      exact hend ((exists_beforeEnd_iff (hoffsets c hc)).mp
        (exists_filterOk_iff.mp ⟨kept, hkept⟩ c hc'))
    · rintro ⟨htimes, hhigh⟩
      obtain ⟨cs, hcs⟩ := exists_candidates_iff.mpr htimes
      obtain ⟨hoffsets, hclocks⟩ := clockOf_candidates hcs
      obtain ⟨after, hafter, hmem⟩ := filterOk_timeLt hoffset hoffsets
      obtain ⟨kept, hkept⟩ : ∃ kept, filterOk (beforeEnd eventEnd) after = .ok kept := by
        refine exists_filterOk_iff.mpr fun c hc => ?_
        obtain ⟨hc, hlt⟩ := (hmem c).mp hc
        refine (exists_beforeEnd_iff (hoffsets c hc)).mpr (hhigh.resolve_right fun h => ?_)
        obtain ⟨hour, hhour, hclock⟩ := (hclocks _).mp ⟨c, hc, rfl⟩
        rw [← hclock] at hlt
        exact absurd (h hour hhour) (not_le.mpr hlt)
      refine ⟨cs, hcs, ?_⟩
      rw [hafter, bind_ok]
      exact exists_bind_iff.mpr ⟨kept, hkept, _, rfl⟩

/-- An end is resolved when it names a time after the start, and to a time after it. -/
theorem resolve_some {token : TimeToken} (hoffset : reference.offset = eventStart.offset)
    (htoken : readToken digits text = some token)
    (h : resolveDescriptionTime digits text eventStart eventEnd (some reference) = .ok r) :
    (r.isSome = true ↔ ∃ hour ∈ candidateHours token,
        clockOf reference < namedClock eventStart token hour)
      ∧ ∀ blockEnd, r = some blockEnd →
        blockEnd.offset = eventStart.offset ∧ clockOf reference < clockOf blockEnd := by
  rw [resolveDescriptionTime, htoken] at h
  obtain ⟨cs, hcs, h⟩ := bind_eq_ok_iff.mp h
  obtain ⟨hoffsets, hclocks⟩ := clockOf_candidates hcs
  obtain ⟨after, hafter, hmem⟩ := filterOk_timeLt hoffset hoffsets
  dsimp only at h
  rw [hafter, bind_ok] at h
  obtain ⟨kept, hkept, h⟩ := bind_eq_ok_iff.mp h
  have hsubset : ∀ c ∈ kept, c ∈ after := fun c hc => ((mem_filterOk hkept).mp hc).1
  have hr := Except.ok.inj h
  constructor
  · rw [← hr, ← not_iff_not, Bool.not_eq_true, Option.isSome_eq_false_iff, Option.isNone_iff_eq_none,
      argmin_or_eq_none_iff hsubset, List.eq_nil_iff_forall_not_mem]
    push Not
    constructor
    · intro hnone hour hhour
      obtain ⟨c, hc, hclock⟩ := (hclocks _).mpr ⟨hour, hhour, rfl⟩
      rw [← hclock]
      exact not_lt.mp fun hlt => hnone c ((hmem c).mpr ⟨hc, hlt⟩)
    · intro hnone c hc
      obtain ⟨hc, hlt⟩ := (hmem c).mp hc
      obtain ⟨hour, hhour, hclock⟩ := (hclocks _).mp ⟨c, hc, rfl⟩
      rw [← hclock] at hlt
      exact absurd (hnone hour hhour) (not_le.mpr hlt)
  · rintro blockEnd rfl
    obtain ⟨hc, hlt⟩ := (hmem blockEnd).mp (argmin_or_mem hsubset hr)
    exact ⟨hoffsets _ hc, hlt⟩

end Resolve

/-! ## When the uid of a block can be made -/

theorem encodable_append_iff {t u : Text} : Encodable (t ++ u) ↔ Encodable t ∧ Encodable u :=
  List.forall_mem_append

theorem encodable_text_iff {t : Text} : Encodable (Token.str t).text ↔ Encodable t := by
  have hquote : Encodable [JsonText.quote] := JsonText.encodable_of_ascii rfl
  have hescape : Encodable (t.flatMap JsonText.escapeChar) ↔ Encodable t := by
    constructor
    · intro h c hc
      by_contra hsurrogate
      -- what has no encoding is written as it stands
      have hself : c ∈ JsonText.escapeChar c := by
        have hlarge : ¬c.val < 0x80 := fun hlt => hsurrogate (JsonText.isSurrogate_of_lt hlt)
        unfold JsonText.escapeChar
        split_ifs <;> first | omega | simp
      exact hsurrogate (h c (List.mem_flatMap.mpr ⟨c, hc, hself⟩))
    · intro h d hd
      obtain ⟨c, hc, hd⟩ := List.mem_flatMap.mp hd
      exact JsonText.isSurrogate_of_mem_escapeChar (h c hc) hd
  show Encodable ([JsonText.quote] ++ (t.flatMap JsonText.escapeChar ++ [JsonText.quote])) ↔ _
  rw [encodable_append_iff, encodable_append_iff, hescape]
  exact ⟨fun h => h.2.1, fun h => ⟨hquote, h, hquote⟩⟩

theorem encodable_dumpsCompact_iff {parts : List Text} :
    Encodable (dumpsCompact parts) ↔ ∀ t ∈ parts, Encodable t := by
  have hjoin : ∀ texts : List Text,
      Encodable ((lit ",").intercalate texts) ↔ ∀ t ∈ texts, Encodable t := by
    intro texts
    induction texts with
    | nil => exact iff_of_true (JsonText.encodable_of_ascii rfl) (by simp)
    | cons t texts ih =>
      cases texts with
      | nil => simp
      | cons u texts =>
        rw [List.intercalate_cons_cons, encodable_append_iff, encodable_append_iff, ih,
          List.forall_mem_cons (a := t)]
        exact ⟨fun h => ⟨h.1.1, h.2⟩, fun h => ⟨⟨h.1, JsonText.encodable_of_ascii rfl⟩, h.2⟩⟩
  rw [dumpsCompact, encodable_append_iff, encodable_append_iff, hjoin, List.forall_mem_map]
  simp only [encodable_text_iff]
  have hopen : Encodable (lit "[") := JsonText.encodable_of_ascii rfl
  have hclose : Encodable (lit "]") := JsonText.encodable_of_ascii rfl
  exact ⟨fun h => h.2.1, fun h => ⟨hopen, h, hclose⟩⟩

variable {digits : OtherDigits} {sha256 : Digest} {other : Text → Option DateTime}

theorem exists_buildFallbackItemUid_iff {kind : Text} {parts : List Text} :
    (∃ uid, buildFallbackItemUid sha256 kind parts = .ok uid) ↔ ∀ t ∈ kind :: parts, Encodable t := by
  rw [← encodable_dumpsCompact_iff, JsonText.Encodable, ← Py.encode_isSome_iff]
  unfold buildFallbackItemUid
  split
  · next h => exact iff_of_true ⟨_, rfl⟩ (h ▸ rfl)
  · next h => exact iff_of_false (fun ⟨_, h'⟩ => nomatch h') (by rw [h]; exact Bool.false_ne_true)

theorem exists_uid_iff {event : CalendarEvent} {blockStart blockEnd : DateTime} {title : Text} :
    (∃ uid, buildFallbackItemUid sha256 (lit "planning-block")
        [event.itemUid, blockStart.isoformat, blockEnd.isoformat, title] = .ok uid) ↔
      Encodable event.itemUid ∧ Encodable title := by
  have hkind : Encodable (lit "planning-block") := JsonText.encodable_of_ascii rfl
  rw [exists_buildFallbackItemUid_iff]
  simp only [List.mem_cons, List.not_mem_nil, or_false, forall_eq_or_imp, forall_eq]
  exact ⟨fun h => ⟨h.2.1, h.2.2.2.2⟩, fun h => ⟨hkind, h.1, DateTime.encodable_isoformat _,
    DateTime.encodable_isoformat _, h.2⟩⟩

theorem encodable_uid {kind uid : Text} {parts : List Text}
    (h : buildFallbackItemUid sha256 kind parts = .ok uid) : Encodable uid := by
  unfold buildFallbackItemUid at h
  split at h
  · cases h
    exact (sha256 _).2
  · cases h

/-! ## Lines and events -/

section Lines

variable {event : CalendarEvent} {eventStart eventEnd : DateTime} {line : Text}

/-- What a block says of the event and of the line that it was read from. -/
structure ReadFrom (digits : OtherDigits) (event : CalendarEvent) (eventStart eventEnd : DateTime)
    (line : Text) (block : PlanningExecutionBlock) : Prop where
  uid : block.sourceEventUid = event.itemUid
  title : block.sourceEventTitle = event.title
  description : block.description = strip line
  blockId : Encodable block.blockId
  parsed : ∃ groups, descriptionBlockPattern (strip line) = some groups
    ∧ block.title = strip groups.title
  times : ∃ blockStart blockEnd, block.start = blockStart.isoformat ∧ block.stop = blockEnd.isoformat
    ∧ blockStart.offset = eventStart.offset ∧ blockEnd.offset = eventStart.offset
    ∧ clockOf blockStart < clockOf blockEnd

/-- When a line returns, it is no block or one that was read from it. -/
theorem readFrom_of_lineBlock {block : PlanningExecutionBlock}
    (h : lineBlock digits sha256 event eventStart eventEnd line = .ok (some block)) :
    ReadFrom digits event eventStart eventEnd line block := by
  unfold lineBlock at h
  split at h
  · cases h
  · next groups hgroups =>
    obtain ⟨r, hr, h⟩ := bind_eq_ok_iff.mp h
    cases htoken : readToken digits (strip groups.start) with
    | none =>
      rw [resolve_of_no_time htoken, Except.ok.injEq] at hr
      subst hr
      cases h
    | some token =>
      obtain ⟨blockStart, rfl, hoffset⟩ := resolve_none htoken hr
      obtain ⟨r', hr', h⟩ := bind_eq_ok_iff.mp h
      cases htoken' : readToken digits (strip groups.stop) with
      | none =>
        rw [resolve_of_no_time htoken', Except.ok.injEq] at hr'
        subst hr'
        cases h
      | some token' =>
        cases r' with
        | none => cases h
        | some blockEnd =>
          obtain ⟨hoffset', hlt⟩ := (resolve_some hoffset htoken' hr').2 blockEnd rfl
          obtain ⟨endsBefore, hle, h⟩ := bind_eq_ok_iff.mp h
          rw [timeLe_of_offset (hoffset'.trans hoffset.symm), decide_eq_false (not_le.mpr hlt),
            Except.ok.injEq] at hle
          subst hle
          obtain ⟨uid, huid, h⟩ := bind_eq_ok_iff.mp h
          cases h
          exact ⟨rfl, rfl, rfl, encodable_uid huid, ⟨groups, hgroups, rfl⟩,
            blockStart, blockEnd, rfl, rfl, hoffset, hoffset', hlt⟩

/-- What a line has to be for `_parse_execution_blocks_from_description` to get past it. -/
def LineHarmless (digits : OtherDigits) (event : CalendarEvent) (eventStart eventEnd : DateTime)
    (line : Text) : Prop :=
  ∀ groups, descriptionBlockPattern (strip line) = some groups →
    ∀ start, readToken digits (strip groups.start) = some start →
      StartHarmless eventStart eventEnd start
        ∧ ∀ stop blockStart, readToken digits (strip groups.stop) = some stop →
          resolveDescriptionTime digits (strip groups.start) eventStart eventEnd none
            = .ok (some blockStart) →
          StopHarmless eventStart eventEnd blockStart stop
            ∧ ((∃ hour ∈ candidateHours stop,
                  clockOf blockStart < namedClock eventStart stop hour) →
                Encodable event.itemUid ∧ Encodable (strip groups.title))

theorem exists_lineBlock_iff :
    (∃ r, lineBlock digits sha256 event eventStart eventEnd line = .ok r) ↔
      LineHarmless digits event eventStart eventEnd line := by
  unfold lineBlock LineHarmless
  cases hgroups : descriptionBlockPattern (strip line) with
  | none => exact iff_of_true ⟨none, rfl⟩ fun _ h => nomatch h
  | some groups =>
    simp only [Option.some.injEq, forall_eq']
    rw [exists_bind_iff]
    cases htoken : readToken digits (strip groups.start) with
    | none => exact iff_of_true ⟨none, resolve_of_no_time htoken, none, rfl⟩ fun _ h => nomatch h
    | some start =>
      simp only [Option.some.injEq, forall_eq']
      constructor
      · rintro ⟨r, hr, h⟩
        have hstart := exists_resolve_none_iff.mp ⟨r, hr⟩ start htoken
        obtain ⟨blockStart, rfl, hoffset⟩ := resolve_none htoken hr
        refine ⟨hstart, fun stop blockStart' hstop hblock => ?_⟩
        rw [hr, Except.ok.injEq, Option.some.injEq] at hblock
        subst hblock
        obtain ⟨r', hr', h⟩ := exists_bind_iff.mp h
        obtain ⟨hsome, htimes⟩ := resolve_some hoffset hstop hr'
        refine ⟨(exists_resolve_some_iff hoffset).mp ⟨r', hr'⟩ stop hstop, fun hlater => ?_⟩
        obtain ⟨blockEnd, rfl⟩ := Option.isSome_iff_exists.mp (hsome.mpr hlater)
        obtain ⟨hoffset', hlt⟩ := htimes blockEnd rfl
        obtain ⟨endsBefore, hle, h⟩ := exists_bind_iff.mp h
        rw [timeLe_of_offset (hoffset'.trans hoffset.symm), decide_eq_false (not_le.mpr hlt),
          Except.ok.injEq] at hle
        subst hle
        obtain ⟨uid, huid, -⟩ := exists_bind_iff.mp h
        exact exists_uid_iff.mp ⟨uid, huid⟩
      · rintro ⟨hstart, hstop⟩
        obtain ⟨r, hr⟩ := exists_resolve_none_iff.mpr fun token h => by
          rw [htoken, Option.some.injEq] at h
          exact h ▸ hstart
        obtain ⟨blockStart, rfl, hoffset⟩ := resolve_none htoken hr
        refine ⟨some blockStart, hr, ?_⟩
        obtain ⟨r', hr'⟩ := (exists_resolve_some_iff hoffset).mpr fun stop h =>
          (hstop stop blockStart h hr).1
        refine exists_bind_iff.mpr ⟨r', hr', ?_⟩
        cases htoken' : readToken digits (strip groups.stop) with
        | none =>
          rw [resolve_of_no_time htoken', Except.ok.injEq] at hr'
          subst hr'
          exact ⟨none, rfl⟩
        | some stop =>
          obtain ⟨hsome, htimes⟩ := resolve_some hoffset htoken' hr'
          cases r' with
          | none => exact ⟨none, rfl⟩
          | some blockEnd =>
            obtain ⟨hoffset', hlt⟩ := htimes blockEnd rfl
            have hle := timeLe_of_offset (hoffset'.trans hoffset.symm)
            rw [decide_eq_false (not_le.mpr hlt)] at hle
            obtain ⟨uid, huid⟩ := exists_uid_iff.mpr
              ((hstop stop blockStart htoken' hr).2 (hsome.mp rfl))
            exact exists_bind_iff.mpr ⟨false, hle, exists_bind_iff.mpr ⟨uid, huid, _, rfl⟩⟩

end Lines

/-- What an event has to be for `build_execution_blocks` to get past it. -/
def EventHarmless (digits : OtherDigits) (other : Text → Option DateTime) (event : CalendarEvent) :
    Prop :=
  ∀ eventStart eventEnd, eventWindow other event = some (eventStart, eventEnd) →
    ∀ line ∈ splitlines event.description, LineHarmless digits event eventStart eventEnd line

theorem exists_eventBlocks_iff {event : CalendarEvent} :
    (∃ blocks, eventBlocks digits sha256 other event = .ok blocks) ↔
      EventHarmless digits other event := by
  unfold eventBlocks EventHarmless
  cases eventWindow other event with
  | none => exact iff_of_true ⟨[], rfl⟩ fun _ _ h => nomatch h
  | some window =>
    obtain ⟨eventStart, eventEnd⟩ := window
    simp only [parseExecutionBlocksFromDescription, Option.some.injEq, Prod.mk.injEq, and_imp,
      forall_eq', forall_apply_eq_imp_iff]
    rw [exists_bind_iff]
    simp only [← @exists_lineBlock_iff digits sha256, ← exists_mapM_iff]
    exact ⟨fun ⟨rs, hrs, _⟩ => ⟨rs, hrs⟩, fun ⟨rs, hrs⟩ => ⟨rs, hrs, _, rfl⟩⟩

/-- The blocks of an event are those of its lines. -/
theorem mem_eventBlocks {event : CalendarEvent} {blocks : List PlanningExecutionBlock}
    (h : eventBlocks digits sha256 other event = .ok blocks) {block : PlanningExecutionBlock} :
    block ∈ blocks ↔ ∃ eventStart eventEnd, eventWindow other event = some (eventStart, eventEnd)
      ∧ ∃ line ∈ splitlines event.description,
        lineBlock digits sha256 event eventStart eventEnd line = .ok (some block) := by
  unfold eventBlocks at h
  cases hwindow : eventWindow other event with
  | none =>
    rw [hwindow] at h
    cases h
    simp
  | some window =>
    obtain ⟨eventStart, eventEnd⟩ := window
    rw [hwindow] at h
    obtain ⟨rs, hrs, h⟩ := bind_eq_ok_iff.mp h
    cases h
    rw [sortBlocks, KeyOrder.mem_sortBy, List.mem_filterMap]
    simp only [id_eq, exists_eq_right, mem_mapM hrs, Option.some.injEq, Prod.mk.injEq]
    constructor
    · exact fun hline => ⟨eventStart, eventEnd, ⟨rfl, rfl⟩, hline⟩
    · rintro ⟨_, _, ⟨rfl, rfl⟩, hline⟩
      exact hline

/-- **The blocks are returned when every event is harmless.** -/
theorem exists_buildExecutionBlocks_iff {events : List CalendarEvent} :
    (∃ blocks, buildExecutionBlocks digits sha256 other events = .ok blocks) ↔
      ∀ event ∈ events, EventHarmless digits other event := by
  rw [buildExecutionBlocks, exists_bind_iff]
  simp only [← @exists_eventBlocks_iff digits sha256 other, ← exists_mapM_iff]
  exact ⟨fun ⟨rs, hrs, _⟩ => ⟨rs, hrs⟩, fun ⟨rs, hrs⟩ => ⟨rs, hrs, _, rfl⟩⟩

/-- The blocks are those of the lines of the events. -/
theorem mem_buildExecutionBlocks {events : List CalendarEvent} {blocks : List PlanningExecutionBlock}
    (h : buildExecutionBlocks digits sha256 other events = .ok blocks)
    {block : PlanningExecutionBlock} :
    block ∈ blocks ↔ ∃ event ∈ events, ∃ eventStart eventEnd,
      eventWindow other event = some (eventStart, eventEnd) ∧ ∃ line ∈ splitlines event.description,
        lineBlock digits sha256 event eventStart eventEnd line = .ok (some block) := by
  obtain ⟨lists, hlists, h⟩ := bind_eq_ok_iff.mp h
  cases h
  rw [sortBlocks, KeyOrder.mem_sortBy, List.mem_flatten]
  constructor
  · rintro ⟨l, hl, hblock⟩
    obtain ⟨event, hevent, hblocks⟩ := (mem_mapM hlists).mp hl
    exact ⟨event, hevent, (mem_eventBlocks hblocks).mp hblock⟩
  · rintro ⟨event, hevent, hblock⟩
    obtain ⟨l, hl⟩ := exists_mapM_iff.mp ⟨lists, hlists⟩ event hevent
    exact ⟨l, (mem_mapM hlists).mpr ⟨event, hevent, hl⟩, (mem_eventBlocks hl).mpr hblock⟩

end ForgeKit.DayPlan

namespace ForgeKit.DayPlan

open Py (Text lit ofChar newline isSpace strip)
open IsoTime (DateTime)
open JsonText (Encodable)

variable {digits : OtherDigits} {sha256 : Digest} {other : Text → Option DateTime}

/-! ## `HH:MM ~ HH:MM : title` -/

/-- A time of the day on which an event starts, in its zone. -/
def timeAt (eventStart : DateTime) (t : Fin 24 × Fin 60) : DateTime where
  date := eventStart.date
  hour := t.1
  minute := t.2
  second := 0
  microsecond := 0
  offset := eventStart.offset

/-- The event with the line as its description has one block, with the times and the title that the
line says. -/
def ReadAsWritten (digits : OtherDigits) (sha256 : Digest) (other : Text → Option DateTime)
    (event : CalendarEvent) (start stop : Fin 24 × Fin 60) (title : Text) : Prop :=
  ∃ eventStart block, DateTime.fromisoformat other event.start = some eventStart
    ∧ buildExecutionBlocks digits sha256 other
        [{ event with description := clockLine start stop title }] = .ok [block]
    ∧ block.start = (timeAt eventStart start).isoformat
    ∧ block.stop = (timeAt eventStart stop).isoformat ∧ block.title = title

/-- **Descriptions written as times are not read as those times.** The end stops at the colon of its
minutes, which become a part of the title. -/
theorem not_readAsWritten (event : CalendarEvent) (start stop : Fin 24 × Fin 60) {title : Text}
    (hbreak : ∀ c ∈ title, isLineBreak c = false) (htitle : strip title = title) :
    ¬ReadAsWritten digits sha256 other event start stop title := by
  rintro ⟨_, block, -, hbuild, -, -, htitle'⟩
  have hline := isLineBreak_clockLine start stop hbreak
  obtain ⟨e, he, eventStart, eventEnd, -, line, hmem, hblock⟩ :=
    (mem_buildExecutionBlocks hbuild).mp List.mem_cons_self
  obtain rfl := List.mem_singleton.mp he
  rw [splitlines_of_no_break (by simp [clockLine, clockText]) hline, List.mem_singleton] at hmem
  subst hmem
  obtain ⟨groups, hgroups, hparsed⟩ := (readFrom_of_lineBlock hblock).parsed
  have hnewline : newline ∉ title := fun h => absurd (hbreak _ h) (by decide)
  rw [descriptionBlockPattern_clockLine start stop hnewline htitle, Option.some.injEq] at hgroups
  subst hgroups
  -- the title that is read is longer than the one that was written
  rw [htitle', strip_afterHour stop.2 htitle] at hparsed
  have hlength := congrArg List.length hparsed
  rw [afterHour, pad_two, List.length_append] at hlength
  split at hlength
  · next hnil =>
    rw [hnil] at hlength
    cases hlength
  · rw [List.length_append] at hlength
    simp only [List.length_cons, List.length_nil] at hlength
    omega

/-- An event of four hours in Seoul. -/
def seoulEvent (description : String) : CalendarEvent where
  itemUid := lit "event-2"
  title := lit "업무 수행"
  start := lit "2026-04-22T09:00:00+09:00"
  stop := lit "2026-04-22T13:00:00+09:00"
  allDay := false
  calendarName := lit "내 캘린더"
  source := lit "naver-caldav"
  description := lit description
  lastModified := none

/-- A digest that is always the same. -/
def noDigest : Digest := fun _ => ⟨[], fun _ h => nomatch h⟩

theorem not_readAsWritten_meeting :
    clockLine (9, 0) (10, 30) (lit "회의") = lit "09:00 ~ 10:30 : 회의" ∧
    (buildExecutionBlocks (fun _ => none) noDigest (fun _ => none)
        [seoulEvent "09:00 ~ 10:30 : 회의"]).toOption.map
        (·.map fun block => (block.start, block.stop, block.title)) =
      some [(lit "2026-04-22T09:00:00+09:00", lit "2026-04-22T10:00:00+09:00", lit "30 : 회의")] ∧
    ¬ReadAsWritten (fun _ => none) noDigest (fun _ => none) (seoulEvent "") (9, 0) (10, 30)
      (lit "회의") := by
  have hline : clockLine (9, 0) (10, 30) (lit "회의") = lit "09:00 ~ 10:30 : 회의" := by decide
  have hrun : (buildExecutionBlocks (fun _ => none) noDigest (fun _ => none)
        [seoulEvent "09:00 ~ 10:30 : 회의"]).toOption.map
        (·.map fun block => (block.start, block.stop, block.title)) =
      some [(lit "2026-04-22T09:00:00+09:00", lit "2026-04-22T10:00:00+09:00", lit "30 : 회의")] := by
    decide +kernel
  refine ⟨hline, hrun, ?_⟩
  rintro ⟨_, block, -, hbuild, -, -, htitle⟩
  rw [hline] at hbuild
  change (buildExecutionBlocks _ _ _ [seoulEvent "09:00 ~ 10:30 : 회의"]) = _ at hbuild
  rw [hbuild] at hrun
  have htitles := List.head_eq_of_cons_eq (Option.some.inj hrun)
  rw [Prod.mk.injEq, Prod.mk.injEq, htitle] at htitles
  exact absurd htitles.2.2 (by decide)

theorem not_readAsWritten_lunch :
    ¬ReadAsWritten (fun _ => none) noDigest (fun _ => none) (seoulEvent "") (12, 0) (12, 45)
      (lit "점심") := by
  have hbreak : (lit "점심").all (!isLineBreak ·) = true := by decide
  refine not_readAsWritten _ _ _ (fun c hc => ?_) (by decide)
  simpa using List.all_eq_true.mp hbreak c hc

/-! ## Descriptions that do harm -/

/-- A block of a line of its event's description, that starts before it ends. -/
def OfOwnLine (events : List CalendarEvent) (block : PlanningExecutionBlock) : Prop :=
  ∃ event ∈ events, block.sourceEventUid = event.itemUid
    ∧ (∃ line ∈ splitlines event.description, block.description = strip line)
    ∧ ∃ blockStart blockEnd, block.start = blockStart.isoformat ∧ block.stop = blockEnd.isoformat
      ∧ timeLt blockStart blockEnd = .ok true

/-- **The blocks are returned, each of a line of its own event, if and only if no line does harm.** -/
theorem buildExecutionBlocks_harmless_iff {events : List CalendarEvent} :
    (∃ blocks, buildExecutionBlocks digits sha256 other events = .ok blocks
        ∧ ∀ block ∈ blocks, OfOwnLine events block) ↔
      ∀ event ∈ events, EventHarmless digits other event := by
  rw [← @exists_buildExecutionBlocks_iff digits sha256]
  refine exists_congr fun blocks => and_iff_left_of_imp fun hblocks block hblock => ?_
  obtain ⟨event, hevent, eventStart, eventEnd, -, line, hline, hread⟩ :=
    (mem_buildExecutionBlocks hblocks).mp hblock
  obtain ⟨huid, -, hdescription, -, -, blockStart, blockEnd, hstart, hstop, hoffset, hoffset', hlt⟩ :=
    readFrom_of_lineBlock hread
  refine ⟨event, hevent, huid, ⟨line, hline, hdescription⟩, blockStart, blockEnd, hstart, hstop, ?_⟩
  rw [timeLt_of_offset (hoffset.trans hoffset'.symm), decide_eq_true hlt]

theorem buildExecutionBlocks_of_75_minutes :
    (eventWindow (fun _ => none) (seoulEvent "9:75 ~ 10시 : 회의")).isSome = true ∧
    buildExecutionBlocks (fun _ => none) noDigest (fun _ => none)
      [seoulEvent "9:75 ~ 10시 : 회의"] = .error .valueError := by
  decide +kernel

end ForgeKit.DayPlan
