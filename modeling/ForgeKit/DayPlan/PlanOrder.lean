import ForgeKit.DayPlan.ExecutionBlocks

/-!
# The plan in time order (`yule_planning/schedule`)

The fixed schedule, the execution blocks and the checkpoints are sorted by the text of a timestamp,
while the checkpoints are computed from instants.

* `planInOrder_iff` — the plan is in time order if and only if the texts are in the order of the
  instants
-/

namespace ForgeKit.DayPlan

open Py (Text lit strip)
open IsoTime (DateTime)
open JsonText (Encodable)
open KeyOrder (lexLe sortBy mem_sortBy)
open Raising

/-! ## The fixed schedule -/

/-- The block of an event, in the loop of `build_fixed_schedule`. -/
def fixedBlock (event : CalendarEvent) : PlanningTimeBlock where
  start := event.start
  stop := event.stop
  blockType := lit "fixed_event"
  title := event.title
  taskId := some event.itemUid
  locked := true

/-- `build_fixed_schedule`. -/
def buildFixedSchedule (events : List CalendarEvent) : List PlanningTimeBlock :=
  sortBy lexLe PlanningTimeBlock.start ((events.filter fun event => !event.allDay).map fixedBlock)

/-! ## The checkpoints -/

/-- The forms of `lead_minutes`. -/
inductive LeadMinutes where
  | int (n : Int)
  | text (t : Text)
  | ints (ns : List Int)

section Checkpoints

variable (readInt : Text → Option Int)

/-- `raw_values`, as `int` reads them. -/
def rawValues : LeadMinutes → Except PlanError (List Int)
  | .int n => .ok [n]
  | .text t =>
    (((t.splitOn (Py.ofChar ',')).map strip).filter (· ≠ [])).mapM fun part =>
      match readInt part with
      | some n => .ok n
      | none => .error .valueError
  | .ints ns => .ok ns

/-- One value in the loop of `normalize_checkpoint_lead_minutes`. -/
def addLead (normalized : List Int) (value : Int) : List Int :=
  if value ≤ 0 then normalized
  else if normalized.contains value then normalized
  else normalized ++ [value]

/-- `normalize_checkpoint_lead_minutes`; `readInt` is `int` of a text. -/
def normalizeCheckpointLeadMinutes (leadMinutes : LeadMinutes) : Except PlanError (List Int) := do
  let values ← rawValues readInt leadMinutes
  .ok ((values.foldl addLead []).insertionSort (· ≥ ·))

variable (sha256 : Digest) (other : Text → Option DateTime)

/-- `datetime.fromisoformat`, where nothing is caught. -/
def parseTime (t : Text) : Except PlanError DateTime :=
  match DateTime.fromisoformat other t with
  | some time => .ok time
  | none => .error .valueError

/-- `str(n)`. -/
def strInt (n : Int) : Text := (JsonText.Number.ofInt n).word

/-- `t.strftime("%H:%M")`. -/
def clockLabel (t : DateTime) : Text := clockText (t.hour, t.minute)

/-- `remind_label` and `lead_message`. -/
def leadMessage (block : PlanningExecutionBlock) (remindAt : DateTime) (leadMinutes : Int) : Text :=
  clockLabel remindAt ++ (lit " 체크: '" ++ (block.title ++ (lit "' 마감까지 "
    ++ (strInt leadMinutes ++ lit "분 남았습니다. "))))

/-- The prompt that names the next block. -/
def followUpPrompt (block next : PlanningExecutionBlock) (nextStart remindAt : DateTime)
    (leadMinutes : Int) : Text :=
  leadMessage block remindAt leadMinutes ++ (lit "끝났다면 " ++ (clockLabel nextStart ++ (lit "부터 '"
    ++ (next.title ++ (lit "'로 넘어가고, "
    ++ lit "아직 안 끝났다면 남은 핵심 한 가지만 정리해서 다음 블록으로 이월해 주세요.")))))

/-- The prompt that names no other block. -/
def lastPrompt (block : PlanningExecutionBlock) (remindAt : DateTime) (leadMinutes : Int) : Text :=
  leadMessage block remindAt leadMinutes ++ (lit "'" ++ (block.sourceEventTitle
    ++ (lit "' 일정 종료 전 정리할 시간입니다. "
    ++ lit "완료 여부와 남은 한 가지를 짧게 남겨두면 다음 판단이 쉬워집니다.")))

/-- `_build_checkpoint_prompt`. -/
def buildCheckpointPrompt (block : PlanningExecutionBlock) (nextBlock : Option PlanningExecutionBlock)
    (remindAt : DateTime) (leadMinutes : Int) : Except PlanError Text :=
  match nextBlock with
  | some next =>
    if next.sourceEventUid = block.sourceEventUid then do
      let nextStart ← parseTime other next.start
      .ok (followUpPrompt block next nextStart remindAt leadMinutes)
    else .ok (lastPrompt block remindAt leadMinutes)
  | none => .ok (lastPrompt block remindAt leadMinutes)

/-- The checkpoint of a block and a lead, if it comes after the start of the block. -/
def checkpointOf (block : PlanningExecutionBlock) (nextBlock : Option PlanningExecutionBlock)
    (blockStart blockEnd : DateTime) (leadMinutes : Int) :
    Except PlanError (Option PlanningCheckpoint) := do
  let remindAt ← shiftTime blockEnd (-(leadMinutes * minute))
  let early ← timeLe remindAt blockStart
  if early then .ok none
  else
    let prompt ← buildCheckpointPrompt other block nextBlock remindAt leadMinutes
    let checkpointId ← buildFallbackItemUid sha256 (lit "planning-checkpoint")
      [block.blockId, remindAt.isoformat, strInt leadMinutes]
    .ok (some
      { checkpointId := checkpointId, remindAt := remindAt.isoformat
        sourceEventUid := block.sourceEventUid, sourceEventTitle := block.sourceEventTitle
        blockId := block.blockId, blockTitle := block.title, blockStart := block.start
        blockEnd := block.stop, prompt := prompt })

/-- The loop over the sorted blocks; the next block is the first of those that are left. -/
def checkpointsOf (leads : List Int) :
    List PlanningExecutionBlock → Except PlanError (List PlanningCheckpoint)
  | [] => .ok []
  | block :: blocks => do
    let blockStart ← parseTime other block.start
    let blockEnd ← parseTime other block.stop
    let here ← leads.mapM (checkpointOf sha256 other block blocks.head? blockStart blockEnd)
    let rest ← checkpointsOf leads blocks
    .ok (here.filterMap id ++ rest)

/-- `build_checkpoints`. -/
def buildCheckpoints (executionBlocks : List PlanningExecutionBlock) (leadMinutes : LeadMinutes) :
    Except PlanError (List PlanningCheckpoint) := do
  let leads ← normalizeCheckpointLeadMinutes readInt leadMinutes
  if leads = [] then .ok []
  else
    let checkpoints ← checkpointsOf sha256 other leads (sortBlocks executionBlocks)
    .ok (sortBy lexLe PlanningCheckpoint.remindAt checkpoints)

end Checkpoints

/-! ## What it means to be in time order -/

/-- The instant of a time, in microseconds. -/
def instantOf (t : DateTime) : Int := clockOf t - (t.offset.map (·.1)).getD 0

/-- The times that two texts stand for are in this order. -/
def NotLater (other : Text → Option DateTime) (t u : Text) : Prop :=
  ∀ a b, DateTime.fromisoformat other t = some a → DateTime.fromisoformat other u = some b →
    instantOf a ≤ instantOf b

/-- Among some texts, the order of the texts is the order of the instants. -/
def TextsAgree (other : Text → Option DateTime) (among : Text → Prop) : Prop :=
  ∀ t u, among t → among u → lexLe t u = true → NotLater other t u

section Plan

variable (digits : OtherDigits) (sha256 : Digest) (other : Text → Option DateTime)
  (readInt : Text → Option Int) (events : List CalendarEvent) (leadMinutes : LeadMinutes)

/-- The checkpoint lies strictly inside of the block that it is about. -/
def StrictlyInside (blocks : List PlanningExecutionBlock) (checkpoint : PlanningCheckpoint) : Prop :=
  ∃ block ∈ blocks, checkpoint.blockId = block.blockId ∧ checkpoint.blockStart = block.start
    ∧ checkpoint.blockEnd = block.stop ∧ ∃ blockStart blockEnd remindAt,
      block.start = blockStart.isoformat ∧ block.stop = blockEnd.isoformat
        ∧ checkpoint.remindAt = remindAt.isoformat
        ∧ instantOf blockStart < instantOf remindAt ∧ instantOf remindAt < instantOf blockEnd

/-- No block starts between a block and the one that its prompt names. -/
def NextByInstant (blocks : List PlanningExecutionBlock) (block next : PlanningExecutionBlock) :
    Prop :=
  next ∈ blocks ∧ NotLater other block.start next.start
    ∧ ∀ between ∈ blocks, NotLater other between.start block.start
      ∨ NotLater other next.start between.start

/-- The prompt names no other block, or the next one. -/
def NamesNext (blocks : List PlanningExecutionBlock) (checkpoint : PlanningCheckpoint) : Prop :=
  ∃ block ∈ blocks, checkpoint.blockId = block.blockId ∧ ∃ remindAt lead,
    checkpoint.remindAt = remindAt.isoformat ∧
      (checkpoint.prompt = lastPrompt block remindAt lead
        ∨ ∃ next nextStart, DateTime.fromisoformat other next.start = some nextStart
          ∧ checkpoint.prompt = followUpPrompt block next nextStart remindAt lead
          ∧ NextByInstant other blocks block next)

/-- The three lists are returned, each in the order of instants; checkpoints lie inside of their
blocks and name the next ones. -/
def PlanInOrder : Prop :=
  (buildFixedSchedule events).Pairwise (fun a b => NotLater other a.start b.start)
    ∧ ∃ blocks, buildExecutionBlocks digits sha256 other events = .ok blocks
      ∧ blocks.Pairwise (fun a b => NotLater other a.start b.start)
      ∧ ∃ checkpoints, buildCheckpoints readInt sha256 other blocks leadMinutes = .ok checkpoints
        ∧ checkpoints.Pairwise (fun a b => NotLater other a.remindAt b.remindAt)
        ∧ (∀ checkpoint ∈ checkpoints, StrictlyInside blocks checkpoint)
        ∧ ∀ checkpoint ∈ checkpoints, NamesNext other blocks checkpoint

/-! ## What it takes -/

/-- A line of an event describes a block with these times. -/
def Described (blockStart blockEnd : DateTime) : Prop :=
  ∃ event ∈ events, ∃ eventStart eventEnd, eventWindow other event = some (eventStart, eventEnd)
    ∧ ∃ line ∈ splitlines event.description, ∃ block,
      lineBlock digits sha256 event eventStart eventEnd line = .ok (some block)
        ∧ block.start = blockStart.isoformat ∧ block.stop = blockEnd.isoformat

/-- A time some lead before the end of a described block, and after its start. -/
def Reminded (leads : List Int) (remindAt : DateTime) : Prop :=
  ∃ blockStart blockEnd, Described digits sha256 other events blockStart blockEnd
    ∧ ∃ lead ∈ leads, shift blockEnd (-(lead * minute)) = some remindAt
      ∧ clockOf blockStart < clockOf remindAt

/-- Nothing raises, and the texts that are sorted are in the order of the instants. -/
structure PlanTimesAgree : Prop where
  fixed : TextsAgree other fun t => ∃ event ∈ events, event.allDay = false ∧ t = event.start
  harmless : ∀ event ∈ events, EventHarmless digits other event
  blocks : TextsAgree other fun t => ∃ blockStart blockEnd,
    Described digits sha256 other events blockStart blockEnd ∧ t = blockStart.isoformat
  checkpoints : ∃ leads, normalizeCheckpointLeadMinutes readInt leadMinutes = .ok leads
    ∧ (∀ blockStart blockEnd, Described digits sha256 other events blockStart blockEnd →
      ∀ lead ∈ leads, dayLength ≤ clockOf blockEnd - lead * minute)
    ∧ TextsAgree other fun t => ∃ remindAt,
      Reminded digits sha256 other events leads remindAt ∧ t = remindAt.isoformat

end Plan

/-! ## Texts that are sorted -/

variable {digits : OtherDigits} {sha256 : Digest} {other : Text → Option DateTime}
  {readInt : Text → Option Int} {events : List CalendarEvent} {leadMinutes : LeadMinutes}

theorem notLater_refl (t : Text) : NotLater other t t := by
  intro a b ha hb
  rw [ha, Option.some.injEq] at hb
  rw [hb]

theorem notLater_isoformat {a b : DateTime} :
    NotLater other a.isoformat b.isoformat ↔ instantOf a ≤ instantOf b := by
  have hread := DateTime.read_isoformat other
  refine ⟨fun h => h a b (hread a) (hread b), fun h c d hc hd => ?_⟩
  rw [hread, Option.some.injEq] at hc hd
  rwa [← hc, ← hd]

/-- A sort by texts puts instants in order if and only if the texts agree with them. -/
theorem pairwise_sortBy_text {α : Type} {key : α → Text} {l : List α} :
    (sortBy lexLe key l).Pairwise (fun a b => NotLater other (key a) (key b)) ↔
      TextsAgree other fun t => ∃ a ∈ l, t = key a := by
  have htie : ∀ a ∈ l, ∀ b ∈ l, lexLe (key a) (key b) = true → lexLe (key b) (key a) = true →
      NotLater other (key a) (key b) := by
    intro a _ b _ hle hge
    rw [KeyOrder.lexLe_antisymm hle hge]
    exact notLater_refl _
  have htrans : ∀ t u v : Text, lexLe t u = true → lexLe u v = true → lexLe t v = true :=
    fun _ _ _ => KeyOrder.lexLe_trans
  rw [KeyOrder.pairwise_sortBy_iff htrans KeyOrder.lexLe_total htie]
  constructor
  · rintro h _ _ ⟨a, ha, rfl⟩ ⟨b, hb, rfl⟩ hle
    exact h a ha b hb hle
  · exact fun h a ha b hb => h _ _ ⟨a, ha, rfl⟩ ⟨b, hb, rfl⟩

theorem textsAgree_congr {among among' : Text → Prop} (h : ∀ t, among t ↔ among' t) :
    TextsAgree other among ↔ TextsAgree other among' := by
  simp only [TextsAgree, h]

theorem pairwise_buildFixedSchedule_iff :
    (buildFixedSchedule events).Pairwise (fun a b => NotLater other a.start b.start) ↔
      TextsAgree other fun t => ∃ event ∈ events, event.allDay = false ∧ t = event.start := by
  refine pairwise_sortBy_text.trans (textsAgree_congr fun t => ?_)
  simp only [List.mem_map, List.mem_filter, Bool.not_eq_true']
  constructor
  · rintro ⟨_, ⟨event, ⟨hevent, hday⟩, rfl⟩, rfl⟩
    exact ⟨event, hevent, hday, rfl⟩
  · rintro ⟨event, hevent, hday, rfl⟩
    exact ⟨fixedBlock event, ⟨event, ⟨hevent, hday⟩, rfl⟩, rfl⟩

/-! ## The blocks -/

/-- A block with its times. -/
structure Timed (block : PlanningExecutionBlock) (blockStart blockEnd : DateTime) : Prop where
  start : block.start = blockStart.isoformat
  stop : block.stop = blockEnd.isoformat
  offset : blockEnd.offset = blockStart.offset
  lt : clockOf blockStart < clockOf blockEnd
  blockId : Encodable block.blockId

theorem isoformat_injective {a b : DateTime} (h : a.isoformat = b.isoformat) : a = b := by
  have hread := DateTime.read_isoformat (fun _ => none)
  exact Option.some.inj ((hread a).symm.trans ((congrArg _ h).trans (hread b)))

theorem timed_of_readFrom {event : CalendarEvent} {eventStart eventEnd : DateTime} {line : Text}
    {block : PlanningExecutionBlock} (h : ReadFrom digits event eventStart eventEnd line block) :
    ∃ blockStart blockEnd, Timed block blockStart blockEnd := by
  obtain ⟨blockStart, blockEnd, hstart, hstop, hoffset, hoffset', hlt⟩ := h.times
  exact ⟨blockStart, blockEnd, hstart, hstop, hoffset'.trans hoffset.symm, hlt, h.blockId⟩

/-- The times of the blocks are the described ones. -/
theorem described_iff {blocks : List PlanningExecutionBlock}
    (h : buildExecutionBlocks digits sha256 other events = .ok blocks) {blockStart blockEnd : DateTime} :
    Described digits sha256 other events blockStart blockEnd ↔
      ∃ block ∈ blocks, Timed block blockStart blockEnd := by
  constructor
  · rintro ⟨event, hevent, eventStart, eventEnd, hwindow, line, hline, block, hblock, hstart, hstop⟩
    refine ⟨block, (mem_buildExecutionBlocks h).mpr
      ⟨event, hevent, eventStart, eventEnd, hwindow, line, hline, hblock⟩, ?_⟩
    obtain ⟨blockStart', blockEnd', htimed⟩ := timed_of_readFrom (readFrom_of_lineBlock hblock)
    rw [isoformat_injective (hstart.symm.trans htimed.start),
      isoformat_injective (hstop.symm.trans htimed.stop)]
    exact htimed
  · rintro ⟨block, hmem, htimed⟩
    obtain ⟨event, hevent, eventStart, eventEnd, hwindow, line, hline, hblock⟩ :=
      (mem_buildExecutionBlocks h).mp hmem
    exact ⟨event, hevent, eventStart, eventEnd, hwindow, line, hline, block, hblock,
      htimed.start, htimed.stop⟩

theorem exists_timed {blocks : List PlanningExecutionBlock}
    (h : buildExecutionBlocks digits sha256 other events = .ok blocks) :
    ∀ block ∈ blocks, ∃ blockStart blockEnd, Timed block blockStart blockEnd := by
  intro block hblock
  obtain ⟨event, -, eventStart, eventEnd, -, line, -, hread⟩ := (mem_buildExecutionBlocks h).mp hblock
  exact timed_of_readFrom (readFrom_of_lineBlock hread)

theorem pairwise_buildExecutionBlocks_iff {blocks : List PlanningExecutionBlock}
    (h : buildExecutionBlocks digits sha256 other events = .ok blocks) :
    blocks.Pairwise (fun a b => NotLater other a.start b.start) ↔
      TextsAgree other fun t => ∃ blockStart blockEnd,
        Described digits sha256 other events blockStart blockEnd ∧ t = blockStart.isoformat := by
  have htexts : ∀ t, (∃ block ∈ blocks, t = block.start) ↔ ∃ blockStart blockEnd,
      Described digits sha256 other events blockStart blockEnd ∧ t = blockStart.isoformat := by
    intro t
    simp only [described_iff h]
    constructor
    · rintro ⟨block, hblock, rfl⟩
      obtain ⟨blockStart, blockEnd, htimed⟩ := exists_timed h block hblock
      exact ⟨blockStart, blockEnd, ⟨block, hblock, htimed⟩, htimed.start⟩
    · rintro ⟨blockStart, blockEnd, ⟨block, hblock, htimed⟩, rfl⟩
      exact ⟨block, hblock, htimed.start.symm⟩
  refine Iff.trans ?_ (textsAgree_congr htexts)
  obtain ⟨lists, -, hblocks⟩ := bind_eq_ok_iff.mp h
  cases hblocks
  refine pairwise_sortBy_text.trans (textsAgree_congr fun t => ?_)
  simp only [sortBlocks, mem_sortBy]

/-! ## The checkpoints of a block -/

/-- What a checkpoint says of its block, of the time, and of the block that comes next. -/
structure Tells (other : Text → Option DateTime) (block : PlanningExecutionBlock)
    (nextBlock : Option PlanningExecutionBlock) (remindAt : DateTime) (lead : Int)
    (checkpoint : PlanningCheckpoint) : Prop where
  time : checkpoint.remindAt = remindAt.isoformat
  blockId : checkpoint.blockId = block.blockId
  blockStart : checkpoint.blockStart = block.start
  blockEnd : checkpoint.blockEnd = block.stop
  prompt : checkpoint.prompt = lastPrompt block remindAt lead
    ∨ ∃ next nextStart, nextBlock = some next ∧ DateTime.fromisoformat other next.start = some nextStart
      ∧ checkpoint.prompt = followUpPrompt block next nextStart remindAt lead

section Checkpoint

variable {block : PlanningExecutionBlock} {nextBlock : Option PlanningExecutionBlock}
  {blockStart blockEnd remindAt : DateTime} {lead : Int}

theorem encodable_strInt (n : Int) : Encodable (strInt n) := fun c hc =>
  JsonText.isSurrogate_of_lt (JsonText.lt_of_isWordChar
    (List.all_eq_true.mp (JsonText.isWord_of_isNumber (JsonText.Number.ofInt n).2).2 c hc))

theorem parseTime_isoformat (t : DateTime) : parseTime other t.isoformat = .ok t := by
  rw [parseTime, DateTime.read_isoformat]

theorem exists_prompt
    (hnext : ∀ next, nextBlock = some next → ∃ start stop, Timed next start stop) :
    ∃ prompt, buildCheckpointPrompt other block nextBlock remindAt lead = .ok prompt
      ∧ (prompt = lastPrompt block remindAt lead
        ∨ ∃ next nextStart, nextBlock = some next
          ∧ DateTime.fromisoformat other next.start = some nextStart
          ∧ prompt = followUpPrompt block next nextStart remindAt lead) := by
  cases nextBlock with
  | none => exact ⟨_, rfl, .inl rfl⟩
  | some next =>
    obtain ⟨start, stop, htimed⟩ := hnext next rfl
    unfold buildCheckpointPrompt
    by_cases huid : next.sourceEventUid = block.sourceEventUid
    · have hparse : DateTime.fromisoformat other next.start = some start := by
        rw [htimed.start, DateTime.read_isoformat]
      simp only [if_pos huid, htimed.start, parseTime_isoformat, bind_ok]
      exact ⟨_, rfl, .inr ⟨next, start, rfl, hparse, rfl⟩⟩
    · simp only [if_neg huid]
      exact ⟨_, rfl, .inl rfl⟩

/-- The three ways in which a checkpoint goes: the calendar starts too late for it, it comes too
early, or it is made. -/
theorem checkpointOf_cases (htimed : Timed block blockStart blockEnd)
    (hnext : ∀ next, nextBlock = some next → ∃ start stop, Timed next start stop) :
    (shift blockEnd (-(lead * minute)) = none
        ∧ ∀ r, checkpointOf sha256 other block nextBlock blockStart blockEnd lead ≠ .ok r)
      ∨ ∃ remindAt, shift blockEnd (-(lead * minute)) = some remindAt
        ∧ ((¬clockOf blockStart < clockOf remindAt
            ∧ checkpointOf sha256 other block nextBlock blockStart blockEnd lead = .ok none)
          ∨ (clockOf blockStart < clockOf remindAt ∧ ∃ checkpoint,
            checkpointOf sha256 other block nextBlock blockStart blockEnd lead = .ok (some checkpoint)
              ∧ Tells other block nextBlock remindAt lead checkpoint)) := by
  unfold checkpointOf
  cases hshift : shift blockEnd (-(lead * minute)) with
  | none =>
    have hraise : shiftTime blockEnd (-(lead * minute)) = .error .overflowError := by
      rw [shiftTime, hshift]
    refine .inl ⟨rfl, fun r h => ?_⟩
    rw [hraise] at h
    cases h
  | some remindAt =>
    have hoffset : remindAt.offset = blockStart.offset := (offset_shift hshift).trans htimed.offset
    refine .inr ⟨remindAt, rfl, ?_⟩
    rw [shiftTime_eq_ok.mpr hshift, bind_ok, timeLe_of_offset hoffset, bind_ok]
    by_cases hlt : clockOf blockStart < clockOf remindAt
    · obtain ⟨prompt, hprompt, htells⟩ := @exists_prompt other block _ remindAt lead hnext
      obtain ⟨uid, huid⟩ : ∃ uid, buildFallbackItemUid sha256 (lit "planning-checkpoint")
          [block.blockId, remindAt.isoformat, strInt lead] = .ok uid := by
        refine exists_buildFallbackItemUid_iff.mpr ?_
        simp only [List.forall_mem_cons]
        exact ⟨JsonText.encodable_of_ascii rfl, htimed.blockId, DateTime.encodable_isoformat _,
          encodable_strInt lead, fun _ h => nomatch h⟩
      rw [decide_eq_false (not_le.mpr hlt), if_neg Bool.false_ne_true, hprompt, bind_ok, huid, bind_ok]
      exact .inr ⟨hlt, _, rfl, rfl, rfl, rfl, rfl, htells⟩
    · rw [decide_eq_true (not_lt.mp hlt), if_pos rfl]
      exact .inl ⟨hlt, rfl⟩

end Checkpoint

/-! ## The loop over the blocks -/

section Loop

variable {leads : List Int} {blocks : List PlanningExecutionBlock}

/-- **The checkpoints are made when each lead leads back to a day of the calendar.** -/
theorem exists_checkpointsOf_iff (hleads : ∀ lead ∈ leads, 0 < lead)
    (hblocks : ∀ block ∈ blocks, ∃ blockStart blockEnd, Timed block blockStart blockEnd) :
    (∃ checkpoints, checkpointsOf sha256 other leads blocks = .ok checkpoints) ↔
      ∀ block ∈ blocks, ∀ blockStart blockEnd, Timed block blockStart blockEnd →
        ∀ lead ∈ leads, dayLength ≤ clockOf blockEnd - lead * minute := by
  induction blocks with
  | nil => exact iff_of_true ⟨[], rfl⟩ fun _ h => nomatch h
  | cons block blocks ih =>
    obtain ⟨⟨blockStart, blockEnd, htimed⟩, hrest⟩ := List.forall_mem_cons.mp hblocks
    have hnext : ∀ next, blocks.head? = some next → ∃ start stop, Timed next start stop :=
      fun next hnext => hrest next (List.mem_of_head? hnext)
    have hcheckpoint : ∀ lead ∈ leads, (∃ r, checkpointOf sha256 other block blocks.head? blockStart
        blockEnd lead = .ok r) ↔ dayLength ≤ clockOf blockEnd - lead * minute := by
      intro lead hlead
      have hpos := hleads lead hlead
      have hmem := clockOf_mem blockEnd
      have hshift := exists_shift_iff (t := blockEnd) (n := -(lead * minute))
      rcases @checkpointOf_cases sha256 other block _ blockStart blockEnd lead htimed hnext with
        ⟨hnone, hraise⟩ | ⟨remindAt, hsome, h⟩
      · refine iff_of_false (fun ⟨r, hr⟩ => hraise r hr) fun hle => ?_
        have hlt : clockOf blockEnd + -(lead * minute) < (maxOrdinal + 1) * dayLength := by
          rw [show minute = 60000000 from rfl]
          omega
        obtain ⟨_, h⟩ := hshift.mpr ⟨hle, hlt⟩
        rw [hnone] at h
        cases h
      · refine iff_of_true ?_ (hshift.mp ⟨remindAt, hsome⟩).1
        rcases h with ⟨-, h⟩ | ⟨-, checkpoint, h, -⟩
        · exact ⟨_, h⟩
        · exact ⟨_, h⟩
    rw [checkpointsOf, htimed.start, htimed.stop, parseTime_isoformat, parseTime_isoformat, bind_ok,
      bind_ok, exists_bind_iff, List.forall_mem_cons, ← ih hrest]
    constructor
    · rintro ⟨here, hhere, h⟩
      obtain ⟨rest, hrest, -⟩ := exists_bind_iff.mp h
      refine ⟨fun start stop htimed' lead hlead => ?_, rest, hrest⟩
      rw [← isoformat_injective (htimed.stop.symm.trans htimed'.stop)]
      exact (hcheckpoint lead hlead).mp (exists_mapM_iff.mp ⟨here, hhere⟩ lead hlead)
    · rintro ⟨hfits, rest, hrest⟩
      obtain ⟨here, hhere⟩ := exists_mapM_iff.mpr fun lead hlead =>
        (hcheckpoint lead hlead).mpr (hfits blockStart blockEnd htimed lead hlead)
      exact ⟨here, hhere, exists_bind_iff.mpr ⟨rest, hrest, _, rfl⟩⟩

/-- **A checkpoint is of a block, a lead and the block that comes next**, and each block and lead that
leads to a time after its start has one. -/
theorem mem_checkpointsOf
    (hblocks : ∀ block ∈ blocks, ∃ blockStart blockEnd, Timed block blockStart blockEnd)
    {checkpoints : List PlanningCheckpoint}
    (h : checkpointsOf sha256 other leads blocks = .ok checkpoints) :
    (∀ checkpoint ∈ checkpoints, ∃ front block back blockStart blockEnd,
        blocks = front ++ block :: back ∧ Timed block blockStart blockEnd ∧ ∃ lead ∈ leads, ∃ remindAt,
          shift blockEnd (-(lead * minute)) = some remindAt ∧ clockOf blockStart < clockOf remindAt
            ∧ Tells other block back.head? remindAt lead checkpoint)
      ∧ ∀ block ∈ blocks, ∀ blockStart blockEnd, Timed block blockStart blockEnd → ∀ lead ∈ leads,
        ∀ remindAt, shift blockEnd (-(lead * minute)) = some remindAt →
          clockOf blockStart < clockOf remindAt →
            ∃ checkpoint ∈ checkpoints, checkpoint.remindAt = remindAt.isoformat := by
  induction blocks generalizing checkpoints with
  | nil =>
    cases h
    exact ⟨fun _ h => (nomatch h), fun _ h => (nomatch h)⟩
  | cons block blocks ih =>
    obtain ⟨⟨blockStart, blockEnd, htimed⟩, hrest⟩ := List.forall_mem_cons.mp hblocks
    have hnext : ∀ next, blocks.head? = some next → ∃ start stop, Timed next start stop :=
      fun next hnext => hrest next (List.mem_of_head? hnext)
    rw [checkpointsOf, htimed.start, htimed.stop, parseTime_isoformat, parseTime_isoformat, bind_ok,
      bind_ok] at h
    obtain ⟨here, hhere, h⟩ := bind_eq_ok_iff.mp h
    obtain ⟨rest, hrest', h⟩ := bind_eq_ok_iff.mp h
    cases h
    obtain ⟨hmade, hall⟩ := ih hrest hrest'
    constructor
    · intro checkpoint hcheckpoint
      rcases List.mem_append.mp hcheckpoint with hcheckpoint | hcheckpoint
      · obtain ⟨r, hr, hid⟩ := List.mem_filterMap.mp hcheckpoint
        obtain ⟨lead, hlead, hof⟩ := (mem_mapM hhere).mp hr
        rw [show r = some checkpoint from hid] at hof
        refine ⟨[], block, blocks, blockStart, blockEnd, rfl, htimed, lead, hlead, ?_⟩
        rcases @checkpointOf_cases sha256 other block _ blockStart blockEnd lead htimed hnext with
          ⟨-, hraise⟩ | ⟨remindAt, hsome, ⟨-, hnone⟩ | ⟨hlt, checkpoint', hsome', htells⟩⟩
        · exact absurd hof (hraise _)
        · rw [hnone] at hof
          cases hof
        · rw [hsome', Except.ok.injEq, Option.some.injEq] at hof
          subst hof
          exact ⟨remindAt, hsome, hlt, htells⟩
      · obtain ⟨front, block', back, start, stop, rfl, hof⟩ := hmade checkpoint hcheckpoint
        exact ⟨block :: front, block', back, start, stop, rfl, hof⟩
    · intro block' hblock' start stop htimed' lead hlead remindAt hshift hlt
      rcases List.mem_cons.mp hblock' with rfl | hblock'
      · obtain rfl := isoformat_injective (htimed.start.symm.trans htimed'.start)
        obtain rfl := isoformat_injective (htimed.stop.symm.trans htimed'.stop)
        rcases @checkpointOf_cases sha256 other block' _ blockStart blockEnd lead htimed hnext with
          ⟨hnone, -⟩ | ⟨remindAt', hsome, ⟨hnot, -⟩ | ⟨-, checkpoint, hmade, htells⟩⟩
        · rw [hnone] at hshift
          cases hshift
        · rw [hsome, Option.some.injEq] at hshift
          subst hshift
          exact absurd hlt hnot
        · rw [hsome, Option.some.injEq] at hshift
          subst hshift
          refine ⟨checkpoint, List.mem_append_left _ (List.mem_filterMap.mpr ⟨some checkpoint,
            (mem_mapM hhere).mpr ⟨lead, hlead, hmade⟩, rfl⟩), htells.time⟩
      · obtain ⟨checkpoint, hmem, htime⟩ := hall block' hblock' start stop htimed' lead hlead
          remindAt hshift hlt
        exact ⟨checkpoint, List.mem_append_right _ hmem, htime⟩

end Loop

/-! ## The leads -/

theorem mem_foldl_addLead {values normalized : List Int} (h : ∀ lead ∈ normalized, 0 < lead) :
    ∀ lead ∈ values.foldl addLead normalized, 0 < lead := by
  induction values generalizing normalized with
  | nil => exact h
  | cons value values ih =>
    refine ih fun lead hlead => ?_
    unfold addLead at hlead
    split at hlead
    · exact h lead hlead
    · next hpos =>
      split at hlead
      · exact h lead hlead
      · rcases List.mem_append.mp hlead with hlead | hlead
        · exact h lead hlead
        · rw [List.mem_singleton.mp hlead]
          exact not_le.mp hpos

/-- The leads are positive. -/
theorem pos_of_normalize {leads : List Int}
    (h : normalizeCheckpointLeadMinutes readInt leadMinutes = .ok leads) : ∀ lead ∈ leads, 0 < lead := by
  obtain ⟨values, -, h⟩ := bind_eq_ok_iff.mp h
  cases h
  intro lead hlead
  exact @mem_foldl_addLead values [] (fun _ h => nomatch h) lead ((List.mem_insertionSort _).mp hlead)

/-! ## The plan -/

theorem instantOf_lt_iff {a b : DateTime} (h : a.offset = b.offset) :
    instantOf a < instantOf b ↔ clockOf a < clockOf b := by
  unfold instantOf
  rw [h]
  exact Int.sub_lt_sub_right_iff

/-- The sorted blocks are the blocks. -/
theorem mem_sortBlocks {blocks : List PlanningExecutionBlock} {block : PlanningExecutionBlock} :
    block ∈ sortBlocks blocks ↔ block ∈ blocks := mem_sortBy

section Order

variable {blocks : List PlanningExecutionBlock} {leads : List Int}
  {checkpoints : List PlanningCheckpoint}

theorem exists_buildCheckpoints_iff
    (hblocks : ∀ block ∈ blocks, ∃ blockStart blockEnd, Timed block blockStart blockEnd) :
    (∃ checkpoints, buildCheckpoints readInt sha256 other blocks leadMinutes = .ok checkpoints) ↔
      ∃ leads, normalizeCheckpointLeadMinutes readInt leadMinutes = .ok leads
        ∧ ∀ block ∈ blocks, ∀ blockStart blockEnd, Timed block blockStart blockEnd →
          ∀ lead ∈ leads, dayLength ≤ clockOf blockEnd - lead * minute := by
  rw [buildCheckpoints, exists_bind_iff]
  refine exists_congr fun leads => and_congr_right fun hleads => ?_
  split
  · next hnil =>
    rw [hnil]
    exact iff_of_true ⟨[], rfl⟩ fun _ _ _ _ _ _ h => nomatch h
  · rw [exists_bind_iff]
    simp only [← @mem_sortBlocks blocks] at hblocks ⊢
    rw [← @exists_checkpointsOf_iff sha256 other _ _ (pos_of_normalize hleads) hblocks]
    exact ⟨fun ⟨cs, hcs, _⟩ => ⟨cs, hcs⟩, fun ⟨cs, hcs⟩ => ⟨cs, hcs, _, rfl⟩⟩

/-- The checkpoints come from the loop, sorted. -/
theorem exists_of_buildCheckpoints (hleads : normalizeCheckpointLeadMinutes readInt leadMinutes = .ok leads)
    (h : buildCheckpoints readInt sha256 other blocks leadMinutes = .ok checkpoints) :
    ∃ unsorted, checkpoints = sortBy lexLe PlanningCheckpoint.remindAt unsorted
      ∧ (leads = [] ∧ unsorted = []
        ∨ checkpointsOf sha256 other leads (sortBlocks blocks) = .ok unsorted) := by
  rw [buildCheckpoints, hleads, bind_ok] at h
  split at h
  · next hnil =>
    cases h
    exact ⟨[], rfl, .inl ⟨hnil, rfl⟩⟩
  · obtain ⟨unsorted, hunsorted, h⟩ := bind_eq_ok_iff.mp h
    cases h
    exact ⟨unsorted, rfl, .inr hunsorted⟩

theorem pairwise_buildCheckpoints_iff
    (hblocks : buildExecutionBlocks digits sha256 other events = .ok blocks)
    (hleads : normalizeCheckpointLeadMinutes readInt leadMinutes = .ok leads)
    (h : buildCheckpoints readInt sha256 other blocks leadMinutes = .ok checkpoints) :
    checkpoints.Pairwise (fun a b => NotLater other a.remindAt b.remindAt) ↔
      TextsAgree other fun t => ∃ remindAt,
        Reminded digits sha256 other events leads remindAt ∧ t = remindAt.isoformat := by
  obtain ⟨unsorted, rfl, hunsorted⟩ := exists_of_buildCheckpoints hleads h
  have htimed := exists_timed hblocks
  simp only [← @mem_sortBlocks blocks] at htimed
  refine pairwise_sortBy_text.trans (textsAgree_congr fun t => ?_)
  rcases hunsorted with ⟨rfl, rfl⟩ | hunsorted
  · refine iff_of_false (fun ⟨_, h, _⟩ => nomatch h) ?_
    rintro ⟨_, ⟨_, _, _, _, h, _⟩, _⟩
    cases h
  · obtain ⟨hmade, hall⟩ := mem_checkpointsOf htimed hunsorted
    constructor
    · rintro ⟨checkpoint, hcheckpoint, rfl⟩
      obtain ⟨front, block, back, blockStart, blockEnd, hsplit, htimed, lead, hlead, remindAt, hshift,
        hlt, htells⟩ := hmade checkpoint hcheckpoint
      have hblock : block ∈ blocks := mem_sortBlocks.mp (hsplit ▸ by simp)
      exact ⟨remindAt, ⟨blockStart, blockEnd, (described_iff hblocks).mpr ⟨block, hblock, htimed⟩,
        lead, hlead, hshift, hlt⟩, htells.time⟩
    · rintro ⟨remindAt, ⟨blockStart, blockEnd, hdescribed, lead, hlead, hshift, hlt⟩, rfl⟩
      obtain ⟨block, hblock, htimed⟩ := (described_iff hblocks).mp hdescribed
      obtain ⟨checkpoint, hmem, htime⟩ := hall block (mem_sortBlocks.mpr hblock) blockStart blockEnd
        htimed lead hlead remindAt hshift hlt
      exact ⟨checkpoint, hmem, htime.symm⟩

/-- A checkpoint comes some minutes before the end of its block, and after its start. -/
theorem strictlyInside_of_mem
    (hblocks : buildExecutionBlocks digits sha256 other events = .ok blocks)
    (hleads : normalizeCheckpointLeadMinutes readInt leadMinutes = .ok leads)
    (h : buildCheckpoints readInt sha256 other blocks leadMinutes = .ok checkpoints) :
    ∀ checkpoint ∈ checkpoints, StrictlyInside blocks checkpoint := by
  intro checkpoint hcheckpoint
  obtain ⟨unsorted, rfl, hunsorted⟩ := exists_of_buildCheckpoints hleads h
  have htimed := exists_timed hblocks
  simp only [← @mem_sortBlocks blocks] at htimed
  rcases hunsorted with ⟨-, rfl⟩ | hunsorted
  · cases hcheckpoint
  · obtain ⟨front, block, back, blockStart, blockEnd, hsplit, htimed, lead, hlead, remindAt, hshift,
      hlt, htells⟩ := (mem_checkpointsOf htimed hunsorted).1 checkpoint (mem_sortBy.mp hcheckpoint)
    have hblock : block ∈ blocks := mem_sortBlocks.mp (hsplit ▸ by simp)
    have hclock : clockOf remindAt = clockOf blockEnd + -(lead * minute) :=
      congrArg Moment.clock (momentOf_shift hshift)
    have hpos : 0 < lead * minute := Int.mul_pos (pos_of_normalize hleads lead hlead) (by decide)
    refine ⟨block, hblock, htells.blockId, htells.blockStart, htells.blockEnd, blockStart, blockEnd,
      remindAt, htimed.start, htimed.stop, htells.time, ?_, ?_⟩
    · exact (instantOf_lt_iff (htimed.offset.symm.trans (offset_shift hshift).symm)).mpr hlt
    · exact (instantOf_lt_iff (offset_shift hshift)).mpr (by omega)

/-- In blocks that are sorted by instants, what follows a block is the next one. -/
theorem namesNext_of_mem
    (hblocks : buildExecutionBlocks digits sha256 other events = .ok blocks)
    (hleads : normalizeCheckpointLeadMinutes readInt leadMinutes = .ok leads)
    (h : buildCheckpoints readInt sha256 other blocks leadMinutes = .ok checkpoints)
    (hpairs : (sortBlocks blocks).Pairwise fun a b => NotLater other a.start b.start) :
    ∀ checkpoint ∈ checkpoints, NamesNext other blocks checkpoint := by
  intro checkpoint hcheckpoint
  obtain ⟨unsorted, rfl, hunsorted⟩ := exists_of_buildCheckpoints hleads h
  have htimed := exists_timed hblocks
  simp only [← @mem_sortBlocks blocks] at htimed
  rcases hunsorted with ⟨-, rfl⟩ | hunsorted
  · cases hcheckpoint
  · obtain ⟨front, block, back, blockStart, blockEnd, hsplit, -, lead, -, remindAt, -, -, htells⟩ :=
      (mem_checkpointsOf htimed hunsorted).1 checkpoint (mem_sortBy.mp hcheckpoint)
    have hmem : ∀ b, b ∈ blocks ↔ b ∈ front ∨ b = block ∨ b ∈ back := fun b => by
      rw [← mem_sortBlocks, hsplit, List.mem_append, List.mem_cons]
    rw [hsplit] at hpairs
    obtain ⟨-, hback, hfront⟩ := List.pairwise_append.mp hpairs
    refine ⟨block, (hmem block).mpr (.inr (.inl rfl)), htells.blockId, remindAt, lead, htells.time, ?_⟩
    refine htells.prompt.imp_right ?_
    rintro ⟨next, nextStart, hnext, hparse, hprompt⟩
    obtain ⟨rest, rfl⟩ : ∃ rest, back = next :: rest := by
      cases back with
      | nil => cases hnext
      | cons b rest =>
        cases hnext
        exact ⟨rest, rfl⟩
    obtain ⟨hafter, hrest⟩ := List.pairwise_cons.mp hback
    refine ⟨next, nextStart, hparse, hprompt, (hmem next).mpr (.inr (.inr List.mem_cons_self)),
      hafter next List.mem_cons_self, fun between hbetween => ?_⟩
    rcases (hmem between).mp hbetween with hbefore | rfl | hlater
    · exact .inl (hfront between hbefore block List.mem_cons_self)
    · exact .inl (notLater_refl _)
    · rcases List.mem_cons.mp hlater with rfl | hlater
      · exact .inr (notLater_refl _)
      · exact .inr ((List.pairwise_cons.mp hrest).1 between hlater)

end Order

/--
**The plan is in time order if and only if its texts are.** The three lists are returned in the order
of instants, with each checkpoint strictly inside of its block and naming the next block, if and only
if nothing raises and the texts that are sorted are in the order of the instants.
-/
theorem planInOrder_iff :
    PlanInOrder digits sha256 other readInt events leadMinutes ↔
      PlanTimesAgree digits sha256 other readInt events leadMinutes := by
  constructor
  · rintro ⟨hfixed, blocks, hblocks, hpairs, checkpoints, hcheckpoints, hpairs', -, -⟩
    obtain ⟨leads, hleads, hfits⟩ :=
      (exists_buildCheckpoints_iff (exists_timed hblocks)).mp ⟨checkpoints, hcheckpoints⟩
    refine ⟨pairwise_buildFixedSchedule_iff.mp hfixed, exists_buildExecutionBlocks_iff.mp ⟨blocks, hblocks⟩,
      (pairwise_buildExecutionBlocks_iff hblocks).mp hpairs, leads, hleads, ?_,
      (pairwise_buildCheckpoints_iff hblocks hleads hcheckpoints).mp hpairs'⟩
    intro blockStart blockEnd hdescribed
    obtain ⟨block, hblock, htimed⟩ := (described_iff hblocks).mp hdescribed
    exact hfits block hblock blockStart blockEnd htimed
  · rintro ⟨hfixed, hharmless, hagree, leads, hleads, hfits, hagree'⟩
    obtain ⟨blocks, hblocks⟩ := (@exists_buildExecutionBlocks_iff digits sha256 other events).mpr hharmless
    obtain ⟨checkpoints, hcheckpoints⟩ := (@exists_buildCheckpoints_iff sha256 other readInt
      leadMinutes blocks (exists_timed hblocks)).mpr ⟨leads, hleads, fun block hblock start stop htimed =>
        hfits start stop ((described_iff hblocks).mpr ⟨block, hblock, htimed⟩)⟩
    have hpairs := (pairwise_buildExecutionBlocks_iff hblocks).mpr hagree
    have hsorted : (sortBlocks blocks).Pairwise fun a b => NotLater other a.start b.start := by
      refine pairwise_sortBy_text.mpr fun t u ht hu => hagree t u ?_ ?_
      · obtain ⟨block, hblock, rfl⟩ := ht
        obtain ⟨start, stop, htimed⟩ := exists_timed hblocks block hblock
        exact ⟨start, stop, (described_iff hblocks).mpr ⟨block, hblock, htimed⟩, htimed.start⟩
      · obtain ⟨block, hblock, rfl⟩ := hu
        obtain ⟨start, stop, htimed⟩ := exists_timed hblocks block hblock
        exact ⟨start, stop, (described_iff hblocks).mpr ⟨block, hblock, htimed⟩, htimed.start⟩
    exact ⟨pairwise_buildFixedSchedule_iff.mpr hfixed, blocks, hblocks, hpairs, checkpoints, hcheckpoints,
      (pairwise_buildCheckpoints_iff hblocks hleads hcheckpoints).mpr hagree',
      strictlyInside_of_mem hblocks hleads hcheckpoints,
      namesNext_of_mem hblocks hleads hcheckpoints hsorted⟩

/-- A time between two and three on the night on which summer time ends, some hours east. -/
def autumnTime (minutes : Fin 60) (hours : Fin 24) : DateTime where
  date := (IsoTime.Date.mk? 2026 10 25).get (by decide)
  hour := 2
  minute := minutes
  second := 0
  microsecond := 0
  offset := some (IsoTime.hoursEast hours)

/-- An event of that night. -/
def autumnEvent (uid start stop : String) : CalendarEvent where
  itemUid := lit uid
  title := lit "야간 점검"
  start := lit start
  stop := lit stop
  allDay := false
  calendarName := lit "내 캘린더"
  source := lit "naver-caldav"
  description := []
  lastModified := none

/-- One event before the clock is set back, and one after it. -/
def autumnEvents : List CalendarEvent :=
  [autumnEvent "before" "2026-10-25T02:30:00+02:00" "2026-10-25T02:50:00+02:00",
    autumnEvent "after" "2026-10-25T02:15:00+01:00" "2026-10-25T02:50:00+01:00"]

theorem not_planInOrder_autumn :
    autumnEvents.map (fun event => (event.start, event.stop)) =
      [((autumnTime 30 2).isoformat, (autumnTime 50 2).isoformat),
        ((autumnTime 15 1).isoformat, (autumnTime 50 1).isoformat)] ∧
    ¬PlanInOrder (fun _ => none) noDigest (fun _ => none) (fun _ => none) autumnEvents (.int 5) := by
  have htexts : autumnEvents.map (fun event => (event.start, event.stop)) =
      [((autumnTime 30 2).isoformat, (autumnTime 50 2).isoformat),
        ((autumnTime 15 1).isoformat, (autumnTime 50 1).isoformat)] := by
    decide
  refine ⟨htexts, fun ⟨hfixed, _⟩ => ?_⟩
  have hle : lexLe (autumnTime 15 1).isoformat (autumnTime 30 2).isoformat = true := by decide
  have hlater := pairwise_buildFixedSchedule_iff.mp hfixed (autumnTime 15 1).isoformat
    (autumnTime 30 2).isoformat ⟨_, List.mem_cons_of_mem _ List.mem_cons_self, rfl, by decide⟩
    ⟨_, List.mem_cons_self, rfl, by decide⟩ hle
  exact absurd (notLater_isoformat.mp hlater) (by decide)

end ForgeKit.DayPlan
