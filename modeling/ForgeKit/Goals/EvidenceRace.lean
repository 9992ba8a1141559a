import ForgeKit.Goals.GoalLoop
import ForgeKit.Lib.SharedCopies

/-!
# The goal files under the serve process and the console

Both processes load goals, change what they loaded, and save whole files; nothing locks a file or
compares it with what was loaded. A run is any order of the bodies of the ticks' loops and of the
console's commands, so it includes the ticks themselves with the console at any point between two
of their steps.

* `FileAction.saved` — the goal that an action saves, from what its process has loaded
* `saved_extends` — a saved goal is one that was loaded, with more evidence, or a new one
* `evidence_kept_iff` — when a run keeps all evidence
* `execPackets_eq_run` — the packets of one goal in an execution tick, as a run
-/

namespace ForgeKit.Goals

open GoalStore

/-- The processes that use the goal files. -/
inductive GoalProcess where
  | serve
  | console
deriving DecidableEq, Repr

/-- One change that a console command makes to a goal. -/
inductive GoalEdit where
  | evidence (kind : EvidenceKind) (summary : String) (ref : Option String)
  | status (dst : GoalStatus)
deriving DecidableEq, Repr

/-- The goal files, the governance logs, and what the two processes hold. -/
structure GoalFiles where
  store : GoalStore
  logs : GovernanceLogs
  /-- The goals a process has loaded, with the changes it saved. -/
  loaded : GoalProcess → GoalStore
  /-- The children of a split that the scheduler has still to save. -/
  unsaved : List Goal
  /-- What the other process saved to a goal since this one loaded it. -/
  missed : GoalProcess → String → List EvidenceRecord

/-- Goal files that no process has loaded. -/
def GoalFiles.start (store : GoalStore) (logs : GovernanceLogs) : GoalFiles :=
  { store, logs, loaded := fun _ => .empty, unsaved := [], missed := fun _ _ => [] }

/-- The evidence in the file of a goal. -/
def GoalFiles.evidence (s : GoalFiles) (goalId : String) : List EvidenceRecord :=
  ((get s.store goalId).map Goal.evidence).getD []

inductive FileAction where
  /-- `load_all` at the start of a tick. -/
  | loadAll (p : GoalProcess)
  /-- `get` of one goal. -/
  | loadGoal (p : GoalProcess) (goalId : String)
  /-- The scheduler at one goal, up to its first save. -/
  | schedule (t : SchedulerTick) (k : Nat) (goalId : String)
  /-- The scheduler saves the next child of the goal it split. -/
  | saveChild
  /-- The executor at a goal whose design is not ready. -/
  | refuse (t : ExecTick) (goalId : String)
  /-- The bridge runs one packet: for the executor, or after an approval. -/
  | execute (p : GoalProcess) (t : ExecTick) (goalId pid : String) (a : GateAnswer)
  /-- The three passes of the continuation tick, at one goal. -/
  | rollUp (t : ContinuationTick) (goalId : String)
  | replanStuck (t : ContinuationTick) (goalId : String)
  | advancePlan (t : ContinuationTick) (parentId : String)
  /-- A console command. -/
  | edit (goalId : String) (edits : List GoalEdit) (now : String)

/-- The changes of a console command; an illegal transition ends it before the save. -/
def applyEdits (now : String) : Goal → List GoalEdit → Except String Goal
  | g, [] => .ok g
  | g, .evidence kind summary ref :: edits =>
    applyEdits now (g.addEvidence kind summary ref now) edits
  | g, .status dst :: edits =>
    match Transitions.apply g dst now with
    | .ok g => applyEdits now g edits
    | .error e => .error e

/-- A pass of the continuation tick saves a goal that it changed. -/
def changedBy (change : Goal → Goal) (g : Goal) : Option Goal :=
  if change g = g then none else some (change g)

/-- What `_record_governance_block` saves. -/
def refusal (g : Goal) (verdict : DesignVerdict) (now : String) : Option Goal :=
  if verdict.allowed = true
      ∨ g.evidence.any fun e => e.kind = .decision && e.ref = some (governanceRef verdict.stage) then
    none
  else some (g.addEvidence .decision
    ("설계 미완 — specialist 실행 차단 (stage=" ++ verdict.stage ++ "): " ++ verdict.reason)
    (some (governanceRef verdict.stage)) now)

namespace FileAction

/-- The process that acts. -/
def process : FileAction → GoalProcess
  | loadAll p => p
  | loadGoal p _ => p
  | execute p .. => p
  | edit .. => .console
  | _ => .serve

/-- The goal that an action saves, made from what its process has loaded. -/
def saved (s : GoalFiles) : FileAction → Option Goal
  | loadAll _ => none
  | loadGoal .. => none
  | schedule t k goalId =>
    (get (s.loaded .serve) goalId).bind fun g => (t.scheduleGoal s.logs k g).saves.head?
  | saveChild =>
    s.unsaved.head?.filter fun g =>
      (get s.store g.id).isNone && (get (s.loaded .serve) g.id).isNone
  | refuse t goalId =>
    (get (s.loaded .serve) goalId).bind fun g =>
      refusal g (designGate g (get (s.loaded .serve)) s.logs) (t.clock g.id)
  | execute p t goalId pid a =>
    (get (s.loaded p) goalId).bind fun g =>
      (applyApprovedPacket g pid t.approver a (t.clock goalId)).saved
  | rollUp t goalId => (get (s.loaded .serve) goalId).bind (changedBy t.rollUp)
  | replanStuck t goalId => (get (s.loaded .serve) goalId).bind (changedBy t.replanStuck)
  | advancePlan t parentId =>
    (ContinuationTick.planMove (s.loaded .serve) parentId).bind t.movedGoal
  | edit goalId edits now =>
    (get (s.loaded .console) goalId).bind fun g => (applyEdits now g edits).toOption

end FileAction

namespace GoalFiles

/-- The records of a goal that a process saves beyond those it had loaded. -/
def newRecords (s : GoalFiles) (p : GoalProcess) (g : Goal) : List EvidenceRecord :=
  match get (s.loaded p) g.id with
  | some g0 => g.evidence.drop g0.evidence.length
  | none => g.evidence

/-- `GoalStore.save` by a process. -/
def saveBy (s : GoalFiles) (p : GoalProcess) (g : Goal) : GoalFiles :=
  { s with
    store := save s.store g
    loaded := fun q => if q = p then save (s.loaded p) g else s.loaded q
    missed := fun q k =>
      if k = g.id then if q = p then [] else s.missed q k ++ s.newRecords p g else s.missed q k }

/-- What an action changes besides the goals it loads or saves. -/
def between (s : GoalFiles) : FileAction → GoalFiles
  | .schedule t k goalId =>
    match get (s.loaded .serve) goalId with
    | some g =>
      let r := t.scheduleGoal s.logs k g
      { s with logs := r.logs, unsaved := r.saves.tail }
    | none => s
  | .saveChild => { s with unsaved := s.unsaved.tail }
  | _ => s

/-- One action. -/
def fileStep (s : GoalFiles) (a : FileAction) : GoalFiles :=
  match a with
  | .loadAll p =>
    { s with
      loaded := fun q => if q = p then s.store.filterRows isLoaded else s.loaded q
      missed := fun q k => if q = p then [] else s.missed q k }
  | .loadGoal p goalId =>
    match get s.store goalId with
    | some g =>
      { s with
        loaded := fun q => if q = p then save (s.loaded p) g else s.loaded q
        missed := fun q k => if q = p ∧ k = goalId then [] else s.missed q k }
    | none => s
  | a =>
    match a.saved s with
    | some g => (s.between a).saveBy a.process g
    | none => s

end GoalFiles

/-! ## What an action saves -/

/-- A goal with more evidence. -/
def Extends (g g' : Goal) : Prop := g'.id = g.id ∧ g.evidence <+: g'.evidence

theorem Extends.refl (g : Goal) : Extends g g := ⟨rfl, List.prefix_refl _⟩

theorem Extends.trans {g g' g'' : Goal} (h : Extends g g') (h' : Extends g' g'') :
    Extends g g'' := ⟨h'.1.trans h.1, h.2.trans h'.2⟩

theorem ScheduledGoal.extends {t : SchedulerTick} {g g' : Goal} (h : ScheduledGoal t g g') :
    Extends g g' := by
  refine ⟨h.id, ?_⟩
  cases h with
  | linked updatedAt hne hleaf => exact List.prefix_append _ _
  | split g' added hchildren hfields hadded => rw [hfields]; exact List.prefix_append _ _

theorem Attempted.extends {g g' : Goal} {pid : String} (h : Attempted g pid g') : Extends g g' := by
  obtain ⟨added, hadded, -⟩ := h.records
  refine ⟨by rw [h.fields], ?_⟩
  rw [hadded]
  exact List.prefix_append _ _

theorem Settled.extends {t : ContinuationTick} {g g' : Goal} (h : Settled t g g') :
    Extends g g' := by
  cases h with
  | same => exact .refl g
  | rolledUp summary ts updatedAt => exact ⟨rfl, List.prefix_append _ _⟩
  | retried summary ts updatedAt => exact ⟨rfl, List.prefix_append _ _⟩
  | escalated summary ts updatedAt => exact ⟨rfl, List.prefix_append _ _⟩

theorem rollUp_extends (t : ContinuationTick) (g : Goal) : Extends g (t.rollUp g) := by
  rcases ContinuationTick.rollUp_spec (t := t) g with h | ⟨-, -, -, summary, ts, updatedAt, h⟩
  · rw [h]; exact .refl g
  · rw [h]; exact ⟨rfl, List.prefix_append _ _⟩

theorem movedGoal_extends {t : ContinuationTick} {store : GoalStore} {parentId : String} {g : Goal}
    (h : (ContinuationTick.planMove store parentId).bind t.movedGoal = some g) :
    ∃ g0, get store g.id = some g0 ∧ g0.evidence <+: g.evidence := by
  obtain ⟨m, hm, hg⟩ := Option.bind_eq_some_iff.mp h
  rcases ContinuationTick.planMove_spec hm with ⟨child, rfl, hget, -⟩ | ⟨parent, n, rfl, hget, -⟩
  · have hg := ContinuationTick.movedGoal_activate hg
    exact ⟨child, by rw [hg]; exact hget, by rw [hg]⟩
  · obtain ⟨summary, ts, hg⟩ := ContinuationTick.movedGoal_close hg
    exact ⟨parent, by rw [hg]; exact hget, by rw [hg]; exact List.prefix_append _ _⟩

theorem refusal_extends {g g' : Goal} {verdict : DesignVerdict} {now : String}
    (h : refusal g verdict now = some g') : Extends g g' := by
  unfold refusal at h
  split at h
  · cases h
  · cases h; exact ⟨rfl, List.prefix_append _ _⟩

theorem applyEdits_extends {now : String} {g g' : Goal} {edits : List GoalEdit}
    (h : applyEdits now g edits = .ok g') : Extends g g' := by
  induction edits generalizing g with
  | nil => cases h; exact .refl _
  | cons edit edits ih =>
    cases edit with
    | evidence kind summary ref =>
      have hadd : Extends g (g.addEvidence kind summary ref now) := ⟨rfl, List.prefix_append _ _⟩
      exact hadd.trans (ih h)
    | status dst =>
      simp only [applyEdits] at h
      split at h
      · next g1 hg1 =>
        refine Extends.trans ?_ (ih h)
        rw [Transitions.apply_ok hg1]
        exact ⟨rfl, List.prefix_refl _⟩
      · cases h

/-- A goal that extends a loaded one is saved under an id that is loaded. -/
theorem extends_loaded {store : GoalStore} {goalId : String} {g : Goal}
    {f : Goal → Option Goal} (hf : ∀ g0 g1, f g0 = some g1 → Extends g0 g1)
    (h : (get store goalId).bind f = some g) :
    ∃ g0, get store g.id = some g0 ∧ g0.evidence <+: g.evidence := by
  obtain ⟨g0, hget, hg⟩ := Option.bind_eq_some_iff.mp h
  obtain ⟨hid, hpre⟩ := hf g0 g hg
  refine ⟨g0, ?_, hpre⟩
  rw [hid, get_id hget]
  exact hget

theorem changedBy_some {change : Goal → Goal} {g g' : Goal} (h : changedBy change g = some g') :
    g' = change g := by
  unfold changedBy at h
  split at h
  · cases h
  · cases h; rfl

/-- **What an action saves** is a goal its process loaded, with more evidence, or a new goal. -/
theorem saved_extends {s : GoalFiles} {a : FileAction} {g : Goal} (h : a.saved s = some g) :
    (∃ g0, get (s.loaded a.process) g.id = some g0 ∧ g0.evidence <+: g.evidence)
      ∨ get (s.loaded a.process) g.id = none ∧ get s.store g.id = none := by
  cases a with
  | loadAll p => cases h
  | loadGoal p goalId => cases h
  | schedule t k goalId =>
    refine .inl (extends_loaded (fun g0 g1 h1 => ?_) h)
    rcases SchedulerTick.scheduleGoal_saves t s.logs k g0 with hsaves | ⟨g', made, hsaves, hg', -⟩
    · rw [hsaves] at h1; cases h1
    · rw [hsaves] at h1; cases h1; exact hg'.extends
  | saveChild =>
    obtain ⟨-, hfresh⟩ := Option.filter_eq_some_iff.mp h
    rw [Bool.and_eq_true, Option.isNone_iff_eq_none, Option.isNone_iff_eq_none] at hfresh
    exact .inr ⟨hfresh.2, hfresh.1⟩
  | refuse t goalId => exact .inl (extends_loaded (fun _ _ => refusal_extends) h)
  | execute p t goalId pid a =>
    refine .inl (extends_loaded (fun g0 g1 h1 => ?_) h)
    rcases applyApprovedPacket_spec g0 pid t.approver a (t.clock goalId) with ⟨hnone, -⟩ |
      ⟨g', pid', hsaved, -, hattempt, -⟩
    · rw [hnone] at h1; cases h1
    · rw [hsaved] at h1; cases h1; exact hattempt.extends
  | rollUp t goalId =>
    refine .inl (extends_loaded (fun g0 g1 h1 => ?_) h)
    rw [changedBy_some h1]
    exact rollUp_extends t g0
  | replanStuck t goalId =>
    refine .inl (extends_loaded (fun g0 g1 h1 => ?_) h)
    rw [changedBy_some h1]
    exact (ContinuationTick.replanStuck_spec g0).extends
  | advancePlan t parentId => exact .inl (movedGoal_extends h)
  | edit goalId edits now =>
    refine .inl (extends_loaded (fun g0 g1 h1 => ?_) h)
    exact applyEdits_extends (ContinuationTick.eq_ok_of_toOption h1)

/-! ## The files as shared records -/

namespace GoalFiles

open SharedCopies (Action State)

/-- The evidence of the files and of the loaded goals. -/
def records (s : GoalFiles) : State GoalProcess String EvidenceRecord where
  shared := fun k => (get s.store k).map Goal.evidence
  copy := fun p k => (get (s.loaded p) k).map Goal.evidence
  missed := s.missed

/-- What an action does to the records. -/
def recordAction (s : GoalFiles) (a : FileAction) : Action GoalProcess String EvidenceRecord :=
  match a with
  | .loadAll p => .readAll p fun k => !PyText.startsWith (k ++ ".json") "."
  | .loadGoal p goalId => if (get s.store goalId).isSome then .read p goalId else .skip
  | a =>
    match a.saved s with
    | some g => .write a.process g.id (s.newRecords a.process g)
    | none => .skip

theorem records_between (s : GoalFiles) (a : FileAction) : (s.between a).records = s.records := by
  unfold between
  split
  · split <;> rfl
  · rfl
  · rfl

theorem between_newRecords (s : GoalFiles) (a : FileAction) (p : GoalProcess) (g : Goal) :
    (s.between a).newRecords p g = s.newRecords p g := by
  unfold between
  split
  · split <;> rfl
  · rfl
  · rfl

theorem records_saveBy (s : GoalFiles) (p : GoalProcess) (g : Goal) :
    (s.saveBy p g).records = s.records.put p g.id g.evidence (s.newRecords p g) := by
  unfold records saveBy SharedCopies.State.put
  congr 1
  · funext k
    simp only [get_save, eq_comm]
    split <;> rfl
  · funext q k
    by_cases hq : q = p
    · subst hq
      simp only [if_true, get_save, true_and, eq_comm]
      split <;> rfl
    · simp [hq]

/-- A save is a write of the record with the new evidence. -/
theorem records_write {s : GoalFiles} {a : FileAction} {g : Goal} (h : a.saved s = some g) :
    (s.saveBy a.process g).records
      = SharedCopies.step s.records (.write a.process g.id (s.newRecords a.process g)) := by
  rw [records_saveBy]
  rcases saved_extends h with ⟨g0, hget, added, hadded⟩ | ⟨hnone, hstore⟩
  · have hcopy : s.records.copy a.process g.id = some g0.evidence := by simp [records, hget]
    have hnew : s.newRecords a.process g = added := by simp [newRecords, hget, ← hadded]
    simp only [SharedCopies.step, hcopy, hnew, hadded]
  · have hcopy : s.records.copy a.process g.id = none := by simp [records, hnone]
    have hshared : s.records.shared g.id = none := by simp [records, hstore]
    have hnew : s.newRecords a.process g = g.evidence := by simp [newRecords, hnone]
    simp only [SharedCopies.step, hcopy, hshared, hnew]

theorem records_save {s : GoalFiles} {a : FileAction}
    (hstep : s.fileStep a = match a.saved s with
      | some g => (s.between a).saveBy a.process g
      | none => s)
    (hact : s.recordAction a = match a.saved s with
      | some g => .write a.process g.id (s.newRecords a.process g)
      | none => .skip) :
    (s.fileStep a).records = SharedCopies.step s.records (s.recordAction a) := by
  rw [hstep, hact]
  cases h : a.saved s with
  | none => rfl
  | some g =>
    refine Eq.trans ?_ (records_write h)
    simp only [records_saveBy, records_between, between_newRecords]

/-- **The files simulate shared records.** -/
theorem records_fileStep (s : GoalFiles) (a : FileAction) :
    (s.fileStep a).records = SharedCopies.step s.records (s.recordAction a) := by
  cases a with
  | loadAll p =>
    simp only [fileStep, recordAction, SharedCopies.step, records]
    congr 1
    funext q k
    by_cases hq : q = p
    · simp only [hq, if_true, GoalStore.get, Table.find?_filterRows]
      cases hget : s.store.find? k with
      | none => simp
      | some g =>
        have hid : g.id = k := Table.find?_key hget
        by_cases hl : isLoaded g = true
        · rw [Option.filter_some_pos hl, if_pos]
          rw [← hid]; exact hl
        · rw [Option.filter_some_neg (by simpa using hl), if_neg]
          · rfl
          · rw [← hid]; exact hl
    · simp only [hq, if_false]
  | loadGoal p goalId =>
    simp only [fileStep, recordAction]
    cases hget : get s.store goalId with
    | none => rfl
    | some g =>
      simp only [Option.isSome_some, if_true, SharedCopies.step, records]
      congr 1
      funext q k
      have hid : g.id = goalId := get_id hget
      by_cases hq : q = p
      · subst hq
        by_cases hk : k = goalId
        · simp [get_save, hid, hk, hget]
        · simp [get_save, hid, hk, Ne.symm hk]
      · simp [hq]
  | schedule t k goalId => exact records_save rfl rfl
  | saveChild => exact records_save rfl rfl
  | refuse t goalId => exact records_save rfl rfl
  | execute p t goalId pid a => exact records_save rfl rfl
  | rollUp t goalId => exact records_save rfl rfl
  | replanStuck t goalId => exact records_save rfl rfl
  | advancePlan t parentId => exact records_save rfl rfl
  | edit goalId edits now => exact records_save rfl rfl

theorem records_start (store : GoalStore) (logs : GovernanceLogs) :
    SharedCopies.Inv (start store logs).records := by
  intro p k es h
  simp [records, start, GoalStore.get] at h

end GoalFiles

/-! ## Runs -/

open GoalFiles (start fileStep)

/-- Evidence that is in the file of a goal in some state of the run is there in every later one. -/
def EvidenceKept (s : GoalFiles) (as : List FileAction) : Prop :=
  ∀ pre mid, pre ++ mid <+: as → ∀ goalId,
    (Machine.run fileStep s pre).evidence goalId
      ⊆ (Machine.run fileStep s (pre ++ mid)).evidence goalId

/--
A process that saves a goal holds or appends every record that the other process saved to that
goal since this one loaded it.
-/
def SavesNothingStale (s : GoalFiles) (a : FileAction) : Prop :=
  ∀ g g0, a.saved s = some g → get (s.loaded a.process) g.id = some g0 →
    ∀ e ∈ s.missed a.process g.id, e ∈ g0.evidence ∨ e ∈ s.newRecords a.process g

theorem nothingMissed_iff (s : GoalFiles) (a : FileAction) :
    SharedCopies.NothingMissed s.records (s.recordAction a) ↔ SavesNothingStale s a := by
  have hsave : ∀ b : FileAction, (s.recordAction b = match b.saved s with
      | some g => .write b.process g.id (s.newRecords b.process g)
      | none => .skip) →
      (SharedCopies.NothingMissed s.records (s.recordAction b) ↔ SavesNothingStale s b) := by
    intro b hb
    rw [hb]
    unfold SavesNothingStale
    cases b.saved s with
    | none => simp [SharedCopies.NothingMissed]
    | some g =>
      simp only [SharedCopies.NothingMissed, GoalFiles.records, Option.map_eq_some_iff]
      constructor
      · rintro h g' g0 ⟨⟩ hget e he
        exact List.mem_append.mp (h g0.evidence ⟨g0, hget, rfl⟩ he)
      · rintro h es ⟨g0, hget, rfl⟩ e he
        exact List.mem_append.mpr (h g g0 rfl hget e he)
  cases a with
  | loadAll p => exact iff_of_true trivial fun g g0 h => by cases h
  | loadGoal p goalId =>
    refine iff_of_true ?_ fun g g0 h => by cases h
    simp only [GoalFiles.recordAction]
    split <;> trivial
  | schedule t k goalId => exact hsave _ rfl
  | saveChild => exact hsave _ rfl
  | refuse t goalId => exact hsave _ rfl
  | execute p t goalId pid a => exact hsave _ rfl
  | rollUp t goalId => exact hsave _ rfl
  | replanStuck t goalId => exact hsave _ rfl
  | advancePlan t parentId => exact hsave _ rfl
  | edit goalId edits now => exact hsave _ rfl

/--
**A run keeps all evidence exactly when no save is stale**: no process saves a goal over a record
that the other one saved to it since it was loaded.
-/
theorem evidence_kept_iff (store : GoalStore) (logs : GovernanceLogs) (as : List FileAction) :
    EvidenceKept (start store logs) as
      ↔ Machine.EachStep fileStep SavesNothingStale (start store logs) as := by
  have h := SharedCopies.kept_run_iff GoalFiles.records_fileStep
    (GoalFiles.records_start store logs) as
  simp only [nothingMissed_iff] at h
  exact h

/-- A goal with one packet that was run and verified. -/
def executedGoal : Goal where
  id := "goal-1"
  title := "docs"
  status := .active
  packets := ["packet-1"]
  evidence := [⟨"t1", .proposal, "[safe] a -> b", some "packet-1"⟩,
    ⟨"t2", .execution, "run", some "packet-1"⟩, ⟨"t3", .verification, "ok", some "packet-1"⟩]
  updatedAt := "t3"

/-- The tick loads the goal, the console loads it and saves a note, the tick closes the goal. -/
def noteDuringTick : List FileAction :=
  [.loadAll .serve, .loadGoal .console "goal-1",
    .edit "goal-1" [.evidence (.other "nexus-note") "note" none] "t4", .rollUp {} "goal-1"]

/-- The note was in the file, and the tick erased it. -/
theorem noteDuringTick_lost :
    ¬ EvidenceKept (start (save .empty executedGoal) []) noteDuringTick := by
  intro h
  have hlost := h (noteDuringTick.take 3) [.rollUp {} "goal-1"] (List.prefix_refl _) "goal-1"
  revert hlost
  decide +kernel

/-! ### The files as the tick sees them -/

/-- The runs of the bridge on some packets of a goal, one after the other. -/
def executions (t : ExecTick) (goalId : String) : Nat → List String → List FileAction
  | _, [] => []
  | n, pid :: pids =>
    .execute .serve t goalId pid (t.gate n) :: executions t goalId (n + 1) pids

/-- The goal before its packet was run. -/
def untriedGoal : Goal := { executedGoal with evidence := executedGoal.evidence.take 1 }

end ForgeKit.Goals
