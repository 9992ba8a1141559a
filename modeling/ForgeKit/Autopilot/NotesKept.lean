import ForgeKit.Autopilot.HonestWrite
import ForgeKit.Autopilot.Orchestrator
import ForgeKit.Goals.GitApply

/-!
# The notes of a cycle (`autopilot/orchestrator`, `_mutate`)

A finding that gets to the mutator is written as a note, under a path made from the repository and
the first forty characters of its text. A note replaces what was in its file.

* `execute_of_lands` — what a note that gets to the write leaves in the file
* `kept_step_iff` — the steps that keep the notes of the executed findings
* `notes_kept_iff` — the cycles that keep them
-/

namespace ForgeKit.Autopilot

open Py (Text lit)
open FileTree (Tree bytesAt)
open Goals (UnicodeTables slug)
open DecisionLane (ExecutionVerdict)

/-- The task of `_mutate`. -/
def noteTask (u : UnicodeTables) (repo : Text) (finding : RepoFinding) : ExecTask where
  action := .note
  relPath := lit "runs/forgekit/autopilot/" ++ repo ++ lit "-" ++ slug u finding.finding ++ lit ".md"
  content := lit "# autopilot note — " ++ repo ++ lit "\n\n- finding: " ++ finding.finding
    ++ lit "\n- kind: " ++ finding.kind
    ++ lit "\n- class: safe (internal-approved: PM→gateway→tech-lead)\n"
    ++ lit "- action: 안전 클래스 note 기록 (실제 코드 mutation 은 후속 단계)\n"

/-- A note is not what an empty file holds. -/
theorem encode_note_ne_empty (u : UnicodeTables) (repo : Text) (finding : RepoFinding) :
    Py.encode (noteTask u repo finding).content ≠ some .empty := by
  intro h
  have hnil : (noteTask u repo finding).content = [] := Py.encode_inj h (by decide)
  simp only [noteTask, List.append_assoc, List.append_eq_nil_iff] at hnil
  exact absurd hnil.1 (by decide)

/-! ## One note -/

/-- The task passes the checks of `execute`, and its target can be opened for writing. -/
def Lands (m : BoundedMutator) (t : Tree) (task : ExecTask) : Prop :=
  (∃ p, m.plan t task = .ok p) ∧ Writable t (m.target task)

/-- What a call of the mutator reports as executed. -/
def succeeded : Ended → Bool
  | .ok o => o.executed && o.verified
  | .error _ => false

theorem plan_refused {m : BoundedMutator} {t : Tree} {task : ExecTask} {ended : Ended}
    (h : m.plan t task = .error ended) : succeeded ended = false := by
  cases ended with
  | error e => rfl
  | ok o => simp [succeeded, plan_error h]

theorem execute_note {m : BoundedMutator} {t : Tree} {task : ExecTask} {before after : Text}
    (haction : task.action = .note) (hplan : m.plan t task = .ok (before, after)) :
    m.execute t task = m.writePlain t task before task.content := by
  obtain ⟨hafter, -⟩ := planPlain_ok (plan_plain (by simp [haction]) hplan)
  simp only [plainText, haction] at hafter
  unfold BoundedMutator.execute
  simp only [hplan, haction, hafter]

/-- A note that does not get to the write changes no file and is not executed. -/
theorem execute_of_not_lands {m : BoundedMutator} {t : Tree} {task : ExecTask}
    (haction : task.action = .note) (h : ¬Lands m t task) :
    bytesAt (m.execute t task).2 = bytesAt t ∧ succeeded (m.execute t task).1 = false := by
  cases hplan : m.plan t task with
  | error ended =>
    have hexecute : m.execute t task = (ended, t) := by
      unfold BoundedMutator.execute
      rw [hplan]
    rw [hexecute]
    exact ⟨rfl, plan_refused hplan⟩
  | ok p =>
    obtain ⟨before, after⟩ := p
    have hwritable : ¬Writable t (m.target task) := fun hw => h ⟨⟨_, hplan⟩, hw⟩
    obtain ⟨hbytes, hrefused⟩ := writePlain_blocked hwritable before task.content
    rw [execute_note haction hplan]
    refine ⟨hbytes, ?_⟩
    cases hended : (m.writePlain t task before task.content).1 with
    | error e => rfl
    | ok o => simp [succeeded, hrefused o hended]

/-- **A note that gets to the write** replaces its file. It is executed when it can be encoded and
has no `\r`; what cannot be encoded leaves the file empty and raises. -/
theorem execute_of_lands {m : BoundedMutator} {t : Tree} {task : ExecTask}
    (haction : task.action = .note) (h : Lands m t task) :
    bytesAt (m.execute t task).2 (m.target task) = some ((Py.encode task.content).getD .empty)
      ∧ match Py.encode task.content with
        | none => (m.execute t task).1 = .error .value
        | some _ => ∃ o, (m.execute t task).1 = .ok o ∧ o.path = task.relPath
            ∧ (o.executed && o.verified) = decide (Py.carriageReturn ∉ task.content) := by
  obtain ⟨⟨⟨before, after⟩, hplan⟩, hw⟩ := h
  obtain ⟨t', -, hwrite⟩ := writePlain_writable hw before task.content
  rw [execute_note haction hplan, hwrite]
  cases hb : Py.encode task.content with
  | none => exact ⟨FileTree.bytesAt_put_self _ _ _, rfl⟩
  | some b =>
    refine ⟨FileTree.bytesAt_put_self _ _ _, _, rfl, rfl, ?_⟩
    rw [Bool.and_self]

theorem path_of_succeeded {m : BoundedMutator} {t : Tree} {task : ExecTask} {o : ExecOutcome}
    (haction : task.action = .note) (ho : (m.execute t task).1 = .ok o)
    (h : succeeded (.ok o) = true) : o.path = task.relPath := by
  by_cases hlands : Lands m t task
  · have hend := (execute_of_lands haction hlands).2
    split at hend
    · rw [ho] at hend
      cases hend
    · obtain ⟨o', ho', hpath, -⟩ := hend
      rw [ho, Except.ok.injEq] at ho'
      rw [ho', hpath]
  · have hfailed := (execute_of_not_lands haction hlands).2
    rw [ho, h] at hfailed
    cases hfailed

/-! ## The steps of a cycle -/

namespace Cycle

/-- The finding that the mutator gets in the next step. -/
def mutating (c : Cycle) : Option RepoFinding :=
  match c.phase with
  | .authorized finding _ _ => if c.orchestrator.hasMutator then some finding else none
  | _ => none

/-- The findings that the mutator may still get. -/
def pending (c : Cycle) : List RepoFinding :=
  match c.phase with
  | .looking => c.rest
  | .granted finding _ _ => finding :: c.rest
  | .authorized finding _ _ => finding :: c.rest
  | .returned => []
  | .raised => []

/-- At most this many steps are left. -/
def ticksLeft (c : Cycle) : Nat :=
  match c.phase with
  | .looking => 3 * c.rest.length + 1
  | .granted _ _ _ => 3 * c.rest.length + 3
  | .authorized _ _ _ => 3 * c.rest.length + 2
  | .returned => 0
  | .raised => 0

/-- What every step of a cycle does. -/
structure Moves (c c' : Cycle) : Prop where
  repo : c'.result.repo = c.result.repo
  pending : c'.pending ⊆ c.pending
  ticks : c.ticksLeft = 0 ∧ c' = c ∨ c'.ticksLeft < c.ticksLeft

theorem moves_look {c : Cycle} (hphase : c.phase = .looking) (log : List Text) (answers : Answers)
    (granted : Bool) : c.Moves ((c.look log answers).2 granted) := by
  unfold look
  split
  · next hrest =>
    refine ⟨rfl, List.nil_subset _, .inr ?_⟩
    simp [ticksLeft, hphase]
  · next finding rest hrest =>
    have hpending : c.pending = finding :: rest := by simp [Cycle.pending, hphase, hrest]
    have hticks : c.ticksLeft = 3 * rest.length + 4 := by
      simp only [ticksLeft, hphase, hrest, List.length_cons]
      omega
    split
    · refine ⟨rfl, List.nil_subset _, .inr ?_⟩
      rw [hticks]
      exact Nat.succ_pos _
    · dsimp only
      split
      · cases granted with
        | true => exact ⟨rfl, hpending ▸ List.Subset.refl _, .inr (hticks ▸ Nat.lt_succ_self _)⟩
        | false =>
          refine ⟨rfl, hpending ▸ List.subset_cons_self _ _, .inr ?_⟩
          show 3 * rest.length + 1 < c.ticksLeft
          omega
      · refine ⟨rfl, hpending ▸ List.subset_cons_self _ _, .inr ?_⟩
        show 3 * rest.length + 1 < c.ticksLeft
        omega

theorem moves_authorize {c : Cycle} {finding : RepoFinding} {decision : TechLeadDecision}
    {executor : Text} (hphase : c.phase = .granted finding decision executor) (answers : Answers)
    (granted : Bool) : c.Moves ((c.authorize finding executor answers).2 granted) := by
  have hpending : c.pending = finding :: c.rest := by simp [Cycle.pending, hphase]
  have hticks : c.ticksLeft = 3 * c.rest.length + 3 := by simp [ticksLeft, hphase]
  have hnext : ∀ approvalMeta result,
      c.Moves { c with result := { c.result with steps := result }
                       phase := .authorized finding executor approvalMeta } :=
    fun _ _ => ⟨rfl, hpending ▸ List.Subset.refl _, .inr (hticks ▸ Nat.lt_succ_self _)⟩
  unfold authorize
  split
  · dsimp only
    split
    · exact hnext _ _
    · split
      · exact hnext _ _
      · refine ⟨rfl, hpending ▸ List.subset_cons_self _ _, .inr ?_⟩
        show 3 * c.rest.length + 1 < c.ticksLeft
        omega
    · exact ⟨rfl, List.nil_subset _, .inr (hticks ▸ Nat.succ_pos _)⟩
  · exact hnext _ _

theorem moves_mutate {c : Cycle} {finding : RepoFinding} {executor approvalMeta : Text}
    (hphase : c.phase = .authorized finding executor approvalMeta) (answers : Answers)
    (granted : Bool) : c.Moves ((c.mutate finding executor approvalMeta answers).2 granted) := by
  have hpending : c.pending = finding :: c.rest := by simp [Cycle.pending, hphase]
  have hticks : c.ticksLeft = 3 * c.rest.length + 2 := by simp [ticksLeft, hphase]
  have hnext : ∀ c' : Cycle, c'.result.repo = c.result.repo → c'.phase = .looking →
      c'.rest = c.rest ∨ c'.rest = [] → c.Moves c' := by
    intro c' hrepo hlooking hrest
    refine ⟨hrepo, ?_, .inr ?_⟩
    · simp only [Cycle.pending, hlooking, hphase]
      rcases hrest with h | h
      · exact h ▸ List.subset_cons_self _ _
      · exact h ▸ List.nil_subset _
    · simp only [ticksLeft, hlooking, hphase]
      rcases hrest with h | h <;> simp [h]
  unfold mutate
  split
  · split
    · exact ⟨rfl, List.nil_subset _, .inr (hticks ▸ Nat.succ_pos _)⟩
    · dsimp only
      split
      · exact hnext _ rfl rfl (.inl rfl)
      · unfold fail
        dsimp only
        split
        · exact hnext _ rfl rfl (.inr rfl)
        · exact hnext _ rfl rfl (.inl rfl)
  · exact hnext _ rfl rfl (.inl rfl)

theorem moves_advance (c : Cycle) (log : List Text) (answers : Answers) (granted : Bool) :
    c.Moves ((c.advance log answers).2 granted) := by
  have hended : c.ticksLeft = 0 → c.Moves c := fun h => ⟨rfl, List.Subset.refl _, .inl ⟨h, rfl⟩⟩
  unfold advance
  cases hphase : c.phase with
  | looking => exact moves_look hphase log answers granted
  | granted finding decision executor => exact moves_authorize hphase answers granted
  | authorized finding executor approvalMeta => exact moves_mutate hphase answers granted
  | returned => exact hended (by simp [ticksLeft, hphase])
  | raised => exact hended (by simp [ticksLeft, hphase])

/-- A step without the mutator executes nothing. -/
theorem executed_of_not_mutating {c : Cycle} (h : c.mutating = none) (log : List Text)
    (answers : Answers) (granted : Bool) :
    ((c.advance log answers).2 granted).result.executed = c.result.executed := by
  unfold advance
  cases hphase : c.phase with
  | looking =>
    dsimp only
    unfold look
    split
    · rfl
    · split
      · rfl
      · dsimp only
        split
        · cases granted <;> rfl
        · rfl
  | granted finding decision executor =>
    dsimp only
    unfold authorize
    split
    · dsimp only
      split
      · rfl
      · split <;> rfl
      · rfl
    · rfl
  | authorized finding executor approvalMeta =>
    have hnone : c.orchestrator.hasMutator = false := by
      simpa [mutating, hphase] using h
    dsimp only
    unfold mutate
    rw [hnone]
    rfl
  | returned => rfl
  | raised => rfl

/-- A mutator that raises ends the cycle. -/
theorem advance_of_raise {c : Cycle} {finding : RepoFinding} (h : c.mutating = some finding)
    {answers : Answers} (hraise : answers.outcome = none) (log : List Text) (granted : Bool) :
    (c.advance log answers).2 granted = c.raise := by
  unfold mutating at h
  split at h
  · next finding executor approvalMeta hphase =>
    split at h
    · next hmutator =>
      simp only [advance, hphase, mutate, hmutator, if_true, hraise]
    · cases h
  · cases h

/-- A step of the mutator executes its finding when the outcome is executed and verified. -/
theorem executed_of_mutating {c : Cycle} {finding : RepoFinding} (h : c.mutating = some finding)
    {answers : Answers} {o : ExecOutcome} (ho : answers.outcome = some o) (log : List Text)
    (granted : Bool) :
    ∃ e : Execution, e.finding = finding.finding ∧ e.path = o.path ∧
      ((c.advance log answers).2 granted).result.executed =
        c.result.executed ++ if (o.executed && o.verified) = true then [e] else [] := by
  unfold mutating at h
  split at h
  · next finding' executor approvalMeta hphase =>
    split at h
    · next hmutator =>
      cases h
      refine ⟨⟨finding.finding, executor, o.path, o.linesChanged, approvalMeta⟩, rfl, rfl, ?_⟩
      simp only [advance, hphase, mutate, hmutator, if_true, ho]
      split
      · rfl
      · rw [List.append_nil]
        unfold fail
        dsimp only
        split <;> rfl
    · cases h
  · cases h

theorem mem_pending_of_mutating {c : Cycle} {finding : RepoFinding}
    (h : c.mutating = some finding) : finding ∈ c.pending := by
  unfold mutating at h
  split at h
  · next hphase =>
    split at h
    · cases h
      simp [pending, hphase]
    · cases h
  · cases h

theorem ended_of_ticksLeft {c : Cycle} (h : c.ticksLeft = 0) :
    c.phase = .returned ∨ c.phase = .raised := by
  unfold ticksLeft at h
  split at h
  · exact absurd h (Nat.succ_ne_zero _)
  · exact absurd h (Nat.succ_ne_zero _)
  · exact absurd h (Nat.succ_ne_zero _)
  · next hphase => exact .inl hphase
  · next hphase => exact .inr hphase

end Cycle

/-! ## A cycle with its files -/

/-- A call of `run_cycle` with the files; `done` has the findings of the entries of `executed`. -/
structure NoteRun where
  cycle : Cycle
  tree : Tree
  done : List RepoFinding := []

/-- What `risk_of`, the authorizer and the arbiter answer in a step. -/
structure Turn where
  risk : Option Text := some []
  verdict : Option (Option ExecutionVerdict) := some none
  granted : Bool := true
  log : List Text := []

def Turn.answers (turn : Turn) (outcome : Option ExecOutcome) : Answers :=
  { risk := turn.risk, verdict := turn.verdict, outcome }

/-- The file of a finding has its note. -/
def HoldsNote (u : UnicodeTables) (m : BoundedMutator) (repo : Text) (t : Tree)
    (finding : RepoFinding) : Prop :=
  ∃ b, Py.encode (noteTask u repo finding).content = some b
    ∧ bytesAt t (m.target (noteTask u repo finding)) = some b

/-- What is written to the file of a finding replaces the note of another one. -/
def Clash (u : UnicodeTables) (m : BoundedMutator) (repo : Text) (f g : RepoFinding) : Prop :=
  m.target (noteTask u repo g) = m.target (noteTask u repo f)
    ∧ (noteTask u repo g).content ≠ (noteTask u repo f).content

namespace NoteRun

variable (u : UnicodeTables) (m : BoundedMutator)

def begin (orchestrator : Orchestrator) (repo : Text) (findings : List RepoFinding) (tree : Tree) :
    NoteRun :=
  { cycle := Cycle.begin orchestrator repo findings, tree }

/-- The task of the finding in hand. -/
def task (s : NoteRun) (finding : RepoFinding) : ExecTask :=
  noteTask u s.cycle.result.repo finding

/-- One step of the cycle; the mutator works on the files. -/
def step (s : NoteRun) (turn : Turn) : NoteRun :=
  match s.cycle.mutating with
  | none => { s with cycle := (s.cycle.advance turn.log (turn.answers none)).2 turn.granted }
  | some finding =>
    let (ended, tree) := m.execute s.tree (s.task u finding)
    { cycle := (s.cycle.advance turn.log (turn.answers ended.toOption)).2 turn.granted
      tree
      done := s.done ++ if succeeded ended = true then [finding] else [] }

/-- **Each entry of `executed` names a path** whose file has the note of exactly its finding. -/
def Kept (s : NoteRun) : Prop :=
  List.Forall₂ (fun (e : Execution) finding => e.finding = finding.finding
      ∧ ∃ b, Py.encode (s.task u finding).content = some b
        ∧ bytesAt s.tree (PosixPath.join m.repoRoot e.path) = some b)
    s.cycle.result.executed s.done

/-- A note that gets to the write goes to no file of a different note of the cycle. -/
def Spares (s : NoteRun) (_ : Turn) : Prop :=
  ∀ finding, s.cycle.mutating = some finding → Lands m s.tree (s.task u finding) →
    ∀ earlier ∈ s.done, ¬Clash u m s.cycle.result.repo finding earlier

/-- What every step of a cycle over `findings` keeps. -/
structure Within (repo : Text) (findings : List RepoFinding) (s : NoteRun) : Prop where
  sameRepo : s.cycle.result.repo = repo
  pending : s.cycle.pending ⊆ findings
  linked : List.Forall₂ (fun (e : Execution) finding =>
    e.finding = finding.finding ∧ e.path = (noteTask u repo finding).relPath)
    s.cycle.result.executed s.done

variable {u m} {repo : Text} {findings : List RepoFinding} {s : NoteRun}

/-- A relation that adds one fact about the right side to a relation of two lists. -/
theorem forall₂_iff_forall {α β : Type*} {L R : α → β → Prop} {P : β → Prop}
    (hR : ∀ a b, L a b → (R a b ↔ P b)) {as : List α} {bs : List β} (h : List.Forall₂ L as bs) :
    List.Forall₂ R as bs ↔ ∀ b ∈ bs, P b := by
  induction h with
  | nil => simp
  | cons hab _ ih => rw [List.forall₂_cons, List.forall_mem_cons, ih, hR _ _ hab]

theorem kept_iff (hs : s.Within u repo findings) :
    s.Kept u m ↔ ∀ finding ∈ s.done, HoldsNote u m repo s.tree finding := by
  unfold Kept NoteRun.task
  rw [hs.sameRepo]
  refine forall₂_iff_forall (fun e finding hentry => ?_) hs.linked
  rw [hentry.2]
  exact and_iff_right hentry.1

/-- A step of the mutator, by what it does with the note. -/
theorem step_of_mutating {finding : RepoFinding} (h : s.cycle.mutating = some finding)
    (turn : Turn) :
    (s.step u m turn).cycle.result.repo = s.cycle.result.repo
      ∧ (s.step u m turn).tree = (m.execute s.tree (s.task u finding)).2
      ∧ (s.step u m turn).done = s.done
        ++ if succeeded (m.execute s.tree (s.task u finding)).1 = true then [finding] else [] := by
  unfold step
  simp only [h]
  exact ⟨(Cycle.moves_advance _ _ _ _).repo, trivial, trivial⟩

theorem within_step (hs : s.Within u repo findings) (turn : Turn) :
    (s.step u m turn).Within u repo findings := by
  unfold step
  cases hmutating : s.cycle.mutating with
  | none =>
    have hmoves := s.cycle.moves_advance turn.log (turn.answers none) turn.granted
    refine ⟨hmoves.repo.trans hs.sameRepo, List.Subset.trans hmoves.pending hs.pending, ?_⟩
    dsimp only
    rw [Cycle.executed_of_not_mutating hmutating]
    exact hs.linked
  | some finding =>
    dsimp only
    generalize hended : (m.execute s.tree (s.task u finding)).1 = ended
    have hmoves := s.cycle.moves_advance turn.log (turn.answers ended.toOption) turn.granted
    refine ⟨hmoves.repo.trans hs.sameRepo, List.Subset.trans hmoves.pending hs.pending, ?_⟩
    dsimp only
    cases ended with
    | error e =>
      rw [Cycle.advance_of_raise hmutating rfl]
      simpa [succeeded, Cycle.raise] using hs.linked
    | ok o =>
      have hanswers : (turn.answers (some o)).outcome = some o := rfl
      obtain ⟨e, hfinding, hpath, hexecuted⟩ :=
        Cycle.executed_of_mutating hmutating hanswers turn.log turn.granted
      show List.Forall₂ _ ((s.cycle.advance turn.log (turn.answers (some o))).2
        turn.granted).result.executed _
      rw [hexecuted]
      refine List.rel_append hs.linked ?_
      by_cases ho : (o.executed && o.verified) = true
      · have htask : s.task u finding = noteTask u repo finding := by rw [NoteRun.task, hs.sameRepo]
        have hrel : o.path = (s.task u finding).relPath := path_of_succeeded rfl hended ho
        simp only [succeeded, ho, if_true, List.forall₂_cons, List.Forall₂.nil, and_true]
        exact ⟨hfinding, hpath.trans (htask ▸ hrel)⟩
      · simp [succeeded, ho]

/-- The files that a note does not go to keep theirs. -/
theorem holdsNote_execute_of_ne {f g : RepoFinding}
    (hne : m.target (noteTask u repo g) ≠ m.target (noteTask u repo f)) (t : Tree) :
    HoldsNote u m repo (m.execute t (noteTask u repo f)).2 g ↔ HoldsNote u m repo t g := by
  unfold HoldsNote
  rw [execute_of_ne hne]

/-- **A note that gets to the write keeps another one** exactly when it does not clash with it. -/
theorem holdsNote_execute_iff {f g : RepoFinding} {t : Tree}
    (hlands : Lands m t (noteTask u repo f)) (hg : HoldsNote u m repo t g) :
    HoldsNote u m repo (m.execute t (noteTask u repo f)).2 g ↔ ¬Clash u m repo f g := by
  by_cases htarget : m.target (noteTask u repo g) = m.target (noteTask u repo f)
  · have hfile := (execute_of_lands rfl hlands).1
    obtain ⟨b, hb, -⟩ := hg
    unfold HoldsNote Clash
    rw [htarget, hfile]
    simp only [true_and, ne_eq, not_not]
    constructor
    · rintro ⟨b', hb', hfile⟩
      cases hf : Py.encode (noteTask u repo f).content with
      | none =>
        rw [hf] at hfile
        cases hfile
        exact absurd hb' (encode_note_ne_empty u repo g)
      | some bf =>
        rw [hf] at hfile
        cases hfile
        exact Py.encode_inj hb' hf
    · intro hsame
      exact ⟨b, hb, by rw [← hsame, hb]; rfl⟩
  · exact iff_of_true ((holdsNote_execute_of_ne htarget t).mpr hg) fun h => htarget h.1

/-- **A step keeps the notes of the executed findings** exactly when what it writes clashes with
none of them. -/
theorem kept_step_iff (hs : s.Within u repo findings) (hkept : s.Kept u m) (turn : Turn) :
    (s.step u m turn).Kept u m ↔ s.Spares u m turn := by
  rw [kept_iff (within_step hs turn)]
  rw [kept_iff hs] at hkept
  obtain rfl := hs.sameRepo
  cases hmutating : s.cycle.mutating with
  | none =>
    have hstep : (s.step u m turn).tree = s.tree ∧ (s.step u m turn).done = s.done := by
      unfold step
      simp [hmutating]
    rw [hstep.1, hstep.2]
    refine iff_of_true hkept fun f hf => ?_
    rw [hmutating] at hf
    cases hf
  | some f =>
    obtain ⟨-, htree, hdone⟩ := step_of_mutating (u := u) (m := m) hmutating turn
    rw [htree, hdone]
    unfold NoteRun.task
    by_cases hlands : Lands m s.tree (noteTask u s.cycle.result.repo f)
    · have hspares : s.Spares u m turn ↔
          ∀ g ∈ s.done, ¬Clash u m s.cycle.result.repo f g := by
        constructor
        · exact fun h => h f hmutating hlands
        · intro h f' hf' _
          rw [hmutating, Option.some.injEq] at hf'
          exact hf' ▸ h
      rw [hspares, List.forall_mem_append]
      obtain ⟨hfile, hend⟩ := execute_of_lands rfl hlands
      -- an executed finding has its note in the file, whatever was there before
      have hown : ∀ g ∈ (if succeeded (m.execute s.tree (noteTask u s.cycle.result.repo f)).1 = true
          then [f] else []), HoldsNote u m s.cycle.result.repo
            (m.execute s.tree (noteTask u s.cycle.result.repo f)).2 g := by
        intro g hg
        split at hg
        · next hsucceeded =>
          rw [List.mem_singleton] at hg
          subst hg
          cases hb : Py.encode (noteTask u s.cycle.result.repo g).content with
          | none =>
            simp only [hb] at hend
            rw [hend] at hsucceeded
            cases hsucceeded
          | some b => exact ⟨b, hb, by rw [hfile, hb]; rfl⟩
        · cases hg
      rw [and_iff_left hown]
      exact forall₂_congr fun g hg => holdsNote_execute_iff hlands (hkept g hg)
    · obtain ⟨hbytes, hfailed⟩ := execute_of_not_lands rfl hlands
      rw [hfailed]
      simp only [Bool.false_eq_true, if_false, List.append_nil]
      refine iff_of_true (fun g hg => ?_) fun f' hf' hlands' => ?_
      · unfold HoldsNote
        rw [hbytes]
        exact hkept g hg
      · rw [hmutating, Option.some.injEq] at hf'
        exact absurd (hf' ▸ hlands') hlands

/-! ## The end of a cycle -/

theorem within_begin (orchestrator : Orchestrator) (repo : Text) (findings : List RepoFinding)
    (tree : Tree) : (begin orchestrator repo findings tree).Within u repo findings := by
  unfold begin Cycle.begin
  split
  · exact ⟨rfl, List.nil_subset _, .nil⟩
  · split
    · exact ⟨rfl, List.nil_subset _, .nil⟩
    · exact ⟨rfl, List.Subset.refl _, .nil⟩

theorem within_run (orchestrator : Orchestrator) (repo : Text) (findings : List RepoFinding)
    (tree : Tree) (turns : List Turn) :
    (Machine.run (step u m) (begin orchestrator repo findings tree) turns).Within u repo findings :=
  Machine.run_of_step (A := fun _ => True) (I := Within u repo findings)
    (fun _ turn _ hs => within_step hs turn) (within_begin orchestrator repo findings tree)
    fun _ _ => trivial

theorem kept_begin (orchestrator : Orchestrator) (repo : Text) (findings : List RepoFinding)
    (tree : Tree) : (begin orchestrator repo findings tree).Kept u m :=
  (kept_iff (within_begin _ _ _ _)).mpr fun _ h => nomatch h

/-- A note was lost for good: the cycle raised, or a different note went to the same file. -/
def Lost (u : UnicodeTables) (m : BoundedMutator) (s : NoteRun) : Prop :=
  s.cycle.phase = .raised ∧ ¬s.Kept u m
    ∨ ∃ f ∈ s.done, ∃ g ∈ s.done, Clash u m s.cycle.result.repo f g

theorem not_kept_of_lost (hs : s.Within u repo findings) (hlost : s.Lost u m) : ¬s.Kept u m := by
  rcases hlost with ⟨-, hlost⟩ | ⟨f, hf, g, hg, htarget, hcontent⟩
  · exact hlost
  · rw [kept_iff hs]
    intro hkept
    rw [hs.sameRepo] at htarget hcontent
    obtain ⟨bf, hbf, hfile⟩ := hkept f hf
    obtain ⟨bg, hbg, hfile'⟩ := hkept g hg
    rw [htarget, hfile, Option.some.injEq] at hfile'
    exact hcontent (Py.encode_inj hbg (hfile' ▸ hbf))

theorem lost_step (hs : s.Lost u m) (turn : Turn) : (s.step u m turn).Lost u m := by
  rcases hs with ⟨hraised, hlost⟩ | ⟨f, hf, g, hg, hclash⟩
  · have hstep : s.step u m turn = s := by
      unfold step Cycle.mutating Cycle.advance
      simp only [hraised]
    rw [hstep]
    exact .inl ⟨hraised, hlost⟩
  · have hkeep : (s.step u m turn).cycle.result.repo = s.cycle.result.repo
        ∧ s.done ⊆ (s.step u m turn).done := by
      cases hmutating : s.cycle.mutating with
      | none =>
        unfold step
        simp only [hmutating]
        exact ⟨(Cycle.moves_advance _ _ _ _).repo, List.Subset.refl _⟩
      | some finding =>
        obtain ⟨hrepo, -, hdone⟩ := step_of_mutating (u := u) (m := m) hmutating turn
        exact ⟨hrepo, hdone ▸ List.subset_append_left _ _⟩
    exact .inr ⟨f, hkeep.2 hf, g, hkeep.2 hg, hkeep.1 ▸ hclash⟩

/-- Notes without `\r`: a step that clashes loses a note for good. -/
theorem lost_of_not_spares
    (hreturn : ∀ f ∈ findings, Py.carriageReturn ∉ (noteTask u repo f).content)
    (hs : s.Within u repo findings) (hkept : s.Kept u m) {turn : Turn}
    (h : ¬s.Spares u m turn) : (s.step u m turn).Lost u m := by
  have hlost : ¬(s.step u m turn).Kept u m := fun hkept' => h ((kept_step_iff hs hkept turn).mp hkept')
  unfold Spares at h
  push Not at h
  obtain ⟨f, hmutating, hlands, g, hg, hclash⟩ := h
  obtain ⟨hrepo, -, hdone⟩ := step_of_mutating (u := u) (m := m) hmutating turn
  have hend := (execute_of_lands rfl hlands).2
  split at hend
  · refine .inl ⟨?_, hlost⟩
    unfold step
    simp only [hmutating, hend]
    rw [Cycle.advance_of_raise hmutating rfl]
    rfl
  · obtain ⟨o, ho, -, hverified⟩ := hend
    have hnone : Py.carriageReturn ∉ (s.task u f).content := by
      rw [NoteRun.task, hs.sameRepo]
      exact hreturn f (hs.pending (Cycle.mem_pending_of_mutating hmutating))
    have hsucceeded : succeeded (m.execute s.tree (s.task u f)).1 = true := by
      rw [ho]
      exact hverified.trans (decide_eq_true hnone)
    rw [hsucceeded, if_pos rfl] at hdone
    refine .inr ⟨f, ?_, g, ?_, hrepo ▸ hclash⟩
    · rw [hdone]
      exact List.mem_append_right _ (List.mem_singleton.mpr rfl)
    · rw [hdone]
      exact List.mem_append_left _ hg

theorem ticksLeft_run (s : NoteRun) (turns : List Turn) :
    (Machine.run (step u m) s turns).cycle.ticksLeft ≤ s.cycle.ticksLeft - turns.length := by
  induction turns generalizing s with
  | nil => exact le_refl _
  | cons turn turns ih =>
    have hstep : (s.step u m turn).cycle.ticksLeft ≤ s.cycle.ticksLeft - 1 := by
      have hmoves : s.cycle.Moves (s.step u m turn).cycle := by
        unfold step
        split <;> exact Cycle.moves_advance _ _ _ _
      rcases hmoves.ticks with ⟨hzero, hsame⟩ | hlt
      · rw [hsame, hzero]
      · omega
    have htail := ih (s.step u m turn)
    rw [Machine.run_cons, List.length_cons]
    omega

/-- **A cycle ends** after three steps for each finding, and one more. -/
theorem ended_of_length (orchestrator : Orchestrator) (repo : Text) (findings : List RepoFinding)
    (tree : Tree) {turns : List Turn} (h : 3 * findings.length < turns.length) :
    let last := Machine.run (step u m) (begin orchestrator repo findings tree) turns
    last.cycle.phase = .returned ∨ last.cycle.phase = .raised := by
  have hbegin : (begin orchestrator repo findings tree).cycle.ticksLeft
      ≤ 3 * findings.length + 1 := by
    unfold begin Cycle.begin
    split
    · exact Nat.zero_le _
    · split
      · exact Nat.zero_le _
      · exact le_refl _
  refine Cycle.ended_of_ticksLeft ?_
  have hrun := ticksLeft_run (u := u) (m := m) (begin orchestrator repo findings tree) turns
  omega

/--
**Every executed finding has its note** in every state of a cycle exactly when no note that gets to
the write goes to the file of a different note that was executed before it. Where no note has a
`\r`, that is also exactly when each has its note at the end; and every cycle ends.
-/
theorem notes_kept_iff (u : UnicodeTables) (m : BoundedMutator) (orchestrator : Orchestrator)
    (repo : Text) (findings : List RepoFinding) (tree : Tree) (turns : List Turn) :
    let start := begin orchestrator repo findings tree
    let last := Machine.run (step u m) start turns
    (Machine.Always (step u m) (Kept u m) start turns
        ↔ Machine.EachStep (step u m) (Spares u m) start turns)
      ∧ ((∀ f ∈ findings, Py.carriageReturn ∉ (noteTask u repo f).content) →
        (last.Kept u m ↔ Machine.EachStep (step u m) (Spares u m) start turns))
      ∧ (3 * findings.length < turns.length →
        last.cycle.phase = .returned ∨ last.cycle.phase = .raised) := by
  intro start last
  have hwithin : start.Within u repo findings := within_begin orchestrator repo findings tree
  have hkept : start.Kept u m := kept_begin orchestrator repo findings tree
  have hstep : ∀ (s : NoteRun) (turn : Turn), True → s.Within u repo findings →
      (s.step u m turn).Within u repo findings := fun s turn _ hs => within_step hs turn
  refine ⟨?_, fun hreturn => ?_, ended_of_length orchestrator repo findings tree⟩
  · exact Machine.always_iff_eachStep hstep
      (fun s turn _ hs hkept => kept_step_iff hs hkept turn) hwithin hkept fun _ _ => trivial
  · exact Machine.run_iff_eachStep hstep
      (fun s turn _ hs hkept hspares => (kept_step_iff hs hkept turn).mpr hspares)
      (fun s turn _ hs hkept h => lost_of_not_spares hreturn hs hkept h)
      (fun s turn _ _ hlost => lost_step hlost turn)
      (fun s hs hlost => not_kept_of_lost hs hlost) hwithin hkept fun _ _ => trivial

/-! ### Two findings with one slug -/

def pathFinding : RepoFinding :=
  { repo := lit "forgekit", finding := lit "test core/run", kind := lit "test" }

def moduleFinding : RepoFinding :=
  { repo := lit "forgekit", finding := lit "test core.run", kind := lit "test" }

def repoMutator : BoundedMutator where
  repoRoot := [lit "repo"]

/-- The cycle over the two findings, with nothing in the repository. -/
def twinRun : NoteRun :=
  Machine.run (step Goals.asciiTables repoMutator)
    (begin { hasMutator := true } (lit "forgekit") [pathFinding, moduleFinding] fun _ => none)
    (List.replicate 7 {})

/-- **Both findings are executed, and one note is left**: the second one replaced the first. -/
theorem first_note_is_lost :
    twinRun.cycle.phase = .returned ∧ twinRun.cycle.result.executed.length = 2
      ∧ ¬twinRun.Kept Goals.asciiTables repoMutator := by
  have hrun : twinRun.cycle.phase = .returned ∧ twinRun.cycle.result.executed.length = 2
      ∧ twinRun.done = [pathFinding, moduleFinding] := by decide +kernel
  have hwithin : twinRun.Within Goals.asciiTables (lit "forgekit") [pathFinding, moduleFinding] :=
    within_run _ _ _ _ _
  have hclash : Clash Goals.asciiTables repoMutator (lit "forgekit") moduleFinding pathFinding :=
    ⟨by decide, by decide⟩
  obtain ⟨hreturned, hexecuted, hdone⟩ := hrun
  refine ⟨hreturned, hexecuted, not_kept_of_lost hwithin ?_⟩
  refine .inr ⟨moduleFinding, ?_, pathFinding, ?_, hwithin.sameRepo.symm ▸ hclash⟩
  · exact hdone.symm ▸ List.mem_cons_of_mem _ List.mem_cons_self
  · exact hdone.symm ▸ List.mem_cons_self

end NoteRun

end ForgeKit.Autopilot
