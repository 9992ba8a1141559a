import ForgeKit.Autopilot.Confinement
import ForgeKit.Autopilot.HonestWrite
import ForgeKit.Goals.ExecuteBridge
import ForgeKit.Lib.GitRepo

/-!
# Applying a packet on a repository (`execute_bridge`: the git helpers)

The bridge looks whether the note path is tracked, lets the mutator write, and adds and commits. A
refusal or a git error rolls the path back: out of the index when it was tracked, by deleting it
when it was not. The write, `git add` and `git commit` may each end in any way.

* `applyOnRepo` — one packet on a repository
* `atomic_iff` — when that is all or nothing
* `work_of_execute` — the runner's writes are writes in this sense
-/

namespace ForgeKit.Goals

open GitRepo (Repo Layer)
open Py (Text CodePoint lit)
open PosixPath (Location)
open Autopilot (ExecTask BoundedMutator)

/-! ## The task -/

/-- The tables of Unicode that Python's `isalnum` and `lower` look into. -/
structure UnicodeTables where
  isAlnum : CodePoint → Bool
  lower : Text → Text

/-- `_slug`. -/
def slug (u : UnicodeTables) (text : Text) : Text :=
  let dash := Py.ofChar '-'
  let s := ((u.lower text).map fun c => if u.isAlnum c = true then c else dash).take 40
  let s := (s.dropWhile (· = dash)).rdropWhile (· = dash)
  if s ≠ [] then s else lit "task"

/-- `_build_safe_task`. -/
def buildSafeTask (u : UnicodeTables) (pid finding : String) : ExecTask where
  action := .note
  relPath := lit "runs/forgekit/selfimprove/" ++ slug u (lit finding) ++ lit "-" ++ slug u (lit pid)
    ++ lit ".md"
  content := lit "# self-improvement note — packet " ++ lit pid ++ lit "\n\n- finding: "
    ++ lit finding ++ lit "\n- class: safe (internal-approved: PM→gateway→tech-lead + decision-lane)\n"
    ++ lit "- action: 안전 클래스 note 기록 (실제 bounded write · BoundedMutator 검증)\n"

/-- The path of a task in the repository. -/
def repoPath (task : ExecTask) : Location := PosixPath.names task.relPath

/-! ## Git -/

variable {Blob : Type*}

/-- How a bounded write ended, and what is at its target then. -/
structure BoundedWrite (Blob : Type*) where
  executed : Bool
  verified : Bool
  refusedReason : String := ""
  after : Option Blob

/-- How `git add` and `git commit` end; an error is what git prints. -/
structure GitOutcomes where
  addError : Option String := none
  commitError : Option String := none
  sha : String := ""

/-- `_git_rollback`. -/
def gitRollback (r : Repo Location Blob) (path : Location) (tracked : Bool) : Repo Location Blob :=
  if tracked = true then r.checkout path else r.setWork path none

/-- `_git_commit`. -/
def gitCommit [DecidableEq Blob] (r : Repo Location Blob) (path : Location) (o : GitOutcomes) :
    Except String String × Repo Location Blob :=
  match r.add path o.addError with
  | .error e => (.error ("git add 실패: " ++ PyText.strip e), r)
  | .ok r =>
    match r.commit o.commitError with
    | .error e => (.error ("git commit 실패: " ++ PyText.strip e), r)
    | .ok r => (.ok o.sha, r)

/-- The part of `_apply_real_execution` that touches the repository, with what it tells the rest. -/
def realRun [DecidableEq Blob] (r : Repo Location Blob) (path : Location) (w : BoundedWrite Blob) (o : GitOutcomes) :
    Option String × Except String String × Repo Location Blob :=
  let tracked := r.isTracked path
  let r := r.setWork path w.after
  if w.executed && w.verified then
    match gitCommit r path o with
    | (.ok sha, r) => (none, .ok sha, r)
    | (.error e, r) => (none, .error e, gitRollback r path tracked)
  else (some w.refusedReason, .ok "", gitRollback r path tracked)

/-- `_apply_real_execution` on a repository. -/
def applyOnRepo [DecidableEq Blob] (g : Goal) (pid finding approver : String) (a : GateAnswer) (now : String)
    (path : Location) (r : Repo Location Blob) (w : BoundedWrite Blob) (o : GitOutcomes) :
    Attempt × Repo Location Blob :=
  let run := realRun r path w o
  (applyRealExecution g pid finding approver
    { a with writeRefused := run.1, commit := run.2.1 } now, run.2.2)

/-! ## All or nothing -/

/-- A blocked attempt changed nothing; an executed one made one commit that changes the path. -/
def Atomic (path : Location) (r : Repo Location Blob) (result : Attempt × Repo Location Blob) : Prop :=
  (result.1.outcome = .blocked → r.Same result.2)
    ∧ (result.1.outcome = .executed → Repo.CommitsOnly path r result.2)

/-- `git add` goes through. -/
def AddSucceeds (path : Location) (r : Repo Location Blob) (w : BoundedWrite Blob)
    (o : GitOutcomes) : Prop :=
  o.addError = none ∧ (w.after.isSome = true ∨ (r.index path).isSome = true)

/-- `git commit` goes through: it is not stopped, and there is something to commit. -/
def CommitSucceeds (path : Location) (r : Repo Location Blob) (w : BoundedWrite Blob)
    (o : GitOutcomes) : Prop :=
  o.commitError = none ∧ Repo.setAt r.index path w.after ≠ r.head

/-- The write is verified and `git add` goes through. -/
def Staged (path : Location) (r : Repo Location Blob) (w : BoundedWrite Blob) (o : GitOutcomes) :
    Prop :=
  (w.executed = true ∧ w.verified = true) ∧ AddSucceeds path r w o

/-- When applying a packet is all or nothing. -/
structure AtomicWhen (path : Location) (r : Repo Location Blob) (w : BoundedWrite Blob)
    (o : GitOutcomes) : Prop where
  /-- Nothing else was staged. -/
  committed : Staged path r w o → CommitSucceeds path r w o → ∀ p, p ≠ path → r.index p = r.head p
  /-- The path was tracked, and staged and in place as it was written. -/
  stopped : Staged path r w o → ¬ CommitSucceeds path r w o →
    w.after.isSome = true ∧ r.work path = w.after ∧ r.index path = w.after
  /-- The file is as it is in the index, or it is in neither. -/
  refused : ¬ Staged path r w o → r.work path = r.index path

/-- A rollback before anything was staged: the path is what it was in the index. -/
theorem same_gitRollback_iff {r : Repo Location Blob} {path : Location} {b : Option Blob} :
    r.Same (gitRollback (r.setWork path b) path (r.isTracked path)) ↔ r.work path = r.index path := by
  have hwork : (gitRollback (r.setWork path b) path (r.isTracked path)).work
      = Repo.setAt r.work path (r.index path)
      ∧ (gitRollback (r.setWork path b) path (r.isTracked path)).index = r.index
      ∧ (gitRollback (r.setWork path b) path (r.isTracked path)).commits = r.commits := by
    unfold gitRollback Repo.isTracked
    cases hi : r.index path with
    | none =>
      rw [if_neg (by simp)]
      exact ⟨Repo.setAt_setAt _ _ _ _, rfl, rfl⟩
    | some a =>
      rw [if_pos Option.isSome_some]
      obtain ⟨hw, hidx, hc⟩ := Repo.checkout_of_some (r := r.setWork path b) hi
      exact ⟨hw.trans (Repo.setAt_setAt _ _ _ _), hidx, hc⟩
  unfold Repo.Same
  rw [hwork.1, hwork.2.1, hwork.2.2, Repo.setAt_eq_self_iff]
  exact ⟨fun h => h.1, fun h => ⟨h, rfl, rfl⟩⟩

/-- A rollback after the path was staged: the index keeps what was staged. -/
theorem same_gitRollback_staged_iff {r : Repo Location Blob} {path : Location} {b : Option Blob}
    (hadd : b.isSome = true ∨ (r.index path).isSome = true) :
    r.Same (gitRollback ((r.setWork path b).setIndex path b) path (r.isTracked path))
      ↔ b.isSome = true ∧ r.work path = b ∧ r.index path = b := by
  have hindex : (gitRollback ((r.setWork path b).setIndex path b) path (r.isTracked path)).index
      = Repo.setAt r.index path b := by
    unfold gitRollback Repo.checkout
    split
    · split <;> rfl
    · rfl
  constructor
  · rintro ⟨hwork, hidx, -⟩
    rw [hindex, Repo.setAt_eq_self_iff] at hidx
    have hsome : b.isSome = true := by
      rcases hadd with h | h
      · exact h
      · rwa [hidx] at h
    obtain ⟨a, rfl⟩ := Option.isSome_iff_exists.mp hsome
    refine ⟨rfl, ?_, hidx⟩
    have htracked : r.isTracked path = true := by rw [Repo.isTracked, hidx]; rfl
    rw [gitRollback, if_pos htracked,
      (Repo.checkout_of_some (r := (r.setWork path (some a)).setIndex path (some a))
        (Repo.setAt_self _ _ _)).1] at hwork
    exact Repo.setAt_eq_self_iff.mp ((Repo.setAt_setAt _ _ _ _).symm.trans hwork)
  · rintro ⟨hsome, hwork, hidx⟩
    obtain ⟨a, rfl⟩ := Option.isSome_iff_exists.mp hsome
    have htracked : r.isTracked path = true := by rw [Repo.isTracked, hidx]; rfl
    rw [gitRollback, if_pos htracked]
    obtain ⟨hw, hi, hc⟩ := Repo.checkout_of_some
      (r := (r.setWork path (some a)).setIndex path (some a)) (Repo.setAt_self _ _ _)
    refine ⟨hw.trans ?_, hi.trans (Repo.setAt_eq_self_iff.mpr hidx), hc⟩
    exact (Repo.setAt_setAt _ _ _ _).trans (Repo.setAt_eq_self_iff.mpr hwork)

/-! ### Outcomes -/

theorem outcome_refused (g : Goal) (pid finding approver : String) (a : GateAnswer) (now : String)
    {refused : String} (h : a.writeRefused = some refused) :
    (applyRealExecution g pid finding approver a now).outcome = .blocked := by
  simp only [applyRealExecution, h]

theorem outcome_commit (g : Goal) (pid finding approver : String) (a : GateAnswer) (now : String)
    (h : a.writeRefused = none) :
    (applyRealExecution g pid finding approver a now).outcome
      = if a.commit.isOk = true then .executed else .blocked := by
  simp only [applyRealExecution, h]
  cases a.commit <;> rfl

section

variable {g : Goal} {pid finding approver : String} {a : GateAnswer} {now : String}
variable {path : Location} {r : Repo Location Blob} {w : BoundedWrite Blob} {o : GitOutcomes}

/-- An attempt that is blocked is atomic when the repository is as before. -/
theorem atomic_of_blocked {result : Attempt × Repo Location Blob}
    (h : result.1.outcome = .blocked) : Atomic path r result ↔ r.Same result.2 := by
  unfold Atomic
  rw [h]
  simp

theorem atomic_of_executed {result : Attempt × Repo Location Blob}
    (h : result.1.outcome = .executed) : Atomic path r result ↔ Repo.CommitsOnly path r result.2 := by
  unfold Atomic
  rw [h]
  simp

theorem add_setWork (hadd : AddSucceeds path r w o) :
    (r.setWork path w.after).add path o.addError
      = .ok ((r.setWork path w.after).setIndex path w.after) := by
  obtain ⟨herror, hsome⟩ := hadd
  have hwork : (r.setWork path w.after).work path = w.after := Repo.setAt_self _ _ _
  have hindex : (r.setWork path w.after).index path = r.index path := rfl
  unfold Repo.add
  rw [herror, hwork, hindex]
  refine if_neg ?_
  rcases hsome with h | h <;> simp [Option.isSome_iff_ne_none.mp h]

theorem add_fails (hadd : ¬ AddSucceeds path r w o) :
    ∃ e, (r.setWork path w.after).add path o.addError = .error e := by
  unfold Repo.add
  cases herror : o.addError with
  | some e => exact ⟨e, rfl⟩
  | none =>
    have hno : ¬ (w.after.isSome = true ∨ (r.index path).isSome = true) := fun h => hadd ⟨herror, h⟩
    rw [not_or, Bool.not_eq_true, Bool.not_eq_true, Option.isSome_eq_false_iff,
      Option.isSome_eq_false_iff] at hno
    have hwork : (r.setWork path w.after).work path = w.after := Repo.setAt_self _ _ _
    have hindex : (r.setWork path w.after).index path = r.index path := rfl
    simp only [hwork, hindex, hno.1, hno.2, Bool.and_self, if_true]
    exact ⟨_, rfl⟩

/-- **What a commit that goes through publishes.** -/
theorem commitsOnly_iff [DecidableEq Blob] {r' : Repo Location Blob}
    (h : ((r.setWork path w.after).setIndex path w.after).commit o.commitError = .ok r') :
    Repo.CommitsOnly path r r' ↔ ∀ p, p ≠ path → r.index p = r.head p := by
  obtain ⟨-, -, hcommits, hne⟩ := Repo.commit_ok h
  have hcommits : r'.commits = Repo.setAt r.index path w.after :: r.commits := hcommits
  have hne : Repo.setAt r.index path w.after ≠ r.head := hne
  have hhead : r'.head = Repo.setAt r.index path w.after := by
    unfold Repo.head
    rw [hcommits]
    rfl
  unfold Repo.CommitsOnly
  rw [hhead, hcommits]
  constructor
  · rintro ⟨-, -, honly⟩ p hp
    by_contra hdiff
    refine hp ((honly p).mp ?_)
    rwa [Repo.setAt_of_ne hp]
  · intro hsame
    refine ⟨rfl, List.cons_ne_nil _ _, fun p => ?_⟩
    by_cases hp : p = path
    · subst hp
      refine iff_of_true (fun he => hne ?_) rfl
      funext q
      by_cases hq : q = p
      · rw [hq]; exact he
      · rw [Repo.setAt_of_ne hq, hsame q hq]
    · refine iff_of_false ?_ hp
      rw [not_not, Repo.setAt_of_ne hp, hsame p hp]

theorem commit_isOk_iff [DecidableEq Blob] :
    (∃ r', ((r.setWork path w.after).setIndex path w.after).commit o.commitError = .ok r')
      ↔ CommitSucceeds path r w o := by
  unfold CommitSucceeds Repo.commit
  cases o.commitError with
  | some e => simp
  | none =>
    have hclean := Repo.isClean_iff ((r.setWork path w.after).setIndex path w.after)
    have hclean : ((r.setWork path w.after).setIndex path w.after).isClean = true
        ↔ Repo.setAt r.index path w.after = r.head := hclean
    by_cases hc : Repo.setAt r.index path w.after = r.head
    · simp [hclean.mpr hc, hc]
    · simp only [mt hclean.mp hc, true_and, hc, not_false_eq_true, ne_eq, iff_true]
      exact ⟨_, rfl⟩

end

/--
**Applying a packet is all or nothing exactly when** the path and the index are in order before
it: no commit takes other staged files along, and no rollback meets a file that differs from the
index.
-/
theorem atomic_iff [DecidableEq Blob] (u : UnicodeTables) (g : Goal) (pid finding approver : String) (a : GateAnswer)
    (now : String) (r : Repo Location Blob) (w : BoundedWrite Blob) (o : GitOutcomes) :
    Atomic (repoPath (buildSafeTask u pid finding)) r
        (applyOnRepo g pid finding approver a now (repoPath (buildSafeTask u pid finding)) r w o)
      ↔ AtomicWhen (repoPath (buildSafeTask u pid finding)) r w o := by
  generalize repoPath (buildSafeTask u pid finding) = path
  by_cases hw : w.executed = true ∧ w.verified = true
  · by_cases hadd : AddSucceeds path r w o
    · have hstaged : Staged path r w o := ⟨hw, hadd⟩
      by_cases hcommit : CommitSucceeds path r w o
      · obtain ⟨r', hr'⟩ := commit_isOk_iff.mpr hcommit
        have hrun : realRun r path w o = (none, .ok o.sha, r') := by
          simp only [realRun, hw.1, hw.2, Bool.and_self, if_true, gitCommit, add_setWork hadd, hr']
        unfold applyOnRepo
        rw [hrun, atomic_of_executed (by rw [outcome_commit _ _ _ _ _ _ rfl]; rfl),
          commitsOnly_iff hr']
        exact ⟨fun h => ⟨fun _ _ => h, fun _ hno => absurd hcommit hno,
          fun hno => absurd hstaged hno⟩, fun h => h.committed hstaged hcommit⟩
      · obtain ⟨e, he⟩ : ∃ e, ((r.setWork path w.after).setIndex path w.after).commit o.commitError
            = .error e := by
          cases hc : ((r.setWork path w.after).setIndex path w.after).commit o.commitError with
          | error e => exact ⟨e, rfl⟩
          | ok r' => exact absurd (commit_isOk_iff.mp ⟨r', hc⟩) hcommit
        have hrun : realRun r path w o = (none, .error ("git commit 실패: " ++ PyText.strip e),
            gitRollback ((r.setWork path w.after).setIndex path w.after) path (r.isTracked path)) := by
          simp only [realRun, hw.1, hw.2, Bool.and_self, if_true, gitCommit, add_setWork hadd, he]
        unfold applyOnRepo
        rw [hrun, atomic_of_blocked (by rw [outcome_commit _ _ _ _ _ _ rfl]; rfl),
          same_gitRollback_staged_iff hadd.2]
        exact ⟨fun h => ⟨fun _ hc => absurd hc hcommit, fun _ _ => h,
          fun hno => absurd hstaged hno⟩, fun h => h.stopped hstaged hcommit⟩
    · obtain ⟨e, he⟩ := add_fails hadd
      have hstaged : ¬ Staged path r w o := fun h => hadd h.2
      have hrun : realRun r path w o = (none, .error ("git add 실패: " ++ PyText.strip e),
          gitRollback (r.setWork path w.after) path (r.isTracked path)) := by
        simp only [realRun, hw.1, hw.2, Bool.and_self, if_true, gitCommit, he]
      unfold applyOnRepo
      rw [hrun, atomic_of_blocked (by rw [outcome_commit _ _ _ _ _ _ rfl]; rfl),
        same_gitRollback_iff]
      exact ⟨fun h => ⟨fun hs => absurd hs hstaged, fun hs => absurd hs hstaged, fun _ => h⟩,
        fun h => h.refused hstaged⟩
  · have hstaged : ¬ Staged path r w o := fun h => hw h.1
    have hrun : realRun r path w o = (some w.refusedReason, .ok "",
        gitRollback (r.setWork path w.after) path (r.isTracked path)) := by
      have hnot : (w.executed && w.verified) = false := by simpa using hw
      simp only [realRun, hnot, Bool.false_eq_true, if_false]
    unfold applyOnRepo
    rw [hrun, atomic_of_blocked (outcome_refused _ _ _ _ _ _ rfl), same_gitRollback_iff]
    exact ⟨fun h => ⟨fun hs => absurd hs hstaged, fun hs => absurd hs hstaged, fun _ => h⟩,
      fun h => h.refused hstaged⟩

/-- Tables for ASCII letters and digits. -/
def asciiTables : UnicodeTables where
  isAlnum c := (0x30 ≤ c.val && c.val ≤ 0x39) || (0x61 ≤ c.val && c.val ≤ 0x7A)
  lower := fun text => text

/-- An untracked file at one path, and nothing else. -/
def untracked (path : Location) (content : String) : Repo Location String where
  work := fun p => if p = path then some content else none
  index := fun _ => none
  commits := []
  paths := [path]
  complete := fun p hp => by
    rw [List.mem_singleton] at hp
    exact ⟨if_neg hp, rfl, by simp⟩

/-- The note is there and untracked: the runner has nothing to write, and the rollback deletes it. -/
theorem untracked_note_deleted :
    ¬ Atomic (repoPath (buildSafeTask asciiTables "p1" "lint"))
      (untracked (repoPath (buildSafeTask asciiTables "p1" "lint")) "note")
      (applyOnRepo { id := "goal-1", title := "t" } "p1" "lint" "operator" {} "t1"
        (repoPath (buildSafeTask asciiTables "p1" "lint"))
        (untracked (repoPath (buildSafeTask asciiTables "p1" "lint")) "note")
        { executed := false, verified := false, refusedReason := "변경 없음 (no-op)", after := some "note" }
        {}) := by
  rintro ⟨hblocked, -⟩
  have hwork := congrFun (hblocked rfl).1 (repoPath (buildSafeTask asciiTables "p1" "lint"))
  revert hwork
  decide +kernel

/-! ## The runner's writes -/

/-- The files below the root of a mutator. -/
def workOf (m : BoundedMutator) (t : FileTree.Tree) : Layer Location ByteArray :=
  fun path => FileTree.bytesAt t (m.repoRoot ++ path)

/--
**The runner's writes are bounded writes**: whatever its task and however it ends, the files of the
repository are as before but for what is at the path of the task.
-/
theorem work_of_execute (m : BoundedMutator) (t : FileTree.Tree) (task : ExecTask) :
    workOf m (m.execute t task).2
      = Repo.setAt (workOf m t) (repoPath task)
          (FileTree.bytesAt (m.execute t task).2 (m.repoRoot ++ repoPath task)) := by
  funext path
  by_cases hpath : path = repoPath task
  · rw [hpath, Repo.setAt_self]
    rfl
  · rw [Repo.setAt_of_ne hpath]
    by_cases hvalid : (m.validate task).1 = true
    · refine Autopilot.execute_of_ne ?_
      rw [Autopilot.target_of_validate hvalid]
      exact fun h => hpath (List.append_cancel_left h)
    · rw [Bool.not_eq_true] at hvalid
      have hsame : (m.execute t task).2 = t := by
        simp only [BoundedMutator.execute, BoundedMutator.plan, hvalid, if_true]
      rw [hsame]

end ForgeKit.Goals
