import Mathlib.Data.List.Basic

/-!
# A repository as working tree, index and commits

Each of the three layers says what is at a path. A command that fails for a reason of its own (a
lock, a hook, the configuration) changes nothing, so a command takes its error as an argument.

* `add`, `commit`, `checkout` — the commands
* `commit_ok` — a commit publishes the whole index
-/

namespace GitRepo

/-- What is at each path. -/
abbrev Layer (Path Blob : Type*) := Path → Option Blob

/-- A repository; the newest commit comes first. -/
structure Repo (Path Blob : Type*) where
  work : Layer Path Blob
  index : Layer Path Blob
  commits : List (Layer Path Blob)
  /-- The paths that anything is at. -/
  paths : List Path
  complete : ∀ p, p ∉ paths → work p = none ∧ index p = none ∧ ∀ c ∈ commits, c p = none

variable {Path Blob : Type*}

namespace Repo

/-- The tree of `HEAD`; empty before the first commit. -/
def head (r : Repo Path Blob) : Layer Path Blob := r.commits.headD fun _ => none

theorem head_of_notMem (r : Repo Path Blob) {p : Path} (h : p ∉ r.paths) : r.head p = none := by
  unfold head
  cases hc : r.commits with
  | nil => rfl
  | cons c cs => exact (r.complete p h).2.2 c (by rw [hc]; exact List.mem_cons_self)

variable [DecidableEq Path]

/-- A layer with something else at one path. -/
def setAt (l : Layer Path Blob) (p : Path) (b : Option Blob) : Layer Path Blob :=
  fun q => if q = p then b else l q

@[simp] theorem setAt_self (l : Layer Path Blob) (p : Path) (b : Option Blob) :
    setAt l p b p = b := if_pos rfl

theorem setAt_of_ne {p q : Path} (h : q ≠ p) (l : Layer Path Blob) (b : Option Blob) :
    setAt l p b q = l q := if_neg h

theorem setAt_eq_self_iff {l : Layer Path Blob} {p : Path} {b : Option Blob} :
    setAt l p b = l ↔ l p = b := by
  constructor
  · intro h
    rw [← h, setAt_self]
  · rintro rfl
    funext q
    by_cases hq : q = p
    · rw [hq, setAt_self]
    · exact setAt_of_ne hq l _

@[simp] theorem setAt_setAt (l : Layer Path Blob) (p : Path) (b b' : Option Blob) :
    setAt (setAt l p b) p b' = setAt l p b' := by
  funext q
  by_cases hq : q = p
  · rw [hq, setAt_self, setAt_self]
  · rw [setAt_of_ne hq, setAt_of_ne hq, setAt_of_ne hq]

/-- A program writes or removes a file of the working tree. -/
def setWork (r : Repo Path Blob) (p : Path) (b : Option Blob) : Repo Path Blob where
  work := setAt r.work p b
  index := r.index
  commits := r.commits
  paths := p :: r.paths
  complete := by
    intro q hq
    rw [List.mem_cons, not_or] at hq
    exact ⟨(setAt_of_ne hq.1 r.work b).trans (r.complete q hq.2).1, (r.complete q hq.2).2⟩

def setIndex (r : Repo Path Blob) (p : Path) (b : Option Blob) : Repo Path Blob where
  work := r.work
  index := setAt r.index p b
  commits := r.commits
  paths := p :: r.paths
  complete := by
    intro q hq
    rw [List.mem_cons, not_or] at hq
    obtain ⟨hwork, hindex, hcommits⟩ := r.complete q hq.2
    exact ⟨hwork, (setAt_of_ne hq.1 r.index b).trans hindex, hcommits⟩

/-- `git ls-files --error-unmatch -- p` succeeds. -/
def isTracked (r : Repo Path Blob) (p : Path) : Bool := (r.index p).isSome

/-- `git add -- p`: the file, or its removal, is staged; a path that is nowhere is an error. -/
def add (r : Repo Path Blob) (p : Path) (error : Option String) : Except String (Repo Path Blob) :=
  match error with
  | some e => .error e
  | none =>
    if (r.work p).isNone && (r.index p).isNone then .error "pathspec did not match any files"
    else .ok (r.setIndex p (r.work p))

/-- The index is what `HEAD` holds. -/
def isClean [DecidableEq Blob] (r : Repo Path Blob) : Bool := r.paths.all fun p => r.index p = r.head p

theorem isClean_iff [DecidableEq Blob] (r : Repo Path Blob) : r.isClean = true ↔ r.index = r.head := by
  simp only [isClean, List.all_eq_true, decide_eq_true_eq]
  constructor
  · intro h
    funext p
    by_cases hp : p ∈ r.paths
    · exact h p hp
    · rw [(r.complete p hp).2.1, r.head_of_notMem hp]
  · exact fun h p _ => congrFun h p

/-- `git commit`: the whole index becomes a commit. -/
def commit [DecidableEq Blob] (r : Repo Path Blob) (error : Option String) : Except String (Repo Path Blob) :=
  match error with
  | some e => .error e
  | none =>
    if r.isClean = true then .error "nothing to commit"
    else .ok { r with
      commits := r.index :: r.commits
      complete := fun p hp => by
        obtain ⟨hwork, hindex, hcommits⟩ := r.complete p hp
        refine ⟨hwork, hindex, fun c hc => ?_⟩
        rcases List.mem_cons.mp hc with rfl | hc
        · exact hindex
        · exact hcommits c hc }

/-- `git checkout -- p`: the file as it is in the index; a path that is not there is an error. -/
def checkout (r : Repo Path Blob) (p : Path) : Repo Path Blob :=
  match r.index p with
  | some b => r.setWork p (some b)
  | none => r

/-! ## What the commands change -/

/-- The same files, the same index and the same commits. -/
def Same (r r' : Repo Path Blob) : Prop :=
  r'.work = r.work ∧ r'.index = r.index ∧ r'.commits = r.commits

/-- `r'` has one commit more than `r`, and the commit differs from its parent in `p` alone. -/
def CommitsOnly (p : Path) (r r' : Repo Path Blob) : Prop :=
  r'.commits.tail = r.commits ∧ r'.commits ≠ [] ∧ ∀ q, r'.head q ≠ r.head q ↔ q = p

theorem checkout_of_some {r : Repo Path Blob} {p : Path} {b : Blob} (h : r.index p = some b) :
    (r.checkout p).work = setAt r.work p (some b) ∧ (r.checkout p).index = r.index
      ∧ (r.checkout p).commits = r.commits := by
  simp only [checkout, h]
  exact ⟨rfl, rfl, rfl⟩

/-- What a commit that goes through publishes: the index, which is not what `HEAD` held. -/
theorem commit_ok [DecidableEq Blob] {r r' : Repo Path Blob} {error : Option String} (h : r.commit error = .ok r') :
    r'.work = r.work ∧ r'.index = r.index ∧ r'.commits = r.index :: r.commits
      ∧ r.index ≠ r.head := by
  unfold commit at h
  split at h
  · cases h
  · split at h
    · cases h
    · next hclean =>
      cases h
      exact ⟨rfl, rfl, rfl, fun he => hclean (r.isClean_iff.mpr he)⟩

end Repo

end GitRepo
