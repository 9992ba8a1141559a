import Mathlib.Data.Set.Basic
import ForgeKit.Lib.ParseOptions
import ForgeKit.Lib.PosixPath

/-!
# What git makes of a command line

The grammar of git that the guard is up against: options before the subcommand, which may lead to
another repository, and the options and pathspecs of `add` and `commit`. Which files a list of
pathspecs selects, and what a file of pathspecs holds, are parameters.

* `target_of_plain` — without options before the subcommand git acts on the repository that it finds
* `stagesAll_iff` — the command lines that stage every tracked file of any tree
-/

namespace ForgeKit

namespace GitSafety

open Py (Text)
open PosixPath (Location)
open ParseOptions (OptionSpec Item Arity)

/-! ## Directories and repositories -/

/-- A path from the root of the file system. -/
def render (loc : Location) : Text := PosixPath.slash :: [PosixPath.slash].intercalate loc

/-- The file system, as far as paths and repositories go. -/
structure FileSystem where
  /-- `Path.resolve`, from a working directory, through symbolic links. -/
  resolve : Location → Text → Location
  exists_ : Location → Bool
  /-- The directory has a `.git` that git takes for a repository. -/
  isRepository : Location → Bool
  /-- What a path resolves to is its own path. -/
  stable : ∀ dir dir' t, resolve dir (render (resolve dir' t)) = resolve dir' t

/-- A directory and those above it, from the inside out. -/
def outward (loc : Location) : List Location := loc.inits.reverse

/-- The repository that git finds from a directory. -/
def FileSystem.discover (fs : FileSystem) (cwd : Location) : Option Location :=
  (outward cwd).find? fs.isRepository

/-! ## Options before the subcommand -/

inductive GlobalOption where
  /-- `-C`. -/
  | chdir (dir : Text)
  | gitDir (dir : Text)
  | workTree (dir : Text)
  | bare
  /-- `-c` and `--config-env`. -/
  | config (setting : Text)
  | other
deriving DecidableEq

/-- The options whose value is the next token. -/
def globalWithValue (t : Text) : Option (Text → GlobalOption) :=
  if t = Py.lit "-C" then some .chdir
  else if t = Py.lit "-c" ∨ t = Py.lit "--config-env" then some .config
  else if t = Py.lit "--git-dir" then some .gitDir
  else if t = Py.lit "--work-tree" then some .workTree
  else if t = Py.lit "--namespace" ∨ t = Py.lit "--attr-source" then some fun _ => .other
  else none

/-- The options that stand in one token. -/
def globalFlags : List String :=
  ["-p", "--paginate", "-P", "--no-pager", "--no-replace-objects", "--no-lazy-fetch",
    "--no-optional-locks", "--no-advice", "--literal-pathspecs", "--glob-pathspecs",
    "--noglob-pathspecs", "--icase-pathspecs", "--exec-path", "--html-path", "--man-path",
    "--info-path", "-h", "--help", "-v", "--version"]

/-- The rest of a token behind a literal. -/
def after (literal : String) (t : Text) : Option Text :=
  if Py.startsWith t (Py.lit literal) then some (t.drop (Py.lit literal).length) else none

/-- An option that stands in one token. -/
def globalToken (t : Text) : Option GlobalOption :=
  if globalFlags.any fun flag => t = Py.lit flag then some .other
  else if t = Py.lit "--bare" then some .bare
  else
    ((after "--git-dir=" t).map .gitDir).or <| ((after "--work-tree=" t).map .workTree).or <|
      ((after "--config-env=" t).map .config).or <| ((after "--namespace=" t).map fun _ => .other).or <|
      ((after "--attr-source=" t).map fun _ => .other).or <|
      (after "--exec-path=" t).map fun _ => .other

/-- The options before the subcommand, from a token on, and the tokens from the subcommand on. -/
def readGlobals : Option (Text → GlobalOption) → List Text → Option (List GlobalOption × List Text)
  | none, [] => some ([], [])
  | some _, [] => none
  | some option, t :: ts => (readGlobals none ts).map fun read => (option t :: read.1, read.2)
  | none, t :: ts =>
    if t.head? ≠ some ParseOptions.dash then some ([], t :: ts)
    else
      match globalWithValue t with
      | some option => readGlobals (some option) ts
      | none =>
        match globalToken t with
        | some option => (readGlobals none ts).map fun read => (option :: read.1, read.2)
        | none => none

/-- The value of `core.worktree` in a setting. -/
def worktreeSetting (setting : Text) : Option Text :=
  if Py.lower (setting.takeWhile (· ≠ ParseOptions.equals)) = Py.lit "core.worktree"
  then some (setting.drop 14)
  else none

/-- The last option that gives a value. -/
def lastValue {α : Type*} (read : GlobalOption → Option α) (globals : List GlobalOption) : Option α :=
  (globals.filterMap read).getLast?

/-- What a command acts on. -/
structure Target where
  gitDir : Location
  workTree : Option Location
deriving DecidableEq

/-- The repository at a directory. -/
def repositoryAt (root : Location) : Target := ⟨root ++ [Py.lit ".git"], some root⟩

namespace FileSystem

variable (fs : FileSystem)

/-- The directory that the options lead to. -/
def cwdAfter (cwd : Location) (globals : List GlobalOption) : Location :=
  globals.foldl (fun dir option => match option with
    | .chdir p => if p = [] then dir else fs.resolve dir p
    | _ => dir) cwd

/-- The repository that a command acts on, if git finds one. -/
def target (cwd : Location) (globals : List GlobalOption) : Option Target :=
  let dir := fs.cwdAfter cwd globals
  let workTree := (lastValue (fun | .workTree p => some p | _ => none) globals).map (fs.resolve dir)
  let isBare := globals.any fun option => option = .bare
  match lastValue (fun | .gitDir p => some p | _ => none) globals with
  | some p => some ⟨fs.resolve dir p, workTree.or (if isBare then none else some dir)⟩
  | none =>
    if isBare then some ⟨dir, workTree⟩
    else
      (fs.discover dir).map fun root =>
        let gitDir := root ++ [Py.lit ".git"]
        let configured := (lastValue (fun | .config s => worktreeSetting s | _ => none) globals).map
          (fs.resolve gitDir)
        ⟨gitDir, workTree.or (configured.or (some root))⟩

end FileSystem

/-! ## `add` -/

inductive AddOption where
  | dryRun
  /-- `--interactive`, `--patch` and `--edit`: somebody chooses. -/
  | choose
  | update
  | all
  | ignoreRemoval
  | refresh
  | fromFile
  | other
deriving DecidableEq

def option (name : AddOption) (short : Option Char) (long : String) (arity : Arity := .flag) :
    OptionSpec AddOption :=
  ⟨name, short.map Py.ofChar, some (Py.lit long), arity⟩

def addOptions : List (OptionSpec AddOption) :=
  [option .dryRun (some 'n') "dry-run", option .other (some 'v') "verbose",
    option .choose (some 'i') "interactive", option .choose (some 'p') "patch",
    option .choose (some 'e') "edit", option .other (some 'f') "force",
    option .update (some 'u') "update", option .other none "renormalize",
    option .other (some 'N') "intent-to-add", option .all (some 'A') "all",
    option .ignoreRemoval none "ignore-removal", option .refresh none "refresh",
    option .other none "ignore-errors", option .other none "ignore-missing",
    option .other none "sparse", option .other none "chmod" .required,
    option .fromFile none "pathspec-from-file" .required, option .other none "pathspec-file-nul"]

/-- The options of `commit` under the names that matter here. -/
def commitOptions : List (OptionSpec AddOption) :=
  [option .other (some 'q') "quiet", option .other (some 'v') "verbose",
    option .other (some 'F') "file" .required, option .other none "author" .required,
    option .other none "date" .required, option .other (some 'm') "message" .required,
    option .other (some 'c') "reedit-message" .required,
    option .other (some 'C') "reuse-message" .required, option .other none "fixup" .required,
    option .other none "squash" .required, option .other none "reset-author",
    option .other none "trailer" .required, option .other (some 's') "signoff",
    option .other (some 't') "template" .required, option .other (some 'e') "edit",
    option .other none "cleanup" .required, option .other none "status",
    option .other (some 'S') "gpg-sign" .attached, option .all (some 'a') "all",
    option .other (some 'i') "include", option .choose none "interactive",
    option .choose (some 'p') "patch", option .other (some 'o') "only",
    option .other (some 'n') "no-verify", option .dryRun none "dry-run", option .dryRun none "short",
    option .other none "branch", option .other none "ahead-behind", option .dryRun none "porcelain",
    option .dryRun none "long", option .other (some 'z') "null", option .other none "amend",
    option .other none "no-post-rewrite", option .other (some 'u') "untracked-files" .attached,
    option .fromFile none "pathspec-from-file" .required, option .other none "pathspec-file-nul",
    option .other none "allow-empty", option .other none "allow-empty-message"]

/-- What `add` or `commit` is asked for. -/
structure StageRequest where
  dryRun : Bool := false
  choose : Bool := false
  update : Bool := false
  all : Bool := false
  refresh : Bool := false
  /-- The pathspecs, those of a file included. -/
  specs : List Text := []

/-- What git does with paths that is not part of its grammar. -/
structure Pathspecs where
  /-- The pathspecs, read from a directory, select the file. -/
  selects : Location → List Text → Location → Prop
  /-- The pathspecs in a file. -/
  ofFile : Text → List Text

/-- What one item asks for; the last of several options counts. -/
def StageRequest.read (paths : Pathspecs) (r : StageRequest) : Item AddOption → StageRequest
  | .option .dryRun _ => { r with dryRun := true }
  | .negated .dryRun => { r with dryRun := false }
  | .option .choose _ => { r with choose := true }
  | .negated .choose => { r with choose := false }
  | .option .update _ => { r with update := true }
  | .negated .update => { r with update := false }
  | .option .all _ => { r with all := true }
  | .negated .all => { r with all := false }
  | .option .ignoreRemoval _ => { r with all := false }
  | .negated .ignoreRemoval => { r with all := true }
  | .option .refresh _ => { r with refresh := true }
  | .negated .refresh => { r with refresh := false }
  | .option .fromFile (some file) => { r with specs := r.specs ++ paths.ofFile file }
  | .positional t => { r with specs := r.specs ++ [t] }
  | _ => r

/-- The commands that stage files. -/
inductive StageCommand where
  | add
  | commit
deriving DecidableEq

/-- The subcommands that stage files; `stage` is another name of `add`. -/
def stageCommand (sub : Text) : Option StageCommand :=
  if sub = Py.lit "add" ∨ sub = Py.lit "stage" then some .add
  else if sub = Py.lit "commit" then some .commit
  else none

def StageCommand.options : StageCommand → List (OptionSpec AddOption)
  | .add => addOptions
  | .commit => commitOptions

/-- What the tokens behind the subcommand ask for; `none` where git refuses them. -/
def StageCommand.request (command : StageCommand) (paths : Pathspecs) (tokens : List Text) :
    Option StageRequest :=
  (ParseOptions.readItems command.options none tokens).map fun items =>
    items.foldl (StageRequest.read paths) {}

/-- The changed files of a working tree. -/
structure WorkTree where
  tracked : Set Location
  untracked : Set Location

/-- The request runs by itself and its options agree: `add` refuses `-A` with `-u`, and `commit`
refuses `-a` with pathspecs. -/
def StageRequest.runs (command : StageCommand) (r : StageRequest) : Bool :=
  match command with
  | .add => !r.dryRun && !r.choose && !r.refresh && !(r.all && r.update)
  | .commit => !r.dryRun && !r.choose && !(r.all && !decide (r.specs = []))

/-- The files that the command stages. -/
def StageCommand.staged (command : StageCommand) (paths : Pathspecs) (cwd : Location)
    (r : StageRequest) (tree : WorkTree) : Set Location :=
  if r.runs command = false then ∅
  else
    match command with
    | .add =>
      if r.specs = [] then
        if r.all then tree.tracked ∪ tree.untracked else if r.update then tree.tracked else ∅
      else
        {p | paths.selects cwd r.specs p ∧ (p ∈ tree.tracked ∨ r.update = false ∧ p ∈ tree.untracked)}
    | .commit =>
      if r.specs = [] then if r.all then tree.tracked else ∅
      else {p | paths.selects cwd r.specs p ∧ p ∈ tree.tracked}

/-- Whatever the tree, all of its tracked files are staged. -/
def StagesAll (command : StageCommand) (paths : Pathspecs) (cwd : Location) (r : StageRequest) : Prop :=
  ∀ tree : WorkTree, tree.tracked ⊆ command.staged paths cwd r tree

/-! ## The command lines that stage everything -/

/-- The options ask for the whole tree. -/
def StageRequest.asksAll (command : StageCommand) (r : StageRequest) : Bool :=
  match command with
  | .add => r.all || r.update
  | .commit => r.all

theorem exists_tracked : ∃ tree : WorkTree, ¬tree.tracked = ∅ :=
  ⟨⟨{[]}, ∅⟩, Set.nonempty_iff_ne_empty.mp ⟨[], rfl⟩⟩

/-- A selection holds all tracked files of every tree only when it holds every file. -/
theorem all_subset_selected_iff {selects : Location → Prop} {kind : WorkTree → Location → Prop}
    (hkind : ∀ tree p, p ∈ tree.tracked → kind tree p) :
    (∀ tree : WorkTree, tree.tracked ⊆ {p | selects p ∧ kind tree p}) ↔ ∀ p, selects p :=
  ⟨fun h p => (h ⟨{p}, ∅⟩ rfl).1, fun h tree p hp => ⟨h p, hkind tree p hp⟩⟩

/-- **The requests that stage every tracked file of any tree**: the options ask for the whole tree and
no pathspec restricts them, or the pathspecs select every file. -/
theorem stagesAll_iff {command : StageCommand} {paths : Pathspecs} {cwd : Location}
    {r : StageRequest} :
    StagesAll command paths cwd r
      ↔ r.runs command = true
        ∧ (r.specs = [] ∧ r.asksAll command = true
          ∨ r.specs ≠ [] ∧ ∀ p, paths.selects cwd r.specs p) := by
  unfold StagesAll StageCommand.staged StageRequest.asksAll
  cases hruns : r.runs command with
  | false => simpa using exists_tracked
  | true =>
    simp only [Bool.true_eq_false, if_false, true_and]
    cases command with
    | add =>
      by_cases hspecs : r.specs = []
      · cases hall : r.all with
        | true => simp [hspecs, Set.subset_union_left]
        | false => cases hupdate : r.update <;> simp [hspecs, exists_tracked]
      · simp only [hspecs, if_false, false_and, false_or, ne_eq, not_false_eq_true, true_and]
        exact all_subset_selected_iff fun tree p hp => .inl hp
    | commit =>
      by_cases hspecs : r.specs = []
      · cases hall : r.all <;> simp [hspecs, exists_tracked]
      · simp only [hspecs, if_false, false_and, false_or, ne_eq, not_false_eq_true, true_and]
        exact all_subset_selected_iff fun tree p hp => hp

/-! ## Options before the subcommand that change nothing -/

/-- Options that leave the directory and the repository alone. -/
def GlobalOption.isPlain : GlobalOption → Bool
  | .other => true
  | .config setting => (worktreeSetting setting).isNone
  | _ => false

theorem lastValue_of_plain {α : Type*} {read : GlobalOption → Option α} {globals : List GlobalOption}
    (h : ∀ option ∈ globals, read option = none) : lastValue read globals = none := by
  unfold lastValue
  rw [List.filterMap_eq_nil_iff.mpr h]
  rfl

/-- **With plain options before the subcommand** git acts on the repository that it finds. -/
theorem target_of_plain {fs : FileSystem} {cwd : Location} {globals : List GlobalOption}
    (h : ∀ option ∈ globals, option.isPlain = true) :
    fs.target cwd globals = (fs.discover cwd).map repositoryAt := by
  have hcwd : fs.cwdAfter cwd globals = cwd := by
    unfold FileSystem.cwdAfter
    induction globals with
    | nil => rfl
    | cons option globals ih =>
      have hoption := h option List.mem_cons_self
      rw [List.foldl_cons]
      cases option with
      | other => exact ih fun o ho => h o (List.mem_cons_of_mem _ ho)
      | config setting => exact ih fun o ho => h o (List.mem_cons_of_mem _ ho)
      | chdir dir => cases hoption
      | gitDir dir => cases hoption
      | workTree dir => cases hoption
      | bare => cases hoption
  have hnone : ∀ {α : Type} (read : GlobalOption → Option α),
      (∀ option, option.isPlain = true → read option = none) → lastValue read globals = none :=
    fun read hread => lastValue_of_plain fun option hoption => hread option (h option hoption)
  have hbare : globals.any (fun option => option = .bare) = false := by
    rw [List.any_eq_false]
    intro option hoption hbare
    rw [of_decide_eq_true hbare] at hoption
    cases h _ hoption
  unfold FileSystem.target
  rw [hcwd, hbare]
  dsimp only
  rw [hnone _ (fun option hplain => by cases option <;> first | rfl | cases hplain),
    hnone _ (fun option hplain => by cases option <;> first | rfl | cases hplain),
    hnone _ (fun option hplain => by
      cases option with
      | config setting => exact Option.isNone_iff_eq_none.mp hplain
      | _ => rfl)]
  rfl

end GitSafety

end ForgeKit
