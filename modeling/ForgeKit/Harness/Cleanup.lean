import ForgeKit.Lib.DirTree
import ForgeKit.Lib.PyStr
import Mathlib.Algebra.GroupWithZero.Nat
import Mathlib.Data.List.Dedup
import Mathlib.Data.List.Sort
import Mathlib.Data.String.Basic

/-!
# The artifact cleanup (`harness/cleanup.py`)

The scan walks the tree, leaves the directories of version control alone, lists every cache
directory as a whole and classifies the other files one by one. What is deletable is removed when
both flags are set.

`cleanup_safe_iff` — what the cleanup promises holds exactly when no cache directory that it removes
as a whole holds a protected file.
-/

namespace ForgeKit.Cleanup

open Py (Text)

/-- `CLEANUP_SAFE_MARKER`. -/
def cleanupSafeMarker : Text := Py.lit "YULE-CLEANUP-SAFE"

inductive Classification where
  | deletable
  | preserve
  | approvalNeeded
deriving DecidableEq, Repr

def Classification.value : Classification → String
  | .deletable => "deletable"
  | .preserve => "preserve"
  | .approvalNeeded => "approval_needed"

/-- `_PRESERVE_DIR_NAMES`. -/
def preserveDirNames : List Text := [".git", ".hg", ".svn"].map Py.lit

/-- `_DELETABLE_DIR_NAMES`. -/
def deletableDirNames : List Text :=
  ["__pycache__", ".pytest_cache", ".mypy_cache", ".ruff_cache", ".cache_tmp"].map Py.lit

/-- `_PRESERVE_SUBSTRINGS`. -/
def preserveSubstrings : List Text :=
  ["agent_ops_audit", "execution_receipt", "/00-inbox/", "/10-projects/", "/20-areas/",
   "/30-resources/", "/40-archive/", "/decisions/", "/policies/", "/docs/", "/tests/", "/.git/",
   "/.github/", "/.ssh/", "/migrations/"].map Py.lit

/-- `_PRESERVE_SUFFIXES`. -/
def preserveSuffixes : List Text :=
  [".sqlite3", ".sqlite", ".db", "-wal", "-shm", "-journal", ".py", ".env", ".pem", ".key",
   ".lock"].map Py.lit

/-- `_PRESERVE_NAME_TOKENS`. -/
def preserveNameTokens : List Text :=
  ["prompt", "decision", "synthesis", "approval", "task-log", "agent_ops_audit", "credential",
   "secret", ".env"].map Py.lit

/-- `_DELETABLE_SUFFIXES`. -/
def deletableSuffixes : List Text := [".tmp", ".temp", ".pyc", ".pyo", ".log"].map Py.lit

/-- `_DELETABLE_NAME_SUBSTRINGS`. -/
def deletableNameSubstrings : List Text := ["-snapshot-", ".generated.", "tmp-"].map Py.lit

/-- `_APPROVAL_SUBSTRINGS`. -/
def approvalSubstrings : List Text :=
  ["/.claude/skills/", "/.agents/skills/", "/.claude-plugin/", "/.codex-plugin/"].map Py.lit

/-- `_LARGE_FILE_BYTES`. -/
def largeFileBytes : Nat := 5 * 1024 * 1024

/-! ## `classify` -/

/-- What `classify` returns. -/
structure Verdict where
  classification : Classification
  rule : String
  reason : Text
deriving DecidableEq

/-- `rel_path.rsplit("/", 1)[-1]`. -/
def baseName (relPath : Text) : Text := relPath.rtakeWhile (· ≠ Py.ofChar '/')

/-- The lower-cased name, and the lower-cased path between slashes. -/
def nameOf (relPath : Text) : Text := Py.lower (baseName relPath)

def loweredOf (relPath : Text) : Text := Py.lower (Py.lit "/" ++ relPath ++ Py.lit "/")

/-- The deny list: rule and reason of the first entry that applies. -/
def denyRule (relPath : Text) : Option (String × Text) :=
  match preserveNameTokens.find? (Py.contains (nameOf relPath)) with
  | some token => some ("preserve:name-token", Py.lit "name carries '" ++ token ++ Py.lit "'")
  | none =>
    match preserveSubstrings.find? (Py.contains (loweredOf relPath)) with
    | some sub => some ("preserve:path", Py.lit "under protected path '" ++ sub ++ Py.lit "'")
    | none =>
      (preserveSuffixes.find? (Py.endsWith (nameOf relPath))).map fun suf =>
        ("preserve:suffix", Py.lit "protected suffix '" ++ suf ++ Py.lit "'")

/-- The rule and the reason that make a file transient. -/
def transientRule (relPath : Text) : Option (String × Text) :=
  match deletableSuffixes.find? (Py.endsWith (nameOf relPath)) with
  | some suf => some ("deletable:suffix", Py.lit "transient suffix '" ++ suf ++ Py.lit "'")
  | none =>
    (deletableNameSubstrings.find? (Py.contains (nameOf relPath))).map fun sub =>
      ("deletable:name", Py.lit "regeneratable artifact name contains '" ++ sub ++ Py.lit "'")

/-- `classify`. -/
def classify (relPath : Text) (isDir : Bool) (sizeBytes : Nat := 0) : Verdict :=
  match denyRule relPath with
  | some (rule, reason) => ⟨.preserve, rule, reason⟩
  | none =>
    if isDir = true ∧ baseName relPath ∈ deletableDirNames then
      ⟨.deletable, "deletable:cache-dir",
        Py.lit "regeneratable cache dir '" ++ baseName relPath ++ Py.lit "'"⟩
    else match (if isDir then none else transientRule relPath) with
      | some (rule, reason) => ⟨.deletable, rule, reason⟩
      | none =>
        match approvalSubstrings.find? (Py.contains (loweredOf relPath)) with
        | some sub =>
          ⟨.approvalNeeded, "approval:generated-harness",
            Py.lit "generated-but-tracked harness path '" ++ sub ++ Py.lit "'"⟩
        | none =>
          if isDir = false ∧ largeFileBytes ≤ sizeBytes then
            ⟨.approvalNeeded, "approval:large-file",
              Py.lit ("large unclassified file (" ++ toString sizeBytes ++ " bytes)")⟩
          else ⟨.preserve, "preserve:default", Py.lit "unmatched — preserved by default"⟩

/-- `_path_is_protected`. -/
def pathIsProtected (relPath : Text) : Bool :=
  let v := classify relPath false
  v.classification == .preserve && v.rule != "preserve:default"

/-! ## `scan` -/

/-- A file, as far as the cleanup looks at it. -/
structure FileInfo where
  size : Nat
  /-- What `open(…, errors="ignore")` reads; empty where the file cannot be opened. -/
  text : Text := []
deriving DecidableEq

abbrev Path := List Text

abbrev Entries := Listing Text FileInfo

abbrev Tree := DirTree Text FileInfo

structure CleanupEntry where
  relPath : Text
  /-- The path below the root, for `abs_path`. -/
  path : Path
  classification : Classification
  rule : String
  reason : Text
  sizeBytes : Nat
  isDir : Bool
deriving DecidableEq

/-- `_rel`. -/
def rel (path : Path) : Text := (Py.lit "/").intercalate path

/-- `_has_marker`. -/
def hasMarker (info : FileInfo) : Bool := Py.contains (info.text.take 4096) cleanupSafeMarker

def CleanupEntry.of (path : Path) (v : Verdict) (sizeBytes : Nat) (isDir : Bool) : CleanupEntry :=
  ⟨rel path, path, v.classification, v.rule, v.reason, sizeBytes, isDir⟩

/-- The marker overturns the verdict on a file that is preserved by default. -/
def promoted (markerOptin : Bool) (path : Path) (info : FileInfo) (v : Verdict) : Bool :=
  markerOptin && v.classification == .preserve
    && !"preserve:suffix".toList.isPrefixOf v.rule.toList
    && !"preserve:name-token".toList.isPrefixOf v.rule.toList
    && !pathIsProtected (rel path) && hasMarker info

/-- The entry of a file. -/
def fileEntry (markerOptin : Bool) (path : Path) (info : FileInfo) : CleanupEntry :=
  let v := classify (rel path) false info.size
  .of path
    (if promoted markerOptin path info v then
      ⟨.deletable, "deletable:marker",
        Py.lit "carries explicit " ++ cleanupSafeMarker ++ Py.lit " marker"⟩
    else v)
    info.size false

/-- `_entry_size` of a directory. -/
def dirSize (entries : Entries) : Nat := ((entries.files []).map fun f => f.2.size).sum

/-- The entry of a cache directory, as a whole. -/
def dirEntry (path : Path) (entries : Entries) : CleanupEntry :=
  .of path (classify (rel path) true (dirSize entries)) (dirSize entries) true

/-- The walk below `under`. -/
def walk (markerOptin : Bool) (under : Path) : Entries → List CleanupEntry
  | .nil => []
  | .file name info rest => fileEntry markerOptin (under ++ [name]) info :: walk markerOptin under rest
  | .dir name entries rest =>
    (if name ∈ preserveDirNames then []
      else if name ∈ deletableDirNames then [dirEntry (under ++ [name]) entries]
      else walk markerOptin (under ++ [name]) entries) ++ walk markerOptin under rest

/-- `scan`; no tree is a root that does not exist. -/
def scan (tree : Option Tree) (markerOptin : Bool) : List CleanupEntry :=
  ((tree.map fun t => walk markerOptin [] t.entries).getD []).insertionSort
    fun a b => a.relPath ≤ b.relPath

/-! ## `run_cleanup` -/

/-- How the removals go. -/
structure Removals where
  /-- The `OSError` that removing the entry raises. -/
  fails : Path → Option Text := fun _ => none
  /-- The files that an `rmtree` which fails has taken already. -/
  takes : Path → Path → Bool := fun _ _ => false

/-- The entry stands for this file. -/
def CleanupEntry.covers (e : CleanupEntry) (path : Path) : Bool :=
  if e.isDir then e.path.isPrefixOf path else e.path == path

/-- Removing the entry takes this file. -/
def Removals.removes (env : Removals) (e : CleanupEntry) (path : Path) : Bool :=
  e.covers path && ((env.fails e.path).isNone || (e.isDir && env.takes e.path path))

/-- What the loop over the deletable entries counts, and the files that are left. -/
structure Progress where
  left : List (Path × FileInfo)
  deletedCount : Nat := 0
  reclaimedBytes : Nat := 0
  warnings : List Text := []

/-- One round of the loop. -/
def Progress.remove (env : Removals) (s : Progress) (e : CleanupEntry) : Progress :=
  let left := s.left.filter fun f => !env.removes e f.1
  match env.fails e.path with
  | none =>
    { s with
      left := left
      deletedCount := s.deletedCount + 1
      reclaimedBytes := s.reclaimedBytes + e.sizeBytes }
  | some exc =>
    { s with
      left := left
      warnings := s.warnings ++
        [Py.lit "failed to delete " ++ e.relPath ++ Py.lit ": " ++ exc] }

structure CleanupReceipt where
  root : Text
  scannedCount : Nat
  matchedRules : List (String × String × Nat)
  deletable : List CleanupEntry
  isProtected : List CleanupEntry
  approvalNeeded : List CleanupEntry
  deletedCount : Nat
  reclaimedBytes : Nat
  executed : Bool
  warnings : List Text

/-- `matched_rules`: how many entries each rule has, by classification and rule. -/
def matchedRules (entries : List CleanupEntry) : List (String × String × Nat) :=
  (((entries.map fun e => (e.rule, e.classification.value)).dedup).map fun key =>
      (key.1, key.2, entries.countP fun e => (e.rule, e.classification.value) = key)).insertionSort
    fun a b => a.2.1 < b.2.1 ∨ a.2.1 = b.2.1 ∧ a.1 ≤ b.1

def ofClass (c : Classification) (entries : List CleanupEntry) : List CleanupEntry :=
  entries.filter fun e => e.classification = c

def treeFiles (tree : Option Tree) : List (Path × FileInfo) := (tree.map DirTree.files).getD []

/-- The warnings before the removals. -/
def openingWarnings (root : Text) (tree : Option Tree) (execute confirm : Bool) : List Text :=
  (if tree.isNone then [Py.lit "scan root does not exist: " ++ root] else [])
    ++ if execute && !confirm then
        [Py.lit "execute requested without confirm=True — refusing to delete (safety)"]
      else []

/-- `run_cleanup` on the root `root`: the receipt, and the files that are left. -/
def runCleanup (root : Text) (tree : Option Tree) (env : Removals)
    (execute confirm markerOptin : Bool) : CleanupReceipt × List (Path × FileInfo) :=
  let entries := scan tree markerOptin
  let start : Progress :=
    { left := treeFiles tree, warnings := openingWarnings root tree execute confirm }
  let final :=
    if execute && confirm then (ofClass .deletable entries).foldl (Progress.remove env) start
    else start
  ({ root := root
     scannedCount := entries.length
     matchedRules := matchedRules entries
     deletable := ofClass .deletable entries
     isProtected := ofClass .preserve entries
     approvalNeeded := ofClass .approvalNeeded entries
     deletedCount := final.deletedCount
     reclaimedBytes := final.reclaimedBytes
     executed := execute && confirm
     warnings := final.warnings },
   final.left)

/-! ## The deny list -/

/-- The rules of the deny list. -/
def denyRules : List String := ["preserve:name-token", "preserve:path", "preserve:suffix"]

/-- `classify` preserves the file by a rule of the deny list. -/
def ByDenyList (relPath : Text) : Prop :=
  (classify relPath false).classification = .preserve ∧ (classify relPath false).rule ∈ denyRules

theorem rule_of_denied {relPath reason : Text} {rule : String}
    (h : denyRule relPath = some (rule, reason)) : rule ∈ denyRules := by
  unfold denyRule at h
  split at h
  · cases h; simp [denyRules]
  · split at h
    · cases h; simp [denyRules]
    · obtain ⟨suf, -, he⟩ := Option.map_eq_some_iff.mp h
      cases he
      simp [denyRules]

theorem classify_of_denied {relPath reason : Text} {rule : String}
    (h : denyRule relPath = some (rule, reason)) (isDir : Bool) (sizeBytes : Nat) :
    classify relPath isDir sizeBytes = ⟨.preserve, rule, reason⟩ := by
  rw [classify, h]

/-- A file off the deny list is preserved by default only. -/
theorem rule_of_allowed {relPath : Text} (h : denyRule relPath = none)
    (hpreserve : (classify relPath false).classification = .preserve) :
    (classify relPath false).rule = "preserve:default" := by
  have hsmall : ¬ largeFileBytes ≤ 0 := by decide
  unfold classify at hpreserve ⊢
  simp only [h, Bool.false_eq_true, false_and, if_false, true_and, if_neg hsmall] at hpreserve ⊢
  cases htransient : transientRule relPath with
  | some found =>
    rw [htransient] at hpreserve
    cases hpreserve
  | none =>
    rw [htransient] at hpreserve
    dsimp only at hpreserve ⊢
    cases happroval : approvalSubstrings.find? (Py.contains (loweredOf relPath)) with
    | some sub =>
      rw [happroval] at hpreserve
      cases hpreserve
    | none => rfl

theorem byDenyList_iff {relPath : Text} :
    ByDenyList relPath ↔ (denyRule relPath).isSome = true := by
  cases h : denyRule relPath with
  | none =>
    refine iff_of_false ?_ (by simp)
    rintro ⟨hpreserve, hrule⟩
    rw [rule_of_allowed h hpreserve] at hrule
    revert hrule
    decide
  | some found =>
    obtain ⟨rule, reason⟩ := found
    rw [ByDenyList, classify_of_denied h]
    exact iff_of_true ⟨rfl, rule_of_denied h⟩ rfl

theorem pathIsProtected_of_denied {relPath reason : Text} {rule : String}
    (h : denyRule relPath = some (rule, reason)) : pathIsProtected relPath = true := by
  have hrule := rule_of_denied h
  have hne : rule ≠ "preserve:default" := by
    rintro rfl
    revert hrule
    decide
  simp [pathIsProtected, classify_of_denied h, hne]

/-- A file that the scan finds deletable is not on the deny list. -/
theorem not_byDenyList_of_deletable {markerOptin : Bool} {path : Path} {info : FileInfo}
    (h : (fileEntry markerOptin path info).classification = .deletable) :
    ¬ ByDenyList (rel path) := by
  rw [byDenyList_iff]
  cases hdeny : denyRule (rel path) with
  | none => simp
  | some found =>
    obtain ⟨rule, reason⟩ := found
    unfold fileEntry promoted at h
    simp [classify_of_denied hdeny, pathIsProtected_of_denied hdeny, CleanupEntry.of] at h

/-- The verdict on a directory does not depend on its size. -/
theorem classify_dir (relPath : Text) (sizeBytes : Nat) :
    classify relPath true sizeBytes = classify relPath true := by
  unfold classify
  simp

/-! ## What the walk lists -/

/-- The file is below a directory of version control. -/
def BelowVcs (path : Path) : Prop := ∃ name ∈ path.dropLast, name ∈ preserveDirNames

/-- The walk gets to a cache directory of this path, and finds it deletable. -/
structure WholeCache (path : Path) : Prop where
  isCache : ∃ name, path.getLast? = some name ∧ name ∈ deletableDirNames
  reached : ∀ name ∈ path.dropLast, name ∉ preserveDirNames ∧ name ∉ deletableDirNames
  deletable : (classify (rel path) true).classification = .deletable

variable {markerOptin : Bool} {under : Path} {l : Entries} {e : CleanupEntry}

/-- The entries of the walk at a directory: that of a cache directory, those of what the walk goes
down into, and those of the rest. -/
theorem walk_dir_cases {name : Text} {entries rest : Entries}
    (h : e ∈ walk markerOptin under (.dir name entries rest)) :
    (name ∈ deletableDirNames ∧ e = dirEntry (under ++ [name]) entries)
      ∨ (name ∉ preserveDirNames ∧ name ∉ deletableDirNames
          ∧ e ∈ walk markerOptin (under ++ [name]) entries)
      ∨ e ∈ walk markerOptin under rest := by
  rcases List.mem_append.mp h with h | h
  · split at h
    · cases h
    · next hvcs =>
      split at h
      · next hcache => exact .inl ⟨hcache, List.mem_singleton.mp h⟩
      · next hcache => exact .inr (.inl ⟨hvcs, hcache, h⟩)
  · exact .inr (.inr h)

theorem walk_through (h : e ∈ walk markerOptin under l) : l.Through under e.path := by
  induction l generalizing under with
  | nil => cases h
  | file name info rest ih =>
    rcases List.mem_cons.mp h with rfl | h
    · exact ⟨name, List.mem_cons_self, [], rfl⟩
    · exact (ih h).file
  | dir name entries rest ihe ihr =>
    rcases walk_dir_cases h with ⟨-, rfl⟩ | ⟨-, -, h⟩ | h
    · exact ⟨name, List.mem_cons_self, [], rfl⟩
    · exact (ihe h).down
    · exact (ihr h).dir

/-- A single file of the walk stands below no directory of version control. -/
theorem walk_file (h : e ∈ walk markerOptin under l) (hfile : e.isDir = false)
    (hunder : ∀ name ∈ under, name ∉ preserveDirNames) :
    (∃ info, e = fileEntry markerOptin e.path info) ∧ ¬ BelowVcs e.path := by
  induction l generalizing under with
  | nil => cases h
  | file name info rest ih =>
    rcases List.mem_cons.mp h with rfl | h
    · refine ⟨⟨info, rfl⟩, ?_⟩
      rintro ⟨n, hn, hvcs⟩
      have hpath : (fileEntry markerOptin (under ++ [name]) info).path = under ++ [name] := rfl
      rw [hpath, List.dropLast_concat] at hn
      exact hunder n hn hvcs
    · exact ih h hunder
  | dir name entries rest ihe ihr =>
    rcases walk_dir_cases h with ⟨-, rfl⟩ | ⟨hvcs, -, h⟩ | h
    · cases hfile
    · refine ihe h ?_
      intro n hn
      rcases List.mem_append.mp hn with hn | hn
      · exact hunder n hn
      · rw [List.mem_singleton.mp hn]
        exact hvcs
    · exact ihr h hunder

/-- A directory of the walk is a cache directory that it got to. -/
theorem walk_dir (h : e ∈ walk markerOptin under l) (hdir : e.isDir = true)
    (hdeletable : e.classification = .deletable)
    (hunder : ∀ name ∈ under, name ∉ preserveDirNames ∧ name ∉ deletableDirNames) :
    WholeCache e.path := by
  induction l generalizing under with
  | nil => cases h
  | file name info rest ih =>
    rcases List.mem_cons.mp h with rfl | h
    · cases hdir
    · exact ih h hunder
  | dir name entries rest ihe ihr =>
    rcases walk_dir_cases h with ⟨hcache, rfl⟩ | ⟨hvcs, hcache, h⟩ | h
    · refine ⟨⟨name, List.getLast?_concat, hcache⟩, ?_, ?_⟩
      · intro n hn
        refine hunder n ?_
        rwa [show (dirEntry (under ++ [name]) entries).path = under ++ [name] from rfl,
          List.dropLast_concat] at hn
      · rw [← classify_dir _ (dirSize entries)]
        exact hdeletable
    · refine ihe h ?_
      intro n hn
      rcases List.mem_append.mp hn with hn | hn
      · exact hunder n hn
      · rw [List.mem_singleton.mp hn]
        exact ⟨hvcs, hcache⟩
    · exact ihr h hunder

theorem notMem_preserveDirNames : ∀ name ∈ deletableDirNames, name ∉ preserveDirNames := by
  decide +kernel

/-- A directory of the walk is not one of the files. -/
theorem walk_dir_ne {f : Path × FileInfo} (hwell : l.WellFormed) (h : e ∈ walk markerOptin under l)
    (hdir : e.isDir = true) (hf : f ∈ l.files under) : e.path ≠ f.1 := by
  induction l generalizing under with
  | nil => cases h
  | file name info rest ih =>
    rcases List.mem_cons.mp h with rfl | h
    · cases hdir
    · rcases List.mem_cons.mp hf with rfl | hf
      · exact fun heq => (Listing.not_below_of_ne hwell.1 (walk_through h) []).1 (heq ▸ List.prefix_rfl)
      · exact ih hwell.2 h hf
  | dir name entries rest ihe ihr =>
    -- A file of the rest has its path through another name than an entry below this directory.
    have hrest : under ++ [name] <+: e.path → f ∈ rest.files under → e.path ≠ f.1 := by
      intro hbelow hf heq
      rw [heq] at hbelow
      exact (Listing.not_below_of_ne hwell.1 (Listing.through_of_mem_files hf) []).2 hbelow
    rcases walk_dir_cases h with ⟨-, rfl⟩ | ⟨-, -, h⟩ | h
    · rcases List.mem_append.mp hf with hf | hf
      · obtain ⟨m, -, q, hq⟩ := Listing.through_of_mem_files hf
        rw [hq]
        exact fun heq => List.cons_ne_nil m q (List.self_eq_append_right.mp heq)
      · exact hrest List.prefix_rfl hf
    · rcases List.mem_append.mp hf with hf | hf
      · exact ihe hwell.2.1 h hf
      · obtain ⟨m, -, q, hq⟩ := walk_through h
        exact hrest ⟨m :: q, hq.symm⟩ hf
    · rcases List.mem_append.mp hf with hf | hf
      · obtain ⟨q, hq⟩ := Listing.below_of_mem_files hf
        intro heq
        refine (Listing.not_below_of_ne hwell.1 (walk_through h) q).1 ?_
        rw [heq, ← hq]
        simp
      · exact ihr hwell.2.2 h hf

variable (markerOptin) in
/-- Of a cache directory that the walk gets to, there is an entry. -/
theorem exists_walk_dir {f : Path × FileInfo} {n : Text} {q : Path} (hf : f ∈ l.files under)
    (hbelow : under ++ n :: q <+: f.1) (hne : under ++ n :: q ≠ f.1)
    (hcache : WholeCache (under ++ n :: q)) :
    ∃ e ∈ walk markerOptin under l,
      e.isDir = true ∧ e.path = under ++ n :: q ∧ e.classification = .deletable := by
  induction l generalizing under n q with
  | nil => cases hf
  | file name info rest ih =>
    rcases List.mem_cons.mp hf with rfl | hf
    · -- The path of the file has one name more than `under`, and the directory has as many.
      obtain ⟨r, hr⟩ := hbelow
      have hlength := congrArg List.length hr
      simp only [List.length_append, List.length_cons, List.length_nil] at hlength
      have hnil : r = [] := List.length_eq_zero_iff.mp (by omega)
      rw [hnil, List.append_nil] at hr
      exact absurd hr hne
    · obtain ⟨e, he, hrest⟩ := ih hf hbelow hne hcache
      exact ⟨e, List.mem_cons_of_mem _ he, hrest⟩
  | dir name entries rest ihe ihr =>
    rcases List.mem_append.mp hf with hf | hf
    · have hname : n = name := by
        obtain ⟨m, -, r, hr⟩ := Listing.through_of_mem_files hf
        rw [hr, List.append_assoc, List.prefix_append_right_inj, List.singleton_append,
          List.cons_prefix_cons] at hbelow
        exact hbelow.1
      subst hname
      cases q with
      | nil =>
        obtain ⟨n', hlast, hmem⟩ := hcache.isCache
        rw [List.getLast?_concat] at hlast
        cases hlast
        refine ⟨dirEntry (under ++ [n]) entries, List.mem_append_left _ ?_, rfl, rfl, ?_⟩
        · rw [if_neg (notMem_preserveDirNames n hmem), if_pos hmem]
          exact List.mem_singleton_self _
        · exact (congrArg Verdict.classification (classify_dir _ _)).trans hcache.deletable
      | cons n' q =>
        have hreached : n ∉ preserveDirNames ∧ n ∉ deletableDirNames :=
          hcache.reached n (by simp [List.dropLast_append_of_ne_nil])
        have hsplit : under ++ n :: n' :: q = (under ++ [n]) ++ n' :: q := by simp
        rw [hsplit] at hbelow hne hcache ⊢
        obtain ⟨e, he, hrest⟩ := ihe hf hbelow hne hcache
        refine ⟨e, List.mem_append_left _ ?_, hrest⟩
        rwa [if_neg hreached.1, if_neg hreached.2]
    · obtain ⟨e, he, hrest⟩ := ihr hf hbelow hne hcache
      exact ⟨e, List.mem_append_right _ he, hrest⟩

/-! ## What the loop takes -/

/-- The loop leaves what no removal takes. -/
theorem left_remove (env : Removals) (es : List CleanupEntry) (s : Progress) :
    (es.foldl (Progress.remove env) s).left
      = s.left.filter fun f => !es.any fun e => env.removes e f.1 := by
  induction es generalizing s with
  | nil => simp
  | cons e es ih =>
    have hone : (s.remove env e).left = s.left.filter fun f => !env.removes e f.1 := by
      unfold Progress.remove
      split <;> rfl
    rw [List.foldl_cons, ih, hone, List.filter_filter]
    simp [Bool.and_comm]

/-- Where every removal succeeds, the loop adds up the sizes. -/
theorem reclaimed_remove (env : Removals) (es : List CleanupEntry) (s : Progress)
    (hsucceeds : ∀ e ∈ es, env.fails e.path = none) :
    (es.foldl (Progress.remove env) s).reclaimedBytes
      = s.reclaimedBytes + (es.map CleanupEntry.sizeBytes).sum := by
  induction es generalizing s with
  | nil => simp
  | cons e es ih =>
    have hone : (s.remove env e).reclaimedBytes = s.reclaimedBytes + e.sizeBytes := by
      unfold Progress.remove
      rw [hsucceeds e List.mem_cons_self]
    rw [List.foldl_cons, ih _ fun e' he' => hsucceeds e' (List.mem_cons_of_mem _ he'), hone]
    simp [Nat.add_assoc]

theorem mem_scan {t : Tree} : e ∈ scan (some t) markerOptin ↔ e ∈ walk markerOptin [] t.entries :=
  (List.perm_insertionSort _ _).mem_iff

/-- The total size of the files that entries stand for. -/
def coveredBytes (es : List CleanupEntry) (files : List (Path × FileInfo)) : Nat :=
  ((files.filter fun f => es.any fun e => e.covers f.1).map fun f => f.2.size).sum

/-- Entries that stand for nothing of each other's files are counted apart. -/
theorem coveredBytes_append {es es' : List CleanupEntry} {files files' : List (Path × FileInfo)}
    (h : ∀ e ∈ es, ∀ f ∈ files', e.covers f.1 = false)
    (h' : ∀ e ∈ es', ∀ f ∈ files, e.covers f.1 = false) :
    coveredBytes (es ++ es') (files ++ files')
      = coveredBytes es files + coveredBytes es' files' := by
  have hleft : files.filter (fun f => (es ++ es').any fun e => e.covers f.1)
      = files.filter fun f => es.any fun e => e.covers f.1 := by
    refine List.filter_congr fun f hf => ?_
    have hnone : (es'.any fun e => e.covers f.1) = false :=
      List.any_eq_false.mpr fun e he => by simp [h' e he f hf]
    rw [List.any_append, hnone, Bool.or_false]
  have hright : files'.filter (fun f => (es ++ es').any fun e => e.covers f.1)
      = files'.filter fun f => es'.any fun e => e.covers f.1 := by
    refine List.filter_congr fun f hf => ?_
    have hnone : (es.any fun e => e.covers f.1) = false :=
      List.any_eq_false.mpr fun e he => by simp [h e he f hf]
    rw [List.any_append, hnone, Bool.false_or]
  unfold coveredBytes
  rw [List.filter_append, hleft, hright, List.map_append, List.sum_append]

/-- What an entry stands for is below it. -/
theorem below_of_covers {path : Path} (h : e.covers path = true) : e.path <+: path := by
  unfold CleanupEntry.covers at h
  split at h
  · exact List.isPrefixOf_iff_prefix.mp h
  · rw [beq_iff_eq.mp h]

/-- The deletable entries of the walk. -/
def deletableWalk (markerOptin : Bool) (under : Path) (l : Entries) : List CleanupEntry :=
  ofClass .deletable (walk markerOptin under l)

theorem deletableWalk_through (h : e ∈ deletableWalk markerOptin under l) :
    l.Through under e.path :=
  walk_through (List.mem_of_mem_filter h)

/-- The entries of one name stand for nothing behind the other names, and the other way round. -/
theorem coveredBytes_split {name : Text} (hname : name ∉ l.names) {es : List CleanupEntry}
    {files : List (Path × FileInfo)} (hes : ∀ e ∈ es, ∃ q, e.path = under ++ name :: q)
    (hfiles : ∀ f ∈ files, ∃ q, f.1 = under ++ name :: q) :
    coveredBytes (es ++ deletableWalk markerOptin under l) (files ++ l.files under)
      = coveredBytes es files
        + coveredBytes (deletableWalk markerOptin under l) (l.files under) := by
  refine coveredBytes_append ?_ ?_
  · intro e he f hf
    obtain ⟨q, hq⟩ := hes e he
    rw [Bool.eq_false_iff]
    intro hcovers
    have hbelow := below_of_covers hcovers
    rw [hq] at hbelow
    exact (Listing.not_below_of_ne hname (Listing.through_of_mem_files hf) q).2 hbelow
  · intro e he f hf
    obtain ⟨q, hq⟩ := hfiles f hf
    rw [Bool.eq_false_iff]
    intro hcovers
    have hbelow := below_of_covers hcovers
    rw [hq] at hbelow
    exact (Listing.not_below_of_ne hname (deletableWalk_through he) q).1 hbelow

/-- An entry that stands for all of some files and says their size. -/
theorem coveredBytes_single {files : List (Path × FileInfo)}
    (hcovers : ∀ f ∈ files, e.covers f.1 = true)
    (hsize : e.sizeBytes = (files.map fun f => f.2.size).sum) :
    coveredBytes (ofClass .deletable [e]) files
      = ((ofClass .deletable [e]).map CleanupEntry.sizeBytes).sum := by
  by_cases hdeletable : e.classification = .deletable
  · have hall : files.filter (fun f => e.covers f.1) = files := List.filter_eq_self.mpr hcovers
    simp [coveredBytes, ofClass, hdeletable, hall, hsize]
  · simp [coveredBytes, ofClass, hdeletable]

/-- The deletable entries say the total size of the files they stand for. -/
theorem coveredBytes_walk (hwell : l.WellFormed) :
    coveredBytes (deletableWalk markerOptin under l) (l.files under)
      = ((deletableWalk markerOptin under l).map CleanupEntry.sizeBytes).sum := by
  induction l generalizing under with
  | nil => rfl
  | file name info rest ih =>
    have hsplit : deletableWalk markerOptin under (.file name info rest)
        = ofClass .deletable [fileEntry markerOptin (under ++ [name]) info]
          ++ deletableWalk markerOptin under rest := by
      rw [deletableWalk, walk, ← List.singleton_append]
      exact List.filter_append _ _
    have hfiles : Listing.files under (.file name info rest)
        = [(under ++ [name], info)] ++ rest.files under := rfl
    rw [hsplit, hfiles, coveredBytes_split hwell.1, ih hwell.2, List.map_append, List.sum_append]
    · congr 1
      refine coveredBytes_single ?_ ?_
      · intro f hf
        rw [List.mem_singleton.mp hf]
        exact beq_self_eq_true (under ++ [name])
      · simp [fileEntry, CleanupEntry.of]
    · intro e he
      rw [List.mem_singleton.mp (List.mem_of_mem_filter he)]
      exact ⟨[], rfl⟩
    · intro f hf
      rw [List.mem_singleton.mp hf]
      exact ⟨[], rfl⟩
  | dir name entries rest ihe ihr =>
    let es := ofClass .deletable
      (if name ∈ preserveDirNames then []
        else if name ∈ deletableDirNames then [dirEntry (under ++ [name]) entries]
        else walk markerOptin (under ++ [name]) entries)
    have hes : ∀ e ∈ es, ∃ q, e.path = under ++ name :: q := by
      intro e he
      have hmem := List.mem_of_mem_filter he
      split at hmem
      · cases hmem
      · split at hmem
        · rw [List.mem_singleton.mp hmem]
          exact ⟨[], rfl⟩
        · obtain ⟨n, -, q, hq⟩ := walk_through hmem
          exact ⟨n :: q, by rw [hq]; simp⟩
    have hfiles : ∀ f ∈ entries.files (under ++ [name]), ∃ q, f.1 = under ++ name :: q := by
      intro f hf
      obtain ⟨q, hq⟩ := Listing.below_of_mem_files hf
      exact ⟨q, by rw [← hq]; simp⟩
    have hsub : coveredBytes es (entries.files (under ++ [name]))
        = (es.map CleanupEntry.sizeBytes).sum := by
      by_cases hvcs : name ∈ preserveDirNames
      · have hnil : es = [] := by simp [es, hvcs, ofClass]
        rw [hnil]
        simp [coveredBytes]
      · by_cases hcache : name ∈ deletableDirNames
        · have hone : es = ofClass .deletable [dirEntry (under ++ [name]) entries] := by
            simp only [es, if_neg hvcs, if_pos hcache]
          rw [hone]
          refine coveredBytes_single ?_ ?_
          · intro f hf
            exact List.isPrefixOf_iff_prefix.mpr (Listing.below_of_mem_files hf)
          · have hsnd := Listing.map_snd_files [] (under ++ [name]) entries
            have hsize := congrArg (fun infos => (infos.map FileInfo.size).sum) hsnd
            simpa [dirEntry, CleanupEntry.of, dirSize, List.map_map, Function.comp_def] using hsize
        · have hwalk : es = deletableWalk markerOptin (under ++ [name]) entries := by
            simp only [es, if_neg hvcs, if_neg hcache, deletableWalk]
          rw [hwalk]
          exact ihe hwell.2.1
    have hsplit : deletableWalk markerOptin under (.dir name entries rest)
        = es ++ deletableWalk markerOptin under rest := List.filter_append _ _
    rw [hsplit, Listing.files, coveredBytes_split hwell.1 hes hfiles, hsub, ihr hwell.2.2,
      List.map_append, List.sum_append]

/-! ## The promise -/

/-- The files of the tree that are gone after `run_cleanup`. -/
def removedFiles (root : Text) (tree : Option Tree) (env : Removals)
    (execute confirm markerOptin : Bool) : List (Path × FileInfo) :=
  (treeFiles tree).filter fun f => f ∉ (runCleanup root tree env execute confirm markerOptin).2

/-- A file that is to be kept. -/
def Guarded (path : Path) : Prop := ByDenyList (rel path) ∨ BelowVcs path

/-- What the cleanup promises of one call. -/
structure Safe (root : Text) (tree : Option Tree) (env : Removals)
    (execute confirm markerOptin : Bool) : Prop where
  keepsGuarded : ∀ f ∈ removedFiles root tree env execute confirm markerOptin, ¬ Guarded f.1
  needsBoth : removedFiles root tree env execute confirm markerOptin ≠ [] →
    execute = true ∧ confirm = true
  reclaimed : (∀ e ∈ ofClass .deletable (scan tree markerOptin), env.fails e.path = none) →
    (runCleanup root tree env execute confirm markerOptin).1.reclaimedBytes
      = ((removedFiles root tree env execute confirm markerOptin).map fun f => f.2.size).sum

/-- The removal of the directory takes this file. -/
def Removals.TakesFrom (env : Removals) (dir path : Path) : Prop :=
  dir <+: path ∧ dir ≠ path ∧ (env.fails dir = none ∨ env.takes dir path = true)

section Promise

variable {root : Text} {tree : Option Tree} {env : Removals} {execute confirm : Bool}

/-- Without both flags the loop does not run. -/
theorem removedFiles_of_not_confirmed (h : (execute && confirm) = false) :
    removedFiles root tree env execute confirm markerOptin = []
      ∧ (runCleanup root tree env execute confirm markerOptin).1.reclaimedBytes = 0 := by
  have hleft : (runCleanup root tree env execute confirm markerOptin).2 = treeFiles tree := by
    simp [runCleanup, h]
  refine ⟨?_, by simp [runCleanup, h]⟩
  unfold removedFiles
  rw [hleft, List.filter_eq_nil_iff]
  intro f hf
  simp [hf]

/-- With both flags, the files are gone that a removal takes. -/
theorem removedFiles_of_confirmed (h : (execute && confirm) = true) :
    removedFiles root tree env execute confirm markerOptin
      = (treeFiles tree).filter fun f =>
          (ofClass .deletable (scan tree markerOptin)).any fun e => env.removes e f.1 := by
  have hleft : (runCleanup root tree env execute confirm markerOptin).2
      = (treeFiles tree).filter fun f =>
          !(ofClass .deletable (scan tree markerOptin)).any fun e => env.removes e f.1 := by
    simp only [runCleanup, h, if_true]
    exact left_remove env _ _
  unfold removedFiles
  rw [hleft]
  refine List.filter_congr fun f hf => ?_
  simp only [List.mem_filter, hf, true_and]
  generalize (ofClass _ _).any _ = taken
  cases taken <;> rfl

theorem mem_removedFiles {f : Path × FileInfo} :
    f ∈ removedFiles root tree env execute confirm markerOptin
      ↔ (execute && confirm) = true ∧ f ∈ treeFiles tree
        ∧ ∃ e ∈ ofClass .deletable (scan tree markerOptin), env.removes e f.1 = true := by
  cases h : execute && confirm with
  | false => simp [(removedFiles_of_not_confirmed h).1]
  | true => simp [removedFiles_of_confirmed h]

/-- Where every removal succeeds, the bytes reclaimed are those of the files that are gone. -/
theorem reclaimedBytes_eq
    (hsucceeds : ∀ e ∈ ofClass .deletable (scan tree markerOptin), env.fails e.path = none) :
    (runCleanup root tree env execute confirm markerOptin).1.reclaimedBytes
      = ((removedFiles root tree env execute confirm markerOptin).map fun f => f.2.size).sum := by
  cases h : execute && confirm with
  | false =>
    rw [(removedFiles_of_not_confirmed h).1, (removedFiles_of_not_confirmed h).2]
    rfl
  | true =>
    have hreclaimed := reclaimed_remove env (ofClass .deletable (scan tree markerOptin))
      { left := treeFiles tree, warnings := openingWarnings root tree execute confirm } hsucceeds
    have hrun : (runCleanup root tree env execute confirm markerOptin).1.reclaimedBytes
        = ((ofClass .deletable (scan tree markerOptin)).map CleanupEntry.sizeBytes).sum := by
      simp only [runCleanup, h, if_true]
      exact hreclaimed.trans (Nat.zero_add _)
    have hcovers : ∀ e ∈ ofClass .deletable (scan tree markerOptin), ∀ f : Path × FileInfo,
        env.removes e f.1 = e.covers f.1 := by
      intro e he f
      simp [Removals.removes, hsucceeds e he]
    have hgone : removedFiles root tree env execute confirm markerOptin
        = (treeFiles tree).filter fun f =>
            (ofClass .deletable (scan tree markerOptin)).any fun e => e.covers f.1 := by
      rw [removedFiles_of_confirmed h]
      refine List.filter_congr fun f _ => ?_
      rw [Bool.eq_iff_iff, List.any_eq_true, List.any_eq_true]
      exact exists_congr fun e => and_congr_right fun he => by rw [hcovers e he f]
    rw [hrun, hgone]
    cases tree with
    | none => rfl
    | some t =>
      have hperm : (ofClass .deletable (scan (some t) markerOptin)).Perm
          (deletableWalk markerOptin [] t.entries) :=
        (List.perm_insertionSort _ _).filter _
      simp only [hperm.any_eq]
      rw [(hperm.map CleanupEntry.sizeBytes).sum_nat, ← coveredBytes_walk t.wellFormed]
      rfl

/-- `run_cleanup` removes no protected file, nothing without both flags, and as many bytes as it
says, exactly if no removal of a cache directory takes a protected file. -/
theorem cleanup_safe_iff (root : Text) (tree : Option Tree) (env : Removals)
    (execute confirm markerOptin : Bool) :
    Safe root tree env execute confirm markerOptin
      ↔ (execute = true → confirm = true → ∀ f ∈ treeFiles tree, ∀ dir, WholeCache dir →
          env.TakesFrom dir f.1 → ¬ Guarded f.1) := by
  constructor
  · intro hsafe hexecute hconfirm f hf dir hcache ⟨hbelow, hne, htakes⟩
    refine hsafe.keepsGuarded f (mem_removedFiles.mpr ⟨by simp [hexecute, hconfirm], hf, ?_⟩)
    cases tree with
    | none => cases hf
    | some t =>
      obtain ⟨n, hlast, -⟩ := hcache.isCache
      cases dir with
      | nil => cases hlast
      | cons m q =>
        obtain ⟨e, he, hdir, hpath, hdeletable⟩ :=
          exists_walk_dir markerOptin hf hbelow hne hcache
        refine ⟨e, List.mem_filter.mpr ⟨mem_scan.mpr he, by simp [hdeletable]⟩, ?_⟩
        rw [List.nil_append] at hpath
        have hcovers : e.covers f.1 = true := by
          rw [CleanupEntry.covers, if_pos hdir, hpath]
          exact List.isPrefixOf_iff_prefix.mpr hbelow
        rw [Removals.removes, hcovers, hpath, hdir]
        rcases htakes with h | h
        · simp [h]
        · simp [h]
  · intro hnone
    refine ⟨?_, ?_, reclaimedBytes_eq⟩
    · intro f hf
      obtain ⟨hboth, hfile, e, he, hremoves⟩ := mem_removedFiles.mp hf
      obtain ⟨hexecute, hconfirm⟩ := Bool.and_eq_true_iff.mp hboth
      obtain ⟨hscan, hdeletable⟩ := List.mem_filter.mp he
      have hdeletable : e.classification = .deletable := of_decide_eq_true hdeletable
      obtain ⟨hcovers, htakes⟩ := Bool.and_eq_true_iff.mp hremoves
      cases tree with
      | none => cases hfile
      | some t =>
        have hwalk := mem_scan.mp hscan
        cases hdir : e.isDir with
        | true =>
          refine hnone hexecute hconfirm f hfile e.path
            (walk_dir hwalk hdir hdeletable (by simp)) ⟨below_of_covers hcovers, ?_, ?_⟩
          · exact walk_dir_ne t.wellFormed hwalk hdir hfile
          · simpa [hdir] using htakes
        | false =>
          obtain ⟨⟨info, hentry⟩, hvcs⟩ := walk_file hwalk hdir (by simp)
          have hpath : e.path = f.1 := by simpa [CleanupEntry.covers, hdir] using hcovers
          rw [hentry] at hdeletable
          rw [hpath] at hdeletable hvcs
          rintro (hdeny | hbelow)
          · exact not_byDenyList_of_deletable hdeletable hdeny
          · exact hvcs hbelow
    · intro hne
      obtain ⟨f, hf⟩ := List.exists_mem_of_ne_nil _ hne
      exact Bool.and_eq_true_iff.mp (mem_removedFiles.mp hf).1

end Promise

/-- One cache directory, with one file in it. -/
def sampleTree (dir file : String) : Tree where
  entries := .dir (Py.lit dir) (.file (Py.lit file) { size := 10 } .nil) .nil
  wellFormed := by simp [Listing.WellFormed, Listing.names]

theorem bytecode_cache_is_safe :
    Safe (Py.lit "/srv/r") (some (sampleTree "__pycache__" "model.pyc")) {} true true true := by
  refine (cleanup_safe_iff _ _ _ _ _ _).mpr fun _ _ f hf dir _ _ => ?_
  rw [List.mem_singleton.mp hf]
  rintro (hdeny | ⟨name, hname, hvcs⟩)
  · exact absurd hdeny.1 (by decide +kernel)
  · rw [List.mem_singleton.mp hname] at hvcs
    exact absurd hvcs (by decide +kernel)

/-- The store of the operator sessions goes with the cache directory it lies in. -/
theorem cached_store_is_removed :
    ¬ Safe (Py.lit "/srv/r") (some (sampleTree ".cache_tmp" "sessions.sqlite3")) {} true true true := by
  intro h
  refine h.keepsGuarded ([Py.lit ".cache_tmp", Py.lit "sessions.sqlite3"], { size := 10 }) ?_ ?_
  · decide +kernel
  · exact .inl ⟨by decide +kernel, by decide +kernel⟩

end ForgeKit.Cleanup
