import ForgeKit.Lib.FileTree

/-!
# The greenfield scaffold (`coding/greenfield_bootstrap.py`)

The files of a plan are written below a worktree, as far as the scopes allow. An entry of the
forbidden scope is a path prefix; the check drops what trails it, but not a leading `./`, and takes an
entry that is empty then for none.

* `isHardForbidden_iff`, `forbidden_of_honoured` — what the check refuses
* `writeTarget_spec` — what a write leaves of the tree
* `governed_iff` — for which forbidden scopes the writes are governed
-/

namespace ForgeKit.Bootstrap

open Py (Text CodePoint lit strip startsWith endsWith)
open PosixPath (Location slash dotdot isName names)
open FileTree (Tree Raised OsError bytesAt isFsName makeDirs writeText put)

/-! ## Plans -/

def modeGreenfieldFullStack : Text := lit "greenfield_full_stack"

def modeGreenfieldPython : Text := lit "greenfield_python"

/-- `BootstrapFile`. -/
structure BootstrapFile where
  relativePath : Text
  content : Text
  overwriteExisting : Bool := false

/-- `BootstrapPlan`. -/
structure BootstrapPlan where
  mode : Text
  files : List BootstrapFile

/-- `BootstrapApplyResult`. -/
structure BootstrapApplyResult where
  mode : Text
  filesCreated : List Text := []
  filesSkippedExists : List Text := []
  filesRefusedByScope : List Text := []
  filesRefusedByForbidden : List Text := []
  filesAllowedByBootstrapException : List Text := []
  writeErrors : List (Text × Text) := []

/-! ## Scopes -/

/-- `t.rstrip(c)`. -/
def rstripChar (c : CodePoint) (t : Text) : Text := t.rdropWhile (· = c)

/-- `_normalize_write_scope`. -/
def normalizeWriteScope (writeScope : List Text) : List Text :=
  (writeScope.filter fun s => strip s != []).map fun s => rstripChar slash (strip s)

/-- `entry.strip().rstrip("/").rstrip("*").rstrip("/")`. -/
def tokenOf (entry : Text) : Text :=
  rstripChar slash (rstripChar (Py.ofChar '*') (rstripChar slash (strip entry)))

/-- The path that the checks look at. -/
def norm (relPath : Text) : Text :=
  if startsWith relPath (lit "./") then relPath.drop 2 else relPath.dropWhile (· = slash)

/-- `norm == token or norm.startswith(token + "/")`. -/
def isBelow (path token : Text) : Bool := path == token || startsWith path (token ++ [slash])

/-- `_is_in_write_scope`. -/
def isInWriteScope (relPath : Text) (scope : List Text) : Bool :=
  scope == [] || scope.any fun entry => tokenOf entry == [] || isBelow (norm relPath) (tokenOf entry)

/-- `BOOTSTRAP_ESSENTIAL_PREFIXES`. -/
def bootstrapEssentialPrefixes (mode : Text) : List Text :=
  if mode = modeGreenfieldFullStack then
    ["package.json", "pnpm-workspace.yaml", "docker-compose.yml", ".env.example", ".gitignore",
      "GREENFIELD_BOOTSTRAP.md", "apps/"].map lit
  else if mode = modeGreenfieldPython then
    ["pyproject.toml", "src/app/", "tests/", ".gitignore", "GREENFIELD_BOOTSTRAP.md"].map lit
  else []

/-- `BOOTSTRAP_HARD_FORBIDDEN_NAMES`. -/
def bootstrapHardForbiddenNames : List Text :=
  [".env", ".env.local", ".env.production", "secrets.json", "credentials.json", "id_rsa",
    "id_ed25519"].map lit

/-- `_is_bootstrap_essential`. -/
def isBootstrapEssential (relPath mode : Text) : Bool :=
  (bootstrapEssentialPrefixes mode).any fun pre =>
    let token := rstripChar slash pre
    token != [] && (isBelow (norm relPath) token || norm relPath == pre
      || (endsWith pre [slash] && startsWith (norm relPath) pre))

/-- `Path(rel_path).name`. -/
def nameOf (relPath : Text) : Text := ((names relPath).getLast?).getD []

/-- `_is_hard_forbidden`. -/
def isHardForbidden (relPath : Text) (forbiddenScope : List Text) : Bool :=
  bootstrapHardForbiddenNames.contains (nameOf relPath)
    || forbiddenScope.any fun entry => tokenOf entry != [] && isBelow (norm relPath) (tokenOf entry)

/-! ## Writing -/

/-- `target.exists()`: what the path leads through is a directory. -/
def targetExists (t : Tree) (root : Location) (ns : List Text) : Bool :=
  (root ++ ns).all isFsName
    && (ns.inits.dropLast.all fun p => t (PosixPath.walk root p) = some .dir)
    && (t (PosixPath.walk root ns)).isSome

/-- Makes directories, one after the other. -/
def makeAll : Tree → List Location → Except Raised Unit × Tree
  | t, [] => (.ok (), t)
  | t, l :: ls =>
    match makeDirs t l with
    | .ok t' => makeAll t' ls
    | .error e => (.error e, t)

/-- `target.parent.mkdir(parents=True, exist_ok=True)`, with the names below the root. -/
def makeParents (t : Tree) (root : Location) (ns : List Text) : Except Raised Unit × Tree :=
  if (root ++ ns).all isFsName = false then (.error .value, t)
  else makeAll t (ns.inits.map (PosixPath.walk root))

/-- The body of the `try`. -/
def writeTarget (t : Tree) (root : Location) (ns : List Text) (content : Text) :
    Except Raised Unit × Tree :=
  match makeParents t root ns.dropLast with
  | (.ok (), t) => writeText t (PosixPath.walk root ns) content
  | (.error e, t) => (.error e, t)

/-- What the loop has done so far. -/
structure Applied where
  tree : Tree
  created : List Text := []
  skipped : List Text := []
  refused : List Text := []
  refusedForbidden : List Text := []
  allowedByException : List Text := []
  errors : List (Text × Text) := []

/-- `entry.relative_path.lstrip("/")`. -/
def BootstrapFile.rel (f : BootstrapFile) : Text := f.relativePath.dropWhile (· = slash)

/-- A call of `apply_bootstrap_plan` on a tree; `reason` is the text of an `OSError`. -/
structure Call where
  root : Location
  plan : BootstrapPlan
  writeScope : List Text := []
  forbiddenScope : List Text := []
  allowBootstrapEssentials : Bool := true
  reason : OsError → Text → Text

namespace Call

variable (c : Call)

def inScope (f : BootstrapFile) : Bool := isInWriteScope f.rel (normalizeWriteScope c.writeScope)

def essential (f : BootstrapFile) : Bool :=
  c.allowBootstrapEssentials && isBootstrapEssential f.rel c.plan.mode

/-- The body of the loop; what is not an `OSError` ends the call, with the tree as it is then. -/
def applyFile (s : Applied) (f : BootstrapFile) : Except Tree Applied :=
  if isHardForbidden f.rel c.forbiddenScope then
    .ok { s with refusedForbidden := s.refusedForbidden ++ [f.rel] }
  else if !c.inScope f && !c.essential f then .ok { s with refused := s.refused ++ [f.rel] }
  else
    let allowed := if c.essential f && !c.inScope f then s.allowedByException ++ [f.rel]
      else s.allowedByException
    if targetExists s.tree c.root (names f.rel) && !f.overwriteExisting then
      .ok { s with skipped := s.skipped ++ [f.rel], allowedByException := allowed }
    else
      match writeTarget s.tree c.root (names f.rel) f.content with
      | (.ok (), t) =>
        .ok { s with tree := t, created := s.created ++ [f.rel], allowedByException := allowed }
      | (.error (.os e), t) =>
        .ok { s with
          tree := t, errors := s.errors ++ [(f.rel, c.reason e f.rel)], allowedByException := allowed }
      | (.error .value, t) => .error t

def resultOf (s : Applied) : BootstrapApplyResult where
  mode := c.plan.mode
  filesCreated := s.created
  filesSkippedExists := s.skipped
  filesRefusedByScope := s.refused
  filesRefusedByForbidden := s.refusedForbidden
  filesAllowedByBootstrapException := s.allowedByException
  writeErrors := s.errors

/-- `apply_bootstrap_plan`. -/
def applyBootstrapPlan (t : Tree) : Except Tree (BootstrapApplyResult × Tree) :=
  if t c.root = some .dir then do
    let s ← c.plan.files.foldlM c.applyFile { tree := t }
    .ok (c.resultOf s, s.tree)
  else
    .ok ({ mode := c.plan.mode
           writeErrors := [(lit "<worktree>", lit "worktree path not a directory")] }, t)

end Call

/-! ## Paths as components -/

/-- The components of the path that the checks look at. -/
def BootstrapFile.components (f : BootstrapFile) : List Text := (norm f.rel).splitOn slash

/-- Each component of the path is a name, and none is `..`. -/
def BootstrapFile.Plain (f : BootstrapFile) : Prop := ∀ n ∈ f.components, isName n = true ∧ n ≠ dotdot

theorem intercalate_append {a b : List Text} (ha : a ≠ []) (hb : b ≠ []) :
    [slash].intercalate (a ++ b) = [slash].intercalate a ++ slash :: [slash].intercalate b := by
  induction a with
  | nil => exact absurd rfl ha
  | cons x a ih =>
    cases a with
    | nil =>
      obtain ⟨y, b, rfl⟩ := List.exists_cons_of_ne_nil hb
      rw [List.singleton_append, List.intercalate_cons_cons, List.intercalate_singleton]
      simp
    | cons y a =>
      rw [List.cons_append, List.cons_append, List.intercalate_cons_cons, ← List.cons_append,
        ih (List.cons_ne_nil _ _), List.intercalate_cons_cons]
      simp

theorem splitOn_ne_nil (t : Text) : t.splitOn slash ≠ [] := by
  rw [List.splitOn_eq_splitOnP]
  exact List.splitOnP_ne_nil _ _

/-- **A path is below another** when it starts with its components. -/
theorem isBelow_iff {path token : Text} :
    isBelow path token = true ↔ token.splitOn slash <+: path.splitOn slash := by
  rw [isBelow, Bool.or_eq_true, beq_iff_eq, Py.startsWith, List.isPrefixOf_iff_prefix]
  constructor
  · rintro (rfl | ⟨rest, rfl⟩)
    · exact List.prefix_rfl
    · rw [List.append_assoc, List.singleton_append, PosixPath.splitOn_append_slash]
      exact List.prefix_append _ _
  · rintro ⟨rest, h⟩
    have hpath : [slash].intercalate (path.splitOn slash) = path := List.intercalate_splitOn slash
    rw [← h] at hpath
    cases rest with
    | nil =>
      rw [List.append_nil, List.intercalate_splitOn] at hpath
      exact .inl hpath.symm
    | cons x rest =>
      rw [intercalate_append (splitOn_ne_nil token) (List.cons_ne_nil _ _),
        List.intercalate_splitOn] at hpath
      exact .inr ⟨[slash].intercalate (x :: rest), by rw [← hpath]; simp⟩

theorem rel_head (f : BootstrapFile) : f.rel.dropWhile (· = slash) = f.rel := by
  rw [BootstrapFile.rel, List.dropWhile_idempotent]

/-- A plain path is joined by its components. -/
theorem names_rel {f : BootstrapFile} (h : f.Plain) : names f.rel = f.components := by
  have hfilter : names (norm f.rel) = f.components :=
    List.filter_eq_self.mpr fun n hn => (h n hn).1
  rw [← hfilter, norm]
  split
  · next hdot =>
    obtain ⟨rest, hrest⟩ := List.isPrefixOf_iff_prefix.mp hdot
    rw [← hrest]
    show names (Py.ofChar '.' :: slash :: rest) = names rest
    have hsplit := PosixPath.names_append_slash [Py.ofChar '.'] rest
    have hone : names [Py.ofChar '.'] = [] := by decide
    rw [hone] at hsplit
    exact hsplit
  · rw [rel_head]

theorem walk_rel {f : BootstrapFile} (h : f.Plain) (root : Location) :
    PosixPath.walk root f.components = root ++ f.components :=
  PosixPath.walk_of_plain (fun hmem => (h _ hmem).2 rfl) root

/-! ## Trees that grow -/

/-- Above whatever is in the tree there are directories. -/
def Closed (t : Tree) : Prop := ∀ l, (t l).isSome = true → ∀ k, k <+: l → k ≠ l → t k = some .dir

/-- Directories stay, and so do files, perhaps with another content. -/
structure Grows (t t' : Tree) : Prop where
  dir : ∀ l, t l = some .dir → t' l = some .dir
  file : ∀ l, (bytesAt t l).isSome = true → (bytesAt t' l).isSome = true

theorem Grows.refl (t : Tree) : Grows t t := ⟨fun _ h => h, fun _ h => h⟩

theorem Grows.trans {t t' t'' : Tree} (h : Grows t t') (h' : Grows t' t'') : Grows t t'' :=
  ⟨fun l hl => h'.dir l (h.dir l hl), fun l hl => h'.file l (h.file l hl)⟩

theorem Grows.isSome {t t' : Tree} (h : Grows t t') {l : Location} (hl : (t l).isSome = true) :
    (t' l).isSome = true := by
  cases hentry : t l with
  | none => simp [hentry] at hl
  | some e =>
    cases e with
    | dir => simp [h.dir l hentry]
    | file b =>
      have hfile := h.file l (by simp [bytesAt, hentry])
      cases hentry' : t' l with
      | none => simp [bytesAt, hentry'] at hfile
      | some e => rfl

theorem makeDirs_spec {t t' : Tree} {loc : Location} (h : makeDirs t loc = .ok t') :
    bytesAt t' = bytesAt t ∧ Grows t t' ∧ t' loc = some .dir ∧ (Closed t → Closed t') := by
  have hbytes := FileTree.bytesAt_makeDirs h
  unfold makeDirs at h
  split at h
  · cases h
  · split at h
    · cases h
    · cases h
      refine ⟨hbytes, ⟨fun l hl => ?_, fun l hl => ?_⟩, ?_, fun hclosed l hl k hk hne => ?_⟩
      · show (if l ∈ loc.inits then _ else _) = _
        split
        · rfl
        · exact hl
      · rw [hbytes]
        exact hl
      · exact if_pos ((List.mem_inits _ _).mpr List.prefix_rfl)
      · dsimp only at hl ⊢
        split at hl
        · next hmem =>
          exact if_pos ((List.mem_inits _ _).mpr (hk.trans ((List.mem_inits _ _).mp hmem)))
        · split
          · rfl
          · exact hclosed l hl k hk hne

/-- A file is in the way of a directory. -/
def Blocks (t : Tree) (loc : Location) : Prop := ∃ l ∈ loc.inits, (bytesAt t l).isSome = true

theorem makeDirs_error_iff {t : Tree} {loc : Location} (hname : loc.all isFsName = true) :
    (∃ e, makeDirs t loc = .error (.os e)) ↔ Blocks t loc := by
  unfold makeDirs Blocks
  rw [if_neg (by simp [hname])]
  split
  · next h => exact iff_of_true ⟨_, rfl⟩ (List.any_eq_true.mp h)
  · next h =>
    refine iff_of_false (by rintro ⟨e, ⟨⟩⟩) fun hblocks => h (List.any_eq_true.mpr hblocks)

theorem makeDirs_ne_value {t : Tree} {loc : Location} (hname : loc.all isFsName = true) :
    makeDirs t loc ≠ .error .value := by
  unfold makeDirs
  rw [if_neg (by simp [hname])]
  split <;> simp

theorem dir_of_makeDirs {t t' : Tree} {loc l : Location} (h : makeDirs t loc = .ok t')
    (hl : t' l = some .dir) : t l = some .dir ∨ l <+: loc := by
  unfold makeDirs at h
  split at h
  · cases h
  · split at h
    · cases h
    · cases h
      have hl : (if l ∈ loc.inits then some .dir else t l) = some .dir := hl
      split at hl
      · next hmem => exact .inr ((List.mem_inits _ _).mp hmem)
      · exact .inl hl

/-- The new directories lead to those that are asked for. -/
theorem dir_of_makeAll {t t' : Tree} {ls : List Location} {res : Except Raised Unit} {l : Location}
    (h : makeAll t ls = (res, t')) (hl : t' l = some .dir) :
    t l = some .dir ∨ ∃ k ∈ ls, l <+: k := by
  induction ls generalizing t with
  | nil =>
    cases h
    exact .inl hl
  | cons k ls ih =>
    rw [makeAll] at h
    cases hmake : makeDirs t k with
    | error e =>
      rw [hmake] at h
      cases h
      exact .inl hl
    | ok made =>
      rw [hmake] at h
      rcases ih h with hmade | ⟨k', hk', hle⟩
      · exact (dir_of_makeDirs hmake hmade).imp_right fun hle => ⟨k, List.mem_cons_self, hle⟩
      · exact .inr ⟨k', List.mem_cons_of_mem _ hk', hle⟩

/-- **What making directories does.** -/
theorem makeAll_spec {t t' : Tree} {ls : List Location} {res : Except Raised Unit}
    (hnames : ∀ l ∈ ls, l.all isFsName = true) (h : makeAll t ls = (res, t')) :
    bytesAt t' = bytesAt t ∧ Grows t t' ∧ (Closed t → Closed t') ∧
      (res = .ok () ∧ (∀ l ∈ ls, t' l = some .dir) ∧ (∀ l ∈ ls, ¬Blocks t l) ∨
        ∃ e, res = .error (.os e) ∧ ∃ l ∈ ls, Blocks t l) := by
  induction ls generalizing t with
  | nil =>
    cases h
    exact ⟨rfl, .refl _, id, .inl ⟨rfl, fun _ h => (nomatch h), fun _ h => (nomatch h)⟩⟩
  | cons l ls ih =>
    have hname := hnames l List.mem_cons_self
    rw [makeAll] at h
    cases hmake : makeDirs t l with
    | error e =>
      rw [hmake] at h
      cases h
      refine ⟨rfl, .refl _, id, .inr ?_⟩
      cases e with
      | os e =>
        exact ⟨e, rfl, l, List.mem_cons_self, (makeDirs_error_iff hname).mp ⟨e, hmake⟩⟩
      | value => exact absurd hmake (makeDirs_ne_value hname)
    | ok made =>
      rw [hmake] at h
      obtain ⟨hbytes, hgrows, hdir, hclosed⟩ := makeDirs_spec hmake
      obtain ⟨hbytes', hgrows', hclosed', hres⟩ := ih (fun l hl => hnames l (List.mem_cons_of_mem _ hl)) h
      have hsame : ∀ l, Blocks made l ↔ Blocks t l := fun l => by
        unfold Blocks
        rw [hbytes]
      have hfree : ¬Blocks t l := fun hblocks => by
        obtain ⟨e, he⟩ := (makeDirs_error_iff hname).mpr hblocks
        rw [hmake] at he
        cases he
      refine ⟨hbytes'.trans hbytes, hgrows.trans hgrows', hclosed' ∘ hclosed, ?_⟩
      rcases hres with ⟨hok, hdirs, hfrees⟩ | ⟨e, he, l', hl', hblocks⟩
      · refine .inl ⟨hok, List.forall_mem_cons.mpr ⟨hgrows'.dir l hdir, hdirs⟩,
          List.forall_mem_cons.mpr ⟨hfree, fun l' hl' => ?_⟩⟩
        rw [← hsame]
        exact hfrees l' hl'
      · exact .inr ⟨e, he, l', List.mem_cons_of_mem _ hl', (hsame l').mp hblocks⟩

/-- The directories that lead to a file. -/
def parents (root : Location) (ns : List Text) : List Location :=
  ns.dropLast.inits.map (PosixPath.walk root)

/-- The target is there, with the directories that lead to it. -/
def Present (t : Tree) (root : Location) (ns : List Text) : Prop :=
  (∀ l ∈ parents root ns, t l = some .dir) ∧ (t (PosixPath.walk root ns)).isSome = true

theorem dropLast_inits {ns : List Text} (h : ns ≠ []) : ns.inits.dropLast = ns.dropLast.inits := by
  obtain ⟨ms, n, rfl⟩ : ∃ ms n, ns = ms ++ [n] := ⟨_, _, (List.dropLast_append_getLast h).symm⟩
  rw [List.dropLast_concat, List.inits_append]
  simp

theorem targetExists_iff {t : Tree} {root : Location} {ns : List Text} (h : ns ≠ []) :
    targetExists t root ns = true ↔ (root ++ ns).all isFsName = true ∧ Present t root ns := by
  rw [targetExists, dropLast_inits h, Bool.and_eq_true, Bool.and_eq_true, and_assoc, Present, parents,
    List.all_eq_true (l := ns.dropLast.inits)]
  simp only [List.forall_mem_map, decide_eq_true_eq]

/-- A file is in the way of the directories that lead to the target. -/
def Blocked (t : Tree) (root : Location) (ns : List Text) : Prop := ∃ l ∈ parents root ns, Blocks t l

/-- A target that a call has nothing more to do for. -/
def Settled (t : Tree) (root : Location) (ns : List Text) : Prop :=
  ((root ++ ns).all isFsName = true ∧ Present t root ns) ∨
    ((root ++ ns.dropLast).all isFsName = true ∧ Blocked t root ns)

theorem Settled.mono {t t' : Tree} {root : Location} {ns : List Text} (h : Settled t root ns)
    (hgrows : Grows t t') : Settled t' root ns := by
  refine h.imp (fun ⟨hname, hdirs, hsome⟩ => ?_) fun ⟨hname, l, hl, k, hk, hfile⟩ => ?_
  · exact ⟨hname, fun l hl => hgrows.dir l (hdirs l hl), hgrows.isSome hsome⟩
  · exact ⟨hname, l, hl, k, hk, hgrows.file k hfile⟩

section Target

variable {t t' : Tree} {root : Location} {ns : List Text} {content : Text} {res : Except Raised Unit}

theorem mem_parents (hplain : dotdot ∉ ns) {l : Location} :
    l ∈ parents root ns ↔ ∃ p, p <+: ns.dropLast ∧ l = root ++ p := by
  rw [parents, List.mem_map]
  have hwalk : ∀ p, p <+: ns.dropLast → PosixPath.walk root p = root ++ p := fun p hp =>
    PosixPath.walk_of_plain (fun h => hplain ((List.dropLast_subset ns) (hp.subset h))) root
  constructor
  · rintro ⟨p, hp, rfl⟩
    rw [List.mem_inits] at hp
    exact ⟨p, hp, hwalk p hp⟩
  · rintro ⟨p, hp, rfl⟩
    exact ⟨p, (List.mem_inits _ _).mpr hp, hwalk p hp⟩

theorem ne_of_mem_parents (hne : ns ≠ []) (hplain : dotdot ∉ ns) {l : Location}
    (h : l ∈ parents root ns) : l ≠ root ++ ns := by
  obtain ⟨p, hp, rfl⟩ := (mem_parents hplain).mp h
  intro heq
  have hlen := congrArg List.length (List.append_cancel_left heq)
  have hle := hp.length_le
  have hpos := List.length_pos_of_ne_nil hne
  rw [List.length_dropLast] at hle
  omega

theorem makeParents_spec (hplain : dotdot ∉ ns)
    (h : makeParents t root ns.dropLast = (res, t')) :
    bytesAt t' = bytesAt t ∧ Grows t t' ∧ (Closed t → Closed t') ∧
      (((root ++ ns.dropLast).all isFsName = false ∧ res = .error .value) ∨
        (root ++ ns.dropLast).all isFsName = true ∧
          (res = .ok () ∧ (∀ l ∈ parents root ns, t' l = some .dir) ∧ ¬Blocked t root ns ∨
            ∃ e, res = .error (.os e) ∧ Blocked t root ns)) := by
  unfold makeParents at h
  split at h
  · next hname =>
    cases h
    exact ⟨rfl, .refl _, id, .inl ⟨hname, rfl⟩⟩
  · next hname =>
    have hname : (root ++ ns.dropLast).all isFsName = true := by simpa using hname
    have hnames : ∀ l ∈ parents root ns, l.all isFsName = true := by
      intro l hl
      obtain ⟨p, hp, rfl⟩ := (mem_parents hplain).mp hl
      rw [List.all_eq_true] at hname ⊢
      exact fun n hn => hname n ((List.prefix_append_right_inj root).mpr hp |>.subset hn)
    obtain ⟨hbytes, hgrows, hclosed, hres⟩ := makeAll_spec hnames h
    refine ⟨hbytes, hgrows, hclosed, .inr ⟨hname, hres.imp ?_ id⟩⟩
    exact fun ⟨hok, hdirs, hfree⟩ => ⟨hok, hdirs, fun ⟨l, hl, hblocks⟩ => hfree l hl hblocks⟩

theorem grows_put {loc : Location} (hdir : t loc ≠ some .dir) (b : ByteArray) : Grows t (put t loc b) := by
  constructor
  · intro l hl
    have hother : l ≠ loc := fun heq => hdir (heq ▸ hl)
    show (if l = loc then _ else _) = _
    rw [if_neg hother, hl]
  · intro l hl
    rw [FileTree.bytesAt_put]
    split
    · rfl
    · exact hl

theorem closed_put (hne : ns ≠ []) (hclosed : Closed t) (hparent : t (root ++ ns.dropLast) = some .dir)
    (hdir : t (root ++ ns) ≠ some .dir) (b : ByteArray) : Closed (put t (root ++ ns) b) := by
  intro l hl k hk hkl
  have hl : (if l = root ++ ns then some (FileTree.Entry.file b) else t l).isSome = true := hl
  show (if k = root ++ ns then _ else _) = _
  have habove : t k = some .dir := by
    by_cases hloc : l = root ++ ns
    · subst hloc
      have hsplit : root ++ ns = root ++ ns.dropLast ++ [ns.getLast hne] := by
        rw [List.append_assoc, List.dropLast_append_getLast]
      rw [hsplit] at hk hkl
      have hk : k <+: root ++ ns.dropLast := (List.prefix_concat_iff.mp hk).resolve_left hkl
      by_cases heq : k = root ++ ns.dropLast
      · rw [heq, hparent]
      · exact hclosed _ (by rw [hparent]; rfl) k hk heq
    · rw [if_neg hloc] at hl
      exact hclosed l hl k hk hkl
  have hother : k ≠ root ++ ns := fun heq => hdir (heq ▸ habove)
  rw [if_neg hother, habove]

/-- **What a write leaves of the tree.** -/
theorem writeTarget_spec (hne : ns ≠ []) (hplain : dotdot ∉ ns)
    (h : writeTarget t root ns content = (res, t')) :
    (∀ l, l ≠ root ++ ns → bytesAt t' l = bytesAt t l) ∧ Grows t t' ∧ (Closed t → Closed t') ∧
      ((root ++ ns).all isFsName = true ∨ bytesAt t' = bytesAt t ∧ res ≠ .ok ()) ∧
      (res ≠ .error .value → Settled t' root ns) := by
  have hwalk : PosixPath.walk root ns = root ++ ns := PosixPath.walk_of_plain hplain root
  unfold writeTarget at h
  cases hmake : makeParents t root ns.dropLast with
  | mk made t₁ =>
    rw [hmake] at h
    obtain ⟨hbytes, hgrows, hclosed, hres⟩ := makeParents_spec hplain hmake
    rcases hres with ⟨-, rfl⟩ | ⟨hname, ⟨rfl, hdirs, -⟩ | ⟨e, rfl, l, hl, hblocks⟩⟩
    · cases h
      exact ⟨fun l _ => by rw [hbytes], hgrows, hclosed, .inr ⟨hbytes, by simp⟩, fun h => absurd rfl h⟩
    · have h : writeText t₁ (PosixPath.walk root ns) content = (res, t') := h
      rw [hwalk] at h
      unfold writeText at h
      have hparent : t₁ (root ++ ns.dropLast) = some .dir :=
        hdirs _ ((mem_parents hplain).mpr ⟨_, List.prefix_rfl, rfl⟩)
      split at h
      · cases h
        exact ⟨fun l _ => by rw [hbytes], hgrows, hclosed, .inr ⟨hbytes, by simp⟩, fun h => absurd rfl h⟩
      · next hfs =>
        have hfs : (root ++ ns).all isFsName = true := by simpa using hfs
        split at h
        · next hdir =>
          cases h
          refine ⟨fun l _ => by rw [hbytes], hgrows, hclosed, .inl hfs, fun _ => .inl ⟨hfs, hdirs, ?_⟩⟩
          rw [hwalk, hdir]
          rfl
        · next hdir =>
          have hput : ∀ b, (∀ l, l ≠ root ++ ns → bytesAt (put t₁ (root ++ ns) b) l = bytesAt t l) ∧
              Grows t (put t₁ (root ++ ns) b) ∧ (Closed t → Closed (put t₁ (root ++ ns) b)) := by
            intro b
            refine ⟨fun l hl => ?_, hgrows.trans (grows_put hdir b), fun ht => ?_⟩
            · rw [FileTree.bytesAt_put, if_neg hl, hbytes]
            · exact closed_put hne (hclosed ht) hparent hdir b
          cases hencode : Py.encode content with
          | none =>
            rw [hencode] at h
            cases h
            obtain ⟨hframe, hgrows', hclosed'⟩ := hput .empty
            exact ⟨hframe, hgrows', hclosed', .inl hfs, fun h => absurd rfl h⟩
          | some b =>
            rw [hencode] at h
            cases h
            obtain ⟨hframe, hgrows', hclosed'⟩ := hput b
            refine ⟨hframe, hgrows', hclosed', .inl hfs, fun _ => .inl ⟨hfs, fun l hl => ?_, ?_⟩⟩
            · exact (grows_put hdir b).dir l (hdirs l hl)
            · rw [hwalk]
              show (if root ++ ns = root ++ ns then _ else _ : Option FileTree.Entry).isSome = true
              rw [if_pos rfl]
              rfl
    · cases h
      refine ⟨fun l _ => by rw [hbytes], hgrows, hclosed, .inr ⟨hbytes, by simp⟩,
        fun _ => .inr ⟨hname, l, hl, ?_⟩⟩
      unfold Blocks
      rwa [hbytes]

/-- A target that is blocked is not written, and the write does not raise anything else. -/
theorem writeTarget_of_blocked (hplain : dotdot ∉ ns) (hname : (root ++ ns.dropLast).all isFsName = true)
    (hblocked : Blocked t root ns) : ∃ e t', writeTarget t root ns content = (.error (.os e), t') := by
  unfold writeTarget
  cases hmake : makeParents t root ns.dropLast with
  | mk made t₁ =>
    obtain ⟨-, -, -, hres⟩ := makeParents_spec hplain hmake
    rcases hres with ⟨hno, -⟩ | ⟨-, ⟨-, -, hfree⟩ | ⟨e, rfl, -⟩⟩
    · rw [hname] at hno
      cases hno
    · exact absurd hblocked hfree
    · exact ⟨e, t₁, rfl⟩

end Target

/-! ## One file -/

theorem components_ne_nil (f : BootstrapFile) : f.components ≠ [] := splitOn_ne_nil _

theorem BootstrapFile.Plain.dotdot {f : BootstrapFile} (h : f.Plain) : dotdot ∉ f.components :=
  fun hmem => (h _ hmem).2 rfl

namespace Call

variable (c : Call)

/-- The checks let the file through. -/
def Admitted (f : BootstrapFile) : Prop :=
  isHardForbidden f.rel c.forbiddenScope = false ∧ (c.inScope f = true ∨ c.essential f = true)

/-- What a file that is let through adds to `files_allowed_by_bootstrap_exception`. -/
def exception (f : BootstrapFile) : List Text :=
  if c.essential f && !c.inScope f then [f.rel] else []

/-- What the body of the loop does with a file. -/
inductive Outcome (s : Applied) (f : BootstrapFile) : Except Tree Applied → Prop where
  | refused {s'} (hnot : ¬c.Admitted f) (htree : s'.tree = s.tree) (hcreated : s'.created = s.created)
      (hallowed : s'.allowedByException = s.allowedByException) : Outcome s f (.ok s')
  | skipped {s'} (hadmitted : c.Admitted f) (hexists : targetExists s.tree c.root (names f.rel) = true)
      (htree : s'.tree = s.tree) (hcreated : s'.created = s.created)
      (hallowed : s'.allowedByException = s.allowedByException ++ c.exception f) : Outcome s f (.ok s')
  | wrote {s'} (hadmitted : c.Admitted f)
      (hmay : targetExists s.tree c.root (names f.rel) = false ∨ f.overwriteExisting = true)
      (hwrite : writeTarget s.tree c.root (names f.rel) f.content = (.ok (), s'.tree))
      (hcreated : s'.created = s.created ++ [f.rel])
      (hallowed : s'.allowedByException = s.allowedByException ++ c.exception f) : Outcome s f (.ok s')
  | failed {s'} {e : OsError} (hadmitted : c.Admitted f)
      (hmay : targetExists s.tree c.root (names f.rel) = false ∨ f.overwriteExisting = true)
      (hwrite : writeTarget s.tree c.root (names f.rel) f.content = (.error (.os e), s'.tree))
      (hcreated : s'.created = s.created)
      (hallowed : s'.allowedByException = s.allowedByException ++ c.exception f) : Outcome s f (.ok s')
  | raised {t'} (hadmitted : c.Admitted f)
      (hmay : targetExists s.tree c.root (names f.rel) = false ∨ f.overwriteExisting = true)
      (hwrite : writeTarget s.tree c.root (names f.rel) f.content = (.error .value, t')) :
      Outcome s f (.error t')

theorem applyFile_outcome (s : Applied) (f : BootstrapFile) : c.Outcome s f (c.applyFile s f) := by
  unfold applyFile
  cases hforbidden : isHardForbidden f.rel c.forbiddenScope with
  | true =>
    rw [if_pos rfl]
    exact .refused (fun h => by rw [h.1] at hforbidden; cases hforbidden) rfl rfl rfl
  | false =>
    rw [if_neg Bool.false_ne_true]
    by_cases hrefused : (!c.inScope f && !c.essential f) = true
    · rw [if_pos hrefused]
      simp only [Bool.and_eq_true, Bool.not_eq_true'] at hrefused
      refine .refused (fun h => ?_) rfl rfl rfl
      rcases h.2 with h | h
      · rw [hrefused.1] at h
        cases h
      · rw [hrefused.2] at h
        cases h
    · rw [if_neg hrefused]
      have hadmitted : c.Admitted f := by
        refine ⟨hforbidden, ?_⟩
        cases hscope : c.inScope f with
        | true => exact .inl rfl
        | false =>
          refine .inr ?_
          rw [hscope] at hrefused
          simpa using hrefused
      have hallowed : (if c.essential f && !c.inScope f then s.allowedByException ++ [f.rel]
          else s.allowedByException) = s.allowedByException ++ c.exception f := by
        unfold exception
        split
        · rfl
        · rw [List.append_nil]
      dsimp only
      by_cases hskip : (targetExists s.tree c.root (names f.rel) && !f.overwriteExisting) = true
      · rw [if_pos hskip]
        exact .skipped hadmitted (Bool.and_eq_true_iff.mp hskip).1 rfl rfl hallowed
      · rw [if_neg hskip]
        have hmay : targetExists s.tree c.root (names f.rel) = false ∨ f.overwriteExisting = true := by
          cases hexists : targetExists s.tree c.root (names f.rel) with
          | false => exact .inl rfl
          | true =>
            refine .inr ?_
            rw [hexists] at hskip
            simpa using hskip
        split
        · next t hwrite => exact .wrote hadmitted hmay hwrite rfl hallowed
        · next e t hwrite => exact .failed hadmitted hmay hwrite rfl hallowed
        · next t hwrite => exact .raised hadmitted hmay hwrite

/-- A location that a file of the list is written to. -/
def Reaches (files : List BootstrapFile) (l : Location) : Prop :=
  ∃ f ∈ files, c.Admitted f ∧ l = c.root ++ f.components ∧ l.all isFsName = true

/-- What has changed since `t` is where a file was written, and was not there or is overwritten. -/
def Changes (files : List BootstrapFile) (t t' : Tree) : Prop :=
  ∀ l, bytesAt t' l ≠ bytesAt t l →
    c.Reaches files l ∧
      (bytesAt t l = none ∨ ∃ f ∈ files, l = c.root ++ f.components ∧ f.overwriteExisting = true)

/-- **What holds in the loop**, after some files, from the tree `t` on. -/
structure Inv (t : Tree) (files : List BootstrapFile) (s : Applied) : Prop where
  grows : Grows t s.tree
  closed : Closed s.tree
  changes : c.Changes files t s.tree
  created : ∀ r ∈ s.created, ∃ f ∈ files, r = f.rel ∧ c.Reaches files (c.root ++ f.components)
  listed : ∀ f ∈ files, c.Admitted f → c.inScope f = false → f.rel ∈ s.allowedByException
  settled : ∀ f ∈ files, c.Admitted f → Settled s.tree c.root f.components

variable {c}

theorem Reaches.mono {files files' : List BootstrapFile} {l : Location} (h : c.Reaches files l)
    (hsub : files ⊆ files') : c.Reaches files' l := by
  obtain ⟨f, hf, hreaches⟩ := h
  exact ⟨f, hsub hf, hreaches⟩

theorem Changes.mono {files files' : List BootstrapFile} {t t' : Tree} (h : c.Changes files t t')
    (hsub : files ⊆ files') : c.Changes files' t t' := by
  intro l hl
  obtain ⟨hreaches, hmay⟩ := h l hl
  exact ⟨hreaches.mono hsub, hmay.imp_right fun ⟨f, hf, h⟩ => ⟨f, hsub hf, h⟩⟩

/-- A write changes the target only, and a file there only to overwrite it. -/
theorem changes_write {files : List BootstrapFile} {t : Tree} {s : Applied} (h : c.Inv t files s)
    {f : BootstrapFile} (hplain : f.Plain) (hadmitted : c.Admitted f)
    (hmay : targetExists s.tree c.root (names f.rel) = false ∨ f.overwriteExisting = true)
    {res : Except Raised Unit} {t' : Tree}
    (hwrite : writeTarget s.tree c.root (names f.rel) f.content = (res, t')) :
    c.Changes (files ++ [f]) t t' := by
  rw [names_rel hplain] at hmay hwrite
  obtain ⟨hframe, -, -, hname, -⟩ := writeTarget_spec (components_ne_nil f) hplain.dotdot hwrite
  have hbefore := h.changes.mono (List.subset_append_left files [f])
  have hmem : f ∈ files ++ [f] := List.mem_append_right _ (List.mem_singleton_self f)
  intro l hl
  by_cases htarget : l = c.root ++ f.components
  · rcases hname with hname | ⟨hsame, -⟩
    · refine ⟨⟨f, hmem, hadmitted, htarget, htarget ▸ hname⟩, ?_⟩
      rcases hmay with hmissing | hover
      · refine .inl ?_
        by_contra hfile
        have hfile := h.grows.file l (Option.isSome_iff_ne_none.mpr hfile)
        have hsome : (s.tree (c.root ++ f.components)).isSome = true := by
          rw [← htarget]
          unfold bytesAt at hfile
          split at hfile
          · next b hb => rw [hb]; rfl
          · cases hfile
        have hpresent : Present s.tree c.root f.components := by
          refine ⟨fun k hk => ?_, by rw [walk_rel hplain]; exact hsome⟩
          have hne := ne_of_mem_parents (components_ne_nil f) hplain.dotdot hk
          obtain ⟨p, hp, rfl⟩ := (mem_parents hplain.dotdot).mp hk
          exact h.closed _ hsome _ ((List.prefix_append_right_inj c.root).mpr
            (hp.trans (List.dropLast_prefix _))) hne
        rw [(targetExists_iff (components_ne_nil f)).mpr ⟨hname, hpresent⟩] at hmissing
        cases hmissing
      · exact .inr ⟨f, hmem, htarget, hover⟩
    · exact hbefore l (by rwa [hsame] at hl)
  · exact hbefore l (by rwa [hframe l htarget] at hl)

theorem mem_exception {f : BootstrapFile} (hadmitted : c.Admitted f) (hscope : c.inScope f = false) :
    f.rel ∈ c.exception f := by
  have hessential : c.essential f = true := by
    rcases hadmitted.2 with h | h
    · rw [hscope] at h
      cases h
    · exact h
  rw [exception, hessential, hscope]
  exact List.mem_singleton_self _

variable (c) in
/-- What holds when the loop is left: the invariant, or what it says of the tree. -/
def After (t : Tree) (files : List BootstrapFile) : Except Tree Applied → Prop
  | .ok s => c.Inv t files s
  | .error t' => c.Changes files t t'

/-- A file that is let through adds to the invariant what is known of its target. -/
theorem Inv.extend {files : List BootstrapFile} {t : Tree} {s s' : Applied} (h : c.Inv t files s)
    {f : BootstrapFile} (hgrows : Grows s.tree s'.tree) (hclosed : Closed s.tree → Closed s'.tree)
    (hchanges : c.Changes (files ++ [f]) t s'.tree)
    (hcreated : s'.created = s.created ∨ s'.created = s.created ++ [f.rel] ∧
      c.Reaches (files ++ [f]) (c.root ++ f.components))
    (hallowed : s'.allowedByException = s.allowedByException ++ c.exception f)
    (hsettled : Settled s'.tree c.root f.components) : c.Inv t (files ++ [f]) s' where
  grows := h.grows.trans hgrows
  closed := hclosed h.closed
  changes := hchanges
  created r hr := by
    have hold : r ∈ s.created → ∃ g ∈ files ++ [f], r = g.rel ∧
        c.Reaches (files ++ [f]) (c.root ++ g.components) := fun hr => by
      obtain ⟨g, hg, hrel, hreaches⟩ := h.created r hr
      exact ⟨g, List.mem_append_left _ hg, hrel, hreaches.mono (List.subset_append_left _ _)⟩
    rcases hcreated with hsame | ⟨hnew, hreaches⟩
    · exact hold (hsame ▸ hr)
    · rw [hnew] at hr
      rcases List.mem_append.mp hr with hr | hr
      · exact hold hr
      · exact ⟨f, List.mem_append_right _ (List.mem_singleton_self f), List.mem_singleton.mp hr, hreaches⟩
  listed g hg hadmitted hscope := by
    rw [hallowed]
    rcases List.mem_append.mp hg with hg | hg
    · exact List.mem_append_left _ (h.listed g hg hadmitted hscope)
    · rw [List.mem_singleton.mp hg] at hadmitted hscope ⊢
      exact List.mem_append_right _ (mem_exception hadmitted hscope)
  settled g hg hadmitted := by
    rcases List.mem_append.mp hg with hg | hg
    · exact (h.settled g hg hadmitted).mono hgrows
    · rwa [List.mem_singleton.mp hg]

/-- **One file** keeps the invariant. -/
theorem after_applyFile {files : List BootstrapFile} {t : Tree} {s : Applied} (h : c.Inv t files s)
    {f : BootstrapFile} (hplain : f.Plain) : c.After t (files ++ [f]) (c.applyFile s f) := by
  have hsub := List.subset_append_left files [f]
  have hself : f ∈ files ++ [f] := List.mem_append_right _ (List.mem_singleton_self f)
  have houtcome := c.applyFile_outcome s f
  generalize c.applyFile s f = result at houtcome
  cases houtcome with
  | @refused s' hnot htree hcreated hallowed =>
    refine ⟨htree ▸ h.grows, htree ▸ h.closed, htree ▸ h.changes.mono hsub, fun r hr => ?_,
      fun g hg hadmitted hscope => ?_, fun g hg hadmitted => ?_⟩
    · rw [hcreated] at hr
      obtain ⟨g, hg, hrel, hreaches⟩ := h.created r hr
      exact ⟨g, hsub hg, hrel, hreaches.mono hsub⟩
    · rw [hallowed]
      rcases List.mem_append.mp hg with hg | hg
      · exact h.listed g hg hadmitted hscope
      · rw [List.mem_singleton.mp hg] at hadmitted
        exact absurd hadmitted hnot
    · rw [htree]
      rcases List.mem_append.mp hg with hg | hg
      · exact h.settled g hg hadmitted
      · rw [List.mem_singleton.mp hg] at hadmitted
        exact absurd hadmitted hnot
  | @skipped s' hadmitted hexists htree hcreated hallowed =>
    rw [names_rel hplain] at hexists
    have hsettled : Settled s.tree c.root f.components :=
      .inl ((targetExists_iff (components_ne_nil f)).mp hexists)
    refine h.extend (htree ▸ .refl _) (fun hclosed => htree ▸ hclosed) ?_ (.inl hcreated) hallowed
      (htree ▸ hsettled)
    rw [htree]
    exact h.changes.mono hsub
  | @wrote s' hadmitted hmay hwrite hcreated hallowed =>
    have hchanges := changes_write h hplain hadmitted hmay hwrite
    rw [names_rel hplain] at hwrite
    obtain ⟨-, hgrows, hclosed, hname, hsettled⟩ :=
      writeTarget_spec (components_ne_nil f) hplain.dotdot hwrite
    have hname := hname.resolve_right fun h => h.2 rfl
    exact h.extend hgrows hclosed hchanges
      (.inr ⟨hcreated, f, hself, hadmitted, rfl, hname⟩) hallowed (hsettled (by simp))
  | @failed s' e hadmitted hmay hwrite hcreated hallowed =>
    have hchanges := changes_write h hplain hadmitted hmay hwrite
    rw [names_rel hplain] at hwrite
    obtain ⟨-, hgrows, hclosed, -, hsettled⟩ :=
      writeTarget_spec (components_ne_nil f) hplain.dotdot hwrite
    exact h.extend hgrows hclosed hchanges (.inl hcreated) hallowed (hsettled (by simp))
  | raised hadmitted hmay hwrite => exact changes_write h hplain hadmitted hmay hwrite

/-- **The loop** keeps the invariant. -/
theorem after_files {more : List BootstrapFile} (hplain : ∀ f ∈ more, f.Plain)
    {files : List BootstrapFile} {t : Tree} {s : Applied} (h : c.Inv t files s) :
    c.After t (files ++ more) (more.foldlM c.applyFile s) := by
  induction more generalizing files s with
  | nil =>
    rw [List.append_nil]
    exact h
  | cons f more ih =>
    have hstep := after_applyFile h (hplain f List.mem_cons_self)
    rw [List.foldlM_cons]
    have hsplit : files ++ f :: more = files ++ [f] ++ more := by simp
    rw [hsplit]
    cases hresult : c.applyFile s f with
    | error t' =>
      rw [hresult] at hstep
      exact Changes.mono hstep (List.subset_append_left _ _)
    | ok s' =>
      rw [hresult] at hstep
      exact ih (fun g hg => hplain g (List.mem_cons_of_mem _ hg)) hstep

/-- **A second call** creates nothing: what it lets through is there, or cannot be made. -/
theorem rerun {files : List BootstrapFile} (hplain : ∀ f ∈ files, f.Plain)
    (hover : ∀ f ∈ files, f.overwriteExisting = false) {s : Applied}
    (hsettled : ∀ f ∈ files, c.Admitted f → Settled s.tree c.root f.components) :
    ∃ s', files.foldlM c.applyFile s = .ok s' ∧ s'.created = s.created := by
  induction files generalizing s with
  | nil => exact ⟨s, rfl, rfl⟩
  | cons f files ih =>
    have hf := hplain f List.mem_cons_self
    have hrest : ∀ s' : Applied, Grows s.tree s'.tree → c.applyFile s f = .ok s' →
        s'.created = s.created →
        ∃ s'', (f :: files).foldlM c.applyFile s = .ok s'' ∧ s''.created = s.created := by
      intro s' hgrows hresult hcreated
      obtain ⟨s'', hrun, hsame⟩ := ih (fun g hg => hplain g (List.mem_cons_of_mem _ hg))
        (fun g hg => hover g (List.mem_cons_of_mem _ hg)) (s := s')
        fun g hg hadmitted => (hsettled g (List.mem_cons_of_mem _ hg) hadmitted).mono hgrows
      refine ⟨s'', ?_, hsame.trans hcreated⟩
      rw [List.foldlM_cons, hresult]
      exact hrun
    -- a write could only be tried where it is blocked
    have hblocked : ∀ {res t'}, c.Admitted f →
        (targetExists s.tree c.root (names f.rel) = false ∨ f.overwriteExisting = true) →
        writeTarget s.tree c.root (names f.rel) f.content = (res, t') → ∃ e, res = .error (.os e) := by
      intro res t' hadmitted hmay hwrite
      rw [names_rel hf] at hmay hwrite
      rw [hover f List.mem_cons_self] at hmay
      rcases hsettled f List.mem_cons_self hadmitted with hpresent | ⟨hname, hblocked⟩
      · rw [(targetExists_iff (components_ne_nil f)).mpr hpresent] at hmay
        rcases hmay with h | h <;> cases h
      · obtain ⟨e, t'', h⟩ := writeTarget_of_blocked hf.dotdot hname hblocked
        rw [h] at hwrite
        cases hwrite
        exact ⟨e, rfl⟩
    have houtcome := c.applyFile_outcome s f
    generalize hresult : c.applyFile s f = result at houtcome
    cases houtcome with
    | @refused s' hnot htree hcreated hallowed =>
      exact hrest s' (htree ▸ .refl _) hresult hcreated
    | @skipped s' hadmitted hexists htree hcreated hallowed =>
      exact hrest s' (htree ▸ .refl _) hresult hcreated
    | wrote hadmitted hmay hwrite hcreated hallowed =>
      obtain ⟨e, h⟩ := hblocked hadmitted hmay hwrite
      cases h
    | @failed s' e hadmitted hmay hwrite hcreated hallowed =>
      refine hrest s' ?_ hresult hcreated
      rw [names_rel hf] at hwrite
      exact (writeTarget_spec (components_ne_nil f) hf.dotdot hwrite).2.1
    | raised hadmitted hmay hwrite =>
      obtain ⟨e, h⟩ := hblocked hadmitted hmay hwrite
      cases h

end Call

/-! ## What the forbidden scope says -/

/-- An entry without a leading `./`. -/
def withoutDot (entry : Text) : Text := if startsWith entry (lit "./") then entry.drop 2 else entry

/-- An entry without a trailing `/*` or `/**`; `*` and `**` leave nothing. -/
def withoutStars (entry : Text) : Text :=
  if entry = lit "**" ∨ entry = lit "*" then []
  else if endsWith entry (lit "/**") then entry.take (entry.length - 3)
  else if endsWith entry (lit "/*") then entry.take (entry.length - 2)
  else entry

/-- The path prefix that an entry stands for. -/
def reading (entry : Text) : Text := rstripChar slash (withoutStars (withoutDot (strip entry)))

def readComponents (entry : Text) : List Text :=
  if reading entry = [] then [] else (reading entry).splitOn slash

/-- The entry forbids a path, by its components. -/
def Forbids (entry : Text) (ns : List Text) : Prop := strip entry ≠ [] ∧ readComponents entry <+: ns

/-- A component that a file can have. -/
def Usable (n : Text) : Prop := isName n = true ∧ n ≠ dotdot ∧ isFsName n = true

/-- What an entry stands for starts with what the check looks for, of this entry or of another one. -/
def Honoured (forbiddenScope : List Text) : Prop :=
  ∀ entry ∈ forbiddenScope, strip entry ≠ [] → (∀ n ∈ readComponents entry, Usable n) →
    ∃ other ∈ forbiddenScope, tokenOf other ≠ [] ∧
      (tokenOf other).splitOn slash <+: readComponents entry

/-- **What the check refuses.** -/
theorem isHardForbidden_iff {f : BootstrapFile} (hplain : f.Plain) (forbiddenScope : List Text) :
    isHardForbidden f.rel forbiddenScope = true ↔
      (∃ n ∈ bootstrapHardForbiddenNames, f.components.getLast? = some n) ∨
        ∃ entry ∈ forbiddenScope, tokenOf entry ≠ [] ∧ (tokenOf entry).splitOn slash <+: f.components := by
  have hlast : nameOf f.rel = f.components.getLast (components_ne_nil f) := by
    rw [nameOf, names_rel hplain, List.getLast?_eq_getLast_of_ne_nil (components_ne_nil f)]
    rfl
  rw [isHardForbidden, Bool.or_eq_true, List.contains_iff_mem, List.any_eq_true, hlast]
  refine or_congr ?_ (exists_congr fun entry => and_congr_right fun _ => ?_)
  · rw [List.getLast?_eq_getLast_of_ne_nil (components_ne_nil f)]
    constructor
    · exact fun h => ⟨_, h, rfl⟩
    · rintro ⟨n, hn, heq⟩
      rwa [Option.some.inj heq]
  · rw [Bool.and_eq_true, bne_iff_ne, isBelow_iff]
    rfl

/-- In an honoured scope a path that an entry forbids is refused. -/
theorem forbidden_of_honoured {f : BootstrapFile} (hplain : f.Plain) {forbiddenScope : List Text}
    (hhonoured : Honoured forbiddenScope) (hname : ∀ n ∈ f.components, isFsName n = true) {entry : Text}
    (hentry : entry ∈ forbiddenScope) (hforbids : Forbids entry f.components) :
    isHardForbidden f.rel forbiddenScope = true := by
  obtain ⟨hnonblank, hread⟩ := hforbids
  obtain ⟨other, hother, htoken, hle⟩ := hhonoured entry hentry hnonblank fun n hn =>
    ⟨(hplain n (hread.subset hn)).1, (hplain n (hread.subset hn)).2, hname n (hread.subset hn)⟩
  exact (isHardForbidden_iff hplain _).mpr (.inr ⟨other, hother, htoken, hle.trans hread⟩)

/-! ## Governed calls -/

/-- The text of a path, from its components. -/
def pathOf (ns : List Text) : Text := [slash].intercalate ns

namespace Call

variable (c : Call)

/-- The tree after a call, also one that raises. -/
def treeAfter (t : Tree) : Tree :=
  match c.applyBootstrapPlan t with
  | .ok (_, t') => t'
  | .error t' => t'

/-- The call returns a result. -/
def Returns (t : Tree) (result : BootstrapApplyResult) (t' : Tree) : Prop :=
  c.applyBootstrapPlan t = .ok (result, t')

/-- A file is created or changed, or the result says so. -/
def Written (t : Tree) (ns : List Text) : Prop :=
  bytesAt (c.treeAfter t) (c.root ++ ns) ≠ bytesAt t (c.root ++ ns) ∨
    ∃ result t', c.Returns t result t' ∧ ∃ r ∈ result.filesCreated, names r = ns

/-- The writes of a call are governed. -/
structure Governed (t : Tree) : Prop where
  confined : ∀ l, bytesAt (c.treeAfter t) l ≠ bytesAt t l → ∃ ns, ns ≠ [] ∧ l = c.root ++ ns
  unforbidden : ∀ ns, c.Written t ns → (∀ entry ∈ c.forbiddenScope, ¬Forbids entry ns) ∧
    ∀ n ∈ bootstrapHardForbiddenNames, ns.getLast? ≠ some n
  excepted : ∀ ns, c.Written t ns →
    isInWriteScope (pathOf ns) (normalizeWriteScope c.writeScope) = true ∨
      isBootstrapEssential (pathOf ns) c.plan.mode = true ∧
        ∀ result t', c.Returns t result t' →
          ∃ r ∈ result.filesAllowedByBootstrapException, names r = ns
  kept : ∀ l b, bytesAt t l = some b → bytesAt (c.treeAfter t) l ≠ some b →
    ∃ f ∈ c.plan.files, f.overwriteExisting = true ∧ PosixPath.walk c.root (names f.rel) = l
  again : ∀ result t', c.Returns t result t' → (∀ f ∈ c.plan.files, f.overwriteExisting = false) →
    ∃ result' t'', c.Returns t' result' t'' ∧ result'.filesCreated = []

variable {c}

/-- A path of names starts with no slash and with no `./`. -/
theorem norm_of_names {path : Text} (hnames : ∀ n ∈ path.splitOn slash, isName n = true) :
    norm path = path ∧ path.dropWhile (· = slash) = path := by
  have hhead : ∀ n rest, path = n ++ slash :: rest → slash ∉ n → isName n = true := by
    rintro n rest rfl hn
    refine hnames n ?_
    rw [PosixPath.splitOn_append_slash, PosixPath.splitOn_of_no_slash hn]
    exact List.mem_append_left _ (List.mem_singleton_self n)
  have hdrop : path.dropWhile (· = slash) = path := by
    cases path with
    | nil => rfl
    | cons x path =>
      by_cases hx : x = slash
      · have hname := hhead [] path (by rw [hx]; rfl) (by simp)
        exact absurd hname (by decide)
      · rw [List.dropWhile_cons_of_neg (by simpa using hx)]
  refine ⟨?_, hdrop⟩
  unfold norm
  split
  · next hdot =>
    obtain ⟨rest, hrest⟩ := List.isPrefixOf_iff_prefix.mp hdot
    have hname := hhead [Py.ofChar '.'] rest hrest.symm (by decide)
    exact absurd hname (by decide)
  · exact hdrop

theorem norm_norm {f : BootstrapFile} (h : f.Plain) : norm (norm f.rel) = norm f.rel :=
  (norm_of_names fun n hn => (h n hn).1).1

theorem pathOf_components (f : BootstrapFile) : pathOf f.components = norm f.rel :=
  List.intercalate_splitOn slash

/-- The loop starts with the invariant. -/
theorem inv_start {t : Tree} (hclosed : Closed t) : c.Inv t [] { tree := t } where
  grows := .refl t
  closed := hclosed
  changes _ hl := absurd rfl hl
  created _ hr := absurd hr List.not_mem_nil
  listed _ hf := absurd hf List.not_mem_nil
  settled _ hf := absurd hf List.not_mem_nil

/-- What a call leaves, when its root is a directory. -/
theorem after_apply {t : Tree} (hclosed : Closed t) (hplain : ∀ f ∈ c.plan.files, f.Plain)
    (hroot : t c.root = some .dir) :
    (∃ s, c.applyBootstrapPlan t = .ok (c.resultOf s, s.tree) ∧ c.Inv t c.plan.files s) ∨
      ∃ t', c.applyBootstrapPlan t = .error t' ∧ c.Changes c.plan.files t t' := by
  have hafter := after_files hplain (inv_start (c := c) hclosed)
  rw [List.nil_append] at hafter
  rw [applyBootstrapPlan, if_pos hroot]
  generalize c.plan.files.foldlM c.applyFile { tree := t } = r at hafter ⊢
  cases r with
  | ok s => exact .inl ⟨s, rfl, hafter⟩
  | error t' => exact .inr ⟨t', rfl, hafter⟩

/-- The tree has changed as `Changes` says, and a path that was written is reached. -/
theorem changes_apply {t : Tree} (hclosed : Closed t) (hplain : ∀ f ∈ c.plan.files, f.Plain) :
    c.Changes c.plan.files t (c.treeAfter t) ∧
      ∀ ns, c.Written t ns → c.Reaches c.plan.files (c.root ++ ns) := by
  by_cases hroot : t c.root = some .dir
  · have hwritten : c.Changes c.plan.files t (c.treeAfter t) →
        (∀ result t', c.Returns t result t' → ∀ r ∈ result.filesCreated,
          ∃ f ∈ c.plan.files, r = f.rel ∧ c.Reaches c.plan.files (c.root ++ f.components)) →
        ∀ ns, c.Written t ns → c.Reaches c.plan.files (c.root ++ ns) := by
      rintro hchanges hcreated ns (hchanged | ⟨result, t', hreturns, r, hr, rfl⟩)
      · exact (hchanges _ hchanged).1
      · obtain ⟨f, hf, rfl, hreaches⟩ := hcreated result t' hreturns r hr
        rwa [names_rel (hplain f hf)]
    rcases after_apply hclosed hplain hroot with ⟨s, happly, hinv⟩ | ⟨t', happly, hchanges⟩
    · have htree : c.treeAfter t = s.tree := by rw [treeAfter, happly]
      refine ⟨htree ▸ hinv.changes, hwritten (htree ▸ hinv.changes) fun result t' hreturns => ?_⟩
      rw [Returns, happly] at hreturns
      cases hreturns
      exact hinv.created
    · have htree : c.treeAfter t = t' := by rw [treeAfter, happly]
      refine ⟨htree ▸ hchanges, hwritten (htree ▸ hchanges) fun result t' hreturns => ?_⟩
      rw [Returns, happly] at hreturns
      cases hreturns
  · have happly : c.applyBootstrapPlan t = .ok ({ mode := c.plan.mode, writeErrors :=
        [(lit "<worktree>", lit "worktree path not a directory")] }, t) := by
      rw [applyBootstrapPlan, if_neg hroot]
    have htree : c.treeAfter t = t := by rw [treeAfter, happly]
    refine ⟨fun l hl => absurd (by rw [htree]) hl, ?_⟩
    rintro ns (hchanged | ⟨result, t', hreturns, r, hr, -⟩)
    · exact absurd (by rw [htree]) hchanged
    · rw [Returns, happly] at hreturns
      cases hreturns
      exact absurd hr List.not_mem_nil

/-- **With an honoured scope the writes to plain paths are governed.** -/
theorem governed_of_honoured {t : Tree} (hclosed : Closed t) (hplain : ∀ f ∈ c.plan.files, f.Plain)
    (hhonoured : Honoured c.forbiddenScope) : c.Governed t := by
  obtain ⟨hchanges, hwritten⟩ := changes_apply hclosed hplain
  have hreached : ∀ ns, c.Written t ns → ∃ f ∈ c.plan.files, c.Admitted f ∧ f.components = ns ∧
      ∀ n ∈ ns, isFsName n = true := by
    intro ns hns
    obtain ⟨f, hf, hadmitted, heq, hname⟩ := hwritten ns hns
    refine ⟨f, hf, hadmitted, (List.append_cancel_left heq).symm, fun n hn => ?_⟩
    exact List.all_eq_true.mp hname n (List.mem_append_right _ hn)
  refine ⟨fun l hl => ?_, fun ns hns => ?_, fun ns hns => ?_, fun l b hb hl => ?_, ?_⟩
  · obtain ⟨⟨f, -, -, rfl, -⟩, -⟩ := hchanges l hl
    exact ⟨f.components, components_ne_nil f, rfl⟩
  · obtain ⟨f, hf, hadmitted, rfl, hname⟩ := hreached ns hns
    refine ⟨fun entry hentry hforbids => ?_, fun n hn hlast => ?_⟩
    · have h := forbidden_of_honoured (hplain f hf) hhonoured hname hentry hforbids
      rw [hadmitted.1] at h
      cases h
    · have h := (isHardForbidden_iff (hplain f hf) c.forbiddenScope).mpr (.inl ⟨n, hn, hlast⟩)
      rw [hadmitted.1] at h
      cases h
  · obtain ⟨f, hf, hadmitted, rfl, -⟩ := hreached ns hns
    have hscope : isInWriteScope (pathOf f.components) (normalizeWriteScope c.writeScope)
        = c.inScope f := by
      rw [pathOf_components, inScope, isInWriteScope, isInWriteScope, norm_norm (hplain f hf)]
    have hessential : isBootstrapEssential (pathOf f.components) c.plan.mode
        = isBootstrapEssential f.rel c.plan.mode := by
      rw [pathOf_components, isBootstrapEssential, isBootstrapEssential, norm_norm (hplain f hf)]
    rw [hscope, hessential]
    cases hin : c.inScope f with
    | true => exact .inl rfl
    | false =>
      have hor := hadmitted.2
      rw [hin] at hor
      have hadmits : c.essential f = true := hor.resolve_left Bool.false_ne_true
      refine .inr ⟨(Bool.and_eq_true_iff.mp hadmits).2, fun result t' hreturns => ?_⟩
      by_cases hroot : t c.root = some .dir
      · rcases after_apply hclosed hplain hroot with ⟨s, happly, hinv⟩ | ⟨t'', happly, -⟩
        · rw [Returns, happly] at hreturns
          cases hreturns
          exact ⟨f.rel, hinv.listed f hf hadmitted hin, names_rel (hplain f hf)⟩
        · rw [Returns, happly] at hreturns
          cases hreturns
      · -- without the directory nothing is written
        rw [Returns, applyBootstrapPlan, if_neg hroot] at hreturns
        have htree : c.treeAfter t = t := by rw [treeAfter, applyBootstrapPlan, if_neg hroot]
        rcases hns with hchanged | ⟨result', t'', hreturns', r, hr, -⟩
        · exact absurd (by rw [htree]) hchanged
        · rw [Returns, applyBootstrapPlan, if_neg hroot] at hreturns'
          cases hreturns'
          exact absurd hr List.not_mem_nil
  · obtain ⟨-, hmay⟩ := hchanges l (by rw [hb]; exact hl)
    rcases hmay with hnone | ⟨f, hf, rfl, hover⟩
    · rw [hb] at hnone
      cases hnone
    · exact ⟨f, hf, hover, by rw [names_rel (hplain f hf), walk_rel (hplain f hf)]⟩
  · intro result t' hreturns hover
    by_cases hroot : t c.root = some .dir
    · rcases after_apply hclosed hplain hroot with ⟨s, happly, hinv⟩ | ⟨t'', happly, -⟩
      · rw [Returns, happly] at hreturns
        cases hreturns
        obtain ⟨s', hrun, hcreated⟩ := rerun hplain hover (s := { tree := s.tree }) hinv.settled
        refine ⟨c.resultOf s', s'.tree, ?_, hcreated⟩
        rw [Returns, applyBootstrapPlan, if_pos (hinv.grows.dir _ hroot), hrun]
        rfl
      · rw [Returns, happly] at hreturns
        cases hreturns
    · rw [Returns, applyBootstrapPlan, if_neg hroot] at hreturns
      cases hreturns
      exact ⟨_, t, by rw [Returns, applyBootstrapPlan, if_neg hroot], rfl⟩

/-! ## A path that no entry is looked for in -/

/-- A worktree with nothing in it, at the root of the tree. -/
def emptyTree : Tree := fun l => if l = [] then some .dir else none

theorem closed_emptyTree : Closed emptyTree := by
  intro l hl k hk hne
  have hl : (if l = [] then some FileTree.Entry.dir else none).isSome = true := hl
  split at hl
  · next heq =>
    subst heq
    exact absurd (List.prefix_nil.mp hk) hne
  · cases hl

/-- The call that writes one empty file. -/
def writeOne (forbiddenScope : List Text) (path : Text) : Call where
  root := []
  plan := { mode := [], files := [{ relativePath := path, content := [] }] }
  forbiddenScope := forbiddenScope
  reason _ _ := []

/-- In an empty worktree a plain path is written. -/
theorem writeTarget_emptyTree {ns : List Text} (hne : ns ≠ []) (hplain : dotdot ∉ ns)
    (hname : ∀ n ∈ ns, isFsName n = true) : ∃ t', writeTarget emptyTree [] ns [] = (.ok (), t') := by
  have hall : ([] ++ ns : Location).all isFsName = true := List.all_eq_true.mpr hname
  have hparents : ([] ++ ns.dropLast : Location).all isFsName = true :=
    List.all_eq_true.mpr fun n hn => hname n (List.dropLast_subset ns hn)
  unfold writeTarget
  cases hmake : makeParents emptyTree [] ns.dropLast with
  | mk made t₁ =>
    obtain ⟨-, -, -, hres⟩ := makeParents_spec hplain hmake
    rcases hres with ⟨hno, -⟩ | ⟨-, ⟨rfl, -, -⟩ | ⟨e, -, l, -, k, -, hfile⟩⟩
    · rw [hparents] at hno
      cases hno
    · have hdir : t₁ ([] ++ ns) ≠ some .dir := by
        intro hdir
        rw [makeParents, if_neg (by rw [hparents]; decide)] at hmake
        rcases dir_of_makeAll hmake hdir with hthere | ⟨l, hl, hle⟩
        · have hthere : (if ([] ++ ns : Location) = [] then some FileTree.Entry.dir else none)
              = some .dir := hthere
          rw [List.nil_append, if_neg hne] at hthere
          cases hthere
        · obtain ⟨p, hp, rfl⟩ := (mem_parents hplain).mp hl
          have hlen := hle.length_le.trans hp.length_le
          have hpos := List.length_pos_of_ne_nil hne
          rw [List.nil_append, List.length_dropLast] at hlen
          omega
      show ∃ t', writeText t₁ (PosixPath.walk [] ns) [] = (.ok (), t')
      have hencode : Py.encode ([] : Text) = some .empty := by decide
      rw [PosixPath.walk_of_plain hplain, writeText, if_neg (by rw [hall]; simp), if_neg hdir, hencode]
      exact ⟨_, rfl⟩
    · -- there is no file in the tree
      unfold bytesAt emptyTree at hfile
      split at hfile
      · next b hb =>
        split at hb <;> cases hb
      · cases hfile

theorem written_writeOne {forbiddenScope : List Text} {ns : List Text} (hne : ns ≠ [])
    (husable : ∀ n ∈ ns, Usable n) (hslash : ∀ n ∈ ns, slash ∉ n)
    (hhard : ∀ n ∈ bootstrapHardForbiddenNames, ns.getLast? ≠ some n)
    (htokens : ∀ entry ∈ forbiddenScope, tokenOf entry ≠ [] →
      ¬(tokenOf entry).splitOn slash <+: ns) :
    (∀ f ∈ (writeOne forbiddenScope (pathOf ns)).plan.files, f.Plain) ∧
      (writeOne forbiddenScope (pathOf ns)).Written emptyTree ns := by
  have hsplit : (pathOf ns).splitOn slash = ns := List.splitOn_intercalate slash hslash hne
  have hnames : ∀ n ∈ (pathOf ns).splitOn slash, isName n = true := fun n hn =>
    (husable n (hsplit ▸ hn)).1
  obtain ⟨hnorm, hdrop⟩ := norm_of_names hnames
  let f : BootstrapFile := { relativePath := pathOf ns, content := [] }
  have hrel : f.rel = pathOf ns := hdrop
  have hcomponents : f.components = ns := by rw [BootstrapFile.components, hrel, hnorm, hsplit]
  have hplain : f.Plain := by
    intro n hn
    rw [hcomponents] at hn
    exact ⟨(husable n hn).1, (husable n hn).2.1⟩
  have hnames : names f.rel = ns := (names_rel hplain).trans hcomponents
  refine ⟨fun g hg => ?_, .inr ?_⟩
  · rw [List.mem_singleton.mp hg]
    exact hplain
  let c := writeOne forbiddenScope (pathOf ns)
  have hadmitted : c.Admitted f := by
    refine ⟨?_, .inl rfl⟩
    rw [Bool.eq_false_iff, Ne, isHardForbidden_iff hplain, hcomponents, not_or]
    exact ⟨fun ⟨n, hn, hlast⟩ => hhard n hn hlast,
      fun ⟨entry, hentry, htoken, hle⟩ => htokens entry hentry htoken hle⟩
  obtain ⟨t', hwrite⟩ := writeTarget_emptyTree hne (fun h => (husable _ h).2.1 rfl)
    fun n hn => (husable n hn).2.2
  have houtcome := c.applyFile_outcome { tree := emptyTree } f
  generalize hresult : c.applyFile { tree := emptyTree } f = r at houtcome
  have hrun : ∀ s', r = .ok s' → c.applyBootstrapPlan emptyTree = .ok (c.resultOf s', s'.tree) := by
    rintro s' rfl
    show ([f].foldlM c.applyFile { tree := emptyTree } >>= _) = _
    rw [List.foldlM_cons, hresult]
    rfl
  cases houtcome with
  | refused hnot => exact absurd hadmitted hnot
  | skipped _ hexists =>
    rw [hnames] at hexists
    have hsome := ((targetExists_iff hne).mp hexists).2.2
    rw [PosixPath.walk_of_plain fun h => (husable _ h).2.1 rfl] at hsome
    have hsome : (if ([] ++ ns : Location) = [] then some FileTree.Entry.dir else none).isSome = true :=
      hsome
    rw [List.nil_append, if_neg hne] at hsome
    cases hsome
  | @wrote s' _ _ _ hcreated _ =>
    refine ⟨c.resultOf s', s'.tree, hrun s' rfl, f.rel, ?_, hnames⟩
    show f.rel ∈ s'.created
    rw [hcreated]
    exact List.mem_append_right _ (List.mem_singleton_self _)
  | failed _ _ hfailed =>
    rw [hnames] at hfailed
    cases hwrite.symm.trans hfailed
  | raised _ _ hraised =>
    rw [hnames] at hraised
    cases hwrite.symm.trans hraised

/-! ### The scopes -/

/-- A name that is longer than every name that the checks know. -/
def fresh (forbiddenScope : List Text) : Text :=
  List.replicate ((forbiddenScope.map tokenOf).flatten.length + 20) (Py.ofChar 'z')

theorem length_fresh (forbiddenScope : List Text) : (fresh forbiddenScope).length =
    (forbiddenScope.map tokenOf).flatten.length + 20 := List.length_replicate

theorem not_mem_fresh {c : CodePoint} (hc : c ≠ Py.ofChar 'z') (forbiddenScope : List Text) :
    c ∉ fresh forbiddenScope := fun h => hc (List.eq_of_mem_replicate h)

theorem usable_fresh (forbiddenScope : List Text) : Usable (fresh forbiddenScope) := by
  have hne : fresh forbiddenScope ≠ [] := by
    intro h
    have hlen := length_fresh forbiddenScope
    rw [h, List.length_nil] at hlen
    omega
  have hdot : Py.ofChar '.' ∉ fresh forbiddenScope := not_mem_fresh (by decide) _
  refine ⟨?_, ?_, ?_⟩
  · rw [isName, Bool.and_eq_true, bne_iff_ne, bne_iff_ne]
    refine ⟨hne, fun h => hdot ?_⟩
    rw [h]
    exact List.mem_singleton_self _
  · intro h
    rw [h] at hdot
    exact hdot List.mem_cons_self
  · refine List.all_eq_true.mpr fun c hc => ?_
    rw [List.eq_of_mem_replicate hc]
    rfl

theorem fresh_ne_hard (forbiddenScope : List Text) :
    ∀ n ∈ bootstrapHardForbiddenNames, fresh forbiddenScope ≠ n := by
  have hshort : ∀ n ∈ bootstrapHardForbiddenNames, n.length < 20 := by decide
  intro n hn heq
  have hlen := length_fresh forbiddenScope
  have hlt := hshort n hn
  rw [heq] at hlen
  omega

/-- A component is no longer than the text. -/
theorem length_le_of_mem_splitOn {n t : Text} (h : n ∈ t.splitOn slash) : n.length ≤ t.length := by
  obtain ⟨-, a, b, rfl, -⟩ := PosixPath.mem_splitOn_iff.mp h
  rw [List.length_append, List.length_append]
  omega

theorem fresh_not_mem_token {forbiddenScope : List Text} {entry : Text} (h : entry ∈ forbiddenScope) :
    fresh forbiddenScope ∉ (tokenOf entry).splitOn slash := by
  intro hmem
  have hlen := length_le_of_mem_splitOn hmem
  have hle := (List.sublist_flatten_of_mem (List.mem_map_of_mem (f := tokenOf) h)).length_le
  rw [length_fresh] at hlen
  omega

/-- A token that is looked for below an entry, with a fresh name under it, is looked for in the entry. -/
theorem prefix_of_prefix_fresh {forbiddenScope ns : List Text} {entry : Text}
    (h : entry ∈ forbiddenScope)
    (hle : (tokenOf entry).splitOn slash <+: ns ++ [fresh forbiddenScope]) :
    (tokenOf entry).splitOn slash <+: ns := by
  rcases List.prefix_concat_iff.mp hle with heq | hle
  · refine absurd ?_ (fresh_not_mem_token h)
    rw [heq]
    exact List.mem_append_right _ (List.mem_singleton_self _)
  · exact hle

theorem slash_not_mem_readComponents {entry n : Text} (h : n ∈ readComponents entry) : slash ∉ n := by
  unfold readComponents at h
  split at h
  · cases h
  · exact (PosixPath.mem_splitOn_iff.mp h).1

/-- **The writes to plain paths are governed** by the forbidden scopes that are honoured, whatever else
the call is given. -/
theorem governed_iff (forbiddenScope : List Text) :
    (∀ (c : Call) (t : Tree), c.forbiddenScope = forbiddenScope → Closed t →
      (∀ f ∈ c.plan.files, f.Plain) → c.Governed t) ↔ Honoured forbiddenScope := by
  constructor
  · intro hall entry hentry hnonblank husable
    by_contra hnone
    -- a new file in what the entry stands for
    let ns := readComponents entry ++ [fresh forbiddenScope]
    have hmem : ∀ n ∈ ns, n ∈ readComponents entry ∨ n = fresh forbiddenScope := fun n hn =>
      (List.mem_append.mp hn).imp_right List.mem_singleton.mp
    have husable' : ∀ n ∈ ns, Usable n := fun n hn =>
      (hmem n hn).elim (husable n) fun h => h ▸ usable_fresh forbiddenScope
    have hslash : ∀ n ∈ ns, slash ∉ n := fun n hn =>
      (hmem n hn).elim slash_not_mem_readComponents fun h => h ▸ not_mem_fresh (by decide) _
    have hlast : ns.getLast? = some (fresh forbiddenScope) := List.getLast?_concat
    have htokens : ∀ other ∈ forbiddenScope, tokenOf other ≠ [] →
        ¬(tokenOf other).splitOn slash <+: ns := fun other hother htoken hle =>
      hnone ⟨other, hother, htoken, prefix_of_prefix_fresh hother hle⟩
    obtain ⟨hplain, hwritten⟩ := written_writeOne (List.concat_ne_nil _ _) husable' hslash
      (fun n hn heq => fresh_ne_hard forbiddenScope n hn (Option.some.inj (hlast.symm.trans heq)))
      htokens
    have hgoverned := hall _ emptyTree rfl closed_emptyTree hplain
    exact (hgoverned.unforbidden ns hwritten).1 entry hentry ⟨hnonblank, List.prefix_append _ _⟩
  · rintro hhonoured c t rfl hclosed hplain
    exact governed_of_honoured hclosed hplain hhonoured

/-- `**` forbids everything, and `README.md` is written; `../x` is written above the worktree. -/
theorem stars_are_not_honoured :
    (¬(writeOne [lit "**"] (lit "README.md")).Governed emptyTree) ∧
      ¬({ writeOne [] (lit "../x") with root := [lit "w"] } : Call).Governed
        (fun l => if l = [] ∨ l = [lit "w"] then some .dir else none) := by
  constructor
  · intro h
    have hwritten : (writeOne [lit "**"] (lit "README.md")).Written emptyTree [lit "README.md"] :=
      .inr ⟨_, _, rfl, lit "README.md", by decide, by decide⟩
    exact (h.unforbidden _ hwritten).1 (lit "**") List.mem_cons_self ⟨by decide, List.nil_prefix⟩
  · intro h
    obtain ⟨ns, -, heq⟩ := h.confined [lit "x"] (by decide)
    exact absurd (List.cons.inj heq).1 (by decide)

end Call

end ForgeKit.Bootstrap
