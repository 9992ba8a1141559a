import ForgeKit.Autopilot.BoundedMutator

/-!
# Where the runner writes

The checks look at a stripped copy of the path with its backslashes turned into slashes; the write
uses the path as it stands. On POSIX a blank or a backslash is part of a name, so the two can lead
to different places.

* `target_of_validate` — an accepted path leads below the repository by its own names
* `confined_iff` — when it leads below an allowed directory
* `leading_blank_escapes` — a path that does not
-/

namespace ForgeKit.Autopilot

open Py (Text CodePoint lit)
open PosixPath (Location names slash StrictlyBelow)

/--
The target lies strictly below the directory of an allowed prefix; for a source file, below the
directory of an enabled prefix and with an allowed extension.
-/
def Confined (m : BoundedMutator) (task : ExecTask) : Prop :=
  match task.action with
  | .sourceFormat =>
    (∃ pre ∈ m.sourcePrefixes, StrictlyBelow (m.repoRoot ++ names pre) (m.target task))
      ∧ ∃ ext ∈ sourceExtensions, ∃ name, (m.target task).getLast? = some name
          ∧ Py.endsWith name ext = true
  | _ => ∃ pre ∈ allowedWritePrefixes, StrictlyBelow (m.repoRoot ++ names pre) (m.target task)

/--
The path as it stands starts with an allowed prefix, and something is named after it; for a source
file, its names go on after those of an enabled prefix, and it ends in an allowed extension.
-/
def AsWritten (m : BoundedMutator) (task : ExecTask) : Prop :=
  match task.action with
  | .sourceFormat =>
    (∃ pre ∈ m.sourcePrefixes, names pre <+: names task.relPath ∧ names pre ≠ names task.relPath)
      ∧ ∃ ext ∈ sourceExtensions, Py.endsWith task.relPath ext = true
  | _ => ∃ pre ∈ allowedWritePrefixes, Py.startsWith task.relPath pre = true
      ∧ names (task.relPath.drop pre.length) ≠ []

/-! ## What the checks say about the path as it stands -/

theorem isAbsolute_strip {s : Text} (h : PosixPath.isAbsolute s = true) :
    PosixPath.isAbsolute (Py.strip s) = true := by
  obtain ⟨t, rfl⟩ := List.isPrefixOf_iff_prefix.mp h
  have hleft : Py.lstrip ([slash] ++ t) = [slash] ++ t :=
    Py.lstrip_append (a := []) (by rintro c ⟨⟩; decide)
  have hright : Py.rstrip ([slash] ++ t) = [slash] ++ Py.rstrip t :=
    Py.rstrip_append (by rintro c ⟨⟩; decide)
  rw [Py.strip, hleft, hright]
  rfl

/-- A path whose checked copy is plain is plain itself. -/
theorem plain_of_checked {s : Text} (h : isPlainRelative (checkedPath s) = true) :
    PosixPath.isAbsolute s = false ∧ PosixPath.dotdot ∉ names s := by
  simp only [isPlainRelative, checkedPath, Bool.and_eq_true, bne_iff_ne, ne_eq, Bool.not_eq_true']
    at h
  obtain ⟨⟨-, habs⟩, hdots⟩ := h
  constructor
  · rw [Bool.eq_false_iff]
    intro ha
    rw [isAbsolute_strip ha] at habs
    cases habs
  · exact fun hd => of_decide_eq_true hdots (PosixPath.dotdot_mem_names_strip hd)

/-- What `validate` accepts passed one of the path checks. -/
theorem validate_accepts {m : BoundedMutator} {task : ExecTask} (h : (m.validate task).1 = true) :
    (task.action = .sourceFormat ∧ sourcePathOk task.relPath m.sourcePrefixes = true)
      ∨ task.action ≠ .sourceFormat ∧ pathOk task.relPath = true := by
  unfold BoundedMutator.validate at h
  split at h
  · cases h
  · next haction =>
    split at h
    · cases h
    · split at h
      · cases h
      · next hok => exact .inl ⟨haction, by simpa using hok⟩
  · next hnot hsource =>
    split at h
    · cases h
    · next hok => exact .inr ⟨hsource, by simpa using hok⟩

/-- **An accepted path** leads below the repository by its own names. -/
theorem target_of_validate {m : BoundedMutator} {task : ExecTask}
    (h : (m.validate task).1 = true) : m.target task = m.repoRoot ++ names task.relPath := by
  have hplain : isPlainRelative (checkedPath task.relPath) = true := by
    rcases validate_accepts h with ⟨-, hok⟩ | ⟨-, hok⟩
    · simp only [sourcePathOk, Bool.and_eq_true] at hok
      exact hok.1.1
    · simp only [pathOk, Bool.and_eq_true] at hok
      exact hok.1
  obtain ⟨hrel, hdots⟩ := plain_of_checked hplain
  exact PosixPath.join_of_plain hrel hdots

/-! ## The allowed prefixes -/

/-- A directory name of the allowed prefixes: no white space, no slash, no backslash. -/
structure PlainDir (dir : Text) : Prop where
  long : 2 ≤ dir.length
  plain : dir.all (fun c => !Py.isSpace c && c != slash && c != Py.ofChar '\\') = true

theorem PlainDir.spec {dir : Text} (h : PlainDir dir) {c : CodePoint} (hc : c ∈ dir) :
    Py.isSpace c = false ∧ c ≠ slash ∧ c ≠ Py.ofChar '\\' := by
  have hall := List.all_eq_true.mp h.plain c hc
  simpa [and_assoc] using hall

theorem PlainDir.noSlash {dir : Text} (h : PlainDir dir) : slash ∉ dir :=
  fun hc => (h.spec hc).2.1 rfl

/-- The allowed prefixes are directory names, each with a slash after it. -/
theorem allowedWritePrefixes_eq :
    ∃ dirs : List Text, allowedWritePrefixes = dirs.map (· ++ [slash]) ∧ ∀ d ∈ dirs, PlainDir d := by
  refine ⟨[lit "runs", lit "docs", lit "examples"], rfl, ?_⟩
  intro d hd
  simp only [List.mem_cons, List.not_mem_nil, or_false] at hd
  rcases hd with rfl | rfl | rfl
  · exact ⟨by decide, by decide⟩
  · exact ⟨by decide, by decide⟩
  · exact ⟨by decide, by decide⟩

theorem names_dir_slash {dir : Text} (h : PlainDir dir) (rest : Text) :
    names (dir ++ [slash] ++ rest) = dir :: names rest := by
  obtain ⟨n, ns, hn⟩ := PosixPath.names_head h.noSlash h.long []
  rw [List.append_nil, PosixPath.names, PosixPath.splitOn_of_no_slash h.noSlash] at hn
  have hname : PosixPath.isName dir = true := by
    by_contra hno
    rw [List.filter_cons_of_neg hno, List.filter_nil] at hn
    cases hn
  rw [show dir ++ [slash] ++ rest = dir ++ slash :: rest by simp, PosixPath.names_append_slash,
    PosixPath.names_of_no_slash h.noSlash hname]
  rfl

theorem strictlyBelow_dir_iff {root : Location} {dir : Text} (h : PlainDir dir) (ns : List Text) :
    StrictlyBelow (root ++ names (dir ++ [slash])) (root ++ ns) ↔ ∃ rest, ns = dir :: rest ∧ rest ≠ [] := by
  have hdir : names (dir ++ [slash]) = [dir] := by
    have := names_dir_slash h []
    rwa [List.append_nil] at this
  rw [PosixPath.strictlyBelow_append, hdir]
  constructor
  · rintro ⟨⟨rest, rfl⟩, hne⟩
    refine ⟨rest, rfl, ?_⟩
    rintro rfl
    exact hne rfl
  · rintro ⟨rest, rfl, hne⟩
    refine ⟨⟨rest, rfl⟩, ?_⟩
    intro he
    rw [List.cons.injEq] at he
    exact hne he.2.symm

/-- A checked copy that starts with a directory and a slash, traced back to the path. -/
theorem exists_of_startsWith_slashed {dir s : Text} (h : PlainDir dir)
    (hstart : Py.startsWith (slashed (checkedPath s)) (dir ++ [slash]) = true) :
    ∃ l c rest, s = l ++ dir ++ [c] ++ rest ∧ (∀ x ∈ l, Py.isSpace x = true)
      ∧ (c = slash ∨ c = Py.ofChar '\\') := by
  obtain ⟨l, r, hs, hl, -⟩ := Py.exists_strip s
  obtain ⟨q, hq⟩ := List.isPrefixOf_iff_prefix.mp hstart
  unfold slashed Py.replaceChar checkedPath at hq
  obtain ⟨p, q', hpq, hp, -⟩ := List.map_eq_append_iff.mp hq.symm
  obtain ⟨p1, p2, rfl, hp1, hp2⟩ := List.map_eq_append_iff.mp hp
  -- no backslash of the path became a letter of the directory name
  have hdir : p1 = dir := by
    rw [← hp1]
    refine ((List.map_congr_left fun c hc => ?_).trans (List.map_id p1)).symm
    rw [id, if_neg]
    rintro rfl
    refine h.noSlash ?_
    rw [← hp1]
    exact List.mem_map.mpr ⟨_, hc, if_pos rfl⟩
  obtain ⟨c, rfl, hc⟩ := List.map_eq_singleton_iff.mp hp2
  refine ⟨l, c, q' ++ r, ?_, hl, ?_⟩
  · rw [hdir] at hpq
    conv_lhs => rw [hs, hpq]
    simp
  · split at hc
    · next hb => exact .inr hb
    · exact .inl hc

/-- **What an accepted path names**, for the allowed prefixes. -/
theorem names_below_iff (root : Location) {s : Text} (h : pathOk s = true) :
    (∃ pre ∈ allowedWritePrefixes, StrictlyBelow (root ++ names pre) (root ++ names s))
      ↔ ∃ pre ∈ allowedWritePrefixes, Py.startsWith s pre = true ∧ names (s.drop pre.length) ≠ [] := by
  obtain ⟨dirs, hdirs, hplain⟩ := allowedWritePrefixes_eq
  simp only [pathOk, Bool.and_eq_true, hdirs, List.any_map, List.any_eq_true, Function.comp] at h
  obtain ⟨-, dir, hdir, hstart⟩ := h
  have hlong := (hplain dir hdir).long
  simp only [hdirs, List.mem_map, exists_exists_and_eq_and]
  constructor
  · rintro ⟨dir', hdir', hbelow⟩
    obtain ⟨rest', hnames, hrest'⟩ := (strictlyBelow_dir_iff (hplain dir' hdir') _).mp hbelow
    obtain ⟨l, c, rest, rfl, hl, hc⟩ := exists_of_startsWith_slashed (hplain dir hdir) hstart
    have hspec := fun {x} => (hplain dir' hdir').spec (c := x)
    have hslash : slash ∉ l ++ dir := by
      intro hmem
      rcases List.mem_append.mp hmem with hmem | hmem
      · exact absurd (hl slash hmem) (by decide)
      · exact (hplain dir hdir).noSlash hmem
    -- a leading blank would belong to the first name
    have hblank : l = [] := by
      rw [List.append_assoc] at hnames
      have hsub := PosixPath.subset_of_names_cons hslash (by simp; omega) hnames
      refine List.eq_nil_iff_forall_not_mem.mpr fun x hx => ?_
      have hspace := (hspec (hsub (List.mem_append_left dir hx))).1
      rw [hl x hx] at hspace
      cases hspace
    subst hblank
    rw [List.nil_append] at hnames ⊢
    rcases hc with rfl | rfl
    · refine ⟨dir, hdir, List.isPrefixOf_iff_prefix.mpr (List.prefix_append _ _), ?_⟩
      rw [List.drop_left]
      rw [names_dir_slash (hplain dir hdir), List.cons.injEq] at hnames
      rw [hnames.2]
      exact hrest'
    · -- and so would a backslash
      have hsub := PosixPath.subset_of_names_cons (a := dir ++ [Py.ofChar '\\']) ?_ (by simp; omega) hnames
      · exact absurd rfl (hspec (hsub (List.mem_append_right dir (List.mem_singleton_self _)))).2.2
      · rw [List.mem_append, not_or]
        exact ⟨(hplain dir hdir).noSlash, by decide⟩
  · rintro ⟨dir', hdir', hpre, hrest⟩
    obtain ⟨rest, rfl⟩ := List.isPrefixOf_iff_prefix.mp hpre
    rw [List.drop_left] at hrest
    refine ⟨dir', hdir', (strictlyBelow_dir_iff (hplain dir' hdir') _).mpr ?_⟩
    exact ⟨names rest, names_dir_slash (hplain dir' hdir') rest, hrest⟩

/-! ## The allowed extensions -/

/-- An extension has no slash and no white space in it, and is more than dots. -/
theorem sourceExtensions_eq : sourceExtensions = [lit ".p" ++ lit "y"] := rfl

theorem slashed_append_inv {s ext : Text} (hslash : slash ∉ ext) (h : Py.endsWith (slashed s) ext = true) :
    ∃ t, s = t ++ ext := by
  obtain ⟨q, hq⟩ := List.isSuffixOf_iff_suffix.mp h
  unfold slashed Py.replaceChar at hq
  obtain ⟨t, e, rfl, -, he⟩ := List.map_eq_append_iff.mp hq.symm
  refine ⟨t, ?_⟩
  rw [← he]
  congr 1
  refine ((List.map_congr_left fun c hc => ?_).trans (List.map_id e)).symm
  rw [id, if_neg]
  rintro rfl
  refine hslash ?_
  rw [← he]
  exact List.mem_map.mpr ⟨_, hc, if_pos rfl⟩

/-- **The extension of an accepted path** is that of its last name, unless blanks follow it. -/
theorem last_name_extension_iff (root : Location) {s ext : Text} (hext : ext ∈ sourceExtensions)
    (h : Py.endsWith (slashed (checkedPath s)) ext = true) :
    (∃ name, (root ++ names s).getLast? = some name ∧ Py.endsWith name ext = true)
      ↔ Py.endsWith s ext = true := by
  rw [sourceExtensions_eq, List.mem_singleton] at hext
  subst hext
  constructor
  · rintro ⟨name, hlast, hname⟩
    obtain ⟨t, ht⟩ := slashed_append_inv (by decide) h
    obtain ⟨l, r, hs, -, hr⟩ := Py.exists_strip s
    rcases List.eq_nil_or_concat r with rfl | ⟨r, w, rfl⟩
    · unfold checkedPath at ht
      rw [ht, List.append_nil] at hs
      rw [hs, ← List.append_assoc]
      exact List.isSuffixOf_iff_suffix.mpr (List.suffix_append _ _)
    · -- blanks after the extension belong to the last name
      exfalso
      have hw : Py.isSpace w = true := hr w (by simp)
      have hdot : w ≠ Py.ofChar '.' := by rintro rfl; exact absurd hw (by decide)
      have hslash : slash ∉ [] ++ [w] := by
        rw [List.nil_append, List.mem_singleton]
        rintro rfl
        exact absurd hw (by decide)
      obtain ⟨ns, n, hnames⟩ := PosixPath.names_last hslash hdot (l ++ Py.strip s ++ r)
      rw [List.nil_append] at hnames
      rw [hs, List.concat_eq_append, ← List.append_assoc, hnames, ← List.append_assoc,
        List.getLast?_concat, Option.some.injEq] at hlast
      obtain ⟨e, he⟩ := List.isSuffixOf_iff_suffix.mp hname
      rw [← hlast] at he
      have hy : w = Py.ofChar 'y' := by
        have := congrArg List.getLast? he
        simpa [Py.lit] using this.symm
      rw [hy] at hw
      exact absurd hw (by decide)
  · intro hs
    obtain ⟨t, rfl⟩ := List.isSuffixOf_iff_suffix.mp hs
    obtain ⟨ns, n, hnames⟩ := PosixPath.names_last (a := lit ".p") (c := Py.ofChar 'y') (by decide)
      (by decide) t
    refine ⟨n ++ (lit ".p" ++ lit "y"), ?_, List.isSuffixOf_iff_suffix.mpr (List.suffix_append _ _)⟩
    rw [show lit "y" = [Py.ofChar 'y'] from rfl, hnames, ← List.append_assoc, List.getLast?_concat]

/-! ## Confinement -/

/--
**An accepted task writes where it should exactly when its path says so as it stands.**
-/
theorem confined_iff {m : BoundedMutator} {task : ExecTask} (h : (m.validate task).1 = true) :
    Confined m task ↔ AsWritten m task := by
  have htarget := target_of_validate h
  rcases validate_accepts h with ⟨haction, hok⟩ | ⟨haction, hok⟩
  · simp only [Confined, AsWritten, haction, htarget, PosixPath.strictlyBelow_append]
    simp only [sourcePathOk, Bool.and_eq_true, List.any_eq_true] at hok
    obtain ⟨⟨-, ext, hext, hends⟩, -⟩ := hok
    refine and_congr_right fun _ => ?_
    have hone : ∀ e ∈ sourceExtensions, e = ext := by
      rw [sourceExtensions_eq, List.mem_singleton] at hext
      intro e he
      rw [sourceExtensions_eq, List.mem_singleton] at he
      rw [he, hext]
    constructor
    · rintro ⟨e, he, hlast⟩
      rw [hone e he] at hlast
      exact ⟨ext, hext, (last_name_extension_iff m.repoRoot hext hends).mp hlast⟩
    · rintro ⟨e, he, hlast⟩
      rw [hone e he] at hlast
      exact ⟨ext, hext, (last_name_extension_iff m.repoRoot hext hends).mpr hlast⟩
  · have hbelow := names_below_iff m.repoRoot hok
    rw [← htarget] at hbelow
    unfold Confined AsWritten
    split
    · next hsource => exact absurd hsource haction
    · exact hbelow

/-- A note under `runs/` stays there. -/
theorem confined_note :
    Confined { repoRoot := [lit "repo"] } { action := .note, relPath := lit "runs/./a b.md" } := by
  refine (confined_iff (by decide +kernel)).mpr ?_
  exact ⟨lit "runs/", List.mem_cons_self, by decide, by decide +kernel⟩

/-- The check strips the blank, the write does not: the note goes to a directory named ` runs`. -/
theorem leading_blank_escapes :
    ¬ ∀ (m : BoundedMutator) (task : ExecTask), (m.validate task).1 = true → Confined m task := by
  intro h
  have hnote := h { repoRoot := [lit "repo"] } { action := .note, relPath := lit " runs/a.md" }
    (by decide +kernel)
  obtain ⟨pre, hpre, hbelow⟩ := hnote
  revert pre
  decide +kernel

end ForgeKit.Autopilot
