import ForgeKit.Autopilot.BoundedMutator

/-!
# A file changes only when the runner says so

`execute` writes, reads back, and puts a source file back that it does not accept. Files are
bytes, and the texts it compares went through universal newlines and UTF-8, so what it reports and
what is in the file can differ.

* `nonspace_whitespaceNormalize` — the guard of the source path never fires
* `writePlain_honest_iff`, `writeSource_honest_iff` — the two writes
* `execute_of_ne` — a call leaves every file but its target alone
* `honest_iff` — when a call changes exactly what it reports
-/

namespace ForgeKit.Autopilot

open Py (Text CodePoint lit)
open PosixPath (Location)
open FileTree (Tree Raised bytesAt)

/-- How a call ended agrees with what it did to the files. -/
def HonestEnd (maxDiffLines : Int) (t : Tree) (r : Ended × Tree) : Prop :=
  match r.1 with
  | .ok o =>
    if o.executed = true then
      (∃! loc, bytesAt r.2 loc ≠ bytesAt t loc) ∧ (o.linesChanged : Int) ≤ maxDiffLines
    else bytesAt r.2 = bytesAt t
  | .error _ => bytesAt r.2 = bytesAt t

/-- `execute` changes one file within the cap, or says that it did not and changes none. -/
def Honest (m : BoundedMutator) (t : Tree) (task : ExecTask) : Prop :=
  HonestEnd m.maxDiffLines t (m.execute t task)

/-- The directory of a location can be made, and the location can be opened for writing. -/
def Writable (t : Tree) (loc : Location) : Prop :=
  ∃ t', FileTree.makeDirs t loc.dropLast = .ok t' ∧ loc.all FileTree.isFsName = true
    ∧ t' loc ≠ some .dir

/-- The file at a location has a `\r` in it. -/
def HasReturn (t : Tree) (loc : Location) : Prop :=
  ∃ b text, bytesAt t loc = some b ∧ Py.decode b = some text ∧ Py.carriageReturn ∈ text

/--
What a write that starts from the text `before` needs.

* A note or a docs stub: its content can be encoded, or the target is an empty file; and the
  content has no `\r`, or it is a note whose bytes the target has already.
* A source file: the verifier accepts the result, or it refuses it without raising and the file
  has no `\r`.
-/
def WriteHonest (m : BoundedMutator) (t : Tree) (task : ExecTask) (before : Text) : Prop :=
  match task.action with
  | .sourceFormat =>
    m.verify (whitespaceNormalize before) (m.targetName task) = .answer true
      ∨ m.verify (whitespaceNormalize before) (m.targetName task) ≠ .raises
        ∧ ¬ HasReturn t (m.target task)
  | .format => True
  | _ => Writable t (m.target task) →
    (Py.encode task.content = none → bytesAt t (m.target task) = some .empty)
      ∧ ∀ b, Py.encode task.content = some b → Py.carriageReturn ∈ task.content →
        task.action = .note ∧ bytesAt t (m.target task) = some b

/-- A call that gets to the write has what the write needs. -/
def HonestWhen (m : BoundedMutator) (t : Tree) (task : ExecTask) : Prop :=
  ∀ before after, m.plan t task = .ok (before, after) → WriteHonest m t task before

/-! ## The texts -/

theorem mem_stripLines {text : Text} {c : CodePoint} (h : c ∈ stripLines text) :
    c ∈ text ∨ c = Py.newline := by
  unfold stripLines Py.joinLines at h
  rw [← Py.joinLines_splitLines text, Py.joinLines]
  generalize Py.splitLines text = lines at h ⊢
  induction lines with
  | nil => simp [List.intercalate] at h
  | cons l ls ih =>
    cases ls with
    | nil =>
      simp only [List.map_cons, List.map_nil, List.intercalate_singleton] at h ⊢
      exact .inl ((List.rdropWhile_prefix _ _).subset h)
    | cons l' ls =>
      rw [List.map_cons, List.map_cons, List.intercalate_cons_cons] at h
      rw [List.intercalate_cons_cons]
      simp only [List.mem_append, List.mem_singleton] at h ⊢
      rcases h with (h | h) | h
      · exact .inl (.inl (.inl ((List.rdropWhile_prefix _ _).subset h)))
      · exact .inr h
      · exact (ih h).imp_left .inr

theorem nonspace_stripLines (text : Text) : Py.nonspace (stripLines text) = Py.nonspace text := by
  conv_rhs => rw [← Py.joinLines_splitLines text]
  rw [stripLines, Py.nonspace_joinLines, Py.nonspace_joinLines, List.map_map]
  congr 1
  refine List.map_congr_left fun line _ => ?_
  exact Py.nonspace_rdropWhile (fun _ h => h) line

/-- **The guard of the source path never fires**: normalizing moves white space only. -/
theorem nonspace_whitespaceNormalize (text : Text) :
    Py.nonspace (whitespaceNormalize text) = Py.nonspace text := by
  have hnl : ∀ c, decide (c = Py.newline) = true → Py.isSpace c = true := by
    intro c hc
    rw [of_decide_eq_true hc]
    decide
  unfold whitespaceNormalize
  simp only
  split
  · rw [Py.nonspace_append, Py.nonspace_rdropWhile hnl, nonspace_stripLines,
      Py.nonspace_of_space (t := [Py.newline]) (by simp; decide), List.append_nil]
  · exact nonspace_stripLines text

theorem mem_whitespaceNormalize {text : Text} {c : CodePoint} (h : c ∈ whitespaceNormalize text) :
    c ∈ text ∨ c = Py.newline := by
  unfold whitespaceNormalize at h
  simp only at h
  split at h
  · rcases List.mem_append.mp h with h | h
    · exact mem_stripLines ((List.rdropWhile_prefix _ _).subset h)
    · exact .inr (List.mem_singleton.mp h)
  · exact mem_stripLines h

/-- A text that was read: it has no `\r`, and it can be written. -/
structure ReadBack (text : Text) : Prop where
  noReturn : Py.carriageReturn ∉ text
  encodes : (Py.encode text).isSome = true

theorem ReadBack.of_mem {text text' : Text} (h : ReadBack text)
    (hmem : ∀ c ∈ text', c ∈ text ∨ c = Py.newline) : ReadBack text' := by
  constructor
  · intro hc
    rcases hmem _ hc with hc | hc
    · exact h.noReturn hc
    · exact absurd hc (by decide)
  · refine Py.encode_isSome_iff.mpr fun c hc => ?_
    rcases hmem c hc with hc | rfl
    · exact Py.encode_isSome_iff.mp h.encodes c hc
    · decide

theorem readBack_nil : ReadBack [] := ⟨by simp, by decide⟩

theorem readBack_of_readText {b : ByteArray} {text : Text} (h : Py.readText b = some text) :
    ReadBack text := ⟨Py.carriageReturn_notMem_of_readText h, Py.encode_isSome_of_readText h⟩

/-! ## The plan -/

/-- The text that a plan starts from is the one in the file, or there is no file. -/
def StartsFrom (t : Tree) (loc : Location) (before : Text) : Prop :=
  match bytesAt t loc with
  | some b => Py.readText b = some before
  | none => before = []

theorem checkDiff_ok {m : BoundedMutator} {task : ExecTask} {before after before' after' : Text}
    (h : m.checkDiff task before after = .ok (before', after')) :
    before' = before ∧ after' = after ∧ after ≠ before
      ∧ (linesChanged after before : Int) ≤ m.maxDiffLines := by
  unfold BoundedMutator.checkDiff at h
  split at h
  · cases h
  · next hne =>
    split at h
    · cases h
    · next hlines =>
      cases h
      exact ⟨rfl, rfl, hne, not_lt.mp hlines⟩

/-- What a plan for a note, a docs stub or a format task says. -/
theorem planPlain_ok {m : BoundedMutator} {t : Tree} {task : ExecTask} {before after : Text}
    (h : m.planPlain t task = .ok (before, after)) :
    after = plainText task before ∧ after ≠ before
      ∧ (linesChanged after before : Int) ≤ m.maxDiffLines ∧ ReadBack before
      ∧ ((m.target task).all FileTree.isFsName = true → StartsFrom t (m.target task) before) := by
  unfold BoundedMutator.planPlain at h
  split at h
  · next hno =>
    obtain ⟨rfl, rfl, hne, hlines⟩ := checkDiff_ok h
    refine ⟨rfl, hne, hlines, readBack_nil, fun hname => ?_⟩
    have hnone : t (m.target task) = none := by
      simpa [FileTree.pathExists, hname] using hno
    simp [StartsFrom, bytesAt, hnone]
  · split at h
    · next text hread =>
      obtain ⟨rfl, rfl, hne, hlines⟩ := checkDiff_ok h
      obtain ⟨hname, b, hb, htext⟩ := FileTree.readText_ok hread
      refine ⟨rfl, hne, hlines, readBack_of_readText htext, fun _ => ?_⟩
      simp only [StartsFrom, hb]
      exact htext
    · next e hread =>
      obtain ⟨rfl, rfl, hne, hlines⟩ := checkDiff_ok h
      refine ⟨rfl, hne, hlines, readBack_nil, fun hname => ?_⟩
      unfold FileTree.readText at hread
      rw [if_neg (by simp [hname])] at hread
      cases he : t (m.target task) with
      | none => simp [StartsFrom, bytesAt, he]
      | some entry =>
        cases entry with
        | dir => simp [StartsFrom, bytesAt, he]
        | file b =>
          simp only [he] at hread
          split at hread <;> cases hread
    · cases h

/-- What a plan for a source file says. -/
theorem planSource_ok {m : BoundedMutator} {t : Tree} {task : ExecTask} {before after : Text}
    (h : m.planSource t task = .ok (before, after)) :
    after = whitespaceNormalize before ∧ after ≠ before
      ∧ (linesChanged after before : Int) ≤ m.maxDiffLines
      ∧ (m.target task).all FileTree.isFsName = true
      ∧ ∃ b, bytesAt t (m.target task) = some b ∧ Py.readText b = some before := by
  unfold BoundedMutator.planSource at h
  split at h
  · cases h
  · split at h
    · cases h
    · cases h
    · next text hread =>
      split at h
      · cases h
      · cases h
      · cases h
      · simp only at h
        split at h
        · cases h
        · obtain ⟨rfl, rfl, hne, hlines⟩ := checkDiff_ok h
          obtain ⟨hname, hb⟩ := FileTree.readText_ok hread
          exact ⟨rfl, hne, hlines, hname, hb⟩

/-! ## The write -/

theorem honestEnd_refused {maxLines : Int} {t t' : Tree} {ended : Ended}
    (h : ∀ o, ended = .ok o → o.executed = false) :
    HonestEnd maxLines t (ended, t') ↔ bytesAt t' = bytesAt t := by
  unfold HonestEnd
  cases ended with
  | error e => exact Iff.rfl
  | ok o => simp [h o rfl]

/-- A write whose text is read back as it was is honest. -/
theorem honestEnd_executed {maxLines : Int} {t t' : Tree} {loc : Location} {task : ExecTask}
    {before after reason : Text} {b : ByteArray} (ht' : bytesAt t' = bytesAt t)
    (hb : Py.encode after = some b) (hreturn : Py.carriageReturn ∉ after) (hne : after ≠ before)
    (hlines : (linesChanged after before : Int) ≤ maxLines) (hstart : StartsFrom t loc before) :
    HonestEnd maxLines t (BoundedMutator.written task before after true reason, FileTree.put t' loc b) := by
  have hchanged : bytesAt t loc ≠ some b := by
    intro hsame
    simp only [StartsFrom, hsame, Py.readText_encode hb,
      Py.universalNewlines_eq_self_iff.mpr hreturn, Option.some.injEq] at hstart
    exact hne hstart
  refine ⟨⟨loc, ?_, fun l hl => ?_⟩, hlines⟩
  · show bytesAt (FileTree.put t' loc b) loc ≠ bytesAt t loc
    rw [FileTree.bytesAt_put_self]
    exact Ne.symm hchanged
  · by_contra hne
    refine hl ?_
    show bytesAt (FileTree.put t' loc b) l = bytesAt t l
    rw [FileTree.bytesAt_put, if_neg hne, ht']

theorem bytesAt_put_of_eq {t t' : Tree} {loc : Location} {b : ByteArray}
    (ht' : bytesAt t' = bytesAt t) :
    bytesAt (FileTree.put t' loc b) = bytesAt t ↔ bytesAt t loc = some b := by
  rw [← ht']
  exact FileTree.bytesAt_put_eq_iff

/-- A write to a target that cannot be opened changes no file, and is refused or raises. -/
theorem writePlain_blocked {m : BoundedMutator} {t : Tree} {task : ExecTask}
    (h : ¬ Writable t (m.target task)) (before after : Text) :
    bytesAt (m.writePlain t task before after).2 = bytesAt t
      ∧ ∀ o, (m.writePlain t task before after).1 = .ok o → o.executed = false := by
  unfold BoundedMutator.writePlain
  cases hdirs : FileTree.makeDirs t (m.target task).dropLast with
  | error e =>
    cases e with
    | os e => exact ⟨rfl, fun o ho => by cases ho; rfl⟩
    | value => exact ⟨rfl, fun o ho => by cases ho⟩
  | ok t' =>
    have ht' := FileTree.bytesAt_makeDirs hdirs
    by_cases hname : (m.target task).all FileTree.isFsName = true
    · have hdir : t' (m.target task) = some .dir := by
        by_contra hdir
        exact h ⟨t', hdirs, hname, hdir⟩
      simp only [FileTree.writeText, hname, hdir, Bool.true_eq_false, if_false, if_true]
      exact ⟨ht', fun o ho => by cases ho; rfl⟩
    · simp only [FileTree.writeText, hname, if_true]
      exact ⟨ht', fun o ho => by cases ho⟩

/-- A write to a target that can be opened: the text is in the file, and is read back as it was when
it has no `\r`; a text that cannot be encoded leaves the file empty. -/
theorem writePlain_writable {m : BoundedMutator} {t : Tree} {task : ExecTask}
    (h : Writable t (m.target task)) (before after : Text) :
    ∃ t', bytesAt t' = bytesAt t ∧ m.writePlain t task before after =
      match Py.encode after with
      | none => (.error .value, FileTree.put t' (m.target task) .empty)
      | some b => (BoundedMutator.written task before after
          (decide (Py.carriageReturn ∉ after)) (lit "verify 실패 — 결과 불일치"),
          FileTree.put t' (m.target task) b) := by
  obtain ⟨t', hdirs, hname, hdir⟩ := h
  refine ⟨t', FileTree.bytesAt_makeDirs hdirs, ?_⟩
  unfold BoundedMutator.writePlain
  simp only [hdirs, FileTree.writeText, hname, hdir, Bool.true_eq_false, if_false]
  cases hb : Py.encode after with
  | none => rfl
  | some b =>
    simp only [FileTree.readText_put hname hb, Py.universalNewlines_eq_self_iff]

/-- **The write of a note, a docs stub or a format task.** -/
theorem writePlain_honest_iff {m : BoundedMutator} {t : Tree} {task : ExecTask}
    {before after : Text} (hne : after ≠ before)
    (hlines : (linesChanged after before : Int) ≤ m.maxDiffLines)
    (hstart : (m.target task).all FileTree.isFsName = true → StartsFrom t (m.target task) before) :
    HonestEnd m.maxDiffLines t (m.writePlain t task before after)
      ↔ (Writable t (m.target task) →
          (Py.encode after = none → bytesAt t (m.target task) = some .empty)
          ∧ ∀ b, Py.encode after = some b → Py.carriageReturn ∈ after →
            bytesAt t (m.target task) = some b) := by
  by_cases hw : Writable t (m.target task)
  · have hname := hw.choose_spec.2.1
    obtain ⟨t', ht', hwrite⟩ := writePlain_writable hw before after
    rw [hwrite]
    simp only [hw, true_imp_iff]
    cases hb : Py.encode after with
    | none =>
      -- the file was opened, and emptied, before the text failed to encode
      simp only [true_imp_iff, reduceCtorEq, false_imp_iff, implies_true, and_true]
      exact (honestEnd_refused fun o ho => by cases ho).trans (bytesAt_put_of_eq ht')
    | some b =>
      simp only [reduceCtorEq, false_imp_iff, true_and, Option.some.injEq, forall_eq']
      by_cases hreturn : Py.carriageReturn ∈ after
      · simp only [hreturn, not_true_eq_false, decide_false, true_imp_iff]
        exact (honestEnd_refused fun o ho => by cases ho; rfl).trans (bytesAt_put_of_eq ht')
      · simp only [hreturn, not_false_eq_true, decide_true]
        refine iff_of_true ?_ fun h => h.elim
        exact honestEnd_executed ht' hb hreturn hne hlines (hstart hname)
  · obtain ⟨hbytes, hrefused⟩ := writePlain_blocked hw before after
    exact iff_of_true ((honestEnd_refused hrefused).mpr hbytes) fun h => absurd h hw

theorem hasReturn_iff {t : Tree} {loc : Location} {b b' : ByteArray} {before : Text}
    (hb : bytesAt t loc = some b) (hread : Py.readText b = some before)
    (hb' : Py.encode before = some b') : bytesAt t loc = some b' ↔ ¬ HasReturn t loc := by
  obtain ⟨text, htext, hbefore⟩ := Py.readText_some hread
  have hdecode := Py.decode_encode htext
  constructor
  · rintro hsame ⟨b1, text1, hb1, htext1, hreturn⟩
    rw [hb, Option.some.injEq] at hsame hb1
    subst hsame hb1
    have hsame := Py.encode_inj htext hb'
    rw [hdecode, Option.some.injEq] at htext1
    subst htext1
    rw [hbefore] at hsame
    exact Py.universalNewlines_eq_self_iff.mp hsame.symm hreturn
  · intro hno
    have hreturn : Py.carriageReturn ∉ text := fun h => hno ⟨b, text, hb, hdecode, h⟩
    rw [Py.universalNewlines_eq_self_iff.mpr hreturn] at hbefore
    rw [hbefore, htext, Option.some.injEq] at hb'
    rw [hb, hb']

/-- **The write of a source file.** -/
theorem writeSource_honest_iff {m : BoundedMutator} {t : Tree} {task : ExecTask}
    {before after : Text} {b : ByteArray} (hne : after ≠ before)
    (hlines : (linesChanged after before : Int) ≤ m.maxDiffLines)
    (hname : (m.target task).all FileTree.isFsName = true)
    (hb : bytesAt t (m.target task) = some b) (hread : Py.readText b = some before)
    (hafter : ReadBack after) :
    HonestEnd m.maxDiffLines t (m.writeSource t task before after)
      ↔ m.verify after (m.targetName task) = .answer true
        ∨ m.verify after (m.targetName task) ≠ .raises ∧ ¬ HasReturn t (m.target task) := by
  obtain ⟨a, ha⟩ := Option.isSome_iff_exists.mp hafter.encodes
  obtain ⟨b', hb'⟩ := Option.isSome_iff_exists.mp (readBack_of_readText hread).encodes
  have hstart : StartsFrom t (m.target task) before := by
    simp only [StartsFrom, hb]
    exact hread
  have hdir : t (m.target task) ≠ some .dir := by
    intro h
    simp [bytesAt, h] at hb
  have hreread := FileTree.readText_put (t := t) hname ha
  rw [Py.universalNewlines_eq_self_iff.mpr hafter.noReturn] at hreread
  have hrollBack : m.rollBack (FileTree.put t (m.target task) a) task before after
      = (BoundedMutator.written task before after false (lit "verify 실패 — rollback (원본 복원, 커밋 안 함)"),
        FileTree.put (FileTree.put t (m.target task) a) (m.target task) b') := by
    have hput : FileTree.put t (m.target task) a (m.target task) ≠ some .dir := by
      simp [FileTree.put]
    simp only [BoundedMutator.rollBack, FileTree.writeText, hname, hput, Bool.true_eq_false,
      if_false, hb']
  have hrolled : HonestEnd m.maxDiffLines t
      (m.rollBack (FileTree.put t (m.target task) a) task before after)
      ↔ ¬ HasReturn t (m.target task) := by
    rw [hrollBack, honestEnd_refused fun o ho => by cases ho; rfl, ← hasReturn_iff hb hread hb']
    have hput : bytesAt (FileTree.put (FileTree.put t (m.target task) a) (m.target task) b')
        = bytesAt (FileTree.put t (m.target task) b') := by
      funext l
      simp only [FileTree.bytesAt_put]
      split <;> rfl
    rw [hput]
    exact FileTree.bytesAt_put_eq_iff
  simp only [BoundedMutator.writeSource, FileTree.writeText, hname, hdir, Bool.true_eq_false,
    if_false, ha, hreread, ne_eq, not_true_eq_false]
  cases m.verify after (m.targetName task) with
  | raises =>
    -- the exception leaves the new text in the file
    simp only [reduceCtorEq, not_true_eq_false, false_and, or_false]
    refine iff_of_false (fun h => ?_) id
    have hsame := FileTree.bytesAt_put_eq_iff.mp h
    simp only [StartsFrom, hsame, Py.readText_encode ha,
      Py.universalNewlines_eq_self_iff.mpr hafter.noReturn, Option.some.injEq] at hstart
    exact hne hstart
  | osError => simpa using hrolled
  | answer ok =>
    cases ok with
    | false => simpa using hrolled
    | true =>
      refine iff_of_true ?_ (.inl rfl)
      exact honestEnd_executed rfl ha hafter.noReturn hne hlines hstart

/-! ## The other files -/

theorem bytesAt_writeText_of_ne {t : Tree} {loc l : Location} (text : Text) (h : l ≠ loc) :
    bytesAt (FileTree.writeText t loc text).2 l = bytesAt t l := by
  unfold FileTree.writeText
  split
  · rfl
  · split
    · rfl
    · split
      · rw [FileTree.bytesAt_put, if_neg h]
      · rw [FileTree.bytesAt_put, if_neg h]

theorem rollBack_of_ne {m : BoundedMutator} {t : Tree} {task : ExecTask} {before after : Text}
    {l : Location} (h : l ≠ m.target task) :
    bytesAt (m.rollBack t task before after).2 l = bytesAt t l := by
  have hwrite := bytesAt_writeText_of_ne (t := t) before h
  unfold BoundedMutator.rollBack
  split
  · next heq => rw [heq] at hwrite; exact hwrite
  · next heq => rw [heq] at hwrite; exact hwrite

/-- **A call leaves every file but its target alone**, however it ends. -/
theorem execute_of_ne {m : BoundedMutator} {t : Tree} {task : ExecTask} {l : Location}
    (h : l ≠ m.target task) : bytesAt (m.execute t task).2 l = bytesAt t l := by
  have hplain : ∀ before after, bytesAt (m.writePlain t task before after).2 l = bytesAt t l := by
    intro before after
    unfold BoundedMutator.writePlain
    cases hdirs : FileTree.makeDirs t (m.target task).dropLast with
    | error e => cases e <;> rfl
    | ok t' =>
      rw [← FileTree.bytesAt_makeDirs hdirs]
      have hwrite := bytesAt_writeText_of_ne (t := t') after h
      simp only
      split
      · next heq => rw [heq] at hwrite; exact hwrite
      · next heq => rw [heq] at hwrite; exact hwrite
      · next heq =>
        rw [heq] at hwrite
        split <;> exact hwrite
  have hsource : ∀ before after, bytesAt (m.writeSource t task before after).2 l = bytesAt t l := by
    intro before after
    unfold BoundedMutator.writeSource
    have hwrite := bytesAt_writeText_of_ne (t := t) after h
    split
    · next heq => rw [heq] at hwrite; exact hwrite
    · next heq => rw [heq] at hwrite; exact hwrite
    · next heq =>
      rw [heq] at hwrite
      split
      · exact hwrite
      · exact (rollBack_of_ne h).trans hwrite
      · split
        · exact (rollBack_of_ne h).trans hwrite
        · split
          · exact hwrite
          · exact (rollBack_of_ne h).trans hwrite
          · exact (rollBack_of_ne h).trans hwrite
          · exact hwrite
  unfold BoundedMutator.execute
  split
  · rfl
  · split
    · exact hsource _ _
    · exact hplain _ _

/-! ## A whole call -/

/-- What ends before a write is no execution. -/
theorem plan_error {m : BoundedMutator} {t : Tree} {task : ExecTask} {o : ExecOutcome}
    (h : m.plan t task = .error (.ok o)) : o.executed = false := by
  have hcheck : ∀ {before after}, m.checkDiff task before after = .error (.ok o) →
      o.executed = false := by
    intro before after h
    unfold BoundedMutator.checkDiff at h
    split at h
    · cases h; rfl
    · split at h
      · cases h; rfl
      · cases h
  unfold BoundedMutator.plan at h
  split at h
  · cases h; rfl
  · split at h
    · unfold BoundedMutator.planSource at h
      split at h
      · cases h; rfl
      · split at h
        · cases h; rfl
        · cases h
        · split at h
          · cases h
          · cases h
          · cases h; rfl
          · simp only at h
            split at h
            · cases h; rfl
            · exact hcheck h
    · unfold BoundedMutator.planPlain at h
      split at h
      · exact hcheck h
      · split at h
        · exact hcheck h
        · exact hcheck h
        · cases h

/-- A plan is made for the four actions only. -/
theorem plan_other {m : BoundedMutator} {t : Tree} {task : ExecTask} {name : Text}
    (haction : task.action = .other name) (p : Text × Text) : m.plan t task ≠ .ok p := by
  intro h
  unfold BoundedMutator.plan at h
  rw [if_pos (by simp [BoundedMutator.validate, haction])] at h
  cases h

theorem plan_plain {m : BoundedMutator} {t : Tree} {task : ExecTask} {p : Text × Text}
    (haction : task.action ≠ .sourceFormat) (h : m.plan t task = .ok p) :
    m.planPlain t task = .ok p := by
  unfold BoundedMutator.plan at h
  split at h
  · cases h
  · split at h
    · next hsource => exact absurd hsource haction
    · exact h

theorem plan_source {m : BoundedMutator} {t : Tree} {task : ExecTask} {p : Text × Text}
    (haction : task.action = .sourceFormat) (h : m.plan t task = .ok p) :
    m.planSource t task = .ok p := by
  unfold BoundedMutator.plan at h
  split at h
  · cases h
  · rw [haction] at h
    exact h

/-- A docs stub whose content has a `\r` is never what the file holds already. -/
theorem docsStub_changes {t : Tree} {loc : Location} {before content : Text} {b : ByteArray}
    (hstart : StartsFrom t loc before) (hbefore : ReadBack before)
    (hb : Py.encode (before ++ [Py.newline] ++ content) = some b) : bytesAt t loc ≠ some b := by
  intro hsame
  simp only [StartsFrom, hsame, Py.readText_encode hb, Option.some.injEq] at hstart
  rw [List.append_assoc, Py.universalNewlines_append hbefore.noReturn] at hstart
  have hlen := congrArg List.length hstart
  simp [Py.universalNewlines, show Py.newline ≠ Py.carriageReturn by decide] at hlen

/-- What the write of a docs stub needs, in terms of its content. -/
theorem docsStub_iff {t : Tree} {loc : Location} {before content : Text}
    (hstart : loc.all FileTree.isFsName = true → StartsFrom t loc before) (hbefore : ReadBack before) :
    (Writable t loc → (Py.encode (before ++ [Py.newline] ++ content) = none → bytesAt t loc = some .empty)
        ∧ ∀ b, Py.encode (before ++ [Py.newline] ++ content) = some b →
          Py.carriageReturn ∈ before ++ [Py.newline] ++ content → bytesAt t loc = some b)
      ↔ (Writable t loc → (Py.encode content = none → bytesAt t loc = some .empty)
        ∧ ∀ b, Py.encode content = some b → Py.carriageReturn ∉ content) := by
  have hencodes : (Py.encode (before ++ [Py.newline] ++ content)).isSome = true
      ↔ (Py.encode content).isSome = true := by
    rw [Py.encode_isSome_iff, Py.encode_isSome_iff]
    constructor
    · exact fun h c hc => h c (List.mem_append_right _ hc)
    · intro h c hc
      simp only [List.mem_append, List.mem_singleton] at hc
      rcases hc with (hc | rfl) | hc
      · exact Py.encode_isSome_iff.mp hbefore.encodes c hc
      · decide
      · exact h c hc
  have hreturn : Py.carriageReturn ∈ before ++ [Py.newline] ++ content
      ↔ Py.carriageReturn ∈ content := by
    simp [hbefore.noReturn, show Py.carriageReturn ≠ Py.newline by decide]
  refine forall_congr' fun hw => and_congr ?_ ?_
  · rw [← Option.not_isSome_iff_eq_none, ← Option.not_isSome_iff_eq_none, hencodes]
  · rw [hreturn]
    constructor
    · intro h b hb hr
      obtain ⟨a, ha⟩ := Option.isSome_iff_exists.mp (hencodes.mpr (Option.isSome_of_eq_some hb))
      exact docsStub_changes (hstart hw.choose_spec.2.1) hbefore ha (h a ha hr)
    · intro h b hb hr
      obtain ⟨a, ha⟩ := Option.isSome_iff_exists.mp (hencodes.mp (Option.isSome_of_eq_some hb))
      exact absurd hr (h a ha)

/--
**A call is honest exactly when** its text can be written and comes back as it was, and a source
file that is refused can be put back.
-/
theorem honest_iff (m : BoundedMutator) (t : Tree) (task : ExecTask) :
    Honest m t task ↔ HonestWhen m t task := by
  unfold Honest BoundedMutator.execute
  cases hplan : m.plan t task with
  | error ended =>
    refine iff_of_true ?_ fun before after h => by rw [hplan] at h; cases h
    exact (honestEnd_refused fun o ho => plan_error (ho ▸ hplan)).mpr rfl
  | ok p =>
    obtain ⟨before, after⟩ := p
    have hwhen : HonestWhen m t task ↔ WriteHonest m t task before := by
      constructor
      · exact fun h => h before after hplan
      · intro h before' after' hplan'
        rw [hplan, Except.ok.injEq, Prod.mk.injEq] at hplan'
        exact hplan'.1 ▸ h
    rw [hwhen]
    unfold WriteHonest
    cases haction : task.action with
    | other name => exact absurd hplan (plan_other haction _)
    | sourceFormat =>
      obtain ⟨rfl, hne, hlines, hname, b, hb, hread⟩ := planSource_ok (plan_source haction hplan)
      refine writeSource_honest_iff hne hlines hname hb hread ?_
      exact (readBack_of_readText hread).of_mem fun c hc => mem_whitespaceNormalize hc
    | note =>
      obtain ⟨rfl, hne, hlines, hbefore, hstart⟩ :=
        planPlain_ok (plan_plain (by simp [haction]) hplan)
      refine (writePlain_honest_iff hne hlines hstart).trans ?_
      simp only [plainText, haction, true_and]
    | docsStub =>
      obtain ⟨rfl, hne, hlines, hbefore, hstart⟩ :=
        planPlain_ok (plan_plain (by simp [haction]) hplan)
      refine (writePlain_honest_iff hne hlines hstart).trans ?_
      simp only [plainText, haction, reduceCtorEq, false_and, imp_false]
      exact docsStub_iff hstart hbefore
    | format =>
      obtain ⟨rfl, hne, hlines, hbefore, hstart⟩ :=
        planPlain_ok (plan_plain (by simp [haction]) hplan)
      refine iff_of_true ((writePlain_honest_iff hne hlines hstart).mpr fun _ => ?_) trivial
      have hafter : ReadBack (plainText task before) := by
        simp only [plainText, haction]
        exact hbefore.of_mem fun c hc => mem_stripLines hc
      constructor
      · intro hnone
        rw [Option.eq_none_iff_forall_ne_some] at hnone
        obtain ⟨a, ha⟩ := Option.isSome_iff_exists.mp hafter.encodes
        exact absurd ha (hnone a)
      · exact fun b _ hreturn => absurd hreturn hafter.noReturn

/-- A note with Windows line ends, for a repository without files. -/
def windowsNote : ExecTask where
  action := .note
  relPath := lit "runs/a.md"
  content := lit "a\r\nb"

/-- The note is written and read back with other line ends: a refusal, and a new file. -/
theorem windowsNote_lies : ¬ Honest { repoRoot := [lit "repo"] } (fun _ => none) windowsNote := by
  intro h
  have hrefused : ∃ o, (BoundedMutator.execute { repoRoot := [lit "repo"] } (fun _ => none)
      windowsNote).1 = .ok o ∧ o.executed = false := ⟨_, rfl, by decide +kernel⟩
  have hwritten : bytesAt (BoundedMutator.execute { repoRoot := [lit "repo"] } (fun _ => none)
      windowsNote).2 [lit "repo", lit "runs", lit "a.md"] ≠ none := by decide +kernel
  obtain ⟨o, ho, hexecuted⟩ := hrefused
  simp only [Honest, HonestEnd, ho, hexecuted, Bool.false_eq_true, if_false] at h
  rw [h] at hwritten
  exact hwritten rfl

end ForgeKit.Autopilot
