import ForgeKit.Lib.ContentIndex
import ForgeKit.Lib.Machine
import ForgeKit.Memory.Documents

/-!
# The memory index (`indexer.py`)

`documents` holds a row for each document, `documents_fts` the tokens of its title and body under the
rowid. `upsert_document` deletes the row of a `doc_id` and inserts a new one under a fresh rowid, but
it says nothing to the full-text index about the old one.

* `Fresh` — the calls that replace no row
* `index_in_step_iff` — when the two tables stay in step, what `reindex_paths` returns, and what
  indexing the same inputs again does
-/

namespace ForgeKit

namespace Memory

/-- `documents` with `documents_fts`. -/
abbrev MemoryIndex := ContentIndex MemoryDocument (List String × List String)

namespace MemoryIndex

variable (tokenize : String → List String) (parseIso : String → Option String)

/-- What `documents_fts` keeps of a document. -/
def tokensOf (doc : MemoryDocument) : List String × List String :=
  (tokenize doc.title, tokenize doc.body)

/-- `upsert_document`; the error is the message of the `ValueError`. -/
def upsertDocument (index : MemoryIndex) (doc : MemoryDocument) : Except String MemoryIndex :=
  if doc.docId = "" then .error "MemoryDocument.doc_id must not be empty"
  else .ok (index.put MemoryDocument.docId (tokensOf tokenize) doc)

/-- The documents of a source kind. -/
def ofKind (sourceKind : String) (doc : MemoryDocument) : Bool := doc.sourceKind = sourceKind

/-- `count_documents`. -/
def countDocuments (index : MemoryIndex) (sourceKind : String) : ℕ :=
  index.rows.countP fun row => ofKind sourceKind row.2

/-- `delete_by_source`. -/
def deleteBySource (index : MemoryIndex) (sourceKind : String) : ℕ × MemoryIndex :=
  (index.countDocuments sourceKind, index.wipe (ofKind sourceKind))

/-! ## Reindexing -/

/-- A path that `reindex_paths` is given. -/
inductive Root where
  | missing
  | file (f : MarkdownFile)
  /-- The sorted markdown files below a directory. -/
  | directory (files : List MarkdownFile)

def Root.files : Root → List MarkdownFile
  | .missing => []
  | .file f => [f]
  | .directory files => files

/-- The loop of `reindex_paths`. -/
def ingestFiles (sourceKind : String) (baseDir : Option PathParts) :
    List MarkdownFile → ℕ → MemoryIndex → Except String (ℕ × MemoryIndex)
  | [], indexed, index => .ok (indexed, index)
  | file :: files, indexed, index =>
    match documentFromMarkdownFile parseIso file sourceKind baseDir with
    | none => ingestFiles sourceKind baseDir files indexed index
    | some doc => do
      let index ← index.upsertDocument tokenize doc
      ingestFiles sourceKind baseDir files (indexed + 1) index

/-- `reindex_paths`. -/
def reindexPaths (index : MemoryIndex) (roots : List Root) (sourceKind : String)
    (baseDir : Option PathParts) : Except String (ℕ × MemoryIndex) :=
  ingestFiles tokenize parseIso sourceKind baseDir (roots.flatMap Root.files) 0
    (index.deleteBySource sourceKind).2

/-- The loop of `reindex_workflow_sessions`. A session that cannot be read ends it. -/
def ingestSessions : List WorkflowSession → ℕ → MemoryIndex → Option ℕ × MemoryIndex
  | [], indexed, index => (some indexed, index)
  | session :: sessions, indexed, index =>
    match documentFromWorkflowSession session with
    | .error _ => (none, index)
    | .ok none => ingestSessions sessions indexed index
    | .ok (some doc) =>
      match index.upsertDocument tokenize doc with
      | .error _ => (none, index)
      | .ok index => ingestSessions sessions (indexed + 1) index

/-- `reindex_workflow_sessions`; no count when it raised. -/
def reindexWorkflowSessions (index : MemoryIndex) (sessions : List WorkflowSession) :
    Option ℕ × MemoryIndex :=
  ingestSessions tokenize sessions 0 (index.deleteBySource sourceWorkflow).2

/-! ## Calls -/

inductive Call where
  | upsertDocument (doc : MemoryDocument)
  | deleteBySource (sourceKind : String)
  | reindexPaths (roots : List Root) (sourceKind : String) (baseDir : Option PathParts)
  | reindexWorkflowSessions (sessions : List WorkflowSession)

/-- The index after a call. A `ValueError` leaves it as it was. -/
def step (index : MemoryIndex) : Call → MemoryIndex
  | .upsertDocument doc => (index.upsertDocument tokenize doc).toOption.getD index
  | .deleteBySource sourceKind => (index.deleteBySource sourceKind).2
  | .reindexPaths roots sourceKind baseDir =>
    ((index.reindexPaths tokenize parseIso roots sourceKind baseDir).toOption.map Prod.snd).getD index
  | .reindexWorkflowSessions sessions => (index.reindexWorkflowSessions tokenize sessions).2

/-! ## What a call writes -/

/-- The documents of the files below some roots. -/
def fileDocuments (roots : List Root) (sourceKind : String) (baseDir : Option PathParts) :
    List MemoryDocument :=
  (roots.flatMap Root.files).filterMap fun file =>
    documentFromMarkdownFile parseIso file sourceKind baseDir

/-- The documents of some sessions, up to the first that cannot be read. -/
def sessionDocuments : List WorkflowSession → List MemoryDocument
  | [] => []
  | session :: sessions =>
    match documentFromWorkflowSession session with
    | .error _ => []
    | .ok none => sessionDocuments sessions
    | .ok (some doc) => doc :: sessionDocuments sessions

theorem documentFromMarkdownFile_ids {parseIso : String → Option String} {file : MarkdownFile}
    {sourceKind : String} {baseDir : Option PathParts} {doc : MemoryDocument}
    (h : documentFromMarkdownFile parseIso file sourceKind baseDir = some doc) :
    doc.docId ≠ "" ∧ ofKind sourceKind doc = true := by
  unfold documentFromMarkdownFile at h
  obtain ⟨text, -, h⟩ := Option.bind_eq_some_iff.mp h
  obtain rfl := Option.some.inj h
  refine ⟨fun he => ?_, decide_eq_true rfl⟩
  have hlen := congrArg String.length he
  simp at hlen

theorem documentFromWorkflowSession_ids {session : WorkflowSession} {doc : MemoryDocument}
    (h : documentFromWorkflowSession session = .ok (some doc)) :
    doc.docId ≠ "" ∧ ofKind sourceWorkflow doc = true := by
  unfold documentFromWorkflowSession at h
  dsimp only at h
  split at h
  · cases h
  · split at h
    · cases h
      refine ⟨fun he => ?_, decide_eq_true rfl⟩
      have hlen := congrArg String.length he
      simp [sourceWorkflow] at hlen
    · cases h

theorem ingestFiles_eq (sourceKind : String) (baseDir : Option PathParts) (files : List MarkdownFile)
    (indexed : ℕ) (index : MemoryIndex) :
    let docs := files.filterMap fun file => documentFromMarkdownFile parseIso file sourceKind baseDir
    ingestFiles tokenize parseIso sourceKind baseDir files indexed index
      = .ok (indexed + docs.length,
        docs.foldl (ContentIndex.put MemoryDocument.docId (tokensOf tokenize)) index) := by
  induction files generalizing indexed index with
  | nil => rfl
  | cons file files ih =>
    cases hdoc : documentFromMarkdownFile parseIso file sourceKind baseDir with
    | none =>
      simp only [ingestFiles, hdoc, List.filterMap_cons]
      exact ih indexed index
    | some doc =>
      have hid := (documentFromMarkdownFile_ids hdoc).1
      have hupsert : index.upsertDocument tokenize doc
          = .ok (index.put MemoryDocument.docId (tokensOf tokenize) doc) := if_neg hid
      simp only [ingestFiles, hdoc, List.filterMap_cons, hupsert]
      refine (ih (indexed + 1) _).trans ?_
      rw [List.length_cons, List.foldl_cons, Nat.add_right_comm, ← Nat.add_assoc]

theorem ingestSessions_eq (sessions : List WorkflowSession) (indexed : ℕ) (index : MemoryIndex) :
    (ingestSessions tokenize sessions indexed index).2
      = (sessionDocuments sessions).foldl
        (ContentIndex.put MemoryDocument.docId (tokensOf tokenize)) index := by
  induction sessions generalizing indexed index with
  | nil => rfl
  | cons session sessions ih =>
    cases hdoc : documentFromWorkflowSession session with
    | error e => simp only [ingestSessions, sessionDocuments, hdoc, List.foldl_nil]
    | ok found =>
      cases found with
      | none =>
        simp only [ingestSessions, sessionDocuments, hdoc]
        exact ih indexed index
      | some doc =>
        have hid := (documentFromWorkflowSession_ids hdoc).1
        have hupsert : index.upsertDocument tokenize doc
            = .ok (index.put MemoryDocument.docId (tokensOf tokenize) doc) := if_neg hid
        simp only [ingestSessions, sessionDocuments, hdoc, hupsert, List.foldl_cons]
        exact ih (indexed + 1) _

theorem ofKind_fileDocuments {roots : List Root} {sourceKind : String} {baseDir : Option PathParts}
    {doc : MemoryDocument} (h : doc ∈ fileDocuments parseIso roots sourceKind baseDir) :
    ofKind sourceKind doc = true := by
  obtain ⟨file, -, hdoc⟩ := List.mem_filterMap.mp h
  exact (documentFromMarkdownFile_ids hdoc).2

theorem ofKind_sessionDocuments {sessions : List WorkflowSession} {doc : MemoryDocument}
    (h : doc ∈ sessionDocuments sessions) : ofKind sourceWorkflow doc = true := by
  induction sessions with
  | nil => cases h
  | cons session sessions ih =>
    unfold sessionDocuments at h
    split at h
    · cases h
    · exact ih h
    · next hdoc =>
      rcases List.mem_cons.mp h with rfl | h
      · exact (documentFromWorkflowSession_ids hdoc).2
      · exact ih h

theorem step_reindexPaths (index : MemoryIndex) (roots : List Root) (sourceKind : String)
    (baseDir : Option PathParts) :
    index.step tokenize parseIso (.reindexPaths roots sourceKind baseDir)
      = index.reslice MemoryDocument.docId (tokensOf tokenize) (ofKind sourceKind)
        (fileDocuments parseIso roots sourceKind baseDir) := by
  simp only [step, reindexPaths, ingestFiles_eq, Except.toOption]
  rfl

theorem step_reindexWorkflowSessions (index : MemoryIndex) (sessions : List WorkflowSession) :
    index.step tokenize parseIso (.reindexWorkflowSessions sessions)
      = index.reslice MemoryDocument.docId (tokensOf tokenize) (ofKind sourceWorkflow)
        (sessionDocuments sessions) :=
  ingestSessions_eq tokenize sessions 0 _

/-! ## In step -/

/-- No two documents of a slice have one id, and no document outside it has the id of one. -/
structure Distinct (index : MemoryIndex) (sourceKind : String) (docs : List MemoryDocument) : Prop where
  ids : (docs.map MemoryDocument.docId).Nodup
  outside : ∀ doc ∈ docs, ∀ row ∈ index.rows, row.2.sourceKind ≠ sourceKind →
    row.2.docId ≠ doc.docId

/-- A call that replaces no row. -/
def Fresh (index : MemoryIndex) : Call → Prop
  | .upsertDocument doc => doc.docId ≠ "" → ∀ row ∈ index.rows, row.2.docId ≠ doc.docId
  | .deleteBySource _ => True
  | .reindexPaths roots sourceKind baseDir =>
    index.Distinct sourceKind (fileDocuments parseIso roots sourceKind baseDir)
  | .reindexWorkflowSessions sessions => index.Distinct sourceWorkflow (sessionDocuments sessions)

/-- Ids and entries are what the statements leave them. -/
abbrev Wf (index : MemoryIndex) : Prop :=
  ContentIndex.Wf MemoryDocument.docId (tokensOf tokenize) index

/-- The entries of `documents_fts` are the tokens of the rows of `documents`, under their ids. -/
abbrev InStep (index : MemoryIndex) : Prop := ContentIndex.InStep (tokensOf tokenize) index

variable {tokenize parseIso} {index : MemoryIndex}

theorem wf_step (h : index.Wf tokenize) (c : Call) : (index.step tokenize parseIso c).Wf tokenize := by
  cases c with
  | upsertDocument doc =>
    dsimp only [step, upsertDocument]
    split
    · exact h
    · exact h.put doc
  | deleteBySource sourceKind => exact h.wipe _
  | reindexPaths roots sourceKind baseDir =>
    rw [step_reindexPaths]
    exact h.reslice _ _
  | reindexWorkflowSessions sessions =>
    rw [step_reindexWorkflowSessions]
    exact h.reslice _ _

theorem inStep_reslice_iff (h : index.Wf tokenize) (hstep : index.InStep tokenize)
    (sourceKind : String) (docs : List MemoryDocument) :
    ContentIndex.InStep (tokensOf tokenize)
        (index.reslice MemoryDocument.docId (tokensOf tokenize) (ofKind sourceKind) docs)
      ↔ index.Distinct sourceKind docs := by
  have hwipe := h.inStep_wipe hstep (ofKind sourceKind)
  rw [ContentIndex.reslice, (h.wipe _).inStep_foldl_put_iff]
  constructor
  · rintro ⟨-, hids, hfree⟩
    refine ⟨hids, fun doc hdoc row hrow hkind => hfree doc hdoc row ?_⟩
    exact List.mem_filter.mpr ⟨hrow, by simpa [ofKind] using hkind⟩
  · rintro ⟨hids, houtside⟩
    refine ⟨hwipe, hids, fun doc hdoc row hrow => ?_⟩
    obtain ⟨hmem, hkind⟩ := List.mem_filter.mp hrow
    exact houtside doc hdoc row hmem (by simpa [ofKind] using hkind)

/-- One call, from an index in step. -/
theorem inStep_step_iff (h : index.Wf tokenize) (hstep : index.InStep tokenize) (c : Call) :
    (index.step tokenize parseIso c).InStep tokenize ↔ index.Fresh parseIso c := by
  cases c with
  | upsertDocument doc =>
    dsimp only [step, upsertDocument, Fresh]
    by_cases hid : doc.docId = ""
    · rw [if_pos hid]
      exact iff_of_true hstep fun hne => absurd hid hne
    · rw [if_neg hid]
      refine (h.inStep_put_iff doc).trans ⟨fun hput _ => hput.2, fun hfresh => ⟨hstep, hfresh hid⟩⟩
  | deleteBySource sourceKind => exact iff_of_true (h.inStep_wipe hstep _) trivial
  | reindexPaths roots sourceKind baseDir =>
    rw [step_reindexPaths]
    exact inStep_reslice_iff h hstep sourceKind _
  | reindexWorkflowSessions sessions =>
    rw [step_reindexWorkflowSessions]
    exact inStep_reslice_iff h hstep sourceWorkflow _

/--
**The memory index and its full-text index.**

They stay in step along a run exactly when no call of the run replaces a row. In the index that any
run leads to, `reindex_paths` returns the number of documents of its kind stored afterwards exactly
when no two of its files have one id, and then, as for sessions, indexing the same inputs again
leaves the same search state.
-/
theorem index_in_step_iff (tokenize : String → List String) (parseIso : String → Option String)
    (calls : List Call) :
    (Machine.Always (step tokenize parseIso) (InStep tokenize) ContentIndex.empty calls
        ↔ Machine.EachStep (step tokenize parseIso) (Fresh parseIso) ContentIndex.empty calls)
      ∧ let index := Machine.run (step tokenize parseIso) ContentIndex.empty calls
        (∀ roots sourceKind baseDir,
          let call := Call.reindexPaths roots sourceKind baseDir
          let after := index.step tokenize parseIso call
          let distinct :=
            ((fileDocuments parseIso roots sourceKind baseDir).map MemoryDocument.docId).Nodup
          ((index.reindexPaths tokenize parseIso roots sourceKind baseDir).toOption.map Prod.fst
              = some (after.countDocuments sourceKind) ↔ distinct)
            ∧ ((after.step tokenize parseIso call).searchState = after.searchState ↔ distinct))
        ∧ ∀ sessions,
          let call := Call.reindexWorkflowSessions sessions
          let after := index.step tokenize parseIso call
          (after.step tokenize parseIso call).searchState = after.searchState
            ↔ ((sessionDocuments sessions).map MemoryDocument.docId).Nodup := by
  have hempty : Wf tokenize ContentIndex.empty := ContentIndex.wf_empty
  have hwf : Wf tokenize (Machine.run (step tokenize parseIso) ContentIndex.empty calls) :=
    Machine.run_of_step (A := fun _ : Call => True) (I := Wf tokenize)
      (fun _ c _ h => wf_step h c) hempty fun _ _ => trivial
  refine ⟨Machine.always_iff_eachStep (A := fun _ : Call => True) (I := Wf tokenize)
    (fun _ c _ h => wf_step h c) (fun _ c _ h hstep => inStep_step_iff h hstep c) hempty
    (List.Perm.refl _) fun _ _ => trivial, ?_, ?_⟩
  · intro roots sourceKind baseDir
    have hkind : ∀ doc ∈ fileDocuments parseIso roots sourceKind baseDir,
        ofKind sourceKind doc = true := fun doc hdoc => ofKind_fileDocuments parseIso hdoc
    dsimp only
    rw [step_reindexPaths, step_reindexPaths]
    refine ⟨?_, hwf.searchState_reslice_iff hkind⟩
    rw [← ContentIndex.countP_reslice_iff _ (tokensOf tokenize) _ hkind, reindexPaths,
      ingestFiles_eq]
    simp only [Except.toOption, Option.map_some, Option.some.injEq, Nat.zero_add]
    exact eq_comm
  · intro sessions
    dsimp only
    rw [step_reindexWorkflowSessions, step_reindexWorkflowSessions]
    exact hwf.searchState_reslice_iff fun doc hdoc => ofKind_sessionDocuments hdoc

/-! ## A note that is written twice -/

/-- Words of ASCII letters and digits. -/
def words (text : String) : List String :=
  ((text.toList.splitOnP fun c => !c.isAlphanum).filter (· ≠ [])).map String.ofList

def sampleNote (title : String) : MemoryDocument where
  docId := "policy:note.md"
  sourceKind := "policy"
  title
  body := "text"

/-- A note of a directory. -/
def sampleFile (dir : String) : MarkdownFile where
  path := [dir, "note.md"]
  resolved := [dir, "note.md"]
  text := some "# note"

/-- Two notes with one file name. -/
def sameNames : Call := .reindexPaths [.directory [sampleFile "a", sampleFile "b"]] "policy" none

/-- **A document that is written again leaves its old tokens behind**, and two notes with one file
name are counted twice and grow the index each time they are indexed. -/
theorem rewritten_note_keeps_its_tokens :
    let once := step words some ContentIndex.empty sameNames
    ¬Machine.Always (step words some) (InStep words) ContentIndex.empty
        [.upsertDocument (sampleNote "old"), .upsertDocument (sampleNote "new")]
      ∧ (reindexPaths words some ContentIndex.empty [.directory [sampleFile "a", sampleFile "b"]]
          "policy" none).toOption.map Prod.fst = some 2
      ∧ countDocuments once "policy" = 1
      ∧ (once.step words some sameNames).searchState ≠ once.searchState := by
  intro once
  refine ⟨by decide +kernel, by decide +kernel, by decide +kernel, fun h => ?_⟩
  have hcard := congrArg Multiset.card h
  revert hcard
  decide +kernel

end MemoryIndex

end Memory

end ForgeKit
