import ForgeKit.Lib.FileTree

/-!
# The bounded execution runner (`autopilot.runner`)

`execute` checks a task, works out the text to write, writes it and reads it back. The first half
(`plan`) touches no file. `compile` is Python's, and a verifier is any code, so both may answer or
raise anything.

* `validate`, `execute` — the runner
* `execute_plain`, `execute_source` — what `execute` does once there is something to write
-/

namespace ForgeKit.Autopilot

open Py (Text CodePoint lit)
open PosixPath (Location)
open FileTree (Tree Raised bytesAt)

/-- The actions: `SAFE_ACTIONS` and every other text. -/
inductive ExecAction where
  | note
  | docsStub
  | format
  | sourceFormat
  | other (name : Text)
deriving DecidableEq

def ExecAction.value : ExecAction → Text
  | note => lit "note"
  | docsStub => lit "docs-stub"
  | format => lit "format"
  | sourceFormat => lit "source-format"
  | other name => name

/-- `ALLOWED_WRITE_PREFIXES`. -/
def allowedWritePrefixes : List Text := [lit "runs/", lit "docs/", lit "examples/"]

/-- `SOURCE_EXTENSIONS`. -/
def sourceExtensions : List Text := [lit ".py"]

/-- `ExecTask`. -/
structure ExecTask where
  action : ExecAction
  relPath : Text
  content : Text := []

/-- `ExecOutcome`. -/
structure ExecOutcome where
  executed : Bool
  action : Text := []
  path : Text := []
  linesChanged : Nat := 0
  verified : Bool := false
  refusedReason : Text := []
deriving DecidableEq

/-- What the call of a verifier ends in. -/
inductive Verdict where
  | answer (ok : Bool)
  | osError
  | raises
deriving DecidableEq, Repr

/-- What `compile` ends in: code, one of the errors that `_py_parses` expects, or another one. -/
inductive Compiled where
  | code
  | syntaxError
  | valueError
  | raises
deriving DecidableEq, Repr

/-- `BoundedMutator`, with Python's `compile`. -/
structure BoundedMutator where
  repoRoot : Location
  maxDiffLines : Int := 200
  sourcePrefixes : List Text := []
  /-- From the new text and the path. -/
  sourceVerifier : Option (Text → Text → Verdict) := none
  /-- From the text and the name of the file. -/
  compile : Text → Text → Compiled := fun _ _ => .code

/-! ## Checks -/

/-- The path that the checks look at. -/
def checkedPath (relPath : Text) : Text := Py.strip relPath

/-- `rp.replace("\\", "/")`. -/
def slashed (path : Text) : Text := Py.replaceChar (Py.ofChar '\\') PosixPath.slash path

/-- The part that both path checks share. -/
def isPlainRelative (path : Text) : Bool :=
  path != [] && !PosixPath.isAbsolute path && decide (PosixPath.dotdot ∉ PosixPath.names path)

/-- `_path_ok`. -/
def pathOk (relPath : Text) : Bool :=
  isPlainRelative (checkedPath relPath)
    && allowedWritePrefixes.any fun pre => Py.startsWith (slashed (checkedPath relPath)) pre

/-- `_source_path_ok`. -/
def sourcePathOk (relPath : Text) (prefixes : List Text) : Bool :=
  isPlainRelative (checkedPath relPath)
    && (sourceExtensions.any fun ext => Py.endsWith (slashed (checkedPath relPath)) ext)
    && (prefixes.any fun pre => Py.startsWith (slashed (checkedPath relPath)) pre)

/-- `", ".join(texts)`. -/
def commaJoin (texts : List Text) : Text := (lit ", ").intercalate texts

/-- A number in a message. -/
def number (n : Int) : Text := lit (toString n)

/-- `text.count("\n")`. -/
def newlineCount (text : Text) : Nat := text.count Py.newline

namespace BoundedMutator

variable (m : BoundedMutator)

/-- `validate`: whether the task may run, and why not. -/
def validate (task : ExecTask) : Bool × Text :=
  match task.action with
  | .other name => (false, lit "non-safe action: " ++ name ++ lit " (자동 실행 금지)")
  | .sourceFormat =>
    if m.sourcePrefixes = [] then
      (false, lit "source-format 비활성 (source_prefixes 미설정 — 소스 수정 기본 OFF)")
    else if sourcePathOk task.relPath m.sourcePrefixes = false then
      (false, lit "source 경로 불허: " ++ task.relPath ++ lit " (허용: " ++ commaJoin m.sourcePrefixes
        ++ lit " · " ++ commaJoin sourceExtensions ++ lit ")")
    else (true, [])
  | _ =>
    if pathOk task.relPath = false then
      (false, lit "write 경로 불허: " ++ task.relPath ++ lit " (허용 prefix: "
        ++ commaJoin allowedWritePrefixes ++ lit ")")
    else
      let approx : Int := if task.content ≠ [] then newlineCount task.content + 1 else 1
      if approx > m.maxDiffLines then
        (false, lit "diff " ++ number approx ++ lit " > 한도 " ++ number m.maxDiffLines)
      else (true, [])

/-! ## The text to write -/

/-- `self.repo_root / task.rel_path`. -/
def target (task : ExecTask) : Location := PosixPath.join m.repoRoot task.relPath

/-- `str(target)`. -/
def targetName (task : ExecTask) : Text :=
  PosixPath.slash :: [PosixPath.slash].intercalate (m.target task)

end BoundedMutator

/-- `"\n".join(line.rstrip() for line in text.split("\n"))`. -/
def stripLines (text : Text) : Text := Py.joinLines ((Py.splitLines text).map Py.rstrip)

/-- `_whitespace_normalize`. -/
def whitespaceNormalize (text : Text) : Text :=
  let body := stripLines text
  if Py.strip body ≠ [] then body.rdropWhile (· = Py.newline) ++ [Py.newline] else body

/-- The lines that differ, and the lines that only one of the texts has. -/
def linesChanged (after before : Text) : Nat :=
  ((Py.splitLines after).zip (Py.splitLines before)).countP (fun lines => lines.1 ≠ lines.2)
    + Int.natAbs ((newlineCount after : Int) - newlineCount before)

/-- What `execute` ends in: an outcome or an exception. -/
abbrev Ended := Except Raised ExecOutcome

/-- A refusal of a task. -/
def refuse (task : ExecTask) (reason : Text) : Ended :=
  .ok { executed := false, action := task.action.value, path := task.relPath, refusedReason := reason }

/-- The text of an `OSError` in a reason. -/
def osText : FileTree.OsError → Text
  | .notFound => lit "[Errno 2] No such file or directory"
  | .isDirectory => lit "[Errno 21] Is a directory"
  | .notDirectory => lit "[Errno 20] Not a directory"

/-- The text that a note, a docs stub or a format task writes. -/
def plainText (task : ExecTask) (before : Text) : Text :=
  match task.action with
  | .format => stripLines before
  | .note => task.content
  | _ => before ++ [Py.newline] ++ task.content

namespace BoundedMutator

variable (m : BoundedMutator)

/-- `_py_parses`. -/
def pyParses (text path : Text) : Verdict :=
  match m.compile text (if path ≠ [] then path else lit "<source>") with
  | .code => .answer true
  | .syntaxError => .answer false
  | .valueError => .answer false
  | .raises => .raises

/-- `self.source_verifier or (lambda txt, p: _py_parses(txt, p))`. -/
def verify (text path : Text) : Verdict :=
  match m.sourceVerifier with
  | some verifier => verifier text path
  | none => m.pyParses text path

/-- The last checks before a write: something changes, and not too much of it. -/
def checkDiff (task : ExecTask) (before after : Text) : Except Ended (Text × Text) :=
  if after = before then .error (refuse task (lit "변경 없음 (no-op)"))
  else if (linesChanged after before : Int) > m.maxDiffLines then
    .error (refuse task
      (lit "diff " ++ number (linesChanged after before) ++ lit " > 한도 " ++ number m.maxDiffLines))
  else .ok (before, after)

/-- `execute` up to the write of a note, a docs stub or a format task. -/
def planPlain (t : Tree) (task : ExecTask) : Except Ended (Text × Text) :=
  if FileTree.pathExists t (m.target task) = false then m.checkDiff task [] (plainText task [])
  else match FileTree.readText t (m.target task) with
    | .ok before => m.checkDiff task before (plainText task before)
    | .error (.os _) => m.checkDiff task [] (plainText task [])
    | .error .value => .error (.error .value)

/-- `_execute_source_format` up to the write. -/
def planSource (t : Tree) (task : ExecTask) : Except Ended (Text × Text) :=
  if FileTree.pathExists t (m.target task) = false then
    .error (refuse task (lit "대상 source 파일 없음"))
  else match FileTree.readText t (m.target task) with
    | .error (.os e) => .error (refuse task (lit "read 실패: " ++ osText e))
    | .error .value => .error (.error .value)
    | .ok before =>
      match m.pyParses before (m.targetName task) with
      | .raises => .error (.error .value)
      | .osError => .error (.error .value)
      | .answer false => .error (refuse task (lit "대상이 이미 파싱 불가 — skip (건드리지 않음)"))
      | .answer true =>
        let after := whitespaceNormalize before
        if Py.nonspace after ≠ Py.nonspace before then
          .error (refuse task (lit "non-whitespace 변경 감지 — safe-class 아님 (approval 필요)"))
        else m.checkDiff task before after

/-- `execute` up to the write: how it ends before one, or the text before and after it. -/
def plan (t : Tree) (task : ExecTask) : Except Ended (Text × Text) :=
  if (m.validate task).1 = false then .error (refuse task (m.validate task).2)
  else match task.action with
    | .sourceFormat => m.planSource t task
    | _ => m.planPlain t task

/-! ## The write -/

/-- The outcome of a write that was read back. -/
def written (task : ExecTask) (before after : Text) (verified : Bool) (reason : Text) : Ended :=
  .ok {
    executed := verified
    action := task.action.value
    path := task.relPath
    linesChanged := linesChanged after before
    verified
    refusedReason := if verified = true then [] else reason }

/-- `execute` from the write of a note, a docs stub or a format task on. -/
def writePlain (t : Tree) (task : ExecTask) (before after : Text) : Ended × Tree :=
  match FileTree.makeDirs t (m.target task).dropLast with
  | .error (.os e) => (refuse task (lit "write 실패: " ++ osText e), t)
  | .error .value => (.error .value, t)
  | .ok t =>
    match FileTree.writeText t (m.target task) after with
    | (.error (.os e), t) => (refuse task (lit "write 실패: " ++ osText e), t)
    | (.error .value, t) => (.error .value, t)
    | (.ok (), t) =>
      let reason := lit "verify 실패 — 결과 불일치"
      match FileTree.readText t (m.target task) with
      | .ok reread => (written task before after (decide (reread = after)) reason, t)
      | .error (.os _) => (written task before after false reason, t)
      | .error .value => (.error .value, t)

/-- The file is put back and the task refused. -/
def rollBack (t : Tree) (task : ExecTask) (before after : Text) : Ended × Tree :=
  match FileTree.writeText t (m.target task) before with
  | (.error .value, t) => (.error .value, t)
  | (_, t) =>
    (written task before after false (lit "verify 실패 — rollback (원본 복원, 커밋 안 함)"), t)

/-- `_execute_source_format` from the write on. -/
def writeSource (t : Tree) (task : ExecTask) (before after : Text) : Ended × Tree :=
  match FileTree.writeText t (m.target task) after with
  | (.error (.os e), t) => (refuse task (lit "write 실패: " ++ osText e), t)
  | (.error .value, t) => (.error .value, t)
  | (.ok (), t) =>
    match FileTree.readText t (m.target task) with
    | .error .value => (.error .value, t)
    | .error (.os _) => m.rollBack t task before after
    | .ok reread =>
      if reread ≠ after then m.rollBack t task before after
      else match m.verify after (m.targetName task) with
        | .raises => (.error .value, t)
        | .osError => m.rollBack t task before after
        | .answer false => m.rollBack t task before after
        | .answer true => (written task before after true [], t)

/-- `execute`: how it ends, and the files after it. -/
def execute (t : Tree) (task : ExecTask) : Ended × Tree :=
  match m.plan t task with
  | .error ended => (ended, t)
  | .ok (before, after) =>
    match task.action with
    | .sourceFormat => m.writeSource t task before after
    | _ => m.writePlain t task before after

end BoundedMutator

end ForgeKit.Autopilot
