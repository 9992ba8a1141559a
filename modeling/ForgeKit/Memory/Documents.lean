import ForgeKit.Lib.Json

/-!
# The documents of the memory index (`models.py`, `indexer.py`)

A document is built from a markdown file, by its frontmatter, or from a workflow session, by its
research artifacts. Its `doc_id` is the source kind and the path relative to the base directory,
which falls back to the bare file name.
-/

namespace ForgeKit

namespace Memory

/-! ## Documents -/

/-- `MemoryDocument`. Times are stored as text. -/
structure MemoryDocument where
  docId : String
  sourceKind : String
  title : String
  body : String
  path : Option String := none
  role : Option String := none
  taskType : Option String := none
  noteKind : Option String := none
  tags : List String := []
  createdAt : Option String := none
  updatedAt : Option String := none
  extra : List (String × String) := []
deriving DecidableEq, Repr

/-- `SOURCE_WORKFLOW`. -/
def sourceWorkflow : String := "workflow"

/-! ## Texts -/

/-- `s.strip(chars)`. -/
def stripChars (chars : List Char) (s : String) : String :=
  String.ofList ((s.toList.dropWhile chars.contains).rdropWhile chars.contains)

/-- `value or None`. -/
def nonEmpty (s : String) : Option String := if s = "" then none else some s

/-- `[p.strip().strip("\"'") for p in text.split(",")]`, without the empty ones. -/
def commaParts (text : String) : List String :=
  ((text.toList.splitOn ',').map fun part =>
    stripChars "\"'".toList (PyText.strip (String.ofList part))).filter (· ≠ "")

/-- The texts that start at a line of a text. -/
def lineStarts : List Char → List (List Char)
  | [] => []
  | c :: cs => if c = '\n' then cs :: lineStarts cs else lineStarts cs

/-- The match of `key\s*:\s*(.*?)$` at the start of a text. -/
def keyValue (key line : List Char) : Option (List Char) :=
  if key.isPrefixOf line then
    match (line.drop key.length).dropWhile PyText.isSpace with
    | ':' :: rest => some ((rest.dropWhile PyText.isSpace).takeWhile (· ≠ '\n'))
    | _ => none
  else none

/-- `_frontmatter_value`. The blanks after the colon may span lines. -/
def frontmatterValue (frontmatter key : String) : Option String := do
  let starts := frontmatter.toList :: lineStarts frontmatter.toList
  let value ← starts.findSome? (keyValue key.toList)
  let raw := PyText.strip (String.ofList value)
  nonEmpty <|
    if PyText.startsWith raw "\"" ∧ raw.toList.getLast? = "\"".toList.head? ∧ 2 ≤ raw.length then
      String.ofList raw.toList.tail.dropLast
    else raw

/-- What stands before and after the first `\n---` of a text. -/
def untilFence : List Char → Option (List Char × List Char)
  | [] => none
  | c :: cs =>
    if "\n---".toList.isPrefixOf (c :: cs) then some ([], cs.drop 3)
    else (untilFence cs).map fun found => (c :: found.1, found.2)

/-- `_split_frontmatter`. -/
def splitFrontmatter (text : String) : String × String :=
  let cs := text.toList.dropWhile (· = '\uFEFF')
  if "---\n".toList.isPrefixOf cs then
    match untilFence (cs.drop 4) with
    | some (frontmatter, '\n' :: body) => (String.ofList frontmatter, String.ofList body)
    | some (frontmatter, body) => (String.ofList frontmatter, String.ofList body)
    | none => ("", String.ofList cs)
  else ("", String.ofList cs)

/-- `_first_role`. -/
def firstRole (value : Option String) : Option String :=
  value.bind fun value =>
    let cleaned := stripChars ['[', ']'] (PyText.strip value)
    (commaParts cleaned).head?

/-- `_split_yaml_list` of a text. -/
def splitYamlText (value : String) : List String :=
  if PyText.strip value = "" then [] else commaParts (stripChars ['[', ']'] (PyText.strip value))

/-- `_split_yaml_list`. -/
def splitYamlList : Json → List String
  | .null => []
  | .arr values => (values.map fun v => PyText.strip v.toStr).filter (· ≠ "")
  | value => splitYamlText value.toStr

/-- `_normalize_note_kind`. -/
def normalizeNoteKind (value : Option String) : Option String :=
  value.bind fun value =>
    let normalized := PyText.lower (PyText.strip value)
    if normalized ∈ ["decision", "decisions"] then some "decision"
    else if normalized ∈ ["reference", "references"] then some "reference"
    else if normalized ∈ ["research", "researches"] then some "research"
    else nonEmpty normalized

/-- `_normalize_role`. -/
def normalizeRole (value : Option String) : Option String :=
  value.bind fun value => nonEmpty (PyText.strip value)

/-- A character at which `splitlines` ends a line. -/
def isLineBreak (c : Char) : Bool :=
  let n := c.toNat
  (0x0A ≤ n && n ≤ 0x0D) || (0x1C ≤ n && n ≤ 0x1E) || n == 0x85 || n == 0x2028 || n == 0x2029

/-- `_first_heading`. -/
def firstHeading (body : String) : Option String :=
  (body.toList.splitOnP isLineBreak).findSome? fun line =>
    let stripped := PyText.strip (String.ofList line)
    if PyText.startsWith stripped "# " then
      some (PyText.strip (String.ofList (stripped.toList.drop 2)))
    else none

/-! ## Markdown files -/

/-- A path by its components. -/
abbrev PathParts := List String

/-- A markdown file as the indexer sees it. -/
structure MarkdownFile where
  path : PathParts
  /-- `path.resolve()`. -/
  resolved : PathParts
  /-- What `read_text` returns; `none` is the `OSError`. -/
  text : Option String
  /-- `_mtime_to_datetime`, as it is stored. -/
  mtime : Option String := none

/-- `path.name`. -/
def pathName (path : PathParts) : String := path.getLast?.getD ""

/-- `path.stem`. -/
def pathStem (path : PathParts) : String :=
  let name := (pathName path).toList
  let stem := (name.rdropWhile (· ≠ '.')).dropLast
  if stem ≠ [] ∧ name.getLast? ≠ some '.' then String.ofList stem else pathName path

/-- `_relative_path`. -/
def relativePath (file : MarkdownFile) (baseDir : Option PathParts) : PathParts :=
  match baseDir with
  | none => [pathName file.path]
  | some base =>
    if base.isPrefixOf file.resolved then file.resolved.drop base.length
    else [pathName file.path]

/-- `str(path)` of a relative path. -/
def pathStr (path : PathParts) : String := if path = [] then "." else "/".intercalate path

/-- The frontmatter keys that are copied to `extra`. -/
def extraMarkers : List String :=
  ["canonical", "reusable", "status", "topic", "agent", "obsidian_lane", "color_token",
   "write_owner"]

/-- `_document_from_markdown_file`; `parseIso` is `_parse_iso_datetime`, as its result is stored. -/
def documentFromMarkdownFile (parseIso : String → Option String) (file : MarkdownFile)
    (sourceKind : String) (baseDir : Option PathParts) : Option MemoryDocument := do
  let text ← file.text
  let (frontmatter, body) := splitFrontmatter text
  let value := frontmatterValue frontmatter
  let stem := pathStem file.path
  let title := ((value "title").or (firstHeading body)).getD stem
  let relative := pathStr (relativePath file baseDir)
  return {
    docId := sourceKind ++ ":" ++ relative
    sourceKind := sourceKind
    title := (nonEmpty (PyText.strip title)).getD stem
    body := PyText.strip body
    path := some relative
    role := (normalizeRole (firstRole (value "roles"))).or (normalizeRole (value "role"))
    taskType := value "task_type"
    noteKind := normalizeNoteKind (value "kind")
    tags := ((value "tags").map splitYamlText).getD []
    createdAt := (value "created_at").bind parseIso
    updatedAt := file.mtime
    extra := extraMarkers.filterMap fun marker => (value marker).map fun v => (marker, v) }

/-! ## Workflow sessions -/

/-- What the indexer reads of a session. -/
structure WorkflowSession where
  sessionId : String
  prompt : String
  taskType : Option String
  executorRole : Option String
  extra : Dict Json
  createdAt : Option String
  updatedAt : Option String

/-- `"\n".join(f"- {x}" for x in items)`. -/
def bulletLines (items : List Json) : String := "\n".intercalate (items.map fun v => "- " ++ v.toStr)

/-- The line of a source of a research pack. -/
def sourceLine : Json → Option String
  | .obj source =>
    let parts := ["author_role", "title", "source_url"].map (Dict.getJson source)
    nonEmpty (" · ".intercalate ((parts.filter Json.truthy).map Json.toStr))
  | _ => none

/-- What a research pack adds to the body; `none` is a `TypeError`. -/
def packChunks (pack : Dict Json) : Option (List String) := do
  let urls ← (pack.getJson "urls").items?
  let sources ← (pack.getJson "sources").items?
  return (if (pack.getJson "summary").truthy then [(pack.getJson "summary").toStr] else [])
    ++ (if urls.isEmpty then [] else ["URLs:\n" ++ bulletLines urls])
    ++ sources.filterMap sourceLine

/-- A section of a synthesis; `none` is a `TypeError`. -/
def synthesisSection (synthesis : Dict Json) (label key : String) : Option (List String) := do
  let items ← (synthesis.getJson key).items?
  return if items.isEmpty then [] else [label ++ "\n" ++ bulletLines items]

/-- What a synthesis adds to the body; `none` is a `TypeError`. -/
def synthesisChunks (synthesis : Dict Json) : Option (List String) := do
  let todos ← synthesisSection synthesis "## 해야 할 일" "todos"
  let research ← synthesisSection synthesis "## 더 조사할 것" "open_research"
  let decisions ← synthesisSection synthesis "## 사용자 결정 필요" "user_decisions_needed"
  let consensus := synthesis.getJson "consensus"
  return (if consensus.truthy then ["## 합의안\n" ++ consensus.toStr] else [])
    ++ todos ++ research ++ decisions

/-- The title of a session's document. -/
def sessionTitle (session : WorkflowSession) : String :=
  let packTitle :=
    match session.extra.getJson "research_pack" with
    | .obj pack =>
      let title := Dict.getJson pack "title"
      if title.truthy then title.toStr else ""
    | _ => ""
  if packTitle ≠ "" then packTitle
  else if session.prompt ≠ "" then session.prompt
  else "session " ++ session.sessionId

/-- `_document_from_workflow_session`; the error is a `TypeError`. -/
def documentFromWorkflowSession (session : WorkflowSession) :
    Except Unit (Option MemoryDocument) :=
  let pack := session.extra.getJson "research_pack"
  let synthesis := session.extra.getJson "research_synthesis"
  let synthesisText := session.extra.getJson "research_synthesis_text"
  if !pack.truthy && !synthesis.truthy && !synthesisText.truthy then .ok none
  else
    let packPart := match pack with
      | .obj pack => packChunks pack
      | _ => some []
    let synthesisPart := match synthesis, synthesisText with
      | .obj synthesis, _ => synthesisChunks synthesis
      | _, .str text => some (if text = "" then [] else [text])
      | _, _ => some []
    match packPart, synthesisPart with
    | some packPart, some synthesisPart =>
      .ok (some {
        docId := sourceWorkflow ++ ":" ++ session.sessionId
        sourceKind := sourceWorkflow
        title := sessionTitle session
        body := PyText.strip ("\n\n".intercalate (packPart ++ synthesisPart))
        path := none
        role := session.executorRole
        taskType := session.taskType
        noteKind := some (if synthesis.truthy then "decision" else "research")
        tags := match pack with
          | .obj pack => splitYamlList (Dict.getJson pack "tags")
          | _ => []
        createdAt := session.createdAt
        updatedAt := session.updatedAt
        extra := [("session_id", session.sessionId)] })
    | _, _ => .error ()

end Memory

end ForgeKit
