import ForgeKit.Goals.Models
import ForgeKit.Lib.JsonIndent
import ForgeKit.Lib.JsonRead

/-!
# Goals in files (`forgekit_goal.store`, `models`)

One JSON file per goal. The name of the file is made from the id without the white space around it;
the id in the file is the id as it is.

* `Goal.toDict`, `Goal.fromDict` — the codec, with `fromDict_toDict`
* `GoalDir.save`, `load`, `loadAll`, `delete` — the store
* `readGoal_goalBytes` — a file that was saved is read back
-/

namespace ForgeKit.Goals

open Py (Text lit)
open JsonText

/-! ## Texts -/

/-- A text as a `String`, which holds no half of a surrogate pair. -/
def toString? (t : Text) : Option String := (t.mapM Py.toChar?).map String.ofList

theorem toString?_lit (s : String) : toString? (lit s) = some s := by
  rw [toString?, lit, Py.mapM_toChar?_ofChar, Option.map_some, String.ofList_toList]

theorem encodable_lit (s : String) : Encodable (lit s) := by
  intro c hc
  obtain ⟨a, -, rfl⟩ := List.mem_map.mp hc
  rw [Py.isSurrogate, Py.toChar?_ofChar]
  rfl

/-! ## Tags -/

/-- The text of a tag. -/
def EvidenceKind.tag : EvidenceKind → String
  | .proposal => "proposal"
  | .execution => "execution"
  | .verification => "verification"
  | .decision => "decision"
  | .plan => "plan"
  | .replan => "replan"
  | .blocked => "blocked"
  | .governance => "governance"
  | .other tag => tag

/-- The tag with this text. -/
def EvidenceKind.ofTag (tag : String) : EvidenceKind :=
  if tag = "proposal" then .proposal
  else if tag = "execution" then .execution
  else if tag = "verification" then .verification
  else if tag = "decision" then .decision
  else if tag = "plan" then .plan
  else if tag = "replan" then .replan
  else if tag = "blocked" then .blocked
  else if tag = "governance" then .governance
  else .other tag

/-- No tag with a name of its own is written as an `other`. -/
def Goal.Tagged (g : Goal) : Prop := ∀ e ∈ g.evidence, EvidenceKind.ofTag e.kind.tag = e.kind

instance (g : Goal) : Decidable g.Tagged := inferInstanceAs (Decidable (∀ e ∈ g.evidence, _))

/-- `GoalStatus(value)`; `none` is the `ValueError`. -/
def GoalStatus.ofValue? (value : String) : Option GoalStatus :=
  [draft, active, blocked, awaitingApproval, done, abandoned].find? fun st => st.value = value

theorem GoalStatus.ofValue?_value (st : GoalStatus) : ofValue? st.value = some st := by
  cases st <;> decide

/-! ## The codec -/

/-- `EvidenceRecord.to_dict`. -/
def EvidenceRecord.toDict (e : EvidenceRecord) : JsonDict :=
  match e.ref with
  | none =>
    { members := [(lit "ts", .str (lit e.ts)), (lit "kind", .str (lit e.kind.tag)),
        (lit "summary", .str (lit e.summary))]
      valid := ⟨by simp only [List.map_cons, List.map_nil]; decide, trivial, trivial, trivial,
        trivial⟩ }
  | some ref =>
    { members := [(lit "ts", .str (lit e.ts)), (lit "kind", .str (lit e.kind.tag)),
        (lit "summary", .str (lit e.summary)), (lit "ref", .str (lit ref))]
      valid := ⟨by simp only [List.map_cons, List.map_nil]; decide, trivial, trivial, trivial,
        trivial, trivial⟩ }

/-- `str(raw[key])`. -/
def stringAt (py : Conversions) (raw : List (Text × Value)) (key : Text) : Option String :=
  (strAt py raw key).bind toString?

/-- `str(raw.get(key, default))`. -/
def stringOr (py : Conversions) (raw : List (Text × Value)) (key : Text) (default : String) :
    Option String := toString? (py.strOf (getOr raw key (lit default)))

/-- `str(raw[key]) if raw.get(key) is not None else None`. -/
def stringOpt (py : Conversions) (raw : List (Text × Value)) (key : Text) :
    Option (Option String) :=
  match optStr py raw key with
  | none => some none
  | some t => (toString? t).map some

/-- `tuple(str(x) for x in raw.get(key, ()))`. -/
def stringsAt (py : Conversions) (raw : List (Text × Value)) (key : Text) : Option (List String) :=
  (textsAt py raw key).bind (·.mapM toString?)

/-- `EvidenceRecord.from_dict`. -/
def EvidenceRecord.fromDict (py : Conversions) (raw : List (Text × Value)) :
    Option EvidenceRecord := do
  let ts ← stringAt py raw (lit "ts")
  let kind ← stringAt py raw (lit "kind")
  let summary ← stringAt py raw (lit "summary")
  let ref ← stringOpt py raw (lit "ref")
  some ⟨ts, .ofTag kind, summary, ref⟩

/-- `SCHEMA_VERSION`. -/
def schemaVersion : Int := 1

/-- `Goal.to_dict`. -/
def Goal.toDict (g : Goal) : JsonDict where
  members :=
    [(lit "schema_version", ofInt schemaVersion), (lit "id", .str (lit g.id)),
      (lit "title", .str (lit g.title)), (lit "intent", .str (lit g.intent)),
      (lit "status", .str (lit g.status.value)), (lit "mode", ofText? (g.mode.map lit)),
      (lit "parent_id", ofText? (g.parentId.map lit)),
      (lit "children", ofTexts (g.children.map lit)), (lit "packets", ofTexts (g.packets.map lit)),
      (lit "evidence", ofDicts (g.evidence.map EvidenceRecord.toDict)),
      (lit "created_at", .str (lit g.createdAt)), (lit "updated_at", .str (lit g.updatedAt))]
  valid := ⟨by simp only [List.map_cons, List.map_nil]; decide, trivial, trivial, trivial, trivial,
    trivial, valid_ofText? _, valid_ofText? _, valid_ofTexts _, valid_ofTexts _, valid_ofDicts _,
    trivial, trivial, trivial⟩

/-- `Goal.from_dict`; `none` is an error of any kind. -/
def Goal.fromDict (py : Conversions) (raw : List (Text × Value)) : Option Goal := do
  let version ← py.intOf ((raw.lookup (lit "schema_version")).getD (ofInt 1))
  if schemaVersion < version then none
  else
    let id ← stringAt py raw (lit "id")
    let title ← stringAt py raw (lit "title")
    let intent ← stringOr py raw (lit "intent") ""
    let status ← (stringOr py raw (lit "status") "draft").bind GoalStatus.ofValue?
    let mode ← stringOpt py raw (lit "mode")
    let parentId ← stringOpt py raw (lit "parent_id")
    let children ← stringsAt py raw (lit "children")
    let packets ← stringsAt py raw (lit "packets")
    let evidence ← (items ((raw.lookup (lit "evidence")).getD (.arr []))).bind
      (·.mapM fun v => v.dict?.bind (EvidenceRecord.fromDict py))
    let createdAt ← stringOr py raw (lit "created_at") ""
    let updatedAt ← stringOr py raw (lit "updated_at") ""
    some { id, title, intent, status, mode, parentId, children, packets, evidence, createdAt,
           updatedAt }

/-! ## What is written is read back -/

section

variable (py : Conversions) {d : JsonDict} {k : Text}

theorem intOf_ofInt (n : Int) : py.intOf (ofInt n) = some n := by
  show (Number.ofInt n).toInt?.or (py.int (ofInt n)) = some n
  rw [toInt?_ofInt, Option.some_or]

theorem stringAt_sorted {s : String} (h : d.members.lookup k = some (.str (lit s))) :
    stringAt py d.sorted.members k = some s := by
  rw [stringAt, strAt_sorted py h, Option.bind_some, toString?_lit]

theorem stringOr_sorted {s : String} (default : String)
    (h : d.members.lookup k = some (.str (lit s))) :
    stringOr py d.sorted.members k default = some s := by
  rw [stringOr, getOr, lookup_sorted_of h]
  exact toString?_lit s

theorem stringOpt_sorted {o : Option String} (h : d.members.lookup k = some (ofText? (o.map lit))) :
    stringOpt py d.sorted.members k = some o := by
  rw [stringOpt, optStr_sorted py h]
  cases o with
  | none => rfl
  | some s => exact congrArg (Option.map some) (toString?_lit s)

theorem stringsAt_sorted {l : List String} (h : d.members.lookup k = some (ofTexts (l.map lit))) :
    stringsAt py d.sorted.members k = some l := by
  rw [stringsAt, textsAt_sorted py h, Option.bind_some]
  have hread : (l.map lit).mapM toString? = some (l.map id) :=
    mapM_map_of_forall fun s _ => toString?_lit s
  rwa [List.map_id] at hread

end

theorem EvidenceRecord.fromDict_toDict (py : Conversions) {e : EvidenceRecord}
    (h : EvidenceKind.ofTag e.kind.tag = e.kind) :
    fromDict py e.toDict.sorted.members = some e := by
  obtain ⟨ts, kind, summary, ref⟩ := e
  cases ref with
  | none =>
    have href : stringOpt py (EvidenceRecord.mk ts kind summary none).toDict.sorted.members
        (lit "ref") = some none := by
      rw [stringOpt, optStr, JsonText.get, JsonDict.lookup_sorted]
      rfl
    rw [fromDict, stringAt_sorted (s := ts) py rfl, stringAt_sorted (s := kind.tag) py rfl,
      stringAt_sorted (s := summary) py rfl, href]
    show some (EvidenceRecord.mk ts (.ofTag kind.tag) summary none) = _
    rw [h]
  | some ref =>
    rw [fromDict, stringAt_sorted (s := ts) py rfl, stringAt_sorted (s := kind.tag) py rfl,
      stringAt_sorted (s := summary) py rfl, stringOpt_sorted (o := some ref) py rfl]
    show some (EvidenceRecord.mk ts (.ofTag kind.tag) summary (some ref)) = _
    rw [h]

/-- **A goal is read back from its dict**, field by field. -/
theorem Goal.fromDict_toDict (py : Conversions) {g : Goal} (h : g.Tagged) :
    fromDict py g.toDict.sorted.members = some g := by
  have hversion : py.intOf ((g.toDict.sorted.members.lookup (lit "schema_version")).getD (ofInt 1))
      = some schemaVersion := by
    rw [lookup_sorted_of (v := ofInt schemaVersion) rfl]
    exact intOf_ofInt py schemaVersion
  have hevidence : (items ((g.toDict.sorted.members.lookup (lit "evidence")).getD (.arr []))).bind
      (·.mapM fun v => v.dict?.bind (EvidenceRecord.fromDict py)) = some g.evidence := by
    rw [lookup_sorted_of (v := ofDicts (g.evidence.map EvidenceRecord.toDict)) rfl, sortKeys_ofDicts,
      List.map_map]
    show List.mapM _ ((g.evidence.map _).map fun d : JsonDict => Value.obj d.members) = _
    rw [List.map_map]
    have hread : (g.evidence.map fun e => Value.obj e.toDict.sorted.members).mapM
        (fun v => v.dict?.bind (EvidenceRecord.fromDict py)) = some (g.evidence.map fun e => e) :=
      mapM_map_of_forall fun e he => EvidenceRecord.fromDict_toDict py (h e he)
    rwa [List.map_id'] at hread
  have hstatus : (stringOr py g.toDict.sorted.members (lit "status") "draft").bind
      GoalStatus.ofValue? = some g.status := by
    rw [stringOr_sorted (s := g.status.value) py _ rfl, Option.bind_some,
      GoalStatus.ofValue?_value]
  rw [fromDict, hversion, hevidence, hstatus, stringAt_sorted (s := g.id) py rfl,
    stringAt_sorted (s := g.title) py rfl, stringOr_sorted (s := g.intent) py _ rfl,
    stringOpt_sorted (o := g.mode) py rfl, stringOpt_sorted (o := g.parentId) py rfl,
    stringsAt_sorted (l := g.children) py rfl, stringsAt_sorted (l := g.packets) py rfl,
    stringOr_sorted (s := g.createdAt) py _ rfl, stringOr_sorted (s := g.updatedAt) py _ rfl]
  rfl

/-! ## The texts of a goal -/

/-- The keys and the texts of a value are written from strings. -/
def LitValue (v : Value) : Prop := ∀ t ∈ v.texts, ∃ s, t = lit s

theorem litValue_str (s : String) : LitValue (.str (lit s)) :=
  fun _ ht => ⟨s, List.mem_singleton.mp ht⟩

theorem litValue_ofText? (o : Option String) : LitValue (ofText? (o.map lit)) := by
  cases o with
  | none => exact fun _ ht => absurd ht List.not_mem_nil
  | some s => exact litValue_str s

theorem litValue_arr {vs : List Value} (h : ∀ v ∈ vs, LitValue v) : LitValue (.arr vs) := by
  intro t ht
  induction vs with
  | nil => exact absurd ht List.not_mem_nil
  | cons v vs ih =>
    rcases List.mem_append.mp ht with ht | ht
    · exact h v List.mem_cons_self t ht
    · exact ih (fun w hw => h w (List.mem_cons_of_mem _ hw)) ht

theorem litValue_ofTexts (l : List String) : LitValue (ofTexts (l.map lit)) := by
  refine litValue_arr fun v hv => ?_
  rw [List.map_map] at hv
  obtain ⟨s, -, rfl⟩ := List.mem_map.mp hv
  exact litValue_str s

theorem litValue_obj {d : List (Text × Value)}
    (h : ∀ m ∈ d, (∃ s, m.1 = lit s) ∧ LitValue m.2) : LitValue (.obj d) := by
  intro t ht
  rw [Value.texts, memberTexts_eq_flatMap] at ht
  obtain ⟨m, hm, ht⟩ := List.mem_flatMap.mp ht
  obtain ⟨hkey, hvalue⟩ := h m hm
  rcases List.mem_cons.mp ht with rfl | ht
  · exact hkey
  · exact hvalue t ht

theorem EvidenceRecord.litValue (e : EvidenceRecord) : LitValue (.obj e.toDict.members) := by
  refine litValue_obj ?_
  obtain ⟨ts, kind, summary, ref⟩ := e
  cases ref with
  | none =>
    simp only [toDict, List.forall_mem_cons]
    exact ⟨⟨⟨_, rfl⟩, litValue_str _⟩, ⟨⟨_, rfl⟩, litValue_str _⟩, ⟨⟨_, rfl⟩, litValue_str _⟩,
      fun _ h => absurd h List.not_mem_nil⟩
  | some ref =>
    simp only [toDict, List.forall_mem_cons]
    exact ⟨⟨⟨_, rfl⟩, litValue_str _⟩, ⟨⟨_, rfl⟩, litValue_str _⟩, ⟨⟨_, rfl⟩, litValue_str _⟩,
      ⟨⟨_, rfl⟩, litValue_str _⟩, fun _ h => absurd h List.not_mem_nil⟩

theorem Goal.litValue (g : Goal) : LitValue (.obj g.toDict.members) := by
  refine litValue_obj ?_
  have hevidence : LitValue (ofDicts (g.evidence.map EvidenceRecord.toDict)) := by
    refine litValue_arr fun v hv => ?_
    rw [List.map_map] at hv
    obtain ⟨e, -, rfl⟩ := List.mem_map.mp hv
    exact e.litValue
  simp only [toDict, List.forall_mem_cons]
  exact ⟨⟨⟨_, rfl⟩, fun _ h => absurd h List.not_mem_nil⟩, ⟨⟨_, rfl⟩, litValue_str _⟩,
    ⟨⟨_, rfl⟩, litValue_str _⟩, ⟨⟨_, rfl⟩, litValue_str _⟩, ⟨⟨_, rfl⟩, litValue_str _⟩,
    ⟨⟨_, rfl⟩, litValue_ofText? _⟩, ⟨⟨_, rfl⟩, litValue_ofText? _⟩,
    ⟨⟨_, rfl⟩, litValue_ofTexts _⟩, ⟨⟨_, rfl⟩, litValue_ofTexts _⟩, ⟨⟨_, rfl⟩, hevidence⟩,
    ⟨⟨_, rfl⟩, litValue_str _⟩, ⟨⟨_, rfl⟩, litValue_str _⟩, fun _ h => absurd h List.not_mem_nil⟩

/-! ## The files -/

/-- A file in the directory of the store. -/
structure GoalFile where
  name : String
  bytes : ByteArray

/-- The files of the directory. -/
abbrev GoalDir := Table String GoalFile GoalFile.name

/-- `_path`, as the name in the directory; `none` is the `ValueError`. -/
def fileName (goalId : String) : Option String :=
  let goalId := PyText.strip goalId
  if goalId = "" ∨ '/' ∈ goalId.toList ∨ goalId = "." ∨ goalId = ".." then none
  else some (goalId ++ ".json")

/-- What is written for a goal. -/
def goalBytes (g : Goal) : Option ByteArray :=
  Py.encode (dumpsLines 2 (Value.obj g.toDict.members).sortKeys)

/-- `Goal.from_dict(json.loads(path.read_text()))`. -/
def readGoal (py : Conversions) (bytes : ByteArray) : Option Goal := do
  let t ← Py.readText bytes
  let v ← loads t
  let raw ← v.dict?
  Goal.fromDict py raw

/-- A goal always has bytes. -/
theorem goalBytes_isSome (g : Goal) : (goalBytes g).isSome = true := by
  refine Py.encode_isSome_iff.mpr (encodable_dumpsLines fun t ht => ?_)
  obtain ⟨s, rfl⟩ := g.litValue t ((Value.texts_sortKeys_perm _).mem_iff.mp ht)
  exact encodable_lit s

/-- **A goal that was written is read back.** -/
theorem readGoal_goalBytes (py : Conversions) {g : Goal} (h : g.Tagged) {bytes : ByteArray}
    (hbytes : goalBytes g = some bytes) : readGoal py bytes = some g := by
  have htext : Py.readText bytes = some (dumpsLines 2 (Value.obj g.toDict.members).sortKeys) := by
    rw [Py.readText_encode hbytes, Py.universalNewlines_eq_self_iff.mpr]
    exact carriageReturn_notMem_dumpsLines 2 _
  have hloads : loads (dumpsLines 2 (Value.obj g.toDict.members).sortKeys)
      = some (.obj g.toDict.sorted.members) := loads_dumpsLines 2 g.toDict.sorted.valid
  simp only [readGoal, htext, hloads, Option.bind_eq_bind, Option.bind_some, Value.dict?,
    Goal.fromDict_toDict py h]

/-- How `load` raises. -/
inductive LoadError where
  | unsafeId
  | keyError
  | badFile
deriving DecidableEq, Repr

namespace GoalDir

variable (py : Conversions)

/-- `GoalStore.save`: the temporary file is gone when the call returns. -/
def save (files : GoalDir) (g : Goal) : Option GoalDir := do
  let name ← fileName g.id
  let bytes ← goalBytes g
  some (files.upsert ⟨name, bytes⟩)

/-- `GoalStore.load`. -/
def load (files : GoalDir) (goalId : String) : Except LoadError Goal :=
  match fileName goalId with
  | none => .error .unsafeId
  | some name =>
    match files.find? name with
    | none => .error .keyError
    | some f =>
      match readGoal py f.bytes with
      | none => .error .badFile
      | some g => .ok g

/-- `path.name.startswith(".")` is false, and the name is one of `glob("*.json")`. -/
def isListed (name : String) : Bool :=
  ".json".toList.isSuffixOf name.toList && !PyText.startsWith name "."

/-- `GoalStore.load_all`; `none` is an error of any kind. -/
def loadAll (files : GoalDir) : Option (List Goal) := do
  let paths := (files.rows.filter fun f => isListed f.name).insertionSort fun f h => f.name ≤ h.name
  let goals ← paths.mapM fun f => readGoal py f.bytes
  some (goals.insertionSort fun g h => h.updatedAt ≤ g.updatedAt)

/-- `GoalStore.delete`. -/
def delete (files : GoalDir) (goalId : String) : Option (GoalDir × Bool) := do
  let name ← fileName goalId
  some (files.filterRows fun f => f.name ≠ name, (files.find? name).isSome)

end GoalDir

end ForgeKit.Goals
