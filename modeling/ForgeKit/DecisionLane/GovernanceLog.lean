import ForgeKit.Lib.JsonLines

/-!
# The governance log (`decision_lane/decision_log`)

Each session has a file of events, one JSON document on each line. The name of the file is made of
the session id, and two ids may have one file. A file is read back with `str.splitlines`, and no
event is told apart by its session id.

* `replay_eq_foldlM` — a replay reads the events of the file one by one
* `replay_exact_iff` — when a replay is exactly what was recorded for its session
-/

namespace ForgeKit.DecisionLane

open Py (Text CodePoint)
open JsonText (Value Document JsonDict Number docs docOf isLineBreak dumps)

/-! ## Events -/

/-- `EVENT_KINDS`. -/
def eventKinds : List Text :=
  [Py.lit "brief", Py.lit "consult", Py.lit "gateway", Py.lit "meeting", Py.lit "decision",
    Py.lit "approval", Py.lit "handoff", Py.lit "execution", Py.lit "adoption", Py.lit "merge"]

/-- `GovernanceEvent`. -/
structure GovernanceEvent where
  sessionId : Text
  kind : Text
  actor : Text := []
  summary : Text := []
  valid : Bool := true
  ref : Text := []
  payload : JsonDict := .empty
  seq : Int := 0
  atTime : Text := []

/--
What Python does and is not carried over: `c.isalnum()` of a code point, and `str(v)` and `bool(v)`
of a JSON value that is no text and no boolean.
-/
structure Builtins where
  isAlnum : CodePoint → Bool
  str : Value → Text
  bool : Value → Bool

/-- `str(v)`. -/
def Builtins.strOf (py : Builtins) : Value → Text
  | .str t => t
  | v => py.str v

/-- `bool(v)`. -/
def Builtins.boolOf (py : Builtins) : Value → Bool
  | .bool b => b
  | v => py.bool v

def GovernanceEvent.members (ev : GovernanceEvent) : List (Text × Value) :=
  [(Py.lit "session_id", .str ev.sessionId), (Py.lit "kind", .str ev.kind),
    (Py.lit "actor", .str ev.actor), (Py.lit "summary", .str ev.summary),
    (Py.lit "valid", .bool ev.valid), (Py.lit "ref", .str ev.ref),
    (Py.lit "payload", .obj ev.payload.members), (Py.lit "seq", .num (.ofInt ev.seq)),
    (Py.lit "at", .str ev.atTime)]

def eventKeys : List Text :=
  [Py.lit "session_id", Py.lit "kind", Py.lit "actor", Py.lit "summary", Py.lit "valid",
    Py.lit "ref", Py.lit "payload", Py.lit "seq", Py.lit "at"]

theorem GovernanceEvent.keys_members (ev : GovernanceEvent) :
    ev.members.map Prod.fst = eventKeys := rfl

/-- `GovernanceEvent.to_dict`. -/
def GovernanceEvent.toDict (ev : GovernanceEvent) : JsonDict where
  members := ev.members
  valid := ⟨by rw [keys_members]; decide, trivial, trivial, trivial, trivial, trivial, trivial,
    ev.payload.valid, trivial, trivial, trivial⟩

/-- `str(d.get(k, ""))`. -/
def textAt (py : Builtins) (d : JsonDict) (k : Text) : Text :=
  match d.get? k with
  | some v => py.strOf v.1
  | none => []

/-- `GovernanceEvent.from_dict`. -/
def GovernanceEvent.fromDict (py : Builtins) (d : JsonDict) (seq : Int) : GovernanceEvent where
  sessionId := textAt py d (Py.lit "session_id")
  kind := textAt py d (Py.lit "kind")
  actor := textAt py d (Py.lit "actor")
  summary := textAt py d (Py.lit "summary")
  valid := match d.get? (Py.lit "valid") with
    | some v => py.boolOf v.1
    | none => true
  ref := textAt py d (Py.lit "ref")
  payload := ((d.get? (Py.lit "payload")).bind Document.dict?).getD .empty
  seq := seq
  atTime := textAt py d (Py.lit "at")

/-! ## Files -/

/-- `_safe_session`. -/
def safeSession (py : Builtins) (sessionId : Text) : Text :=
  let s := (Py.strip sessionId).map fun c =>
    if py.isAlnum c || c ∈ Py.lit "-_" then c else Py.ofChar '-'
  if s = [] then Py.lit "session" else s

/-- The name of the file that `governance_log_path` leads to. -/
def logName (py : Builtins) (sessionId : Text) : Text :=
  safeSession py sessionId ++ Py.lit ".jsonl"

/-- The files of the governance directory, by name. -/
abbrev LogFiles := Text → Option ByteArray

/-- The `ValueError`s of `record_governance_event`. -/
inductive Refused where
  | unknownKind
  | unencodable
deriving DecidableEq, Repr

/-- The line of an event, without its newline. -/
def GovernanceEvent.line (ev : GovernanceEvent) : Text := dumps (.obj ev.members)

/-- `record_governance_event`, when the disk takes what is written. -/
def recordGovernanceEvent (py : Builtins) (files : LogFiles) (ev : GovernanceEvent) :
    Except Refused LogFiles :=
  if ev.kind ∉ eventKinds then .error .unknownKind
  else match Py.encode (ev.line ++ [Py.newline]) with
    | none => .error .unencodable
    | some b =>
      let name := logName py ev.sessionId
      .ok fun n => if n = name then some ((files name).getD .empty ++ b) else files n

/-- One line of `replay_governance_log`; `none` is the `AttributeError` of a document that is no
`dict`. -/
def replayLine (py : Builtins) (events : List GovernanceEvent) (ln : Text) :
    Option (List GovernanceEvent) :=
  let ln := Py.strip ln
  if ln = [] then some events
  else match JsonText.loadsDocument ln with
    | none => some events
    | some v => v.dict?.map fun d => events ++ [.fromDict py d events.length]

/-- `replay_governance_log`; `none` is an exception that the replay ends with. -/
def replayGovernanceLog (py : Builtins) (files : LogFiles) (sessionId : Text) :
    Option (List GovernanceEvent) :=
  match files (logName py sessionId) with
  | none => some []
  | some b =>
    match Py.readText b with
    | none => none
    | some raw => (JsonText.splitlines raw).foldlM (replayLine py) []

/-- A sequence of records, from an empty directory. -/
def recordAll (py : Builtins) : LogFiles → List GovernanceEvent → Except Refused LogFiles
  | files, [] => .ok files
  | files, ev :: evs => do
    let files ← recordGovernanceEvent py files ev
    recordAll py files evs

def noFiles : LogFiles := fun _ => none

/-! ## A replay, event by event -/

theorem textAt_of_lookup (py : Builtins) {d : JsonDict} {k t : Text}
    (h : d.members.lookup k = some (.str t)) : textAt py d k = t := by
  have hget : d.get? k = some ⟨.str t, trivial⟩ := JsonDict.get?_eq_some_iff.mpr h
  rw [textAt, hget]
  rfl

/-- **An event is read back as it was written**, but for its number. -/
theorem fromDict_toDict (py : Builtins) (ev : GovernanceEvent) (seq : Int) :
    GovernanceEvent.fromDict py ev.toDict seq = { ev with seq := seq } := by
  have hvalid : ev.toDict.get? (Py.lit "valid") = some ⟨.bool ev.valid, trivial⟩ :=
    JsonDict.get?_eq_some_iff.mpr rfl
  have hpayload : ev.toDict.get? (Py.lit "payload")
      = some ⟨.obj ev.payload.members, ev.payload.valid⟩ := JsonDict.get?_eq_some_iff.mpr rfl
  have htext : ∀ k t, ev.members.lookup k = some (.str t) → textAt py ev.toDict k = t :=
    fun _ _ h => textAt_of_lookup py h
  rw [GovernanceEvent.fromDict, hvalid, hpayload, htext _ ev.sessionId rfl, htext _ ev.kind rfl,
    htext _ ev.actor rfl, htext _ ev.summary rfl, htext _ ev.ref rfl, htext _ ev.atTime rfl]
  rfl

/-- A document is added to what was read before. -/
def addDocument (py : Builtins) (events : List GovernanceEvent) (v : Document) :
    Option (List GovernanceEvent) :=
  v.dict?.map fun d => events ++ [.fromDict py d events.length]

theorem replayLine_eq (py : Builtins) (events : List GovernanceEvent) (ln : Text) :
    replayLine py events ln = match docOf ln with
      | some v => addDocument py events v
      | none => some events := by
  unfold replayLine docOf addDocument
  simp only
  split
  · next h => rw [h]; rfl
  · cases JsonText.loadsDocument (Py.strip ln) <;> rfl

/-- The events of a file, as they stand in it. -/
def logText (evs : List GovernanceEvent) : Text := evs.flatMap fun ev => ev.line ++ [Py.newline]

theorem carriageReturn_notMem_logText (evs : List GovernanceEvent) :
    Py.carriageReturn ∉ logText evs := by
  intro h
  obtain ⟨ev, -, h⟩ := List.mem_flatMap.mp h
  rcases List.mem_append.mp h with h | h
  · exact absurd (JsonText.val_of_mem_dumps h) (by decide)
  · exact absurd (List.mem_singleton.mp h) (by decide)

/-- The bytes of a file; a file that is not there has none. -/
def bytesOf (files : LogFiles) (name : Text) : ByteArray := (files name).getD .empty

theorem replay_of_encode {py : Builtins} {files : LogFiles} {sessionId : Text}
    {evs : List GovernanceEvent}
    (h : Py.encode (logText evs) = some (bytesOf files (logName py sessionId))) :
    replayGovernanceLog py files sessionId
      = (evs.flatMap fun ev => docs ev.line).foldlM (addDocument py) [] := by
  have hread : Py.readText (bytesOf files (logName py sessionId)) = some (logText evs) := by
    rw [Py.readText_encode h,
      Py.universalNewlines_eq_self_iff.mpr (carriageReturn_notMem_logText evs)]
  have hdocs : (JsonText.splitlines (logText evs)).foldlM (replayLine py) []
      = (evs.flatMap fun ev => docs ev.line).foldlM (addDocument py) [] := by
    rw [← JsonText.docs_flatMap, docs, List.foldlM_filterMap]
    congr 1
    funext events ln
    rw [replayLine_eq]
    cases docOf ln <;> rfl
  rw [← hdocs, replayGovernanceLog]
  cases hfile : files (logName py sessionId) with
  | some b =>
    rw [bytesOf, hfile, Option.getD_some] at hread
    simp only [hread]
  | none =>
    rw [bytesOf, hfile, Option.getD_none] at h
    have hempty : logText evs = [] := Py.encode_inj h (by rfl)
    rw [hempty]
    rfl

/-- The events that were recorded in one file. -/
def inFile (py : Builtins) (name : Text) (evs : List GovernanceEvent) : List GovernanceEvent :=
  evs.filter fun ev => logName py ev.sessionId = name

theorem encode_step {py : Builtins} {files files' : LogFiles} {ev : GovernanceEvent} {t name : Text}
    (h : recordGovernanceEvent py files ev = .ok files')
    (ht : Py.encode t = some (bytesOf files name)) :
    Py.encode (t ++ logText (inFile py name [ev])) = some (bytesOf files' name) := by
  unfold recordGovernanceEvent at h
  split at h
  · cases h
  · cases hline : Py.encode (ev.line ++ [Py.newline]) with
    | none => rw [hline] at h; cases h
    | some b =>
      rw [hline] at h
      obtain rfl := Except.ok.inj h
      by_cases hname : logName py ev.sessionId = name
      · subst hname
        have := Py.encode_append ht hline
        simpa [inFile, logText, bytesOf] using this
      · simpa [inFile, logText, bytesOf, hname, Ne.symm hname] using ht

theorem encode_recordAll {py : Builtins} {files files' : LogFiles} {evs : List GovernanceEvent}
    {t name : Text} (h : recordAll py files evs = .ok files')
    (ht : Py.encode t = some (bytesOf files name)) :
    Py.encode (t ++ logText (inFile py name evs)) = some (bytesOf files' name) := by
  induction evs generalizing files t with
  | nil =>
    cases h
    simpa [inFile, logText] using ht
  | cons ev evs ih =>
    cases hrec : recordGovernanceEvent py files ev with
    | error e => rw [recordAll, hrec] at h; cases h
    | ok files'' =>
      rw [recordAll, hrec] at h
      have hrest := ih h (encode_step hrec ht)
      have hsplit : inFile py name (ev :: evs) = inFile py name [ev] ++ inFile py name evs :=
        List.filter_append [ev] evs
      rwa [hsplit, logText, List.flatMap_append, ← List.append_assoc]

/-- **A replay reads the events of the file one by one.** -/
theorem replay_eq_foldlM {py : Builtins} {files : LogFiles} {evs : List GovernanceEvent}
    (h : recordAll py noFiles evs = .ok files) (sessionId : Text) :
    replayGovernanceLog py files sessionId
      = ((inFile py (logName py sessionId) evs).flatMap fun ev => docs ev.line).foldlM
          (addDocument py) [] := by
  have hempty : Py.encode [] = some (bytesOf noFiles (logName py sessionId)) := rfl
  exact replay_of_encode (encode_recordAll h hempty)

/-! ## What a document adds -/

/-- The session id that a document is read with. -/
def sessionOf (py : Builtins) (v : Document) : Text :=
  (v.dict?.map fun d => textAt py d (Py.lit "session_id")).getD []

/-- What was read before stays, and each document adds one event. -/
theorem sessions_of_foldlM {py : Builtins} {vs : List Document} {events read : List GovernanceEvent}
    (h : vs.foldlM (addDocument py) events = some read) :
    read.map (·.sessionId) = events.map (·.sessionId) ++ vs.map (sessionOf py) := by
  induction vs generalizing events with
  | nil =>
    cases h
    simp
  | cons v vs ih =>
    rw [List.foldlM_cons] at h
    obtain ⟨events', hstep, h⟩ := Option.bind_eq_some_iff.mp h
    obtain ⟨d, hd, rfl⟩ := Option.map_eq_some_iff.mp hstep
    have hsession : sessionOf py v = textAt py d (Py.lit "session_id") := by
      rw [sessionOf, hd, Option.map_some, Option.getD_some]
    rw [ih h]
    simp only [List.map_append, List.append_assoc, List.map_cons, hsession]
    rfl

/-- The document that is an event. -/
def documentOf (ev : GovernanceEvent) : Document := ⟨.obj ev.members, ev.toDict.valid⟩

theorem sessionOf_documentOf (py : Builtins) (ev : GovernanceEvent) :
    sessionOf py (documentOf ev) = ev.sessionId := by
  have htext : textAt py ev.toDict (Py.lit "session_id") = ev.sessionId := textAt_of_lookup py rfl
  exact htext

/-- The events, numbered in their order. -/
def numbered (evs : List GovernanceEvent) : List GovernanceEvent :=
  evs.mapIdx fun i ev => { ev with seq := i }

theorem map_sessionId_numbered (evs : List GovernanceEvent) :
    (numbered evs).map (·.sessionId) = evs.map (·.sessionId) :=
  List.ext_getElem (by simp [numbered]) (by simp [numbered])

theorem foldlM_documentOf (py : Builtins) (evs events : List GovernanceEvent) :
    (evs.map documentOf).foldlM (addDocument py) events
      = some (events ++ evs.mapIdx fun i ev => { ev with seq := (events.length + i : Nat) }) := by
  induction evs generalizing events with
  | nil => simp
  | cons ev evs ih =>
    have hstep : addDocument py events (documentOf ev)
        = some (events ++ [{ ev with seq := events.length }]) :=
      congrArg (fun ev' => some (events ++ [ev'])) (fromDict_toDict py ev events.length)
    rw [List.map_cons, List.foldlM_cons, hstep]
    show (evs.map documentOf).foldlM (addDocument py) (events ++ [_]) = _
    rw [ih, List.mapIdx_cons, List.append_assoc, List.length_append]
    simp [Nat.add_assoc, Nat.add_comm 1]

/-! ## Intact events -/

/-- No text of the event holds a line break that `str.splitlines` knows. -/
def Intact (ev : GovernanceEvent) : Prop := ∀ c ∈ ev.line, isLineBreak c = false

instance (ev : GovernanceEvent) : Decidable (Intact ev) :=
  decidable_of_iff ((ev.line.all fun c => !isLineBreak c) = true) (by simp [Intact])

/-- No piece of the line of the event is a JSON document. -/
def LeavesNothing (ev : GovernanceEvent) : Prop := docs ev.line = []

instance (ev : GovernanceEvent) : Decidable (LeavesNothing ev) :=
  inferInstanceAs (Decidable (docs ev.line = []))

theorem docs_of_intact {ev : GovernanceEvent} (h : Intact ev) : docs ev.line = [documentOf ev] :=
  JsonText.docs_dumps ev.toDict h

/-- What is read of an event that is cut has none of the keys of an event. -/
theorem get?_of_not_intact {ev : GovernanceEvent} (h : ¬ Intact ev) {v : Document} {d : JsonDict}
    (hv : v ∈ docs ev.line) (hd : v.dict? = some d) {k : Text}
    (hk : (k.any fun c => !JsonText.isSkeleton c) = true) : d.get? k = none := by
  simp only [Intact, not_forall, Bool.not_eq_false] at h
  obtain ⟨c, hc, hbreak⟩ := h
  have hgood := JsonText.docs_dumps_of_break hc hbreak hv
  obtain ⟨v, hvalid⟩ := v
  cases v with
  | obj members =>
    cases hd
    rw [JsonDict.get?_eq_none_iff, List.lookup_eq_none_iff]
    intro m hm
    rw [bne_iff_ne]
    rintro rfl
    obtain ⟨e, he, hskel⟩ := List.any_eq_true.mp hk
    rw [hgood.2 members rfl m.1 (List.mem_map_of_mem hm) e he] at hskel
    cases hskel
  | _ => cases hd

theorem textAt_of_not_intact (py : Builtins) {ev : GovernanceEvent} (h : ¬ Intact ev) {v : Document}
    {d : JsonDict} (hv : v ∈ docs ev.line) (hd : v.dict? = some d) {k : Text}
    (hk : (k.any fun c => !JsonText.isSkeleton c) = true) : textAt py d k = [] := by
  rw [textAt, get?_of_not_intact h hv hd hk]

/-- **What is read of an event that is cut has no session id.** -/
theorem sessionOf_of_not_intact (py : Builtins) {ev : GovernanceEvent} (h : ¬ Intact ev)
    {v : Document} (hv : v ∈ docs ev.line) : sessionOf py v = [] := by
  unfold sessionOf
  cases hd : v.dict? with
  | none => rfl
  | some d => exact textAt_of_not_intact py h hv hd (by decide)

/-! ## Exact replays -/

/-- What was recorded for a session. -/
def recordedFor (sessionId : Text) (evs : List GovernanceEvent) : List GovernanceEvent :=
  evs.filter fun ev => ev.sessionId = sessionId

/-- The event can stand in the file of the session without changing what is read of it. -/
def Harmless (sessionId : Text) (ev : GovernanceEvent) : Prop :=
  if ev.sessionId = sessionId then Intact ev else LeavesNothing ev

instance (sessionId : Text) (ev : GovernanceEvent) : Decidable (Harmless sessionId ev) :=
  inferInstanceAs (Decidable (if ev.sessionId = sessionId then Intact ev else LeavesNothing ev))

theorem inFile_recordedFor (py : Builtins) (sessionId : Text) (evs : List GovernanceEvent) :
    recordedFor sessionId (inFile py (logName py sessionId) evs) = recordedFor sessionId evs := by
  rw [recordedFor, inFile, List.filter_filter]
  refine List.filter_congr fun ev _ => ?_
  by_cases h : ev.sessionId = sessionId <;> simp [h]

theorem recordedFor_cons_of_eq {sessionId : Text} {ev : GovernanceEvent}
    (h : ev.sessionId = sessionId) (evs : List GovernanceEvent) :
    recordedFor sessionId (ev :: evs) = ev :: recordedFor sessionId evs :=
  List.filter_cons_of_pos (by simpa using h)

theorem recordedFor_cons_of_ne {sessionId : Text} {ev : GovernanceEvent}
    (h : ev.sessionId ≠ sessionId) (evs : List GovernanceEvent) :
    recordedFor sessionId (ev :: evs) = recordedFor sessionId evs :=
  List.filter_cons_of_neg (by simpa using h)

/-- Harmless events leave the documents of their session. -/
theorem docs_of_harmless {sessionId : Text} {evs : List GovernanceEvent}
    (h : ∀ ev ∈ evs, Harmless sessionId ev) :
    (evs.flatMap fun ev => docs ev.line) = (recordedFor sessionId evs).map documentOf := by
  induction evs with
  | nil => rfl
  | cons ev evs ih =>
    obtain ⟨hev, hevs⟩ := List.forall_mem_cons.mp h
    rw [List.flatMap_cons, ih hevs]
    unfold Harmless at hev
    split at hev
    · next hsession => rw [docs_of_intact hev, recordedFor_cons_of_eq hsession]; rfl
    · next hsession =>
      unfold LeavesNothing at hev
      rw [hev, recordedFor_cons_of_ne hsession, List.nil_append]

/-- The documents of a file are the intact events, where the others leave none. -/
theorem length_docs {sessionId : Text} {evs : List GovernanceEvent}
    (hcut : ∀ ev ∈ evs, ¬ Intact ev → docs ev.line = [])
    (hforeign : ∀ ev ∈ evs, ev.sessionId ≠ sessionId → ¬ Intact ev) :
    (evs.flatMap fun ev => docs ev.line).length
      = ((recordedFor sessionId evs).filter fun ev => Intact ev).length := by
  induction evs with
  | nil => rfl
  | cons ev evs ih =>
    obtain ⟨hcut', hcuts⟩ := List.forall_mem_cons.mp hcut
    obtain ⟨hforeign', hforeigns⟩ := List.forall_mem_cons.mp hforeign
    rw [List.flatMap_cons, List.length_append, ih hcuts hforeigns]
    by_cases hsession : ev.sessionId = sessionId
    · rw [recordedFor_cons_of_eq hsession]
      by_cases hintact : Intact ev
      · rw [docs_of_intact hintact, List.filter_cons_of_pos (by simpa using hintact),
          List.length_cons, Nat.add_comm]
        rfl
      · rw [hcut' hintact, List.filter_cons_of_neg (by simpa using hintact), List.length_nil,
          Nat.zero_add]
    · rw [recordedFor_cons_of_ne hsession, hcut' (hforeign' hsession), List.length_nil,
        Nat.zero_add]

/-- A file whose documents are as many as were recorded for the session, and all of it. -/
theorem harmless_of_docs (py : Builtins) {sessionId : Text} (hne : sessionId ≠ [])
    {evs : List GovernanceEvent}
    (hsession : ∀ v ∈ evs.flatMap fun ev => docs ev.line, sessionOf py v = sessionId)
    (hlength : (evs.flatMap fun ev => docs ev.line).length = (recordedFor sessionId evs).length) :
    ∀ ev ∈ evs, Harmless sessionId ev := by
  have hdocs : ∀ ev ∈ evs, ∀ v ∈ docs ev.line, sessionOf py v = sessionId := fun ev hev v hv =>
    hsession v (List.mem_flatMap.mpr ⟨ev, hev, hv⟩)
  -- an event that is cut has no document of the session
  have hcut : ∀ ev ∈ evs, ¬ Intact ev → docs ev.line = [] := by
    intro ev hev hintact
    rw [List.eq_nil_iff_forall_not_mem]
    intro v hv
    have := hdocs ev hev v hv
    rw [sessionOf_of_not_intact py hintact hv] at this
    exact hne this.symm
  have hforeign : ∀ ev ∈ evs, ev.sessionId ≠ sessionId → ¬ Intact ev := by
    intro ev hev hother hintact
    have := hdocs ev hev (documentOf ev) (by rw [docs_of_intact hintact]; simp)
    rw [sessionOf_documentOf] at this
    exact hother this
  rw [length_docs hcut hforeign, List.length_filter_eq_length_iff] at hlength
  intro ev hev
  unfold Harmless
  split
  · next hsession =>
    exact of_decide_eq_true (hlength ev (List.mem_filter.mpr ⟨hev, by simpa using hsession⟩))
  · next hother => exact hcut ev hev (hforeign ev hev hother)

/--
**When a replay is exact.** A replay gives the events recorded for its session, numbered in their
order, exactly when none of them holds a line break and no event of another session in the same
file leaves a document.
-/
theorem replay_exact_iff (py : Builtins) {files : LogFiles} {evs : List GovernanceEvent}
    (hrecord : recordAll py noFiles evs = .ok files) {sessionId : Text}
    (hne : sessionId ≠ []) :
    replayGovernanceLog py files sessionId = some (numbered (recordedFor sessionId evs))
      ↔ ∀ ev ∈ evs, logName py ev.sessionId = logName py sessionId → Harmless sessionId ev := by
  have hmem : (∀ ev ∈ evs, logName py ev.sessionId = logName py sessionId → Harmless sessionId ev)
      ↔ ∀ ev ∈ inFile py (logName py sessionId) evs, Harmless sessionId ev := by
    simp [inFile]
  rw [hmem, replay_eq_foldlM hrecord, ← inFile_recordedFor py sessionId evs]
  generalize inFile py (logName py sessionId) evs = filed
  constructor
  · intro h
    have hsessions := sessions_of_foldlM h
    have hown : (numbered (recordedFor sessionId filed)).map (·.sessionId)
        = List.replicate (recordedFor sessionId filed).length sessionId := by
      rw [map_sessionId_numbered, List.eq_replicate_iff]
      refine ⟨List.length_map _, fun t ht => ?_⟩
      obtain ⟨ev, hev, rfl⟩ := List.mem_map.mp ht
      simpa using (List.mem_filter.mp hev).2
    rw [hown, List.map_nil, List.nil_append] at hsessions
    refine harmless_of_docs py hne (fun v hv => ?_) ?_
    · exact List.eq_of_mem_replicate (hsessions ▸ List.mem_map_of_mem hv)
    · simpa using (congrArg List.length hsessions).symm
  · intro h
    rw [docs_of_harmless h, foldlM_documentOf]
    simp [numbered]

/-- ASCII letters and digits, and an empty text for what no run here reaches. -/
def asciiBuiltins : Builtins where
  isAlnum c := (Py.toChar? c).any (·.isAlphanum)
  str _ := []
  bool _ := false

/-- Two events of two sessions. -/
def twoSessions : List GovernanceEvent :=
  [{ sessionId := Py.lit "goal-1", kind := Py.lit "brief", summary := Py.lit "PM brief: \"x\"" },
    { sessionId := Py.lit "goal-2", kind := Py.lit "meeting" }]

/-- An event whose summary holds the line separator `U+2028`. -/
def separatedEvent : GovernanceEvent where
  sessionId := Py.lit "goal-1"
  kind := Py.lit "approval"
  summary := [⟨0x2028, by decide⟩]

theorem exists_recorded {py : Builtins} {evs : List GovernanceEvent}
    (h : (recordAll py noFiles evs).isOk = true) : ∃ files, recordAll py noFiles evs = .ok files := by
  cases hrec : recordAll py noFiles evs with
  | ok files => exact ⟨files, rfl⟩
  | error e =>
    rw [hrec] at h
    cases h

theorem replay_goal_1 : ∃ files, recordAll asciiBuiltins noFiles twoSessions = .ok files ∧
    replayGovernanceLog asciiBuiltins files (Py.lit "goal-1")
      = some (numbered (recordedFor (Py.lit "goal-1") twoSessions)) := by
  have hok : (recordAll asciiBuiltins noFiles twoSessions).isOk = true := by decide +kernel
  obtain ⟨files, hfiles⟩ := exists_recorded hok
  exact ⟨files, hfiles, (replay_exact_iff asciiBuiltins hfiles (by decide)).mpr (by decide +kernel)⟩

/-- **An approval is lost**, when its summary holds a line separator. -/
theorem separatedEvent_lost : ∃ files,
    recordAll asciiBuiltins noFiles [separatedEvent] = .ok files ∧
      replayGovernanceLog asciiBuiltins files (Py.lit "goal-1")
        ≠ some (numbered (recordedFor (Py.lit "goal-1") [separatedEvent])) := by
  have hok : (recordAll asciiBuiltins noFiles [separatedEvent]).isOk = true := by decide +kernel
  obtain ⟨files, hfiles⟩ := exists_recorded hok
  have hdocs : (([separatedEvent].filter fun ev => logName asciiBuiltins ev.sessionId
      = logName asciiBuiltins (Py.lit "goal-1")).flatMap fun ev => docs ev.line) = [] := by
    decide +kernel
  refine ⟨files, hfiles, fun h => ?_⟩
  rw [replay_eq_foldlM hfiles, inFile, hdocs] at h
  exact absurd (congrArg (Option.map List.length) h) (by decide +kernel)

end ForgeKit.DecisionLane
