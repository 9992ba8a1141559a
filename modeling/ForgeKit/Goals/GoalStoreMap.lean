import ForgeKit.Goals.GoalFiles

/-!
# The goal store as a map (`forgekit_goal.store`)

Ids that differ in the white space around them share a file, and a file whose name starts with a dot
is not listed.

* `runCalls_files` — what the files hold after some calls
* `lastWritten_iff` — when that is what was saved last under each id
* `goal_store_is_map_iff` — the calls after which the store is the map keyed by the id
-/

namespace ForgeKit.Goals

open JsonText (Conversions)

/-! ## Calls -/

/-- A call that changes the store. -/
inductive StoreCall where
  | save (g : Goal) (tagged : g.Tagged)
  | delete (goalId : String)

namespace StoreCall

/-- The id that the call is about. -/
def id : StoreCall → String
  | save g _ => g.id
  | delete goalId => goalId

/-- The goal that is stored after the call. -/
def goal? : StoreCall → Option Goal
  | save g _ => some g
  | delete _ => none

end StoreCall

/-- The files after a call; a call that raises leaves them alone. -/
def runCall (files : GoalDir) : StoreCall → GoalDir
  | .save g _ => (files.save g).getD files
  | .delete goalId => ((files.delete goalId).map Prod.fst).getD files

/-- The files after some calls on an empty directory. -/
def runCalls (calls : List StoreCall) : GoalDir := calls.foldl runCall Table.empty

/-- The goal that was saved last under an id, unless the id was deleted after that. -/
def lastSaved (calls : List StoreCall) (goalId : String) : Option Goal :=
  calls.foldl (fun r c => if c.id = goalId then c.goal? else r) none

/-- The goal that was written last to a file. -/
def lastWritten (calls : List StoreCall) (name : String) : Option Goal :=
  calls.foldl (fun r c => if fileName c.id = some name then c.goal? else r) none

/-- The store takes the id. -/
def Accepted (goalId : String) : Prop := (fileName goalId).isSome = true

instance (goalId : String) : Decidable (Accepted goalId) := inferInstanceAs (Decidable (_ = true))

theorem lastSaved_concat (calls : List StoreCall) (c : StoreCall) (goalId : String) :
    lastSaved (calls ++ [c]) goalId = if c.id = goalId then c.goal? else lastSaved calls goalId := by
  rw [lastSaved, List.foldl_append]
  rfl

theorem lastWritten_concat (calls : List StoreCall) (c : StoreCall) (name : String) :
    lastWritten (calls ++ [c]) name
      = if fileName c.id = some name then c.goal? else lastWritten calls name := by
  rw [lastWritten, List.foldl_append]
  rfl

theorem StoreCall.id_of_goal? {c : StoreCall} {g : Goal} (h : c.goal? = some g) :
    c.id = g.id ∧ ∃ tagged, c = .save g tagged := by
  cases c with
  | save g' tagged => cases h; exact ⟨rfl, tagged, rfl⟩
  | delete goalId => cases h

/-- What is stored was saved by one of the calls. -/
theorem exists_of_lastSaved {calls : List StoreCall} {goalId : String} {g : Goal}
    (h : lastSaved calls goalId = some g) :
    g.id = goalId ∧ ∃ tagged, StoreCall.save g tagged ∈ calls := by
  induction calls using List.reverseRecOn with
  | nil => cases h
  | append_singleton calls c ih =>
    rw [lastSaved_concat] at h
    split at h
    · next hid =>
      obtain ⟨hgoal, tagged, rfl⟩ := StoreCall.id_of_goal? h
      exact ⟨hgoal.symm.trans hid, tagged, by simp⟩
    · obtain ⟨hid, tagged, hmem⟩ := ih h
      exact ⟨hid, tagged, List.mem_append_left _ hmem⟩

theorem exists_of_lastWritten {calls : List StoreCall} {name : String} {g : Goal}
    (h : lastWritten calls name = some g) :
    fileName g.id = some name ∧ ∃ tagged, StoreCall.save g tagged ∈ calls := by
  induction calls using List.reverseRecOn with
  | nil => cases h
  | append_singleton calls c ih =>
    rw [lastWritten_concat] at h
    split at h
    · next hname =>
      obtain ⟨hgoal, tagged, rfl⟩ := StoreCall.id_of_goal? h
      exact ⟨hname, tagged, by simp⟩
    · obtain ⟨hname, tagged, hmem⟩ := ih h
      exact ⟨hname, tagged, List.mem_append_left _ hmem⟩

/-! ## Names -/

theorem fileName_eq {goalId name : String} (h : fileName goalId = some name) :
    PyText.strip goalId ≠ "" ∧ name = PyText.strip goalId ++ ".json" := by
  simp only [fileName] at h
  split at h
  · cases h
  · next hsafe =>
    cases h
    exact ⟨fun he => hsafe (.inl he), rfl⟩

theorem append_json_inj {s t : String} (h : s ++ ".json" = t ++ ".json") : s = t := by
  rw [← String.toList_inj, String.toList_append, String.toList_append] at h
  exact String.toList_inj.mp (List.append_cancel_right h)

/-- Accepted ids share a file exactly if they are the same without the white space around them. -/
theorem fileName_eq_iff {goalId other : String} (h : Accepted goalId) (h' : Accepted other) :
    fileName goalId = fileName other ↔ PyText.strip goalId = PyText.strip other := by
  obtain ⟨name, hname⟩ := Option.isSome_iff_exists.mp h
  obtain ⟨name', hname'⟩ := Option.isSome_iff_exists.mp h'
  rw [hname, hname', Option.some.injEq, (fileName_eq hname).2, (fileName_eq hname').2]
  exact ⟨append_json_inj, fun he => by rw [he]⟩

/-- The id of a file that is not listed. -/
def Dotted (goalId : String) : Prop := PyText.startsWith (PyText.strip goalId) "." = true

instance (goalId : String) : Decidable (Dotted goalId) := inferInstanceAs (Decidable (_ = true))

theorem isListed_fileName {goalId name : String} (h : fileName goalId = some name) :
    GoalDir.isListed name = true ↔ ¬ Dotted goalId := by
  obtain ⟨hne, rfl⟩ := fileName_eq h
  have hsuffix : ".json".toList.isSuffixOf (PyText.strip goalId ++ ".json").toList = true := by
    rw [List.isSuffixOf_iff_suffix, String.toList_append]
    exact List.suffix_append _ _
  have hstart : PyText.startsWith (PyText.strip goalId ++ ".json") "."
      = PyText.startsWith (PyText.strip goalId) "." := by
    obtain ⟨c, cs, hcons⟩ := List.exists_cons_of_ne_nil
      (fun hnil => hne (String.toList_inj.mp hnil) : (PyText.strip goalId).toList ≠ [])
    rw [PyText.startsWith, PyText.startsWith, String.toList_append, hcons]
    simp [List.isPrefixOf]
  rw [GoalDir.isListed, hsuffix, hstart, Dotted]
  simp

/-! ## The files after some calls -/

/-- The file of a goal. -/
def goalFile (name : String) (g : Goal) : Option GoalFile := (goalBytes g).map fun b => ⟨name, b⟩

theorem goalFile_isSome (name : String) (g : Goal) : (goalFile name g).isSome = true := by
  rw [goalFile, Option.isSome_map]
  exact goalBytes_isSome g

theorem find?_runCall {files : GoalDir} {c : StoreCall} (h : Accepted c.id) (name : String) :
    (runCall files c).find? name
      = if fileName c.id = some name then c.goal?.bind (goalFile name) else files.find? name := by
  cases c with
  | save g tagged =>
    obtain ⟨written, hname⟩ := Option.isSome_iff_exists.mp h
    obtain ⟨bytes, hbytes⟩ := Option.isSome_iff_exists.mp (goalBytes_isSome g)
    have hsave : runCall files (.save g tagged) = files.upsert ⟨written, bytes⟩ := by
      rw [runCall, GoalDir.save, show fileName g.id = some written from hname, hbytes]
      rfl
    simp only [hname, Option.some.injEq, hsave]
    refine (Table.find?_upsert files ⟨written, bytes⟩ name).trans ?_
    by_cases heq : written = name
    · subst heq
      rw [if_pos rfl, if_pos rfl]
      simp [StoreCall.goal?, goalFile, hbytes]
    · rw [if_neg heq, if_neg heq]
  | delete goalId =>
    obtain ⟨written, hname⟩ := Option.isSome_iff_exists.mp h
    have hdelete : runCall files (.delete goalId) = files.filterRows fun f => f.name ≠ written := by
      rw [runCall, GoalDir.delete, show fileName goalId = some written from hname]
      rfl
    simp only [hname, Option.some.injEq, hdelete]
    refine (Table.find?_filterRows files _ name).trans ?_
    cases hfind : files.find? name with
    | none => simp [StoreCall.goal?]
    | some f =>
      have hkey : f.name = name := Table.find?_key hfind
      by_cases heq : written = name
      · simp [StoreCall.goal?, heq, hkey, Option.filter]
      · simp [heq, hkey, Ne.symm heq, Option.filter]

/-- **What the files hold**: under each name the goal that was written last. -/
theorem runCalls_files {calls : List StoreCall} (h : ∀ c ∈ calls, Accepted c.id) (name : String) :
    (runCalls calls).find? name = (lastWritten calls name).bind (goalFile name) := by
  induction calls using List.reverseRecOn with
  | nil => rfl
  | append_singleton calls c ih =>
    have hrun : runCalls (calls ++ [c]) = runCall (runCalls calls) c := by
      rw [runCalls, List.foldl_append]
      rfl
    rw [hrun, find?_runCall (h c (by simp)), lastWritten_concat,
      ih fun c hc => h c (List.mem_append_left _ hc)]
    split <;> rfl

theorem readGoal_goalFile (py : Conversions) {calls : List StoreCall} {name : String} {g : Goal}
    {f : GoalFile} (hwritten : lastWritten calls name = some g) (hf : goalFile name g = some f) :
    readGoal py f.bytes = some g := by
  obtain ⟨-, tagged, -⟩ := exists_of_lastWritten hwritten
  obtain ⟨bytes, hbytes, rfl⟩ := Option.map_eq_some_iff.mp hf
  exact readGoal_goalBytes py tagged hbytes

/-- What `load` answers. -/
theorem load_runCalls (py : Conversions) {calls : List StoreCall} {goalId name : String}
    (h : ∀ c ∈ calls, Accepted c.id) (hname : fileName goalId = some name) :
    (runCalls calls).load py goalId
      = match lastWritten calls name with
        | some g => .ok g
        | none => .error .keyError := by
  rw [GoalDir.load, hname]
  dsimp only
  rw [runCalls_files h]
  cases hwritten : lastWritten calls name with
  | none => rfl
  | some g =>
    obtain ⟨f, hf⟩ := Option.isSome_iff_exists.mp (goalFile_isSome name g)
    rw [Option.bind_some, hf]
    dsimp only
    rw [readGoal_goalFile py hwritten hf]

/-- A file of the directory, with the goal in it. -/
theorem mem_runCalls {calls : List StoreCall} (h : ∀ c ∈ calls, Accepted c.id) {f : GoalFile} :
    f ∈ (runCalls calls).rows
      ↔ ∃ g, lastWritten calls f.name = some g ∧ goalFile f.name g = some f := by
  rw [← Option.bind_eq_some_iff, ← runCalls_files h]
  exact ⟨Table.find?_of_mem, Table.mem_of_find?⟩

theorem mapM_eq_filterMap {α β : Type} {f : α → Option β} {l : List α}
    (h : ∀ a ∈ l, (f a).isSome = true) : l.mapM f = some (l.filterMap f) := by
  induction l with
  | nil => rfl
  | cons a l ih =>
    obtain ⟨b, hb⟩ := Option.isSome_iff_exists.mp (h a List.mem_cons_self)
    rw [List.mapM_cons, hb, ih fun a ha => h a (List.mem_cons_of_mem _ ha),
      List.filterMap_cons_some hb]
    rfl

/-- What `load_all` answers: the goals of the files that are listed, newest update first. -/
theorem loadAll_runCalls (py : Conversions) {calls : List StoreCall}
    (h : ∀ c ∈ calls, Accepted c.id) :
    ∃ goals, (runCalls calls).loadAll py = some goals
      ∧ goals.Pairwise (fun g g' => g'.updatedAt ≤ g.updatedAt) ∧ goals.Nodup
      ∧ ∀ g, g ∈ goals ↔ ∃ name, lastWritten calls name = some g
          ∧ GoalDir.isListed name = true := by
  set paths := ((runCalls calls).rows.filter fun f => GoalDir.isListed f.name).insertionSort
    fun f f' => f.name ≤ f'.name with hpaths
  have hmem : ∀ f, f ∈ paths ↔ f ∈ (runCalls calls).rows ∧ GoalDir.isListed f.name = true := by
    intro f
    rw [hpaths, (List.perm_insertionSort _ _).mem_iff, List.mem_filter]
  have hread : ∀ f ∈ paths, ∃ g, readGoal py f.bytes = some g ∧ lastWritten calls f.name = some g := by
    intro f hf
    obtain ⟨g, hwritten, hfile⟩ := (mem_runCalls h).mp ((hmem f).mp hf).1
    exact ⟨g, readGoal_goalFile py hwritten hfile, hwritten⟩
  have hmap := mapM_eq_filterMap (f := fun f : GoalFile => readGoal py f.bytes) (l := paths)
    fun f hf => by
      obtain ⟨g, hg, -⟩ := hread f hf
      rw [hg]
      rfl
  refine ⟨_, by rw [GoalDir.loadAll, ← hpaths, hmap]; rfl, ?_, ?_, ?_⟩
  · exact List.pairwise_insertionSort _ _
  · rw [(List.perm_insertionSort _ _).nodup_iff]
    have hrows : (runCalls calls).rows.Nodup := .of_map GoalFile.name (runCalls calls).nodup
    have hnodup : paths.Nodup := by
      rw [hpaths, (List.perm_insertionSort _ _).nodup_iff]
      exact hrows.filter _
    rw [List.Nodup, List.pairwise_filterMap]
    refine hnodup.imp_of_mem fun {f f'} hf hf' hne g hg g' hg' heq => hne ?_
    -- a goal is in one file only, the one that its id names
    obtain ⟨g1, hg1, hwritten⟩ := hread f hf
    obtain ⟨g2, hg2, hwritten'⟩ := hread f' hf'
    rw [hg, Option.some.injEq] at hg1
    rw [hg', Option.some.injEq] at hg2
    subst hg1 hg2 heq
    have hname : f.name = f'.name := Option.some.inj
      ((exists_of_lastWritten hwritten).1.symm.trans (exists_of_lastWritten hwritten').1)
    exact List.inj_on_of_nodup_map (runCalls calls).nodup ((hmem f).mp hf).1 ((hmem f').mp hf').1 hname
  · intro g
    rw [(List.perm_insertionSort _ _).mem_iff, List.mem_filterMap]
    constructor
    · rintro ⟨f, hf, hg⟩
      obtain ⟨g', hg', hwritten⟩ := hread f hf
      rw [hg, Option.some.injEq] at hg'
      exact ⟨f.name, hg' ▸ hwritten, ((hmem f).mp hf).2⟩
    · rintro ⟨name, hwritten, hlisted⟩
      obtain ⟨f, hf⟩ := Option.isSome_iff_exists.mp (goalFile_isSome name g)
      have hname : f.name = name := by
        obtain ⟨bytes, -, rfl⟩ := Option.map_eq_some_iff.mp hf
        rfl
      subst hname
      exact ⟨f, (hmem f).mpr ⟨(mem_runCalls h).mpr ⟨g, hwritten, hf⟩, hlisted⟩,
        readGoal_goalFile py hwritten hf⟩

/-! ## The map -/

/-- `load` answers with the goal that was saved last under the id, or raises a `KeyError`. -/
def LoadsLast (py : Conversions) (calls : List StoreCall) (goalId : String) : Prop :=
  (runCalls calls).load py goalId
    = match lastSaved calls goalId with
      | some g => .ok g
      | none => .error .keyError

/-- `load_all` answers with the stored goals, each once, newest update first. -/
def ListsAll (py : Conversions) (calls : List StoreCall) : Prop :=
  ∃ goals, (runCalls calls).loadAll py = some goals
    ∧ goals.Pairwise (fun g g' => g'.updatedAt ≤ g.updatedAt) ∧ goals.Nodup
    ∧ ∀ g, g ∈ goals ↔ ∃ goalId, lastSaved calls goalId = some g

/-- The store is the map keyed by the id, all along the calls, as far as this id and the list go. -/
structure IsMap (py : Conversions) (calls : List StoreCall) (goalId : String) : Prop where
  loads : ∀ pre, pre <+: calls → LoadsLast py pre goalId
  frame : ∀ pre g tagged, pre ++ [.save g tagged] <+: calls → g.id ≠ goalId →
    (runCalls (pre ++ [.save g tagged])).load py goalId = (runCalls pre).load py goalId
  lists : ∀ pre, pre <+: calls → ListsAll py pre

/-- The ids of the calls name files of their own, and files that are listed. -/
structure Separate (calls : List StoreCall) (goalId : String) : Prop where
  undotted : ∀ g tagged, .save g tagged ∈ calls → ¬ Dotted g.id
  asked : ∀ g tagged, .save g tagged ∈ calls → g.id ≠ goalId →
    PyText.strip g.id ≠ PyText.strip goalId
  alone : ∀ pre c, pre ++ [c] <+: calls → ∀ other, other ≠ c.id →
    PyText.strip other = PyText.strip c.id → lastSaved pre other = none

section

variable {calls : List StoreCall} {goalId : String}

theorem Separate.initial {pre : List StoreCall} (h : Separate calls goalId) (hpre : pre <+: calls) :
    Separate pre goalId :=
  ⟨fun g tagged hmem => h.undotted g tagged (hpre.subset hmem),
    fun g tagged hmem => h.asked g tagged (hpre.subset hmem),
    fun pre' c hpre' => h.alone pre' c (hpre'.trans hpre)⟩

/-- Each file holds what was saved last under the one id that it was named after. -/
theorem lastWritten_iff (haccepted : ∀ c ∈ calls, Accepted c.id) (h : Separate calls goalId)
    {name : String} {g : Goal} : lastWritten calls name = some g
      ↔ ∃ other, lastSaved calls other = some g ∧ fileName other = some name := by
  induction calls using List.reverseRecOn with
  | nil => simp [lastWritten, lastSaved]
  | append_singleton calls c ih =>
    have hpre : calls <+: calls ++ [c] := List.prefix_append _ _
    have ih := ih (fun c hc => haccepted c (List.mem_append_left _ hc)) (h.initial hpre)
    rw [lastWritten_concat]
    by_cases hname : fileName c.id = some name
    · rw [if_pos hname]
      constructor
      · intro hgoal
        exact ⟨c.id, by rw [lastSaved_concat, if_pos rfl, hgoal], hname⟩
      · rintro ⟨other, hsaved, hother⟩
        rw [lastSaved_concat] at hsaved
        split at hsaved
        · exact hsaved
        · next hne =>
          have hsame := (fileName_eq_iff (by rw [Accepted, hother]; rfl)
            (haccepted c (by simp))).mp (hother.trans hname.symm)
          rw [h.alone calls c (List.prefix_refl _) other (Ne.symm hne) hsame] at hsaved
          cases hsaved
    · rw [if_neg hname, ih]
      refine exists_congr fun other => and_congr_left fun hother => ?_
      have hne : c.id ≠ other := fun heq => hname (heq ▸ hother)
      rw [lastSaved_concat, if_neg hne]

theorem loadsLast_of_separate (py : Conversions) (haccepted : ∀ c ∈ calls, Accepted c.id)
    (hid : Accepted goalId) (h : Separate calls goalId) : LoadsLast py calls goalId := by
  obtain ⟨name, hname⟩ := Option.isSome_iff_exists.mp hid
  rw [LoadsLast, load_runCalls py haccepted hname]
  suffices hsame : lastWritten calls name = lastSaved calls goalId by rw [hsame]
  refine Option.ext fun g => ?_
  rw [lastWritten_iff haccepted h]
  constructor
  · rintro ⟨other, hsaved, hother⟩
    obtain ⟨rfl, tagged, hmem⟩ := exists_of_lastSaved hsaved
    by_contra hne
    have hother' : g.id ≠ goalId := fun heq => hne (heq ▸ hsaved)
    exact h.asked g tagged hmem hother'
      ((fileName_eq_iff (by rw [Accepted, hother]; rfl) hid).mp (hother.trans hname.symm))
  · exact fun hsaved => ⟨goalId, hsaved, hname⟩

theorem listsAll_of_separate (py : Conversions) (haccepted : ∀ c ∈ calls, Accepted c.id)
    (h : Separate calls goalId) : ListsAll py calls := by
  obtain ⟨goals, hload, hsorted, hnodup, hmem⟩ := loadAll_runCalls py haccepted
  refine ⟨goals, hload, hsorted, hnodup, fun g => ?_⟩
  rw [hmem]
  constructor
  · rintro ⟨name, hwritten, -⟩
    obtain ⟨other, hsaved, -⟩ := (lastWritten_iff haccepted h).mp hwritten
    exact ⟨other, hsaved⟩
  · rintro ⟨other, hsaved⟩
    obtain ⟨rfl, tagged, hsave⟩ := exists_of_lastSaved hsaved
    obtain ⟨name, hname⟩ := Option.isSome_iff_exists.mp (haccepted _ hsave)
    exact ⟨name, (lastWritten_iff haccepted h).mpr ⟨g.id, hsaved, hname⟩,
      (isListed_fileName hname).mpr (h.undotted g tagged hsave)⟩

theorem isMap_of_separate (py : Conversions) (haccepted : ∀ c ∈ calls, Accepted c.id)
    (hid : Accepted goalId) (h : Separate calls goalId) : IsMap py calls goalId := by
  have hloads : ∀ pre, pre <+: calls → LoadsLast py pre goalId := fun pre hpre =>
    loadsLast_of_separate py (fun c hc => haccepted c (hpre.subset hc)) hid (h.initial hpre)
  refine ⟨hloads, fun pre g tagged hpre hne => ?_, fun pre hpre => ?_⟩
  · rw [hloads _ hpre, hloads _ ((List.prefix_append _ _).trans hpre), lastSaved_concat]
    rw [if_neg (show (StoreCall.save g tagged).id ≠ goalId from hne)]
  · exact listsAll_of_separate py (fun c hc => haccepted c (hpre.subset hc)) (h.initial hpre)

/-- A goal that `load_all` has to list is in a file that is listed. -/
theorem written_of_listsAll {py : Conversions} (haccepted : ∀ c ∈ calls, Accepted c.id)
    (h : ListsAll py calls) {g : Goal} {other : String} (hsaved : lastSaved calls other = some g) :
    ∃ name, lastWritten calls name = some g ∧ GoalDir.isListed name = true := by
  obtain ⟨goals, hload, -, -, hmem⟩ := h
  obtain ⟨goals', hload', -, -, hmem'⟩ := loadAll_runCalls py haccepted
  rw [hload, Option.some.injEq] at hload'
  subst hload'
  exact (hmem' g).mp ((hmem g).mpr ⟨other, hsaved⟩)

theorem separate_of_isMap {py : Conversions} (haccepted : ∀ c ∈ calls, Accepted c.id)
    (hid : Accepted goalId) (h : IsMap py calls goalId) : Separate calls goalId := by
  -- the calls up to the save of a goal
  have hsplit : ∀ g tagged, StoreCall.save g tagged ∈ calls →
      ∃ pre, pre ++ [.save g tagged] <+: calls := by
    intro g tagged hmem
    obtain ⟨pre, post, rfl⟩ := List.append_of_mem hmem
    exact ⟨pre, post, by simp⟩
  refine ⟨fun g tagged hmem => ?_, fun g tagged hmem hne hsame => ?_, ?_⟩
  · obtain ⟨pre, hpre⟩ := hsplit g tagged hmem
    have hsaved : lastSaved (pre ++ [.save g tagged]) g.id = some g := by
      rw [lastSaved_concat, if_pos (show (StoreCall.save g tagged).id = g.id from rfl)]
      rfl
    obtain ⟨name, hwritten, hlisted⟩ := written_of_listsAll
      (fun c hc => haccepted c (hpre.subset hc)) (h.lists _ hpre) hsaved
    exact (isListed_fileName (exists_of_lastWritten hwritten).1).mp hlisted
  · obtain ⟨pre, hpre⟩ := hsplit g tagged hmem
    obtain ⟨name, hname⟩ := Option.isSome_iff_exists.mp hid
    have hloads := h.loads _ hpre
    have hfile : fileName g.id = some name :=
      ((fileName_eq_iff (haccepted _ hmem) hid).mpr hsame).trans hname
    rw [LoadsLast, load_runCalls py (fun c hc => haccepted c (hpre.subset hc)) hname,
      lastWritten_concat,
      if_pos (show fileName (StoreCall.save g tagged).id = some name from hfile)] at hloads
    dsimp only [StoreCall.goal?] at hloads
    cases hsaved : lastSaved (pre ++ [.save g tagged]) goalId with
    | none => rw [hsaved] at hloads; cases hloads
    | some g' =>
      rw [hsaved] at hloads
      cases hloads
      exact hne (exists_of_lastSaved hsaved).1
  · intro pre c hpre other hne hsame
    by_contra hlive
    obtain ⟨g, hsaved⟩ := Option.ne_none_iff_exists'.mp hlive
    obtain ⟨rfl, -⟩ := exists_of_lastSaved hsaved
    have hkept : lastSaved (pre ++ [c]) g.id = some g := by
      rw [lastSaved_concat, if_neg (Ne.symm hne), hsaved]
    obtain ⟨name, hwritten, -⟩ := written_of_listsAll (fun c hc => haccepted c (hpre.subset hc))
      (h.lists _ hpre) hkept
    have hgoal : fileName g.id = some name := (exists_of_lastWritten hwritten).1
    have hfile : fileName c.id = some name := by
      rw [← hgoal]
      exact (fileName_eq_iff (haccepted c (hpre.subset (by simp)))
        (by rw [Accepted, hgoal]; rfl)).mpr hsame.symm
    -- the call was made on that file
    rw [lastWritten_concat, if_pos hfile] at hwritten
    exact hne (StoreCall.id_of_goal? hwritten).1.symm

end

/--
**When the goal store is a map keyed by the id.** No id that is saved starts with a dot, no goal was
saved under another id that strips to the id that is asked for, and no call is made under an id while
a goal is stored under another id that strips to the same.
-/
theorem goal_store_is_map_iff (py : Conversions) (calls : List StoreCall) (goalId : String)
    (haccepted : ∀ c ∈ calls, Accepted c.id) (hid : Accepted goalId) :
    IsMap py calls goalId ↔ Separate calls goalId :=
  ⟨separate_of_isMap haccepted hid, isMap_of_separate py haccepted hid⟩

/-- Ids without white space around them, as `new_goal_id` makes them, keep apart. -/
theorem separate_of_stripped {calls : List StoreCall} {goalId : String}
    (hcalls : ∀ c ∈ calls, PyText.strip c.id = c.id ∧ PyText.startsWith c.id "." = false)
    (hid : PyText.strip goalId = goalId) : Separate calls goalId := by
  refine ⟨fun g tagged hmem hdot => ?_, fun g tagged hmem hne hsame => ?_,
    fun pre c hpre other hne hsame => ?_⟩
  · obtain ⟨hstrip, hnot⟩ := hcalls _ hmem
    rw [Dotted, show PyText.strip g.id = g.id from hstrip,
      show PyText.startsWith g.id "." = false from hnot] at hdot
    cases hdot
  · exact hne ((hcalls _ hmem).1.symm.trans (hsame.trans hid))
  · by_contra hlive
    obtain ⟨g, hsaved⟩ := Option.ne_none_iff_exists'.mp hlive
    obtain ⟨rfl, tagged, hmem⟩ := exists_of_lastSaved hsaved
    have hg := (hcalls _ (hpre.subset (List.mem_append_left _ hmem))).1
    exact hne (hg.symm.trans (hsame.trans (hcalls c (hpre.subset (by simp))).1))

/-- What no file that was saved asks for. -/
def noConversions : Conversions := ⟨fun _ => [], fun _ => none, fun _ => false⟩

def storedGoal (goalId title : String) : Goal := { id := goalId, title := title, status := .active }

/-- Two goals, one of them saved again after it was deleted. -/
def tidyCalls : List StoreCall :=
  [.save (storedGoal "goal-1" "tidy up") (by decide), .save (storedGoal "goal-2" "docs") (by decide),
    .delete "goal-1", .save (storedGoal "goal-1" "tidy up again") (by decide)]

theorem tidyCalls_isMap : IsMap noConversions tidyCalls "goal-1" := by
  refine (goal_store_is_map_iff noConversions tidyCalls "goal-1" ?_ (by decide)).mpr
    (separate_of_stripped ?_ (by decide))
  · decide
  · decide

/-- Two goals whose ids differ in a blank. -/
def blankCalls : List StoreCall :=
  [.save (storedGoal "goal-1" "tidy up") (by decide), .save (storedGoal " goal-1" "docs") (by decide)]

/-- The second goal is written over the first. -/
theorem ids_with_blanks_share_a_file :
    ¬ ∀ (py : Conversions) (calls : List StoreCall) (goalId : String),
        (∀ c ∈ calls, Accepted c.id) → Accepted goalId → IsMap py calls goalId := by
  intro h
  have hseparate := separate_of_isMap (by decide) (by decide)
    (h noConversions blankCalls "goal-1" (by decide) (by decide))
  exact hseparate.asked (storedGoal " goal-1" "docs") (by decide) (by simp [blankCalls]) (by decide)
    (by decide)

end ForgeKit.Goals
