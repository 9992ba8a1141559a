import ForgeKit.Learning.MistakeLedger
import ForgeKit.Lib.Machine

/-!
# A recorded mistake stays effective

A run of calls leaves a ledger and a log of what the calls that returned were about. Until its row
is resolved, a recorded mistake keeps its row, which counts the calls. But `find_similar` compares
sets of ASCII words, so a signature without one is never similar to anything, and its sort key
takes `last_seen` in ascending order.

* `inv_step` — the rows are what the log says
* `findSimilar_meets_iff` — when a recorded mistake is found, and when the result is in order
-/

namespace ForgeKit

namespace Mistakes

/-! ## Runs -/

/-- What a call that returned was about. -/
inductive Entry where
  | recorded (key : String × String × String) (level : BlockerLevel) (id : ℕ)
  | resolved (id : ℕ)
deriving DecidableEq, Repr

inductive Call where
  | record (a : RecordArgs)
  | resolve (recordId : ℕ) (resolvedAt : Option String) (utcNow : String)
  | prune (cutoffIso : String)

/-- A ledger with the log of its calls. -/
structure Journal where
  ledger : Ledger
  log : List Entry

namespace Journal

def empty : Journal := ⟨.empty, []⟩

def step (s : Journal) : Call → Journal
  | .record a =>
    match s.ledger.recordMistake a with
    | .error _ => s
    | .ok (r, l) => ⟨l, s.log ++ [.recorded r.key a.blockerLevel r.id]⟩
  | .resolve recordId resolvedAt utcNow =>
    ⟨(s.ledger.resolve recordId resolvedAt utcNow).2, s.log ++ [.resolved recordId]⟩
  | .prune cutoffIso => ⟨s.ledger.pruneOldResolved cutoffIso, s.log⟩

end Journal

/-- The levels of the calls that recorded a row, from its creation on. -/
def levelsOf (log : List Entry) (id : ℕ) : List BlockerLevel :=
  log.filterMap fun e => match e with
    | .recorded _ level i => if i = id then some level else none
    | .resolved _ => none

/-- The maximum of some levels. -/
structure IsHighest (level : BlockerLevel) (levels : List BlockerLevel) : Prop where
  mem : level ∈ levels
  le : ∀ l ∈ levels, l.rank ≤ level.rank

/-- Some call recorded the key in a row, and no call resolved the row since. -/
def Effective (log : List Entry) (key : String × String × String) (id : ℕ) : Prop :=
  ∃ pre level post, log = pre ++ .recorded key level id :: post ∧ .resolved id ∉ post

/-! ## Logs -/

theorem levelsOf_append (log log' : List Entry) (id : ℕ) :
    levelsOf (log ++ log') id = levelsOf log id ++ levelsOf log' id := List.filterMap_append

theorem levelsOf_recorded_self (log : List Entry) (key : String × String × String)
    (level : BlockerLevel) (id : ℕ) :
    levelsOf (log ++ [.recorded key level id]) id = levelsOf log id ++ [level] := by
  rw [levelsOf_append]
  simp [levelsOf]

theorem levelsOf_recorded_ne (log : List Entry) (key : String × String × String)
    (level : BlockerLevel) {id id' : ℕ} (h : id ≠ id') :
    levelsOf (log ++ [.recorded key level id]) id' = levelsOf log id' := by
  rw [levelsOf_append]
  simp [levelsOf, h]

theorem levelsOf_resolved (log : List Entry) (id id' : ℕ) :
    levelsOf (log ++ [.resolved id]) id' = levelsOf log id' := by
  rw [levelsOf_append]
  simp [levelsOf]

/-- A row that no call recorded has no levels. -/
theorem levelsOf_eq_nil {log : List Entry} {id : ℕ}
    (h : ∀ key level i, Entry.recorded key level i ∈ log → i < id) : levelsOf log id = [] := by
  refine List.filterMap_eq_nil_iff.mpr fun e he => ?_
  cases e with
  | recorded key level i => exact if_neg (h key level i he).ne
  | resolved i => rfl

/-- The last call made a mistake effective, or it was before and the call did not resolve it. -/
theorem Effective.of_append {log : List Entry} {e : Entry} {key : String × String × String} {id : ℕ}
    (h : Effective (log ++ [e]) key id) :
    (∃ level, e = .recorded key level id) ∨ (Effective log key id ∧ e ≠ .resolved id) := by
  obtain ⟨pre, level, post, hlog, hpost⟩ := h
  rcases List.eq_nil_or_concat post with rfl | ⟨post, last, rfl⟩
  · obtain ⟨-, hlast⟩ := List.append_inj' hlog rfl
    exact .inl ⟨level, (List.cons.inj hlast).1⟩
  · rw [List.concat_eq_append] at hlog hpost
    have hsplit : log ++ [e] = (pre ++ .recorded key level id :: post) ++ [last] := by
      rw [hlog, List.append_assoc, List.cons_append]
    obtain ⟨hinit, hlast⟩ := List.append_inj' hsplit rfl
    obtain rfl := (List.cons.inj hlast).1
    rw [List.mem_append, not_or] at hpost
    exact .inr ⟨⟨pre, level, post, hinit, hpost.1⟩, fun he => hpost.2 (by simp [he])⟩

theorem IsHighest.append {level : BlockerLevel} {levels : List BlockerLevel}
    (h : IsHighest level levels) (new : BlockerLevel) :
    IsHighest (maxBlockerLevel level new) (levels ++ [new]) where
  mem := by
    rcases maxBlockerLevel_cases level new with he | he
    · rw [he]
      exact List.mem_append_left _ h.mem
    · rw [he]
      simp
  le l hl := by
    rw [rank_maxBlockerLevel]
    rcases List.mem_append.mp hl with hl | hl
    · exact (h.le l hl).trans (le_max_left _ _)
    · rw [List.mem_singleton.mp hl]
      exact le_max_right _ _

/-! ## Calls -/

/-- A call of `record_mistake` that returns inserts the row of its key or bumps it. -/
theorem recordMistake_ok {l l' : Ledger} {a : RecordArgs} {r : MistakeRecord}
    (h : l.recordMistake a = .ok (r, l')) :
    (r, l') = l.upsert (keyOf a.role a.pattern a.signature) a
      ∧ PyText.strip a.role ≠ "" ∧ PyText.strip a.signature ≠ "" := by
  unfold Ledger.recordMistake requireNonEmpty at h
  by_cases hrole : PyText.strip a.role = ""
  · rw [if_pos hrole] at h
    cases h
  rw [if_neg hrole] at h
  by_cases hpattern : PyText.strip a.pattern = ""
  · rw [if_pos hpattern] at h
    cases h
  rw [if_neg hpattern] at h
  by_cases hsignature : PyText.strip a.signature = ""
  · rw [if_pos hsignature] at h
    cases h
  rw [if_neg hsignature] at h
  exact ⟨(Except.ok.inj h).symm, hrole, hsignature⟩

theorem mem_updateId {l : Ledger} {id : ℕ} {f : MistakeRecord → MistakeRecord}
    (hf : ∀ r, (f r).key = r.key) {r' : MistakeRecord} :
    r' ∈ (l.updateId id f hf).rows.rows
      ↔ ∃ r ∈ l.rows.rows, (if r.id = id then f r else r) = r' := List.mem_map

/-! ## What the rows are -/

/-- The rows of a ledger are what the log of its calls says. -/
structure Inv (s : Journal) : Prop where
  ids : (s.ledger.rows.rows.map MistakeRecord.id).Nodup
  rowIds : ∀ r ∈ s.ledger.rows.rows, r.id < s.ledger.nextId
  logIds : ∀ key level id, Entry.recorded key level id ∈ s.log → id < s.ledger.nextId
  tally : ∀ r ∈ s.ledger.rows.rows, r.occurrences = (levelsOf s.log r.id).length
    ∧ IsHighest r.blockerLevel (levelsOf s.log r.id)
  nonblank : ∀ r ∈ s.ledger.rows.rows, r.role ≠ "" ∧ r.signature ≠ ""
  effective : ∀ key id, Effective s.log key id →
    ∃ r ∈ s.ledger.rows.rows, r.id = id ∧ r.key = key ∧ r.resolvedAt = none

theorem inv_empty : Inv .empty where
  ids := List.nodup_nil
  rowIds r hr := by cases hr
  logIds key level id h := by cases h
  tally r hr := by cases hr
  nonblank r hr := by cases hr
  effective key id h := by
    obtain ⟨pre, level, post, hlog, -⟩ := h
    cases pre <;> cases hlog

variable {s : Journal}

theorem Inv.insert (h : Inv s) {key : String × String × String} (hrole : key.1 ≠ "")
    (hsignature : key.2.2 ≠ "") (a : RecordArgs) (hfree : s.ledger.rows.find? key = none) :
    Inv ⟨⟨s.ledger.rows.insert (s.ledger.freshRow key a) (Ledger.freshRow_free hfree a),
        s.ledger.nextId + 1⟩,
      s.log ++ [.recorded key a.blockerLevel s.ledger.nextId]⟩ := by
  have hnil : levelsOf s.log s.ledger.nextId = [] := levelsOf_eq_nil h.logIds
  refine ⟨?_, ?_, ?_, ?_, ?_, ?_⟩
  · show ((s.ledger.rows.rows ++ [s.ledger.freshRow key a]).map MistakeRecord.id).Nodup
    rw [List.map_append, List.nodup_append]
    refine ⟨h.ids, List.nodup_singleton _, fun i hi j hj he => ?_⟩
    obtain ⟨r, hr, rfl⟩ := List.mem_map.mp hi
    have hlt := h.rowIds r hr
    have hj : j = s.ledger.nextId := List.mem_singleton.mp hj
    omega
  · intro r hr
    rcases List.mem_append.mp hr with hr | hr
    · exact (h.rowIds r hr).trans (Nat.lt_succ_self _)
    · rw [List.mem_singleton.mp hr]
      exact Nat.lt_succ_self _
  · intro key' level id he
    rcases List.mem_append.mp he with he | he
    · exact (h.logIds key' level id he).trans (Nat.lt_succ_self _)
    · cases List.mem_singleton.mp he
      exact Nat.lt_succ_self _
  · intro r hr
    rcases List.mem_append.mp hr with hr | hr
    · rw [levelsOf_recorded_ne _ _ _ (h.rowIds r hr).ne']
      exact h.tally r hr
    · rw [List.mem_singleton.mp hr]
      have hlevels : levelsOf (s.log ++ [.recorded key a.blockerLevel s.ledger.nextId])
          s.ledger.nextId = [a.blockerLevel] := by
        rw [levelsOf_recorded_self, hnil, List.nil_append]
      show 1 = List.length _ ∧ IsHighest a.blockerLevel _
      dsimp only [Ledger.freshRow]
      rw [hlevels]
      exact ⟨rfl, by simp, by simp⟩
  · intro r hr
    rcases List.mem_append.mp hr with hr | hr
    · exact h.nonblank r hr
    · rw [List.mem_singleton.mp hr]
      exact ⟨hrole, hsignature⟩
  · intro key' id heffective
    rcases heffective.of_append with ⟨level, he⟩ | ⟨hbefore, -⟩
    · cases he
      exact ⟨s.ledger.freshRow key a, List.mem_append_right _ (List.mem_singleton_self _), rfl, rfl,
        rfl⟩
    · obtain ⟨r, hr, hid, hkey, hopen⟩ := h.effective key' id hbefore
      exact ⟨r, List.mem_append_left _ hr, hid, hkey, hopen⟩

/-- The ids of the rows after an update by id. -/
theorem ids_updateId {l : Ledger} {id : ℕ} {f : MistakeRecord → MistakeRecord}
    (hf : ∀ r, (f r).key = r.key) (hid : ∀ r, (f r).id = r.id) :
    (l.updateId id f hf).rows.rows.map MistakeRecord.id = l.rows.rows.map MistakeRecord.id := by
  show (l.rows.rows.map _).map MistakeRecord.id = _
  rw [List.map_map]
  refine List.map_congr_left fun r _ => ?_
  show (if r.id = id then f r else r).id = r.id
  split
  · exact hid r
  · rfl

theorem Inv.bump (h : Inv s) {current : MistakeRecord} (hcurrent : current ∈ s.ledger.rows.rows)
    (a : RecordArgs) :
    Inv ⟨s.ledger.updateId current.id (Ledger.bumped · a) (Ledger.bumped_key a),
      s.log ++ [.recorded current.key a.blockerLevel current.id]⟩ := by
  refine ⟨?_, ?_, ?_, ?_, ?_, ?_⟩
  · show (List.map _ _).Nodup
    rw [ids_updateId (Ledger.bumped_key a) (Ledger.bumped_id a)]
    exact h.ids
  · intro r' hr'
    obtain ⟨r, hr, rfl⟩ := (mem_updateId (Ledger.bumped_key a)).mp hr'
    split
    · exact h.rowIds r hr
    · exact h.rowIds r hr
  · intro key level id he
    rcases List.mem_append.mp he with he | he
    · exact h.logIds key level id he
    · cases List.mem_singleton.mp he
      exact h.rowIds current hcurrent
  · intro r' hr'
    obtain ⟨r, hr, rfl⟩ := (mem_updateId (Ledger.bumped_key a)).mp hr'
    obtain ⟨hcount, hlevel⟩ := h.tally r hr
    by_cases hid : r.id = current.id
    · rw [if_pos hid]
      rw [Ledger.bumped_id, Ledger.bumped_occurrences, Ledger.bumped_blockerLevel, ← hid,
        levelsOf_recorded_self, List.length_append, List.length_singleton, hcount]
      exact ⟨rfl, hlevel.append a.blockerLevel⟩
    · rw [if_neg hid, levelsOf_recorded_ne _ _ _ (Ne.symm hid)]
      exact ⟨hcount, hlevel⟩
  · intro r' hr'
    obtain ⟨r, hr, rfl⟩ := (mem_updateId (Ledger.bumped_key a)).mp hr'
    split
    · exact h.nonblank r hr
    · exact h.nonblank r hr
  · intro key id heffective
    have hkept : ∀ r ∈ s.ledger.rows.rows, r.resolvedAt = none ∨ r.id = current.id →
        ∃ r' ∈ (s.ledger.updateId current.id (Ledger.bumped · a) (Ledger.bumped_key a)).rows.rows,
          r'.id = r.id ∧ r'.key = r.key ∧ r'.resolvedAt = none := by
      intro r hr hopen
      refine ⟨_, (mem_updateId (Ledger.bumped_key a)).mpr ⟨r, hr, rfl⟩, ?_⟩
      by_cases hid : r.id = current.id
      · rw [if_pos hid]
        exact ⟨Ledger.bumped_id a r, Ledger.bumped_key a r, Ledger.bumped_resolvedAt a r⟩
      · rw [if_neg hid]
        exact ⟨rfl, rfl, hopen.resolve_right hid⟩
    rcases heffective.of_append with ⟨level, he⟩ | ⟨hbefore, -⟩
    · cases he
      exact hkept current hcurrent (.inr rfl)
    · obtain ⟨r, hr, rfl, rfl, hopen⟩ := h.effective key id hbefore
      exact hkept r hr (.inl hopen)

theorem Inv.record (h : Inv s) (a : RecordArgs) : Inv (s.step (.record a)) := by
  dsimp only [Journal.step]
  split
  · exact h
  · next r l hrecord =>
    obtain ⟨hupsert, hrole, hsignature⟩ := recordMistake_ok hrecord
    unfold Ledger.upsert at hupsert
    split at hupsert
    · next hfree =>
      cases hupsert
      exact h.insert hrole hsignature a hfree
    · next current hfind =>
      cases hupsert
      exact h.bump (Table.mem_of_find? hfind) a

theorem Inv.resolve (h : Inv s) (recordId : ℕ) (resolvedAt : Option String) (utcNow : String) :
    Inv (s.step (.resolve recordId resolvedAt utcNow)) := by
  -- the entry alone
  have hentry : Inv ⟨s.ledger, s.log ++ [.resolved recordId]⟩ := by
    refine ⟨h.ids, h.rowIds, ?_, ?_, h.nonblank, ?_⟩
    · intro key level id he
      rcases List.mem_append.mp he with he | he
      · exact h.logIds key level id he
      · cases List.mem_singleton.mp he
    · intro r hr
      show r.occurrences = (levelsOf (s.log ++ _) r.id).length ∧ _
      rw [levelsOf_resolved]
      exact h.tally r hr
    · intro key id heffective
      rcases heffective.of_append with ⟨level, he⟩ | ⟨hbefore, -⟩
      · cases he
      · exact h.effective key id hbefore
  dsimp only [Journal.step]
  unfold Ledger.resolve
  split
  · exact hentry
  · dsimp only
    split
    · exact hentry
    · refine ⟨?_, ?_, hentry.logIds, ?_, ?_, ?_⟩
      · show (List.map _ _).Nodup
        rw [ids_updateId (Ledger.closed_key _) (Ledger.closed_id _)]
        exact h.ids
      · intro r' hr'
        obtain ⟨r, hr, rfl⟩ := (mem_updateId (Ledger.closed_key _)).mp hr'
        split
        · exact h.rowIds r hr
        · exact h.rowIds r hr
      · intro r' hr'
        obtain ⟨r, hr, rfl⟩ := (mem_updateId (Ledger.closed_key _)).mp hr'
        split
        · exact hentry.tally r hr
        · exact hentry.tally r hr
      · intro r' hr'
        obtain ⟨r, hr, rfl⟩ := (mem_updateId (Ledger.closed_key _)).mp hr'
        split
        · exact h.nonblank r hr
        · exact h.nonblank r hr
      · intro key id heffective
        rcases heffective.of_append with ⟨level, he⟩ | ⟨hbefore, hne⟩
        · cases he
        · obtain ⟨r, hr, hid, hkey, hopen⟩ := h.effective key id hbefore
          have hother : r.id ≠ recordId := fun he => hne (by rw [← hid, he])
          exact ⟨r, (mem_updateId (Ledger.closed_key _)).mpr ⟨r, hr, if_neg hother⟩, hid, hkey, hopen⟩

theorem Inv.prune (h : Inv s) (cutoffIso : String) : Inv (s.step (.prune cutoffIso)) := by
  have hmem : ∀ r ∈ (s.ledger.pruneOldResolved cutoffIso).rows.rows, r ∈ s.ledger.rows.rows :=
    fun r hr => (List.mem_filter.mp hr).1
  refine ⟨?_, fun r hr => h.rowIds r (hmem r hr), h.logIds, fun r hr => h.tally r (hmem r hr),
    fun r hr => h.nonblank r (hmem r hr), ?_⟩
  · exact h.ids.sublist (List.filter_sublist.map _)
  · intro key id heffective
    obtain ⟨r, hr, hid, hkey, hopen⟩ := h.effective key id heffective
    exact ⟨r, List.mem_filter.mpr ⟨hr, by simp [hopen]⟩, hid, hkey, hopen⟩

theorem inv_step (h : Inv s) (c : Call) : Inv (s.step c) := by
  cases c with
  | record a => exact h.record a
  | resolve recordId resolvedAt utcNow => exact h.resolve recordId resolvedAt utcNow
  | prune cutoffIso => exact h.prune cutoffIso

/-! ## What `find_similar` returns -/

/-- The row of a recorded mistake, with all its calls counted, is among what `find_similar` returns. -/
def Found (s : Journal) (role signature : String) (threshold : ℚ)
    (key : String × String × String) (id : ℕ) : Prop :=
  ∃ r ∈ s.ledger.findSimilar role signature threshold false, r.id = id ∧ r.key = key
    ∧ r.occurrences = (levelsOf s.log id).length ∧ IsHighest r.blockerLevel (levelsOf s.log id)

/-- By similarity to the signature, then occurrences, then `last_seen`, all descending. -/
def Before (signature : String) (r r' : MistakeRecord) : Prop :=
  jaccardSimilarity r'.signature signature < jaccardSimilarity r.signature signature
    ∨ jaccardSimilarity r.signature signature = jaccardSimilarity r'.signature signature
      ∧ (r'.occurrences < r.occurrences
        ∨ r.occurrences = r'.occurrences ∧ r'.lastSeen ≤ r.lastSeen)

instance (signature : String) : DecidableRel (Before signature) := fun r r' =>
  inferInstanceAs (Decidable
    (jaccardSimilarity r'.signature signature < jaccardSimilarity r.signature signature
      ∨ jaccardSimilarity r.signature signature = jaccardSimilarity r'.signature signature
        ∧ (r'.occurrences < r.occurrences
          ∨ r.occurrences = r'.occurrences ∧ r'.lastSeen ≤ r.lastSeen)))

/-- Where similarity and occurrences are the same, `last_seen` is. -/
def SeenAlike (signature : String) (r r' : MistakeRecord) : Prop :=
  jaccardSimilarity r.signature signature = jaccardSimilarity r'.signature signature →
    r.occurrences = r'.occurrences → r.lastSeen = r'.lastSeen

theorem SeenAlike.symm {signature : String} {r r' : MistakeRecord} (h : SeenAlike signature r r') :
    SeenAlike signature r' r := fun hscore hcount => (h hscore.symm hcount.symm).symm

/-- No two rows that are selected differ in `last_seen` only. -/
def Untied (l : Ledger) (role signature : String) (threshold : ℚ) (includeResolved : Bool) : Prop :=
  PyText.strip role ≠ "" → PyText.strip signature ≠ "" →
    ∀ r ∈ l.rows.rows, ∀ r' ∈ l.rows.rows,
      Ledger.selects (PyText.strip role) (PyText.strip signature) threshold includeResolved r = true →
      Ledger.selects (PyText.strip role) (PyText.strip signature) threshold includeResolved r' = true →
      SeenAlike signature r r'

theorem mem_findSimilar {l : Ledger} {role signature : String} {threshold : ℚ} {includeResolved : Bool}
    {r : MistakeRecord} :
    r ∈ l.findSimilar role signature threshold includeResolved
      ↔ PyText.strip role ≠ "" ∧ PyText.strip signature ≠ "" ∧ ∃ row ∈ l.rows.rows,
        Ledger.selects (PyText.strip role) (PyText.strip signature) threshold includeResolved row = true
          ∧ rowToRecord row = r := by
  unfold Ledger.findSimilar
  by_cases hrole : PyText.strip role = ""
  · simp [hrole]
  by_cases hsignature : PyText.strip signature = ""
  · simp [hsignature]
  rw [if_neg hrole, if_neg hsignature, List.mem_insertionSort]
  simp only [List.mem_map, List.mem_filter, and_assoc, ne_eq, hrole, hsignature, not_false_eq_true,
    true_and]

/-- **A recorded mistake is found exactly when its signature has a word of ASCII letters and
digits, or everything is similar enough.** -/
theorem found_iff (h : Inv s) {role pattern signature : String} {id : ℕ}
    (heffective : Effective s.log (keyOf role pattern signature) id) {threshold : ℚ}
    (hthreshold : threshold ≤ 1) :
    Found s role signature threshold (keyOf role pattern signature) id
      ↔ tokenize signature ≠ ∅ ∨ threshold ≤ 0 := by
  obtain ⟨row, hrow, hid, hkey, hopen⟩ := h.effective _ id heffective
  obtain ⟨hrole, hsignature⟩ := h.nonblank row hrow
  obtain ⟨hcount, hlevel⟩ := h.tally row hrow
  have hrowRole : row.role = PyText.strip role := congrArg Prod.fst hkey
  have hrowSignature : row.signature = PyText.strip signature :=
    congrArg (fun key : String × String × String => key.2.2) hkey
  constructor
  · rintro ⟨r, hr, -, hkey', -, -⟩
    obtain ⟨-, -, row', -, hselects, rfl⟩ := mem_findSimilar.mp hr
    have hsame : row'.signature = PyText.strip signature :=
      congrArg (fun key : String × String × String => key.2.2) hkey'
    by_contra hnot
    rw [not_or, not_not, not_le] at hnot
    obtain ⟨hnone, hpos⟩ := hnot
    simp only [Ledger.selects, Bool.and_eq_true, decide_eq_true_eq] at hselects
    rw [hsame, jaccardSimilarity_strip, jaccardSimilarity_of_no_tokens hnone] at hselects
    exact absurd ((le_max_right 0 threshold).trans hselects.2) (not_le.mpr hpos)
  · intro hcond
    have hscore : max 0 threshold ≤ jaccardSimilarity signature signature := by
      by_cases hnone : tokenize signature = ∅
      · rw [jaccardSimilarity_of_no_tokens hnone]
        exact max_le le_rfl (hcond.resolve_left (not_not.mpr hnone))
      · rw [jaccardSimilarity_self hnone]
        exact max_le zero_le_one hthreshold
    refine ⟨rowToRecord row, mem_findSimilar.mpr ?_, hid, hkey, ?_, ?_⟩
    · refine ⟨hrowRole ▸ hrole, hrowSignature ▸ hsignature, row, hrow, ?_, rfl⟩
      simp only [Ledger.selects, Bool.and_eq_true, decide_eq_true_eq, hrowRole, hopen,
        Option.isNone_none, Bool.or_true, hrowSignature, jaccardSimilarity_strip]
      exact ⟨⟨trivial, trivial⟩, hscore⟩
    · rw [← hid]
      exact hcount
    · rw [← hid]
      exact hlevel

/-! ## The order of the result -/

theorem jaccardSimilarity_strip_right (a b : String) :
    jaccardSimilarity a (PyText.strip b) = jaccardSimilarity a b := by
  simp only [jaccardSimilarity, tokenize_strip]

/-- What the sort key says of two records. -/
theorem sortKey_le_iff {signature : String} {r r' : MistakeRecord} :
    Ledger.sortKey (PyText.strip signature) r ≤ Ledger.sortKey (PyText.strip signature) r'
      ↔ jaccardSimilarity r'.signature signature < jaccardSimilarity r.signature signature
        ∨ jaccardSimilarity r.signature signature = jaccardSimilarity r'.signature signature
          ∧ (r'.occurrences < r.occurrences
            ∨ r.occurrences = r'.occurrences ∧ r.lastSeen ≤ r'.lastSeen) := by
  unfold Ledger.sortKey
  rw [Prod.Lex.toLex_le_toLex, Prod.Lex.toLex_le_toLex, jaccardSimilarity_strip_right,
    jaccardSimilarity_strip_right, neg_lt_neg_iff, neg_inj, neg_lt_neg_iff, neg_inj, Nat.cast_lt,
    Nat.cast_inj]

/-- **The result is in order exactly when no two of its rows differ in `last_seen` only.** -/
theorem pairwise_before_iff (l : Ledger) (role signature : String) (threshold : ℚ)
    (includeResolved : Bool) :
    (l.findSimilar role signature threshold includeResolved).Pairwise (Before signature)
      ↔ Untied l role signature threshold includeResolved := by
  have htotal : Std.Total fun r r' : MistakeRecord =>
      Ledger.sortKey (PyText.strip signature) r ≤ Ledger.sortKey (PyText.strip signature) r' :=
    ⟨fun _ _ => le_total _ _⟩
  have htrans : IsTrans MistakeRecord fun r r' =>
      Ledger.sortKey (PyText.strip signature) r ≤ Ledger.sortKey (PyText.strip signature) r' :=
    ⟨fun _ _ _ => le_trans⟩
  have hsorted : (l.findSimilar role signature threshold includeResolved).Pairwise fun r r' =>
      Ledger.sortKey (PyText.strip signature) r ≤ Ledger.sortKey (PyText.strip signature) r' := by
    unfold Ledger.findSimilar
    split
    · exact List.Pairwise.nil
    · split
      · exact List.Pairwise.nil
      · exact List.pairwise_insertionSort _ _
  constructor
  · intro hordered hrole hsignature r hr r' hr' hselects hselects'
    have halike := (hsorted.and hordered).imp (S := SeenAlike signature) (by
      intro r r' h hscore hcount
      obtain ⟨hkey, hbefore⟩ := h
      rw [sortKey_le_iff] at hkey
      unfold Before at hbefore
      simp only [hscore, lt_irrefl, hcount, false_or, true_and] at hkey hbefore
      exact le_antisymm hkey hbefore)
    have hmem : rowToRecord r ∈ l.findSimilar role signature threshold includeResolved :=
      mem_findSimilar.mpr ⟨hrole, hsignature, r, hr, hselects, rfl⟩
    have hmem' : rowToRecord r' ∈ l.findSimilar role signature threshold includeResolved :=
      mem_findSimilar.mpr ⟨hrole, hsignature, r', hr', hselects', rfl⟩
    have hsame : SeenAlike signature (rowToRecord r) (rowToRecord r') :=
      halike.forall_of_forall_of_flip (fun _ _ _ _ => rfl) (halike.imp SeenAlike.symm) hmem hmem'
    exact hsame
  · intro huntied
    refine hsorted.imp_of_mem fun {r r'} hmem hmem' hkey => ?_
    obtain ⟨hrole, hsignature, row, hrow, hselects, rfl⟩ := mem_findSimilar.mp hmem
    obtain ⟨-, -, row', hrow', hselects', rfl⟩ := mem_findSimilar.mp hmem'
    rcases sortKey_le_iff.mp hkey with hlt | ⟨hscore, hlt | ⟨hcount, -⟩⟩
    · exact .inl hlt
    · exact .inr ⟨hscore, .inl hlt⟩
    · have hlast := huntied hrole hsignature row hrow row' hrow' hselects hselects' hscore hcount
      exact .inr ⟨hscore, .inr ⟨hcount, hlast.ge⟩⟩

/-! ## Every run -/

/--
**A recorded mistake stays effective until it is resolved.**

In the ledger that any calls lead to, a mistake that was recorded in a row and not resolved since is
found with all its calls counted exactly when its signature has a word of ASCII letters and digits
or the threshold lets everything pass. A result is in the order of its docstring exactly when no two
of its rows differ in `last_seen` only.
-/
theorem findSimilar_meets_iff (calls : List Call) (role : String) (threshold : ℚ)
    (hthreshold : threshold ≤ 1) :
    let s := Machine.run Journal.step .empty calls
    (∀ pattern signature id, Effective s.log (keyOf role pattern signature) id →
        (Found s role signature threshold (keyOf role pattern signature) id
          ↔ tokenize signature ≠ ∅ ∨ threshold ≤ 0))
      ∧ ∀ signature includeResolved,
        (s.ledger.findSimilar role signature threshold includeResolved).Pairwise (Before signature)
          ↔ Untied s.ledger role signature threshold includeResolved := by
  intro s
  have hinv : Inv s := Machine.run_of_step (A := fun _ : Call => True) (I := Inv)
    (fun _ c _ h => inv_step h c) inv_empty fun _ _ => trivial
  exact ⟨fun pattern signature id heffective => found_iff hinv heffective hthreshold,
    fun signature includeResolved =>
      pairwise_before_iff s.ledger role signature threshold includeResolved⟩

/-- A call of `record_mistake` by the reviewer. -/
def recordAs (signature when_ : String) : Call :=
  .record { role := "reviewer", pattern := "ci", signature, when_ := some when_, utcNow := when_ }

/-- A signature in words that the tokenizer reads is found. -/
theorem findSimilar_meets_ascii :
    Found (Machine.run Journal.step .empty [recordAs "test failed" "2026-01-01"]) "reviewer"
      "test failed" 1 (keyOf "reviewer" "ci" "test failed") 0 := by
  have hmeets := (findSimilar_meets_iff [recordAs "test failed" "2026-01-01"] "reviewer" 1 le_rfl).1
    "ci" "test failed" 0
  refine (hmeets ⟨[], .advisory, [], by decide +kernel, by simp⟩).mpr (.inl ?_)
  decide +kernel

/-- **A Korean signature is never found**, and of two mistakes that are as similar and as frequent
the older one comes first. -/
theorem korean_mistake_is_missed :
    let korean := Machine.run Journal.step .empty [recordAs "테스트 실패" "2026-01-01"]
    let twice := Machine.run Journal.step .empty
      [recordAs "ci red" "2026-01-01", recordAs "red ci" "2026-01-02"]
    Effective korean.log (keyOf "reviewer" "ci" "테스트 실패") 0
      ∧ ¬Found korean "reviewer" "테스트 실패" (7 / 10) (keyOf "reviewer" "ci" "테스트 실패") 0
      ∧ ¬(twice.ledger.findSimilar "reviewer" "ci red" (7 / 10) false).Pairwise (Before "ci red") := by
  intro korean twice
  have hnone : korean.ledger.findSimilar "reviewer" "테스트 실패" (7 / 10) false = [] := by
    decide +kernel
  refine ⟨⟨[], .advisory, [], by decide +kernel, by simp⟩, ?_, by decide +kernel⟩
  rintro ⟨r, hr, -⟩
  rw [hnone] at hr
  cases hr

end Mistakes

end ForgeKit
