import Mathlib.Data.List.Count
import Mathlib.Data.List.Nodup
import Mathlib.Data.Multiset.MapFold

/-!
# An index beside its content table

Rows get a fresh id each time they are written, and an index holds an entry for each id. The index
changes only by statements of its own: a write that replaces the row of a key drops the row and
leaves its entry behind.

* `put`, `wipe`, `reslice` — a write, the removal of a slice with its entries, a slice written anew
* `inStep_foldl_put_iff` — writes keep the index in step exactly when none of them replaces a row
* `countP_reslice_iff` — a slice holds as many rows as were written exactly when no key comes twice
* `searchState_reslice_iff` — so does writing a slice twice leave the same search state
-/

/-- Rows under fresh ids, and the entries of their index. -/
structure ContentIndex (ρ τ : Type*) where
  rows : List (ℕ × ρ)
  entries : List (ℕ × τ)
  next : ℕ

namespace ContentIndex

variable {κ ρ τ : Type*} (key : ρ → κ) (tokens : ρ → τ)

def empty : ContentIndex ρ τ := ⟨[], [], 0⟩

/-- The ids of a slice. -/
def sliceIds (p : ρ → Bool) (x : ContentIndex ρ τ) : List ℕ :=
  (x.rows.filter fun row => p row.2).map Prod.fst

/-- The rows of a slice are removed, and the entries that have their ids. -/
def wipe (p : ρ → Bool) (x : ContentIndex ρ τ) : ContentIndex ρ τ where
  rows := x.rows.filter fun row => !p row.2
  entries := x.entries.filter fun e => e.1 ∉ x.sliceIds p
  next := x.next

/-- The entry of a row. -/
def entryOf (row : ℕ × ρ) : ℕ × τ := (row.1, tokens row.2)

/-- The entries are those of the rows. -/
def InStep (x : ContentIndex ρ τ) : Prop := x.entries.Perm (x.rows.map (entryOf tokens))

instance [DecidableEq τ] (x : ContentIndex ρ τ) : Decidable (InStep tokens x) :=
  inferInstanceAs (Decidable (List.Perm _ _))

/-- The row that an entry is joined with. -/
def rowOf (x : ContentIndex ρ τ) (id : ℕ) : Option ρ :=
  (x.rows.find? fun row => row.1 = id).map Prod.snd

/-- What a search can see: the tokens of each entry with the row that it is joined with. -/
def searchState (x : ContentIndex ρ τ) : Multiset (Option ρ × τ) :=
  x.entries.map fun e => (x.rowOf e.1, e.2)

/-! ## What always holds -/

/-- Every row has its entry, and ids and keys are used once. -/
structure Wf (x : ContentIndex ρ τ) : Prop where
  covered : (x.rows.map (entryOf tokens)).Sublist x.entries
  ids : (x.entries.map Prod.fst).Nodup
  lt : ∀ e ∈ x.entries, e.1 < x.next
  keys : (x.rows.map fun row => key row.2).Nodup

variable {key tokens} {x : ContentIndex ρ τ}

theorem wf_empty : Wf key tokens (empty : ContentIndex ρ τ) :=
  ⟨List.Sublist.refl _, List.nodup_nil, by simp [empty], List.nodup_nil⟩

variable (tokens) in
theorem map_fst_entryOf (rows : List (ℕ × ρ)) :
    (rows.map (entryOf tokens)).map Prod.fst = rows.map Prod.fst := by
  rw [List.map_map]
  rfl

theorem Wf.rowIds (h : Wf key tokens x) : (x.rows.map Prod.fst).Nodup := by
  rw [← map_fst_entryOf tokens]
  exact h.ids.sublist (h.covered.map Prod.fst)

theorem Wf.row_lt (h : Wf key tokens x) {row : ℕ × ρ} (hrow : row ∈ x.rows) : row.1 < x.next :=
  h.lt (entryOf tokens row) (h.covered.subset (List.mem_map_of_mem hrow))

/-- The rows of a slice are those whose ids the slice has. -/
theorem Wf.mem_sliceIds (h : Wf key tokens x) (p : ρ → Bool) {row : ℕ × ρ} (hrow : row ∈ x.rows) :
    row.1 ∈ x.sliceIds p ↔ p row.2 = true := by
  unfold sliceIds
  rw [List.mem_map]
  constructor
  · rintro ⟨row', hrow', hid⟩
    obtain ⟨hmem, hp⟩ := List.mem_filter.mp hrow'
    rw [← List.inj_on_of_nodup_map h.rowIds hmem hrow hid]
    exact hp
  · intro hp
    exact ⟨row, List.mem_filter.mpr ⟨hrow, hp⟩, rfl⟩

theorem Wf.map_wipe (h : Wf key tokens x) (p : ρ → Bool) :
    (x.wipe p).rows.map (entryOf tokens)
      = (x.rows.map (entryOf tokens)).filter fun e => e.1 ∉ x.sliceIds p := by
  rw [List.filter_map]
  congr 1
  refine List.filter_congr fun row hrow => ?_
  have hiff := h.mem_sliceIds p hrow
  show (!p row.2) = decide (row.1 ∉ x.sliceIds p)
  by_cases hp : p row.2 = true
  · simp [hp, hiff.mpr hp]
  · have hout : row.1 ∉ x.sliceIds p := fun hin => hp (hiff.mp hin)
    simp [hp, hout]

theorem Wf.wipe (h : Wf key tokens x) (p : ρ → Bool) : Wf key tokens (x.wipe p) where
  covered := by
    rw [h.map_wipe p]
    exact h.covered.filter _
  ids := h.ids.sublist (List.filter_sublist.map _)
  lt e he := h.lt e (List.mem_filter.mp he).1
  keys := h.keys.sublist (List.filter_sublist.map _)

/-- The index is in step when it has no entry too many. -/
theorem Wf.inStep_iff (h : Wf key tokens x) : InStep tokens x ↔ x.entries.length = x.rows.length := by
  constructor
  · intro hstep
    rw [hstep.length_eq, List.length_map]
  · intro hlen
    have hsame : x.rows.map (entryOf tokens) = x.entries :=
      h.covered.eq_of_length (by rw [List.length_map, hlen])
    unfold InStep
    rw [hsame]

/-- **Removing a slice keeps the index in step.** -/
theorem Wf.inStep_wipe (h : Wf key tokens x) (hstep : InStep tokens x) (p : ρ → Bool) :
    InStep tokens (x.wipe p) := by
  unfold InStep
  rw [h.map_wipe p]
  exact hstep.filter _

/-- What a removed slice takes from the entries. -/
theorem Wf.length_wipe (h : Wf key tokens x) (p : ρ → Bool) :
    (x.wipe p).entries.length + x.rows.countP (fun row => p row.2) = x.entries.length := by
  have hslice : (x.sliceIds p).length = x.rows.countP fun row => p row.2 := by
    rw [sliceIds, List.length_map, List.countP_eq_length_filter]
  have hnodup : (x.sliceIds p).Nodup := h.rowIds.sublist (List.filter_sublist.map _)
  have hsub : ∀ id ∈ x.sliceIds p, id ∈ x.entries.map Prod.fst := by
    intro id hid
    obtain ⟨row, hrow, rfl⟩ := List.mem_map.mp hid
    have hmem := h.covered.subset (List.mem_map_of_mem (List.mem_filter.mp hrow).1)
    exact List.mem_map.mpr ⟨_, hmem, rfl⟩
  have hperm : ((x.entries.filter fun e => e.1 ∈ x.sliceIds p).map Prod.fst).Perm (x.sliceIds p) := by
    refine (List.perm_ext_iff_of_nodup (h.ids.sublist (List.filter_sublist.map _)) hnodup).mpr ?_
    intro id
    constructor
    · intro hid
      obtain ⟨e, he, rfl⟩ := List.mem_map.mp hid
      simpa using (List.mem_filter.mp he).2
    · intro hid
      obtain ⟨e, he, rfl⟩ := List.mem_map.mp (hsub id hid)
      exact List.mem_map.mpr ⟨e, List.mem_filter.mpr ⟨he, by simpa using hid⟩, rfl⟩
  have hlen := hperm.length_eq
  rw [List.length_map, hslice] at hlen
  have hsplit := List.length_eq_length_filter_add (l := x.entries) fun e => decide (e.1 ∈ x.sliceIds p)
  have hwipe : (x.wipe p).entries.length
      = (x.entries.filter fun e => !decide (e.1 ∈ x.sliceIds p)).length := by
    show (List.filter _ _).length = _
    congr 1
    refine List.filter_congr fun e _ => ?_
    simp
  omega

/-! ## Writes -/

variable [DecidableEq κ] (key tokens)

/-- A write: the row of the key is replaced, under a fresh id, and the new row gets its entry. -/
def put (x : ContentIndex ρ τ) (r : ρ) : ContentIndex ρ τ where
  rows := (x.rows.filter fun row => key row.2 ≠ key r) ++ [(x.next, r)]
  entries := x.entries ++ [(x.next, tokens r)]
  next := x.next + 1

/-- A slice is removed and written anew. -/
def reslice (p : ρ → Bool) (rs : List ρ) (x : ContentIndex ρ τ) : ContentIndex ρ τ :=
  rs.foldl (put key tokens) (x.wipe p)

variable {key tokens}

theorem Wf.put (h : Wf key tokens x) (r : ρ) : Wf key tokens (x.put key tokens r) where
  covered := by
    have hkept : ((x.rows.filter fun row => decide (key row.2 ≠ key r)).map
        (entryOf tokens)).Sublist x.entries := (List.filter_sublist.map _).trans h.covered
    show List.Sublist (List.map _ (_ ++ _)) _
    rw [List.map_append]
    exact hkept.append (List.Sublist.refl _)
  ids := by
    show (List.map _ (_ ++ _)).Nodup
    rw [List.map_append, List.nodup_append]
    refine ⟨h.ids, List.nodup_singleton _, fun i hi j hj he => ?_⟩
    obtain ⟨e, hmem, rfl⟩ := List.mem_map.mp hi
    have hj : j = x.next := List.mem_singleton.mp hj
    exact (h.lt e hmem).ne (he.trans hj)
  lt e he := by
    rcases List.mem_append.mp he with he | he
    · exact (h.lt e he).trans (Nat.lt_succ_self _)
    · rw [List.mem_singleton.mp he]
      exact Nat.lt_succ_self _
  keys := by
    show (List.map _ (_ ++ _)).Nodup
    rw [List.map_append, List.nodup_append]
    refine ⟨h.keys.sublist (List.filter_sublist.map _), List.nodup_singleton _, fun k hk k' hk' he => ?_⟩
    obtain ⟨row, hrow, rfl⟩ := List.mem_map.mp hk
    have hne : key row.2 ≠ key r := by simpa using (List.mem_filter.mp hrow).2
    exact hne (he.trans (List.mem_singleton.mp hk'))

theorem Wf.foldl_put (h : Wf key tokens x) (rs : List ρ) :
    Wf key tokens (rs.foldl (ContentIndex.put key tokens) x) := by
  induction rs generalizing x with
  | nil => exact h
  | cons r rs ih => exact ih (h.put r)

theorem Wf.reslice (h : Wf key tokens x) (p : ρ → Bool) (rs : List ρ) :
    Wf key tokens (x.reslice key tokens p rs) := (h.wipe p).foldl_put rs

/-- **A write keeps the index in step exactly when it replaces no row.** -/
theorem Wf.inStep_put_iff (h : Wf key tokens x) (r : ρ) :
    InStep tokens (x.put key tokens r) ↔ InStep tokens x ∧ ∀ row ∈ x.rows, key row.2 ≠ key r := by
  rw [(h.put r).inStep_iff, h.inStep_iff]
  have hcovered : x.rows.length ≤ x.entries.length := by
    simpa using h.covered.length_le
  have hkept : (x.rows.filter fun row => decide (key row.2 ≠ key r)).length ≤ x.rows.length :=
    List.length_filter_le _ _
  have hlen : (x.put key tokens r).entries.length = x.entries.length + 1 := List.length_append
  have hrows : (x.put key tokens r).rows.length
      = (x.rows.filter fun row => decide (key row.2 ≠ key r)).length + 1 := List.length_append
  have hall : (x.rows.filter fun row => decide (key row.2 ≠ key r)).length = x.rows.length
      ↔ ∀ row ∈ x.rows, key row.2 ≠ key r := by
    rw [List.length_filter_eq_length_iff]
    simp
  rw [hlen, hrows, ← hall]
  omega

/-- The keys after a write. -/
theorem mem_rows_put {r : ρ} {row : ℕ × ρ} (h : row ∈ (x.put key tokens r).rows) :
    (row ∈ x.rows ∧ key row.2 ≠ key r) ∨ row = (x.next, r) := by
  rcases List.mem_append.mp h with h | h
  · obtain ⟨hmem, hne⟩ := List.mem_filter.mp h
    exact .inl ⟨hmem, by simpa using hne⟩
  · exact .inr (List.mem_singleton.mp h)

/-- **Writes keep the index in step exactly when none of them replaces a row.** -/
theorem Wf.inStep_foldl_put_iff (h : Wf key tokens x) (rs : List ρ) :
    InStep tokens (rs.foldl (ContentIndex.put key tokens) x) ↔
      InStep tokens x ∧ (rs.map key).Nodup ∧ ∀ r ∈ rs, ∀ row ∈ x.rows, key row.2 ≠ key r := by
  induction rs generalizing x with
  | nil => simp
  | cons r rs ih =>
    rw [List.foldl_cons, ih (h.put r), h.inStep_put_iff r, List.map_cons, List.nodup_cons]
    have hnew : (x.next, r) ∈ (x.put key tokens r).rows :=
      List.mem_append_right _ (List.mem_singleton_self _)
    constructor
    · rintro ⟨⟨hstep, hfree⟩, hnodup, hrest⟩
      refine ⟨hstep, ⟨?_, hnodup⟩, ?_⟩
      · intro hmem
        obtain ⟨r', hr', he⟩ := List.mem_map.mp hmem
        exact hrest r' hr' _ hnew he.symm
      · intro r' hr' row hrow
        rcases List.mem_cons.mp hr' with rfl | hr'
        · exact hfree row hrow
        · refine hrest r' hr' row (List.mem_append_left _ (List.mem_filter.mpr ⟨hrow, ?_⟩))
          simpa using hfree row hrow
    · rintro ⟨hstep, ⟨hfirst, hnodup⟩, hrest⟩
      refine ⟨⟨hstep, hrest r List.mem_cons_self⟩, hnodup, fun r' hr' row hrow => ?_⟩
      rcases mem_rows_put hrow with ⟨hrow, -⟩ | rfl
      · exact hrest r' (List.mem_cons_of_mem _ hr') row hrow
      · exact fun he => hfirst (List.mem_map.mpr ⟨r', hr', he.symm⟩)

/-! ## The size of a slice -/

variable (x key tokens) in
/-- What a write adds to a slice that its row belongs to. -/
theorem countP_put {p : ρ → Bool} {r : ρ} (hr : p r = true) :
    (x.put key tokens r).rows.countP (fun row => p row.2) ≤ x.rows.countP (fun row => p row.2) + 1
      ∧ ((x.put key tokens r).rows.countP (fun row => p row.2)
          = x.rows.countP (fun row => p row.2) + 1
        ↔ ∀ row ∈ x.rows, p row.2 = true → key row.2 ≠ key r) := by
  have hput : (x.put key tokens r).rows.countP (fun row => p row.2)
      = (x.rows.filter fun row => decide (key row.2 ≠ key r)).countP (fun row => p row.2) + 1 := by
    show List.countP _ (_ ++ _) = _
    rw [List.countP_append]
    simp [hr]
  have hle : (x.rows.filter fun row => decide (key row.2 ≠ key r)).countP (fun row => p row.2)
      ≤ x.rows.countP fun row => p row.2 := List.filter_sublist.countP_le
  refine ⟨by omega, ?_⟩
  have hiff : (x.rows.filter fun row => decide (key row.2 ≠ key r)).countP (fun row => p row.2)
      = x.rows.countP (fun row => p row.2)
        ↔ ∀ row ∈ x.rows, p row.2 = true → key row.2 ≠ key r := by
    rw [List.countP_eq_length_filter, List.countP_eq_length_filter, List.filter_comm,
      List.length_filter_eq_length_iff]
    simp only [List.mem_filter, decide_eq_true_eq, and_imp]
  rw [hput, ← hiff]
  omega

variable (x key tokens) in
/-- What some writes add to a slice that their rows belong to. -/
theorem countP_foldl_put {p : ρ → Bool} {rs : List ρ} (hrs : ∀ r ∈ rs, p r = true) :
    (rs.foldl (put key tokens) x).rows.countP (fun row => p row.2)
        ≤ x.rows.countP (fun row => p row.2) + rs.length
      ∧ ((rs.foldl (put key tokens) x).rows.countP (fun row => p row.2)
          = x.rows.countP (fun row => p row.2) + rs.length
        ↔ (rs.map key).Nodup ∧ ∀ r ∈ rs, ∀ row ∈ x.rows, p row.2 = true → key row.2 ≠ key r) := by
  induction rs generalizing x with
  | nil => simp
  | cons r rs ih =>
    have hr := hrs r List.mem_cons_self
    obtain ⟨hputLe, hputEq⟩ := countP_put key tokens x hr
    obtain ⟨hfoldLe, hfoldEq⟩ := ih (x := x.put key tokens r)
      fun r' hr' => hrs r' (List.mem_cons_of_mem _ hr')
    rw [List.foldl_cons, List.length_cons]
    refine ⟨by omega, ?_⟩
    have hboth : (rs.foldl (put key tokens) (x.put key tokens r)).rows.countP (fun row => p row.2)
          = x.rows.countP (fun row => p row.2) + (rs.length + 1)
        ↔ (x.put key tokens r).rows.countP (fun row => p row.2)
            = x.rows.countP (fun row => p row.2) + 1
          ∧ (rs.foldl (put key tokens) (x.put key tokens r)).rows.countP (fun row => p row.2)
            = (x.put key tokens r).rows.countP (fun row => p row.2) + rs.length := by
      omega
    rw [hboth, hputEq, hfoldEq, List.map_cons, List.nodup_cons]
    have hnew : (x.next, r) ∈ (x.put key tokens r).rows :=
      List.mem_append_right _ (List.mem_singleton_self _)
    constructor
    · rintro ⟨hfree, hnodup, hrest⟩
      refine ⟨⟨fun hmem => ?_, hnodup⟩, fun r' hr' row hrow hp => ?_⟩
      · obtain ⟨r', hr', he⟩ := List.mem_map.mp hmem
        exact hrest r' hr' _ hnew hr he.symm
      · rcases List.mem_cons.mp hr' with rfl | hr'
        · exact hfree row hrow hp
        · refine hrest r' hr' row (List.mem_append_left _ (List.mem_filter.mpr ⟨hrow, ?_⟩)) hp
          simpa using hfree row hrow hp
    · rintro ⟨⟨hfirst, hnodup⟩, hrest⟩
      refine ⟨fun row hrow hp => hrest r List.mem_cons_self row hrow hp, hnodup,
        fun r' hr' row hrow hp => ?_⟩
      rcases mem_rows_put hrow with ⟨hrow, -⟩ | rfl
      · exact hrest r' (List.mem_cons_of_mem _ hr') row hrow hp
      · exact fun he => hfirst (List.mem_map.mpr ⟨r', hr', he.symm⟩)

theorem countP_wipe (p : ρ → Bool) : (x.wipe p).rows.countP (fun row => p row.2) = 0 := by
  rw [List.countP_eq_zero]
  intro row hrow
  simpa using (List.mem_filter.mp hrow).2

variable (x key tokens) in
/-- **A slice holds as many rows as were written exactly when no key was written twice.** -/
theorem countP_reslice_iff {p : ρ → Bool} {rs : List ρ} (hrs : ∀ r ∈ rs, p r = true) :
    (x.reslice key tokens p rs).rows.countP (fun row => p row.2) = rs.length
      ↔ (rs.map key).Nodup := by
  have hfold := (countP_foldl_put key tokens (x.wipe p) hrs).2
  rw [countP_wipe, Nat.zero_add] at hfold
  have hnone : ∀ r ∈ rs, ∀ row ∈ (x.wipe p).rows, p row.2 = true → key row.2 ≠ key r := by
    intro r _ row hrow hp
    have hnot := (List.mem_filter.mp hrow).2
    rw [hp] at hnot
    cases hnot
  exact hfold.trans (and_iff_left hnone)

/-! ## The search state -/

/-- Rows under the ids from `n` on. -/
def numbered (n : ℕ) : List ρ → List (ℕ × ρ)
  | [] => []
  | r :: rs => (n, r) :: numbered (n + 1) rs

theorem le_of_mem_numbered {n : ℕ} {rs : List ρ} {row : ℕ × ρ} (h : row ∈ numbered n rs) :
    n ≤ row.1 ∧ row.2 ∈ rs := by
  induction rs generalizing n with
  | nil => cases h
  | cons r rs ih =>
    rcases List.mem_cons.mp h with rfl | h
    · exact ⟨le_rfl, List.mem_cons_self⟩
    · obtain ⟨hle, hmem⟩ := ih h
      exact ⟨Nat.le_of_succ_le hle, List.mem_cons_of_mem _ hmem⟩

/-- What writes without a repeated key make of an index. -/
theorem foldl_put_eq {rs : List ρ} (hnodup : (rs.map key).Nodup) :
    rs.foldl (put key tokens) x
      = ⟨(x.rows.filter fun row => key row.2 ∉ rs.map key) ++ numbered x.next rs,
        x.entries ++ (numbered x.next rs).map (entryOf tokens), x.next + rs.length⟩ := by
  induction rs generalizing x with
  | nil => simp [numbered]
  | cons r rs ih =>
    rw [List.map_cons, List.nodup_cons] at hnodup
    obtain ⟨hfirst, hnodup⟩ := hnodup
    rw [List.foldl_cons, ih hnodup]
    have hkept : (x.put key tokens r).rows.filter (fun row => decide (key row.2 ∉ rs.map key))
        = x.rows.filter (fun row => decide (key row.2 ∉ (r :: rs).map key)) ++ [(x.next, r)] := by
      show List.filter _ (_ ++ _) = _
      rw [List.filter_append, List.filter_filter]
      have hnew : [(x.next, r)].filter (fun row => decide (key row.2 ∉ rs.map key))
          = [(x.next, r)] := List.filter_eq_self.mpr fun row hrow => by
        rw [List.mem_singleton.mp hrow]
        exact decide_eq_true hfirst
      rw [hnew]
      congr 1
      refine List.filter_congr fun row _ => ?_
      rw [← Bool.decide_and]
      refine decide_eq_decide.mpr ?_
      rw [List.map_cons, List.mem_cons, not_or]
      exact and_comm
    rw [hkept]
    refine congr (congr (congrArg _ ?_) ?_) ?_
    · rw [List.append_assoc]
      rfl
    · show (x.entries ++ [(x.next, tokens r)]) ++ _ = _
      rw [List.append_assoc]
      rfl
    · show x.next + 1 + rs.length = x.next + (rs.length + 1)
      omega

/-- An id below the fresh ones is joined with an old row. -/
theorem find?_append_numbered {rows : List (ℕ × ρ)} {n id : ℕ} {rs : List ρ} (h : id < n) :
    (rows ++ numbered n rs).find? (fun row => row.1 = id) = rows.find? fun row => row.1 = id := by
  have hnone : (numbered n rs).find? (fun row => row.1 = id) = none := by
    rw [List.find?_eq_none]
    intro row hrow
    have hle := (le_of_mem_numbered hrow).1
    simp only [decide_eq_true_eq]
    omega
  rw [List.find?_append, hnone, Option.or_none]

variable (tokens) in
/-- The fresh entries are joined with the fresh rows. -/
theorem map_rowOf_numbered {rs : List ρ} (rows : List (ℕ × ρ)) (n : ℕ)
    (h : ∀ row ∈ rows, row.1 < n) :
    (numbered n rs).map (fun row => (((rows ++ numbered n rs).find? fun row' => row'.1 = row.1).map
        Prod.snd, tokens row.2)) = rs.map fun r => (some r, tokens r) := by
  induction rs generalizing rows n with
  | nil => rfl
  | cons r rs ih =>
    have hself : (rows ++ numbered n (r :: rs)).find? (fun row' => row'.1 = n) = some (n, r) := by
      have hnone : rows.find? (fun row' => row'.1 = n) = none := by
        rw [List.find?_eq_none]
        intro row hrow
        have hlt := h row hrow
        simp only [decide_eq_true_eq]
        omega
      rw [List.find?_append, hnone]
      simp [numbered]
    have hrest := ih (rows ++ [(n, r)]) (n + 1) (by
      intro row hrow
      rcases List.mem_append.mp hrow with hrow | hrow
      · exact (h row hrow).trans (Nat.lt_succ_self n)
      · rw [List.mem_singleton.mp hrow]
        exact Nat.lt_succ_self n)
    rw [List.append_assoc] at hrest
    rw [numbered, List.map_cons, List.map_cons]
    refine congrArg₂ _ ?_ hrest
    show (Option.map Prod.snd ((rows ++ numbered n (r :: rs)).find? fun row' => row'.1 = n), _) = _
    rw [hself]
    rfl

/-- The rows that writing a slice leaves of the others. -/
def others (key : ρ → κ) (p : ρ → Bool) (rs : List ρ) (x : ContentIndex ρ τ) : List (ℕ × ρ) :=
  (x.wipe p).rows.filter fun row => key row.2 ∉ rs.map key

/-- **The search state of a slice that was written without a repeated key.** -/
theorem Wf.searchState_reslice (h : Wf key tokens x) (p : ρ → Bool) {rs : List ρ}
    (hnodup : (rs.map key).Nodup) :
    (x.reslice key tokens p rs).searchState
      = (((x.wipe p).entries.map fun e =>
          (((others key p rs x).find? fun row => row.1 = e.1).map Prod.snd, e.2))
        ++ rs.map fun r => (some r, tokens r) : List _) := by
  have hwipe := h.wipe p
  unfold searchState rowOf ContentIndex.reslice
  rw [foldl_put_eq hnodup]
  dsimp only
  rw [List.map_append, List.map_map]
  congr 2
  · refine List.map_congr_left fun e he => ?_
    rw [find?_append_numbered (hwipe.lt e he)]
    rfl
  · refine map_rowOf_numbered tokens _ _ fun row hrow => ?_
    exact hwipe.row_lt (List.mem_filter.mp hrow).1

/-- A slice that is written anew leaves the same other rows and the same other entries. -/
theorem Wf.wipe_reslice (h : Wf key tokens x) {p : ρ → Bool} {rs : List ρ}
    (hrs : ∀ r ∈ rs, p r = true) (hnodup : (rs.map key).Nodup) :
    ((x.reslice key tokens p rs).wipe p).rows = others key p rs x
      ∧ ((x.reslice key tokens p rs).wipe p).entries = (x.wipe p).entries := by
  have hwipe := h.wipe p
  have hothers : ∀ row ∈ others key p rs x, p row.2 = false := by
    intro row hrow
    simpa using (List.mem_filter.mp (List.mem_filter.mp hrow).1).2
  have hnew : ∀ row ∈ numbered (x.wipe p).next rs, p row.2 = true :=
    fun row hrow => hrs row.2 (le_of_mem_numbered hrow).2
  have heq : x.reslice key tokens p rs = ⟨others key p rs x ++ numbered (x.wipe p).next rs,
      (x.wipe p).entries ++ (numbered (x.wipe p).next rs).map (entryOf tokens),
      (x.wipe p).next + rs.length⟩ := foldl_put_eq hnodup
  have hslice : (x.reslice key tokens p rs).sliceIds p
      = (numbered (x.wipe p).next rs).map Prod.fst := by
    rw [heq]
    show (List.filter _ (_ ++ _)).map Prod.fst = _
    rw [List.filter_append, List.filter_eq_nil_iff.mpr (by simpa using fun i r hrow => hothers (i, r) hrow),
      List.nil_append, List.filter_eq_self.mpr hnew]
  constructor
  · show List.filter _ (x.reslice key tokens p rs).rows = _
    rw [heq]
    dsimp only
    rw [List.filter_append, List.filter_eq_self.mpr (by simpa using fun i r hrow => hothers (i, r) hrow),
      List.filter_eq_nil_iff.mpr (by simpa using fun i r hrow => hnew (i, r) hrow), List.append_nil]
  · show List.filter _ (x.reslice key tokens p rs).entries = _
    rw [hslice, heq]
    dsimp only
    rw [List.filter_append]
    have hold : ∀ e ∈ (x.wipe p).entries,
        e.1 ∉ (numbered (x.wipe p).next rs).map Prod.fst := by
      intro e he hmem
      obtain ⟨row, hrow, hid⟩ := List.mem_map.mp hmem
      have hle := (le_of_mem_numbered hrow).1
      have hlt := hwipe.lt e he
      omega
    have hfresh : ∀ e ∈ (numbered (x.wipe p).next rs).map (entryOf tokens),
        e.1 ∈ (numbered (x.wipe p).next rs).map Prod.fst := by
      intro e he
      obtain ⟨row, hrow, rfl⟩ := List.mem_map.mp he
      exact List.mem_map_of_mem hrow
    rw [List.filter_eq_self.mpr fun e he => decide_eq_true (hold e he),
      List.filter_eq_nil_iff.mpr fun e he => by simpa using hfresh e he, List.append_nil]

theorem length_foldl_put (rs : List ρ) :
    (rs.foldl (put key tokens) x).entries.length = x.entries.length + rs.length := by
  induction rs generalizing x with
  | nil => rfl
  | cons r rs ih =>
    rw [List.foldl_cons, ih]
    show (x.entries ++ [_]).length + _ = _
    rw [List.length_append, List.length_singleton, List.length_cons]
    omega

/-- **Writing a slice twice leaves the search state of writing it once exactly when no key comes
twice in it.** -/
theorem Wf.searchState_reslice_iff (h : Wf key tokens x) {p : ρ → Bool} {rs : List ρ}
    (hrs : ∀ r ∈ rs, p r = true) :
    ((x.reslice key tokens p rs).reslice key tokens p rs).searchState
        = (x.reslice key tokens p rs).searchState ↔ (rs.map key).Nodup := by
  have hwf := h.reslice p rs
  constructor
  · intro hsame
    rw [← countP_reslice_iff key tokens x hrs]
    have hcard := congrArg Multiset.card hsame
    have hcards : ∀ y : ContentIndex ρ τ, Multiset.card y.searchState = y.entries.length := by
      intro y
      unfold searchState
      rw [Multiset.coe_card, List.length_map]
    rw [hcards, hcards] at hcard
    have htwice : ((x.reslice key tokens p rs).reslice key tokens p rs).entries.length
        = ((x.reslice key tokens p rs).wipe p).entries.length + rs.length := length_foldl_put rs
    have hwiped := hwf.length_wipe p
    omega
  · intro hnodup
    obtain ⟨hrows, hentries⟩ := h.wipe_reslice hrs hnodup
    have hothers : others key p rs (x.reslice key tokens p rs) = others key p rs x := by
      have hunfold : others key p rs (x.reslice key tokens p rs)
          = ((x.reslice key tokens p rs).wipe p).rows.filter fun row => key row.2 ∉ rs.map key := rfl
      rw [hunfold, hrows]
      refine List.filter_eq_self.mpr fun row hrow => ?_
      exact (List.mem_filter.mp hrow).2
    rw [hwf.searchState_reslice p hnodup, h.searchState_reslice p hnodup, hothers, hentries]

end ContentIndex
