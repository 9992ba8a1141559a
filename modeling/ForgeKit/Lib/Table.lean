import Mathlib.Data.List.Induction
import Mathlib.Data.List.Nodup

/-!
# Tables with a primary key

`Table κ ρ key` is a list of rows, in insertion order, in which no two rows share a key. The
uniqueness is a field, so every operation proves it once and nothing later proves it again.

`find?` is the view the other lemmas are stated in: each operation has one equation that says
what `find?` returns afterwards.
-/

/-- Rows in insertion order under a primary key. -/
structure Table (κ ρ : Type*) (key : ρ → κ) where
  rows : List ρ
  nodup : (rows.map key).Nodup

namespace Table

variable {κ ρ : Type*} {key : ρ → κ}

@[ext] theorem ext {t u : Table κ ρ key} (h : t.rows = u.rows) : t = u := by
  cases t; cases u; cases h; rfl

/-- The table with no rows. -/
def empty : Table κ ρ key := ⟨[], List.nodup_nil⟩

/-- Changes every row in place; the change keeps the key. -/
def mapRows (t : Table κ ρ key) (f : ρ → ρ) (hf : ∀ r, key (f r) = key r) : Table κ ρ key where
  rows := t.rows.map f
  nodup := by
    have hk : (t.rows.map f).map key = t.rows.map key := by
      rw [List.map_map]; exact List.map_congr_left fun r _ => hf r
    rw [hk]; exact t.nodup

/-- Keeps the rows that `p` selects. -/
def filterRows (t : Table κ ρ key) (p : ρ → Bool) : Table κ ρ key where
  rows := t.rows.filter p
  nodup := t.nodup.sublist (List.filter_sublist.map key)

variable [DecidableEq κ]

/-- The row with key `k`. -/
def find? (t : Table κ ρ key) (k : κ) : Option ρ := t.rows.find? (fun r => decide (key r = k))

/-- Adds a row whose key is free. -/
def insert (t : Table κ ρ key) (r : ρ) (h : t.find? (key r) = none) : Table κ ρ key where
  rows := t.rows ++ [r]
  nodup := by
    rw [List.map_append, List.map_singleton, List.nodup_append]
    refine ⟨t.nodup, List.nodup_singleton _, ?_⟩
    intro k hk k' hk' he
    obtain ⟨r', hr', rfl⟩ := List.mem_map.mp hk
    rw [List.mem_singleton] at hk'
    have hnone := List.find?_eq_none.mp h r' hr'
    exact hnone (by simp [he, hk'])

/-- Writes a row in the place of the row with its key, or at the end when there is none. -/
def upsert (t : Table κ ρ key) (r : ρ) : Table κ ρ key :=
  if h : t.find? (key r) = none then t.insert r h
  else t.mapRows (fun r' => if key r' = key r then r else r') fun r' => by
    by_cases hk : key r' = key r
    · rw [if_pos hk, hk]
    · rw [if_neg hk]

/-! ## What `find?` sees -/

theorem find?_eq_some_iff {t : Table κ ρ key} {k : κ} {r : ρ} :
    t.find? k = some r ↔ r ∈ t.rows ∧ key r = k := by
  constructor
  · intro h
    exact ⟨List.mem_of_find?_eq_some h, by simpa using List.find?_some h⟩
  · rintro ⟨hr, rfl⟩
    cases hf : t.find? (key r) with
    | none => exact absurd (by simp) (List.find?_eq_none.mp hf r hr)
    | some r' =>
      have hr' : r' ∈ t.rows := List.mem_of_find?_eq_some hf
      have hk : key r' = key r := by simpa using List.find?_some hf
      rw [List.inj_on_of_nodup_map t.nodup hr' hr hk]

theorem find?_key {t : Table κ ρ key} {k : κ} {r : ρ} (h : t.find? k = some r) : key r = k :=
  (find?_eq_some_iff.mp h).2

theorem mem_of_find? {t : Table κ ρ key} {k : κ} {r : ρ} (h : t.find? k = some r) :
    r ∈ t.rows := (find?_eq_some_iff.mp h).1

theorem find?_of_mem {t : Table κ ρ key} {r : ρ} (h : r ∈ t.rows) : t.find? (key r) = some r :=
  find?_eq_some_iff.mpr ⟨h, rfl⟩

@[simp] theorem find?_empty (k : κ) : (empty : Table κ ρ key).find? k = none := rfl

theorem find?_insert {t : Table κ ρ key} {r : ρ} (h : t.find? (key r) = none) (k : κ) :
    (t.insert r h).find? k = if key r = k then some r else t.find? k := by
  unfold find? insert
  rw [List.find?_append]
  by_cases hk : key r = k
  · subst hk
    have hnone : t.rows.find? (fun r' => decide (key r' = key r)) = none := h
    simp [hnone]
  · simp [hk]

@[simp] theorem find?_mapRows (t : Table κ ρ key) (f : ρ → ρ) (hf : ∀ r, key (f r) = key r)
    (k : κ) : (t.mapRows f hf).find? k = (t.find? k).map f := by
  unfold find? mapRows
  rw [List.find?_map]
  congr 2
  funext r
  simp [hf]

theorem find?_filterRows (t : Table κ ρ key) (p : ρ → Bool) (k : κ) :
    (t.filterRows p).find? k = (t.find? k).filter p := by
  refine Option.ext fun r => ?_
  rw [find?_eq_some_iff, Option.filter_eq_some_iff, find?_eq_some_iff]
  simp only [filterRows, List.mem_filter]
  exact and_right_comm

theorem find?_upsert (t : Table κ ρ key) (r : ρ) (k : κ) :
    (t.upsert r).find? k = if key r = k then some r else t.find? k := by
  unfold upsert
  by_cases h : t.find? (key r) = none
  · rw [dif_pos h, find?_insert h]
  · rw [dif_neg h, find?_mapRows]
    by_cases hk : key r = k
    · subst hk
      obtain ⟨r', hr'⟩ := Option.ne_none_iff_exists'.mp h
      rw [if_pos rfl, hr', Option.map_some, if_pos (find?_key hr')]
    · rw [if_neg hk]
      cases hf : t.find? k with
      | none => rfl
      | some r' =>
        have hne : key r' ≠ key r := fun he => hk (he.symm.trans (find?_key hf))
        rw [Option.map_some, if_neg hne]

theorem find?_upsert_self (t : Table κ ρ key) (r : ρ) :
    (t.upsert r).find? (key r) = some r := by
  rw [find?_upsert, if_pos rfl]

theorem find?_upsert_ne (t : Table κ ρ key) {r : ρ} {k : κ} (h : key r ≠ k) :
    (t.upsert r).find? k = t.find? k := by
  rw [find?_upsert, if_neg h]

/-! ## Rows written in a list -/

/-- Writes the rows one after the other. -/
def ofRows (key : ρ → κ) (l : List ρ) : Table κ ρ key := l.foldl upsert empty

theorem ofRows_concat (l : List ρ) (r : ρ) : ofRows key (l ++ [r]) = (ofRows key l).upsert r := by
  rw [ofRows, List.foldl_append]
  rfl

/-- A key has the row that was last written under it. -/
theorem find?_ofRows (l : List ρ) (k : κ) :
    (ofRows key l).find? k = l.reverse.find? fun r => key r = k := by
  induction l using List.reverseRecOn with
  | nil => rfl
  | append_singleton l r ih =>
    rw [ofRows_concat, find?_upsert, List.reverse_append, List.reverse_singleton,
      List.singleton_append, List.find?_cons, ih]
    by_cases hk : key r = k
    · simp [hk]
    · simp [hk]

theorem map_key_upsert (t : Table κ ρ key) (r : ρ) :
    (t.upsert r).rows.map key
      = if key r ∈ t.rows.map key then t.rows.map key else t.rows.map key ++ [key r] := by
  have hmem : key r ∈ t.rows.map key ↔ t.find? (key r) ≠ none := by
    rw [Ne, find?, List.find?_eq_none]
    simp
  unfold upsert
  by_cases h : t.find? (key r) = none
  · rw [dif_pos h, if_neg fun hin => hmem.mp hin h]
    exact List.map_append
  · rw [dif_neg h, if_pos (hmem.mpr h)]
    show (t.rows.map _).map key = _
    rw [List.map_map]
    refine List.map_congr_left fun r' _ => ?_
    show key (if key r' = key r then r else r') = key r'
    split
    · next hk => exact hk.symm
    · rfl

theorem mem_map_key_ofRows {l : List ρ} {k : κ} : k ∈ (ofRows key l).rows.map key ↔ k ∈ l.map key := by
  induction l using List.reverseRecOn with
  | nil => exact Iff.rfl
  | append_singleton l r ih =>
    rw [ofRows_concat, map_key_upsert, List.map_append, List.mem_append, ← ih]
    split
    · next hin =>
      refine ⟨.inl, fun h => h.elim id fun hk => ?_⟩
      rw [List.mem_singleton.mp hk]
      exact hin
    · exact List.mem_append

/-- A row stands where its key was first written. -/
theorem pairwise_ofRows (l : List ρ) : (ofRows key l).rows.Pairwise fun r r' =>
    (l.map key).idxOf (key r) < (l.map key).idxOf (key r') := by
  rw [← List.pairwise_map (f := key) (R := fun k k' => (l.map key).idxOf k < (l.map key).idxOf k')]
  induction l using List.reverseRecOn with
  | nil => exact List.Pairwise.nil
  | append_singleton l r ih =>
    have hold : ((ofRows key l).rows.map key).Pairwise fun k k' =>
        ((l ++ [r]).map key).idxOf k < ((l ++ [r]).map key).idxOf k' := by
      refine ih.imp_of_mem fun {k k'} hk hk' hlt => ?_
      rw [mem_map_key_ofRows] at hk hk'
      rwa [List.map_append, List.idxOf_append_of_mem hk, List.idxOf_append_of_mem hk']
    rw [ofRows_concat, map_key_upsert]
    split
    · exact hold
    · next hnew =>
      refine List.pairwise_append.mpr ⟨hold, List.pairwise_singleton _ _, fun k hk k' hk' => ?_⟩
      rw [List.mem_singleton.mp hk']
      rw [mem_map_key_ofRows] at hk hnew
      rw [List.map_append, List.idxOf_append_of_mem hk, List.idxOf_append_of_notMem hnew]
      exact Nat.lt_of_lt_of_le (List.idxOf_lt_length_iff.mpr hk) (Nat.le_add_right _ _)

end Table
