import Mathlib.Data.List.Basic

/-!
# Insertion-ordered dictionaries with string keys

`set` overwrites in place and appends a new key at the end, as a Python `dict` does. The
lemmas say what `get?` sees after each operation; none of them needs the keys to be distinct.
-/

/-- A dictionary in insertion order. -/
abbrev Dict (β : Type*) := List (String × β)

namespace Dict

variable {β : Type*}

/-- `d.get(k)`; `none` when the key is missing. -/
def get? : Dict β → String → Option β
  | [], _ => none
  | (k', v) :: d, k => if k' = k then some v else get? d k

/-- `d[k] = v`. -/
def set : Dict β → String → β → Dict β
  | [], k, v => [(k, v)]
  | (k', v') :: d, k, v => if k' = k then (k, v) :: d else (k', v') :: set d k v

/-- `d.setdefault(k, v)`. -/
def setDefault (d : Dict β) (k : String) (v : β) : Dict β :=
  match d.get? k with
  | some _ => d
  | none => d.set k v

/-- `d.pop(k, None)`. -/
def pop (d : Dict β) (k : String) : Dict β := d.filter (fun e => e.1 ≠ k)

/-- `d.update(e)`. -/
def update (d e : Dict β) : Dict β := e.foldl (fun acc kv => set acc kv.1 kv.2) d

@[simp] theorem get?_nil (k : String) : get? ([] : Dict β) k = none := rfl

@[simp] theorem get?_set_self (d : Dict β) (k : String) (v : β) :
    get? (set d k v) k = some v := by
  induction d with
  | nil => simp [set, get?]
  | cons e d ih =>
    obtain ⟨k', v'⟩ := e
    by_cases h : k' = k
    · simp [set, get?, h]
    · simp only [set, if_neg h, get?]; exact ih

theorem get?_set_ne (d : Dict β) {k k' : String} (v : β) (h : k' ≠ k) :
    get? (set d k v) k' = get? d k' := by
  induction d with
  | nil => simp [set, get?, Ne.symm h]
  | cons e d ih =>
    obtain ⟨k'', v''⟩ := e
    by_cases hk : k'' = k
    · subst hk
      simp [set, get?, Ne.symm h]
    · simp only [set, if_neg hk, get?, ih]

@[simp] theorem get?_pop_self (d : Dict β) (k : String) : get? (pop d k) k = none := by
  induction d with
  | nil => rfl
  | cons e d ih =>
    obtain ⟨k', v'⟩ := e
    by_cases h : k' = k
    · simpa [pop, h] using ih
    · simp only [pop, ne_eq, List.filter_cons, h, not_false_eq_true, decide_true, if_true,
        get?, if_neg]
      exact ih

theorem get?_pop_ne (d : Dict β) {k k' : String} (h : k' ≠ k) : get? (pop d k) k' = get? d k' := by
  induction d with
  | nil => rfl
  | cons e d ih =>
    obtain ⟨k'', v''⟩ := e
    by_cases hk : k'' = k
    · subst hk
      rw [get?, if_neg (Ne.symm h), ← ih]
      simp [pop]
    · have hcons : pop ((k'', v'') :: d) k = (k'', v'') :: pop d k := by simp [pop, hk]
      rw [hcons, get?, get?, ih]

theorem get?_append (d e : Dict β) (k : String) : get? (d ++ e) k = (get? d k).or (get? e k) := by
  induction d with
  | nil => rfl
  | cons entry d ih =>
    obtain ⟨k', v'⟩ := entry
    by_cases hk : k' = k
    · simp [get?, hk]
    · rw [List.cons_append, get?, if_neg hk, get?, if_neg hk, ih]

theorem get?_eq_none_iff {d : Dict β} {k : String} : get? d k = none ↔ k ∉ d.map Prod.fst := by
  induction d with
  | nil => simp
  | cons entry d ih =>
    obtain ⟨k', v'⟩ := entry
    rw [List.map_cons, List.mem_cons, not_or]
    by_cases hk : k' = k
    · simp [get?, hk]
    · rw [get?, if_neg hk, ih]
      exact ⟨fun h => ⟨Ne.symm hk, h⟩, And.right⟩

/-- A new key goes to the end. -/
theorem set_of_notMem {d : Dict β} {k : String} (v : β) (h : k ∉ d.map Prod.fst) :
    set d k v = d ++ [(k, v)] := by
  induction d with
  | nil => rfl
  | cons entry d ih =>
    obtain ⟨k', v'⟩ := entry
    rw [List.map_cons, List.mem_cons, not_or] at h
    rw [set, if_neg (Ne.symm h.1), ih h.2, List.cons_append]

/-- An update with new keys is an extension. -/
theorem update_of_disjoint {d e : Dict β} (hkeys : (e.map Prod.fst).Nodup)
    (h : ∀ k ∈ e.map Prod.fst, k ∉ d.map Prod.fst) : update d e = d ++ e := by
  induction e generalizing d with
  | nil => exact (List.append_nil d).symm
  | cons entry e ih =>
    obtain ⟨k, v⟩ := entry
    rw [List.map_cons, List.nodup_cons] at hkeys
    have hstep : update d ((k, v) :: e) = update (d ++ [(k, v)]) e := by
      unfold update
      rw [List.foldl_cons, set_of_notMem v (h k List.mem_cons_self)]
    rw [hstep, ih hkeys.2, List.append_assoc, List.singleton_append]
    intro k' hk' hmem
    rw [List.map_append, List.mem_append] at hmem
    obtain hmem | hmem := hmem
    · exact h k' (List.mem_cons_of_mem _ hk') hmem
    · obtain rfl : k' = k := List.mem_singleton.mp hmem
      exact hkeys.1 hk'

theorem get?_filter (d : Dict β) (p : String → Bool) (k : String) :
    get? (d.filter fun e => p e.1) k = if p k then get? d k else none := by
  induction d with
  | nil => rw [List.filter_nil, get?_nil, ite_self]
  | cons entry d ih =>
    obtain ⟨k', v'⟩ := entry
    rw [List.filter_cons]
    by_cases hk : k' = k
    · subst hk
      by_cases hp : p k' = true
      · simp [hp, get?]
      · simpa [hp] using ih
    · by_cases hp : p k' = true
      · simp [hp, get?, hk, ih]
      · simp [hp, get?, hk, ih]

/-- The keys after a write: an old key stays where it is, a new one goes to the end. -/
theorem map_fst_set (d : Dict β) (k : String) (v : β) :
    (set d k v).map Prod.fst = if k ∈ d.map Prod.fst then d.map Prod.fst else d.map Prod.fst ++ [k] := by
  induction d with
  | nil => rfl
  | cons entry d ih =>
    obtain ⟨k', v'⟩ := entry
    by_cases hk : k' = k
    · simp [set, hk]
    · have hne : ¬k = k' := fun h => hk h.symm
      rw [set, if_neg hk, List.map_cons, ih]
      by_cases hmem : k ∈ d.map Prod.fst
      · simp only [hmem, if_true, List.map_cons, List.mem_cons, or_true]
      · simp only [hmem, if_false, List.map_cons, List.mem_cons, hne, or_self, List.cons_append]

end Dict
