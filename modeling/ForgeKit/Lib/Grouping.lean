import Mathlib.Data.List.Dedup

/-!
# Grouped rows

`GROUP BY` gives one row for each key that there is. A table of defaults takes the value of each
such row that it has a key for.

* `get?_groupBy` — the value of a key is that of its rows
* `get?_merge` — defaults stay where there is no row
-/

namespace Grouping

variable {ρ κ β : Type} [DecidableEq κ]

/-- `d[k]`. -/
def get? : List (κ × β) → κ → Option β
  | [], _ => none
  | (k', v) :: d, k => if k' = k then some v else get? d k

/-- `SELECT key, aggregate FROM rows GROUP BY key`. -/
def groupBy (key : ρ → κ) (aggregate : List ρ → β) (rows : List ρ) : List (κ × β) :=
  (rows.map key).dedup.map fun k => (k, aggregate (rows.filter fun r => key r = k))

/-- `d[k] = v`, where `d` has the key. -/
def overwrite (d : List (κ × β)) (k : κ) (v : β) : List (κ × β) :=
  d.map fun e => if e.1 = k then (e.1, v) else e

/-- A loop that overwrites; rows with the key `NULL` are skipped. -/
def merge (d : List (κ × β)) (rows : List (Option κ × β)) : List (κ × β) :=
  rows.foldl (fun d row =>
    match row.1 with
    | some k => overwrite d k row.2
    | none => d) d

theorem nodup_keys_groupBy {key : ρ → κ} {aggregate : List ρ → β} {rows : List ρ} :
    ((groupBy key aggregate rows).map Prod.fst).Nodup := by
  have hkeys : (groupBy key aggregate rows).map Prod.fst = (rows.map key).dedup := by
    rw [groupBy, List.map_map]
    exact List.map_id _
  rw [hkeys]
  exact List.nodup_dedup _

theorem get?_eq_none {d : List (κ × β)} {k : κ} (h : k ∉ d.map Prod.fst) : get? d k = none := by
  induction d with
  | nil => rfl
  | cons e d ih =>
    rw [List.map_cons, List.mem_cons, not_or] at h
    rw [get?, if_neg (Ne.symm h.1), ih h.2]

/-- What is found among values that are computed from their keys. -/
theorem get?_map (f : κ → β) (keys : List κ) (k : κ) :
    get? (keys.map fun k => (k, f k)) k = if k ∈ keys then some (f k) else none := by
  induction keys with
  | nil => rfl
  | cons k' keys ih =>
    rw [List.map_cons, get?, ih]
    by_cases h : k' = k
    · subst h
      simp
    · simp [h, Ne.symm h]

/-- **The value of a key is that of its rows**, if it has some. -/
theorem get?_groupBy {key : ρ → κ} {aggregate : List ρ → β} {rows : List ρ} {k : κ} :
    get? (groupBy key aggregate rows) k =
      if (rows.filter fun r => key r = k) = [] then none
      else some (aggregate (rows.filter fun r => key r = k)) := by
  have hempty : (rows.filter fun r => key r = k) = [] ↔ k ∉ (rows.map key).dedup := by
    rw [List.mem_dedup, List.mem_map, List.filter_eq_nil_iff]
    simp
  rw [groupBy, get?_map fun k => aggregate (rows.filter fun r => key r = k)]
  by_cases h : k ∈ (rows.map key).dedup
  · rw [if_pos h, if_neg (hempty.not_left.mpr h)]
  · rw [if_neg h, if_pos (hempty.mpr h)]

theorem get?_overwrite (d : List (κ × β)) (k' : κ) (v : β) (k : κ) :
    get? (overwrite d k' v) k = (get? d k).map fun v' => if k = k' then v else v' := by
  induction d with
  | nil => rfl
  | cons e d ih =>
    obtain ⟨key, value⟩ := e
    have hentry : (if key = k' then (key, v) else (key, value)) =
        (key, if key = k' then v else value) := by
      split <;> rfl
    rw [overwrite, List.map_cons, ← overwrite, hentry, get?, get?]
    by_cases hkey : key = k
    · rw [if_pos hkey, if_pos hkey, hkey]
      rfl
    · rw [if_neg hkey, if_neg hkey, ih]

/-- **Defaults stay where there is no row.** -/
theorem get?_merge {d : List (κ × β)} {rows : List (Option κ × β)}
    (h : (rows.map Prod.fst).Nodup) (k : κ) :
    get? (merge d rows) k = (get? d k).map fun v => (get? rows (some k)).getD v := by
  induction rows generalizing d with
  | nil => simp [merge, get?]
  | cons row rows ih =>
    obtain ⟨key, value⟩ := row
    rw [List.map_cons, List.nodup_cons] at h
    have hstep : merge d ((key, value) :: rows) =
        merge (match key with | some k => overwrite d k value | none => d) rows := by
      cases key <;> rfl
    rw [hstep, ih h.2, get?]
    cases key with
    | none => simp
    | some k' =>
      rw [get?_overwrite, Option.map_map]
      by_cases hk : k' = k
      · subst hk
        -- no later row has this key
        simp [get?_eq_none h.1, Function.comp_def]
      · simp [hk, Ne.symm hk, Function.comp_def]

end Grouping
