import Mathlib.Data.List.Nodup

/-!
# Loops that collect

A loop that asks for items round by round: an item is kept when its key is new, and each round takes a
key that no round has taken.

* `mem_fresh_iff` — the items that are kept are the first ones with a new key
* `exists_loop` — a loop that takes a new key of a finite list each round ends
* `loop_of_round` — the invariant rule
-/

namespace Collecting

/-! ## Items with a new key -/

section Fresh

variable {α κ : Type*} [DecidableEq κ] {key : α → κ} {seen : List κ} {l : List α} {a : α} {k : κ}

/-- The keys that are known after some items, and the items whose key was new. -/
def fresh (key : α → κ) (seen : List κ) : List α → List κ × List α
  | [] => (seen, [])
  | a :: l =>
    if key a ∈ seen then fresh key seen l
    else
      let rest := fresh key (key a :: seen) l
      (rest.1, a :: rest.2)

theorem fresh_cons_of_mem (h : key a ∈ seen) : fresh key seen (a :: l) = fresh key seen l := if_pos h

theorem fresh_cons_of_notMem (h : key a ∉ seen) : fresh key seen (a :: l)
    = ((fresh key (key a :: seen) l).1, a :: (fresh key (key a :: seen) l).2) := if_neg h

/-- What is known then is what was known and the keys of the new items. -/
theorem mem_fresh_seen : k ∈ (fresh key seen l).1 ↔ k ∈ seen ∨ k ∈ (fresh key seen l).2.map key := by
  induction l generalizing seen with
  | nil => simp [fresh]
  | cons a l ih =>
    by_cases ha : key a ∈ seen
    · rw [fresh_cons_of_mem ha, ih]
    · rw [fresh_cons_of_notMem ha, ih, List.mem_cons, List.map_cons, List.mem_cons]
      tauto

/-- **The items that are kept** are the first ones with a new key. -/
theorem mem_fresh_iff : a ∈ (fresh key seen l).2 ↔
    ∃ front back, l = front ++ a :: back ∧ key a ∉ seen ∧ ∀ b ∈ front, key b ≠ key a := by
  induction l generalizing seen with
  | nil => simp [fresh]
  | cons b l ih =>
    by_cases hb : key b ∈ seen
    · rw [fresh_cons_of_mem hb, ih]
      constructor
      · rintro ⟨front, back, rfl, hnew, hfirst⟩
        refine ⟨b :: front, back, rfl, hnew, List.forall_mem_cons.mpr ⟨?_, hfirst⟩⟩
        exact fun heq => hnew (heq ▸ hb)
      · rintro ⟨front, back, heq, hnew, hfirst⟩
        cases front with
        | nil =>
          obtain ⟨rfl, -⟩ := List.cons.inj heq
          exact absurd hb hnew
        | cons c front =>
          obtain ⟨rfl, hl⟩ := List.cons.inj heq
          exact ⟨front, back, hl, hnew, fun d hd => hfirst d (List.mem_cons_of_mem _ hd)⟩
    · rw [fresh_cons_of_notMem hb, List.mem_cons, ih]
      constructor
      · rintro (rfl | ⟨front, back, rfl, hnew, hfirst⟩)
        · exact ⟨[], l, rfl, hb, fun d hd => by cases hd⟩
        · rw [List.mem_cons, not_or] at hnew
          exact ⟨b :: front, back, rfl, hnew.2, List.forall_mem_cons.mpr ⟨Ne.symm hnew.1, hfirst⟩⟩
      · rintro ⟨front, back, heq, hnew, hfirst⟩
        cases front with
        | nil => exact .inl (List.cons.inj heq).1.symm
        | cons c front =>
          obtain ⟨rfl, hl⟩ := List.cons.inj heq
          obtain ⟨hc, hfirst⟩ := List.forall_mem_cons.mp hfirst
          refine .inr ⟨front, back, hl, ?_, hfirst⟩
          rw [List.mem_cons, not_or]
          exact ⟨Ne.symm hc, hnew⟩

theorem notMem_seen_of_mem_fresh (h : a ∈ (fresh key seen l).2) : key a ∉ seen := by
  obtain ⟨-, -, -, hnew, -⟩ := mem_fresh_iff.mp h
  exact hnew

/-- No key is kept twice. -/
theorem nodup_fresh : ((fresh key seen l).2.map key).Nodup := by
  induction l generalizing seen with
  | nil => exact List.nodup_nil
  | cons a l ih =>
    by_cases ha : key a ∈ seen
    · rw [fresh_cons_of_mem ha]
      exact ih
    · rw [fresh_cons_of_notMem ha, List.map_cons, List.nodup_cons]
      refine ⟨fun hmem => ?_, ih⟩
      obtain ⟨b, hb, heq⟩ := List.mem_map.mp hmem
      exact notMem_seen_of_mem_fresh hb (heq ▸ List.mem_cons_self)

end Fresh

/-! ## Rounds -/

section Loop

variable {σ ω κ : Type*}

/-- What a round leads to. -/
inductive Step (σ ω : Type*) where
  | next (s : σ)
  | stop (r : ω)

/-- `while True`, for at most `fuel` rounds. -/
def loop (round : σ → Step σ ω) : Nat → σ → Option ω
  | 0, _ => none
  | fuel + 1, s =>
    match round s with
    | .next s' => loop round fuel s'
    | .stop r => some r

/-- The states at the start of a round. -/
inductive Visits (round : σ → Step σ ω) : σ → σ → Prop
  | refl (s : σ) : Visits round s s
  | next {s s' t : σ} (h : round s = .next s') (hrest : Visits round s' t) : Visits round s t

variable {round : σ → Step σ ω} {fuel : Nat} {s s' t : σ} {r : ω}

theorem visits_iff_of_next (h : round s = .next s') :
    Visits round s t ↔ t = s ∨ Visits round s' t := by
  constructor
  · intro hvisits
    cases hvisits with
    | refl => exact .inl rfl
    | next h' hrest =>
      rw [h] at h'
      cases h'
      exact .inr hrest
  · rintro (rfl | hrest)
    · exact .refl _
    · exact .next h hrest

theorem visits_iff_of_stop (h : round s = .stop r) : Visits round s t ↔ t = s := by
  constructor
  · intro hvisits
    cases hvisits with
    | refl => rfl
    | next h' hrest =>
      rw [h] at h'
      cases h'
  · rintro rfl
    exact .refl _

/-- A loop that ends stops in a round of its own. -/
theorem exists_stop_of_loop (h : loop round fuel s = some r) :
    ∃ t, Visits round s t ∧ round t = .stop r := by
  induction fuel generalizing s with
  | zero => cases h
  | succ fuel ih =>
    rw [loop] at h
    cases hround : round s with
    | next s' =>
      rw [hround] at h
      obtain ⟨t, hvisits, hstop⟩ := ih h
      exact ⟨t, .next hround hvisits, hstop⟩
    | stop r' =>
      rw [hround] at h
      cases h
      exact ⟨s, .refl s, hround⟩

/-- **The invariant rule.** What a round keeps holds at the start of every round. -/
theorem loop_of_round {inv : σ → Prop} (hround : ∀ s s', inv s → round s = .next s' → inv s')
    (h : inv s) (hvisits : Visits round s t) : inv t := by
  induction hvisits with
  | refl => exact h
  | next hnext _ ih => exact ih (hround _ _ h hnext)

/-- More rounds than the loop takes change nothing. -/
theorem loop_of_le {fuel' : Nat} (h : loop round fuel s = some r) (hle : fuel ≤ fuel') :
    loop round fuel' s = some r := by
  induction fuel generalizing s fuel' with
  | zero => cases h
  | succ fuel ih =>
    obtain ⟨fuel', rfl⟩ := Nat.exists_eq_add_of_le' (Nat.one_le_of_lt hle)
    rw [loop] at h ⊢
    cases hround : round s with
    | next s' =>
      rw [hround] at h
      exact ih h (Nat.le_of_succ_le_succ hle)
    | stop r' =>
      rw [hround] at h
      exact h

/-- **A loop that takes a new key of a finite list each round ends**, after one round more than there
are keys at the latest. -/
theorem exists_loop {inv : σ → Prop} {taken : σ → List κ} {keys : List κ}
    (hround : ∀ s s', inv s → round s = .next s' →
      inv s' ∧ ∃ k ∈ keys, k ∉ taken s ∧ taken s' = k :: taken s)
    (hinv : inv s) (hnodup : (taken s).Nodup) (hsub : ∀ k ∈ taken s, k ∈ keys)
    (hfuel : keys.length < fuel + (taken s).length) : ∃ r, loop round fuel s = some r := by
  induction fuel generalizing s with
  | zero =>
    have hle := hnodup.length_le_of_subset hsub
    omega
  | succ fuel ih =>
    rw [loop]
    cases hnext : round s with
    | next s' =>
      obtain ⟨hinv', k, hk, hnew, htaken⟩ := hround s s' hinv hnext
      refine ih hinv' ?_ ?_ ?_
      · rw [htaken]
        exact List.nodup_cons.mpr ⟨hnew, hnodup⟩
      · rw [htaken]
        exact List.forall_mem_cons.mpr ⟨hk, hsub⟩
      · rw [htaken, List.length_cons]
        omega
    | stop r => exact ⟨r, rfl⟩

end Loop

end Collecting
