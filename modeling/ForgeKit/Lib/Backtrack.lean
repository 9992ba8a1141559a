import Mathlib.Data.List.Basic

/-!
# Backtracking

A matcher that backtracks tries the ways to go on in an order, and keeps the first that leads to a
match. A loop over single items has one way for each number of items that it takes: a lazy loop
tries few items first, a greedy one many. Nested `findSome?` over such lists of ways is the search.

* `mem_lazily`, `mem_greedily` — the ways of a loop
* `findSome?_lazily_cons`, `findSome?_greedily_cons` — a loop, item by item
* `findSome?_lazilySome` — the first way that leads to a match
-/

namespace Backtrack

variable {α β : Type*}

section Loops

variable (p : α → Bool)

/-- The ways to take items that `p` accepts from the front, with what is left: few items first. -/
def lazily : List α → List (List α × List α)
  | [] => [([], [])]
  | a :: l => ([], a :: l) :: if p a then (lazily l).map fun w => (a :: w.1, w.2) else []

/-- The ways to take items that `p` accepts from the front, with what is left: many items first. -/
def greedily (l : List α) : List (List α × List α) := (lazily p l).reverse

/-- The ways to take at least one item, few items first. -/
def lazilySome (l : List α) : List (List α × List α) := (lazily p l).tail

end Loops

variable {p : α → Bool}

theorem lazily_eq (l : List α) : lazily p l = ([], l) :: lazilySome p l := by
  cases l <;> rfl

theorem lazilySome_cons (a : α) (l : List α) :
    lazilySome p (a :: l) = if p a then (lazily p l).map fun w => (a :: w.1, w.2) else [] := rfl

theorem mem_lazily {l taken rest : List α} :
    (taken, rest) ∈ lazily p l ↔ taken ++ rest = l ∧ ∀ a ∈ taken, p a = true := by
  induction l generalizing taken with
  | nil =>
    rw [lazily, List.mem_singleton, Prod.mk.injEq, List.append_eq_nil_iff]
    refine ⟨fun h => ⟨h, ?_⟩, And.left⟩
    rw [h.1]
    exact fun _ => False.elim ∘ List.not_mem_nil
  | cons b l ih =>
    rw [lazily, List.mem_cons, Prod.mk.injEq]
    cases taken with
    | nil => simp
    | cons a taken =>
      by_cases hb : p b = true
      · rw [if_pos hb, List.mem_map]
        simp only [Prod.exists, Prod.mk.injEq, List.cons.injEq, List.cons_append,
          List.forall_mem_cons, reduceCtorEq, false_and, false_or]
        constructor
        · rintro ⟨taken, rest, hmem, ⟨rfl, rfl⟩, rfl⟩
          obtain ⟨happend, hall⟩ := ih.mp hmem
          exact ⟨⟨rfl, happend⟩, hb, hall⟩
        · rintro ⟨⟨rfl, happend⟩, -, hall⟩
          exact ⟨taken, rest, ih.mpr ⟨happend, hall⟩, ⟨rfl, rfl⟩, rfl⟩
      · rw [if_neg hb]
        simp only [List.not_mem_nil, or_false, reduceCtorEq, false_and, List.cons_append,
          List.cons.injEq, List.forall_mem_cons, false_iff]
        rintro ⟨⟨rfl, -⟩, ha, -⟩
        exact hb ha

theorem mem_greedily {l taken rest : List α} :
    (taken, rest) ∈ greedily p l ↔ taken ++ rest = l ∧ ∀ a ∈ taken, p a = true := by
  rw [greedily, List.mem_reverse, mem_lazily]

theorem pairwise_lazily (l : List α) :
    (lazily p l).Pairwise fun v w => v.1.length < w.1.length := by
  induction l with
  | nil => exact List.pairwise_singleton _ _
  | cons a l ih =>
    rw [lazily]
    split
    · refine List.pairwise_cons.mpr ⟨fun w hw => ?_, List.pairwise_map.mpr (ih.imp fun h => ?_)⟩
      · obtain ⟨v, -, rfl⟩ := List.mem_map.mp hw
        exact Nat.zero_lt_succ _
      · exact Nat.succ_lt_succ h
    · exact List.pairwise_singleton _ _

@[simp] theorem greedily_nil : greedily p [] = [([], [])] := rfl

/-- A loop that takes nothing. -/
theorem greedily_cons_of_neg {a : α} (h : p a = false) (l : List α) :
    greedily p (a :: l) = [([], a :: l)] := by
  simp [greedily, lazily, h]

/-- A loop that takes one item at most. -/
theorem greedily_cons_cons_of_neg {a b : α} (ha : p a = true) (hb : p b = false) (l : List α) :
    greedily p (a :: b :: l) = [([a], b :: l), ([], a :: b :: l)] := by
  simp [greedily, lazily, ha, hb]

/-- The first of ways in an order is the one before which no other leads to a match. -/
theorem findSome?_of_pairwise {γ : Type*} {r : γ → γ → Prop} {ways : List γ}
    (hpairs : ways.Pairwise r) {f : γ → Option β} {w : γ} {b : β} (hw : w ∈ ways) (hb : f w = some b)
    (hbefore : ∀ v ∈ ways, r v w → f v = none) : ways.findSome? f = some b := by
  obtain ⟨front, back, rfl⟩ := List.append_of_mem hw
  rw [List.findSome?_append, List.findSome?_cons, hb]
  have hfront : front.findSome? f = none := by
    refine List.findSome?_eq_none_iff.mpr fun v hv => ?_
    exact hbefore v (List.mem_append_left _ hv)
      ((List.pairwise_append.mp hpairs).2.2 v hv w List.mem_cons_self)
  rw [hfront, Option.none_or]

variable {f : List α × List α → Option β}

/-- A lazy loop first goes on without an item. -/
theorem findSome?_lazily_cons (a : α) (l : List α) :
    (lazily p (a :: l)).findSome? f
      = (f ([], a :: l)).or (if p a then (lazily p l).findSome? fun w => f (a :: w.1, w.2) else none) := by
  rw [lazily, List.findSome?_cons]
  cases f ([], a :: l) with
  | some b => rfl
  | none =>
    rw [Option.none_or]
    by_cases ha : p a = true
    · rw [if_pos ha, if_pos ha, List.findSome?_map]
      rfl
    · rw [if_neg ha, if_neg ha]
      rfl

/-- A greedy loop goes on without an item last. -/
theorem findSome?_greedily_cons (a : α) (l : List α) :
    (greedily p (a :: l)).findSome? f
      = (if p a then (greedily p l).findSome? fun w => f (a :: w.1, w.2) else none).or
          (f ([], a :: l)) := by
  have hlast : [([], a :: l)].findSome? f = f ([], a :: l) := by
    cases h : f ([], a :: l) <;> simp [h]
  rw [greedily, lazily, List.reverse_cons, List.findSome?_append, hlast]
  split
  · rw [← List.map_reverse, List.findSome?_map]
    rfl
  · rfl

/-- A lazy loop that takes at least one item. -/
theorem findSome?_lazilySome {l taken rest : List α} {b : β} (h : taken ++ rest = l)
    (hne : taken ≠ []) (htaken : ∀ a ∈ taken, p a = true) (hb : f (taken, rest) = some b)
    (hbefore : ∀ less more, less ++ more = l → less ≠ [] → less.length < taken.length →
      f (less, more) = none) :
    (lazilySome p l).findSome? f = some b := by
  have hmem : ∀ {less more}, (less, more) ∈ lazilySome p l ↔
      less ≠ [] ∧ less ++ more = l ∧ ∀ a ∈ less, p a = true := by
    intro less more
    have hpairs := pairwise_lazily (p := p) l
    rw [← mem_lazily, lazily_eq, List.mem_cons, Prod.mk.injEq]
    rw [lazily_eq, List.pairwise_cons] at hpairs
    constructor
    · exact fun h => ⟨List.ne_nil_of_length_pos (hpairs.1 _ h), .inr h⟩
    · rintro ⟨hne, ⟨hnil, -⟩ | h⟩
      · exact absurd hnil hne
      · exact h
  have hpairs := pairwise_lazily (p := p) l
  rw [lazily_eq] at hpairs
  refine findSome?_of_pairwise hpairs.of_cons (hmem.mpr ⟨hne, h, htaken⟩) hb ?_
  rintro ⟨less, more⟩ hless hlt
  obtain ⟨hne, happend, -⟩ := hmem.mp hless
  exact hbefore less more happend hne hlt

end Backtrack
