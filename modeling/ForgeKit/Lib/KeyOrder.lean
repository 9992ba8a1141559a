import ForgeKit.Lib.Table
import Mathlib.Data.List.Pairwise
import Mathlib.Data.List.Sort

/-!
# Sorting by a key

A stable sort by a key, and texts as keys: they are compared by their first items that differ.

* `pairwise_sortBy_iff` — the sort puts the items in another order if and only if the keys follow it
* `sortBy_eq_iff`, `sortBy_ofRows_eq_iff` — when two lists are sorted to one
* `lexLe_total`, `lexLe_trans` — texts are in a linear order
-/

namespace KeyOrder

/-! ## Texts in order -/

section Lex

variable {α : Type*} [LinearOrder α]

/-- `s <= t`, by the first items that differ. -/
def lexLe : List α → List α → Bool
  | [], _ => true
  | _ :: _, [] => false
  | a :: s, b :: t => decide (a < b) || (decide (a = b) && lexLe s t)

theorem lexLe_cons {a b : α} {s t : List α} :
    lexLe (a :: s) (b :: t) = true ↔ a < b ∨ a = b ∧ lexLe s t = true := by
  simp [lexLe]

theorem lexLe_total (s t : List α) : lexLe s t = true ∨ lexLe t s = true := by
  induction s generalizing t with
  | nil => exact .inl rfl
  | cons a s ih =>
    cases t with
    | nil => exact .inr rfl
    | cons b t =>
      rw [lexLe_cons, lexLe_cons]
      rcases lt_trichotomy a b with hlt | rfl | hlt
      · exact .inl (.inl hlt)
      · exact (ih t).imp (fun h => .inr ⟨rfl, h⟩) fun h => .inr ⟨rfl, h⟩
      · exact .inr (.inl hlt)

theorem lexLe_trans {s t u : List α} (h : lexLe s t = true) (h' : lexLe t u = true) :
    lexLe s u = true := by
  induction s generalizing t u with
  | nil => rfl
  | cons a s ih =>
    cases t with
    | nil => cases h
    | cons b t =>
      cases u with
      | nil => cases h'
      | cons c u =>
        rcases lexLe_cons.mp h with hab | ⟨rfl, hst⟩
        · rcases lexLe_cons.mp h' with hbc | ⟨rfl, -⟩
          · exact lexLe_cons.mpr (.inl (hab.trans hbc))
          · exact lexLe_cons.mpr (.inl hab)
        · rcases lexLe_cons.mp h' with hac | ⟨rfl, htu⟩
          · exact lexLe_cons.mpr (.inl hac)
          · exact lexLe_cons.mpr (.inr ⟨rfl, ih hst htu⟩)

theorem lexLe_antisymm {s t : List α} (h : lexLe s t = true) (h' : lexLe t s = true) : s = t := by
  induction s generalizing t with
  | nil =>
    cases t with
    | nil => rfl
    | cons b t => cases h'
  | cons a s ih =>
    cases t with
    | nil => cases h
    | cons b t =>
      rcases lexLe_cons.mp h with hab | ⟨rfl, hst⟩
      · rcases lexLe_cons.mp h' with hba | ⟨rfl, -⟩
        · exact absurd hba hab.asymm
        · exact absurd hab (lt_irrefl _)
      · rcases lexLe_cons.mp h' with hlt | ⟨-, hts⟩
        · exact absurd hlt (lt_irrefl _)
        · rw [ih hst hts]

end Lex

/-! ## The sort -/

variable {α κ : Type*} {le : κ → κ → Bool} {key : α → κ} {l : List α}

/-- `sorted(l, key=key)`: equal keys stay in their order. -/
def sortBy (le : κ → κ → Bool) (key : α → κ) (l : List α) : List α :=
  l.insertionSort fun a b => le (key a) (key b) = true

theorem perm_sortBy (le : κ → κ → Bool) (key : α → κ) (l : List α) : (sortBy le key l).Perm l :=
  List.perm_insertionSort _ _

theorem mem_sortBy {a : α} : a ∈ sortBy le key l ↔ a ∈ l := (perm_sortBy le key l).mem_iff

theorem pairwise_sortBy (htrans : ∀ x y z, le x y = true → le y z = true → le x z = true)
    (htotal : ∀ x y, le x y = true ∨ le y x = true) :
    (sortBy le key l).Pairwise fun a b => le (key a) (key b) = true :=
  have : Std.Total fun a b => le (key a) (key b) = true := ⟨fun a b => htotal (key a) (key b)⟩
  have : IsTrans α fun a b => le (key a) (key b) = true :=
    ⟨fun a b c => htrans (key a) (key b) (key c)⟩
  List.pairwise_insertionSort _ l

/--
**A sort by a key puts the items in another order if and only if the keys follow that order.**
Items with equal keys have to be alike in the other order.
-/
theorem pairwise_sortBy_iff (htrans : ∀ x y z, le x y = true → le y z = true → le x z = true)
    (htotal : ∀ x y, le x y = true ∨ le y x = true) {r : α → α → Prop}
    (htie : ∀ a ∈ l, ∀ b ∈ l, le (key a) (key b) = true → le (key b) (key a) = true → r a b) :
    (sortBy le key l).Pairwise r ↔ ∀ a ∈ l, ∀ b ∈ l, le (key a) (key b) = true → r a b := by
  have hsorted : (sortBy le key l).Pairwise fun a b => le (key a) (key b) = true :=
    pairwise_sortBy htrans htotal
  constructor
  · intro hpairs a ha b hb hle
    -- whichever of the two comes first, its key is not after the other
    let either : α → α → Prop := fun x y =>
      x = y ∨ (le (key x) (key y) = true ∧ r x y) ∨ (le (key y) (key x) = true ∧ r y x)
    have hsymm : Std.Symm either := ⟨fun _ _ h => h.imp Eq.symm Or.symm⟩
    have heither : (sortBy le key l).Pairwise either := (hsorted.and hpairs).imp fun h => .inr (.inl h)
    rcases heither.forall_of_forall (fun _ _ => .inl rfl) (mem_sortBy.mpr ha) (mem_sortBy.mpr hb) with
      rfl | ⟨-, hr⟩ | ⟨hback, -⟩
    · exact htie a ha a ha hle hle
    · exact hr
    · exact htie a ha b hb hle hback
  · intro h
    exact hsorted.imp_of_mem fun ha hb => h _ (mem_sortBy.mp ha) _ (mem_sortBy.mp hb)

/-- **A sort keeps the order of the items that have one key.** -/
theorem filter_sortBy [DecidableEq κ] (hrefl : ∀ x, le x x = true) (k : κ) :
    (sortBy le key l).filter (fun a => key a = k) = l.filter fun a => key a = k := by
  have hinsert : ∀ (a : α) (l : List α),
      (l.orderedInsert (fun a b => le (key a) (key b) = true) a).filter (fun b => key b = k)
        = (a :: l).filter fun b => key b = k := by
    intro a l
    induction l with
    | nil => rfl
    | cons b l ih =>
      rw [List.orderedInsert]
      split
      · rfl
      · next hle =>
        rw [List.filter_cons, ih, List.filter_cons, List.filter_cons, List.filter_cons]
        by_cases ha : key a = k
        · have hb : key b ≠ k := by
            rintro hb
            rw [ha, hb] at hle
            exact hle (hrefl k)
          simp [ha, hb]
        · simp [ha]
  induction l with
  | nil => rfl
  | cons a l ih =>
    have hstep : sortBy le key (a :: l)
        = (sortBy le key l).orderedInsert (fun a b => le (key a) (key b) = true) a := rfl
    rw [hstep, hinsert, List.filter_cons, ih, List.filter_cons]

/-- **Two sorts give one list** exactly when the items that have one key are the same, in the same
order. -/
theorem sortBy_eq_iff [DecidableEq κ] {l' : List α}
    (htrans : ∀ x y z, le x y = true → le y z = true → le x z = true)
    (htotal : ∀ x y, le x y = true ∨ le y x = true)
    (hanti : ∀ x y, le x y = true → le y x = true → x = y) :
    sortBy le key l = sortBy le key l' ↔
      ∀ k, (l.filter fun a => key a = k) = l'.filter fun a => key a = k := by
  have hrefl : ∀ x, le x x = true := fun x => (htotal x x).elim id id
  constructor
  · intro h k
    rw [← filter_sortBy hrefl k, h, filter_sortBy hrefl k]
  · intro h
    have hall : ∀ k, ((sortBy le key l).filter fun a => key a = k)
        = (sortBy le key l').filter fun a => key a = k := by
      intro k
      rw [filter_sortBy hrefl, filter_sortBy hrefl, h k]
    have hsorted : (sortBy le key l).Pairwise fun a b => le (key a) (key b) = true :=
      pairwise_sortBy htrans htotal
    have hsorted' : (sortBy le key l').Pairwise fun a b => le (key a) (key b) = true :=
      pairwise_sortBy htrans htotal
    revert hall hsorted hsorted'
    generalize sortBy le key l = s
    generalize sortBy le key l' = s'
    clear h
    induction s generalizing s' with
    | nil =>
      intro hall _ _
      cases s' with
      | nil => rfl
      | cons b s' =>
        have hb := hall (key b)
        rw [List.filter_cons_of_pos (by simp)] at hb
        cases hb
    | cons a s ih =>
      intro hall hsorted hsorted'
      cases s' with
      | nil =>
        have ha := hall (key a)
        rw [List.filter_cons_of_pos (by simp)] at ha
        cases ha
      | cons b s' =>
        obtain ⟨hleast, hsorted⟩ := List.pairwise_cons.mp hsorted
        obtain ⟨hleast', htail⟩ := List.pairwise_cons.mp hsorted'
        -- each head has a least key, so the two keys are one
        have hkey : key a = key b := by
          have hmem : a ∈ b :: s' := by
            have ha := hall (key a)
            rw [List.filter_cons_of_pos (by simp)] at ha
            exact (List.mem_filter.mp (ha ▸ List.mem_cons_self)).1
          have hmem' : b ∈ a :: s := by
            have hb := hall (key b)
            rw [List.filter_cons_of_pos (l := s') (by simp)] at hb
            exact (List.mem_filter.mp (hb ▸ List.mem_cons_self)).1
          rcases List.mem_cons.mp hmem with rfl | hmem
          · rfl
          · rcases List.mem_cons.mp hmem' with rfl | hmem'
            · rfl
            · exact hanti _ _ (hleast b hmem') (hleast' a hmem)
        have hhead := hall (key a)
        rw [List.filter_cons_of_pos (by simp), List.filter_cons_of_pos (by simp [hkey])] at hhead
        obtain ⟨rfl, -⟩ := List.cons.inj hhead
        refine congrArg (a :: ·) (ih s' (fun k => ?_) hsorted htail)
        have hk := hall k
        rw [List.filter_cons, List.filter_cons] at hk
        split at hk
        · exact (List.cons.inj hk).2
        · exact hk

/-! ## Items written under a key, then sorted -/

section Latest

variable {α κ σ : Type*} {le : σ → σ → Bool} {key : α → κ} {sortKey : α → σ} [DecidableEq κ]

/-- An item is the last one with its key. -/
def IsLatest (key : α → κ) (l : List α) (a : α) : Prop :=
  l.reverse.find? (fun b => key b = key a) = some a

/-- Each key has the same last item, and of two last items with one sort key the same key comes first. -/
structure SameLatest (key : α → κ) (sortKey : α → σ) (l l' : List α) : Prop where
  latest : ∀ a, IsLatest key l a ↔ IsLatest key l' a
  order : ∀ a b, IsLatest key l a → IsLatest key l b → sortKey a = sortKey b →
    ((l.map key).idxOf (key a) < (l.map key).idxOf (key b) ↔
      (l'.map key).idxOf (key a) < (l'.map key).idxOf (key b))

theorem mem_ofRows_iff {l : List α} {a : α} : a ∈ (Table.ofRows key l).rows ↔ IsLatest key l a := by
  rw [IsLatest, ← Table.find?_ofRows]
  exact ⟨Table.find?_of_mem, Table.mem_of_find?⟩

/-- **Two keyed lists give one sorted list** exactly when their last items are the same, and come in
the same order where the sort does not tell them apart. -/
theorem sortBy_ofRows_eq_iff [DecidableEq σ] {l l' : List α}
    (htrans : ∀ x y z, le x y = true → le y z = true → le x z = true)
    (htotal : ∀ x y, le x y = true ∨ le y x = true)
    (hanti : ∀ x y, le x y = true → le y x = true → x = y) :
    sortBy le sortKey (Table.ofRows key l).rows = sortBy le sortKey (Table.ofRows key l').rows ↔
      SameLatest key sortKey l l' := by
  rw [sortBy_eq_iff htrans htotal hanti]
  have hfilter : ∀ (l : List α) (k : σ) (a : α),
      (a ∈ (Table.ofRows key l).rows.filter fun a => sortKey a = k) ↔ IsLatest key l a ∧ sortKey a = k := by
    intro l k a
    rw [List.mem_filter, mem_ofRows_iff, decide_eq_true_iff]
  have hplaces : ∀ (l : List α) (k : σ),
      ((Table.ofRows key l).rows.filter fun a => sortKey a = k).Pairwise fun a b =>
        (l.map key).idxOf (key a) < (l.map key).idxOf (key b) :=
    fun l k => (Table.pairwise_ofRows l).filter _
  constructor
  · intro h
    refine ⟨fun a => ?_, fun a b ha hb hkey => ?_⟩
    · have hmem := hfilter l (sortKey a) a
      rw [h, hfilter l'] at hmem
      simpa using hmem.symm
    · let alike : α → α → Prop := fun a b =>
        (l.map key).idxOf (key a) < (l.map key).idxOf (key b) ↔
          (l'.map key).idxOf (key a) < (l'.map key).idxOf (key b)
      have hpairs := hplaces l (sortKey b)
      have hpairs' := hplaces l' (sortKey b)
      rw [← h] at hpairs'
      have hboth : ((Table.ofRows key l).rows.filter fun a => sortKey a = sortKey b).Pairwise
          fun a b => alike a b ∧ alike b a :=
        (hpairs.and hpairs').imp fun ⟨hlt, hlt'⟩ =>
          ⟨iff_of_true hlt hlt', iff_of_false hlt.asymm hlt'.asymm⟩
      have hsymm : Std.Symm fun a b => alike a b ∧ alike b a := ⟨fun _ _ h => h.symm⟩
      exact (hboth.forall_of_forall
        (fun _ _ => ⟨iff_of_false (lt_irrefl _) (lt_irrefl _), iff_of_false (lt_irrefl _) (lt_irrefl _)⟩)
        ((hfilter l _ a).mpr ⟨ha, hkey⟩) ((hfilter l _ b).mpr ⟨hb, rfl⟩)).1
  · intro h k
    have hirrefl : Std.Irrefl fun a b : α =>
        (l.map key).idxOf (key a) < (l.map key).idxOf (key b) := ⟨fun _ => lt_irrefl _⟩
    have hanti : Std.Antisymm fun a b : α =>
        (l.map key).idxOf (key a) < (l.map key).idxOf (key b) :=
      ⟨fun _ _ hlt hgt => absurd hgt hlt.asymm⟩
    refine List.Pairwise.eq_of_mem_iff (hplaces l k) ?_ fun a => ?_
    · refine (hplaces l' k).imp_of_mem fun {a b} ha hb hlt => ?_
      rw [hfilter, ← h.latest] at ha hb
      exact (h.order a b ha.1 hb.1 (ha.2.trans hb.2.symm)).mpr hlt
    · rw [hfilter, hfilter, h.latest]

end Latest

end KeyOrder
