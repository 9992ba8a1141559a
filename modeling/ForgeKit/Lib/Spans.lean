import Mathlib.Data.Finset.Image
import Mathlib.Data.Finset.Range
import Mathlib.Data.Finset.Card
import Mathlib.Algebra.Order.Ring.Int
import Mathlib.Data.List.Forall2
import Mathlib.Algebra.BigOperators.Group.List.Basic

/-!
# Half-open spans of integers

Spans of time, or of anything that is counted, and what is carved off them.

* `Overlaps`, `Within` — two spans share a point, one lies in the other
* `card_covered` — spans that do not overlap cover as much as they are long
* `Carves.pairwise` — pieces that are carved off spans overlap only if their spans do
-/

/-- The integers from `start` on and before `stop`. -/
structure Span where
  start : Int
  stop : Int
deriving DecidableEq

namespace Span

/-- Some integer is in both. -/
def Overlaps (a b : Span) : Prop := max a.start b.start < min a.stop b.stop

instance (a b : Span) : Decidable (a.Overlaps b) := inferInstanceAs (Decidable (_ < _))

def Within (a b : Span) : Prop := b.start ≤ a.start ∧ a.stop ≤ b.stop

theorem Within.refl (a : Span) : a.Within a := ⟨le_refl _, le_refl _⟩

theorem Within.trans {a b c : Span} (hab : a.Within b) (hbc : b.Within c) : a.Within c :=
  ⟨hbc.1.trans hab.1, hab.2.trans hbc.2⟩

theorem Overlaps.symm {a b : Span} (h : a.Overlaps b) : b.Overlaps a := by
  unfold Overlaps at *
  rwa [max_comm, min_comm]

theorem Overlaps.mono {a a' b b' : Span} (h : a.Overlaps b) (ha : a.Within a') (hb : b.Within b') :
    a'.Overlaps b' := by
  obtain ⟨ha1, ha2⟩ := ha
  obtain ⟨hb1, hb2⟩ := hb
  unfold Overlaps at *
  omega

/-- What ends before the other starts does not overlap it. -/
theorem not_overlaps_of_le {a b : Span} (h : a.stop ≤ b.start) : ¬a.Overlaps b := by
  unfold Overlaps
  omega

/-! ## Length -/

/-- The integers in the span. -/
def toFinset (s : Span) : Finset Int :=
  (Finset.range (s.stop - s.start).toNat).image fun n : ℕ => s.start + (n : Int)

theorem mem_toFinset {s : Span} {t : Int} : t ∈ s.toFinset ↔ s.start ≤ t ∧ t < s.stop := by
  rw [toFinset, Finset.mem_image]
  constructor
  · rintro ⟨n, hn, rfl⟩
    rw [Finset.mem_range] at hn
    omega
  · rintro ⟨hlo, hhi⟩
    refine ⟨(t - s.start).toNat, ?_, by omega⟩
    rw [Finset.mem_range]
    omega

theorem card_toFinset (s : Span) : s.toFinset.card = (s.stop - s.start).toNat := by
  have hinj : Function.Injective fun n : ℕ => s.start + (n : Int) := fun a b h => by
    have h : s.start + (a : Int) = s.start + b := h
    omega
  rw [toFinset, Finset.card_image_of_injective _ hinj, Finset.card_range]

/-- The integers in some of the spans. -/
def covered (spans : List Span) : Finset Int := spans.foldr (fun s acc => s.toFinset ∪ acc) ∅

theorem mem_covered {spans : List Span} {t : Int} :
    t ∈ covered spans ↔ ∃ s ∈ spans, s.start ≤ t ∧ t < s.stop := by
  induction spans with
  | nil => simp [covered]
  | cons s spans ih =>
    show t ∈ s.toFinset ∪ covered spans ↔ _
    rw [Finset.mem_union, ih, mem_toFinset, List.exists_mem_cons_iff]

/-- **Spans that do not overlap cover as much as they are long.** -/
theorem card_covered {spans : List Span} (h : spans.Pairwise fun a b => ¬a.Overlaps b) :
    ((covered spans).card : Int) = (spans.map fun s => max 0 (s.stop - s.start)).sum := by
  induction spans with
  | nil => rfl
  | cons s spans ih =>
    obtain ⟨hs, hspans⟩ := List.pairwise_cons.mp h
    have hdisjoint : Disjoint s.toFinset (covered spans) := by
      rw [Finset.disjoint_left]
      intro t ht hcovered
      obtain ⟨u, hu, hlo, hhi⟩ := mem_covered.mp hcovered
      rw [mem_toFinset] at ht
      refine hs u hu ?_
      unfold Overlaps
      omega
    show ((s.toFinset ∪ covered spans).card : Int) = _
    rw [Finset.card_union_of_disjoint hdisjoint, card_toFinset, Nat.cast_add, ih hspans,
      List.map_cons, List.sum_cons, Int.toNat_eq_max, max_comm]

/-! ## Carving -/

/-- A piece is carved off one of the spans; what is left of it does not overlap the piece. -/
inductive Carve : List Span → Span → List Span → Prop where
  | here {s piece left : Span} {spans : List Span} (hpiece : piece.Within s) (hleft : left.Within s)
      (hapart : ¬piece.Overlaps left) : Carve (s :: spans) piece (left :: spans)
  | there {s piece : Span} {spans spans' : List Span} (h : Carve spans piece spans') :
      Carve (s :: spans) piece (s :: spans')

/-- Pieces are carved off the spans, one after the other. -/
inductive Carves : List Span → List Span → List Span → Prop where
  | nil (spans : List Span) : Carves spans [] spans
  | cons {spans spans' spans'' pieces : List Span} {piece : Span} (h : Carve spans piece spans')
      (hs : Carves spans' pieces spans'') : Carves spans (piece :: pieces) spans''

/-- What is left lies in the spans, one by one. -/
theorem Carve.within {spans spans' : List Span} {piece : Span} (h : Carve spans piece spans') :
    List.Forall₂ Within spans' spans := by
  induction h with
  | @here s piece left spans _ hleft _ =>
    exact .cons hleft (List.forall₂_same.mpr fun s _ => Within.refl s)
  | there _ ih => exact .cons (Within.refl _) ih

/-- The span that a piece is carved off, and how the piece lies to what is left. -/
theorem Carve.exists_index {spans spans' : List Span} {piece : Span}
    (h : Carve spans piece spans') : ∃ (i : Nat) (s : Span), spans[i]? = some s ∧ piece.Within s ∧
      ∀ left, spans'[i]? = some left → ¬piece.Overlaps left := by
  induction h with
  | @here s piece left spans hpiece _ hapart =>
    refine ⟨0, s, rfl, hpiece, fun left' hleft' => ?_⟩
    cases hleft'
    exact hapart
  | there _ ih =>
    obtain ⟨i, s, hs, hpiece, hapart⟩ := ih
    exact ⟨i + 1, s, hs, hpiece, hapart⟩

/-- The spans in which the pieces lie, after the first was carved. -/
theorem exists_of_forall₂ {spans spans' : List Span} (h : List.Forall₂ Within spans' spans)
    {i : Nat} {s' : Span} (hs' : spans'[i]? = some s') :
    ∃ s, spans[i]? = some s ∧ s'.Within s := by
  induction h generalizing i with
  | nil => cases hs'
  | @cons t' t ts' ts ht _ ih =>
    cases i with
    | zero =>
      cases hs'
      exact ⟨t, rfl, ht⟩
    | succ i => exact ih hs'

/-- **A piece lies in the span that it was carved off.** -/
theorem Carves.exists_within {spans pieces spans' : List Span} (h : Carves spans pieces spans')
    {piece : Span} (hpiece : piece ∈ pieces) :
    ∃ (i : Nat) (s : Span), spans[i]? = some s ∧ piece.Within s := by
  induction h with
  | nil => cases hpiece
  | @cons spans spans' spans'' pieces first hfirst _ ih =>
    rcases List.mem_cons.mp hpiece with rfl | hpiece
    · obtain ⟨i, s, hs, hwithin, -⟩ := hfirst.exists_index
      exact ⟨i, s, hs, hwithin⟩
    · obtain ⟨i, s', hs', hwithin'⟩ := ih hpiece
      obtain ⟨s, hs, hwithin⟩ := exists_of_forall₂ hfirst.within hs'
      exact ⟨i, s, hs, hwithin'.trans hwithin⟩

/-- Two pieces do not overlap, or they lie in two spans. -/
def Apart (spans : List Span) (a b : Span) : Prop :=
  ¬a.Overlaps b ∨ ∃ (i j : Nat) (s t : Span), i ≠ j ∧ spans[i]? = some s ∧ spans[j]? = some t ∧
    a.Within s ∧ b.Within t

theorem Apart.mono {spans spans' : List Span} (h : List.Forall₂ Within spans' spans) {a b : Span}
    (hapart : Apart spans' a b) : Apart spans a b := by
  rcases hapart with hnot | ⟨i, j, s', t', hij, hs', ht', ha, hb⟩
  · exact .inl hnot
  · obtain ⟨s, hs, hss⟩ := exists_of_forall₂ h hs'
    obtain ⟨t, ht, htt⟩ := exists_of_forall₂ h ht'
    exact .inr ⟨i, j, s, t, hij, hs, ht, ha.trans hss, hb.trans htt⟩

/-- **Pieces do not overlap**, unless they lie in two of the spans. -/
theorem Carves.pairwise {spans pieces spans' : List Span} (h : Carves spans pieces spans') :
    pieces.Pairwise (Apart spans) := by
  induction h with
  | nil => exact .nil
  | @cons spans spans' spans'' pieces first hfirst hrest ih =>
    refine .cons (fun piece hpiece => ?_) (ih.imp (Apart.mono hfirst.within))
    obtain ⟨i, s, hs, hwithin, hleft⟩ := hfirst.exists_index
    obtain ⟨j, t', ht', hpiece'⟩ := hrest.exists_within hpiece
    by_cases hij : i = j
    · subst hij
      exact .inl fun hoverlap => hleft t' ht' (hoverlap.mono (Within.refl _) hpiece')
    · obtain ⟨t, ht, htt⟩ := exists_of_forall₂ hfirst.within ht'
      exact .inr ⟨i, j, s, t, hij, hs, ht, hwithin, hpiece'.trans htt⟩

/-- Off spans that do not overlap come pieces that do not overlap. -/
theorem Carves.pairwise_not_overlaps {spans pieces spans' : List Span}
    (h : Carves spans pieces spans') (hspans : spans.Pairwise fun a b => ¬a.Overlaps b) :
    pieces.Pairwise fun a b => ¬a.Overlaps b := by
  refine h.pairwise.imp fun {a b} hapart hoverlap => ?_
  rcases hapart with hnot | ⟨i, j, s, t, hij, hs, ht, ha, hb⟩
  · exact hnot hoverlap
  · have hst : s.Overlaps t := hoverlap.mono ha hb
    obtain ⟨hi, rfl⟩ := List.getElem?_eq_some_iff.mp hs
    obtain ⟨hj, rfl⟩ := List.getElem?_eq_some_iff.mp ht
    rcases Nat.lt_or_gt_of_ne hij with hlt | hlt
    · exact List.pairwise_iff_getElem.mp hspans i j hi hj hlt hst
    · exact List.pairwise_iff_getElem.mp hspans j i hj hi hlt hst.symm

end Span
