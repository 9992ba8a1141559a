import ForgeKit.Lib.Occurrences
import ForgeKit.Research.QueryTokens

/-!
# The canonicalizer of research queries (`research/query_canonicalizer.py`)

A query is rewritten in three stages: patterns of more than one token, Korean aliases, and then token
by token. A pattern is looked for in the lower case of the text and replaced at the same index of the
text itself; behind U+0130, whose lower case is two characters, that is another place.

* `replacePattern_eq` — the loop of a pattern, when no U+0130 is before an occurrence
* `exists_returns` — what is returned
* `idempotent_iff_steady` — which queries are canonicalized for good
-/

namespace ForgeKit.Canonicalizer

open Py (Text CodePoint lit strip lower)
open Occurrences (replaceAll replaceEach detached Window)

/-! ## Tables -/

/-- `_MULTITOKEN_CANONICAL`. -/
def multitokenCanonical : List (Text × Text) :=
  ["ci cd", "ci-cd", "ci/cd", "c i / c d"].map fun pattern => (lit pattern, lit "CI/CD")

/-- `_KOREAN_ALIAS`. -/
def koreanAlias : List (Text × Text) :=
  [("알엠", "LLM"), ("엘엘엠", "LLM"), ("씨아이씨디", "CI/CD"), ("라그", "RAG"), ("캐그", "CAG"),
    ("오아우스", "OAuth"), ("오에스아이", "OSI"), ("에이피아이", "API"),
    ("에이아이", "AI")].map fun e => (lit e.1, lit e.2)

/-- `CanonicalQuery`. -/
structure CanonicalQuery where
  raw : Text
  canonical : Text
  applied : List Replacement := []
  confidence : ℚ := 1

/-! ## Patterns and aliases -/

/-- The first position from `i` on where `p` starts; the text is what there is from `i` on. -/
def findFrom (p : Text) : Nat → Text → Option Nat
  | i, [] => if p.isPrefixOf [] then some i else none
  | i, c :: t => if p.isPrefixOf (c :: t) then some i else findFrom p (i + 1) t

/-- `t.find(p, start)`. -/
def find (t p : Text) (start : Nat) : Option Nat := findFrom p start (t.drop start)

/-- The `while` loop for a pattern. -/
def replacePattern (pattern canonical : Text) : Nat → Text → Nat → Option (Text × List Replacement)
  | 0, _, _ => none
  | fuel + 1, working, start =>
    match find (lower working) pattern start with
    | none => some (working, [])
    | some idx =>
      (replacePattern pattern canonical fuel
        (working.take idx ++ canonical ++ working.drop (idx + pattern.length))
        (idx + canonical.length)).map fun r =>
          (r.1, { raw := pattern, canonical := canonical, source := .multitoken } :: r.2)

/-- Stage 1. -/
def replacePatterns (fuel : Nat) : List (Text × Text) → Text → Option (Text × List Replacement)
  | [], working => some (working, [])
  | (pattern, canonical) :: rules, working => do
    let (working, applied) ← replacePattern pattern canonical fuel working 0
    let (working, more) ← replacePatterns fuel rules working
    some (working, applied ++ more)

/-- `working.replace(alias, canonical)`. -/
def replaceAlias (spoken canonical working : Text) : Text :=
  Occurrences.replaceAll id spoken canonical working

/-- Stage 2. -/
def replaceAliases : List (Text × Text) → Text → Text × List Replacement
  | [], working => (working, [])
  | (spoken, canonical) :: aliases, working =>
    if Py.contains working spoken then
      let r := replaceAliases aliases (replaceAlias spoken canonical working)
      (r.1, { raw := spoken, canonical := canonical, source := .korean } :: r.2)
    else replaceAliases aliases working

/-! ## Queries -/

/-- `t.split()`. -/
def split (t : Text) : List Text := (t.splitOnP Py.isSpace).filter (· ≠ [])

def space : CodePoint := Py.ofChar ' '

/-- `" ".join(tokens)`. -/
def joinSpace (tokens : List Text) : Text := [space].intercalate tokens

/-- What `canonicalize_query` makes of the text that stage 1 leaves. -/
def finish (u : Unicode) (raw : Text) (working : Text) (patterns : List Replacement) : CanonicalQuery :=
  let (working, aliases) := replaceAliases koreanAlias working
  let tokens := ((working.splitOn space).filter (· ≠ [])).map u.rewriteToken
  let applied := patterns ++ aliases ++ tokens.flatMap (·.2)
  { raw := raw
    canonical := strip (joinSpace (tokens.map (·.1)))
    applied := applied
    confidence := (applied.map (·.confidence)).min?.getD 1 }

/-- `canonicalize_query`; `fuel` bounds the rounds of each `while` loop. -/
def canonicalizeQuery (u : Unicode) (fuel : Nat) (raw : Text) : Option CanonicalQuery :=
  if raw = [] ∨ strip raw = [] then some { raw := raw, canonical := [] }
  else (replacePatterns fuel multitokenCanonical (joinSpace (split raw))).map fun r =>
    finish u raw r.1 r.2

/-! ## Lower case, position by position -/

/-- U+0130, which is two characters in lower case. -/
def dotted : CodePoint := Fin.ofNat _ 0x130

/-- The lower case of a character that has one of the same length. -/
def fold (c : CodePoint) : CodePoint := if c = dotted then c else ((Py.lowerCode c).head?).getD c

theorem lowerCode_of_ne {c : CodePoint} (h : c ≠ dotted) : Py.lowerCode c = [fold c] := by
  have hval : c.val ≠ 0x130 := fun hc => h (Fin.ext hc)
  rw [fold, if_neg h]
  rcases Py.lowerCode_cases c with ⟨hc, -⟩ | ⟨-, hc⟩ | ⟨-, -, hc⟩ | ⟨-, -, -, hc⟩
  · exact absurd hc hval
  · rw [hc]; rfl
  · rw [hc]; rfl
  · rw [hc]; rfl

theorem lower_cons_of_ne {c : CodePoint} (h : c ≠ dotted) (t : Text) :
    lower (c :: t) = fold c :: lower t := by
  rw [lower, List.flatMap_cons, lowerCode_of_ne h]
  rfl

theorem lower_dotted (t : Text) :
    lower (dotted :: t) = Py.ofChar 'i' :: Fin.ofNat _ 0x307 :: lower t := rfl

theorem lower_eq_map_fold {t : Text} (h : dotted ∉ t) : lower t = t.map fold := by
  induction t with
  | nil => rfl
  | cons c t ih =>
    rw [List.mem_cons, not_or] at h
    rw [lower_cons_of_ne (Ne.symm h.1), ih h.2]
    rfl

/-- A text that is not read into the two characters of U+0130. -/
def Plain (p : Text) : Prop :=
  dotted ∉ p ∧ Fin.ofNat _ 0x307 ∉ p ∧ p.getLast? ≠ some (Py.ofChar 'i')

instance : DecidablePred Plain := fun p => by unfold Plain; infer_instance

theorem prefix_lower_iff {p : Text} (hp : Plain p) (t : Text) :
    p <+: lower t ↔ p <+: t.map fold := by
  induction t generalizing p with
  | nil => rfl
  | cons c t ih =>
    cases p with
    | nil => exact iff_of_true List.nil_prefix List.nil_prefix
    | cons x p =>
      obtain ⟨hdot, hmark, hlast⟩ := hp
      rw [List.mem_cons, not_or] at hdot hmark
      by_cases hc : c = dotted
      · subst hc
        rw [lower_dotted, List.map_cons, List.cons_prefix_cons, List.cons_prefix_cons]
        refine iff_of_false ?_ fun h => hdot.1 h.1.symm
        rintro ⟨rfl, hrest⟩
        cases p with
        | nil => exact hlast rfl
        | cons y p =>
          rw [List.cons_prefix_cons] at hrest
          exact hmark.2 (hrest.1 ▸ List.mem_cons_self)
      · rw [lower_cons_of_ne hc, List.map_cons, List.cons_prefix_cons, List.cons_prefix_cons]
        cases p with
        | nil => simp
        | cons y p => rw [ih ⟨hdot.2, hmark.2, by simpa using hlast⟩]

theorem infix_of_infix_lower {p : Text} (hp : Plain p) (hne : p ≠ []) {t : Text}
    (h : p <:+: lower t) : p <:+: t.map fold := by
  induction t with
  | nil => exact h
  | cons c t ih =>
    rw [List.map_cons, List.infix_cons_iff]
    by_cases hc : c = dotted
    · subst hc
      rw [lower_dotted, List.infix_cons_iff, List.infix_cons_iff] at h
      obtain ⟨x, p, rfl⟩ := List.exists_cons_of_ne_nil hne
      rcases h with h | h | h
      · have hstart : x :: p <+: lower (dotted :: t) := h
        exact .inl ((prefix_lower_iff hp _).mp hstart)
      · rw [List.cons_prefix_cons] at h
        exact absurd (h.1 ▸ List.mem_cons_self) hp.2.1
      · exact .inr (ih h)
    · rw [lower_cons_of_ne hc, List.infix_cons_iff] at h
      refine h.imp (fun hstart => ?_) ih
      rw [← List.map_cons, ← prefix_lower_iff hp, lower_cons_of_ne hc]
      exact hstart

/-! ## Finding -/

theorem findFrom_eq_none {p : Text} {i : Nat} {t : Text} (h : ¬ p <:+: t) : findFrom p i t = none := by
  induction t generalizing i with
  | nil =>
    rw [findFrom, if_neg]
    rw [List.isPrefixOf_iff_prefix]
    exact fun hp => h hp.isInfix
  | cons c t ih =>
    rw [List.infix_cons_iff, not_or] at h
    rw [findFrom, if_neg (by rw [List.isPrefixOf_iff_prefix]; exact h.1), ih h.2]

theorem findFrom_of_prefix {p : Text} {i : Nat} {t : Text} (h : p <+: t) :
    findFrom p i t = some i := by
  cases t with
  | nil => rw [findFrom, if_pos (List.isPrefixOf_iff_prefix.mpr h)]
  | cons c t => rw [findFrom, if_pos (List.isPrefixOf_iff_prefix.mpr h)]

/-- The first occurrence in lower case, when U+0130 is not before it. -/
theorem findFrom_lower {p : Text} (hp : Plain p) {i : Nat} {a m b : Text} (hm : m.map fold = p)
    (hdot : dotted ∉ a)
    (hfirst : ∀ x c y, a = x ++ c :: y → ¬ p <+: (c :: (y ++ m ++ b)).map fold) :
    findFrom p i (lower (a ++ m ++ b)) = some (i + a.length) := by
  induction a generalizing i with
  | nil =>
    refine findFrom_of_prefix ((prefix_lower_iff hp _).mpr ?_)
    rw [List.nil_append, List.map_append, hm]
    exact List.prefix_append _ _
  | cons c a ih =>
    rw [List.mem_cons, not_or] at hdot
    have hmiss := hfirst [] c a rfl
    rw [← prefix_lower_iff hp, lower_cons_of_ne (Ne.symm hdot.1)] at hmiss
    rw [List.cons_append, List.cons_append, lower_cons_of_ne (Ne.symm hdot.1), findFrom,
      if_neg (by rwa [List.isPrefixOf_iff_prefix]),
      ih hdot.2 fun x d y h => hfirst (c :: x) d y (by rw [h, List.cons_append]),
      List.length_cons]
    congr 1
    omega

/-! ## Patterns -/

/-- No U+0130 is before an occurrence of the pattern. -/
def UnshiftedBy (p t : Text) : Prop := ∀ x y, t = x ++ dotted :: y → ¬ p <:+: y.map fold

theorem UnshiftedBy.suffix {p t : Text} (h : UnshiftedBy p t) {s : Text} (hs : s <:+ t) :
    UnshiftedBy p s := by
  obtain ⟨front, rfl⟩ := hs
  intro x y heq
  exact h (front ++ x) y (by rw [heq, List.append_assoc])

/-- Before a first occurrence there is none. -/
theorem exists_first {p t : Text} (h : p <:+: t.map fold) :
    ∃ a m b, t = a ++ m ++ b ∧ m.map fold = p ∧
      ∀ x c y, a = x ++ c :: y → ¬ p <+: (c :: (y ++ m ++ b)).map fold := by
  induction t with
  | nil =>
    refine ⟨[], [], [], rfl, (List.infix_nil.mp h).symm, ?_⟩
    intro x c y heq
    exact absurd heq (by simp)
  | cons c t ih =>
    by_cases hstart : p <+: (c :: t).map fold
    · obtain ⟨v, hv⟩ := hstart
      obtain ⟨m, b, hmb, hm, -⟩ := List.map_eq_append_iff.mp hv.symm
      refine ⟨[], m, b, hmb, hm, ?_⟩
      intro x c y heq
      exact absurd heq (by simp)
    · rw [List.map_cons, List.infix_cons_iff, ← List.map_cons] at h
      obtain ⟨a, m, b, rfl, hm, hfirst⟩ := ih (h.resolve_left hstart)
      refine ⟨c :: a, m, b, rfl, hm, ?_⟩
      intro x d y heq
      cases x with
      | nil =>
        obtain ⟨rfl, rfl⟩ := List.cons.inj heq
        exact hstart
      | cons e x =>
        obtain ⟨rfl, rfl⟩ := List.cons.inj heq
        exact hfirst x d y rfl

theorem replaceAll_skip {p new a m b : Text} (hp : p ≠ []) (hm : m.map fold = p)
    (hfirst : ∀ x c y, a = x ++ c :: y → ¬ p <+: (c :: (y ++ m ++ b)).map fold) :
    replaceAll fold p new (a ++ m ++ b) = a ++ new ++ replaceAll fold p new b := by
  induction a with
  | nil => exact Occurrences.replaceAll_hit hp hm b
  | cons c a ih =>
    rw [List.cons_append, List.cons_append, Occurrences.replaceAll_miss (hfirst [] c a rfl),
      ih fun x d y h => hfirst (c :: x) d y (by rw [h, List.cons_append])]
    simp

/-- **The loop of a pattern replaces its occurrences**, as long as U+0130 is not before one. -/
theorem replacePattern_eq {p canonical : Text} (hp : Plain p) (hne : p ≠ [])
    (hcanonical : dotted ∉ canonical) {fuel : Nat} {front rest : Text} (hfuel : rest.length < fuel)
    (hfront : dotted ∉ front) (hrest : UnshiftedBy p rest) :
    ∃ applied, replacePattern p canonical fuel (front ++ rest) front.length
      = some (front ++ replaceAll fold p canonical rest, applied) := by
  induction fuel generalizing front rest with
  | zero => omega
  | succ fuel ih =>
    have hfind : find (lower (front ++ rest)) p front.length = findFrom p front.length (lower rest) := by
      rw [find, Py.lower_append, lower_eq_map_fold hfront, List.drop_left' (List.length_map _)]
    by_cases hin : p <:+: rest.map fold
    · obtain ⟨a, m, b, rfl, hm, hfirst⟩ := exists_first hin
      have hdot : dotted ∉ a := by
        intro hmem
        obtain ⟨x, y, rfl⟩ := List.append_of_mem hmem
        refine hrest x (y ++ m ++ b) (by simp) ?_
        rw [List.map_append, List.map_append, hm, List.append_assoc]
        exact (List.prefix_append _ _).isInfix.trans (List.suffix_append _ _).isInfix
      have hlen : p.length = m.length := by rw [← hm, List.length_map]
      have hpos : 0 < p.length := List.length_pos_of_ne_nil hne
      have htake : (front ++ (a ++ m ++ b)).take (front.length + a.length) = front ++ a := by
        rw [show front ++ (a ++ m ++ b) = (front ++ a) ++ (m ++ b) by simp]
        exact List.take_left' List.length_append
      have hdrop : (front ++ (a ++ m ++ b)).drop (front.length + a.length + p.length) = b := by
        rw [show front ++ (a ++ m ++ b) = (front ++ a ++ m) ++ b by simp]
        exact List.drop_left' (by rw [List.length_append, List.length_append, hlen])
      have hfuel' : b.length < fuel := by
        rw [List.length_append, List.length_append] at hfuel
        omega
      have hfront' : dotted ∉ front ++ a ++ canonical := by
        simp only [List.mem_append, not_or]
        exact ⟨⟨hfront, hdot⟩, hcanonical⟩
      obtain ⟨applied, happlied⟩ := ih hfuel' hfront' (hrest.suffix (List.suffix_append _ _))
      rw [replacePattern, hfind, findFrom_lower hp hm hdot hfirst]
      dsimp only
      rw [htake, hdrop, show front.length + a.length + canonical.length
        = (front ++ a ++ canonical).length by simp [Nat.add_assoc], happlied,
        replaceAll_skip hne hm hfirst]
      refine ⟨{ raw := p, canonical := canonical, source := .multitoken } :: applied, ?_⟩
      rw [Option.map_some, List.append_assoc, List.append_assoc, ← List.append_assoc a]
    · have hnone : ¬ p <:+: lower rest := fun h => hin (infix_of_infix_lower hp hne h)
      rw [replacePattern, hfind, findFrom_eq_none hnone]
      refine ⟨[], ?_⟩
      rw [Occurrences.replaceAll_eq_self hne fun m hm hfold => ?_]
      rw [← hfold] at hin
      exact absurd (hm.map fold) hin

/-! ## The first two stages -/

def patterns : List Text := multitokenCanonical.map (·.1)

/-- No U+0130 is before an occurrence of a pattern. -/
def Unshifted (t : Text) : Prop := ∀ p ∈ patterns, UnshiftedBy p t

theorem plain_patterns : ∀ p ∈ patterns, Plain p ∧ p ≠ [] := by decide

theorem dotted_not_mem_canonical : ∀ rule ∈ multitokenCanonical, dotted ∉ rule.2 := by decide

theorem fold_dotted : fold dotted = dotted := rfl

theorem dotted_not_mem_pattern {p : Text} (h : p ∈ patterns) : fold dotted ∉ p := by
  rw [fold_dotted]
  exact (plain_patterns p h).1.1

theorem Unshifted.replaceAll {t : Text} (h : Unshifted t) {rule : Text × Text}
    (hrule : rule ∈ multitokenCanonical) : Unshifted (replaceAll fold rule.1 rule.2 t) := by
  have hpattern : rule.1 ∈ patterns := List.mem_map_of_mem hrule
  have hold := (plain_patterns _ hpattern).2
  intro p hp x y heq
  by_cases hmem : dotted ∈ t
  · obtain ⟨a, b, rfl, ha⟩ := List.eq_append_cons_of_mem hmem
    have hself : Occurrences.replaceAll fold rule.1 rule.2 b = b := by
      refine Occurrences.replaceAll_eq_self hold fun m hm hfold => ?_
      refine absurd ?_ (h _ hpattern a b rfl)
      rw [← hfold]
      exact hm.map fold
    rw [Occurrences.replaceAll_cut hold (dotted_not_mem_pattern hpattern), hself] at heq
    -- the first U+0130 is where it was
    have hfront : dotted ∉ Occurrences.replaceAll fold rule.1 rule.2 a := fun hin =>
      (Occurrences.mem_replaceAll hold hin).elim (dotted_not_mem_canonical rule hrule) ha
    have hsuffix : y <:+ b := by
      rcases List.append_eq_append_iff.mp heq with ⟨z, hx, hz⟩ | ⟨z, hx, hz⟩
      · cases z with
        | nil => exact (List.cons.inj hz).2 ▸ List.suffix_rfl
        | cons c z =>
          refine ⟨z ++ [dotted], ?_⟩
          rw [List.append_assoc]
          exact (List.cons.inj hz).2.symm
      · cases z with
        | nil => exact (List.cons.inj hz).2 ▸ List.suffix_rfl
        | cons c z =>
          obtain ⟨rfl, -⟩ := List.cons.inj hz
          rw [hx] at hfront
          exact absurd (List.mem_append_right _ List.mem_cons_self) hfront
    exact fun hin => h p hp a b rfl (hin.trans (hsuffix.isInfix.map fold))
  · refine absurd ?_ hmem
    have hin : dotted ∈ Occurrences.replaceAll fold rule.1 rule.2 t := by
      rw [heq]
      exact List.mem_append_right _ List.mem_cons_self
    exact (Occurrences.mem_replaceAll hold hin).resolve_left (dotted_not_mem_canonical rule hrule)

/-- **Stage 1 replaces one pattern after the other.** -/
theorem replacePatterns_eq {rules : List (Text × Text)} (hrules : rules ⊆ multitokenCanonical)
    {t : Text} (h : Unshifted t) :
    ∃ fuel₀, ∀ fuel, fuel₀ ≤ fuel →
      ∃ applied, replacePatterns fuel rules t = some (replaceEach fold rules t, applied) := by
  induction rules generalizing t with
  | nil => exact ⟨0, fun _ _ => ⟨[], rfl⟩⟩
  | cons rule rules ih =>
    have hrule := hrules List.mem_cons_self
    have hpattern : rule.1 ∈ patterns := List.mem_map_of_mem hrule
    obtain ⟨hplain, hne⟩ := plain_patterns _ hpattern
    obtain ⟨fuel₀, hrest⟩ := ih (fun r hr => hrules (List.mem_cons_of_mem _ hr)) (h.replaceAll hrule)
    refine ⟨fuel₀ + t.length + 1, fun fuel hfuel => ?_⟩
    have hfuel' : t.length < fuel := by omega
    obtain ⟨applied, happlied⟩ := replacePattern_eq hplain hne (dotted_not_mem_canonical rule hrule)
      hfuel' List.not_mem_nil (h _ hpattern)
    obtain ⟨more, hmore⟩ := hrest fuel (by omega)
    refine ⟨applied ++ more, ?_⟩
    rw [List.nil_append, List.nil_append, List.length_nil] at happlied
    show (replacePattern rule.1 rule.2 fuel t 0 >>= _) = _
    rw [happlied]
    show (replacePatterns fuel rules _ >>= _) = _
    rw [hmore]
    rfl

theorem koreanAlias_ne_nil : ∀ rule ∈ koreanAlias, rule.1 ≠ [] := by decide

theorem replaceAliases_eq {rules : List (Text × Text)} (hrules : ∀ rule ∈ rules, rule.1 ≠ [])
    (t : Text) : (replaceAliases rules t).1 = replaceEach id rules t := by
  induction rules generalizing t with
  | nil => rfl
  | cons rule rules ih =>
    have hne := hrules rule List.mem_cons_self
    have hrest := ih fun r hr => hrules r (List.mem_cons_of_mem _ hr)
    rw [replaceAliases]
    split
    · exact hrest _
    · next hnot =>
      have hself : replaceAll id rule.1 rule.2 t = t :=
        Occurrences.replaceAll_eq_self hne fun m hm hfold => by
          rw [List.map_id] at hfold
          rw [← hfold, Py.contains_iff] at hnot
          exact absurd hm hnot
      rw [Occurrences.replaceEach_cons, hself]
      exact hrest t

/-! ## Texts that a rewritten token does not bring -/

/-- The capital of a small ASCII letter. -/
def capital (c : CodePoint) : CodePoint := if isAsciiLower c then Fin.ofNat _ (c.val - 0x20) else c

/-- The texts that `fold` shows as one. -/
def spellings : Text → List Text
  | [] => [[]]
  | c :: t => (spellings t).flatMap fun s => [c :: s, capital c :: s]

/-- The spellings of `ci-cd` and `ci/cd` but the canonical one. -/
def stray : List Text :=
  spellings (lit "ci-cd") ++ (spellings (lit "ci/cd")).filter (· ≠ lit "CI/CD")

theorem eq_or_capital {c d : CodePoint} (h : fold d = c) (hascii : c.val < 0x80)
    (hk : c ≠ Py.ofChar 'k') : d = c ∨ d = capital c := by
  by_cases hdot : d = dotted
  · rw [fold, if_pos hdot] at h
    exact .inl h
  · have hlower := lowerCode_of_ne hdot
    rw [h] at hlower
    rcases Py.lowerCode_cases d with ⟨-, hd⟩ | ⟨-, hd⟩ | ⟨hlow, hhigh, hd⟩ | ⟨-, -, -, hd⟩
    · rw [hd] at hlower
      cases hlower
    · rw [hd] at hlower
      exact absurd (List.singleton_inj.mp hlower).symm hk
    · rw [hd] at hlower
      have hc := (List.singleton_inj.mp hlower).symm
      have hval := congrArg Fin.val hc
      have hmod := Py.val_ofNat (show d.val + 0x20 < 1114112 by omega)
      rw [hmod] at hval
      refine .inr ?_
      have hsmall : isAsciiLower c = true := by
        simp [isAsciiLower]
        omega
      rw [capital, if_pos hsmall, hval, Nat.add_sub_cancel]
      exact (Fin.ofNat_val_eq_self d).symm
    · rw [hd] at hlower
      exact .inl (List.singleton_inj.mp hlower)

theorem mem_spellings {t p : Text} (h : t.map fold = p)
    (hp : p.all (fun c => c.val < 0x80 && c != Py.ofChar 'k') = true) : t ∈ spellings p := by
  induction p generalizing t with
  | nil =>
    rw [List.map_eq_nil_iff] at h
    rw [h]
    exact List.mem_singleton_self _
  | cons c p ih =>
    obtain ⟨d, s, rfl, hd, hs⟩ := List.map_eq_cons_iff.mp h
    rw [List.all_cons, Bool.and_eq_true, Bool.and_eq_true, decide_eq_true_eq, bne_iff_ne] at hp
    refine List.mem_flatMap.mpr ⟨s, ih hs hp.2, ?_⟩
    rcases eq_or_capital hd hp.1.1 hp.1.2 with rfl | rfl
    · exact List.mem_cons_self
    · exact List.mem_cons_of_mem _ List.mem_cons_self

/-- An occurrence of `ci-cd` or `ci/cd` is a stray one or `CI/CD`. -/
theorem eq_of_not_stray {t p : Text} (hp : p = lit "ci-cd" ∨ p = lit "ci/cd") (h : t.map fold = p)
    (hstray : t ∉ stray) : t = lit "CI/CD" := by
  rcases hp with rfl | rfl
  · exact absurd (List.mem_append_left _ (mem_spellings h (by decide))) hstray
  · by_contra hne
    exact hstray (List.mem_append_right _
      (List.mem_filter.mpr ⟨mem_spellings h (by decide), by simpa using hne⟩))

/-- What stage 1 and stage 2 put in. -/
def rules : List (Text × Text) := multitokenCanonical ++ koreanAlias

theorem detached_stray : ∀ key ∈ stray, ∀ rule ∈ rules, detached key (rule.2.map id) = true := by
  decide +kernel

theorem detached_alias : ∀ key ∈ koreanAlias.map (·.1), ∀ rule ∈ koreanAlias,
    detached key (rule.2.map id) = true := by
  decide +kernel

theorem stray_eq : ∀ key ∈ stray, key ≠ [] ∧ ∃ rule ∈ multitokenCanonical, rule.1 = key.map fold := by
  decide +kernel

theorem rules_ne_nil : ∀ rule ∈ rules, rule.1 ≠ [] := by decide

/-- The text that stage 3 goes over. -/
def prepared (t : Text) : Text := replaceEach id koreanAlias (replaceEach fold multitokenCanonical t)

theorem not_infix_prepared {key : Text} (h : key ∈ stray ∨ key ∈ koreanAlias.map (·.1)) (t : Text) :
    ¬ key <:+: prepared t := by
  rw [prepared, ← List.map_id (replaceEach id _ _)]
  rcases h with h | h
  · obtain ⟨hne, rule, hrule, hkey⟩ := stray_eq key h
    refine Occurrences.replaceEach_induction (P := fun t => ¬ key <:+: t.map id) ?_ ?_
    · refine Occurrences.not_infix_replaceEach hne (fun r hr => ?_) ⟨rule, hrule, fun t ht => ?_⟩ t
      · have hmem : r ∈ rules := List.mem_append_left _ hr
        exact ⟨rules_ne_nil r hmem, detached_stray key h r hmem⟩
      · rw [hkey]
        rw [List.map_id] at ht
        exact ht.map fold
    · intro r hr s hs hin
      have hmem : r ∈ rules := List.mem_append_right _ hr
      exact hs (Occurrences.infix_of_infix_replaceAll (rules_ne_nil r hmem) hne
        (detached_stray key h r hmem) hin)
  · obtain ⟨rule, hrule, rfl⟩ := List.mem_map.mp h
    have hne := koreanAlias_ne_nil rule hrule
    refine Occurrences.not_infix_replaceEach hne (fun r hr => ?_) ⟨rule, hrule, fun t ht => ht⟩ _
    exact ⟨koreanAlias_ne_nil r hr, detached_alias _ h r hr⟩

namespace Unicode

variable (u : Unicode)

/-! ### In tokens -/

/-- What starts and ends in core characters is not in the punctuation. -/
theorem infix_core {key head core tail : Text} (hhead : ∀ c ∈ head, u.isCore c = false)
    (htail : ∀ c ∈ tail, u.isCore c = false) (hfirst : ∃ c, key.head? = some c ∧ u.isCore c = true)
    (hlast : ∃ c, key.getLast? = some c ∧ u.isCore c = true)
    (h : key <:+: head ++ core ++ tail) : key <:+: core := by
  have hfront : ∀ {key head rest : Text}, (∀ c ∈ head, u.isCore c = false) →
      (∃ c, key.head? = some c ∧ u.isCore c = true) → key <:+: head ++ rest → key <:+: rest := by
    rintro key head rest hhead ⟨c, hc, hcore⟩ hin
    rcases Occurrences.infix_append_iff.mp hin with ⟨a, b, rfl, hne, hstart⟩ | hrest
    · obtain ⟨k, rfl⟩ := List.head?_eq_some_iff.mp hc
      obtain ⟨d, b, rfl⟩ := List.exists_cons_of_ne_nil hne
      rw [List.cons_append, List.cons_prefix_cons] at hstart
      rw [hstart.1, hhead d (by simp)] at hcore
      cases hcore
    · exact hrest
  rw [List.append_assoc] at h
  have hcoreTail := hfront hhead hfirst h
  rw [← List.reverse_infix, List.reverse_append] at hcoreTail
  refine List.reverse_infix.mp (hfront (fun c hc => htail c (List.mem_reverse.mp hc)) ?_ hcoreTail)
  rwa [List.head?_reverse]

theorem stray_shape : ∀ key ∈ stray, (match key with
    | x :: y :: z :: _ => isLetter x && isLetter y && !isLetter z && decide (z.val < 0x80)
        && !(0x30 ≤ z.val && z.val ≤ 0x39)
        && runs.all (fun run => !([x, y].isSuffixOf (spelled run)))
    | _ => false) = true ∧ key.getLast?.any isLetter = true := by decide +kernel

/-- Two letters and a separator that no acronym ends in are not in a compound. -/
theorem not_infix_compound {x y z : CodePoint} (hx : isLetter x = true) (hy : isLetter y = true)
    (hz : isLetter z = false) (hends : ∀ run ∈ runs, ¬ [x, y] <:+ spelled run)
    {parts : List (Text × Text)} (hparts : ∀ part ∈ parts, u.IsPart part) :
    ¬ [x, y, z] <:+: compound parts := by
  induction parts with
  | nil =>
    intro h
    cases List.infix_nil.mp h
  | cons part parts ih =>
    have hpart := hparts part List.mem_cons_self
    have hrest := fun p hp => hparts p (List.mem_cons_of_mem _ hp)
    rw [compound_cons, Occurrences.infix_append_iff, Occurrences.infix_append_iff]
    rintro (⟨a, b, hab, hne, hstart⟩ | ⟨a, b, hab, hne, hstart⟩ | hin)
    · have hletter : ∀ c ∈ b, isLetter c = true := fun c hc =>
        isLetter_of_mem_spelled hpart.run (by rw [hab]; exact List.mem_append_right _ hc)
      match b, hne with
      | [b₁], _ =>
        rw [List.singleton_append, List.cons_prefix_cons] at hstart
        cases hsep : part.2 with
        | nil =>
          rw [hsep, List.nil_append] at hstart
          -- the separator would be the second letter of the next acronym
          cases parts with
          | nil => cases List.prefix_nil.mp hstart.2
          | cons q parts =>
            have hq := (hrest q List.mem_cons_self).run
            have hlen := (spelled_runs _ hq).1
            have htwo := (lookup_runs _ hq).2.1
            match hs : spelled q.1 with
            | [] => rw [hs] at hlen; simp at hlen; omega
            | [_] => rw [hs] at hlen; simp at hlen; omega
            | q₁ :: q₂ :: s =>
              rw [compound_cons, hs, List.cons_append, List.cons_append, List.cons_prefix_cons,
                List.cons_prefix_cons] at hstart
              have hq₂ := isLetter_of_mem_spelled hq (c := q₂) (by rw [hs]; simp)
              rw [← hstart.2.2.1, hz] at hq₂
              cases hq₂
        | cons e sep =>
          rw [hsep, List.cons_append, List.cons_prefix_cons] at hstart
          have hnon := hpart.separator.nonalpha e (by rw [hsep]; exact List.mem_cons_self)
          rw [← hstart.2.1, u.isAlpha_of_letter hy] at hnon
          cases hnon
      | [b₁, b₂], _ =>
        rw [List.cons_append, List.singleton_append, List.cons_prefix_cons, List.cons_prefix_cons]
          at hstart
        refine hends part.1 hpart.run ?_
        rw [hab, hstart.1, hstart.2.1]
        exact List.suffix_append _ _
      | b₁ :: b₂ :: b₃ :: b, _ =>
        rw [List.cons_append, List.cons_append, List.cons_append, List.cons_prefix_cons,
          List.cons_prefix_cons, List.cons_prefix_cons] at hstart
        have hb₃ := hletter b₃ (by simp)
        rw [← hstart.2.2.1, hz] at hb₃
        cases hb₃
    · -- no letter is in a separator
      obtain ⟨d, b, rfl⟩ := List.exists_cons_of_ne_nil hne
      rw [List.cons_append, List.cons_prefix_cons] at hstart
      have hnon := hpart.separator.nonalpha d (by rw [hab]; simp)
      rw [← hstart.1, u.isAlpha_of_letter hx] at hnon
      cases hnon
    · exact ih hrest hin

end Unicode

theorem not_hangul_of_ascii {c : CodePoint} (h : c.val < 0x80) : isHangul c = false := by
  simp [isHangul]
  omega

theorem alias_shape : ∀ key ∈ koreanAlias.map (·.1), key.head?.any isHangul = true
    ∧ key.getLast?.any isHangul = true := by decide +kernel

theorem exists_of_any {o : Option CodePoint} {p : CodePoint → Bool} (h : o.any p = true) :
    ∃ c, o = some c ∧ p c = true := by
  cases o with
  | none => cases h
  | some c => exact ⟨c, rfl, h⟩

namespace Unicode

variable (u : Unicode)

/-- The keys that are looked for start and end in core characters. -/
theorem core_ends {key : Text} (h : key ∈ stray ∨ key ∈ koreanAlias.map (·.1)) :
    (∃ c, key.head? = some c ∧ u.isCore c = true) ∧
      ∃ c, key.getLast? = some c ∧ u.isCore c = true := by
  rcases h with h | h
  · obtain ⟨hshape, hlast⟩ := stray_shape key h
    obtain ⟨d, hd, hd'⟩ := exists_of_any hlast
    refine ⟨?_, d, hd, u.isCore_of_letter hd'⟩
    split at hshape
    · next x y z rest =>
      simp only [Bool.and_eq_true] at hshape
      exact ⟨x, rfl, u.isCore_of_letter hshape.1.1.1.1.1⟩
    · cases hshape
  · obtain ⟨hfirst, hlast⟩ := alias_shape key h
    obtain ⟨c, hc, hc'⟩ := exists_of_any hfirst
    obtain ⟨d, hd, hd'⟩ := exists_of_any hlast
    exact ⟨⟨c, hc, u.isCore_of_alpha (u.isAlpha_hangul c hc')⟩,
      d, hd, u.isCore_of_alpha (u.isAlpha_hangul d hd')⟩

theorem not_infix_entry {key : Text} (h : key ∈ stray ∨ key ∈ koreanAlias.map (·.1))
    {e : Text × Text} (he : e ∈ acronymCanonical) : ¬ key <:+: e.2 := by
  intro hin
  have hchars : ∀ c ∈ key, isAsciiAlnum c = true := fun c hc =>
    List.all_eq_true.mp (entries e he).2.2.2.1 c (hin.subset hc)
  rcases h with h | h
  · have hshape := (stray_shape key h).1
    split at hshape
    · next x y z rest =>
      simp only [Bool.and_eq_true, Bool.not_eq_true'] at hshape
      obtain ⟨⟨⟨⟨-, hz⟩, -⟩, hdigit⟩, -⟩ := hshape
      have hbad := hchars z (by simp)
      rw [isAsciiAlnum, hz, hdigit] at hbad
      cases hbad
    · cases hshape
  · obtain ⟨c, hc, hhangul⟩ := exists_of_any (alias_shape key h).1
    rw [not_hangul_of_ascii (ascii_of_alnum (hchars c (List.mem_of_head? hc)))] at hhangul
    cases hhangul

theorem not_infix_parts {key : Text} (h : key ∈ stray ∨ key ∈ koreanAlias.map (·.1))
    {parts : List (Text × Text)} (hparts : ∀ part ∈ parts, u.IsPart part) :
    ¬ key <:+: compound parts := by
  intro hin
  rcases h with h | h
  · have hshape := (stray_shape key h).1
    split at hshape
    · next x y z rest =>
      simp only [Bool.and_eq_true, Bool.not_eq_true'] at hshape
      obtain ⟨⟨⟨⟨⟨hx, hy⟩, hz⟩, -⟩, -⟩, hends⟩ := hshape
      refine u.not_infix_compound hx hy hz (fun run hrun hsuffix => ?_) hparts
        (List.IsInfix.trans (List.prefix_append [x, y, z] rest).isInfix hin)
      have hnot := List.all_eq_true.mp hends run hrun
      rw [Bool.not_eq_true', ← Bool.not_eq_true, List.isSuffixOf_iff_suffix] at hnot
      exact hnot hsuffix
    · cases hshape
  · obtain ⟨c, hc, hhangul⟩ := exists_of_any (alias_shape key h).1
    rcases u.mem_compound hparts (hin.subset (List.mem_of_head? hc)) with hletter | ⟨part, hpart, hmem⟩
    · rw [not_hangul_of_ascii (letter_lt hletter)] at hhangul
      cases hhangul
    · have hnon := (hparts part hpart).separator.nonalpha c hmem
      rw [u.isAlpha_hangul c hhangul] at hnon
      cases hnon

/-- **Rewriting a token brings no stray pattern and no alias.** -/
theorem infix_of_infix_rewrite {key : Text} (h : key ∈ stray ∨ key ∈ koreanAlias.map (·.1))
    {token : Text} (hin : key <:+: u.rewrite token) : key <:+: token := by
  rcases u.exists_core token with hnil | ⟨head, core, tail, rfl, hcore, hhead, htail, hfirst, hlast⟩
  · rwa [u.rewrite_of_core_nil hnil] at hin
  rw [u.rewrite_append hhead htail hfirst hlast] at hin
  cases hcanonical : u.canonicalOf core with
  | none =>
    rw [hcanonical] at hin
    exact hin
  | some r =>
    obtain ⟨canonical, source⟩ := r
    rw [hcanonical] at hin
    obtain ⟨hkfirst, hklast⟩ := u.core_ends h
    have hmid : key <:+: canonical := u.infix_core hhead htail hkfirst hklast hin
    rcases u.canonicalOf_cases hcanonical with ⟨-, e, he, rfl⟩ | ⟨-, rfl⟩
    · exact absurd hmid (not_infix_entry h he)
    · have hparts : ∀ part ∈ u.parts (u.segments core), u.IsPart part := fun part hpart =>
        u.isPart_parts (List.Subset.refl _) hpart
      exact absurd (hmid.trans (List.rdropWhile_prefix _ _).isInfix) (u.not_infix_parts h hparts)

end Unicode

/-! ## Queries as tokens -/

/-- A token: not empty, and without white space. -/
structure IsToken (t : Text) : Prop where
  ne_nil : t ≠ []
  nonspace : ∀ c ∈ t, Py.isSpace c = false

theorem IsToken.space {t : Text} (h : IsToken t) : space ∉ t := by
  intro hmem
  have hspace := h.nonspace _ hmem
  cases hspace

theorem split_cons_space {c : CodePoint} (hc : Py.isSpace c = true) (a b : Text) :
    split (a ++ c :: b) = split a ++ split b := by
  rw [split, split, split, List.splitOnP_append_cons a b hc, List.filter_append]

theorem split_of_token {t : Text} (h : IsToken t) : split t = [t] := by
  rw [split, List.splitOnP_eq_singleton h.nonspace, List.filter_cons_of_pos (by simpa using h.ne_nil)]
  rfl

/-- Joined tokens are split again. -/
theorem split_joinSpace {ts : List Text} (h : ∀ t ∈ ts, IsToken t) : split (joinSpace ts) = ts := by
  induction ts with
  | nil => rfl
  | cons t ts ih =>
    have ht := h t List.mem_cons_self
    have hrest := fun s hs => h s (List.mem_cons_of_mem _ hs)
    cases ts with
    | nil =>
      rw [joinSpace, List.intercalate_singleton]
      exact split_of_token ht
    | cons s ts =>
      rw [joinSpace, Occurrences.intercalate_cons_cons, split_cons_space rfl, split_of_token ht]
      exact congrArg (t :: ·) (ih hrest)

theorem isToken_of_mem_split {t s : Text} (h : s ∈ split t) : IsToken s := by
  obtain ⟨hmem, hne⟩ := List.mem_filter.mp h
  refine ⟨by simpa using hne, ?_⟩
  clear h hne
  induction hn : t.length using Nat.strong_induction_on generalizing t with
  | _ n ih =>
    by_cases hall : ∀ c ∈ t, Py.isSpace c = false
    · rw [List.splitOnP_eq_singleton hall, List.mem_singleton] at hmem
      rwa [hmem]
    · push Not at hall
      obtain ⟨c, hc, hspace⟩ := hall
      obtain ⟨a, b, rfl⟩ := List.append_of_mem hc
      rw [List.splitOnP_append_cons a b (by simpa using hspace), List.mem_append] at hmem
      rw [List.length_append, List.length_cons] at hn
      rcases hmem with hmem | hmem
      · exact ih a.length (by omega) hmem rfl
      · exact ih b.length (by omega) hmem rfl

/-- The tokens that stage 3 goes over. -/
def tokensOf (t : Text) : List Text := (t.splitOn space).filter (· ≠ [])

theorem tokensOf_joinSpace {ts : List Text} (h : ∀ t ∈ ts, IsToken t) : tokensOf (joinSpace ts) = ts := by
  cases ts with
  | nil => rfl
  | cons t ts =>
    have hsplit : (joinSpace (t :: ts)).splitOn space = t :: ts :=
      List.splitOn_intercalate space (fun s hs => (h s hs).space) (List.cons_ne_nil _ _)
    rw [tokensOf, hsplit]
    exact List.filter_eq_self.mpr fun s hs => by simpa using (h s hs).ne_nil

theorem strip_joinSpace {ts : List Text} (h : ∀ t ∈ ts, IsToken t) : strip (joinSpace ts) = joinSpace ts := by
  have hfirst : ∀ c, (joinSpace ts).head? = some c → Py.isSpace c = false := by
    intro c hc
    cases ts with
    | nil => cases hc
    | cons t ts =>
      have ht := h t List.mem_cons_self
      obtain ⟨d, s, hs⟩ := List.exists_cons_of_ne_nil ht.ne_nil
      have hd : (joinSpace (t :: ts)).head? = some d := by
        cases ts with
        | nil =>
          rw [joinSpace, List.intercalate_singleton, hs]
          rfl
        | cons t' ts =>
          rw [joinSpace, Occurrences.intercalate_cons_cons, hs]
          rfl
      rw [hd] at hc
      rw [← Option.some.inj hc]
      exact ht.nonspace d (by rw [hs]; exact List.mem_cons_self)
  have hlast : ∀ c, (joinSpace ts).getLast? = some c → Py.isSpace c = false := by
    intro c hc
    rcases List.eq_nil_or_concat ts with rfl | ⟨front, t, rfl⟩
    · cases hc
    · rw [List.concat_eq_append] at hc h
      have ht := h t (by simp)
      have hend : (joinSpace (front ++ [t])).getLast? = some (t.getLast ht.ne_nil) := by
        cases front with
        | nil =>
          rw [List.nil_append, joinSpace, List.intercalate_singleton]
          exact List.getLast?_eq_some_getLast ht.ne_nil
        | cons s front =>
          rw [joinSpace, Occurrences.intercalate_append (List.cons_ne_nil _ _) (List.cons_ne_nil _ _),
            List.intercalate_singleton, List.getLast?_append, List.getLast?_cons,
            List.getLast?_eq_some_getLast ht.ne_nil]
          rfl
      rw [hend] at hc
      rw [← Option.some.inj hc]
      exact ht.nonspace _ (List.getLast_mem ht.ne_nil)
  have hleft := Py.lstrip_append (a := []) hfirst
  have hright := Py.rstrip_append (a := []) hlast
  rw [List.append_nil] at hright
  rw [strip]
  have hl : Py.lstrip (joinSpace ts) = joinSpace ts := hleft
  rw [hl, hright]
  simp [Py.rstrip]

/-! ### The characters of the prepared text -/

theorem rules_chars : ∀ rule ∈ rules, rule.2.all (fun c => isAsciiAlnum c || c == Py.ofChar '/') = true := by
  decide +kernel

theorem mem_prepared {t : Text} {c : CodePoint} (h : c ∈ prepared t) :
    c ∈ t ∨ isAsciiAlnum c = true ∨ c = Py.ofChar '/' := by
  have hstep : ∀ {f : CodePoint → CodePoint} {rule : Text × Text}, rule ∈ rules → ∀ s : Text,
      (∀ d ∈ s, d ∈ t ∨ isAsciiAlnum d = true ∨ d = Py.ofChar '/') →
      ∀ d ∈ replaceAll f rule.1 rule.2 s, d ∈ t ∨ isAsciiAlnum d = true ∨ d = Py.ofChar '/' := by
    intro f rule hrule s hs d hd
    rcases Occurrences.mem_replaceAll (rules_ne_nil rule hrule) hd with hnew | hold
    · have hchar := List.all_eq_true.mp (rules_chars rule hrule) d hnew
      rw [Bool.or_eq_true, beq_iff_eq] at hchar
      exact .inr hchar
    · exact hs d hold
  refine Occurrences.replaceEach_induction
    (P := fun s => ∀ d ∈ s, d ∈ t ∨ isAsciiAlnum d = true ∨ d = Py.ofChar '/') ?_
    (fun rule hrule s hs => hstep (List.mem_append_right _ hrule) s hs) c h
  exact Occurrences.replaceEach_induction
    (P := fun s => ∀ d ∈ s, d ∈ t ∨ isAsciiAlnum d = true ∨ d = Py.ofChar '/')
    (fun d hd => .inl hd) fun rule hrule s hs => hstep (List.mem_append_left _ hrule) s hs

theorem nonspace_of_alnum {c : CodePoint} (h : isAsciiAlnum c = true) : Py.isSpace c = false := by
  have hval : (0x41 ≤ c.val ∧ c.val ≤ 0x5A) ∨ (0x61 ≤ c.val ∧ c.val ≤ 0x7A)
      ∨ (0x30 ≤ c.val ∧ c.val ≤ 0x39) := by
    simpa [isAsciiAlnum, isLetter, isAsciiUpper, isAsciiLower, or_assoc] using h
  simp [Py.isSpace]
  omega

theorem ne_dotted_of_ascii {c : CodePoint} (h : c.val < 0x80) : c ≠ dotted := by
  rintro rfl
  exact absurd h (by decide)

/-- The text that stage 1 starts with. -/
def normalized (raw : Text) : Text := joinSpace (split raw)

/-- The tokens of a query. -/
def tokens (raw : Text) : List Text := tokensOf (prepared (normalized raw))

theorem mem_joinSpace {ts : List Text} {c : CodePoint} (h : c ∈ joinSpace ts) :
    c = space ∨ ∃ t ∈ ts, c ∈ t := by
  induction ts with
  | nil => cases h
  | cons t ts ih =>
    cases ts with
    | nil =>
      rw [joinSpace, List.intercalate_singleton] at h
      exact .inr ⟨t, List.mem_cons_self, h⟩
    | cons s ts =>
      rw [joinSpace, Occurrences.intercalate_cons_cons, List.mem_append, List.mem_cons] at h
      rcases h with h | rfl | h
      · exact .inr ⟨t, List.mem_cons_self, h⟩
      · exact .inl rfl
      · rcases ih h with rfl | ⟨w, hw, hc⟩
        · exact .inl rfl
        · exact .inr ⟨w, List.mem_cons_of_mem _ hw, hc⟩

theorem mem_of_mem_splitOn {t w : Text} (h : w ∈ t.splitOn space) : w <:+: t := by
  have hin : w <:+: [space].intercalate (t.splitOn space) := Occurrences.infix_intercalate_of_mem h
  rwa [List.intercalate_splitOn] at hin

theorem isToken_of_mem_tokens {raw t : Text} (h : t ∈ tokens raw) : IsToken t := by
  obtain ⟨hmem, hne⟩ := List.mem_filter.mp h
  refine ⟨by simpa using hne, fun c hc => ?_⟩
  have hspace : c ≠ space := fun heq => Occurrences.not_mem_of_mem_splitOn hmem (heq ▸ hc)
  rcases mem_prepared ((mem_of_mem_splitOn hmem).subset hc) with h | h | rfl
  · rcases mem_joinSpace h with rfl | ⟨w, hw, hcw⟩
    · exact absurd rfl hspace
    · exact (isToken_of_mem_split hw).nonspace c hcw
  · exact nonspace_of_alnum h
  · rfl

theorem infix_of_mem_tokens {raw t : Text} (h : t ∈ tokens raw) : t <:+: prepared (normalized raw) :=
  mem_of_mem_splitOn (List.mem_filter.mp h).1

/-! ## Runs of the canonicalizer -/

/-- The call ends, with this result. -/
def Returns (u : Unicode) (raw : Text) (result : CanonicalQuery) : Prop :=
  ∃ fuel, canonicalizeQuery u fuel raw = some result

/-- Canonicalizing a second time changes nothing. -/
def Idempotent (u : Unicode) (raw : Text) : Prop :=
  ∃ first second, Returns u raw first ∧ Returns u first.canonical second ∧
    second.canonical = first.canonical

theorem replacePattern_mono {pattern canonical : Text} {fuel fuel' : Nat} (h : fuel ≤ fuel')
    {working : Text} {start : Nat} {r : Text × List Replacement}
    (hr : replacePattern pattern canonical fuel working start = some r) :
    replacePattern pattern canonical fuel' working start = some r := by
  induction fuel generalizing fuel' working start r with
  | zero => cases hr
  | succ fuel ih =>
    obtain ⟨fuel', rfl⟩ : ∃ k, fuel' = k + 1 := ⟨fuel' - 1, by omega⟩
    rw [replacePattern] at hr ⊢
    split at hr
    · exact hr
    · obtain ⟨s, hs, rfl⟩ := Option.map_eq_some_iff.mp hr
      rw [ih (by omega) hs]
      rfl

theorem replacePatterns_mono {rules : List (Text × Text)} {fuel fuel' : Nat} (h : fuel ≤ fuel')
    {working : Text} {r : Text × List Replacement}
    (hr : replacePatterns fuel rules working = some r) : replacePatterns fuel' rules working = some r := by
  induction rules generalizing working r with
  | nil => exact hr
  | cons rule rules ih =>
    rw [replacePatterns] at hr
    obtain ⟨s, hs, hr⟩ := Option.bind_eq_some_iff.mp hr
    obtain ⟨s', hs', hr⟩ := Option.bind_eq_some_iff.mp hr
    rw [replacePatterns, replacePattern_mono h hs]
    show (replacePatterns fuel' rules s.1 >>= _) = _
    rw [ih hs']
    exact hr

theorem Returns.unique {u : Unicode} {raw : Text} {a b : CanonicalQuery} (ha : Returns u raw a)
    (hb : Returns u raw b) : a = b := by
  have hmono : ∀ {fuel fuel' : Nat}, fuel ≤ fuel' → ∀ {r}, canonicalizeQuery u fuel raw = some r →
      canonicalizeQuery u fuel' raw = some r := by
    intro fuel fuel' hle r hr
    rw [canonicalizeQuery] at hr ⊢
    split at hr
    · next h => rwa [if_pos h]
    · next h =>
      obtain ⟨s, hs, rfl⟩ := Option.map_eq_some_iff.mp hr
      rw [if_neg h, replacePatterns_mono hle hs]
      rfl
  obtain ⟨fuel, ha⟩ := ha
  obtain ⟨fuel', hb⟩ := hb
  have ha' := hmono (Nat.le_max_left fuel fuel') ha
  rw [hmono (Nat.le_max_right fuel fuel') hb] at ha'
  exact (Option.some.inj ha').symm

theorem split_of_blank {raw : Text} (h : raw = [] ∨ strip raw = []) : split raw = [] := by
  have hall : ∀ c ∈ raw, Py.isSpace c = true := by
    rcases h with rfl | h
    · intro c hc
      cases hc
    · exact Py.strip_eq_nil_iff.mp h
  cases hsplit : split raw with
  | nil => rfl
  | cons t ts =>
    have hmem : t ∈ split raw := by
      rw [hsplit]
      exact List.mem_cons_self
    have ht := isToken_of_mem_split hmem
    obtain ⟨c, s, hs⟩ := List.exists_cons_of_ne_nil ht.ne_nil
    clear hsplit
    -- a character of the token would be one of the text
    have hin : ∀ {t : Text} {w : Text}, (∀ c ∈ t, Py.isSpace c = true) → w ∈ split t → False := by
      intro t w hall hw
      have hw' := isToken_of_mem_split hw
      induction t with
      | nil =>
        rw [split] at hw
        have := (List.mem_filter.mp hw).1
        rw [List.splitOnP_nil, List.mem_singleton] at this
        exact hw'.ne_nil this
      | cons d t ih =>
        have hsplit := split_cons_space (hall d List.mem_cons_self) [] t
        rw [List.nil_append] at hsplit
        rw [hsplit] at hw
        exact ih (fun e he => hall e (List.mem_cons_of_mem _ he)) hw
    exact absurd (hin hall hmem) id

/-- The query with its tokens rewritten. -/
def rewritten (u : Unicode) (raw : Text) : List Text := (tokens raw).map u.rewrite

theorem isToken_rewrite (u : Unicode) {t : Text} (h : IsToken t) : IsToken (u.rewrite t) :=
  ⟨u.rewrite_ne_nil h.ne_nil, fun c hc => (u.mem_rewrite hc).elim (h.nonspace c) nonspace_of_alnum⟩

theorem isToken_of_mem_rewritten {u : Unicode} {raw t : Text} (h : t ∈ rewritten u raw) : IsToken t := by
  obtain ⟨s, hs, rfl⟩ := List.mem_map.mp h
  exact isToken_rewrite u (isToken_of_mem_tokens hs)

theorem canonical_finish (u : Unicode) (raw working : Text) (patterns : List Replacement) :
    (finish u raw working patterns).canonical
      = strip (joinSpace ((tokensOf (replaceAliases koreanAlias working).1).map u.rewrite)) := by
  show strip (joinSpace (((tokensOf (replaceAliases koreanAlias working).1).map u.rewriteToken).map
    (·.1))) = _
  rw [List.map_map]
  rfl

/-- **What the canonicalizer returns** for a query in which no U+0130 is before a pattern. -/
theorem exists_returns (u : Unicode) {raw : Text} (h : Unshifted (normalized raw)) :
    ∃ result, Returns u raw result ∧ result.canonical = joinSpace (rewritten u raw) := by
  by_cases hblank : raw = [] ∨ strip raw = []
  · refine ⟨{ raw := raw, canonical := [] }, ⟨0, by rw [canonicalizeQuery, if_pos hblank]⟩, ?_⟩
    rw [rewritten, tokens, normalized, split_of_blank hblank]
    rfl
  · obtain ⟨fuel, hfuel⟩ := replacePatterns_eq (List.Subset.refl _) h
    obtain ⟨applied, happlied⟩ := hfuel fuel le_rfl
    refine ⟨finish u raw (replaceEach fold multitokenCanonical (normalized raw)) applied, ⟨fuel, ?_⟩, ?_⟩
    · rw [canonicalizeQuery, if_neg hblank]
      show (replacePatterns fuel multitokenCanonical (normalized raw)).map _ = _
      rw [happlied]
      rfl
    · rw [canonical_finish, replaceAliases_eq koreanAlias_ne_nil]
      exact strip_joinSpace fun t ht => isToken_of_mem_rewritten ht

/-! ## Steady queries -/

/-- A pattern with a space is in the joined tokens: `ci` and `cd`, or `c i / c d`. -/
def Meets (ts : List Text) : Prop :=
  Window (lit "ci") [] (lit "cd") (ts.map (·.map fold)) ∨
    Window (lit "c") [lit "i", lit "/", lit "c"] (lit "d") (ts.map (·.map fold))

/-- The queries that are canonicalized for good. -/
structure Steady (u : Unicode) (raw : Text) : Prop where
  unshifted : Unshifted (normalized raw)
  token : ∀ t ∈ tokens raw, u.SteadyToken t
  apart : ¬Meets (rewritten u raw)
  unshifted_again : UnshiftedBy (lit "ci/cd") (joinSpace (rewritten u raw))

theorem fold_space_iff {c : CodePoint} : fold c = space ↔ c = space := by
  constructor
  · intro h
    rcases eq_or_capital h (by decide) (by decide) with h | h
    · exact h
    · exact h.trans rfl
  · rintro rfl
    rfl

theorem map_fold_joinSpace (ts : List Text) :
    (joinSpace ts).map fold = joinSpace (ts.map (·.map fold)) := by
  induction ts with
  | nil => rfl
  | cons t ts ih =>
    cases ts with
    | nil =>
      rw [joinSpace, List.intercalate_singleton, List.map_singleton, joinSpace,
        List.intercalate_singleton]
    | cons s ts =>
      rw [joinSpace, Occurrences.intercalate_cons_cons, List.map_append, List.map_cons,
        show [space].intercalate (s :: ts) = joinSpace (s :: ts) from rfl, ih]
      rw [List.map_cons, List.map_cons, List.map_cons, joinSpace, joinSpace,
        Occurrences.intercalate_cons_cons]
      rfl

theorem meets_iff {ts : List Text} (h : ∀ t ∈ ts, IsToken t) :
    Meets ts ↔ lit "ci cd" <:+: (joinSpace ts).map fold ∨ lit "c i / c d" <:+: (joinSpace ts).map fold := by
  have hwords : ∀ w ∈ ts.map (·.map fold), space ∉ w := by
    intro w hw hmem
    obtain ⟨t, ht, rfl⟩ := List.mem_map.mp hw
    obtain ⟨c, hc, heq⟩ := List.mem_map.mp hmem
    exact (h t ht).space (fold_space_iff.mp heq ▸ hc)
  rw [map_fold_joinSpace]
  refine or_congr ?_ ?_
  · exact (Occurrences.infix_intercalate_iff (by decide) (by simp) (by decide) hwords).symm
  · exact (Occurrences.infix_intercalate_iff (by decide) (by decide) (by decide) hwords).symm

/-- No stray pattern and no alias is in the rewritten tokens. -/
theorem not_infix_rewritten {u : Unicode} {raw key : Text}
    (h : key ∈ stray ∨ key ∈ koreanAlias.map (·.1)) : ¬ key <:+: joinSpace (rewritten u raw) := by
  intro hin
  have hne : key ≠ [] := by
    rcases h with h | h
    · exact (stray_eq key h).1
    · obtain ⟨rule, hrule, rfl⟩ := List.mem_map.mp h
      exact koreanAlias_ne_nil rule hrule
  have hspace : space ∉ key := by
    have hall : (stray ++ koreanAlias.map (·.1)).all (fun key => !key.contains space) = true := by
      decide +kernel
    have hkey := List.all_eq_true.mp hall key (List.mem_append.mpr h)
    intro hmem
    rw [List.contains_iff_mem.mpr hmem] at hkey
    cases hkey
  obtain ⟨w, hw, hin⟩ := Occurrences.exists_of_infix_intercalate hne hspace hin
  obtain ⟨t, ht, rfl⟩ := List.mem_map.mp hw
  exact not_infix_prepared h _ ((u.infix_of_infix_rewrite h hin).trans (infix_of_mem_tokens ht))

/-- Every pattern is one of the two kinds. -/
theorem pattern_cases {p : Text} (hp : p ∈ patterns) :
    (p = lit "ci cd" ∨ p = lit "c i / c d") ∨ p = lit "ci-cd" ∨ p = lit "ci/cd" := by
  have hp : p ∈ [lit "ci cd", lit "ci-cd", lit "ci/cd", lit "c i / c d"] := hp
  simp only [List.mem_cons, List.not_mem_nil, or_false] at hp
  tauto

/-- Without a pattern with a space the rewritten tokens are prepared. -/
theorem prepared_rewritten {u : Unicode} {raw : Text} (h : ¬Meets (rewritten u raw)) :
    prepared (joinSpace (rewritten u raw)) = joinSpace (rewritten u raw) := by
  rw [meets_iff fun t ht => isToken_of_mem_rewritten ht, not_or] at h
  have hpatterns : ∀ rule ∈ multitokenCanonical,
      replaceAll fold rule.1 rule.2 (joinSpace (rewritten u raw)) = joinSpace (rewritten u raw) := by
    intro rule hrule
    have hpattern : rule.1 ∈ patterns := List.mem_map_of_mem hrule
    refine Occurrences.replaceAll_eq_self (plain_patterns _ hpattern).2 fun m hm hfold => ?_
    rcases pattern_cases hpattern with hspaced | hplain
    · have hin := hm.map fold
      rw [hfold] at hin
      rcases hspaced with heq | heq
      · rw [heq] at hin
        exact absurd hin h.1
      · rw [heq] at hin
        exact absurd hin h.2
    · have hsame := eq_of_not_stray hplain hfold fun hstray => not_infix_rewritten (.inl hstray) hm
      have hnew : ∀ rule ∈ multitokenCanonical, rule.2 = lit "CI/CD" := by decide
      rw [hsame, hnew rule hrule]
  have haliases : ∀ rule ∈ koreanAlias,
      replaceAll id rule.1 rule.2 (joinSpace (rewritten u raw)) = joinSpace (rewritten u raw) := by
    intro rule hrule
    refine Occurrences.replaceAll_eq_self (koreanAlias_ne_nil rule hrule) fun m hm hid => ?_
    rw [List.map_id] at hid
    exact absurd hm (not_infix_rewritten (.inr (hid ▸ List.mem_map_of_mem hrule)))
  have hall : ∀ {f : CodePoint → CodePoint} {rs : List (Text × Text)} {t : Text},
      (∀ rule ∈ rs, replaceAll f rule.1 rule.2 t = t) → replaceEach f rs t = t := by
    intro f rs t hrs
    exact Occurrences.replaceEach_induction (P := fun s => s = t) rfl fun rule hrule s hs =>
      hs ▸ hrs rule hrule
  rw [prepared, hall hpatterns, hall haliases]

theorem tokens_rewritten {u : Unicode} {raw : Text} (h : ¬Meets (rewritten u raw)) :
    tokens (joinSpace (rewritten u raw)) = rewritten u raw := by
  have htokens : ∀ t ∈ rewritten u raw, IsToken t := fun t ht => isToken_of_mem_rewritten ht
  rw [tokens, normalized, split_joinSpace htokens, prepared_rewritten h, tokensOf_joinSpace htokens]

/-- **A steady query is canonicalized for good.** -/
theorem Steady.idempotent {u : Unicode} {raw : Text} (h : Steady u raw) : Idempotent u raw := by
  obtain ⟨first, hfirst, hcanonical⟩ := exists_returns u h.unshifted
  have htokens : ∀ t ∈ rewritten u raw, IsToken t := fun t ht => isToken_of_mem_rewritten ht
  have hunshifted : Unshifted (normalized first.canonical) := by
    rw [hcanonical, normalized, split_joinSpace htokens]
    intro p hp x y heq
    have hsuffix : y <:+: joinSpace (rewritten u raw) := by
      rw [heq]
      exact ((List.suffix_cons _ _).trans (List.suffix_append _ _)).isInfix
    have hmeets := h.apart
    rw [meets_iff htokens, not_or] at hmeets
    rcases pattern_cases hp with (heq' | heq') | heq' | heq' <;> rw [heq']
    · exact fun hin => hmeets.1 (hin.trans (hsuffix.map fold))
    · exact fun hin => hmeets.2 (hin.trans (hsuffix.map fold))
    · intro hin
      obtain ⟨a, m, b, rfl, hm, -⟩ := exists_first hin
      have hstray : m ∉ stray := fun hmem =>
        not_infix_rewritten (.inl hmem) (List.IsInfix.trans ⟨a, b, rfl⟩ hsuffix)
      rw [eq_of_not_stray (.inl rfl) hm hstray] at hm
      exact absurd hm (by decide)
    · exact h.unshifted_again x y heq
  obtain ⟨second, hsecond, hagain⟩ := exists_returns u hunshifted
  refine ⟨first, second, hfirst, hsecond, ?_⟩
  have hsame : (rewritten u raw).map u.rewrite = rewritten u raw := by
    rw [rewritten, List.map_map]
    exact List.map_congr_left fun t ht => (u.rewrite_rewrite_iff t).mpr (h.token t ht)
  have htokens' : rewritten u first.canonical = (tokens first.canonical).map u.rewrite := rfl
  rw [hagain, htokens', hcanonical, tokens_rewritten h.apart, hsame]

/-! ### Queries without U+0130 -/

theorem dotted_not_mem_normalized {raw : Text} (h : dotted ∉ raw) : dotted ∉ normalized raw := by
  have hsplit : ∀ {t w : Text}, w ∈ split t → ∀ c ∈ w, c ∈ t := by
    intro t w hw c hc
    have hmem := (List.mem_filter.mp hw).1
    clear hw
    induction hn : t.length using Nat.strong_induction_on generalizing t with
    | _ n ih =>
      by_cases hall : ∀ c ∈ t, Py.isSpace c = false
      · rw [List.splitOnP_eq_singleton hall, List.mem_singleton] at hmem
        rwa [← hmem]
      · push Not at hall
        obtain ⟨d, hd, hspace⟩ := hall
        obtain ⟨a, b, rfl⟩ := List.append_of_mem hd
        rw [List.splitOnP_append_cons a b (by simpa using hspace), List.mem_append] at hmem
        rw [List.length_append, List.length_cons] at hn
        rcases hmem with hmem | hmem
        · exact List.mem_append_left _ (ih a.length (by omega) hmem rfl)
        · exact List.mem_append_right _ (List.mem_cons_of_mem _ (ih b.length (by omega) hmem rfl))
  intro hmem
  rcases mem_joinSpace hmem with heq | ⟨w, hw, hc⟩
  · exact absurd heq (by decide)
  · exact h (hsplit hw _ hc)

theorem dotted_not_mem_rewritten {u : Unicode} {raw : Text} (h : dotted ∉ raw) :
    dotted ∉ joinSpace (rewritten u raw) := by
  intro hmem
  rcases mem_joinSpace hmem with heq | ⟨w, hw, hc⟩
  · exact absurd heq (by decide)
  · obtain ⟨t, ht, rfl⟩ := List.mem_map.mp hw
    rcases u.mem_rewrite hc with hin | hletter
    · rcases mem_prepared ((infix_of_mem_tokens ht).subset hin) with hin | hletter | heq
      · exact dotted_not_mem_normalized h hin
      · exact ne_dotted_of_ascii (ascii_of_alnum hletter) rfl
      · exact absurd heq (by decide)
    · exact ne_dotted_of_ascii (ascii_of_alnum hletter) rfl

theorem unshifted_of_not_mem {t : Text} (h : dotted ∉ t) : Unshifted t := by
  intro p _ x y heq
  refine absurd ?_ h
  rw [heq]
  exact List.mem_append_right _ List.mem_cons_self

theorem count_space_fold (t : Text) : (t.map fold).count space = t.count space := by
  induction t with
  | nil => rfl
  | cons c t ih =>
    rw [List.map_cons, List.count_cons, List.count_cons, ih]
    congr 1
    by_cases hc : c = space
    · rw [hc]
      rfl
    · rw [if_neg (by simpa using fun h => hc (fold_space_iff.mp h)), if_neg (by simpa using hc)]

/-- A text has no more tokens than spaces, and one. -/
theorem length_tokensOf (t : Text) : (tokensOf t).length ≤ t.count space + 1 := by
  have hcount : ([space].intercalate (t.splitOn space)).count space = (t.splitOn space).length - 1 :=
    Occurrences.count_intercalate fun w hw => Occurrences.not_mem_of_mem_splitOn hw
  rw [List.intercalate_splitOn] at hcount
  have hpos := List.length_pos_of_ne_nil (Occurrences.splitOn_ne_nil t : t.splitOn space ≠ [])
  refine (List.length_filter_le _ _).trans ?_
  omega

/-- A pattern with a space takes a space away. -/
theorem count_prepared_lt {u : Unicode} {raw : Text} (h : Meets (rewritten u raw)) :
    (prepared (joinSpace (rewritten u raw))).count space < (joinSpace (rewritten u raw)).count space := by
  rw [meets_iff fun t ht => isToken_of_mem_rewritten ht] at h
  generalize htext : joinSpace (rewritten u raw) = t at h ⊢
  have hle : ∀ {f : CodePoint → CodePoint} {rule : Text × Text}, rule ∈ rules → ∀ s : Text,
      (replaceAll f rule.1 rule.2 s).count space ≤ s.count space := by
    intro f rule hrule s
    have hnone : rules.all (fun rule => rule.2.count space == 0) = true := by decide +kernel
    have hzero := List.all_eq_true.mp hnone rule hrule
    refine Occurrences.count_replaceAll_le (rules_ne_nil rule hrule) (fun m _ => ?_) s
    rw [beq_iff_eq.mp hzero]
    exact Nat.zero_le _
  have hlt : ∀ {p : Text}, p = lit "ci cd" ∨ p = lit "c i / c d" → ∀ {s : Text},
      p <:+: s.map fold → (replaceAll fold p (lit "CI/CD") s).count space < s.count space := by
    intro p hp s hin
    have hne : p ≠ [] := by rcases hp with rfl | rfl <;> decide
    refine Occurrences.count_replaceAll_lt hne (fun m hm => ?_) hin
    rw [← count_space_fold m, hm]
    rcases hp with rfl | rfl <;> decide
  have haliases : ∀ s : Text, (replaceEach id koreanAlias s).count space ≤ s.count space := fun s =>
    Occurrences.replaceEach_induction (P := fun r => r.count space ≤ s.count space) le_rfl
      fun rule hrule r hr => (hle (List.mem_append_right _ hrule) r).trans hr
  refine (haliases _).trans_lt ?_
  have hpattern : ∀ {p : Text}, (p, lit "CI/CD") ∈ rules → ∀ s : Text,
      (replaceAll fold p (lit "CI/CD") s).count space ≤ s.count space := fun hp s => hle hp s
  have htwo := hpattern (show (lit "ci-cd", lit "CI/CD") ∈ rules by decide)
  have hthree := hpattern (show (lit "ci/cd", lit "CI/CD") ∈ rules by decide)
  have hfour := hpattern (show (lit "c i / c d", lit "CI/CD") ∈ rules by decide)
  show (replaceAll fold (lit "c i / c d") (lit "CI/CD") (replaceAll fold (lit "ci/cd") (lit "CI/CD")
    (replaceAll fold (lit "ci-cd") (lit "CI/CD")
      (replaceAll fold (lit "ci cd") (lit "CI/CD") t)))).count space < _
  by_cases hfirst : lit "ci cd" <:+: t.map fold
  · exact ((hfour _).trans ((hthree _).trans (htwo _))).trans_lt (hlt (.inl rfl) hfirst)
  · -- the first three patterns leave the text as it is
    have hself : ∀ {p : Text}, p ≠ [] → (∀ m, m <:+: t → m.map fold = p → m = lit "CI/CD") →
        replaceAll fold p (lit "CI/CD") t = t := fun hne hm => Occurrences.replaceAll_eq_self hne hm
    have hplain : ∀ {p : Text}, p = lit "ci-cd" ∨ p = lit "ci/cd" → ∀ m, m <:+: t → m.map fold = p →
        m = lit "CI/CD" := fun hp m hm hfold =>
      eq_of_not_stray hp hfold fun hstray => not_infix_rewritten (.inl hstray) (htext ▸ hm)
    rw [hself (by decide) fun m hm (hfold : m.map fold = lit "ci cd") =>
        absurd (hfold ▸ hm.map fold) hfirst,
      hself (by decide) (hplain (.inl rfl)), hself (by decide) (hplain (.inr rfl))]
    exact hlt (.inr rfl) (h.resolve_left hfirst)

/-- **Without U+0130 only the steady queries are canonicalized for good.** -/
theorem steady_of_idempotent {u : Unicode} {raw : Text} (hdotted : dotted ∉ raw)
    (h : Idempotent u raw) : Steady u raw := by
  have hunshifted := unshifted_of_not_mem (dotted_not_mem_normalized hdotted)
  have hdotted' : dotted ∉ joinSpace (rewritten u raw) := dotted_not_mem_rewritten hdotted
  obtain ⟨first, second, hfirst, hsecond, hsame⟩ := h
  obtain ⟨first', hfirst', hcanonical⟩ := exists_returns u hunshifted
  obtain rfl := hfirst.unique hfirst'
  obtain ⟨second', hsecond', hagain⟩ := exists_returns u
    (unshifted_of_not_mem (dotted_not_mem_normalized (hcanonical ▸ hdotted')))
  obtain rfl := hsecond.unique hsecond'
  rw [hagain, hcanonical] at hsame
  have hnormalized : normalized (joinSpace (rewritten u raw)) = joinSpace (rewritten u raw) := by
    rw [normalized, split_joinSpace fun t ht => isToken_of_mem_rewritten ht]
  have hcount : ∀ q, (joinSpace (rewritten u q)).count space = (tokens q).length - 1 := by
    intro q
    rw [joinSpace, Occurrences.count_intercalate fun w hw => (isToken_of_mem_rewritten hw).space,
      rewritten, List.length_map]
  have hapart : ¬Meets (rewritten u raw) := by
    intro hmeets
    have hlt := count_prepared_lt hmeets
    have hle := length_tokensOf (prepared (joinSpace (rewritten u raw)))
    have hsecond := hcount (joinSpace (rewritten u raw))
    rw [hsame, tokens, hnormalized] at hsecond
    omega
  refine ⟨hunshifted, fun t ht => ?_, hapart, ?_⟩
  · have htokens : ∀ {ts : List Text}, (∀ t ∈ ts, IsToken t) → tokensOf (joinSpace ts) = ts :=
      fun h => tokensOf_joinSpace h
    have hboth := congrArg tokensOf hsame
    rw [htokens fun s hs => isToken_of_mem_rewritten hs, htokens fun s hs => isToken_of_mem_rewritten hs,
      rewritten, tokens_rewritten hapart] at hboth
    have hself : ∀ s ∈ rewritten u raw, u.rewrite s = s := 
      List.map_inj_left.mp (hboth.trans (List.map_id _).symm)
    exact (u.rewrite_rewrite_iff t).mp (hself _ (List.mem_map_of_mem ht))
  · intro x y heq
    refine absurd ?_ hdotted'
    rw [heq]
    exact List.mem_append_right _ List.mem_cons_self

/-- **The queries that are canonicalized for good** are the steady ones; with U+0130 in it a query may
be without being steady. -/
theorem idempotent_iff_steady (u : Unicode) (raw : Text) :
    (Steady u raw → Idempotent u raw) ∧ (dotted ∉ raw → Idempotent u raw → Steady u raw) :=
  ⟨fun h => h.idempotent, fun hdotted h => steady_of_idempotent hdotted h⟩

/-! ## A query that loses an acronym -/

/-- Tables for ASCII and Hangul. -/
def Unicode.ascii : Unicode where
  isUpper := isAsciiUpper
  isAlpha c := isAsciiUpper c || isAsciiLower c || isHangul c
  isNumeric c := 0x30 ≤ c.val && c.val ≤ 0x39
  upperCode := Py.upperCode
  isUpper_ascii _ _ := rfl
  isAlpha_ascii c h := by rw [not_hangul_of_ascii h, Bool.or_false]
  isNumeric_ascii _ _ := rfl
  upperCode_ascii _ _ := rfl
  isAlpha_hangul c h := by rw [h, Bool.or_true]

/-- `OAUTH/RAG` becomes `OAuth/RAG`, and that becomes `RAG`. -/
theorem oauth_is_dropped : ¬Idempotent Unicode.ascii (lit "OAUTH/RAG") := by
  have hrun : ∀ {raw canonical : Text},
      (canonicalizeQuery Unicode.ascii 1 raw).map (·.canonical) = some canonical →
      ∀ {result}, Returns Unicode.ascii raw result → result.canonical = canonical := by
    intro raw canonical h result hresult
    obtain ⟨r, hr, rfl⟩ := Option.map_eq_some_iff.mp h
    rw [hresult.unique ⟨1, hr⟩]
  rintro ⟨first, second, hfirst, hsecond, hsame⟩
  have hone : first.canonical = lit "OAuth/RAG" := hrun (by decide +kernel) hfirst
  rw [hone] at hsecond hsame
  have htwo : second.canonical = lit "RAG" := hrun (by decide +kernel) hsecond
  rw [htwo] at hsame
  exact absurd hsame (by decide)

end ForgeKit.Canonicalizer
