import Mathlib.Algebra.Ring.Nat
import Mathlib.Data.List.Forall2
import ForgeKit.Lib.Json
import ForgeKit.Lib.Machine

/-!
# Compaction of the decisions (`harness/token_budget.py`)

Old entries of the decision channel are folded to one line that points back to them. A channel is
appended to and compacted again and again, so what was folded is folded once more.

* `decisions_compactDecisions` — which entries a compaction folds
* `stands_fold` — when a fold keeps the reference
* `postTokens_le_iff` — when a compaction does not make the channel longer
* `compaction_of_guard` — what holds along a run
-/

namespace ForgeKit.Harness

open PyText (isSpace strip lower)

/-! ## Entries -/

/-- `estimate_tokens`. -/
def estimateTokens (text : String) : Nat := (text.length + 4 - 1) / 4

/-- `PROTECTED_DECISION_KINDS`. -/
def protectedDecisionKinds : List String := ["decision", "synthesis"]

def placeholderMax : Nat := 90

/-- `_decision_text`. -/
def decisionText (d : Dict Json) : String :=
  ((d.getJson "summary").orElse ((d.getJson "message").orElse (.str ""))).toStr

/-- `_decision_kind`. -/
def decisionKind (d : Dict Json) : String := lower (strip (d.strOr "kind" ""))

/-- `re.sub(r"\s+", " ", text)`, with the white space that was just read. -/
def squeeze : Bool → List Char → List Char
  | _, [] => []
  | afterSpace, c :: cs =>
    if isSpace c then
      if afterSpace then squeeze true cs else ' ' :: squeeze true cs
    else c :: squeeze false cs

/-- The text of an entry on one line. -/
def flatText (d : Dict Json) : List Char :=
  (strip (String.ofList (squeeze false (decisionText d).toList))).toList

/-- What a fold keeps of the text. -/
def keptHead (d : Dict Json) : List Char :=
  if (flatText d).length ≤ placeholderMax then flatText d
  else ((flatText d).take placeholderMax).rdropWhile isSpace

/-- `str(d.get("audit_id") or d.get("entry_id") or "-")`. -/
def ownRef (d : Dict Json) : String :=
  ((d.getJson "audit_id").orElse ((d.getJson "entry_id").orElse (.str "-"))).toStr

/-- The summary of a folded entry. -/
def reference (d : Dict Json) : String :=
  String.ofList (keptHead d) ++ (if placeholderMax < (flatText d).length then "…" else "")
    ++ (" (생략 " ++ (toString (flatText d).length ++ ("자, ref=" ++ (ownRef d ++ ")"))))

/-- `_fold_decision`. -/
def foldDecision (d : Dict Json) : Dict Json :=
  [("role", .str (d.strOr "role" "?")), ("summary", .str (reference d)), ("folded", .bool true)]

/-! ## Compaction -/

structure DecisionCompaction where
  decisions : List (Dict Json)
  preTokens : Nat
  postTokens : Nat
  applied : Bool
  foldedCount : Nat

def isProtected (d : Dict Json) : Bool := protectedDecisionKinds.contains (decisionKind d)

def channelTokens (decisions : List (Dict Json)) : Nat :=
  (decisions.map fun d => estimateTokens (decisionText d)).sum

/-- The channel is left as it is. -/
def underBudget (decisions : List (Dict Json)) (thresholdTokens : Int) (keepRecent : Nat) : Bool :=
  channelTokens decisions ≤ thresholdTokens || decisions.length ≤ keepRecent

/-- `compact_decisions`. -/
def compactDecisions (decisions : List (Dict Json)) (thresholdTokens : Int) (keepRecent : Nat) :
    DecisionCompaction :=
  let pre := channelTokens decisions
  if underBudget decisions thresholdTokens keepRecent then
    { decisions := decisions, preTokens := pre, postTokens := pre, applied := false, foldedCount := 0 }
  else
    let kept := fun (i : Nat) (d : Dict Json) => decisions.length - keepRecent ≤ i || isProtected d
    let out := decisions.mapIdx fun i d => if kept i d then d else foldDecision d
    { decisions := out, preTokens := pre, postTokens := channelTokens out, applied := true
      foldedCount := (decisions.zipIdx.filter fun e => !kept e.2 e.1).length }

/-! ## One compaction -/

variable {d o : Dict Json} {decisions : List (Dict Json)} {thresholdTokens : Int} {keepRecent : Nat}

/-- What an entry becomes that is not recent. -/
def foldOld (d : Dict Json) : Dict Json := if isProtected d then d else foldDecision d

/-- **A compaction folds** what is neither recent nor protected. -/
theorem decisions_compactDecisions
    (h : underBudget decisions thresholdTokens keepRecent = false) :
    (compactDecisions decisions thresholdTokens keepRecent).decisions
      = (decisions.take (decisions.length - keepRecent)).map foldOld
        ++ decisions.drop (decisions.length - keepRecent) := by
  unfold compactDecisions
  dsimp only
  rw [if_neg (by simp [h])]
  dsimp only
  generalize hn : decisions.length - keepRecent = n
  have hle : n ≤ decisions.length := by omega
  clear hn h
  induction decisions generalizing n with
  | nil => simp
  | cons d decisions ih =>
    rw [List.mapIdx_cons]
    cases n with
    | zero =>
      have hsame : decisions.mapIdx (fun _ d => d) = decisions := List.ext_getElem (by simp) (by simp)
      simp [hsame]
    | succ n =>
      have hrest := ih n (Nat.le_of_succ_le_succ hle)
      simp only [Nat.add_le_add_iff_right] at hrest ⊢
      rw [List.take_succ_cons, List.drop_succ_cons, List.map_cons, List.cons_append, ← hrest]
      simp [foldOld]

theorem decisions_of_underBudget (h : underBudget decisions thresholdTokens keepRecent = true) :
    (compactDecisions decisions thresholdTokens keepRecent).decisions = decisions
      ∧ (compactDecisions decisions thresholdTokens keepRecent).postTokens
        = (compactDecisions decisions thresholdTokens keepRecent).preTokens := by
  unfold compactDecisions
  dsimp only
  rw [if_pos h]
  exact ⟨rfl, rfl⟩

/-- The text of an entry that was folded. -/
theorem decisionText_folded {role : Json} {summary : String} (h : summary ≠ "") :
    decisionText [("role", role), ("summary", .str summary), ("folded", .bool true)] = summary := by
  show (Json.orElse (.str summary) _).toStr = summary
  rw [Json.orElse, if_pos (show (Json.str summary).truthy = true from bne_iff_ne.mpr h)]
  rfl

theorem decisionText_foldDecision : decisionText (foldDecision d) = reference d := by
  refine decisionText_folded fun h => ?_
  rw [← String.toList_inj] at h
  simp [reference] at h

/-! ## References -/

/-- A character that `splitlines` breaks a text at. -/
def isLineBreak (c : Char) : Bool :=
  let n := c.toNat
  (0x0A ≤ n && n ≤ 0x0D) || (0x1C ≤ n && n ≤ 0x1E) || n == 0x85 || n == 0x2028 || n == 0x2029

def OneLine (cs : List Char) : Prop := ∀ c ∈ cs, isLineBreak c = false

theorem isSpace_of_isLineBreak {c : Char} (h : isLineBreak c = true) : isSpace c = true ∧ c ≠ ' ' := by
  have hspace : ' '.toNat = 0x20 := rfl
  constructor
  · simp only [isLineBreak, isSpace, Bool.or_eq_true, Bool.and_eq_true, decide_eq_true_eq,
      beq_iff_eq] at h ⊢
    omega
  · rintro rfl
    exact absurd h (by decide)

/-- White space is squeezed to blanks. -/
theorem eq_blank_of_mem_squeeze {afterSpace : Bool} {cs : List Char} {c : Char}
    (h : c ∈ squeeze afterSpace cs) (hspace : isSpace c = true) : c = ' ' := by
  induction cs generalizing afterSpace with
  | nil => cases h
  | cons b cs ih =>
    rw [squeeze] at h
    split at h
    · split at h
      · exact ih h
      · exact (List.mem_cons.mp h).elim id ih
    · next hb =>
      rcases List.mem_cons.mp h with rfl | h
      · exact absurd hspace hb
      · exact ih h

theorem oneLine_flatText (d : Dict Json) : OneLine (flatText d) := by
  intro c hc
  have hmem : c ∈ squeeze false (decisionText d).toList := by
    unfold flatText PyText.strip at hc
    rw [String.toList_ofList, List.mem_reverse] at hc
    have hc := (List.dropWhile_sublist _).mem hc
    rw [List.mem_reverse] at hc
    have hc := (List.dropWhile_sublist _).mem hc
    rwa [String.toList_ofList] at hc
  rw [Bool.eq_false_iff]
  intro hbreak
  obtain ⟨hspace, hblank⟩ := isSpace_of_isLineBreak hbreak
  exact hblank (eq_blank_of_mem_squeeze hmem hspace)

theorem oneLine_keptHead (d : Dict Json) : OneLine (keptHead d) := by
  intro c hc
  unfold keptHead at hc
  split at hc
  · exact oneLine_flatText d c hc
  · exact oneLine_flatText d c (List.mem_of_mem_take ((List.rdropWhile_prefix _ _).mem hc))

theorem oneLine_append {cs ds : List Char} (hcs : OneLine cs) (hds : OneLine ds) :
    OneLine (cs ++ ds) := fun c hc => (List.mem_append.mp hc).elim (hcs c) (hds c)

theorem oneLine_of_infix {cs ds : List Char} (h : cs <:+: ds) (hds : OneLine ds) : OneLine cs :=
  fun c hc => hds c (h.subset hc)

theorem oneLine_toString (n : Nat) : OneLine (toString n).toList := by
  intro c hc
  have hdigit : c.isDigit = true := by
    rw [show (toString n).toList = Nat.toDigits 10 n from String.toList_ofList] at hc
    exact Nat.isDigit_of_mem_toDigits (by decide) (by decide) hc
  rw [Bool.eq_false_iff]
  intro hbreak
  simp only [Char.isDigit, Bool.and_eq_true, decide_eq_true_eq, UInt32.le_iff_toNat_le] at hdigit
  simp only [isLineBreak, Bool.or_eq_true, Bool.and_eq_true, decide_eq_true_eq, beq_iff_eq] at hbreak
  have hval : c.val.toNat = c.toNat := rfl
  have hlow : ('0' : Char).val.toNat = 0x30 := rfl
  have hhigh : ('9' : Char).val.toNat = 0x39 := rfl
  omega

theorem toList_reference (d : Dict Json) : (reference d).toList
    = keptHead d ++ (if placeholderMax < (flatText d).length then ['…'] else [])
      ++ (" (생략 ".toList ++ ((toString (flatText d).length).toList
        ++ ("자, ref=".toList ++ ((ownRef d).toList ++ ")".toList)))) := by
  unfold reference
  split <;> simp only [String.toList_append, String.toList_ofList] <;> rfl

theorem oneLine_reference (h : OneLine (ownRef d).toList) : OneLine (reference d).toList := by
  have hmark : ∀ s : String, s.toList.all (!isLineBreak ·) = true → OneLine s.toList :=
    fun s hs c hc => by simpa using List.all_eq_true.mp hs c hc
  have hdots : OneLine (if placeholderMax < (flatText d).length then ['…'] else []) := by
    split
    · exact hmark "…" (by decide)
    · exact fun c hc => by cases hc
  rw [toList_reference]
  exact oneLine_append (oneLine_append (oneLine_keptHead d) hdots)
    (oneLine_append (hmark _ (by decide)) (oneLine_append (oneLine_toString _)
      (oneLine_append (hmark _ (by decide)) (oneLine_append h (hmark _ (by decide))))))

/-- A folded entry whose one line holds a back-pointer. -/
def IsReference (own : String) (d : Dict Json) : Prop :=
  ∃ role summary : String,
    d = [("role", .str role), ("summary", .str summary), ("folded", .bool true)]
      ∧ OneLine summary.toList ∧ ("ref=" ++ own).toList <:+: summary.toList

/-- A fold points back to the entry by its own reference. -/
theorem ownRef_infix_reference (d : Dict Json) :
    ("ref=" ++ ownRef d).toList <:+: (reference d).toList := by
  rw [toList_reference]
  refine ⟨keptHead d ++ (if placeholderMax < (flatText d).length then ['…'] else [])
    ++ (" (생략 ".toList ++ ((toString (flatText d).length).toList ++ "자, ".toList)), ")".toList, ?_⟩
  have hsplit : "자, ref=".toList = "자, ".toList ++ "ref=".toList := by decide
  rw [hsplit, String.toList_append]
  simp only [List.append_assoc]

/-- What the fold keeps of the text is in the reference. -/
theorem keptHead_infix_reference (d : Dict Json) : keptHead d <:+: (reference d).toList := by
  rw [toList_reference]
  exact ⟨[], _, by rw [List.nil_append, List.append_assoc]⟩

theorem IsReference.ownRef {own : String} (h : IsReference own d) :
    ownRef d = "-" ∧ isProtected d = false := by
  obtain ⟨role, summary, rfl, -, -⟩ := h
  refine ⟨rfl, ?_⟩
  have hkind : Dict.strOr [("role", .str role), ("summary", .str summary), ("folded", .bool true)]
      "kind" "" = "" := rfl
  rw [isProtected, decisionKind, hkind]
  decide

/-! ## Folding once more -/

/-- An entry of the channel is what was appended, or a reference to it; a protected one is what was
appended. -/
structure Stands (o d : Dict Json) : Prop where
  pointsBack : d = o ∨ IsReference (ownRef o) d
  verbatim : isProtected o = true → d = o

/-- A fold of the entry keeps its reference: it is folded for the first time, it has none, or the
reference is in what the fold keeps of the text. -/
def KeepsRef (o d : Dict Json) : Prop :=
  (d = o ∧ OneLine (ownRef o).toList) ∨ ownRef o = "-"
    ∨ ("ref=" ++ ownRef o).toList <:+: keptHead d

theorem stands_fold (h : Stands o d) (hkeeps : isProtected d = false → KeepsRef o d) :
    Stands o (foldOld d) := by
  unfold foldOld
  split
  · exact h
  · next hprotected =>
    have hfolds : d = o ∨ ownRef d = "-" := h.pointsBack.imp_right fun href => href.ownRef.1
    have hlineOfRef : ∀ {own : String}, own = "-" → OneLine own.toList := by
      rintro own rfl c hc
      obtain rfl := List.mem_singleton.mp hc
      rfl
    have hline : OneLine (ownRef d).toList := by
      rcases hfolds with rfl | href
      · rcases hkeeps (by simpa using hprotected) with ⟨-, hline⟩ | href | hhead
        · exact hline
        · exact hlineOfRef href
        · rw [String.toList_append] at hhead
          exact oneLine_of_infix ((List.suffix_append _ _).isInfix.trans hhead) (oneLine_keptHead d)
      · exact hlineOfRef href
    refine ⟨.inr ⟨_, _, rfl, oneLine_reference hline, ?_⟩, fun ho => ?_⟩
    · rcases hkeeps (by simpa using hprotected) with ⟨rfl, -⟩ | href | hhead
      · exact ownRef_infix_reference d
      · rcases hfolds with rfl | hown
        · exact ownRef_infix_reference d
        · rw [href, ← hown]
          exact ownRef_infix_reference d
      · exact hhead.trans (keptHead_infix_reference d)
    · rw [h.verbatim ho] at hprotected
      exact absurd ho hprotected

/-! ## Tokens -/

/-- The tokens of the reference to an entry, from the lengths of what it is made of. -/
def referenceTokens (d : Dict Json) : Nat :=
  ((keptHead d).length + (if placeholderMax < (flatText d).length then 1 else 0)
    + (toString (flatText d).length).length + (ownRef d).length + 13 + 4 - 1) / 4

/-- What a compaction folds. -/
def folds (decisions : List (Dict Json)) (keepRecent : Nat) : List (Dict Json) :=
  (decisions.take (decisions.length - keepRecent)).filter (!isProtected ·)

theorem estimateTokens_reference (d : Dict Json) :
    estimateTokens (reference d) = referenceTokens d := by
  have hopen : " (생략 ".toList.length = 5 := by decide
  have hmark : "자, ref=".toList.length = 7 := by decide
  have hclose : ")".toList.length = 1 := by decide
  have hlength : (reference d).length = (keptHead d).length
      + (if placeholderMax < (flatText d).length then 1 else 0)
      + (toString (flatText d).length).length + (ownRef d).length + 13 := by
    rw [← String.length_toList, toList_reference]
    simp only [List.length_append, hopen, hmark, hclose, String.length_toList]
    split <;> simp only [List.length_singleton, List.length_nil] <;> omega
  rw [estimateTokens, hlength, referenceTokens]

/-- Folding replaces the tokens of what is folded. -/
theorem channelTokens_map_foldOld (l : List (Dict Json)) :
    channelTokens (l.map foldOld) + channelTokens (l.filter (!isProtected ·))
      = channelTokens l + ((l.filter (!isProtected ·)).map referenceTokens).sum := by
  induction l with
  | nil => rfl
  | cons d l ih =>
    unfold channelTokens at ih ⊢
    by_cases hprotected : isProtected d = true
    · rw [List.filter_cons_of_neg (by simp [hprotected])]
      simp only [List.map_cons, List.sum_cons, foldOld, if_pos hprotected]
      omega
    · rw [List.filter_cons_of_pos (by simp [hprotected])]
      simp only [List.map_cons, List.sum_cons, foldOld, if_neg hprotected, decisionText_foldDecision,
        estimateTokens_reference]
      omega

/-- **When a compaction does not make the channel longer**: the references to what it folds take no
more tokens than the texts. -/
theorem postTokens_le_iff (h : underBudget decisions thresholdTokens keepRecent = false) :
    (compactDecisions decisions thresholdTokens keepRecent).postTokens
        ≤ (compactDecisions decisions thresholdTokens keepRecent).preTokens ↔
      ((folds decisions keepRecent).map referenceTokens).sum
        ≤ channelTokens (folds decisions keepRecent) := by
  have hpost : (compactDecisions decisions thresholdTokens keepRecent).postTokens
      = channelTokens (compactDecisions decisions thresholdTokens keepRecent).decisions := by
    unfold compactDecisions
    dsimp only
    rw [if_neg (by simp [h])]
  have hpre : (compactDecisions decisions thresholdTokens keepRecent).preTokens
      = channelTokens decisions := by
    unfold compactDecisions
    dsimp only
    split <;> rfl
  have happend : ∀ l l' : List (Dict Json),
      channelTokens (l ++ l') = channelTokens l + channelTokens l' := by
    intro l l'
    rw [channelTokens, List.map_append, List.sum_append]
    rfl
  have hfold := channelTokens_map_foldOld (decisions.take (decisions.length - keepRecent))
  have hsplit := happend (decisions.take (decisions.length - keepRecent))
    (decisions.drop (decisions.length - keepRecent))
  rw [List.take_append_drop] at hsplit
  rw [hpost, hpre, decisions_compactDecisions h, happend, hsplit, folds]
  omega

/-! ## Runs -/

/-- The channel, and what was ever appended to it. -/
structure Channel where
  entries : List (Dict Json) := []
  appended : List (Dict Json) := []

inductive Action where
  | append (entry : Dict Json)
  | compact (thresholdTokens : Int) (keepRecent : Nat)

def step (s : Channel) : Action → Channel
  | .append entry => ⟨s.entries ++ [entry], s.appended ++ [entry]⟩
  | .compact thresholdTokens keepRecent =>
    { s with entries := (compactDecisions s.entries thresholdTokens keepRecent).decisions }

/-- Every entry stands at its position, verbatim or as a reference. -/
def Intact (s : Channel) : Prop := List.Forall₂ Stands s.appended s.entries

/-- The protected entries stand at their positions. -/
def Verbatim (s : Channel) : Prop :=
  List.Forall₂ (fun o d => isProtected o = true → d = o) s.appended s.entries

/-- A compaction does not make the channel longer. -/
def Shrinks (s : Channel) : Action → Prop
  | .append _ => True
  | .compact thresholdTokens keepRecent =>
    (compactDecisions s.entries thresholdTokens keepRecent).postTokens
      ≤ (compactDecisions s.entries thresholdTokens keepRecent).preTokens

/-- A compaction that folds finds long texts enough for its references. -/
def Pays (s : Channel) : Action → Prop
  | .append _ => True
  | .compact thresholdTokens keepRecent =>
    underBudget s.entries thresholdTokens keepRecent = false →
      ((folds s.entries keepRecent).map referenceTokens).sum
        ≤ channelTokens (folds s.entries keepRecent)

/-- What a compaction folds keeps its reference. -/
def RefsKept (s : Channel) : Action → Prop
  | .append _ => True
  | .compact thresholdTokens keepRecent =>
    underBudget s.entries thresholdTokens keepRecent = false →
      List.Forall₂ (fun o d => isProtected d = false → KeepsRef o d)
        (s.appended.take (s.entries.length - keepRecent))
        (s.entries.take (s.entries.length - keepRecent))

theorem shrinks_iff (s : Channel) (a : Action) : Shrinks s a ↔ Pays s a := by
  cases a with
  | append entry => exact Iff.rfl
  | compact thresholdTokens keepRecent =>
    show _ ≤ _ ↔ (_ = false → _)
    cases hunder : underBudget s.entries thresholdTokens keepRecent with
    | true => exact iff_of_true (decisions_of_underBudget hunder).2.le (fun h => absurd h (by simp))
    | false =>
      rw [postTokens_le_iff hunder]
      exact ⟨fun h _ => h, fun h => h rfl⟩

theorem forall₂_mp {α β : Type*} {R S : α → β → Prop} {l : List α} {l' : List β}
    (h : List.Forall₂ R l l') (himp : List.Forall₂ (fun a b => R a b → S a b) l l') :
    List.Forall₂ S l l' := by
  induction h with
  | nil => exact .nil
  | cons hab _ ih =>
    cases himp with
    | cons hhead htail => exact .cons (hhead hab) (ih htail)

/-- A relation that every fold keeps is kept by a compaction. -/
theorem forall₂_compact {R : Dict Json → Dict Json → Prop} {originals : List (Dict Json)}
    (h : List.Forall₂ R originals decisions)
    (hfold : underBudget decisions thresholdTokens keepRecent = false →
      List.Forall₂ (fun o d => R o d → R o (foldOld d))
        (originals.take (decisions.length - keepRecent))
        (decisions.take (decisions.length - keepRecent))) :
    List.Forall₂ R originals (compactDecisions decisions thresholdTokens keepRecent).decisions := by
  cases hunder : underBudget decisions thresholdTokens keepRecent with
  | true =>
    rw [(decisions_of_underBudget hunder).1]
    exact h
  | false =>
    have hfold := hfold hunder
    rw [decisions_compactDecisions hunder]
    generalize decisions.length - keepRecent = n at hfold
    rw [← List.take_append_drop n originals]
    have htake := forall₂_mp (List.forall₂_take n h) hfold
    exact List.rel_append (List.forall₂_map_right_iff.mpr htake) (List.forall₂_drop n h)

theorem stands_refl (d : Dict Json) : Stands d d := ⟨.inl rfl, fun _ => rfl⟩

/-- **A step keeps the channel intact** when what it folds keeps its reference. -/
theorem intact_step {s : Channel} {a : Action} (h : Intact s) (hrefs : RefsKept s a) :
    Intact (step s a) := by
  cases a with
  | append entry => exact List.rel_append h (.cons (stands_refl entry) .nil)
  | compact thresholdTokens keepRecent =>
    refine forall₂_compact h fun hunder => ?_
    exact (hrefs hunder).imp fun o d hkeeps hstands => stands_fold hstands hkeeps

/-- **Every step keeps the protected entries.** -/
theorem verbatim_step {s : Channel} {a : Action} (h : Verbatim s) : Verbatim (step s a) := by
  cases a with
  | append entry => exact List.rel_append h (.cons (fun _ => rfl) .nil)
  | compact thresholdTokens keepRecent =>
    refine forall₂_compact h fun _ => ?_
    have hfold : ∀ o d : Dict Json, (isProtected o = true → d = o) →
        isProtected o = true → foldOld d = o := by
      intro o d hsame ho
      obtain rfl := hsame ho
      exact if_pos ho
    exact (List.forall₂_take _ h).imp fun o d _ => hfold o d

open Machine (Always EachStep)

/-- **A run of appends and compactions.** The protected entries stay; the compactions do not make the
channel longer exactly when each of them pays for its references; and where what is folded keeps its
reference, every entry ever appended stands at its position. -/
theorem compaction_of_guard (actions : List Action) :
    Always step Verbatim {} actions
      ∧ (EachStep step Shrinks {} actions ↔ EachStep step Pays {} actions)
      ∧ (EachStep step RefsKept {} actions → Always step Intact {} actions) := by
  refine ⟨?_, ?_, fun hrefs => ?_⟩
  · exact Machine.always_of_step (A := fun _ => True) (fun _ _ _ => verbatim_step) .nil
      fun _ _ => trivial
  · exact Machine.eachStep_congr (A := fun _ => True) (I := fun _ => True) (fun _ _ _ _ => trivial)
      (fun s a _ _ => shrinks_iff s a) trivial fun _ _ => trivial
  · exact Machine.always_of_guard (A := fun _ => True) (fun _ _ _ => intact_step) .nil
      (fun _ _ => trivial) hrefs

/-- A role take with a back-pointer. -/
def take (summary : List Char) : Dict Json :=
  [("role", .str "qa-engineer"), ("summary", .str (String.ofList summary)), ("audit_id", .str "A1")]

/-- A take of a hundred characters. -/
def longTake : Dict Json := take (List.replicate 100 'x')

/-- The first fold of a long take keeps its reference. -/
theorem longTake_stands : Always step Intact {} [.append longTake, .compact 0 0] := by
  refine (compaction_of_guard [.append longTake, .compact 0 0]).2.2 ⟨trivial, fun _ => ?_, trivial⟩
  refine .cons (fun _ => .inl ⟨rfl, fun c hc => ?_⟩) .nil
  have hall : (ownRef longTake).toList.all (!isLineBreak ·) = true := by decide
  simpa using List.all_eq_true.mp hall c hc

/-- A compaction to nothing folds a single take. -/
theorem compact_single (hprotected : isProtected d = false)
    (htokens : 0 < estimateTokens (decisionText d)) :
    underBudget [d] 0 0 = false ∧ (compactDecisions [d] 0 0).decisions = [foldDecision d] := by
  have hunder : underBudget [d] 0 0 = false := by
    simp only [underBudget, channelTokens, List.map_singleton, List.sum_singleton, List.length_singleton,
      Bool.or_eq_false_iff, decide_eq_false_iff_not]
    omega
  refine ⟨hunder, ?_⟩
  rw [decisions_compactDecisions hunder]
  simp [foldOld, hprotected]

theorem flatText_eq (d : Dict Json) : flatText d
    = ((((squeeze false (decisionText d).toList).dropWhile isSpace).reverse.dropWhile isSpace)).reverse := by
  rw [flatText, PyText.strip, String.toList_ofList, String.toList_ofList]

theorem decisionText_take {cs : List Char} (h : cs ≠ []) :
    decisionText (take cs) = String.ofList cs ∧ isProtected (take cs) = false := by
  constructor
  · have htruthy : (Json.str (String.ofList cs)).truthy = true :=
      bne_iff_ne.mpr fun heq => h (by rw [← String.toList_inj, String.toList_ofList] at heq; exact heq)
    show (Json.orElse (.str (String.ofList cs)) _).toStr = _
    rw [Json.orElse, if_pos htruthy]
    rfl
  · have hkind : Dict.strOr (take cs) "kind" "" = "" := rfl
    rw [isProtected, decisionKind, hkind]
    decide

/-- What two folds leave of the long take. -/
theorem reference_longTake :
    (reference (foldDecision longTake)).toList
      = List.replicate 90 'x' ++ "… (생략 109자, ref=-)".toList := by
  have htext : decisionText (take (List.replicate 100 'x')) = String.ofList (List.replicate 100 'x') :=
    (decisionText_take (by simp)).1
  have hflat : flatText longTake = List.replicate 100 'x' := by
    rw [flatText_eq, longTake, htext, String.toList_ofList]
    decide
  have hfirst : (reference longTake).toList
      = List.replicate 90 'x' ++ "… (생략 100자, ref=A1)".toList := by
    rw [toList_reference, keptHead, hflat]
    decide
  have hflat' : flatText (foldDecision longTake) = (reference longTake).toList := by
    rw [flatText_eq, decisionText_foldDecision, hfirst]
    decide
  rw [toList_reference, keptHead, hflat', hfirst]
  decide

set_option maxRecDepth 2000 in
/-- **The second fold of a long take loses its reference, and the fold of a short one is longer than the
take.** -/
theorem longTake_is_lost :
    ¬Always step Intact {} [.append longTake, .compact 0 0, .compact 0 0]
      ∧ ¬EachStep step Shrinks {} [.append (take ['o', 'k']), .compact 0 0] := by
  have hlong := decisionText_take (show List.replicate 100 'x' ≠ [] by simp)
  have hshort := decisionText_take (show ['o', 'k'] ≠ [] by simp)
  constructor
  · rintro ⟨-, -, -, hlast⟩
    have hfirst : (compactDecisions [longTake] 0 0).decisions = [foldDecision longTake] := by
      refine (compact_single hlong.2 ?_).2
      show 0 < estimateTokens (decisionText (take (List.replicate 100 'x')))
      rw [hlong.1, estimateTokens, String.length_ofList]
      decide
    have hsecond : (compactDecisions [foldDecision longTake] 0 0).decisions
        = [foldDecision (foldDecision longTake)] := by
      have href : IsReference "A1" (foldDecision longTake) := by
        refine ⟨_, _, rfl, oneLine_reference fun c hc => ?_, ownRef_infix_reference longTake⟩
        have hall : (ownRef longTake).toList.all (!isLineBreak ·) = true := by decide
        simpa using List.all_eq_true.mp hall c hc
      refine (compact_single href.ownRef.2 ?_).2
      rw [decisionText_foldDecision, estimateTokens_reference, referenceTokens]
      omega
    have hentries : Intact ⟨[foldDecision (foldDecision longTake)], [longTake]⟩ := by
      have hlast : Intact ⟨(compactDecisions (compactDecisions [longTake] 0 0).decisions 0 0).decisions,
          [longTake]⟩ := hlast
      rwa [hfirst, hsecond] at hlast
    obtain ⟨d, rest, hstands, -, heq⟩ := List.forall₂_cons_left_iff.mp hentries
    obtain ⟨rfl, -⟩ := List.cons.inj heq
    rcases hstands.pointsBack with hsame | ⟨role, summary, hshape, -, hown⟩
    · have hfolded := congrArg (fun d : Dict Json => (d.getJson "folded").truthy) hsame
      have hfolded : true = false := hfolded
      contradiction
    · have hsummary := congrArg (fun d : Dict Json => (d.getJson "summary").toStr) hshape
      have hsummary : reference (foldDecision longTake) = summary := hsummary
      rw [← hsummary, reference_longTake] at hown
      exact absurd hown (by decide)
  · rintro ⟨-, hshrinks, -⟩
    have hshrinks : Shrinks ⟨[take ['o', 'k']], [take ['o', 'k']]⟩ (.compact 0 0) := hshrinks
    rw [shrinks_iff] at hshrinks
    have hunder : underBudget [take ['o', 'k']] 0 0 = false := by
      refine (compact_single hshort.2 ?_).1
      rw [hshort.1, estimateTokens, String.length_ofList]
      decide
    have hpays := hshrinks hunder
    have hfolds : folds [take ['o', 'k']] 0 = [take ['o', 'k']] := by
      simp [folds, hshort.2]
    rw [hfolds] at hpays
    have htokens : channelTokens [take ['o', 'k']] = 1 := by
      simp only [channelTokens, List.map_singleton, List.sum_singleton, hshort.1, estimateTokens,
        String.length_ofList]
      rfl
    rw [htokens, List.map_singleton, List.sum_singleton, referenceTokens] at hpays
    omega

end ForgeKit.Harness
