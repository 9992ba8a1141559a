import ForgeKit.Lib.TextSearch
import ForgeKit.Lib.Trim

/-!
# The title guards (`repo_write_policy.py`)

What the titles of issues and of pull requests are checked for before anything is written. Texts are
lists of characters; `other` says which characters beyond ASCII belong to a word.

* `validate_ok_iff` — the titles that a guard accepts
* `validate_prefix_ok_iff` — among those that start with a prefix
-/

namespace ForgeKit

namespace Titles

abbrev Text := List Char

/-- `str.strip`. -/
def strip (t : Text) : Text := Trim.trim PyText.isSpace t

/-- `str.rstrip`. -/
def rstrip (t : Text) : Text := t.rdropWhile PyText.isSpace

/-- `_KOREAN_RE`, for one character. -/
def isHangul (c : Char) : Bool := 0xAC00 ≤ c.toNat && c.toNat ≤ 0xD7A3

/-- The number of Korean characters of a text. -/
def koreanChars (t : Text) : ℕ := t.countP isHangul

/-- The tokens of `_MODE_TOKEN_RE`. -/
def modeTokens : List String :=
  ["autonomous_merge", "approval_required", "single_repo", "multi_repo", "full_stack_single_repo",
    "single_scope", "layer_scoped", "cross_repo_program"]

/-- `_title_has_mode_token`. -/
def titleHasModeToken (other : Char → Bool) (t : Text) : Bool :=
  modeTokens.any fun token => TextSearch.search (TextSearch.wordFold other token) none t

/-- `coding[- ]?executor`, at a position. The optional draft after it changes no answer. -/
def codingExecutorAt : TextSearch.Test := fun before cs =>
  TextSearch.literalFold "coding" before cs
    && (TextSearch.literalFold "executor" before (cs.drop 6)
      || (cs.drop 6).head?.any (fun c => c == '-' || c == ' ')
        && TextSearch.literalFold "executor" before (cs.drop 7))

/-- `draft\s+pr`, at a position. -/
def draftPrAt : TextSearch.Test := fun before cs =>
  TextSearch.literalFold "draft" before cs
    && (cs.drop 5).head?.any PyText.isSpace
    && TextSearch.literalFold "pr" before ((cs.drop 5).dropWhile PyText.isSpace)

/-- `agent[/\\-][^\s]+`, at a position. -/
def agentPathAt : TextSearch.Test := fun before cs =>
  TextSearch.literalFold "agent" before cs
    && (cs.drop 5).head?.any (fun c => c == '/' || c == '\\' || c == '-')
    && (cs.drop 6).head?.any (fun c => !PyText.isSpace c)

/-- `_title_has_machine_pattern`. -/
def titleHasMachinePattern (t : Text) : Bool :=
  TextSearch.search (fun before cs =>
    codingExecutorAt before cs || draftPrAt before cs || agentPathAt before cs) none t

/-- `_ALLOWED_TITLE_PREFIXES`. -/
def allowedTitlePrefixes : List String :=
  ["[기능]", "[구현]", "[수정]", "[문서]", "[설정]", "[테스트]", "[리팩토링]"]

/-- What a title is for. -/
inductive TitleKind where
  | issue
  | pr
deriving DecidableEq, Repr

/-- `REASON_INVALID_ISSUE_TITLE` and `REASON_INVALID_PR_TITLE`. -/
def TitleKind.reason : TitleKind → String
  | .issue => "invalid_issue_title_not_human_readable_korean"
  | .pr => "invalid_pr_title_not_human_readable_korean"

/-- `PolicyResult`. -/
structure PolicyResult where
  ok : Bool
  reason : Option String := none
  detail : String := ""
  fields : List (String × Json) := []

/-- `_validate_human_title`, with `allow_machine` off. -/
def validateHumanTitle (other : Char → Bool) (kind : TitleKind) (text : Text) : PolicyResult :=
  if strip text = [] then
    { ok := false, reason := some kind.reason, detail := "title is empty" }
  else
    let text := strip text
    let title : String × Json := ("title", .str (String.ofList text))
    if 100 < text.length then
      { ok := false, reason := some kind.reason
        detail := "title length " ++ toString text.length ++ " > 100 — must be <= 100 chars"
        fields := [title, ("length", .int text.length)] }
    else if titleHasModeToken other text then
      { ok := false, reason := some kind.reason
        detail := "title contains mode tokens (autonomous_merge / single_repo / "
          ++ "full_stack_single_repo 등) — these are session metadata, not features"
        fields := [title] }
    else if titleHasMachinePattern text then
      { ok := false, reason := some kind.reason
        detail := "title is machine-like (e.g. 'coding-executor draft', 'agent/...') — "
          ++ "rewrite using the Korean humanizer (agents/coding/human_titles.py)"
        fields := [title] }
    else if koreanChars text < 4 then
      { ok := false, reason := some kind.reason
        detail := "title must contain at least 4 Korean (한국어) chars describing the work — got "
          ++ toString (koreanChars text) ++ ". Move non-Korean implementation detail to the body."
        fields := [title, ("korean_char_count", .int (koreanChars text))] }
    else if !allowedTitlePrefixes.any fun p => p.toList.isPrefixOf text then
      { ok := false, reason := some kind.reason
        detail := "title must start with one of " ++ String.intercalate ", " allowedTitlePrefixes
          ++ " (use agents/coding/human_titles.py to build correctly)"
        fields := [title, ("allowed_prefixes", .arr (allowedTitlePrefixes.map Json.str))] }
    else { ok := true, fields := [title] }

/-- `validate_issue_title`. -/
def validateIssueTitle (other : Char → Bool) (text : Text) : PolicyResult :=
  validateHumanTitle other .issue text

/-- `validate_pr_title`. -/
def validatePrTitle (other : Char → Bool) (text : Text) : PolicyResult :=
  validateHumanTitle other .pr text

/-! ## The titles that a guard accepts -/

/-- A text holds a mode token or a machine pattern. -/
def isTainted (other : Char → Bool) (t : Text) : Bool :=
  titleHasModeToken other t || titleHasMachinePattern t

variable {other : Char → Bool}

/-- **The titles that a guard accepts.** Both guards accept the same. -/
theorem validate_ok_iff {kind : TitleKind} {text : Text} :
    (validateHumanTitle other kind text).ok = true
      ↔ (strip text).length ≤ 100 ∧ isTainted other (strip text) = false
        ∧ 4 ≤ koreanChars (strip text)
        ∧ ∃ p ∈ allowedTitlePrefixes, p.toList <+: strip text := by
  have hempty : strip text = [] → ¬4 ≤ koreanChars (strip text) := by
    intro h
    rw [h]
    decide
  unfold validateHumanTitle isTainted
  rw [Bool.or_eq_false_iff]
  split
  · next h => simpa using fun _ _ _ hmany => absurd hmany (hempty h)
  · dsimp only
    split
    · next h => simp [not_le.mpr h]
    · next hlen =>
      split
      · next h => simp [h]
      · next hmode =>
        split
        · next h => simp [h]
        · next hmachine =>
          split
          · next h => simp [not_le.mpr h]
          · next hmany =>
            rw [Bool.not_eq_true] at hmode hmachine
            have hprefix : allowedTitlePrefixes.any (fun p => p.toList.isPrefixOf (strip text)) = true
                ↔ ∃ p ∈ allowedTitlePrefixes, p.toList <+: strip text := by
              simp only [List.any_eq_true, List.isPrefixOf_iff_prefix]
            rw [← hprefix]
            split
            · next h => simpa using fun _ _ _ _ => by simpa using h
            · next h => simpa [hmode, hmachine, not_lt.mp hlen, not_lt.mp hmany] using h

/-! ## Letters that tokens and patterns need -/

theorem modeTokens_underscore : ∀ token ∈ modeTokens, '_' ∈ token.toList := by decide

/-- A text without an underscore, without an `f` and without an `n` or a `g` holds nothing that the
guards look for. -/
theorem isTainted_eq_false {t : Text} (hunderscore : '_' ∉ t.map TextSearch.foldCase)
    (hf : 'f' ∉ t.map TextSearch.foldCase)
    (hng : 'n' ∉ t.map TextSearch.foldCase ∨ 'g' ∉ t.map TextSearch.foldCase) :
    isTainted other t = false := by
  have hword : ∀ word : String, 'n' ∈ word.toList → 'g' ∈ word.toList → ∀ {before tail},
      tail <:+ t → TextSearch.literalFold word before tail = false := by
    intro word hn hg before tail htail
    rw [← Bool.not_eq_true]
    intro hlit
    have hmem : ∀ {w}, w ∈ word.toList → w ∈ t.map TextSearch.foldCase := fun hw =>
      (htail.map TextSearch.foldCase).subset (TextSearch.mem_of_literalFold hlit hw)
    exact hng.elim (fun hno => hno (hmem hn)) fun hno => hno (hmem hg)
  unfold isTainted
  refine Bool.or_eq_false_iff.mpr ⟨?_, ?_⟩
  · unfold titleHasModeToken
    rw [List.any_eq_false]
    intro token htoken hsearch
    refine hunderscore (TextSearch.mem_of_search (fun before cs h => ?_) hsearch
      (modeTokens_underscore token htoken))
    unfold TextSearch.wordFold at h
    simp only [Bool.and_eq_true] at h
    exact h.1.2
  · unfold titleHasMachinePattern
    rw [← Bool.not_eq_true]
    intro hsearch
    obtain ⟨before, tail, htail, htest⟩ := TextSearch.exists_of_search hsearch
    unfold codingExecutorAt draftPrAt agentPathAt at htest
    rw [hword "coding" (by decide) (by decide) htail, hword "agent" (by decide) (by decide) htail,
      Bool.false_and, Bool.false_or, Bool.false_and, Bool.false_and, Bool.or_false] at htest
    simp only [Bool.and_eq_true] at htest
    exact hf ((htail.map TextSearch.foldCase).subset
      (TextSearch.mem_of_literalFold htest.1.1 (by decide)))

/-! ## Text behind a prefix -/

/-- The letters that mode tokens and machine patterns start with. -/
def startLetters : Text := ['a', 's', 'm', 'f', 'l', 'c', 'd']

theorem modeTokens_head : ∀ token ∈ modeTokens, ∃ w ∈ startLetters, token.toList.head? = some w := by
  have hall : modeTokens.all (fun token =>
      startLetters.any fun w => token.toList.head? == some w) = true := by decide
  intro token htoken
  simpa using List.all_eq_true.mp hall token htoken

/-- Text that may stand before a match and takes no part in it. -/
structure Inert (front : Text) : Prop where
  starts : ∀ c ∈ front, TextSearch.foldCase c ∉ startLetters
  ends : ∀ c, front.getLast? = some c → ∀ other, TextSearch.isWord other c = false

theorem machinePattern_append {front : Text} (h : Inert front) (t : Text) :
    titleHasMachinePattern (front ++ t) = titleHasMachinePattern t := by
  have hnone : ∀ word : String, ∀ w ∈ startLetters, word.toList.head? = some w → ∀ c ∈ front,
      ∀ before cs, TextSearch.literalFold word before (c :: cs) = false := by
    intro word w hw hword c hc before cs
    exact TextSearch.literalFold_eq_false hword (fun heq => h.starts c hc (heq ▸ hw)) before cs
  unfold titleHasMachinePattern
  rw [TextSearch.search_append (fun c hc before cs => ?_)]
  · refine TextSearch.search_congr (fun cs => ?_) t
    rfl
  · unfold codingExecutorAt draftPrAt agentPathAt
    rw [hnone "coding" 'c' (by decide) rfl c hc, hnone "draft" 'd' (by decide) rfl c hc,
      hnone "agent" 'a' (by decide) rfl c hc]
    rfl

theorem modeToken_append {front : Text} (h : Inert front) (t : Text) :
    titleHasModeToken other (front ++ t) = titleHasModeToken other t := by
  have hsame : ∀ token ∈ modeTokens,
      TextSearch.search (TextSearch.wordFold other token) none (front ++ t)
        = TextSearch.search (TextSearch.wordFold other token) none t := by
    intro token htoken
    obtain ⟨w, hw, hhead⟩ := modeTokens_head token htoken
    have hne : token.toList ≠ [] := fun hnil => by rw [hnil] at hhead; cases hhead
    rw [TextSearch.search_append fun c hc before cs => ?_]
    · refine TextSearch.search_congr (TextSearch.wordFold_congr hne ?_) t
      cases hlast : front.getLast? with
      | none => rfl
      | some c =>
        show TextSearch.isWord other c = false
        exact h.ends c hlast other
    · unfold TextSearch.wordFold
      rw [TextSearch.literalFold_eq_false hhead (fun heq => h.starts c hc (heq ▸ hw)) before cs,
        Bool.and_false, Bool.false_and]
  unfold titleHasModeToken
  rw [Bool.eq_iff_iff, List.any_eq_true, List.any_eq_true]
  refine exists_congr fun token => and_congr_right fun htoken => ?_
  rw [hsame token htoken]

/-- Inert text in front changes nothing. -/
theorem isTainted_append {front : Text} (h : Inert front) (t : Text) :
    isTainted other (front ++ t) = isTainted other t := by
  unfold isTainted
  rw [modeToken_append h, machinePattern_append h]

/-! ## Titles that start with a prefix -/

/-- A check of every character of a text and of its last one. -/
def isInert (front : Text) : Bool :=
  front.all (fun c => !startLetters.contains (TextSearch.foldCase c))
    && front.getLast?.all fun c => decide (c.toNat < 128) && !TextSearch.isWord (fun _ => false) c

theorem inert_of_isInert {front : Text} (h : isInert front = true) : Inert front := by
  obtain ⟨hstarts, hends⟩ := Bool.and_eq_true_iff.mp h
  refine ⟨fun c hc hmem => ?_, fun c hc other => ?_⟩
  · have hnot := List.all_eq_true.mp hstarts c hc
    rw [Bool.not_eq_true', ← Bool.not_eq_true, List.contains_iff_mem] at hnot
    exact hnot hmem
  · rw [hc] at hends
    obtain ⟨hascii, hnot⟩ := Bool.and_eq_true_iff.mp hends
    have hlt : c.toNat < 128 := of_decide_eq_true hascii
    unfold TextSearch.isWord at hnot ⊢
    simp only [hlt, if_true] at hnot ⊢
    rwa [Bool.not_eq_true'] at hnot

theorem prefix_facts : ∀ p ∈ allowedTitlePrefixes, isInert p.toList = true
    ∧ p.toList.getLast? = some ']' ∧ p.toList.head? = some '[' := by
  decide

theorem strip_prefix {p : String} (hp : p ∈ allowedTitlePrefixes) (t : Text) :
    strip (p.toList ++ t) = p.toList ++ rstrip t := by
  obtain ⟨-, hlast, hhead⟩ := prefix_facts p hp
  have hkeep : (p.toList ++ t).dropWhile PyText.isSpace = p.toList ++ t := by
    obtain ⟨rest, hrest⟩ := List.head?_eq_some_iff.mp hhead
    rw [hrest, List.cons_append, List.dropWhile_cons_of_neg (by decide)]
  show (List.dropWhile _ _).rdropWhile _ = _
  rw [hkeep, Trim.rdropWhile_append hlast (by decide)]
  rfl

/-- **Titles that start with a prefix.** Such a title is accepted exactly when it is short enough,
names the work in Korean and what follows the prefix holds no token and no pattern. -/
theorem validate_prefix_ok_iff {kind : TitleKind} {p : String} (hp : p ∈ allowedTitlePrefixes)
    (t : Text) :
    (validateHumanTitle other kind (p.toList ++ t)).ok = true
      ↔ p.toList.length + (rstrip t).length ≤ 100 ∧ isTainted other (rstrip t) = false
        ∧ 4 ≤ koreanChars p.toList + koreanChars (rstrip t) := by
  obtain ⟨hinert, -, -⟩ := prefix_facts p hp
  rw [validate_ok_iff, strip_prefix hp, isTainted_append (inert_of_isInert hinert), List.length_append]
  unfold koreanChars
  rw [List.countP_append]
  exact ⟨fun ⟨hlen, htaint, hmany, _⟩ => ⟨hlen, htaint, hmany⟩,
    fun ⟨hlen, htaint, hmany⟩ => ⟨hlen, htaint, hmany, p, hp, List.prefix_append _ _⟩⟩

end Titles

end ForgeKit
