import ForgeKit.Titles.KoreanTitle

/-!
# Titles of issues and of pull requests (`human_titles.py`)

A title is a prefix in Korean with the title of the slice, or a summary of the session's prompt,
behind it. A `none` is the exception for a prompt that is blank but not empty.

* `buildIssueTitle_ok_iff`, `buildPrTitle_ok_iff` — the inputs whose title the guards accept
* `generated_titles_ok_iff` — with the titles of planned issues
-/

namespace ForgeKit

namespace Titles

/-! ## The summary of a prompt -/

/-- `re.sub(pattern, "", t)`. `matchLen` is the length of the match at a position, and `skip` what is
left of the match that was found last. -/
def removeMatches (matchLen : Option Char → Text → Option ℕ) : ℕ → Option Char → Text → Text
  | _, _, [] => []
  | skip + 1, _, c :: cs => removeMatches matchLen skip (some c) cs
  | 0, before, c :: cs =>
    match matchLen before (c :: cs) with
    | some (n + 1) => removeMatches matchLen n (some c) cs
    | _ => c :: removeMatches matchLen 0 (some c) cs

/-- A literal with at least one character after it that is no space, and all such characters. -/
def literalAndMore (literal : String) (t : Text) : Option ℕ :=
  let more := ((t.drop literal.toList.length).takeWhile fun c => !PyText.isSpace c).length
  if literal.toList.isPrefixOf t && more ≠ 0 then some (literal.toList.length + more) else none

/-- `https?://\S+`. -/
def urlAt (_ : Option Char) (t : Text) : Option ℕ :=
  (literalAndMore "https://" t).or (literalAndMore "http://" t)

/-- `github\.com\S+`. -/
def githubAt (_ : Option Char) (t : Text) : Option ℕ := literalAndMore "github.com" t

/-- The mode tokens, case aside. -/
def modeTokenAt (u : Unicode) (before : Option Char) (t : Text) : Option ℕ :=
  (modeTokens.find? fun token => TextSearch.wordFold u.other token before t).map fun token =>
    token.toList.length

/-- `re.sub(r"\s+", " ", t)`. -/
def collapseSpace : Bool → Text → Text
  | _, [] => []
  | inSpace, c :: cs =>
    if PyText.isSpace c then (if inSpace then [] else [' ']) ++ collapseSpace true cs
    else c :: collapseSpace false cs

/-- The characters at which the first sentence ends. -/
def isSentenceEnd (c : Char) : Bool := c ∈ ['.', '。', '!', '?', '\n']

/-- The characters that are stripped from a summary. -/
def isEdge (c : Char) : Bool := c ∈ [' ', ',', '，', '·', '-']

/-- `_strip_to_summary`, with the default `max_len`. -/
def stripToSummary (u : Unicode) (text : Text) : Option Text :=
  if text = [] then some []
  else if strip text = [] then none
  else
    let line := strip (firstLine (strip text))
    let line := removeMatches urlAt 0 none line
    let line := removeMatches githubAt 0 none line
    let line := removeMatches (modeTokenAt u) 0 none line
    let sentence := line.takeWhile fun c => !isSentenceEnd c
    let cleaned := Trim.trim isEdge (collapseSpace false sentence)
    if 60 < cleaned.length then some (rstrip (cleaned.take 59) ++ ['…']) else some cleaned

/-! ## The titles -/

/-- `_TITLE_MAX_LEN`. -/
def titleMaxLen : ℕ := 100

/-- `_AREA_LABEL`. -/
def areaLabel : List (String × String) :=
  [("auth", "인증"), ("search", "검색"), ("blog", "블로그"), ("mail", "메일"), ("runtime", "런타임"),
    ("polish", "마무리"), ("backend", "백엔드"), ("frontend", "프론트엔드"), ("platform", "플랫폼")]

/-- `str(slice_spec.get(key) or "").strip()`. -/
def sliceText (slice : Dict Json) (key : String) : Text := strip (slice.strOr key "").toList

/-- `_resolve_area`, of a slice that is not empty. -/
def resolveArea (u : Unicode) (slice : Dict Json) : Text :=
  let area := u.lower (sliceText slice "area")
  match areaLabel.find? fun entry => entry.1.toList = area with
  | some entry => entry.2.toList
  | none =>
    let role := u.lower (sliceText slice "executor_role")
    if "frontend".toList.isPrefixOf role then "프론트엔드".toList
    else if "backend".toList.isPrefixOf role then "백엔드".toList
    else if "platform".toList.isPrefixOf role then "플랫폼".toList
    else area

/-- The title of a slice, where there is one. -/
def sliceTitle (sliceSpec : Option (Dict Json)) : Option (Dict Json × Text) :=
  match sliceSpec with
  | none => none
  | some slice =>
    if slice = [] then none
    else if sliceText slice "title" = [] then none
    else some (slice, sliceText slice "title")

/-- `(fallback_short_purpose or "코딩 작업").strip()`. -/
def fallbackPurpose (fallback : Option Text) : Text :=
  strip (match fallback with
    | none => "코딩 작업".toList
    | some text => if text = [] then "코딩 작업".toList else text)

/-- `build_issue_title`. -/
def buildIssueTitle (u : Unicode) (sessionPrompt : Option Text) (sliceSpec : Option (Dict Json))
    (fallbackShortPurpose : Option Text) : Option Text :=
  match sliceTitle sliceSpec with
  | some (slice, title) =>
    let area := resolveArea u slice
    let composed := if area ≠ [] ∧ contains title area = false
      then "[기능]".toList ++ '[' :: area ++ "] ".toList ++ title
      else "[기능] ".toList ++ title
    some (composed.take titleMaxLen)
  | none =>
    (stripToSummary u (sessionPrompt.getD [])).map fun summary =>
      let summary := if summary = [] then fallbackPurpose fallbackShortPurpose else summary
      ("[기능] ".toList ++ summary).take titleMaxLen

/-- ` (#N)`, for an issue number other than zero. -/
def issueMark (issueNumber : Option ℤ) : Text :=
  match issueNumber with
  | none => []
  | some n => if n = 0 then [] else (" (#" ++ toString n ++ ")").toList

/-- `branch_hint.split("/")[-1]`. -/
def lastSegment (branch : Text) : Text := branch.rtakeWhile (· ≠ '/')

/-- `build_pr_title`. -/
def buildPrTitle (u : Unicode) (sessionPrompt : Option Text) (sliceSpec : Option (Dict Json))
    (branchHint : Option Text) (issueNumber : Option ℤ) (fallbackShortPurpose : Option Text) :
    Option Text :=
  match sliceTitle sliceSpec with
  | some (slice, title) =>
    let area := resolveArea u slice
    let titlePrefix := if area ≠ [] then "[구현]".toList ++ '[' :: area ++ [']'] else "[구현]".toList
    some ((titlePrefix ++ ' ' :: title ++ issueMark issueNumber).take titleMaxLen)
  | none =>
    (stripToSummary u (sessionPrompt.getD [])).map fun summary =>
      let summary := if summary = [] then fallbackPurpose fallbackShortPurpose else summary
      let summary := if summary = [] then (branchHint.map lastSegment).getD [] else summary
      ("[구현] ".toList ++ summary ++ issueMark issueNumber).take titleMaxLen

/-! ## What stands behind the prefix -/

/-- What a summary is replaced by when it is empty. -/
def summaryText (u : Unicode) (sessionPrompt fallbackShortPurpose : Option Text)
    (branchHint : Option Text) : Option Text :=
  (stripToSummary u (sessionPrompt.getD [])).map fun summary =>
    let summary := if summary = [] then fallbackPurpose fallbackShortPurpose else summary
    if summary = [] then (branchHint.map lastSegment).getD [] else summary

/-- The text of an issue title behind its prefix, before it is cut. -/
def issueTail (u : Unicode) (sessionPrompt : Option Text) (sliceSpec : Option (Dict Json))
    (fallbackShortPurpose : Option Text) : Option Text :=
  match sliceTitle sliceSpec with
  | some (slice, title) =>
    if resolveArea u slice ≠ [] ∧ contains title (resolveArea u slice) = false
    then some ('[' :: resolveArea u slice ++ "] ".toList ++ title)
    else some (' ' :: title)
  | none => (summaryText u sessionPrompt fallbackShortPurpose none).map fun summary => ' ' :: summary

/-- The text of a pull request's title behind its prefix, before it is cut. -/
def prTail (u : Unicode) (sessionPrompt : Option Text) (sliceSpec : Option (Dict Json))
    (branchHint : Option Text) (issueNumber : Option ℤ) (fallbackShortPurpose : Option Text) :
    Option Text :=
  match sliceTitle sliceSpec with
  | some (slice, title) =>
    if resolveArea u slice ≠ []
    then some ('[' :: resolveArea u slice ++ "] ".toList ++ title ++ issueMark issueNumber)
    else some (' ' :: title ++ issueMark issueNumber)
  | none =>
    (summaryText u sessionPrompt fallbackShortPurpose branchHint).map fun summary =>
      ' ' :: summary ++ issueMark issueNumber

variable {u : Unicode}

theorem buildIssueTitle_eq (sessionPrompt : Option Text) (sliceSpec : Option (Dict Json))
    (fallbackShortPurpose : Option Text) :
    buildIssueTitle u sessionPrompt sliceSpec fallbackShortPurpose
      = (issueTail u sessionPrompt sliceSpec fallbackShortPurpose).map fun tail =>
        ("[기능]".toList ++ tail).take titleMaxLen := by
  unfold buildIssueTitle issueTail
  cases sliceTitle sliceSpec with
  | some found =>
    obtain ⟨slice, title⟩ := found
    dsimp only
    by_cases harea : resolveArea u slice ≠ [] ∧ contains title (resolveArea u slice) = false
    · rw [if_pos harea, if_pos harea]
      simp only [Option.map_some, List.append_assoc, List.cons_append]
    · rw [if_neg harea, if_neg harea]
      rfl
  | none =>
    unfold summaryText
    dsimp only
    rw [Option.map_map, Option.map_map]
    refine congrArg (Option.map · _) (funext fun summary => ?_)
    simp only [Function.comp_apply, Option.map_none, Option.getD_none]
    have hsame : ∀ t : Text, (if t = [] then [] else t) = t := by
      intro t
      split
      · next h => exact h.symm
      · rfl
    rw [hsame]
    rfl

theorem buildPrTitle_eq (sessionPrompt : Option Text) (sliceSpec : Option (Dict Json))
    (branchHint : Option Text) (issueNumber : Option ℤ) (fallbackShortPurpose : Option Text) :
    buildPrTitle u sessionPrompt sliceSpec branchHint issueNumber fallbackShortPurpose
      = (prTail u sessionPrompt sliceSpec branchHint issueNumber fallbackShortPurpose).map fun tail =>
        ("[구현]".toList ++ tail).take titleMaxLen := by
  unfold buildPrTitle prTail
  cases sliceTitle sliceSpec with
  | some found =>
    obtain ⟨slice, title⟩ := found
    dsimp only
    by_cases harea : resolveArea u slice ≠ []
    · rw [if_pos harea, if_pos harea]
      simp [List.append_assoc]
    · rw [if_neg harea, if_neg harea]
      simp
  | none =>
    unfold summaryText
    dsimp only
    rw [Option.map_map, Option.map_map]
    refine congrArg (Option.map · _) (funext fun summary => ?_)
    simp only [Function.comp_apply, List.cons_append]
    rfl

/-! ## The inputs whose title is accepted -/

/-- How much of the text behind the prefix a title shows. -/
def shownTail (tail : Text) : Text := rstrip (tail.take 96)

/-- The shown text names the work in Korean and holds no token and no pattern. -/
def TailAccepted (u : Unicode) (tail : Text) : Prop :=
  isTainted u.other (shownTail tail) = false ∧ 2 ≤ koreanChars (shownTail tail)

theorem humanPrefix_facts : ∀ p ∈ ["[기능]", "[구현]"],
    p ∈ allowedTitlePrefixes ∧ p.toList.length = 4 ∧ koreanChars p.toList = 2 := by
  decide

theorem cut_ok_iff {kind : TitleKind} {p : String} (hp : p ∈ ["[기능]", "[구현]"]) (tail : Text) :
    (validateHumanTitle u.other kind ((p.toList ++ tail).take titleMaxLen)).ok = true
      ↔ TailAccepted u tail := by
  obtain ⟨hhuman, hlen, hkorean⟩ := humanPrefix_facts p hp
  have htake : (p.toList ++ tail).take titleMaxLen = p.toList ++ tail.take 96 := by
    rw [List.take_append, hlen, List.take_of_length_le (by rw [hlen]; decide)]
    rfl
  have hshort : (shownTail tail).length ≤ 96 :=
    (List.rdropWhile_prefix _ _).length_le.trans (List.length_take_le _ _)
  rw [htake, validate_prefix_ok_iff hhuman, hlen, hkorean]
  show _ ∧ isTainted u.other (shownTail tail) = false ∧ 4 ≤ 2 + koreanChars (shownTail tail) ↔ _
  constructor
  · rintro ⟨-, htaint, hmany⟩
    exact ⟨htaint, by omega⟩
  · rintro ⟨htaint, hmany⟩
    exact ⟨by change 4 + (shownTail tail).length ≤ 100; omega, htaint, by omega⟩

theorem buildIssueTitle_ok_iff (sessionPrompt : Option Text) (sliceSpec : Option (Dict Json))
    (fallbackShortPurpose : Option Text) :
    (∃ title ∈ buildIssueTitle u sessionPrompt sliceSpec fallbackShortPurpose,
        (validateIssueTitle u.other title).ok = true)
      ↔ ∃ tail ∈ issueTail u sessionPrompt sliceSpec fallbackShortPurpose, TailAccepted u tail := by
  rw [buildIssueTitle_eq]
  cases issueTail u sessionPrompt sliceSpec fallbackShortPurpose with
  | none => simp
  | some tail =>
    simp only [Option.map_some, Option.mem_def, Option.some.injEq, exists_eq_left']
    exact cut_ok_iff (by decide) tail

theorem buildPrTitle_ok_iff (sessionPrompt : Option Text) (sliceSpec : Option (Dict Json))
    (branchHint : Option Text) (issueNumber : Option ℤ) (fallbackShortPurpose : Option Text) :
    (∃ title ∈ buildPrTitle u sessionPrompt sliceSpec branchHint issueNumber fallbackShortPurpose,
        (validatePrTitle u.other title).ok = true)
      ↔ ∃ tail ∈ prTail u sessionPrompt sliceSpec branchHint issueNumber fallbackShortPurpose,
        TailAccepted u tail := by
  rw [buildPrTitle_eq]
  cases prTail u sessionPrompt sliceSpec branchHint issueNumber fallbackShortPurpose with
  | none => simp
  | some tail =>
    simp only [Option.map_some, Option.mem_def, Option.some.injEq, exists_eq_left']
    exact cut_ok_iff (by decide) tail

/-- A request whose planned title is accepted. -/
def PlanAccepted (u : Unicode) (request : Text) : Prop :=
  detectIntent u (strip request) = .fullStackMvp ∨ detectScopes u (strip request) ≠ []
    ∨ strip (firstLine (strip request)) = []
    ∨ (titleHeader (detectIntent u (strip request))).length
          + (shownLine (titleHeader (detectIntent u (strip request))).length
            (strip (firstLine (strip request)))).length ≤ 100
        ∧ isTainted u.other (shownLine (titleHeader (detectIntent u (strip request))).length
          (strip (firstLine (strip request)))) = false

/--
**Generated titles and the title guards.** For all tables of Unicode: a planned title passes the guard
exactly when it is made of fixed texts or the line it shows is short and clean; a title of an issue or
of a pull request is made and passes exactly when the text shown behind its prefix is clean and has
two Korean characters.
-/
theorem generated_titles_ok_iff (u : Unicode) :
    (∀ request, (validateIssueTitle u.other (defaultIssueTitle u request)).ok = true
      ↔ PlanAccepted u request)
    ∧ (∀ sessionPrompt sliceSpec fallbackShortPurpose,
      (∃ title ∈ buildIssueTitle u sessionPrompt sliceSpec fallbackShortPurpose,
          (validateIssueTitle u.other title).ok = true)
        ↔ ∃ tail ∈ issueTail u sessionPrompt sliceSpec fallbackShortPurpose, TailAccepted u tail)
    ∧ ∀ sessionPrompt sliceSpec branchHint issueNumber fallbackShortPurpose,
      (∃ title ∈ buildPrTitle u sessionPrompt sliceSpec branchHint issueNumber fallbackShortPurpose,
          (validatePrTitle u.other title).ok = true)
        ↔ ∃ tail ∈ prTail u sessionPrompt sliceSpec branchHint issueNumber fallbackShortPurpose,
          TailAccepted u tail :=
  ⟨defaultIssueTitle_ok_iff u, fun _ _ _ => buildIssueTitle_ok_iff _ _ _,
    fun _ _ _ _ _ => buildPrTitle_ok_iff _ _ _ _ _⟩

/-! ## Titles that are refused -/

/-- The tables, as far as the texts below need them. -/
def sampleUnicode : Unicode := ⟨isHangul, fun t => t.flatMap PyText.lowerChar⟩

/-- **Three titles that are refused**: a planned title that shows a mode token of the request, an
English prompt, and a blank prompt, for which no title is made. -/
theorem refused_titles :
    (validateIssueTitle sampleUnicode.other (defaultIssueTitle sampleUnicode
        "autonomous_merge 로 배포 구현".toList)).ok = false
      ∧ (buildIssueTitle sampleUnicode (some "fix the login bug".toList) none none).map
        (fun title => (validateIssueTitle sampleUnicode.other title).ok) = some false
      ∧ buildPrTitle sampleUnicode (some " ".toList) none none none none = none := by
  decide +kernel

end Titles

end ForgeKit
