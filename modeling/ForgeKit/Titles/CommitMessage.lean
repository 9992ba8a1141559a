import Mathlib.Data.List.Sort
import ForgeKit.Lib.LineSections
import ForgeKit.Titles.KoreanTitle

/-!
# Commit messages (`repo_write_policy.py`)

`validate_commit_message` wants a gitmoji at the start of the title, and three sections in the body,
each of them a heading on a line of its own with something under it.

* `validateBodySections_ok_iff` — the bodies that are accepted
* `validateCommitMessage_ok_iff` — the messages that are accepted
-/

namespace ForgeKit

namespace Titles

open LineSections (searchLines heading sectionOf Followed)

/-! ## The validator -/

/-- `ALLOWED_GITMOJI`. -/
def allowedGitmoji : List String :=
  ["✨", "🐛", "♻️", "📝", "✅", "🔧", "🚚", "🔥", "⚡️", "👷", "💚", "🚑️"]

/-- `INITIAL_COMMIT_TITLE_EXACT`. -/
def initialCommitTitleExact : String := ":tada: initial commit"

/-- `INITIAL_GITMOJI_TEXT`. -/
def initialGitmojiText : String := ":tada:"

/-- `REQUIRED_SECTIONS`. -/
def requiredSections : List String := ["변경 이유", "주요 변경 사항", "비고"]

/-- `_MD_HEADER_SECTIONS`. -/
def mdHeaderSections : List String := ["## 변경 이유", "## 주요 변경 사항", "## 비고"]

def reasonInvalidCommitGitmoji : String := "invalid_commit_gitmoji"

def reasonInvalidCommitBodySections : String := "invalid_commit_body_sections"

def reasonInvalidInitialCommitTitle : String := "invalid_initial_commit_title"

def reasonTadaOutsideInitialCommit : String := "tada_used_outside_initial_commit"

/-- `s.startswith(p)`. -/
def startsWith (t : Text) (p : String) : Bool := p.toList.isPrefixOf t

/-- `sorted(ALLOWED_GITMOJI, key=len, reverse=True)`. -/
def gitmojiByLength : List String :=
  allowedGitmoji.insertionSort fun a b => b.length ≤ a.length

/-- `_strip_gitmoji_prefix`: the gitmoji and the rest. -/
def stripGitmojiPrefix (titleLine : Text) : String × Text :=
  let stripped := strip titleLine
  match gitmojiByLength.find? fun emoji =>
      startsWith stripped (emoji ++ " ") || stripped == emoji.toList with
  | some emoji =>
    if startsWith stripped (emoji ++ " ") then
      (emoji, (stripped.drop (emoji.toList.length + 1)).dropWhile PyText.isSpace)
    else (emoji, [])
  | none =>
    if startsWith (stripped.flatMap PyText.lowerChar) initialGitmojiText then
      (initialGitmojiText,
        (stripped.drop initialGitmojiText.toList.length).dropWhile PyText.isSpace)
    else ("", stripped)

/-- The names of the sections as texts. -/
def sectionNames : List Text := requiredSections.map String.toList

/-- `^\s*…\s*$` finds the section. -/
def hasSection (text : Text) (name : String) : Bool :=
  (searchLines '\n' (heading PyText.isSpace '\n' name.toList some) true text).isSome

/-- What the second pattern finds under the section is blank. -/
def sectionIsEmpty (text : Text) (name : String) : Bool :=
  match sectionOf PyText.isSpace '\n' sectionNames name.toList text with
  | none => false
  | some block => strip block == []

/-- `_validate_body_sections`. -/
def validateBodySections (text : Text) (gitmoji : String) : PolicyResult :=
  match mdHeaderSections.find? fun mdHeader => contains text mdHeader.toList with
  | some mdHeader =>
    let plain := strip (mdHeader.toList.dropWhile (· == '#'))
    { ok := false, reason := some reasonInvalidCommitBodySections
      detail := "section header must be plain text per SSoT — found markdown header "
        ++ (Json.str mdHeader).repr ++ ". Use " ++ (Json.str (String.ofList plain)).repr
        ++ " instead."
      fields := [("bad_header", .str mdHeader)] }
  | none =>
    let missing := requiredSections.filter fun name => !hasSection text name
    if missing ≠ [] then
      { ok := false, reason := some reasonInvalidCommitBodySections
        detail := "commit body missing required section(s): " ++ ", ".intercalate missing
          ++ ". Each must appear as a plain-text header followed by `- ...` bullets "
          ++ "(or `- 없음` if empty)."
        fields := [("missing_sections", .arr (missing.map Json.str))] }
    else
      match requiredSections.find? fun name => sectionIsEmpty text name with
      | some name =>
        { ok := false, reason := some reasonInvalidCommitBodySections
          detail := "section " ++ (Json.str name).repr
            ++ " is empty — write `- 없음` when intentionally empty"
          fields := [("empty_section", .str name)] }
      | none => { ok := true, fields := [("gitmoji", .str gitmoji)] }

/-- A text that ends in a period. -/
def endsInPeriod (t : Text) : Bool := t.getLast?.any fun c => c == '.' || c == '。'

/-- `validate_commit_message`. -/
def validateCommitMessage (text : Text) (isInitial : Bool) : PolicyResult :=
  if strip text = [] then
    { ok := false, reason := some reasonInvalidCommitBodySections, detail := "empty commit message" }
  else
    let title := strip (firstLine text)
    let shown : Json := .str (String.ofList title)
    let (gitmoji, rest) := stripGitmojiPrefix title
    if isInitial then
      if strip title ≠ initialCommitTitleExact.toList then
        { ok := false, reason := some reasonInvalidInitialCommitTitle
          detail := "initial commit must be exactly " ++ (Json.str initialCommitTitleExact).repr
            ++ ", got " ++ shown.repr
          fields := [("expected", .str initialCommitTitleExact), ("got", shown)] }
      else validateBodySections text gitmoji
    else if gitmoji = initialGitmojiText || startsWith title "🎉" then
      { ok := false, reason := some reasonTadaOutsideInitialCommit
        detail := "`" ++ initialGitmojiText ++ "` / 🎉 is reserved for the first commit"
        fields := [("got_title", shown)] }
    else if !allowedGitmoji.contains gitmoji then
      let allowed : Json := .arr ((allowedGitmoji.insertionSort fun a b => a ≤ b).map Json.str)
      { ok := false, reason := some reasonInvalidCommitGitmoji
        detail := "first token must be one of allowed gitmoji " ++ allowed.repr ++ "; got title="
          ++ shown.repr
        fields := [("allowed", allowed), ("got_title", shown)] }
    else if endsInPeriod rest then
      { ok := false, reason := some reasonInvalidCommitBodySections
        detail := "commit title must not end with a period"
        fields := [("got_title", shown)] }
    else validateBodySections text gitmoji

/-! ## The grammar -/

/-- A heading line of a section: its name stands alone, up to blanks. -/
def IsHeading (name : String) (line : Text) : Prop := strip line = name.toList

/-- The first heading line of the section is followed by a line that is not blank, ahead of the next
heading line of any section. -/
def SectionGiven (text : Text) (name : String) : Prop :=
  ∃ before line after, text.splitOn '\n' = before ++ line :: after ∧ IsHeading name line
    ∧ (∀ l ∈ before, ¬IsHeading name l) ∧ Followed PyText.isSpace sectionNames after

/-- The first heading line of the section is the last line of the text. -/
def EndsInHeading (text : Text) (name : String) : Prop :=
  ∃ before line, text.splitOn '\n' = before ++ [line] ∧ IsHeading name line
    ∧ ∀ l ∈ before, ¬IsHeading name l

/-- A commit message with this title. -/
structure CommitGrammar (periods : List Char) (title text : Text) : Prop where
  gitmoji : ∃ emoji ∈ allowedGitmoji, startsWith title (emoji ++ " ") = true ∨ title = emoji.toList
  notTada : startsWith (title.flatMap PyText.lowerChar) initialGitmojiText = false
    ∧ startsWith title "🎉" = false
  noPeriod : ∀ c ∈ periods, title.getLast? ≠ some c
  plain : ∀ mdHeader ∈ mdHeaderSections, contains text mdHeader.toList = false
  sections : ∀ name ∈ requiredSections, SectionGiven text name

/-! ## The sections -/

theorem name_of_required {name : String} (h : name ∈ requiredSections) :
    LineSections.Name PyText.isSpace '\n' name.toList := by
  unfold requiredSections at h
  simp only [List.mem_cons, List.not_mem_nil, or_false] at h
  rcases h with rfl | rfl | rfl
  all_goals exact ⟨⟨_, rfl, by decide⟩, ⟨_, rfl, by decide⟩, by decide⟩

theorem sectionNames_spec : ∀ name ∈ sectionNames, LineSections.Name PyText.isSpace '\n' name := by
  intro name h
  obtain ⟨s, hs, rfl⟩ := List.mem_map.mp h
  exact name_of_required hs

theorem strip_eq_nil_iff {t : Text} : strip t = [] ↔ t.all PyText.isSpace = true := by
  rw [List.all_eq_true, ← List.dropWhile_eq_nil_iff]
  constructor
  · intro h
    by_contra hne
    have hall := List.rdropWhile_eq_nil_iff.mp h
    have hhead := List.head_dropWhile_not PyText.isSpace hne
    rw [hall _ (List.head_mem hne)] at hhead
    cases hhead
  · intro h
    rw [strip, Trim.trim, h]
    rfl

theorem hasSection_iff {name : String} (h : name ∈ requiredSections) (text : Text) :
    hasSection text name = true ↔ ∃ line ∈ text.splitOn '\n', IsHeading name line :=
  LineSections.isSome_searchLines_heading (by decide) (name_of_required h) text

/-- **Both checks of a section pass** when its first heading is followed, or when nothing at all,
not even a line end, stands behind it. -/
theorem section_ok_iff {name : String} (h : name ∈ requiredSections) (text : Text) :
    (hasSection text name = true ∧ sectionIsEmpty text name = false)
      ↔ SectionGiven text name ∨ EndsInHeading text name := by
  rw [hasSection_iff h]
  unfold sectionIsEmpty
  rcases LineSections.section_spec (by decide) sectionNames_spec (name_of_required h) text with
    ⟨hnone, hlast⟩ | ⟨block, before, line, after, hsome, heq, hline, hbefore, hafter, hblank⟩
  · rw [hnone]
    constructor
    · rintro ⟨hexists, -⟩
      obtain ⟨before, line, after, heq, hline, hbefore⟩ := LineSections.exists_first hexists
      obtain rfl := hlast before line after heq hline
      exact .inr ⟨before, line, heq, hline, hbefore⟩
    · rintro (⟨before, line, after, heq, hline, -, hfollowed⟩ | ⟨before, line, heq, hline, -⟩)
      · obtain rfl := hlast before line after heq hline
        exact absurd hfollowed LineSections.not_followed_nil
      · exact ⟨⟨line, by rw [heq]; simp, hline⟩, rfl⟩
  · rw [hsome]
    have hempty : (strip block == []) = false ↔ Followed PyText.isSpace sectionNames after := by
      rw [beq_eq_false_iff_ne, ne_eq, strip_eq_nil_iff, hblank, not_not]
    dsimp only
    rw [hempty]
    constructor
    · exact fun hok => .inl ⟨before, line, after, heq, hline, hbefore, hok.2⟩
    · rintro (⟨before', line', after', heq', hline', hbefore', hfollowed⟩
        | ⟨before', line', heq', hline', hbefore'⟩)
      · have hsame := LineSections.after_unique (heq.symm.trans heq') hline hline' hbefore hbefore'
        exact ⟨⟨line, by rw [heq]; simp, hline⟩, hsame ▸ hfollowed⟩
      · exact absurd (LineSections.after_unique (heq.symm.trans heq') hline hline' hbefore hbefore') hafter

/-- **The bodies that are accepted.** -/
theorem validateBodySections_ok_iff (text : Text) (gitmoji : String) :
    (validateBodySections text gitmoji).ok = true
      ↔ (∀ mdHeader ∈ mdHeaderSections, contains text mdHeader.toList = false)
        ∧ ∀ name ∈ requiredSections, SectionGiven text name ∨ EndsInHeading text name := by
  have hsections : (∀ name ∈ requiredSections, SectionGiven text name ∨ EndsInHeading text name)
      ↔ (requiredSections.filter fun name => !hasSection text name) = []
        ∧ (requiredSections.find? fun name => sectionIsEmpty text name) = none := by
    rw [List.filter_eq_nil_iff, List.find?_eq_none, ← forall₂_and]
    refine forall₂_congr fun name hname => ?_
    rw [← section_ok_iff hname]
    simp
  rw [hsections]
  unfold validateBodySections
  split
  · next mdHeader hfound =>
    refine iff_of_false Bool.false_ne_true fun h => ?_
    have hcontains := List.find?_some hfound
    rw [h.1 mdHeader (List.mem_of_find?_eq_some hfound)] at hcontains
    cases hcontains
  · next hfound =>
    have hplain : ∀ mdHeader ∈ mdHeaderSections, contains text mdHeader.toList = false :=
      fun mdHeader hmem => Bool.not_eq_true _ ▸ List.find?_eq_none.mp hfound mdHeader hmem
    rw [and_iff_right hplain]
    dsimp only
    split
    · next hmissing => exact iff_of_false Bool.false_ne_true fun h => hmissing h.1
    · next hmissing =>
      rw [not_not] at hmissing
      rw [and_iff_right hmissing]
      split
      · next name hempty =>
        refine iff_of_false Bool.false_ne_true fun h => ?_
        rw [hempty] at h
        cases h
      · next hempty => exact iff_of_true rfl hempty

/-! ## The title -/

/-- A title starts with the gitmoji. -/
def HasGitmoji (title : Text) (emoji : String) : Prop :=
  startsWith title (emoji ++ " ") = true ∨ title = emoji.toList

theorem allowedGitmoji_facts : ∀ emoji ∈ allowedGitmoji,
    (∃ c rest, emoji.toList = c :: rest ∧ PyText.lowerChar c = [c] ∧ c ≠ ':' ∧ c ≠ '🎉')
      ∧ emoji ≠ initialGitmojiText ∧ endsInPeriod emoji.toList = false := by
  intro emoji h
  unfold allowedGitmoji at h
  simp only [List.mem_cons, List.not_mem_nil, or_false] at h
  rcases h with rfl | rfl | rfl | rfl | rfl | rfl | rfl | rfl | rfl | rfl | rfl | rfl
  all_goals exact ⟨⟨_, _, rfl, by decide, by decide, by decide⟩, by decide, by decide⟩

/-- A title with an allowed gitmoji is neither of the two of a first commit. -/
theorem not_tada_of_hasGitmoji {title : Text} {emoji : String} (hmem : emoji ∈ allowedGitmoji)
    (h : HasGitmoji title emoji) :
    startsWith (title.flatMap PyText.lowerChar) initialGitmojiText = false
      ∧ startsWith title "🎉" = false := by
  obtain ⟨⟨c, rest, hemoji, hlower, hcolon, hparty⟩, -⟩ := allowedGitmoji_facts emoji hmem
  obtain ⟨more, rfl⟩ : ∃ more, title = c :: more := by
    rcases h with h | h
    · obtain ⟨tail, rfl⟩ := List.isPrefixOf_iff_prefix.mp h
      rw [String.toList_append, hemoji]
      exact ⟨_, rfl⟩
    · exact ⟨rest, by rw [h, hemoji]⟩
  have hcolon' : (':' == c) = false := beq_eq_false_iff_ne.mpr (Ne.symm hcolon)
  have hparty' : ('🎉' == c) = false := beq_eq_false_iff_ne.mpr (Ne.symm hparty)
  constructor
  · rw [List.flatMap_cons, hlower]
    show (':' == c && _) = false
    rw [hcolon', Bool.false_and]
  · show ('🎉' == c && _) = false
    rw [hparty', Bool.false_and]

theorem mem_gitmojiByLength {emoji : String} : emoji ∈ gitmojiByLength ↔ emoji ∈ allowedGitmoji :=
  List.mem_insertionSort _

/-- What is left of a stripped title behind its gitmoji ends as the title does. -/
theorem endsInPeriod_rest {title : Text} (hstrip : strip title = title) {emoji : String}
    (h : startsWith title (emoji ++ " ") = true) :
    endsInPeriod ((title.drop (emoji.toList.length + 1)).dropWhile PyText.isSpace)
      = endsInPeriod title := by
  obtain ⟨tail, htail⟩ := List.isPrefixOf_iff_prefix.mp h
  rw [String.toList_append] at htail
  have hdrop : title.drop (emoji.toList.length + 1) = tail := by
    rw [← htail]
    exact List.drop_left' (by rw [List.length_append]; rfl)
  rw [hdrop]
  have hsplit := List.takeWhile_append_dropWhile (p := PyText.isSpace) (l := tail)
  cases hrest : tail.dropWhile PyText.isSpace with
  | nil =>
    -- the title would end in a blank
    exfalso
    have hblank : ∀ c ∈ ' ' :: tail, PyText.isSpace c = true :=
      List.forall_mem_cons.mpr ⟨by decide, List.dropWhile_eq_nil_iff.mp hrest⟩
    have hlast : title.getLast? = some ((' ' :: tail).getLast (List.cons_ne_nil _ _)) := by
      rw [← htail, List.append_assoc, List.getLast?_append]
      show (' ' :: tail).getLast?.or _ = _
      rw [List.getLast?_eq_some_getLast (List.cons_ne_nil _ _), Option.some_or]
    rw [← hstrip] at hlast
    have hnot := Trim.not_of_getLast?_trim hlast
    rw [hblank _ (List.getLast_mem _)] at hnot
    cases hnot
  | cons c rest =>
    rw [hrest] at hsplit
    unfold endsInPeriod
    rw [← htail, ← hsplit, List.getLast?_append, List.getLast?_append, List.getLast?_cons]
    rfl

/-- **What `_strip_gitmoji_prefix` finds.** -/
theorem stripGitmojiPrefix_spec {title : Text} (hstrip : strip title = title) :
    (∃ emoji ∈ allowedGitmoji, HasGitmoji title emoji
        ∧ ∃ rest, stripGitmojiPrefix title = (emoji, rest)
          ∧ endsInPeriod rest = endsInPeriod title)
      ∨ ((∀ emoji ∈ allowedGitmoji, ¬HasGitmoji title emoji)
        ∧ ∃ gitmoji rest, stripGitmojiPrefix title = (gitmoji, rest) ∧ gitmoji ∉ allowedGitmoji) := by
  unfold stripGitmojiPrefix
  rw [hstrip]
  dsimp only
  split
  · next emoji hfound =>
    have hmem := mem_gitmojiByLength.mp (List.mem_of_find?_eq_some hfound)
    have hhas : HasGitmoji title emoji := by
      have hfound := List.find?_some hfound
      rwa [Bool.or_eq_true, beq_iff_eq] at hfound
    refine .inl ⟨emoji, hmem, hhas, ?_⟩
    split
    · next hstarts => exact ⟨_, rfl, endsInPeriod_rest hstrip hstarts⟩
    · next hstarts =>
      rw [hhas.resolve_left hstarts]
      exact ⟨[], rfl, (allowedGitmoji_facts emoji hmem).2.2.symm⟩
  · next hnone =>
    have hno : ∀ emoji ∈ allowedGitmoji, ¬HasGitmoji title emoji := by
      intro emoji hmem hhas
      refine List.find?_eq_none.mp hnone emoji (mem_gitmojiByLength.mpr hmem) ?_
      rw [Bool.or_eq_true, beq_iff_eq]
      exact hhas
    split
    · exact .inr ⟨hno, _, _, rfl, by decide⟩
    · exact .inr ⟨hno, _, _, rfl, by decide⟩

theorem endsInPeriod_iff {t : Text} :
    endsInPeriod t = false ↔ ∀ c ∈ ['.', '。'], t.getLast? ≠ some c := by
  unfold endsInPeriod
  cases t.getLast? with
  | none => simp
  | some c => simp

theorem hasGitmoji_ne_nil {title : Text} {emoji : String} (hmem : emoji ∈ allowedGitmoji)
    (h : HasGitmoji title emoji) : title ≠ [] := by
  obtain ⟨⟨c, rest, hemoji, -⟩, -⟩ := allowedGitmoji_facts emoji hmem
  rintro rfl
  rcases h with h | h
  · unfold startsWith at h
    rw [String.toList_append, hemoji] at h
    cases h
  · rw [hemoji] at h
    cases h

/-- A blank text has a blank title. -/
theorem title_of_blank {text : Text} (h : strip text = []) : strip (firstLine text) = [] := by
  rw [strip_eq_nil_iff] at h ⊢
  rw [List.all_eq_true] at h ⊢
  exact fun c hc => h c (List.takeWhile_subset _ hc)

/-- The messages that are accepted, also those that end in a heading. -/
theorem validateCommitMessage_ok_iff_title (text : Text) :
    (validateCommitMessage text false).ok = true
      ↔ (∃ emoji ∈ allowedGitmoji, HasGitmoji (strip (firstLine text)) emoji)
        ∧ (∀ c ∈ ['.', '。'], (strip (firstLine text)).getLast? ≠ some c)
        ∧ (∀ mdHeader ∈ mdHeaderSections, contains text mdHeader.toList = false)
        ∧ ∀ name ∈ requiredSections, SectionGiven text name ∨ EndsInHeading text name := by
  unfold validateCommitMessage
  by_cases hblank : strip text = []
  · rw [if_pos hblank]
    refine iff_of_false Bool.false_ne_true ?_
    rintro ⟨⟨emoji, hmem, hhas⟩, -⟩
    exact hasGitmoji_ne_nil hmem hhas (title_of_blank hblank)
  · rw [if_neg hblank]
    dsimp only
    have hstrip : strip (strip (firstLine text)) = strip (firstLine text) := Trim.trim_trim _
    rcases stripGitmojiPrefix_spec hstrip with
      ⟨emoji, hmem, hhas, rest, hpair, hperiod⟩ | ⟨hno, gitmoji, rest, hpair, hnot⟩
    · obtain ⟨-, hparty⟩ := not_tada_of_hasGitmoji hmem hhas
      rw [hpair]
      dsimp only
      rw [if_neg Bool.false_ne_true, hparty, Bool.or_false,
        if_neg (by simpa using (allowedGitmoji_facts emoji hmem).2.1),
        if_neg (by simpa using hmem), hperiod]
      by_cases hends : endsInPeriod (strip (firstLine text)) = true
      · rw [if_pos hends]
        refine iff_of_false Bool.false_ne_true fun h => ?_
        rw [endsInPeriod_iff.mpr h.2.1] at hends
        cases hends
      · rw [if_neg hends, validateBodySections_ok_iff,
          and_iff_right (⟨emoji, hmem, hhas⟩ : ∃ emoji ∈ allowedGitmoji, _),
          and_iff_right (endsInPeriod_iff.mp (Bool.not_eq_true _ ▸ hends))]
    · rw [hpair]
      dsimp only
      rw [if_neg Bool.false_ne_true]
      refine iff_of_false ?_ fun ⟨⟨emoji, hmem, hhas⟩, _⟩ => hno emoji hmem hhas
      split
      · exact Bool.false_ne_true
      · rw [if_pos (by simpa using hnot)]
        exact Bool.false_ne_true

/--
**The messages that are accepted** are those of the grammar, the blanks at the ends of the title
aside, when no section has its first heading on the last line of the text.
-/
theorem validateCommitMessage_ok_iff (text : Text)
    (hlast : ∀ name ∈ requiredSections, ¬EndsInHeading text name) :
    (validateCommitMessage text false).ok = true
      ↔ CommitGrammar ['.', '。'] (strip (firstLine text)) text := by
  rw [validateCommitMessage_ok_iff_title]
  constructor
  · rintro ⟨⟨emoji, hmem, hhas⟩, hperiod, hplain, hsections⟩
    exact ⟨⟨emoji, hmem, hhas⟩, not_tada_of_hasGitmoji hmem hhas, hperiod, hplain,
      fun name hname => (hsections name hname).resolve_right (hlast name hname)⟩
  · exact fun h => ⟨h.gitmoji, h.noPeriod, h.plain, fun name hname => .inl (h.sections name hname)⟩

theorem not_endsInHeading {text line : Text} {name : String}
    (hlast : (text.splitOn '\n').getLast? = some line) (hline : ¬IsHeading name line) :
    ¬EndsInHeading text name := by
  rintro ⟨before, line', heq, hheading, -⟩
  rw [heq, List.getLast?_concat] at hlast
  exact hline (Option.some.inj hlast ▸ hheading)

/-- A message with every section. -/
def sampleBody : String :=
  "\n\n변경 이유\n- 오류를 찾았다\n\n주요 변경 사항\n- 검증을 더했다\n\n비고\n- 없음\n"

/-- A message of the grammar. -/
theorem sample_in_grammar :
    CommitGrammar ['.', '。'] (strip (firstLine ("✨ 로그인을 고친다" ++ sampleBody).toList))
      ("✨ 로그인을 고친다" ++ sampleBody).toList :=
  (validateCommitMessage_ok_iff ("✨ 로그인을 고친다" ++ sampleBody).toList fun name hname => by
    have hlast : (("✨ 로그인을 고친다" ++ sampleBody).toList.splitOn '\n').getLast? = some [] := by
      decide +kernel
    exact not_endsInHeading hlast fun h => (name_of_required hname).ne_nil h.symm).mp
      (by decide +kernel)

/-- **A title may have blanks ahead of it**: its first line starts with no gitmoji. -/
theorem blanks_ahead_are_accepted :
    ¬∀ text : Text, (validateCommitMessage text false).ok = true
      ↔ CommitGrammar ['.'] (firstLine text) text := by
  intro h
  have hok : (validateCommitMessage (" ✨ 로그인을 고친다" ++ sampleBody).toList false).ok = true := by
    decide +kernel
  obtain ⟨emoji, hmem, hhas⟩ := ((h _).mp hok).gitmoji
  have hno : (allowedGitmoji.all fun emoji =>
      !(startsWith (firstLine (" ✨ 로그인을 고친다" ++ sampleBody).toList) (emoji ++ " ")
        || firstLine (" ✨ 로그인을 고친다" ++ sampleBody).toList == emoji.toList)) = true := by
    decide +kernel
  have hnot := List.all_eq_true.mp hno emoji hmem
  rw [Bool.not_eq_true', Bool.or_eq_false_iff, beq_eq_false_iff_ne] at hnot
  rcases hhas with hstarts | hsame
  · rw [hnot.1] at hstarts
    cases hstarts
  · exact hnot.2 hsame

end Titles

end ForgeKit
