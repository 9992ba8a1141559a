import ForgeKit.Titles.TitleGuards

/-!
# The title of a planned issue (`issue_quality.py`, `issue_auto_create.py`)

A title is put together from what the request is taken to be for: the phrase of the intent with the
scopes that were found, or else with the first line of the request.

* `defaultIssueTitle_ok_iff` — the requests whose title the guard accepts
-/

namespace ForgeKit

namespace Titles

/-- What the model reads of the Unicode tables. -/
structure Unicode where
  /-- Which characters beyond ASCII belong to a word. -/
  other : Char → Bool
  /-- `str.lower`. -/
  lower : Text → Text

/-- `p in t`. -/
def contains (t p : Text) : Bool := t.tails.any fun u => p.isPrefixOf u

/-! ## What a request is for -/

inductive Intent where
  | fullStackMvp
  | feature
  | docs
  | test
  | refactor
  | bugfix
  | chore
deriving DecidableEq, Repr

/-- `_INTENT_KEYWORDS`. -/
def intentKeywords : List (Intent × List String) :=
  [(.fullStackMvp, ["풀스택", "full-stack", "fullstack", "full stack", "mvp", "monorepo 풀스택",
      "검색 풀스택", "단일 repo 풀스택", "full_stack_single_repo"]),
    (.bugfix, ["버그", "bug fix", "bugfix", "고쳐줘", "회귀", "regression", "수정해줘"]),
    (.refactor, ["리팩터", "리팩토링", "refactor", "재구조화", "rename"]),
    (.docs, ["문서", "docs", "readme", "튜토리얼", "guide"]),
    (.test, ["테스트만", "테스트 추가", "test only", "회귀 테스트", "unit test"]),
    (.feature, ["구현", "기능 추가", "implement", "build the", "add feature", "신규"]),
    (.chore, ["dependency", "deps", "chore", "config", "wiring"])]

/-- `_SCOPE_HINTS`. -/
def scopeHints : List (String × List String) :=
  [("인증", ["회원가입", "로그인", "로그아웃", "auth", "sign up", "sign-in", "session"]),
    ("검색", ["검색", "search", "통합 검색"]),
    ("블로그", ["블로그", "blog", "내부 글"]),
    ("메일", ["메일", "mailbox", "mail", "inbox", "compose"]),
    ("API", ["api ", "rest api", "graphql"]),
    ("UI", ["ui", "frontend", "화면", "레이아웃"]),
    ("DB", ["db ", "schema", "스키마", "데이터베이스"]),
    ("docker", ["docker compose", "docker-compose", "compose"])]

/-- `_DOMAIN_HINTS`. -/
def domainHints : List (String × List String) :=
  [("네이버 검색형", ["네이버", "naver"]), ("Google 검색형", ["google search", "구글 검색"]),
    ("docs/runbook", ["runbook"])]

/-- Some keyword is in the text. -/
def mentions (u : Unicode) (haystack : Text) (keywords : List String) : Bool :=
  keywords.any fun kw => contains haystack (u.lower kw.toList)

/-- `detect_intent`. -/
def detectIntent (u : Unicode) (requestText : Text) : Intent :=
  ((intentKeywords.find? fun hint => mentions u (u.lower requestText) hint.2).map Prod.fst).getD
    .feature

/-- `detect_scopes`, with the default `max_scopes`. -/
def detectScopes (u : Unicode) (requestText : Text) : List String :=
  if requestText = [] then []
  else
    ((scopeHints.filter fun hint => mentions u (u.lower requestText) hint.2).map Prod.fst).take 4

/-- `_detect_domain_label`. -/
def detectDomainLabel (u : Unicode) (requestText : Text) : Option String :=
  (domainHints.find? fun hint => mentions u (u.lower requestText) hint.2).map Prod.fst

/-! ## The title -/

/-- `_INTENT_TITLE_PREFIX`. -/
def Intent.titlePrefix : Intent → String
  | .fullStackMvp => "[기능]"
  | .feature => "[기능]"
  | .docs => "[문서]"
  | .test => "[테스트]"
  | .refactor => "[리팩토링]"
  | .bugfix => "[수정]"
  | .chore => "[설정]"

/-- `_INTENT_TITLE_PHRASE`. -/
def Intent.titlePhrase : Intent → String
  | .fullStackMvp => "풀스택 MVP 구축"
  | .feature => "신규 기능 추가"
  | .docs => "문서 보강"
  | .test => "회귀 테스트 보강"
  | .refactor => "리팩터링"
  | .bugfix => "버그 수정"
  | .chore => "운영 작업"

/-- `_KOREAN_TITLE_MAX`. -/
def koreanTitleMax : ℕ := 110

/-- The characters of `rstrip(",.;:")`. -/
def isPunctuation (c : Char) : Bool := c == ',' || c == '.' || c == ';' || c == ':'

/-- `t.rfind(" ")`; `none` is -1. -/
def rfindSpace : Text → Option ℕ
  | [] => none
  | c :: cs =>
    match rfindSpace cs with
    | some i => some (i + 1)
    | none => if c = ' ' then some 0 else none

/-- `_truncate_title`. -/
def truncateTitle (text : Text) : Text :=
  let text := strip text
  if text.length ≤ koreanTitleMax then text
  else
    let cut := text.take koreanTitleMax
    match rfindSpace cut with
    | some sep =>
      if 60 < sep then (cut.take sep).rdropWhile isPunctuation ++ ['…']
      else cut.rdropWhile isPunctuation ++ ['…']
    | none => cut.rdropWhile isPunctuation ++ ['…']

/-- The characters at which `str.splitlines` breaks a text. -/
def isLineBreak (c : Char) : Bool :=
  let n := c.toNat
  (0x0A ≤ n && n ≤ 0x0D) || (0x1C ≤ n && n ≤ 0x1E) || n == 0x85 || n == 0x2028 || n == 0x2029

/-- `t.splitlines()[0]`, of a text that is not empty. -/
def firstLine (t : Text) : Text := t.takeWhile fun c => !isLineBreak c

/-- The domain that a title names, with the space after it. -/
def domainPart (u : Unicode) (requestText : Text) : Text :=
  match detectDomainLabel u requestText with
  | some domain => (domain ++ " ").toList
  | none => []

/-- The part of a title that names the scopes. -/
def scopePart (scopes : List String) : Text :=
  if scopes = [] then []
  else " (".toList ++ ['/'].intercalate (scopes.map String.toList) ++ [')']

/-- `synthesize_korean_title`, with its `title_strategy`. -/
def synthesizeKoreanTitle (u : Unicode) (requestText : Text) (intent : Intent)
    (scopes : List String) (fallbackSummary : Text) : Text × String :=
  let start := (intent.titlePrefix ++ " ").toList
  let phrase := intent.titlePhrase.toList
  if intent = .fullStackMvp then
    (truncateTitle (strip (start ++ domainPart u requestText ++ phrase ++ scopePart scopes)),
      "intent_template")
  else if scopes ≠ [] then
    (truncateTitle (start ++ phrase ++ scopePart scopes), "intent_template")
  else
    let line := strip (firstLine (strip fallbackSummary))
    if strip fallbackSummary ≠ [] ∧ line ≠ [] then
      (truncateTitle (start ++ phrase ++ " — ".toList ++ line), "intent_fallback_summary")
    else (truncateTitle (start ++ phrase), "raw_summary_truncated")

/-- The title of the plan of `build_default_issue_body`, without `title_override`. -/
def defaultIssueTitle (u : Unicode) (requestSummary : Text) : Text :=
  let summary := strip requestSummary
  (synthesizeKoreanTitle u summary (detectIntent u summary) (detectScopes u summary) summary).1

/-! ## Titles made of fixed texts -/

variable {u : Unicode}

theorem titlePrefix_mem (intent : Intent) : intent.titlePrefix ∈ allowedTitlePrefixes := by
  cases intent <;> decide

/-- A character that no token and no pattern can do without is missing. -/
def isPlain (c : Char) : Bool :=
  TextSearch.foldCase c ≠ '_' && TextSearch.foldCase c ≠ 'f' && TextSearch.foldCase c ≠ 'n'
    && TextSearch.foldCase c ≠ 'g'

/-- Plain characters do not complete a token or a pattern. -/
theorem isTainted_of_plain {other : Char → Bool} {domain t : Text}
    (hunderscore : '_' ∉ domain.map TextSearch.foldCase) (hf : 'f' ∉ domain.map TextSearch.foldCase)
    (hng : 'n' ∉ domain.map TextSearch.foldCase ∨ 'g' ∉ domain.map TextSearch.foldCase)
    (h : ∀ c ∈ t, isPlain c = true ∨ c ∈ domain) : isTainted other t = false := by
  have hnot : ∀ w : Char, (∀ c, isPlain c = true → TextSearch.foldCase c ≠ w) →
      w ∉ domain.map TextSearch.foldCase → w ∉ t.map TextSearch.foldCase := by
    intro w hplain hw hmem
    obtain ⟨c, hc, hfold⟩ := List.mem_map.mp hmem
    rcases h c hc with hc | hc
    · exact hplain c hc hfold
    · exact hw (hfold ▸ List.mem_map_of_mem hc)
  have hplain : ∀ {c}, isPlain c = true → TextSearch.foldCase c ≠ '_' ∧ TextSearch.foldCase c ≠ 'f'
      ∧ TextSearch.foldCase c ≠ 'n' ∧ TextSearch.foldCase c ≠ 'g' := by
    intro c hc
    simpa [isPlain, and_assoc] using hc
  refine isTainted_eq_false (hnot '_' (fun c hc => (hplain hc).1) hunderscore)
    (hnot 'f' (fun c hc => (hplain hc).2.1) hf) ?_
  exact hng.imp (hnot 'n' fun c hc => (hplain hc).2.2.1) (hnot 'g' fun c hc => (hplain hc).2.2.2)

theorem domainHints_facts : ∀ hint ∈ domainHints,
    '_' ∉ (hint.1 ++ " ").toList.map TextSearch.foldCase
      ∧ 'f' ∉ (hint.1 ++ " ").toList.map TextSearch.foldCase
      ∧ ('n' ∉ (hint.1 ++ " ").toList.map TextSearch.foldCase
        ∨ 'g' ∉ (hint.1 ++ " ").toList.map TextSearch.foldCase)
      ∧ (hint.1 ++ " ").toList.length ≤ 14 := by
  decide

theorem domainPart_facts (requestText : Text) :
    '_' ∉ (domainPart u requestText).map TextSearch.foldCase
      ∧ 'f' ∉ (domainPart u requestText).map TextSearch.foldCase
      ∧ ('n' ∉ (domainPart u requestText).map TextSearch.foldCase
        ∨ 'g' ∉ (domainPart u requestText).map TextSearch.foldCase)
      ∧ (domainPart u requestText).length ≤ 14 := by
  unfold domainPart detectDomainLabel
  cases hfind : domainHints.find? fun hint => mentions u (u.lower requestText) hint.2 with
  | none => simp
  | some hint => exact domainHints_facts hint (List.mem_of_find?_eq_some hfind)

theorem scopeHints_facts : ∀ hint ∈ scopeHints,
    hint.1.toList.all isPlain = true ∧ hint.1.toList.length ≤ 6 := by
  decide

theorem mem_detectScopes {requestText : Text} {scope : String}
    (h : scope ∈ detectScopes u requestText) :
    scope.toList.all isPlain = true ∧ scope.toList.length ≤ 6 := by
  unfold detectScopes at h
  split at h
  · cases h
  · obtain ⟨hint, hhint, rfl⟩ := List.mem_map.mp (List.mem_of_mem_take h)
    exact scopeHints_facts hint (List.mem_filter.mp hhint).1

theorem length_detectScopes (requestText : Text) : (detectScopes u requestText).length ≤ 4 := by
  unfold detectScopes
  split
  · exact Nat.zero_le 4
  · exact List.length_take_le _ _

/-- The scopes with a stroke between them. -/
theorem intercalate_facts (words : List Text) {n : ℕ}
    (h : ∀ w ∈ words, w.all isPlain = true ∧ w.length ≤ n) :
    (['/'].intercalate words).all isPlain = true
      ∧ (['/'].intercalate words).length ≤ words.length * (n + 1) := by
  induction words with
  | nil => exact ⟨rfl, Nat.zero_le _⟩
  | cons w words ih =>
    obtain ⟨hplain, hlen⟩ := h w List.mem_cons_self
    obtain ⟨ihplain, ihlen⟩ := ih fun w' hw' => h w' (List.mem_cons_of_mem w hw')
    cases words with
    | nil =>
      rw [List.intercalate_singleton]
      exact ⟨hplain, by simp only [List.length_cons, List.length_nil]; omega⟩
    | cons w' words =>
      rw [List.intercalate_cons_cons]
      refine ⟨?_, ?_⟩
      · rw [List.all_append, List.all_append, hplain, ihplain]
        rfl
      · simp only [List.length_append, List.length_cons, List.length_nil] at ihlen ⊢
        calc w.length + 1 + (['/'].intercalate (w' :: words)).length
            ≤ (n + 1) + (words.length + 1) * (n + 1) := by omega
          _ = (words.length + 1 + 1) * (n + 1) := by
            rw [Nat.add_mul (words.length + 1) 1, Nat.one_mul, Nat.add_comm]

theorem scopePart_facts (requestText : Text) :
    (scopePart (detectScopes u requestText)).all isPlain = true
      ∧ (scopePart (detectScopes u requestText)).length ≤ 31 := by
  unfold scopePart
  split
  · exact ⟨rfl, Nat.zero_le _⟩
  · obtain ⟨hplain, hlen⟩ := intercalate_facts (n := 6)
      ((detectScopes u requestText).map String.toList) fun w hw => by
        obtain ⟨scope, hscope, rfl⟩ := List.mem_map.mp hw
        exact mem_detectScopes hscope
    have hfour := length_detectScopes (u := u) requestText
    rw [List.length_map] at hlen
    refine ⟨?_, ?_⟩
    · rw [List.all_append, List.all_append, hplain]
      decide
    · have hopen : " (".toList.length = 2 := by decide
      simp only [List.length_append, hopen, List.length_cons, List.length_nil]
      omega

/-! ## The cut of a long title -/

theorem rfindSpace_append (a b : Text) :
    rfindSpace (a ++ b) = match rfindSpace b with
      | some i => some (a.length + i)
      | none => rfindSpace a := by
  induction a with
  | nil => cases h : rfindSpace b <;> simp [h, rfindSpace]
  | cons c a ih =>
    rw [List.cons_append, rfindSpace, ih]
    cases rfindSpace b with
    | none => rfl
    | some i =>
      show some (a.length + i + 1) = some (a.length + 1 + i)
      rw [Nat.add_right_comm]

theorem rfindSpace_lt {a : Text} {i : ℕ} (h : rfindSpace a = some i) : i < a.length := by
  induction a generalizing i with
  | nil => cases h
  | cons c a ih =>
    rw [rfindSpace] at h
    cases hrest : rfindSpace a with
    | some j =>
      rw [hrest] at h
      obtain rfl := Option.some.inj h
      exact Nat.succ_lt_succ (ih hrest)
    | none =>
      rw [hrest] at h
      by_cases hc : c = ' '
      · rw [if_pos hc] at h
        obtain rfl := Option.some.inj h
        exact Nat.succ_pos _
      · rw [if_neg hc] at h
        cases h

/-- How much of a line is shown behind a header of `n` characters. -/
def shownLine (n : ℕ) (line : Text) : Text :=
  if n + line.length ≤ koreanTitleMax then line
  else
    let cut := line.take (koreanTitleMax - n)
    match rfindSpace cut with
    | some i =>
      if 60 < n + i then (cut.take i).rdropWhile isPunctuation ++ ['…']
      else cut.rdropWhile isPunctuation ++ ['…']
    | none => cut.rdropWhile isPunctuation ++ ['…']

/-- A short header that ends in a space is not cut. -/
theorem truncateTitle_header {header line : Text} (hlast : header.getLast? = some ' ')
    (hlen : header.length ≤ 60) (hstrip : strip (header ++ line) = header ++ line) :
    truncateTitle (header ++ line) = header ++ shownLine header.length line := by
  have hpunct : ∀ t, (header ++ t).rdropWhile isPunctuation = header ++ t.rdropWhile isPunctuation :=
    Trim.rdropWhile_append hlast (by decide)
  unfold truncateTitle shownLine
  rw [hstrip]
  dsimp only
  rw [List.length_append]
  by_cases hfits : header.length + line.length ≤ koreanTitleMax
  · rw [if_pos hfits, if_pos hfits]
  · have htake : (header ++ line).take koreanTitleMax
        = header ++ line.take (koreanTitleMax - header.length) := by
      rw [List.take_append, List.take_of_length_le (hlen.trans (by decide))]
    rw [if_neg hfits, if_neg hfits, htake, rfindSpace_append]
    cases hfind : rfindSpace (line.take (koreanTitleMax - header.length)) with
    | some i =>
      dsimp only
      by_cases hfar : 60 < header.length + i
      · rw [if_pos hfar, if_pos hfar, List.take_length_add_append, hpunct, List.append_assoc]
      · rw [if_neg hfar, if_neg hfar, hpunct, List.append_assoc]
    | none =>
      dsimp only
      cases hhead : rfindSpace header with
      | none =>
        dsimp only
        rw [hpunct, List.append_assoc]
      | some i =>
        have hnear : ¬60 < i := by
          have hlt := rfindSpace_lt hhead
          omega
        dsimp only
        rw [if_neg hnear, hpunct, List.append_assoc]

/-! ## Requests whose title is accepted -/

theorem koreanChars_rstrip (t : Text) : koreanChars (rstrip t) = koreanChars t := by
  have hspace : ∀ c, PyText.isSpace c = true → isHangul c = false := by
    intro c hc
    unfold PyText.isSpace at hc
    unfold isHangul
    simp only [Bool.or_eq_true, Bool.and_eq_true, decide_eq_true_eq, beq_iff_eq] at hc
    rw [Bool.and_eq_false_iff, decide_eq_false_iff_not]
    exact .inl (by omega)
  unfold koreanChars rstrip
  induction t using List.reverseRecOn with
  | nil => rfl
  | append_singleton t c ih =>
    by_cases hc : PyText.isSpace c = true
    · rw [List.rdropWhile_concat_pos _ _ _ hc, ih, List.countP_append, List.countP_singleton,
        hspace c hc]
      rfl
    · rw [List.rdropWhile_concat_neg _ _ _ hc]

theorem phrase_facts (intent : Intent) : intent.titlePhrase.toList.all isPlain = true
    ∧ intent.titlePhrase.toList.length ≤ 10
    ∧ 4 ≤ koreanChars intent.titlePrefix.toList + koreanChars intent.titlePhrase.toList
    ∧ intent.titlePrefix.toList.length ≤ 6 := by
  cases intent <;> decide

/-- A title of fixed texts is accepted: the domain, the phrase of the intent and the scopes. -/
theorem fixed_ok {intent : Intent} {domain scopes : Text}
    (hunderscore : '_' ∉ domain.map TextSearch.foldCase) (hf : 'f' ∉ domain.map TextSearch.foldCase)
    (hng : 'n' ∉ domain.map TextSearch.foldCase ∨ 'g' ∉ domain.map TextSearch.foldCase)
    (hdomain : domain.length ≤ 14) (hscopes : scopes.all isPlain = true) (hlen : scopes.length ≤ 31)
    {title : Text}
    (htitle : title = (intent.titlePrefix ++ " ").toList ++ domain ++ intent.titlePhrase.toList
      ++ scopes) :
    (validateIssueTitle u.other (truncateTitle title)).ok = true
      ∧ (validateIssueTitle u.other (truncateTitle (strip title))).ok = true := by
  obtain ⟨hphrase, hphraseLen, hmany, hprefixLen⟩ := phrase_facts intent
  have hprefix := titlePrefix_mem intent
  let rest : Text := [' '] ++ domain ++ intent.titlePhrase.toList ++ scopes
  have hrest : title = intent.titlePrefix.toList ++ rest := by
    rw [htitle, String.toList_append]
    simp only [rest, List.append_assoc]
    rfl
  have hrestLen : rest.length ≤ 56 := by
    simp only [rest, List.length_append, List.length_cons, List.length_nil]
    omega
  have hsub : (rstrip rest).length ≤ rest.length := (List.rdropWhile_prefix _ rest).length_le
  have hstrip : strip title = intent.titlePrefix.toList ++ rstrip rest := by
    rw [hrest]
    exact strip_prefix hprefix rest
  have hplainAll : ∀ c ∈ rstrip rest, isPlain c = true ∨ c ∈ domain := by
    intro c hc
    have hc := (List.rdropWhile_prefix _ rest).subset hc
    simp only [rest, List.mem_append, List.mem_singleton] at hc
    rcases hc with ((rfl | hc) | hc) | hc
    · exact .inl (by decide)
    · exact .inr hc
    · exact .inl (List.all_eq_true.mp hphrase c hc)
    · exact .inl (List.all_eq_true.mp hscopes c hc)
  have hkorean : koreanChars intent.titlePhrase.toList ≤ koreanChars (rstrip rest) := by
    rw [koreanChars_rstrip]
    simp only [rest, koreanChars, List.countP_append]
    omega
  have hcut : ∀ t, strip t = intent.titlePrefix.toList ++ rstrip rest →
      truncateTitle t = intent.titlePrefix.toList ++ rstrip rest := by
    intro t ht
    unfold truncateTitle
    rw [ht]
    refine if_pos ?_
    rw [List.length_append]
    exact le_trans (by omega) (show 62 ≤ koreanTitleMax by decide)
  have hok : (validateIssueTitle u.other (intent.titlePrefix.toList ++ rstrip rest)).ok = true := by
    refine (validate_prefix_ok_iff hprefix _).mpr ?_
    have hidem : rstrip (rstrip rest) = rstrip rest := List.rdropWhile_idempotent _ _
    rw [hidem]
    exact ⟨by omega, isTainted_of_plain hunderscore hf hng hplainAll, by omega⟩
  refine ⟨by rw [hcut title hstrip]; exact hok, ?_⟩
  rw [hcut (strip title) ?_]
  · exact hok
  · exact (Trim.trim_trim title).trans hstrip

/-- What stands before the first line of a request in a title. -/
def titleHeader (intent : Intent) : Text :=
  (intent.titlePrefix ++ " ").toList ++ intent.titlePhrase.toList ++ " — ".toList

theorem header_facts {intent : Intent} (h : intent ≠ .fullStackMvp) :
    isInert (" ".toList ++ intent.titlePhrase.toList ++ " — ".toList) = true
      ∧ (titleHeader intent).length ≤ 60 ∧ (titleHeader intent).getLast? = some ' ' := by
  cases intent <;> first | exact absurd rfl h | decide

theorem shownLine_last {n : ℕ} {line : Text} (hne : line ≠ [])
    (hline : ∀ c, line.getLast? = some c → PyText.isSpace c = false) :
    ∃ c, (shownLine n line).getLast? = some c ∧ PyText.isSpace c = false := by
  have hdots : ∀ t : Text, ∃ c, (t ++ ['…']).getLast? = some c ∧ PyText.isSpace c = false :=
    fun t => ⟨'…', List.getLast?_concat, by decide⟩
  unfold shownLine
  split
  · exact ⟨line.getLast hne, List.getLast?_eq_some_getLast hne,
      hline _ (List.getLast?_eq_some_getLast hne)⟩
  · dsimp only
    split
    · split
      · exact hdots _
      · exact hdots _
    · exact hdots _

/-- A title that shows a line behind its header. -/
theorem header_ok_iff {intent : Intent} (hintent : intent ≠ .fullStackMvp) {line : Text}
    (hne : line ≠ []) (hline : ∀ c, line.getLast? = some c → PyText.isSpace c = false) :
    (validateIssueTitle u.other (truncateTitle (titleHeader intent ++ line))).ok = true
      ↔ (titleHeader intent).length + (shownLine (titleHeader intent).length line).length ≤ 100
        ∧ isTainted u.other (shownLine (titleHeader intent).length line) = false := by
  obtain ⟨hinert, hlen, hlast⟩ := header_facts hintent
  obtain ⟨-, -, hmany, -⟩ := phrase_facts intent
  have hprefix := titlePrefix_mem intent
  obtain ⟨middle, hmiddle⟩ : ∃ t : Text, t = " ".toList ++ intent.titlePhrase.toList
      ++ " — ".toList := ⟨_, rfl⟩
  rw [← hmiddle] at hinert
  have hheader : titleHeader intent = intent.titlePrefix.toList ++ middle := by
    unfold titleHeader
    rw [String.toList_append, hmiddle]
    simp only [List.append_assoc]
  -- what ends in a visible character is not shortened
  have hkeep : ∀ t : Text, (∃ c, t.getLast? = some c ∧ PyText.isSpace c = false) →
      rstrip (middle ++ t) = middle ++ t := by
    rintro t ⟨c, hc, hspace⟩
    refine Trim.rdropWhile_eq_self (a := c) ?_ hspace
    rw [List.getLast?_append, hc]
    rfl
  have hstrip : strip (titleHeader intent ++ line) = titleHeader intent ++ line := by
    rw [hheader, List.append_assoc, strip_prefix hprefix, hkeep line]
    exact ⟨line.getLast hne, List.getLast?_eq_some_getLast hne,
      hline _ (List.getLast?_eq_some_getLast hne)⟩
  rw [truncateTitle_header hlast hlen hstrip]
  generalize hshown : shownLine (titleHeader intent).length line = shown
  have hshownLast := shownLine_last (n := (titleHeader intent).length) hne hline
  rw [hshown] at hshownLast
  rw [hheader, List.append_assoc]
  refine (validate_prefix_ok_iff hprefix _).trans ?_
  rw [hkeep shown hshownLast, isTainted_append (inert_of_isInert hinert), List.length_append,
    List.length_append, Nat.add_assoc]
  have hkorean : 4 ≤ koreanChars intent.titlePrefix.toList + koreanChars (middle ++ shown) := by
    simp only [hmiddle, koreanChars, List.countP_append] at hmany ⊢
    omega
  exact ⟨fun h => ⟨h.1, h.2.1⟩, fun h => ⟨h.1, h.2, hkorean⟩⟩

/--
**The requests whose title is accepted.** A request that is a full-stack one, or in which a scope is
found, or that is blank, gets a title of fixed texts. Otherwise the title shows the first line of the
request, as much of it as is left after the cut: it must leave the title at 100 characters at most,
and hold no mode token and no machine pattern.
-/
theorem defaultIssueTitle_ok_iff (u : Unicode) (request : Text) :
    (validateIssueTitle u.other (defaultIssueTitle u request)).ok = true
      ↔ detectIntent u (strip request) = .fullStackMvp ∨ detectScopes u (strip request) ≠ []
        ∨ strip (firstLine (strip request)) = []
        ∨ (titleHeader (detectIntent u (strip request))).length
              + (shownLine (titleHeader (detectIntent u (strip request))).length
                (strip (firstLine (strip request)))).length ≤ 100
            ∧ isTainted u.other (shownLine (titleHeader (detectIntent u (strip request))).length
              (strip (firstLine (strip request)))) = false := by
  have hidem : strip (strip request) = strip request := Trim.trim_trim request
  unfold defaultIssueTitle
  dsimp only
  generalize strip request = summary at hidem ⊢
  generalize hintent : detectIntent u summary = intent
  unfold synthesizeKoreanTitle
  dsimp only
  rw [hidem]
  obtain ⟨hsUnder, hsLen⟩ := scopePart_facts (u := u) summary
  by_cases hfull : intent = .fullStackMvp
  · rw [if_pos hfull]
    obtain ⟨hunderscore, hf, hng, hlen⟩ := domainPart_facts (u := u) summary
    refine iff_of_true ?_ (.inl hfull)
    dsimp only
    exact (fixed_ok hunderscore hf hng hlen hsUnder hsLen rfl).2
  · rw [if_neg hfull]
    by_cases hscopes : detectScopes u summary ≠ []
    · rw [if_pos hscopes]
      refine iff_of_true ?_ (.inr (.inl hscopes))
      dsimp only
      exact (fixed_ok (by simp) (by simp) (.inl (by simp)) (by simp) hsUnder hsLen
        (congrArg (· ++ _ ++ _) (List.append_nil _).symm)).1
    · rw [if_neg hscopes]
      by_cases hline : strip (firstLine summary) = []
      · rw [if_neg fun h => h.2 hline]
        refine iff_of_true ?_ (.inr (.inr (.inl hline)))
        have htitle : (intent.titlePrefix ++ " ").toList ++ intent.titlePhrase.toList
            = (intent.titlePrefix ++ " ").toList ++ [] ++ intent.titlePhrase.toList ++ [] := by
          rw [List.append_nil, List.append_nil]
        dsimp only
        exact (fixed_ok (by simp) (by simp) (.inl (by simp)) (by simp) rfl (by simp) htitle).1
      · have hsummary : summary ≠ [] := by
          rintro rfl
          exact hline (by decide)
        rw [if_pos ⟨hsummary, hline⟩]
        simp only [hfull, hscopes, hline, false_or]
        exact header_ok_iff hfull hline fun c => Trim.not_of_getLast?_trim

end Titles

end ForgeKit
