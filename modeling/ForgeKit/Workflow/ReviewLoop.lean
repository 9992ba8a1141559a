import ForgeKit.Release.AutoMerge
import ForgeKit.Workflow.Sessions

/-!
# Review feedback (`review_loop.py`)

Feedback of a review is routed to a role and kept in the session as a JSON record, beside its
routing. The reply is written from the record.

* `routeReviewFeedback` — the role that answers
* `feedbackFromRecord_sorted`, `routingFromRecord_sorted` — the record gives both back
-/

namespace ForgeKit.Workflow

open Py (Text lit)
open IsoTime (DateTime)
open JsonText
open Release (strInt)

/-! ## Feedback -/

/-- `ReviewSource`. -/
inductive ReviewSource where
  | githubPrReview
  | githubCopilot
  | externalAgent
  | user
deriving DecidableEq

/-- `ReviewSource.value`. -/
def ReviewSource.value : ReviewSource → Text
  | githubPrReview => lit "github_pr_review"
  | githubCopilot => lit "github_copilot"
  | externalAgent => lit "external_agent"
  | user => lit "user"

/-- `ReviewSource(t)`. -/
def ReviewSource.ofValue (t : Text) : Option ReviewSource :=
  [githubPrReview, githubCopilot, externalAgent, user].find? fun s => s.value = t

theorem ReviewSource.ofValue_value (s : ReviewSource) : ofValue s.value = some s := by
  cases s <;> decide

theorem ReviewSource.value_ne_nil (s : ReviewSource) : s.value ≠ [] := by
  cases s <;> decide

/-- `ReviewSeverity`. -/
inductive ReviewSeverity where
  | blocking
  | high
  | medium
  | low
  | nit
deriving DecidableEq

/-- `ReviewSeverity.value`. -/
def ReviewSeverity.value : ReviewSeverity → Text
  | blocking => lit "blocking"
  | high => lit "high"
  | medium => lit "medium"
  | low => lit "low"
  | nit => lit "nit"

/-- `ReviewSeverity(t)`. -/
def ReviewSeverity.ofValue (t : Text) : Option ReviewSeverity :=
  [blocking, high, medium, low, nit].find? fun s => s.value = t

theorem ReviewSeverity.ofValue_value (s : ReviewSeverity) : ofValue s.value = some s := by
  cases s <;> decide

theorem ReviewSeverity.value_ne_nil (s : ReviewSeverity) : s.value ≠ [] := by
  cases s <;> decide

/-- `ReviewFeedback`. -/
structure ReviewFeedback where
  feedbackId : Text
  source : ReviewSource
  submittedAt : DateTime
  summary : Text
  body : Text := []
  targetSessionId : Option Text := none
  targetPrUrl : Option Text := none
  targetIssueUrl : Option Text := none
  targetThreadId : Option Int := none
  filePaths : List Text := []
  severity : ReviewSeverity := .medium
  categories : List Text := []
  referencesUser : List Text := []
  author : Option Text := none

/-- `review_loop.to_payload`. -/
def ReviewFeedback.toPayload (f : ReviewFeedback) : JsonDict where
  members :=
    [(lit "feedback_id", .str f.feedbackId), (lit "source", .str f.source.value),
      (lit "submitted_at", .str f.submittedAt.isoformat), (lit "summary", .str f.summary),
      (lit "body", .str f.body), (lit "target_session_id", ofText? f.targetSessionId),
      (lit "target_pr_url", ofText? f.targetPrUrl),
      (lit "target_issue_url", ofText? f.targetIssueUrl),
      (lit "target_thread_id", ofInt? f.targetThreadId), (lit "file_paths", ofTexts f.filePaths),
      (lit "severity", .str f.severity.value), (lit "categories", ofTexts f.categories),
      (lit "references_user", ofTexts f.referencesUser), (lit "author", ofText? f.author)]
  valid := ⟨by simp only [List.map_cons, List.map_nil]; decide, trivial, trivial, trivial, trivial,
    trivial, valid_ofText? _, valid_ofText? _, valid_ofText? _, valid_ofInt? _, valid_ofTexts _,
    trivial, valid_ofTexts _, valid_ofTexts _, valid_ofText? _, trivial⟩

/-! ## Routing -/

/-- `ReviewRouting`. -/
structure ReviewRouting where
  feedbackId : Text
  primaryRole : Text
  supportingRoles : List Text
  reasons : List Text
  referenceNeeded : Bool
  referenceSources : List Text
  referenceGaps : List Text
deriving DecidableEq

def reviewCategoryDesign : List Text :=
  ["ui", "ux", "layout", "copy", "branding", "design", "visual"].map lit

def reviewCategoryQa : List Text := ["test", "coverage", "qa", "regression", "edge-case"].map lit

def reviewCategoryArchitecture : List Text :=
  ["architecture", "system", "scalability", "refactor", "design-system"].map lit

def reviewCategoryBackend : List Text :=
  ["backend", "api", "data", "model", "auth", "migration", "server"].map lit

def reviewCategoryFrontend : List Text :=
  ["frontend", "component", "page", "interaction", "client", "react"].map lit

/-- The keywords of a gap, what it is called, and where references for it are. -/
structure ReferenceGap where
  keywords : List Text
  gap : Text
  sources : List Text

def referenceSourcesVisual : List Text :=
  ["Awwwards", "Behance", "Notefolio", "Pinterest Trends"].map lit

/-- The four gaps, in the order in which `_detect_reference_gaps` asks for them. -/
def referenceGapRules : List ReferenceGap :=
  [{ keywords := ["flow", "흐름", "단계", "navigation"].map lit
     gap := lit "UX 플로우"
     sources := ["Mobbin", "Page Flows"].map lit },
   { keywords := ["copy", "카피", "문구", "메시지", "tone", "헤드라인", "후크"].map lit
     gap := lit "카피 훅"
     sources := ["Really Good Emails", "Page Flows"].map lit },
   { keywords := ["visual", "비주얼", "디자인", "color", "typography", "스타일"].map lit
     gap := lit "비주얼 완성도"
     sources := referenceSourcesVisual },
   { keywords := ["conversion", "설득력", "cta", "광고", "ad", "캠페인"].map lit
     gap := lit "설득력"
     sources := ["Meta Ad Library", "TikTok Creative Center", "Google Trends"].map lit }]

/-- `_matches`. -/
def matchesAny (haystack : Text) (keywords : List Text) : Bool := keywords.any (Py.contains haystack)

/-- The first of each, in order: `if x not in seen: seen.append(x)`. -/
def unique (ts : List Text) : List Text :=
  ts.foldl (fun seen t => if seen.contains t then seen else seen ++ [t]) []

/-- `_detect_reference_gaps`. -/
def detectReferenceGaps (haystack : Text) : List Text × List Text :=
  let found := referenceGapRules.filter fun rule => matchesAny haystack rule.keywords
  (found.map ReferenceGap.gap, unique (found.flatMap ReferenceGap.sources))

/-- `" ".join(ts)`. -/
def joinSpace (ts : List Text) : Text := (lit " ").intercalate ts

/-- The role, the reason and the supporting roles. -/
def routeRole (f : ReviewFeedback) (haystack paths : Text) : Text × Text × List Text :=
  if matchesAny haystack reviewCategoryArchitecture
      && (f.severity = .blocking || f.severity = .high) then
    (lit "tech-lead", lit "architecture/system level concern",
      ["backend-engineer", "frontend-engineer"].map lit)
  else if matchesAny haystack reviewCategoryDesign then
    (lit "product-designer", lit "design/copy/UX feedback", [lit "frontend-engineer"])
  else if matchesAny haystack reviewCategoryQa then
    (lit "qa-engineer", lit "test/coverage gap", ["backend-engineer", "frontend-engineer"].map lit)
  else if matchesAny haystack reviewCategoryBackend
      || matchesAny paths (reviewCategoryBackend ++ ["/api/", "service", "controller"].map lit) then
    (lit "backend-engineer", lit "backend/data/api signal", [lit "qa-engineer"])
  else if matchesAny haystack reviewCategoryFrontend
      || matchesAny paths (reviewCategoryFrontend ++ ["css", "tsx", "jsx", "html"].map lit) then
    (lit "frontend-engineer", lit "frontend/component signal",
      ["product-designer", "qa-engineer"].map lit)
  else (lit "tech-lead", lit "ambiguous feedback — tech-lead triage", [])

/-- `route_review_feedback`. -/
def routeReviewFeedback (f : ReviewFeedback) : ReviewRouting :=
  let haystack := Py.lower (joinSpace (f.summary :: f.body :: f.categories))
  let paths := Py.lower (joinSpace f.filePaths)
  let route := routeRole f haystack paths
  let gaps := detectReferenceGaps haystack
  let referenceNeeded := gaps.1 ≠ [] || matchesAny haystack reviewCategoryDesign
  { feedbackId := f.feedbackId
    primaryRole := route.1
    supportingRoles := route.2.2
    reasons := route.2.1 ::
      if f.severity = .nit && route.1 ≠ lit "tech-lead" then [lit "nit severity — fix optional"]
      else []
    referenceNeeded
    referenceSources := if referenceNeeded && gaps.2 = [] then referenceSourcesVisual else gaps.2
    referenceGaps := gaps.1 }

/-! ## The record in the session -/

/-- The `routing` of a record. -/
def ReviewRouting.toDict (r : ReviewRouting) : JsonDict where
  members :=
    [(lit "primary_role", .str r.primaryRole), (lit "supporting_roles", ofTexts r.supportingRoles),
      (lit "reasons", ofTexts r.reasons), (lit "reference_needed", .bool r.referenceNeeded),
      (lit "reference_sources", ofTexts r.referenceSources),
      (lit "reference_gaps", ofTexts r.referenceGaps)]
  valid := ⟨by simp only [List.map_cons, List.map_nil]; decide, trivial, valid_ofTexts _,
    valid_ofTexts _, trivial, valid_ofTexts _, valid_ofTexts _, trivial⟩

/-- `feedback_record`: the payload, with the routing. -/
def feedbackRecord (f : ReviewFeedback) (r : ReviewRouting) : JsonDict :=
  f.toPayload.set (lit "routing") r.toDict.document

section Reading

variable (py : Readers) (payload : JsonDict)

/-- `tuple(str(item) for item in payload.get(k) or ())`. -/
def textsOr (k : Text) : Option (List Text) :=
  if py.truthy (get payload.members k) then (items (get payload.members k)).map (·.map py.strOf)
  else some []

/-- `review_loop.from_payload`; `none` is an exception. -/
def feedbackFromPayload : Option ReviewFeedback := do
  let feedbackId ← strAt py.toConversions payload.members (lit "feedback_id")
  let source ← ReviewSource.ofValue (strOr py.toConversions payload.members (lit "source") (lit "user"))
  let submittedAt ← timeAt py payload (lit "submitted_at")
  let filePaths ← textsOr py payload (lit "file_paths")
  let severity ← ReviewSeverity.ofValue
    (strOr py.toConversions payload.members (lit "severity") (lit "medium"))
  let categories ← textsOr py payload (lit "categories")
  let referencesUser ← textsOr py payload (lit "references_user")
  some
    { feedbackId
      source
      submittedAt
      summary := strOr py.toConversions payload.members (lit "summary") []
      body := strOr py.toConversions payload.members (lit "body") []
      targetSessionId := optionalStr py payload (lit "target_session_id")
      targetPrUrl := optionalStr py payload (lit "target_pr_url")
      targetIssueUrl := optionalStr py payload (lit "target_issue_url")
      targetThreadId := optionalInt py payload (lit "target_thread_id")
      filePaths
      severity
      categories
      referencesUser
      author := optionalStr py payload (lit "author") }

end Reading

/-- `_feedback_from_record`. -/
def feedbackFromRecord (py : Readers) (record : JsonDict) : Option ReviewFeedback :=
  feedbackFromPayload py (record.without (lit "routing"))

/-- `_routing_from_record`; `none` is an exception. -/
def routingFromRecord (py : Readers) (record : JsonDict) (fallback : ReviewFeedback) :
    Option ReviewRouting :=
  match (record.get? (lit "routing")).bind Document.dict? with
  | none => some (routeReviewFeedback fallback)
  | some data => do
    let supportingRoles ← textsOr py data (lit "supporting_roles")
    let reasons ← textsOr py data (lit "reasons")
    let referenceSources ← textsOr py data (lit "reference_sources")
    let referenceGaps ← textsOr py data (lit "reference_gaps")
    some
      { feedbackId := fallback.feedbackId
        primaryRole := strOr py.toConversions data.members (lit "primary_role") (lit "tech-lead")
        supportingRoles
        reasons
        referenceNeeded := boolOrFalse py.toConversions data.members (lit "reference_needed")
        referenceSources
        referenceGaps }

/-! ## The record gives both back -/

/-- Feedback in the form in which its record gives it back. -/
def ReviewFeedback.stored (f : ReviewFeedback) : ReviewFeedback :=
  { f with
    targetSessionId := f.targetSessionId.bind stripped?
    targetPrUrl := f.targetPrUrl.bind stripped?
    targetIssueUrl := f.targetIssueUrl.bind stripped?
    author := f.author.bind stripped? }

theorem textsOr_sorted (py : Readers) {d : JsonDict} {k : Text} {l : List Text}
    (h : d.members.lookup k = some (ofTexts l)) : textsOr py d.sorted k = some l := by
  rw [textsOr, get_sorted h, sortKeys_ofTexts]
  show (if !(l.map Value.str).isEmpty then some ((l.map Value.str).map py.strOf) else some []) = some l
  rw [List.map_map]
  cases l with
  | nil => rfl
  | cons t l => exact congrArg some (List.map_id' (t :: l))

theorem routing_notMem (f : ReviewFeedback) :
    lit "routing" ∉ f.toPayload.members.map Prod.fst := by
  simp only [ReviewFeedback.toPayload, List.map_cons, List.map_nil]
  decide

/-- **The record gives the feedback back**, its optional texts stripped. -/
theorem feedbackFromRecord_sorted (py : Readers) (f : ReviewFeedback) (r : ReviewRouting) :
    feedbackFromRecord py (feedbackRecord f r).sorted = some f.stored := by
  rw [feedbackFromRecord, feedbackRecord, JsonDict.without_sorted_set (routing_notMem f),
    feedbackFromPayload, strAt_sorted (t := f.feedbackId) py.toConversions rfl,
    strOr_sorted (t := f.source.value) py.toConversions rfl, if_neg f.source.value_ne_nil,
    ReviewSource.ofValue_value, timeAt_sorted (t := f.submittedAt) py rfl,
    textsOr_sorted (l := f.filePaths) py rfl,
    strOr_sorted (t := f.severity.value) py.toConversions rfl, if_neg f.severity.value_ne_nil,
    ReviewSeverity.ofValue_value, textsOr_sorted (l := f.categories) py rfl,
    textsOr_sorted (l := f.referencesUser) py rfl,
    strOr_sorted_nil (t := f.summary) py.toConversions rfl,
    strOr_sorted_nil (t := f.body) py.toConversions rfl,
    optionalStr_sorted (o := f.targetSessionId) py rfl,
    optionalStr_sorted (o := f.targetPrUrl) py rfl,
    optionalStr_sorted (o := f.targetIssueUrl) py rfl,
    optionalInt_sorted (o := f.targetThreadId) py rfl, optionalStr_sorted (o := f.author) py rfl]
  rfl

theorem routeRole_ne_nil (f : ReviewFeedback) (haystack paths : Text) :
    (routeRole f haystack paths).1 ≠ [] := by
  unfold routeRole
  split_ifs <;> decide

theorem get?_routing (f : ReviewFeedback) (r : ReviewRouting) :
    ((feedbackRecord f r).sorted.get? (lit "routing")).bind Document.dict? = some r.toDict.sorted := by
  have hlookup : (feedbackRecord f r).members.lookup (lit "routing") = some (.obj r.toDict.members) := by
    rw [feedbackRecord, JsonDict.set, lookup_setKey, if_pos rfl]
    rfl
  rw [get?_sorted_of r.toDict.valid hlookup]
  rfl

/-- **The record gives the routing back.** -/
theorem routingFromRecord_sorted (py : Readers) (f fallback : ReviewFeedback) (r : ReviewRouting)
    (hid : r.feedbackId = fallback.feedbackId) (hrole : r.primaryRole ≠ []) :
    routingFromRecord py (feedbackRecord f r).sorted fallback = some r := by
  rw [routingFromRecord, get?_routing]
  simp only
  rw [textsOr_sorted (l := r.supportingRoles) py rfl, textsOr_sorted (l := r.reasons) py rfl,
    textsOr_sorted (l := r.referenceSources) py rfl, textsOr_sorted (l := r.referenceGaps) py rfl,
    strOr_sorted (t := r.primaryRole) py.toConversions rfl, if_neg hrole,
    boolOrFalse_sorted (b := r.referenceNeeded) py.toConversions rfl, ← hid]
  rfl

/-- The record carries the id of the feedback. -/
theorem lookup_feedbackId (f : ReviewFeedback) (r : ReviewRouting) :
    (feedbackRecord f r).sorted.members.lookup (lit "feedback_id") = some (.str f.feedbackId) := by
  have hlookup : (feedbackRecord f r).members.lookup (lit "feedback_id") = some (.str f.feedbackId) := by
    rw [feedbackRecord, JsonDict.set, lookup_setKey, if_neg (by decide)]
    rfl
  rw [lookup_sorted_of hlookup]
  rfl

/-! ## What is said in the thread -/

/-- `", ".join(ts)`. -/
def joinComma (ts : List Text) : Text := (lit ", ").intercalate ts

/-- A text between backticks. -/
def inCode (t : Text) : Text := lit "`" ++ t ++ lit "`"

/-- `- ` and each item. -/
def bullets (ts : List Text) : List Text := ts.map (lit "- " ++ ·)

/-- The lines, unless there is nothing to say. -/
def section? {α : Type} (l : List α) (lines : List Text) : List Text := if l.isEmpty then [] else lines

/-- The line of one reference. -/
def referenceLine (py : Readers) (ref : JsonDict) : Text :=
  let or? := fun v w => if py.truthy v then v else w
  let label := or? (get ref.members (lit "title")) (or? (get ref.members (lit "source")) (.str []))
  let url := get ref.members (lit "url")
  if py.truthy url then lit "- " ++ py.strOf label ++ lit " — " ++ py.strOf url
  else lit "- " ++ py.strOf label

/-- What `respond_to_review` is given beside the feedback. -/
structure ReviewReply where
  applied : List Text
  proposed : List Text := []
  remaining : List Text := []
  referencesUsed : List JsonDict := []

/-- `format_review_reply_message`. -/
def formatReviewReplyMessage (py : Readers) (f : ReviewFeedback) (r : ReviewRouting)
    (sessionId : Text) (reviewCycle : Int) (reply : ReviewReply) : Text :=
  Py.joinLines <|
    [lit "**리뷰 회신 (cycle " ++ strInt reviewCycle ++ lit ")**",
      lit "- 세션: " ++ inCode sessionId,
      lit "- 담당: " ++ inCode r.primaryRole,
      lit "- 원 피드백: " ++ f.summary,
      []]
    ++ (if reply.applied.isEmpty then [lit "**적용한 수정**: 없음 (제안만 정리)"]
      else lit "**적용한 수정**" :: bullets reply.applied)
    ++ section? reply.proposed ([[], lit "**추가 제안**"] ++ bullets reply.proposed)
    ++ section? reply.remaining ([[], lit "**남은 이슈**"] ++ bullets reply.remaining)
    ++ if !reply.referencesUsed.isEmpty then
        [[], lit "**참고한 레퍼런스**"] ++ reply.referencesUsed.map (referenceLine py)
      else if r.referenceNeeded && !r.referenceSources.isEmpty then
        [[], lit "**참고 권장 소스**: " ++ joinComma r.referenceSources
          ++ lit " (약관상 자동 수집 금지 — 사용자 제공 또는 수동 참고)"]
      else []

end ForgeKit.Workflow
